/-
This file gives the operations of the portable dispatcher.
An operation stops at every promise of the `Vfs`, and its runner decides how it goes on.
-/

import TinySandbox.Construction.Portable.Encoding

namespace TinySandbox.Portable
open Library Library.Task

/-- The options of a run that the dispatcher reads. -/
structure Settings where
  cwd : Text := ['/']
  hostInputBytes : Nat := 8 * 1024 * 1024
  hostResponseBytes : Nat := 1024 * 1024
  maxOpenFiles : Nat := 1024
  hasAbort : Bool := true

/-- The run stops an operation at its next checkpoint. -/
def checkpoint : VfsOperation Unit := do
  let passes ← request Request.checkpoint
  refuse (passes = false) Thrown.cancelled

def answered (syscall : String) (path : Option Text) : Answer → VfsOperation Reply
  | .returned reply => pure reply
  | .failed code => throw (vfsFailure code syscall path)
  | .wouldBlock => throw (wouldBlockFailure syscall path)

def callVfs (call : BoundCall) (syscall : String) (path : Option Text) : VfsOperation Reply := do
  let answer ← request (Request.vfs call)
  answered syscall path answer

/-- A handle that is not valid is closed before the error. -/
def checkedHandle (path : Text) (handle : Handle) : VfsOperation Handle :=
  if handle.IsValid then pure handle
  else do
    let _ ← attempt (callVfs (.close handle) "close" none)
    throw (vfsFailure none "open" (some path))

def openVfs (path : Text) (mode : OpenMode) : VfsOperation Handle := do
  let reply ← callVfs (.open path mode) "open" (some path)
  checkedHandle path { value := reply.value, call := reply.call }

/-- A count is at most the length of the buffer or of the data. -/
def checkedCount (reply : Reply) (bound : Nat) (syscall : String) : Except Thrown Nat :=
  match reply.value.natural with
  | some count => if count ≤ bound then .ok count else .error (vfsFailure none syscall)
  | none => .error (vfsFailure none syscall)

def readChunk (handle : Handle) (length maximumBytes : Nat) : VfsOperation Bytes := do
  checkpoint
  let size := min 8192 (maximumBytes - min length maximumBytes + 1)
  let reply ← callVfs (.readAt handle length size) "read" none
  checkpoint
  let count ← lift (checkedCount reply size "read")
  pure (reply.buffer.takeD count 0)

def readLoop (handle : Handle) (maximumBytes : Nat) (data : Bytes) : VfsOperation Bytes := do
  let chunk ← readChunk handle data.length maximumBytes
  if _ : chunk.length = 0 then pure data
  else if _ : maximumBytes < data.length + chunk.length then throw .range
  else readLoop handle maximumBytes (data ++ chunk)
termination_by maximumBytes - data.length
decreasing_by
  simp only [List.length_append]
  omega

/-- The first of two errors is thrown. -/
def firstError {α : Type} (result : Except Thrown α) (closed : Except Thrown Reply) :
    VfsOperation α :=
  match result, closed with
  | .error error, _ => throw error
  | .ok _, .error error => throw error
  | .ok value, .ok _ => pure value

def readAll (path : Text) (maximumBytes : Nat) : VfsOperation Bytes := do
  checkpoint
  let handle ← openVfs path { read := true }
  let result ← attempt (readLoop handle maximumBytes [])
  let closed ← attempt (callVfs (.close handle) "close" none)
  firstError result closed

def writeChunk (handle : Handle) (data : Bytes) (written : Nat) : VfsOperation Nat := do
  checkpoint
  let reply ← callVfs (.writeAt handle written (data.drop written)) "write" none
  let count ← lift (checkedCount reply (data.length - written) "write")
  refuse (count = 0) (vfsFailure (some .ENOSPC) "write")
  pure count

def writeLoop (handle : Handle) (data : Bytes) (written : Nat) : VfsOperation Unit :=
  if _ : written < data.length then do
    let count ← writeChunk handle data written
    if _ : count = 0 then diverge else writeLoop handle data (written + count)
  else pure ()
termination_by data.length - written
decreasing_by omega

/-- A failed write discards what it staged when the `Vfs` can. -/
def release (settings : Settings) (failed : Bool) (handle : Handle) : BoundCall :=
  if failed && settings.hasAbort then .abort handle else .close handle

def failedResult {α : Type} : Except Thrown α → Bool
  | .error _ => true
  | .ok _ => false

def writeAll (settings : Settings) (path : Text) (data : Bytes) (append : Bool) :
    VfsOperation Unit := do
  checkpoint
  let mode : OpenMode := if append then { write := true, create := true, append := true }
    else { write := true, create := true, truncate := true }
  let handle ← openVfs path mode
  let result ← attempt (writeLoop handle data 0)
  let closed ← attempt (callVfs (release settings (failedResult result) handle) "close" none)
  firstError result closed

def absolute (settings : Settings) (value : Argument) : Except Thrown Text :=
  match value with
  | .string text =>
      let path := resolvePath settings.cwd text
      if '\x00' ∈ path ∨ 257 < (pathParts path).length then
        .error (invalidVfsCall "tinysandbox" (some path))
      else .ok path
  | _ => .error (invalidVfsCall "tinysandbox")

def readBytes (settings : Settings) : Nat :=
  min settings.hostInputBytes ((settings.hostResponseBytes - 128) / 4 * 3)

def rangeAsHost {α : Type} (path : Text) : Except Thrown α → VfsOperation α
  | .error .range => throw (vfsFailure (some .EFBIG) "open" (some path))
  | result => lift result

def readFile (path : Text) (cap : Nat) : VfsOperation Bytes := do
  let result ← attempt (readAll path cap)
  rangeAsHost path result

/-- A host failure gets the name and the path of the host call. -/
def remapped {α : Type} (syscall : String) (path : Text) : Except Thrown α → VfsOperation α
  | .error (.host failure) => throw (.host { failure with
      payload := { failure.payload with syscall, path := some path } })
  | result => lift result

def remapHostFailure {α : Type} (operation : VfsOperation α) (syscall : String) (path : Text) :
    VfsOperation α := do
  let result ← attempt operation
  remapped syscall path result

def metadata (path : Text) (syscall : String := "stat") : VfsOperation Metadata := do
  let reply ← callVfs (.stat path) syscall (some path)
  lift (checkedMetadata reply.value syscall (some path))

def hasCode {α : Type} (code : VfsErrno) : Except Thrown α → Bool
  | .error (.host failure) => failure.payload.code = code
  | _ => false

/-- A directory that exists is as good as one that was made. -/
def madeDirectory (current : Text) (made : Except Thrown Reply) : VfsOperation Unit :=
  if hasCode .EEXIST made then do
    let info ← metadata current
    if info.fileType = .directory then pure ()
    else do
      let _ ← lift made
      pure ()
  else do
    let _ ← lift made
    pure ()

def mkdirParts (path current : Text) : List Text → VfsOperation Unit
  | [] => pure ()
  | part :: parts => do
      checkpoint
      let current := current ++ '/' :: part
      let made ← attempt (callVfs (.mkdir current) "mkdir" (some path))
      madeDirectory current made
      mkdirParts path current parts

def mkdirRecursive (path : Text) : VfsOperation Unit := do
  checkpoint
  if path = ['/'] then pure () else mkdirParts path [] (pathParts (path.drop 1))

def joinPath (path name : Text) : Text :=
  if path = ['/'] then '/' :: name else path ++ '/' :: name

/-- A list of entries, or the error of a value that is none. -/
def listedEntries (value : Returned) (path : Text) : Except Thrown (List ReturnedEntry) :=
  match value with
  | .entries entries => .ok entries
  | _ => .error (vfsFailure none "scandir" (some path))

def entryName (entry : ReturnedEntry) (path : Text) : Except Thrown Text :=
  match entry with
  | .entry name _ =>
      if '/' ∈ name then .error (vfsFailure none "scandir" (some path)) else .ok name
  | .other => .error (vfsFailure none "scandir" (some path))

/-- Every entry is checked right before it is removed. -/
def removeEntries (remove : Text → VfsOperation Unit) (path : Text) :
    List ReturnedEntry → VfsOperation Unit
  | [] => pure ()
  | entry :: entries => do
      let name ← lift (entryName entry path)
      remove (joinPath path name)
      removeEntries remove path entries

def removeDirectory (remove : Text → VfsOperation Unit) (path : Text) (recursive : Bool) :
    VfsOperation Unit := do
  refuse (recursive = false) (vfsFailure (some .EISDIR) "rm" (some path))
  let reply ← callVfs (.readdir path) "scandir" (some path)
  let entries ← lift (listedEntries reply.value path)
  removeEntries remove path entries
  let _ ← callVfs (.rmdir path) "rmdir" (some path)
  pure ()

def removeFile (path : Text) : VfsOperation Unit := do
  let _ ← callVfs (.unlink path) "unlink" (some path)
  pure ()

/-- A `Vfs` decides how deep a removal goes, so the fuel is no part of the source. -/
def removePath : Nat → Text → Bool → VfsOperation Unit
  | 0, _, _ => diverge
  | fuel + 1, path, recursive => do
      checkpoint
      refuse (257 < (pathParts path).length) (invalidVfsCall "rm" (some path))
      let info ← metadata path "rm"
      if info.fileType = .file then removeFile path
      else removeDirectory (fun child => removePath fuel child true) path recursive

end TinySandbox.Portable
