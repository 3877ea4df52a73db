/-
This file gives the functions that remove or copy a path with everything below it, and the functions
that make a directory with every directory above it.
The shell keeps a stack of listings or directories, and the host of the scripts calls itself.
-/

import Mathlib.Data.List.DropRight
import TinySandbox.Construction.Sandbox.Fs

namespace TinySandbox.Sandbox
open Library Library.Task Mem

def joinPath (dir name : Text) : Text :=
  if dir = ['/'] then '/' :: name else dir ++ '/' :: name

namespace Fs

/-- The function also yields before each step. -/
def removeLoop (fs : Fs) : Nat → List (Text × List DirEntry) → FsTask Unit
  | _, [] => pure ()
  | 0, _ => diverge
  | fuel + 1, (path, []) :: stack => do
      fs.checkpoint
      fs.rmdir path
      removeLoop fs fuel stack
  | fuel + 1, (path, entry :: entries) :: stack => do
      fs.checkpoint
      let child := joinPath path entry.name
      if entry.metadata.fileType = .directory then do
        let below ← fs.readdir child
        removeLoop fs fuel ((child, below) :: (path, entries) :: stack)
      else do
        fs.unlink child
        removeLoop fs fuel ((path, entries) :: stack)

/-- This is `remove_path` of the shell. -/
def removePath (fs : Fs) (fuel : Nat) (path : Text) (recursive : Bool) : FsTask Unit := do
  let metadata ← fs.stat path
  if metadata.fileType ≠ .directory then fs.unlink path
  else do
    refuse (recursive = false) .EISDIR
    let entries ← fs.readdir path
    removeLoop fs fuel [(path, entries)]

/-- The code, the number and the message of the error follow from its errno. -/
structure NodeError where
  errno : Errno
  call : String
  path : Text
  deriving DecidableEq

def nodeError (call : String) (path : Text) (errno : Errno) : NodeError := { errno, call, path }

/-- The task ends with its error as a value. -/
def asNode {α : Type} (task : FsTask α) (call : String) (path : Text) :
    FsTask (Except NodeError α) := do
  let result ← attempt task
  pure (result.mapError (nodeError call path))

/-- The children are removed one after the other, up to the first error. -/
def removeEntries (remove : Text → FsTask (Except NodeError Unit)) (path : Text) :
    List DirEntry → FsTask (Except NodeError Unit)
  | [] => pure (.ok ())
  | entry :: entries => do
      match ← remove (joinPath path entry.name) with
      | .error error => pure (.error error)
      | .ok _ => removeEntries remove path entries

/-- This is `remove_path` of the JavaScript host. -/
def removePathJs (fs : Fs) : Nat → Text → Bool → FsTask (Except NodeError Unit)
  | 0, _, _ => diverge
  | fuel + 1, path, recursive => do
      match ← asNode (fs.stat path) "rm" path with
      | .error error => pure (.error error)
      | .ok metadata =>
          if metadata.fileType = .file then asNode (fs.unlink path) "unlink" path
          else if recursive = false then pure (.error (nodeError "rm" path .EISDIR))
          else
            match ← asNode (fs.readdir path) "scandir" path with
            | .error error => pure (.error error)
            | .ok entries =>
                match ← removeEntries (fun child => removePathJs fs fuel child true) path entries with
                | .error error => pure (.error error)
                | .ok _ => asNode (fs.rmdir path) "rmdir" path

end Fs

/-- The part behind the last slash, when the slashes at the end are ignored. -/
def basename (path : Text) : Text :=
  let name := ((path.rdropWhile (· = '/')).splitOn '/').getLastD []
  if name = [] then ['/'] else name

namespace Fs

/-- A directory is asked for with the name of the source. -/
def destinationFor (fs : Fs) (source dest : Text) : FsTask Text := do
  match ← attempt (fs.stat dest) with
  | .ok metadata =>
      if metadata.fileType = .directory then pure (joinPath dest (basename source)) else pure dest
  | .error _ => pure dest

/-- A directory may be there already. -/
def ensureDirectory (fs : Fs) (path : Text) : FsTask Unit := do
  match ← attempt (fs.mkdir path) with
  | .ok _ => pure ()
  | .error error =>
      if error = .EEXIST then do
        let metadata ← fs.stat path
        refuse (metadata.fileType ≠ .directory) .ENOTDIR
      else throw error

/-- A write may take only a part of the bytes. -/
def copyWrites (fs : Fs) (handle offset : Nat) (bytes : Bytes) (written : Nat) : FsTask Unit := do
  if _ : written < bytes.length then do
    fs.checkpoint
    let count ← fs.writeAt handle (offset + written) (bytes.drop written)
    if _ : count = 0 ∨ bytes.length - written < count then throw Errno.EIO
    else copyWrites fs handle offset bytes (written + count)
  else pure ()
termination_by bytes.length - written
decreasing_by omega

def copyChunks (fs : Fs) (sourceHandle destHandle : Nat) : Nat → Nat → FsTask Unit
  | 0, _ => diverge
  | fuel + 1, offset => do
      fs.checkpoint
      let bytes ← fs.readAt sourceHandle offset streamChunkBytes
      if bytes.length = 0 then pure ()
      else do
        fs.copyWrites destHandle offset bytes 0
        refuse (u64Max < offset + bytes.length) .EFBIG
        copyChunks fs sourceHandle destHandle fuel (offset + bytes.length)

/-- The destination is aborted when something failed before its close. -/
def copyOpened (fs : Fs) (fuel sourceHandle destHandle : Nat) : FsTask Unit := do
  let result ← attempt (fs.copyChunks sourceHandle destHandle fuel 0)
  let closed ← attempt (fs.close sourceHandle)
  match result.bind fun _ => closed with
  | .ok _ => fs.close destHandle
  | .error error => do
      let _ ← attempt (fs.abort destHandle)
      throw error

def copyMode : OpenMode where
  write := true
  create := true
  truncate := true

def copyFile (fs : Fs) (fuel : Nat) (source dest : Text) : FsTask Unit := do
  let sourceHandle ← fs.open source .readOnly
  match ← attempt (fs.open dest copyMode) with
  | .ok destHandle => fs.copyOpened fuel sourceHandle destHandle
  | .error error => do
      let _ ← attempt (fs.close sourceHandle)
      throw error

/-- The first number bounds the reads of a file, and the second one bounds the steps. -/
def copyLoop (fs : Fs) (reads : Nat) : Nat → List (Text × Text × List DirEntry) → FsTask Unit
  | _, [] => pure ()
  | 0, _ => diverge
  | fuel + 1, (_, _, []) :: stack => do
      fs.checkpoint
      copyLoop fs reads fuel stack
  | fuel + 1, (source, dest, entry :: entries) :: stack => do
      fs.checkpoint
      let childSource := joinPath source entry.name
      let childDest := joinPath dest entry.name
      if entry.metadata.fileType = .directory then do
        fs.ensureDirectory childDest
        let below ← fs.readdir childSource
        copyLoop fs reads fuel ((childSource, childDest, below) :: (source, dest, entries) :: stack)
      else do
        fs.copyFile reads childSource childDest
        copyLoop fs reads fuel ((source, dest, entries) :: stack)

/-- The containment is decided on the resolved paths. -/
def copyPath (fs : Fs) (fuel : Nat) (source dest : Text) (recursive : Bool) : FsTask Unit := do
  let source := fs.resolve source
  let dest := fs.resolve dest
  let metadata ← fs.stat source
  refuse (source = dest ∨ (metadata.fileType = .directory ∧
    (source = ['/'] ∨ source ++ ['/'] <+: dest))) .EINVAL
  if metadata.fileType ≠ .directory then fs.copyFile fuel source dest
  else do
    refuse (recursive = false) .EISDIR
    fs.ensureDirectory dest
    let entries ← fs.readdir source
    fs.copyLoop fuel fuel [(source, dest, entries)]

def ensureEach (fs : Fs) : Text → List Text → FsTask Unit
  | _, [] => pure ()
  | current, part :: parts => do
      let current := current ++ '/' :: part
      fs.ensureDirectory current
      ensureEach fs current parts

/-- This is `mkdir_p` of the shell. -/
def mkdirP (fs : Fs) (path : Text) : FsTask Unit :=
  fs.ensureEach [] (((fs.resolve path).splitOn '/').filter (· ≠ []))

/-- An entry that is no directory keeps the error of the first call. -/
def mkdirPart (fs : Fs) (path current : Text) : FsTask (Except NodeError Unit) := do
  match ← attempt (fs.mkdir current) with
  | .ok _ => pure (.ok ())
  | .error error =>
      if error = .EEXIST then do
        match ← attempt (fs.stat current) with
        | .ok metadata =>
            if metadata.fileType = .directory then pure (.ok ())
            else pure (.error (nodeError "mkdir" path error))
        | .error statError => pure (.error (nodeError "mkdir" path statError))
      else pure (.error (nodeError "mkdir" path error))

def mkdirParts (fs : Fs) (path : Text) : Text → List Text → FsTask (Except NodeError Unit)
  | _, [] => pure (.ok ())
  | current, part :: parts => do
      let current := current ++ '/' :: part
      match ← fs.mkdirPart path current with
      | .error error => pure (.error error)
      | .ok _ => mkdirParts fs path current parts

/-- This is `mkdir_recursive` of the JavaScript host. -/
def mkdirRecursive (fs : Fs) (path : Text) : FsTask (Except NodeError Unit) :=
  let resolved := fs.resolve path
  if resolved = ['/'] then pure (.ok ())
  else fs.mkdirParts path [] ((trimStartMatches ['/'] resolved).splitOn '/')

end Fs

end TinySandbox.Sandbox
