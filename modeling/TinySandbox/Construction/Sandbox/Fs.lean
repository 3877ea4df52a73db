/-
This file gives the filesystem that sandbox commands use.
Its requests go to the execution, to the registry of open handles, to the worker pool, and to
the backend.
-/

import TinySandbox.Construction.Mem.World
import TinySandbox.Construction.Path
import TinySandbox.Library.Program

namespace TinySandbox.Sandbox
open Library Library.Task Mem

def streamChunkBytes : Nat := 64 * 1024

/-- These are the limits that the filesystem reads. -/
structure Limits where
  hostInputBytes : Nat := 8 * 1024 * 1024
  maxOpenFiles : Nat := 1024
  maxPathDepth : Nat := 256

inductive FsRequest where
  | isCancelled
  | reserve
  | release
  | insert (handle : Nat)
  | remove (handle : Nat)
  | abandon (handle : Nat)
  | isFastPath (path : Text)
  | isFastHandle (handle : Nat)
  | acquireWorker
  | spawnBlocking
  | vfs (call : VfsCall)

/-- A worker that never ran its closure answers `spawnBlocking` with `false`. -/
abbrev FsRequest.Response : FsRequest → Type
  | .isCancelled => Bool
  | .reserve => VfsResult Unit
  | .release => Unit
  | .insert _ => Unit
  | .remove _ => VfsResult Unit
  | .abandon _ => Unit
  | .isFastPath _ => Bool
  | .isFastHandle _ => Bool
  | .acquireWorker => Bool
  | .spawnBlocking => Bool
  | .vfs call => VfsResult call.Value

abbrev FsTask := Task FsRequest FsRequest.Response Errno Unit

/-- A name is removed from the start of the text as often as it stands there. -/
def trimStartMatches (start text : Text) : Text :=
  if start ≠ [] ∧ start <+: text then trimStartMatches start (text.drop start.length) else text
termination_by text.length
decreasing_by
  rename_i found
  have := List.length_pos_of_ne_nil found.1
  have := found.2.length_le
  simp only [List.length_drop]
  omega

def binDirectory : Text := ['/', 'b', 'i', 'n']

/-- Every path below the directory of commands starts with this text. -/
def binPrefix : Text := ['/', 'b', 'i', 'n', '/']

def isBinPath (path : Text) : Bool := path = binDirectory ∨ binPrefix <+: path

def normalizeAbsoluteStep (parts : Path) (part : Text) : Path :=
  if part = [] ∨ part = ['.'] then parts
  else if part = ['.', '.'] then parts.dropLast
  else parts ++ [part]

def normalizeAbsolute (path : Text) : Text :=
  let parts := (path.splitOn '/').foldl normalizeAbsoluteStep []
  if parts = [] then ['/'] else '/' :: ['/'].intercalate parts

/-- The host filesystem of a sandbox has no execution that controls it. -/
structure Fs where
  binCommands : OrderedMap Name Unit
  cwd : Text
  limits : Limits
  controlled : Bool

namespace Fs

/-- This is the text that `resolve` normalizes. -/
def absolute (fs : Fs) (path : Text) : Text :=
  if path.head? = some '/' then path
  else if fs.cwd = ['/'] then '/' :: path
  else fs.cwd ++ '/' :: path

def resolve (fs : Fs) (path : Text) : Text := normalizeAbsolute (fs.absolute path)

def maxIoBytes (fs : Fs) : Nat := max fs.limits.hostInputBytes streamChunkBytes

def isCancelled (fs : Fs) : FsTask Bool :=
  if fs.controlled then request FsRequest.isCancelled else pure false

def check (fs : Fs) : FsTask Unit := do
  let cancelled ← fs.isCancelled
  refuse (cancelled = true) Errno.EIO

/-- The function yields before it checks. -/
def checkpoint (fs : Fs) : FsTask Unit := fs.check

/-- A path passes when it has no NUL and not too many names. -/
def PathPasses (fs : Fs) (path : Text) : Prop :=
  ¬ ('\x00' ∈ path ∨
    min fs.limits.maxPathDepth 256 < ((path.splitOn '/').filter (· ≠ [])).length)

instance (fs : Fs) (path : Text) : Decidable (fs.PathPasses path) :=
  inferInstanceAs (Decidable (¬ (_ ∨ _)))

def checkPath (fs : Fs) (path : Text) : FsTask Unit := do
  fs.check
  refuse (¬ fs.PathPasses path) .EINVAL

def vfs (call : VfsCall) : FsTask call.Value := do
  let response ← request (FsRequest.vfs call)
  lift response

/-- Cleanup goes on in an execution that has ended. -/
def checkUnless (fs : Fs) (cleanup : Bool) : FsTask Unit :=
  if cleanup then pure () else fs.check

/-- A worker checks the execution again before it runs the operation. -/
def dispatch {α : Type} (fs : Fs) (fast cleanup : Bool) (operation : FsTask α) : FsTask α := do
  fs.checkUnless cleanup
  if fast then operation
  else do
    let permit ← request FsRequest.acquireWorker
    refuse (permit = false) Errno.EIO
    let ran ← request FsRequest.spawnBlocking
    refuse (ran = false) Errno.EIO
    fs.checkUnless cleanup
    operation

def dispatchPath {α : Type} (fs : Fs) (path : Text) (operation : FsTask α) : FsTask α := do
  fs.checkPath path
  let fast ← request (FsRequest.isFastPath path)
  fs.dispatch fast false operation

def onHandle {α : Type} (fs : Fs) (handle : Nat) (cleanup : Bool) (operation : FsTask α) :
    FsTask α := do
  let fast ← request (FsRequest.isFastHandle handle)
  fs.dispatch fast cleanup operation

def binStat (fs : Fs) (path : Text) : Option (VfsResult Metadata) :=
  if path = binDirectory then some (.ok { fileType := .directory, len := 0 })
  else if binPrefix <+: path then
    let name := path.drop binPrefix.length
    if '/' ∉ name ∧ (fs.binCommands.get name).isSome then
      some (.ok { fileType := .file, len := 0 })
    else some (.error .ENOENT)
  else none

def stat (fs : Fs) (path : Text) : FsTask Metadata := do
  let path := fs.resolve path
  fs.checkPath path
  match fs.binStat path with
  | some metadata => lift metadata
  | none => fs.dispatchPath path (vfs (.stat path))

def binEntry : DirEntry where
  name := ['b', 'i', 'n']
  metadata := { fileType := .directory, len := 0 }

/-- The root lists the directory of commands among the entries of the backend. -/
def readdirRoot (fs : Fs) : FsTask (List DirEntry) := do
  let entries ← fs.dispatchPath ['/'] (vfs (.readdir ['/']))
  pure ((entries ++ [binEntry]).mergeSort fun first second => first.name ≤ second.name)

def readdir (fs : Fs) (path : Text) : FsTask (List DirEntry) := do
  let path := fs.resolve path
  fs.checkPath path
  if path = ['/'] then fs.readdirRoot
  else if path = binDirectory then
    pure (fs.binCommands.entries.map fun command =>
      { name := command.1, metadata := { fileType := .file, len := 0 } })
  else if binPrefix <+: path then throw .ENOTDIR
  else fs.dispatchPath path (vfs (.readdir path))

/-- `mkdir`, `unlink` and `rmdir` differ in the call that they send. -/
def change (fs : Fs) (path : Text) (operation : Text → FsTask Unit) : FsTask Unit := do
  let path := fs.resolve path
  fs.checkPath path
  refuse (isBinPath path) .EACCES
  fs.dispatchPath path (operation path)

def mkdir (fs : Fs) (path : Text) : FsTask Unit := fs.change path fun path => vfs (.mkdir path)

def unlink (fs : Fs) (path : Text) : FsTask Unit := fs.change path fun path => vfs (.unlink path)

def rmdir (fs : Fs) (path : Text) : FsTask Unit := fs.change path fun path => vfs (.rmdir path)

/-- The second path is asked for only when the first is fast. -/
def areFastPaths (source target : Text) : FsTask Bool := do
  let fast ← request (FsRequest.isFastPath source)
  if fast then request (FsRequest.isFastPath target) else pure false

/-- The boundary comes before the check of the paths. -/
def rename (fs : Fs) (source target : Text) : FsTask Unit := do
  let source := fs.resolve source
  let target := fs.resolve target
  refuse (isBinPath source || isBinPath target) .EACCES
  fs.checkPath source
  fs.checkPath target
  let fast ← areFastPaths source target
  fs.dispatch fast false (vfs (.rename source target))

/-- The error of an open at the directory of commands or below. -/
def binOpenError (fs : Fs) (path : Text) (mode : OpenMode) : Errno :=
  if path = binDirectory then .EISDIR
  else if ¬ mode.write ∧ (fs.binCommands.get (trimStartMatches binPrefix path)).isNone then .ENOENT
  else .EACCES

/-- A cancelled execution takes the new handle back. -/
def deliver (fs : Fs) (handle : Nat) : FsTask Nat := do
  request (FsRequest.insert handle)
  let cancelled ← fs.isCancelled
  if cancelled then do
    let removed ← request (FsRequest.remove handle)
    lift removed
    let _ ← attempt (vfs (.abort handle))
    request FsRequest.release
    throw Errno.EIO
  else pure handle

def openReserved (fs : Fs) (path : Text) (mode : OpenMode) : FsTask Nat := do
  let reserved ← request FsRequest.reserve
  lift reserved
  let opened ← attempt (vfs (.open path mode))
  match opened with
  | .error error => do
      request FsRequest.release
      throw error
  | .ok handle => fs.deliver handle

def «open» (fs : Fs) (path : Text) (mode : OpenMode) : FsTask Nat := do
  let path := fs.resolve path
  fs.checkPath path
  refuse (isBinPath path) (fs.binOpenError path mode)
  fs.dispatchPath path (fs.openReserved path mode)

def readAt (fs : Fs) (handle offset bufLen : Nat) : FsTask Bytes := do
  refuse (fs.maxIoBytes < bufLen) .EFBIG
  fs.onHandle handle false do
    let bytes ← vfs (.readAt handle offset bufLen)
    refuse (bufLen < bytes.length) Errno.EIO
    pure bytes

def writeAt (fs : Fs) (handle offset : Nat) (data : Bytes) : FsTask Nat := do
  refuse (fs.maxIoBytes < data.length) .EFBIG
  fs.onHandle handle false do
    let count ← vfs (.writeAt handle offset data)
    refuse (data.length < count) Errno.EIO
    pure count

def truncate (fs : Fs) (handle len : Nat) : FsTask Unit :=
  fs.onHandle handle false (vfs (.truncate handle len))

/-- The admission is given back after the backend returned, whatever it returned. -/
def release (handle : Nat) (abort : Bool) : FsTask Unit := do
  let result ← attempt (if abort then vfs (.abort handle) else vfs (.close handle))
  request FsRequest.release
  lift result

def finish (fs : Fs) (handle : Nat) (abort : Bool) : FsTask Unit :=
  fs.onHandle handle true do
    let removed ← request (FsRequest.remove handle)
    lift removed
    if abort then release handle true
    else do
      let cancelled ← fs.isCancelled
      release handle cancelled

def close (fs : Fs) (handle : Nat) : FsTask Unit := fs.finish handle false

def abort (fs : Fs) (handle : Nat) : FsTask Unit := fs.finish handle true

/-- The handle that a function owns is abandoned when the function returns. -/
def owned {α : Type} (handle : Nat) (task : FsTask α) : FsTask α := do
  let result ← attempt task
  request (FsRequest.abandon handle)
  lift result

def readLoop (fs : Fs) (handle limit : Nat) (out : Bytes) : FsTask Bytes := do
  fs.checkpoint
  let want := min streamChunkBytes (min (limit - out.length + 1) u64Max)
  let bytes ← fs.readAt handle out.length want
  if _ : bytes.length = 0 then pure out
  else if _ : limit - out.length < bytes.length then throw .EFBIG
  else readLoop fs handle limit (out ++ bytes)
termination_by limit - out.length
decreasing_by
  simp only [List.length_append]
  omega

def readFileBounded (fs : Fs) (path : Text) (limit : Nat) : FsTask Bytes := do
  let path := fs.resolve path
  fs.checkPath path
  if path = binDirectory then throw .EISDIR
  else if binPrefix <+: path then
    if (fs.binCommands.get (path.drop binPrefix.length)).isSome then pure [] else throw .ENOENT
  else do
    let limit := min limit fs.limits.hostInputBytes
    let handle ← fs.open path .readOnly
    owned handle do
      let result ← attempt (fs.readLoop handle limit [])
      let closed ← attempt (fs.close handle)
      match result, closed with
      | .ok data, .ok _ => pure data
      | .error error, _ => throw error
      | .ok _, .error error => throw error

def readFile (fs : Fs) (path : Text) : FsTask Bytes :=
  fs.readFileBounded path fs.limits.hostInputBytes

/-- The reader keeps the handle that it returns. -/
def streamReader (fs : Fs) (path : Text) : FsTask Nat := fs.open path .readOnly

def writeLoop (fs : Fs) (handle : Nat) (data : Bytes) (written : Nat) : FsTask Unit := do
  if _ : written < data.length then do
    fs.checkpoint
    let stop := min data.length (min (written + streamChunkBytes) u64Max)
    let count ← fs.writeAt handle written ((data.take stop).drop written)
    if _ : count = 0 then throw .ENOSPC
    else writeLoop fs handle data (written + count)
  else pure ()
termination_by data.length - written
decreasing_by omega

def writeFile (fs : Fs) (path : Text) (data : Bytes) (append : Bool) : FsTask Unit := do
  refuse (fs.limits.hostInputBytes < data.length) .EFBIG
  let mode : OpenMode :=
    if append then { write := true, create := true, append := true }
    else { write := true, create := true, truncate := true }
  let handle ← fs.open path mode
  owned handle do
    let result ← attempt (fs.writeLoop handle data 0)
    match result with
    | .error error => do
        let _ ← attempt (fs.abort handle)
        throw error
    | .ok _ => fs.close handle

def touch (fs : Fs) (path : Text) : FsTask Unit := do
  let handle ← fs.open path { write := true, create := true }
  owned handle (fs.close handle)

end Fs

/-- These are the operations of the filesystem. -/
inductive FsCall where
  | stat (path : Text)
  | readdir (path : Text)
  | mkdir (path : Text)
  | rename (source target : Text)
  | unlink (path : Text)
  | rmdir (path : Text)
  | readFile (path : Text)
  | readFileBounded (path : Text) (limit : Nat)
  | streamReader (path : Text)
  | writeFile (path : Text) (data : Bytes) (append : Bool)
  | touch (path : Text)
  | «open» (path : Text) (mode : OpenMode)
  | readAt (handle offset bufLen : Nat)
  | writeAt (handle offset : Nat) (data : Bytes)
  | truncate (handle len : Nat)
  | close (handle : Nat)
  | abort (handle : Nat)

abbrev FsCall.Value : FsCall → Type
  | .stat _ => Metadata
  | .readdir _ => List DirEntry
  | .mkdir _ => Unit
  | .rename _ _ => Unit
  | .unlink _ => Unit
  | .rmdir _ => Unit
  | .readFile _ => Bytes
  | .readFileBounded _ _ => Bytes
  | .streamReader _ => Nat
  | .writeFile _ _ _ => Unit
  | .touch _ => Unit
  | .open _ _ => Nat
  | .readAt _ _ _ => Bytes
  | .writeAt _ _ _ => Nat
  | .truncate _ _ => Unit
  | .close _ => Unit
  | .abort _ => Unit

def FsCall.paths : FsCall → List Text
  | .stat path => [path]
  | .readdir path => [path]
  | .mkdir path => [path]
  | .rename source target => [source, target]
  | .unlink path => [path]
  | .rmdir path => [path]
  | .readFile path => [path]
  | .readFileBounded path _ => [path]
  | .streamReader path => [path]
  | .writeFile path _ _ => [path]
  | .touch path => [path]
  | .open path _ => [path]
  | .readAt _ _ _ => []
  | .writeAt _ _ _ => []
  | .truncate _ _ => []
  | .close _ => []
  | .abort _ => []

def Fs.call (fs : Fs) : (call : FsCall) → FsTask call.Value
  | .stat path => fs.stat path
  | .readdir path => fs.readdir path
  | .mkdir path => fs.mkdir path
  | .rename source target => fs.rename source target
  | .unlink path => fs.unlink path
  | .rmdir path => fs.rmdir path
  | .readFile path => fs.readFile path
  | .readFileBounded path limit => fs.readFileBounded path limit
  | .streamReader path => fs.streamReader path
  | .writeFile path data append => fs.writeFile path data append
  | .touch path => fs.touch path
  | .open path mode => fs.open path mode
  | .readAt handle offset bufLen => fs.readAt handle offset bufLen
  | .writeAt handle offset data => fs.writeAt handle offset data
  | .truncate handle len => fs.truncate handle len
  | .close handle => fs.close handle
  | .abort handle => fs.abort handle

end TinySandbox.Sandbox
