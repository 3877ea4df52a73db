/-
This file routes the calls of one filesystem to the backends that are mounted below its root.
A backend is named by its mount, so that no two mounts share one.
-/

import TinySandbox.Construction.Mem.World
import TinySandbox.Construction.Path
import TinySandbox.Library.Program

namespace TinySandbox.Mounted
open Library Library.Task Mem

structure MountRequest where
  mount : Name
  call : VfsCall

abbrev MountRequest.Response (request : MountRequest) : Type := VfsResult request.call.Value

abbrev MountEvent := Event MountRequest MountRequest.Response

structure MountedHandle where
  mount : Name
  inner : Nat

/-- The counter is a `u64` that wraps. -/
structure State where
  handles : OrderedMap Nat MountedHandle
  nextHandle : Nat

def firstHandle : Nat := 1

def State.new : State where
  handles := ∅
  nextHandle := firstHandle

abbrev MountTask := Task MountRequest MountRequest.Response Errno State

def validateMountName (name : Name) : VfsResult Unit :=
  if name = [] ∨ name = ['.'] ∨ name = ['.', '.'] ∨ name = ['b', 'i', 'n'] ∨ '/' ∈ name ∨
      '\x00' ∈ name then .error .EINVAL
  else .ok ()

structure MountedVfs where
  mounts : OrderedMap Name Unit
  valid : ∀ entry ∈ mounts.entries, validateMountName entry.1 = .ok ()

structure MountedPath where
  mount : Name
  inner : Text
  atMount : Bool

def directoryMetadata : Metadata where
  fileType := .directory
  len := 0

namespace MountedVfs

def new (mounts : OrderedMap Name Unit) : VfsResult MountedVfs :=
  if valid : ∀ entry ∈ mounts.entries, validateMountName entry.1 = .ok () then
    .ok { mounts, valid }
  else .error .EINVAL

/-- The first name selects the mount, and the backend gets the rest. -/
def mountedPath (vfs : MountedVfs) (path : Text) : VfsResult (Option MountedPath) := do
  let components ← normalizePath path
  match components with
  | [] => .ok none
  | name :: rest =>
      if vfs.mounts.get name = none then .error .ENOENT
      else
        .ok (some {
          mount := name
          inner := if rest = [] then ['/'] else joinAbsolute rest
          atMount := rest = [] })

/-- The search takes the first number that is neither zero nor live. -/
def vacant (handles : OrderedMap Nat MountedHandle) : Nat → Nat → Option Nat
  | 0, _ => none
  | fuel + 1, raw =>
      if raw ≠ 0 ∧ handles.get raw = none then some raw
      else vacant handles fuel ((raw + 1) % 2 ^ 64)

/-- One number is zero and one is live for each handle, so a longer search never ends. -/
def insertHandle (mount : Name) (inner : Nat) : MountTask Nat := do
  let state ← get
  match vacant state.handles (state.handles.size + 2) state.nextHandle with
  | none => diverge
  | some outer => do
      set ({
        handles := state.handles.insert outer { mount, inner }
        nextHandle := (outer + 1) % 2 ^ 64 } : State)
      pure outer

/-- This sends one call to one backend. -/
def forward (mount : Name) (call : VfsCall) : MountTask call.Value := do
  let response ← request ({ mount, call } : MountRequest)
  lift response

def stat (vfs : MountedVfs) (path : Text) : MountTask Metadata := do
  let mounted ← lift (vfs.mountedPath path)
  match mounted with
  | some path => forward path.mount (.stat path.inner)
  | none => pure directoryMetadata

def readdir (vfs : MountedVfs) (path : Text) : MountTask (List DirEntry) := do
  let mounted ← lift (vfs.mountedPath path)
  match mounted with
  | some path => forward path.mount (.readdir path.inner)
  | none =>
      pure (vfs.mounts.entries.map fun entry =>
        { name := entry.1, metadata := directoryMetadata })

/-- A name without a mount cannot be created. -/
def createError : Errno → Errno
  | .ENOENT => .EACCES
  | error => error

def mkdir (vfs : MountedVfs) (path : Text) : MountTask Unit :=
  match vfs.mountedPath path with
  | .ok (some path) =>
      if path.atMount then throw .EEXIST else forward path.mount (.mkdir path.inner)
  | .ok none => throw .EACCES
  | .error error => throw (createError error)

def rename (vfs : MountedVfs) (source target : Text) : MountTask Unit := do
  let mounted ← lift (vfs.mountedPath source)
  let source ← lift (Call.okOr .EBUSY mounted)
  refuse source.atMount .EBUSY
  let mounted ← lift (Except.mapError createError (vfs.mountedPath target))
  let target ← lift (Call.okOr .EBUSY mounted)
  refuse target.atMount .EBUSY
  refuse (source.mount ≠ target.mount) .EXDEV
  forward source.mount (.rename source.inner target.inner)

def unlink (vfs : MountedVfs) (path : Text) : MountTask Unit := do
  let mounted ← lift (vfs.mountedPath path)
  match mounted with
  | some path => if path.atMount then throw .EISDIR else forward path.mount (.unlink path.inner)
  | none => throw .EISDIR

def rmdir (vfs : MountedVfs) (path : Text) : MountTask Unit := do
  let mounted ← lift (vfs.mountedPath path)
  match mounted with
  | some path => if path.atMount then throw .EBUSY else forward path.mount (.rmdir path.inner)
  | none => throw .EBUSY

def «open» (vfs : MountedVfs) (path : Text) (mode : OpenMode) : MountTask Nat := do
  let mounted ← lift (vfs.mountedPath path)
  let path ← lift (Call.okOr .EISDIR mounted)
  refuse path.atMount .EISDIR
  let inner ← forward path.mount (.open path.inner mode)
  insertHandle path.mount inner

/-- This looks a live handle up. -/
def handle (handle : Nat) : MountTask MountedHandle := do
  let state ← get
  lift (Call.okOr .EBADF (state.handles.get handle))

def readAt (handle offset bufLen : Nat) : MountTask Bytes := do
  let mounted ← MountedVfs.handle handle
  forward mounted.mount (.readAt mounted.inner offset bufLen)

def writeAt (handle offset : Nat) (data : Bytes) : MountTask Nat := do
  let mounted ← MountedVfs.handle handle
  forward mounted.mount (.writeAt mounted.inner offset data)

def truncate (handle len : Nat) : MountTask Unit := do
  let mounted ← MountedVfs.handle handle
  forward mounted.mount (.truncate mounted.inner len)

/-- The handle leaves the table before the backend is called. -/
def removeHandle (handle : Nat) : MountTask MountedHandle := do
  let mounted ← MountedVfs.handle handle
  let state ← get
  set { state with handles := state.handles.erase handle }
  pure mounted

def close (handle : Nat) : MountTask Unit := do
  let mounted ← removeHandle handle
  forward mounted.mount (.close mounted.inner)

def abort (handle : Nat) : MountTask Unit := do
  let mounted ← removeHandle handle
  forward mounted.mount (.abort mounted.inner)

def call (vfs : MountedVfs) : (call : VfsCall) → MountTask call.Value
  | .stat path => vfs.stat path
  | .readdir path => vfs.readdir path
  | .mkdir path => vfs.mkdir path
  | .rename source target => vfs.rename source target
  | .unlink path => vfs.unlink path
  | .rmdir path => vfs.rmdir path
  | .open path mode => vfs.open path mode
  | .readAt handle offset bufLen => readAt handle offset bufLen
  | .writeAt handle offset data => writeAt handle offset data
  | .truncate handle len => truncate handle len
  | .close handle => close handle
  | .abort handle => abort handle

end MountedVfs

/-- A step is a call with the requests it sent, the responses it got, and its reply. -/
structure Step where
  call : VfsCall
  events : List MountEvent
  reply : VfsResult call.Value

/-- The calls run one after the other, whatever the backends answer. -/
def Session (vfs : MountedVfs) : State → List Step → State → Prop
  | before, [], after => after = before
  | before, step :: rest, after =>
      ∃ middle, (vfs.call step.call).Runs before step.events step.reply middle ∧
        Session vfs middle rest after

end TinySandbox.Mounted
