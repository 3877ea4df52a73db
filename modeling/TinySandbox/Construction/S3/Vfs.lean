/-
This file gives the calls of the S3 backend on its table of open handles.
-/

import TinySandbox.Construction.Mem.World
import TinySandbox.Construction.S3.Paths

namespace TinySandbox.S3
open Library Library.Task Mem

namespace S3Vfs

/-- The counter moves before the handle is stored. -/
def insertHandle (cell : HandleState) : S3Task State Nat := do
  let state ← get
  let nextHandle ← lift (Call.okOr Errno.EIO (checkedAdd state.nextHandle 1))
  set ({ nextHandle, handles := state.handles.insert state.nextHandle cell } : State)
  pure state.nextHandle

def «open» (vfs : S3Vfs) (path : Text) (mode : OpenMode) : S3Task State Nat := do
  let cell ← perform (vfs.openHandle path mode)
  insertHandle cell

/-- This runs a task on the state of a handle that stays in the table. -/
def onHandle {α : Type} (handle : Nat) (task : S3Task HandleState α) : S3Task State α := do
  let state ← get
  let cell ← lift (Call.okOr .EBADF (state.handles.get handle))
  focus cell (fun cell => { state with handles := state.handles.insert handle cell }) task

/-- This runs a task on the state of a handle that leaves the table first. -/
def onRemoved {α : Type} (handle : Nat) (task : S3Task HandleState α) : S3Task State α := do
  let state ← get
  let cell ← lift (Call.okOr .EBADF (state.handles.get handle))
  focus cell (fun _ => { state with handles := state.handles.erase handle }) task

def readAt (vfs : S3Vfs) (handle offset bufLen : Nat) : S3Task State Bytes :=
  onHandle handle (vfs.readResolved offset bufLen)

def writeAt (vfs : S3Vfs) (handle offset : Nat) (data : Bytes) : S3Task State Nat :=
  onHandle handle (vfs.writeResolved offset data)

def truncate (vfs : S3Vfs) (handle len : Nat) : S3Task State Unit :=
  onHandle handle (vfs.truncateResolved len)

def close (vfs : S3Vfs) (handle : Nat) : S3Task State Unit :=
  onRemoved handle vfs.closeResolved

def abort (vfs : S3Vfs) (handle : Nat) : S3Task State Unit :=
  onRemoved handle vfs.abortResolved

def call (vfs : S3Vfs) : VfsCall → S3Task State Reply
  | .stat path => .metadata <$> perform (vfs.stat path)
  | .readdir path => .entries <$> perform (vfs.readdir path)
  | .mkdir path => (fun _ => .unit) <$> perform (vfs.mkdir path)
  | .rename source target => (fun _ => .unit) <$> perform (vfs.rename source target)
  | .unlink path => (fun _ => .unit) <$> perform (vfs.unlink path)
  | .rmdir path => (fun _ => .unit) <$> perform (vfs.rmdir path)
  | .open path mode => .handle <$> vfs.open path mode
  | .readAt handle offset bufLen => .data <$> vfs.readAt handle offset bufLen
  | .writeAt handle offset data => .count <$> vfs.writeAt handle offset data
  | .truncate handle len => (fun _ => .unit) <$> vfs.truncate handle len
  | .close handle => (fun _ => .unit) <$> vfs.close handle
  | .abort handle => (fun _ => .unit) <$> vfs.abort handle

def dropHandles (vfs : S3Vfs) : List (Nat × HandleState) → Exchange Unit
  | [] => pure ()
  | (_, cell) :: rest => do
      focus cell (fun _ => ()) vfs.dropResolved
      dropHandles vfs rest

/-- A drop takes the table and visits its handles. -/
def drop (vfs : S3Vfs) : S3Task State Unit := do
  let state ← get
  set { state with handles := ∅ }
  perform (vfs.dropHandles state.handles.entries)

/-- The filesystem answers its calls one after the other, and then it is dropped. -/
def lifetime (vfs : S3Vfs) : List VfsCall → S3Task State Unit
  | [] => vfs.drop
  | call :: rest => do
      let _ ← attempt (vfs.call call)
      lifetime vfs rest

/-- A caller sends its calls one after the other and keeps their replies. -/
def calls (vfs : S3Vfs) : List VfsCall → S3Task State (List (VfsResult Reply))
  | [] => pure []
  | call :: rest => do
      let reply ← attempt (vfs.call call)
      let others ← calls vfs rest
      pure (reply :: others)

/-- This filesystem shows the whole bucket and uploads parts of eight bytes. -/
def sample : S3Vfs where
  bucket := ['b']
  rootPrefix := []
  config := {}
  partSize := 8
  pageLimit := 8
  bucketValid := by decide
  rootNormal := ⟨[], by decide⟩
  partSizePos := by decide
  partSizeFits := by decide

end S3Vfs

/-- Calls run in order, and each meets the condition in the state before it. -/
def Session (vfs : S3Vfs) (condition : State → VfsCall → Prop) :
    State → List VfsCall → List S3Event → List (VfsResult Reply) → State → Prop
  | before, [], events, replies, after => events = [] ∧ replies = [] ∧ after = before
  | before, call :: rest, events, replies, after =>
      condition before call ∧ ∃ first later reply others middle,
        events = first ++ later ∧ replies = reply :: others ∧
        (vfs.call call).Runs before first reply middle ∧
        Session vfs condition middle rest later others after

end TinySandbox.S3
