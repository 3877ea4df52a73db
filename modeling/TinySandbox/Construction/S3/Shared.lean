/-
This file gives the handles of one S3 filesystem that many callers share.
A caller finds a handle in the table and waits for its lock. A close or an abort takes the handle
out of the table before it waits. The filesystem is dropped when no caller is left.
-/

import TinySandbox.Construction.S3.Vfs

namespace TinySandbox.S3
open Library Library.Task

inductive HandleOp where
  | read (offset bufLen : Nat)
  | write (offset : Nat) (data : Bytes)
  | truncate (len : Nat)
  | close
  | abort

/-- A close and an abort take the handle out of the table. -/
def HandleOp.releases : HandleOp → Bool
  | .close => true
  | .abort => true
  | _ => false

/-- This is what a caller does under the lock of the handle. -/
def HandleOp.body (vfs : S3Vfs) : HandleOp → S3Task HandleState Unit
  | .read offset bufLen => (fun _ => ()) <$> vfs.readResolved offset bufLen
  | .write offset data => (fun _ => ()) <$> vfs.writeResolved offset data
  | .truncate len => vfs.truncateResolved len
  | .close => vfs.closeResolved
  | .abort => vfs.abortResolved

/-- A caller waits for the lock, or it reads a revision that it saw under the lock. -/
inductive Caller where
  | waiting (handle : Nat) (op : HandleOp)
  | fetching (handle : Nat) (key : Text) (file : RemoteFile) (offset bufLen : Nat)

/-- The log has the requests on behalf of every handle, in the order they were sent. -/
structure Shared where
  nextHandle : Nat
  table : List Nat
  cells : Nat → Option HandleState
  callers : List Caller
  log : List (Nat × S3Event)
  dropped : Bool

def Shared.new : Shared where
  nextHandle := 1
  table := []
  cells := fun _ => none
  callers := []
  log := []
  dropped := false

/-- The requests on behalf of one handle. -/
def Shared.logOf (shared : Shared) (handle : Nat) : List S3Event :=
  shared.log.filterMap fun entry => if entry.1 = handle then some entry.2 else none

/-- A drop visits the handles of the table one after the other. -/
def Drops (vfs : S3Vfs) (cells : Nat → Option HandleState) : List Nat → List (Nat × S3Event) → Prop
  | [], log => log = []
  | handle :: rest, log =>
      ∃ events later, log = events.map (handle, ·) ++ later ∧
        (∀ cell, cells handle = some cell →
          ∃ result, vfs.dropResolved.Runs cell events result cell) ∧
        (cells handle = none → events = []) ∧
        Drops vfs cells rest later

/-- The read gives the lock back before it asks for a pinned revision. -/
def PinsRead (cell : HandleState) (file : RemoteFile) : Prop :=
  cell.released = false ∧ cell.mode.read = true ∧ cell.staging = .remote file

inductive Shared.Step (vfs : S3Vfs) : Shared → Shared → Prop where
  | opens {shared : Shared} {path : Text} {mode : OpenMode} {cell : HandleState}
      {probes : List S3Event} (alive : shared.dropped = false)
      (opened : (vfs.openHandle path mode).Runs () probes (.ok cell) ()) :
      Step vfs shared
        { shared with
          nextHandle := shared.nextHandle + 1
          table := shared.table ++ [shared.nextHandle]
          cells := Function.update shared.cells shared.nextHandle (some cell) }
  | resolves {shared : Shared} {handle : Nat} (op : HandleOp) (alive : shared.dropped = false)
      (present : handle ∈ shared.table) (keeps : op.releases = false) :
      Step vfs shared { shared with callers := .waiting handle op :: shared.callers }
  | removes {shared : Shared} {handle : Nat} (op : HandleOp) (alive : shared.dropped = false)
      (present : handle ∈ shared.table) (releases : op.releases = true) :
      Step vfs shared
        { shared with
          table := shared.table.filter (· ≠ handle)
          callers := .waiting handle op :: shared.callers }
  | runs {shared : Shared} {handle : Nat} {op : HandleOp} {before after : List Caller}
      {cell next : HandleState} {events : List S3Event} {result : VfsResult Unit}
      (alive : shared.dropped = false)
      (waits : shared.callers = before ++ .waiting handle op :: after)
      (found : shared.cells handle = some cell)
      (locked : ∀ file offset bufLen, op = .read offset bufLen → ¬ PinsRead cell file)
      (ran : (op.body vfs).Runs cell events result next) :
      Step vfs shared
        { shared with
          cells := Function.update shared.cells handle (some next)
          callers := before ++ after
          log := shared.log ++ events.map (handle, ·) }
  | pins {shared : Shared} {handle offset bufLen : Nat} {before after : List Caller}
      {cell : HandleState} {file : RemoteFile} (alive : shared.dropped = false)
      (waits : shared.callers = before ++ .waiting handle (.read offset bufLen) :: after)
      (found : shared.cells handle = some cell) (pinned : PinsRead cell file) :
      Step vfs shared
        { shared with
          callers := before ++ .fetching handle cell.key file offset bufLen :: after }
  | fetches {shared : Shared} {handle : Nat} {key : Text} {file : RemoteFile} {offset bufLen : Nat}
      {before after : List Caller} {events : List S3Event} {result : VfsResult Bytes}
      (alive : shared.dropped = false)
      (waits : shared.callers = before ++ .fetching handle key file offset bufLen :: after)
      (ran : (vfs.readRemote key file offset bufLen).Runs () events result ()) :
      Step vfs shared
        { shared with
          callers := before ++ after
          log := shared.log ++ events.map (handle, ·) }
  | drops {shared : Shared} {events : List (Nat × S3Event)} (alive : shared.dropped = false)
      (idle : shared.callers = []) (dropped : Drops vfs shared.cells shared.table events) :
      Step vfs shared
        { shared with table := [], log := shared.log ++ events, dropped := true }

/-- A run of the shared filesystem is any sequence of steps. -/
def Shared.Reaches (vfs : S3Vfs) : Shared → Shared → Prop := Relation.ReflTransGen (Shared.Step vfs)

end TinySandbox.S3
