/-
This file states what is owed to every open handle. It says who owns the handles of the pools, follows
one handle of the portable dispatcher through its log, says what a table of descriptors does over a
run of host calls, and marks the reads and writes without a position on one descriptor.
-/

import Mathlib.Algebra.BigOperators.Group.Finset.Basic
import TinySandbox.Construction.Js.HostCalls
import TinySandbox.Construction.Portable.Dispatcher
import TinySandbox.Construction.Sandbox.Registry
import TinySandbox.Library.Cursors

namespace TinySandbox.Sandbox
open Library

/-- A place in the pools is charged to an execution, and it may hold a handle of a backend. -/
structure Place where
  control : Option Nat
  handle : Option (Nat × Nat)
  deriving DecidableEq

def CleanupJob.place (job : CleanupJob) : Place where
  control := job.control
  handle := some (job.vfs, job.handle)

/-- Only the handles of these places are open in their backends. -/
def openHandles (places : Multiset Place) : Multiset (Nat × Nat) :=
  places.filterMap Place.handle

def PoolEvent.isReserved : PoolEvent → Bool
  | .reserved _ => true
  | _ => false

def PoolEvent.isReturned : PoolEvent → Bool
  | .returned _ => true
  | _ => false

namespace PoolWorld

def workerPlace (world : PoolWorld) (worker : Worker) : Place where
  control := (world.registries worker.registry).control
  handle := worker.handle.map fun handle => ((world.registries worker.registry).vfs, handle)

/-- These are the places that a registry would give up if it had these files. -/
def stored (world : PoolWorld) (number : Nat) (files : Finset Nat) : Multiset Place :=
  files.val.map fun handle => (world.jobOf number handle).place

/-- The owner of a place is a worker, a registry or a cleanup job. -/
def places (world : PoolWorld) : Multiset Place :=
  (world.workers : Multiset Worker).map world.workerPlace +
    ∑ number ∈ Finset.range world.built,
      world.stored number (world.registries number).files +
    (world.queue : Multiset CleanupJob).map CleanupJob.place

/-- Backends see one end of every handle, as soon as it has no owner, and the counters are the
reservations that were not given back. -/
structure ReleasesOnce (ceilings : Ceilings) (world : PoolWorld) : Prop where
  lifetimes : ∀ vfs handle, lifetime (PoolEvent.mark vfs handle) world.log =
    some (decide ((vfs, handle) ∈ openHandles world.places))
  owners : (openHandles world.places).Nodup
  reservations : world.log.countP PoolEvent.isReserved =
    world.openFiles + world.log.countP PoolEvent.isReturned
  reservationsOf : ∀ control, world.log.count (.reserved (some control)) =
    (world.controls control).openFiles + world.log.count (.returned (some control))
  outstanding : world.openFiles = world.places.card
  outstandingOf : ∀ control, (world.controls control).openFiles =
    world.places.countP fun place => place.control = some control
  capacity : world.openFiles ≤ ceilings.capacity
  limits : ∀ control, (world.controls control).openFiles ≤ ceilings.maxOpenFiles control
  drained : (∀ worker ∈ world.workers, worker.handle ≠ none) →
    (∀ vfs handle, lifetime (PoolEvent.mark vfs handle) world.log = some false) →
      world.openFiles = 0 ∧ ∀ control, (world.controls control).openFiles = 0

/-- From here on the execution holds nothing in its registries and publishes nothing. -/
def StaysCancelled (ceilings : Ceilings) (world : PoolWorld) (control : Nat) : Prop :=
  ∀ after, Reaches ceilings world after →
    (∀ number, (after.registries number).control = some control →
      (after.registries number).files = ∅) ∧
    ∃ later, after.log = world.log ++ later ∧
      ∀ registry vfs handle, PoolEvent.closed registry vfs handle ∈ later →
        (after.registries registry).control ≠ some control

end PoolWorld

end TinySandbox.Sandbox

namespace TinySandbox.Portable
open Library

/-- A guest close takes the handle out of the table, and only its failure leads to an abort. -/
inductive Lease where
  | unborn
  | alive
  | taken
  | closing
  | failed
  | released
  deriving DecidableEq

/-- The handle that a method is called with. -/
def BoundCall.handle : BoundCall → Option Handle
  | .readAt handle _ _ => some handle
  | .writeAt handle _ _ => some handle
  | .truncate handle _ => some handle
  | .close handle => some handle
  | .abort handle => some handle
  | _ => none

/-- A method is called with a handle that is alive, and a close or an abort ends its life. -/
def Lease.starts : Lease → BoundCall → Option Lease
  | .alive, .close _ => some .released
  | .alive, .abort _ => some .released
  | .alive, _ => some .alive
  | .taken, .close _ => some .closing
  | .failed, .abort _ => some .released
  | _, _ => none

def Lease.turn (handle : Handle) (lease : Lease) : VfsEvent → Option Lease
  | .started call => if call.handle = some handle then lease.starts call else some lease
  | .opened other =>
      if other = handle then if lease = .unborn then some .alive else none else some lease
  | .taken other =>
      if other = handle then if lease = .alive then some .taken else none else some lease
  | .failed call =>
      if call = .close handle ∧ lease = .closing then some .failed else some lease

/-- There is no lease when a handle was used or released out of turn. -/
def lease (handle : Handle) (log : List VfsEvent) : Option Lease :=
  log.foldlM (Lease.turn handle) .unborn

def BoundCall.releases (handle : Handle) (call : BoundCall) : Bool :=
  call = .close handle ∨ call = .abort handle

/-- These are the calls that release a handle, in order. -/
def releases (handle : Handle) (log : List VfsEvent) : List BoundCall :=
  log.filterMap fun event =>
    match event with
    | .started call => if call.releases handle then some call else none
    | _ => none

/-- A handle is released by one call, or by an abort after its close failed. -/
def ReleasedOnce (handle : Handle) (log : List VfsEvent) : Prop :=
  (∃ call, releases handle log = [call]) ∨
    releases handle log = [.close handle, .abort handle] ∧ .failed (.close handle) ∈ log

namespace World

/-- The descriptors of a run that is cut short are aborted. -/
def Discards (settings : Settings) (world : World) : Prop :=
  ∀ after, Relation.ReflTransGen (Step settings) world after →
    ∀ entry ∈ world.files.entries,
      .started (.close entry.2.handle) ∉ after.log ∧
        (∀ expired, after.phase = .finished expired →
          .started (.abort entry.2.handle) ∈ after.log)

/-- No handle is used out of turn, and when nothing is left to wait for, every handle that was
opened has been released. -/
structure ReleasesOnce (settings : Settings) (world : World) : Prop where
  lawful : ∀ handle : Handle, handle.IsValid → lease handle world.log ≠ none
  once : ∀ handle : Handle, handle.IsValid →
    releases handle world.log = [] ∨ ReleasedOnce handle world.log
  drained : world.phase = .finished false → ∀ handle : Handle, handle.IsValid →
    .opened handle ∈ world.log → ReleasedOnce handle world.log
  capacity : world.files.size + world.opening ≤ settings.maxOpenFiles
  discards : world.phase = .settling false → settings.hasAbort → world.Discards settings

end World

end TinySandbox.Portable

namespace TinySandbox.Js
open Library Library.Task Sandbox

abbrev HostEvent := Event HostRequest HostRequest.Response

/-- The handle of a successful open. -/
def openedHandle : HostEvent → Option Nat
  | ⟨.fs (.open _ _), .ok handle⟩ => some handle
  | _ => none

/-- The handle that a close or an abort releases, whatever the filesystem answers. -/
def releasedHandle : HostEvent → Option Nat
  | ⟨.fs (.close handle), _⟩ => some handle
  | ⟨.fs (.abort handle), _⟩ => some handle
  | _ => none

/-- The handle that a request works on. -/
def addressedHandle : HostRequest → Option Nat
  | .fs (.readAt handle _ _) => some handle
  | .fs (.writeAt handle _ _) => some handle
  | .fs (.truncate handle _) => some handle
  | .fs (.close handle) => some handle
  | .fs (.abort handle) => some handle
  | _ => none

/-- The bytes that a read or a write moved. -/
def movedBytes : HostEvent → Option Nat
  | ⟨.fs (.readAt _ _ _), .ok data⟩ => some data.length
  | ⟨.fs (.writeAt _ _ _), .ok count⟩ => some count
  | _ => none

structure HostStep where
  before : HostState
  op : HostOp
  args : Json
  events : List HostEvent
  result : Except NodeError Json
  after : HostState

namespace HostStep

def Runs (step : HostStep) : Prop :=
  Task.Runs (handleHostCallResult step.op step.args) step.before step.events step.result step.after

/-- The descriptor that the call hands out. -/
def descriptor (step : HostStep) : Option Int :=
  match step.op, step.result with
  | .open, .ok value => value.asI64
  | _, _ => none

/-- A successful read or write at the position of the descriptor. -/
structure Moves (step : HostStep) (fd : Int) (count : Nat) : Prop where
  transfers : step.op = .read ∨ step.op = .write
  names : i32Arg step.args "fd".toList = .ok fd
  unplaced : u64Arg step.args "position".toList = .ok none
  succeeds : ∃ value, step.result = .ok value
  moved : step.events.filterMap movedBytes = [count]

/-- The calls that name a descriptor. -/
def OnDescriptor (step : HostStep) : Prop :=
  step.op = .read ∨ step.op = .write ∨ step.op = .ftruncate ∨ step.op = .close

end HostStep

/-- The calls go from one state to another. -/
inductive HostRun (start : HostState) : List HostStep → HostState → Prop where
  | nil : HostRun start [] start
  | snoc {steps : List HostStep} {step : HostStep} (run : HostRun start steps step.before)
      (runs : step.Runs) : HostRun start (steps ++ [step]) step.after

def stepEvents (steps : List HostStep) : List HostEvent := steps.flatMap HostStep.events

/-- A file is closed in the end only for a commit, and right after the execution was seen to go on. -/
def ClosesForCommit (commit : Option Bool) (events : List HostEvent) : Prop :=
  ∀ before handle response later,
    events = before ++ ⟨.fs (.close handle), response⟩ :: later →
      commit = some true ∧ ∃ earlier, before = earlier ++ [⟨.isCancelled, false⟩]

end TinySandbox.Js

namespace TinySandbox.Portable
open Library

/-- The guest reads or writes on the descriptor and gives no position. -/
structure IsTransfer (fd : Nat) (op : HostOp) (arguments : Arguments) : Prop where
  op : op = .read ∨ op = .write
  fd : checkedInteger arguments.fd "tinysandbox" = .ok fd
  position : checkedNullable arguments.position "tinysandbox" = .ok none

def BoundCall.offset : BoundCall → Nat
  | .readAt _ offset _ => offset
  | .writeAt _ offset _ => offset
  | _ => 0

/-- The number of bytes that a host call acknowledges. -/
def HostValue.count : HostValue → Nat
  | .read bytesRead _ => bytesRead
  | .number count => count
  | _ => 0

def VfsEvent.offset? : VfsEvent → Option Nat
  | .started call => some call.offset
  | _ => none

/-- The offset of the first call of the `Vfs` between two worlds. -/
def offsetBetween (world after : World) : Nat :=
  ((after.log.drop world.log.length).filterMap VfsEvent.offset?).head?.getD 0

/-- A transfer that answers at once is issued and settles, and one that fails has no range. -/
def issueMarks (world after : World) : Stop → List (Cursor.Mark Nat)
  | .suspended call number _ => [.issue number call.offset]
  | .done (.ok value) =>
      [.issue world.calls (offsetBetween world after), .settle world.calls value.count]
  | .done (.error _) => []

def settleMarks (number : Nat) : Stop → List (Cursor.Mark Nat)
  | .done (.ok value) => [.settle number value.count]
  | _ => []

/-- The guest awaits transfers on the descriptor, and their promises settle in any order. Everything
else that the dispatcher does in between keeps the entry of the descriptor. -/
inductive Interleaves (settings : Settings) (fd : Nat) (start : World) :
    List (Cursor.Mark Nat) → World → Prop where
  | nothing : Interleaves settings fd start [] start
  | issues {marks : List (Cursor.Mark Nat)} {world : World} (op : HostOp) (arguments : Arguments)
      (fuel : Nat) {stop : Stop} {after : World} (sofar : Interleaves settings fd start marks world)
      (transfer : IsTransfer fd op arguments) (running : world.phase = .running)
      (runs : Runs settings .awaitable ((dispatch settings arguments fuel op).exec ()) world stop
        after) :
      Interleaves settings fd start (marks ++ issueMarks world after stop) (after.park stop)
  | settles {marks : List (Cursor.Mark Nat)} {world : World} {call : BoundCall}
      {number offset : Nat} {next : Answer → Running HostValue} {before behind : List Work}
      {answer : Answer} {stop : Stop} {after : World}
      (sofar : Interleaves settings fd start marks world)
      (work : world.works = before ++ .operation call number next :: behind)
      (issued : (Cursor.callsOf marks).offsets number = some offset)
      (settles : Settles number answer)
      (runs : Runs settings .awaitable (next answer)
        ({ world with works := before ++ behind }.record (outcome call answer)) stop after) :
      Interleaves settings fd start (marks ++ settleMarks number stop) (after.park stop)
  | other {marks : List (Cursor.Mark Nat)} {world after : World}
      (sofar : Interleaves settings fd start marks world) (step : Step settings world after)
      (kept : after.files.get fd = world.files.get fd) : Interleaves settings fd start marks after

end TinySandbox.Portable
