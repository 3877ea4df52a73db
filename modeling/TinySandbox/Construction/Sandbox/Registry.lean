/-
This file gives the registries of open handles that executions share.
A registry admits handles under the ceilings of its execution and of the pools. What takes a
handle out of a registry also releases it in the backend, at once or on a cleanup thread.
-/

import TinySandbox.Construction.Types
import TinySandbox.Library.Lifetimes

namespace TinySandbox.Sandbox

/-- The registry belongs to an execution, or it is the one of the host. -/
structure HandleRegistry where
  vfs : Nat
  control : Option Nat
  files : Finset Nat
  alive : Bool

/-- The list has the registries that a cancellation visits. -/
structure ExecutionControl where
  openFiles : Nat
  cancelled : Bool
  expired : Bool
  registries : List Nat

def ExecutionControl.new : ExecutionControl where
  openFiles := 0
  cancelled := false
  expired := false
  registries := []

/-- An execution is also cancelled when its deadline has passed. -/
def ExecutionControl.isCancelled (control : ExecutionControl) : Bool :=
  control.cancelled || control.expired

/-- This is a closure that waits for a cleanup thread. -/
structure CleanupJob where
  vfs : Nat
  handle : Nat
  control : Option Nat
  deriving DecidableEq

/-- An open has reserved its place, and later it has the handle from the backend. -/
structure Worker where
  registry : Nat
  handle : Option Nat
  deriving DecidableEq

/-- The log has the calls on the backends and the changes of the counters. -/
inductive PoolEvent where
  | reserved (control : Option Nat)
  | returned (control : Option Nat)
  | opened (vfs handle : Nat)
  | closed (registry vfs handle : Nat)
  | aborted (vfs handle : Nat)
  deriving DecidableEq

/-- Registries are numbered in the order in which they are built. -/
structure PoolWorld where
  openFiles : Nat
  controls : Nat → ExecutionControl
  built : Nat
  registries : Nat → HandleRegistry
  workers : List Worker
  queue : List CleanupJob
  log : List PoolEvent

def PoolWorld.new : PoolWorld where
  openFiles := 0
  controls := fun _ => .new
  built := 0
  registries := fun _ => { vfs := 0, control := none, files := ∅, alive := false }
  workers := []
  queue := []
  log := []

/-- The pools have a capacity, and every execution has its own limit. -/
structure Ceilings where
  capacity : Nat
  maxOpenFiles : Nat → Nat

/-- This is `try_update` with a ceiling. -/
def acquireFile (ceiling count : Nat) : Option Nat :=
  if count < ceiling then some (count + 1) else none

/-- `fetch_sub` wraps around below zero. -/
def fetchSub (count : Nat) : Nat := if count = 0 then u64Max else count - 1

namespace PoolWorld

def record (event : PoolEvent) (world : PoolWorld) : PoolWorld :=
  { world with log := world.log ++ [event] }

def setControl (number : Nat) (control : ExecutionControl) (world : PoolWorld) : PoolWorld :=
  { world with controls := Function.update world.controls number control }

def setFiles (number : Nat) (files : Finset Nat) (world : PoolWorld) : PoolWorld :=
  { world with
    registries :=
      Function.update world.registries number { world.registries number with files } }

/-- The host has no execution that could be cancelled. -/
def isCancelled (world : PoolWorld) (number : Nat) : Bool :=
  ((world.registries number).control.map fun control =>
    (world.controls control).isCancelled).getD false

/-- This is the `build` of a filesystem, which also registers with the execution. -/
def build (vfs : Nat) (control : Option Nat) (world : PoolWorld) : PoolWorld :=
  let built := { world with
    built := world.built + 1
    registries := Function.update world.registries world.built
      { vfs, control, files := ∅, alive := true } }
  match control with
  | none => built
  | some control =>
      built.setControl control { world.controls control with
        registries := (world.controls control).registries ++ [world.built] }

/-- The place in the pools is given back when the execution refuses. -/
def reserve (ceilings : Ceilings) (number : Nat) (world : PoolWorld) :
    VfsResult Unit × PoolWorld :=
  match acquireFile ceilings.capacity world.openFiles with
  | none => (.error .ENOSPC, world)
  | some openFiles =>
      match (world.registries number).control with
      | none => (.ok (), { world with openFiles }.record (.reserved none))
      | some control =>
          if (world.controls control).isCancelled then
            (.error Errno.EIO, { world with openFiles := fetchSub openFiles })
          else
            match acquireFile (ceilings.maxOpenFiles control)
                (world.controls control).openFiles with
            | none => (.error .ENOSPC, { world with openFiles := fetchSub openFiles })
            | some count =>
                (.ok (), ({ world with openFiles }.setControl control
                  { world.controls control with openFiles := count }).record
                    (.reserved (some control)))

/-- Both counters go down together. -/
def release (control : Option Nat) (world : PoolWorld) : PoolWorld :=
  let returned := { world with openFiles := fetchSub world.openFiles }.record (.returned control)
  match control with
  | none => returned
  | some number =>
      returned.setControl number { world.controls number with
        openFiles := fetchSub (world.controls number).openFiles }

def runCleanup (job : CleanupJob) (world : PoolWorld) : PoolWorld :=
  (world.record (.aborted job.vfs job.handle)).release job.control

/-- The closure runs at once for a fast handle, or when no thread can take it. -/
def cleanupHandle (inline : CleanupJob → Bool) (world : PoolWorld) (job : CleanupJob) : PoolWorld :=
  if inline job then world.runCleanup job else { world with queue := world.queue ++ [job] }

def jobOf (world : PoolWorld) (number handle : Nat) : CleanupJob where
  vfs := (world.registries number).vfs
  handle := handle
  control := (world.registries number).control

/-- This takes every handle out of the registry. -/
def abandonAll (inline : CleanupJob → Bool) (world : PoolWorld) (number : Nat) : PoolWorld :=
  (((world.registries number).files.sort (· ≤ ·)).map (world.jobOf number)).foldl
    (cleanupHandle inline) (world.setFiles number ∅)

/-- A handle that is not stored gives `EBADF`. -/
def remove (number handle : Nat) (world : PoolWorld) : VfsResult PoolWorld :=
  if handle ∈ (world.registries number).files then
    .ok (world.setFiles number ((world.registries number).files.erase handle))
  else .error .EBADF

/-- This also drops the result of an open that nobody received, and the reader of a stream. -/
def abandon (inline : CleanupJob → Bool) (number handle : Nat) (world : PoolWorld) : PoolWorld :=
  match world.remove number handle with
  | .error _ => world
  | .ok removed => cleanupHandle inline removed (world.jobOf number handle)

/-- A registry that was dropped cannot be upgraded. -/
def cancel (inline : CleanupJob → Bool) (control : Nat) (world : PoolWorld) : PoolWorld :=
  ((world.controls control).registries.filter fun number => (world.registries number).alive).foldl
    (abandonAll inline)
    (world.setControl control { world.controls control with cancelled := true, registries := [] })

/-- The last owner of a registry drops it. -/
def dropRegistry (inline : CleanupJob → Bool) (number : Nat) (world : PoolWorld) : PoolWorld :=
  let swept := abandonAll inline world number
  { swept with
    registries := Function.update swept.registries number
      { swept.registries number with alive := false } }

/-- The start of an open waits for the backend when it is admitted. -/
def startOpen (ceilings : Ceilings) (number : Nat) (world : PoolWorld) :
    VfsResult Unit × PoolWorld :=
  match world.reserve ceilings number with
  | (.error error, refused) => (.error error, refused)
  | (.ok _, reserved) =>
      (.ok (), { reserved with
        workers := { registry := number, handle := none } :: reserved.workers })

/-- The end of an open checks for a cancellation once the handle is stored. -/
def finishOpen (number handle : Nat) (world : PoolWorld) : VfsResult Nat × PoolWorld :=
  let stored := world.setFiles number (insert handle (world.registries number).files)
  if stored.isCancelled number then
    match stored.remove number handle with
    | .error error => (.error error, stored)
    | .ok removed =>
        (.error Errno.EIO, (removed.record (.aborted (world.registries number).vfs handle)).release
          (world.registries number).control)
  else (.ok handle, stored)

/-- The place is given back whatever the backend answers. -/
def finish (number handle : Nat) (abort : Bool) (answer : VfsResult Unit) (world : PoolWorld) :
    VfsResult Unit × PoolWorld :=
  match world.remove number handle with
  | .error error => (.error error, world)
  | .ok removed =>
      (answer, (removed.record
        (if abort || world.isCancelled number then .aborted (world.registries number).vfs handle
          else .closed number (world.registries number).vfs handle)).release
        (world.registries number).control)

end PoolWorld

/-- The calls on a handle of a backend, as its beginning and its end. -/
def PoolEvent.mark (vfs handle : Nat) : PoolEvent → Option Library.Mark
  | .opened other number => if other = vfs ∧ number = handle then some .begins else none
  | .closed _ other number => if other = vfs ∧ number = handle then some .ends else none
  | .aborted other number => if other = vfs ∧ number = handle then some .ends else none
  | _ => none

/-- The steps of all executions interleave in any order, and backends answer as they please.
A backend returns only a handle that is not open there. -/
inductive Step (ceilings : Ceilings) (world : PoolWorld) : PoolWorld → Prop
  | builds (vfs : Nat) (control : Option Nat) : Step ceilings world (world.build vfs control)
  | expires (control : Nat) :
      Step ceilings world
        (world.setControl control { world.controls control with expired := true })
  | reserves (number : Nat) (alive : (world.registries number).alive = true) :
      Step ceilings world (world.startOpen ceilings number).2
  | opens (number handle : Nat) (waits : { registry := number, handle := none } ∈ world.workers)
      (fresh : Library.lifetime (PoolEvent.mark (world.registries number).vfs handle) world.log ≠
        some true) :
      Step ceilings world
        ({ world with
          workers := { registry := number, handle := some handle } ::
            world.workers.erase { registry := number, handle := none } }.record
          (.opened (world.registries number).vfs handle))
  | refuses (number : Nat) (waits : { registry := number, handle := none } ∈ world.workers) :
      Step ceilings world
        ({ world with
          workers := world.workers.erase { registry := number, handle := none } }.release
          (world.registries number).control)
  | inserts (number handle : Nat)
      (waits : { registry := number, handle := some handle } ∈ world.workers) :
      Step ceilings world
        ({ world with
          workers := world.workers.erase { registry := number, handle := some handle } }.finishOpen
          number handle).2
  | finishes (number handle : Nat) (abort : Bool) (answer : VfsResult Unit)
      (alive : (world.registries number).alive = true) :
      Step ceilings world (world.finish number handle abort answer).2
  | abandons (number handle : Nat) (inline : CleanupJob → Bool)
      (alive : (world.registries number).alive = true) :
      Step ceilings world (world.abandon inline number handle)
  | cancels (control : Nat) (inline : CleanupJob → Bool) :
      Step ceilings world (world.cancel inline control)
  | cleans (job : CleanupJob) (waits : job ∈ world.queue) :
      Step ceilings world ({ world with queue := world.queue.erase job }.runCleanup job)
  | drops (number : Nat) (inline : CleanupJob → Bool)
      (alive : (world.registries number).alive = true)
      (idle : ∀ worker ∈ world.workers, worker.registry ≠ number) :
      Step ceilings world (world.dropRegistry inline number)

def Reaches (ceilings : Ceilings) : PoolWorld → PoolWorld → Prop :=
  Relation.ReflTransGen (Step ceilings)

end TinySandbox.Sandbox
