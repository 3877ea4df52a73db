/-
This file follows the places while handles move between workers, registries and cleanup jobs.
Moving a handle keeps its place, and cleanup gives the place back.
-/

import TinySandbox.Proof.Sandbox.Ledger

namespace TinySandbox.Sandbox
open Library

namespace PoolWorld

def ledger (world : PoolWorld) : Ledger where
  openFiles := world.openFiles
  charged := fun control => (world.controls control).openFiles
  log := world.log

section Places
variable {world : PoolWorld} {number handle : Nat} {job : CleanupJob}

theorem ledger_release (control : Option Nat) :
    (world.release control).ledger = world.ledger.release control := by
  cases control with
  | none => rfl
  | some control =>
      have charged : ∀ number, (((world.release (some control)).controls number).openFiles) =
          Ledger.adjust fetchSub (some control) world.ledger.charged number := by
        intro number
        by_cases same : control = number
        · subst same
          simp [release, setControl, record, ledger, Ledger.adjust]
        · simp [release, setControl, record, ledger, Ledger.adjust, same, Ne.symm same]
      unfold ledger Ledger.release
      rw [funext charged]
      rfl

theorem ledger_setControl {control : ExecutionControl}
    (same : control.openFiles = (world.controls number).openFiles) :
    (world.setControl number control).ledger = world.ledger := by
  have charged : ∀ other, ((world.setControl number control).controls other).openFiles =
      (world.controls other).openFiles := by
    intro other
    by_cases here : other = number
    · subst here
      simp [setControl, same]
    · simp [setControl, here]
  unfold ledger
  rw [funext charged]
  rfl

theorem places_release (control : Option Nat) : (world.release control).places = world.places := by
  cases control with
  | none => rfl
  | some control => rfl

theorem places_runCleanup : (world.runCleanup job).places = world.places :=
  places_release job.control

@[simp] theorem setFiles_files (files : Finset Nat) :
    ((world.setFiles number files).registries number).files = files := by
  simp [setFiles]

@[simp] theorem setFiles_registries {other : Nat} (different : other ≠ number)
    (files : Finset Nat) :
    (world.setFiles number files).registries other = world.registries other :=
  Function.update_of_ne different _ _

theorem stored_setFiles (other : Nat) (files gone : Finset Nat) :
    (world.setFiles number files).stored other gone = world.stored other gone := by
  apply Multiset.map_congr rfl
  intro handle member
  by_cases same : other = number
  · subst same
    simp [jobOf, setFiles]
  · rw [jobOf, jobOf, setFiles_registries same]

/-- What goes out of a registry or into it is the difference between its files. -/
theorem places_setFiles (built : number < world.built) (files : Finset Nat) :
    (world.setFiles number files).places +
        world.stored number (world.registries number).files =
      world.places + world.stored number files := by
  have workers : (world.setFiles number files).workerPlace = world.workerPlace := by
    funext worker
    by_cases same : worker.registry = number
    · simp [workerPlace, setFiles, ← same]
    · simp [workerPlace, setFiles, same]
  have others : ∀ other ∈ (Finset.range world.built).erase number,
      (world.setFiles number files).stored other
          ((world.setFiles number files).registries other).files =
        world.stored other (world.registries other).files := by
    intro other member
    rw [stored_setFiles, setFiles_registries (Finset.ne_of_mem_erase member)]
  have member : number ∈ Finset.range world.built := Finset.mem_range.mpr built
  change (_ + ∑ other ∈ Finset.range world.built, _ + _) + _ = _
  rw [places, workers, ← Finset.add_sum_erase _ _ member, Finset.sum_congr rfl others,
    stored_setFiles, setFiles_files, ← Finset.add_sum_erase _ _ member]
  change ((_ + (_ + _)) + Multiset.map CleanupJob.place ↑world.queue) + _ = _
  ac_rfl

theorem places_insert (built : number < world.built)
    (absent : handle ∉ (world.registries number).files) :
    (world.setFiles number (insert handle (world.registries number).files)).places =
      (world.jobOf number handle).place ::ₘ world.places := by
  apply add_right_cancel (b := world.stored number (world.registries number).files)
  rw [places_setFiles built, stored, Finset.insert_val_of_notMem absent, Multiset.map_cons,
    Multiset.add_cons, Multiset.cons_add]
  rfl

theorem places_erase (built : number < world.built)
    (present : handle ∈ (world.registries number).files) :
    world.places = (world.jobOf number handle).place ::ₘ
      (world.setFiles number ((world.registries number).files.erase handle)).places := by
  apply add_right_cancel (b := world.stored number ((world.registries number).files.erase handle))
  rw [← places_setFiles built, Multiset.cons_add, ← Multiset.add_cons, stored, stored,
    Finset.erase_val]
  rw [← Multiset.map_cons (fun handle => (world.jobOf number handle).place),
    Multiset.cons_erase present]

theorem places_clear (built : number < world.built) :
    (world.setFiles number ∅).places + world.stored number (world.registries number).files =
      world.places := by
  rw [places_setFiles built]
  exact add_zero _

theorem places_worker {worker : Worker} (waits : worker ∈ world.workers) :
    world.places = world.workerPlace worker ::ₘ
      { world with workers := world.workers.erase worker }.places := by
  have split : (world.workers : Multiset Worker) =
      worker ::ₘ (world.workers.erase worker : List Worker) := by
    rw [← Multiset.coe_erase]
    exact (Multiset.cons_erase waits).symm
  rw [places, split, Multiset.map_cons, Multiset.cons_add, Multiset.cons_add]
  rfl

theorem places_startWorker (world : PoolWorld) (worker : Worker) :
    { world with workers := worker :: world.workers }.places =
      world.workerPlace worker ::ₘ world.places := by
  rw [places, ← Multiset.cons_coe, Multiset.map_cons, Multiset.cons_add, Multiset.cons_add]
  rfl

theorem places_enqueue :
    { world with queue := world.queue ++ [job] }.places = job.place ::ₘ world.places := by
  rw [places, ← Multiset.coe_add, Multiset.map_add, ← add_assoc, add_comm]
  exact Multiset.singleton_add _ _

theorem places_dequeue (waits : job ∈ world.queue) :
    world.places = job.place ::ₘ { world with queue := world.queue.erase job }.places := by
  have split : (world.queue : Multiset CleanupJob) =
      job ::ₘ (world.queue.erase job : List CleanupJob) := by
    rw [← Multiset.coe_erase]
    exact (Multiset.cons_erase waits).symm
  rw [places, split, Multiset.map_cons, Multiset.add_cons]
  rfl

end Places

/-- The pools account for every place. -/
def Sound (ceilings : Ceilings) (world : PoolWorld) (hand : Multiset Place) : Prop :=
  Balanced ceilings world.ledger (world.places + hand)

section Sound
variable {ceilings : Ceilings} {world : PoolWorld} {hand : Multiset Place} {job : CleanupJob}

theorem Sound.runCleanup (sound : world.Sound ceilings (job.place ::ₘ hand)) :
    (world.runCleanup job).Sound ceilings hand := by
  unfold Sound at sound ⊢
  rw [Multiset.add_cons] at sound
  rw [places_runCleanup, PoolWorld.runCleanup, ledger_release]
  exact sound.settle (.inl rfl)

theorem Sound.cleanupHandle {inline : CleanupJob → Bool}
    (sound : world.Sound ceilings (job.place ::ₘ hand)) :
    (cleanupHandle inline world job).Sound ceilings hand := by
  unfold PoolWorld.cleanupHandle
  split
  · exact sound.runCleanup
  · unfold Sound at sound ⊢
    rw [places_enqueue, Multiset.cons_add, ← Multiset.add_cons]
    exact sound

/-- The jobs in hand are run or queued one after the other. -/
theorem Sound.cleanupAll {inline : CleanupJob → Bool} {jobs : List CleanupJob}
    (sound : world.Sound ceilings ((jobs : Multiset CleanupJob).map CleanupJob.place + hand)) :
    (jobs.foldl (PoolWorld.cleanupHandle inline) world).Sound ceilings hand := by
  induction jobs generalizing world with
  | nil => simpa using sound
  | cons job jobs ih =>
      apply ih
      apply Sound.cleanupHandle
      rwa [← Multiset.cons_coe, Multiset.map_cons, Multiset.cons_add] at sound

theorem Sound.abandonAll {inline : CleanupJob → Bool} {number : Nat}
    (sound : world.Sound ceilings 0) (built : number < world.built) :
    (PoolWorld.abandonAll inline world number).Sound ceilings 0 := by
  apply Sound.cleanupAll
  have jobs : (((((world.registries number).files.sort (· ≤ ·)).map (world.jobOf number) :
      List CleanupJob) : Multiset CleanupJob)).map CleanupJob.place =
        world.stored number (world.registries number).files := by
    rw [← Multiset.map_coe, Finset.sort_eq, Multiset.map_map]
    rfl
  unfold Sound at sound ⊢
  rw [jobs, add_zero, places_clear built]
  rwa [add_zero] at sound

end Sound

end PoolWorld

end TinySandbox.Sandbox
