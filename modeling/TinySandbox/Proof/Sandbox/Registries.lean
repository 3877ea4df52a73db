/-
This file proves that the pools release every open handle exactly once.
The steps of all executions interleave in any order.
-/

import Mathlib.Logic.Relation
import TinySandbox.Proof.Sandbox.Sweeps

namespace TinySandbox.Sandbox
open Library
namespace PoolWorld

section Steps
variable {ceilings : Ceilings} {world after : PoolWorld} {number handle : Nat}

/-- A refused reservation has taken nothing. -/
theorem reserve_cases (ceilings : Ceilings) (number : Nat) (world : PoolWorld) :
    (∃ error, world.reserve ceilings number = (.error error, world)) ∨
      ∃ after, world.reserve ceilings number = (.ok (), after) ∧ world.Sweeps after ∧
        after.ledger = world.ledger.charge (world.registries number).control ∧
        after.places = world.places ∧ world.openFiles < ceilings.capacity ∧
        ∀ control, (world.registries number).control = some control →
          (world.controls control).openFiles < ceilings.maxOpenFiles control := by
  unfold reserve acquireFile
  by_cases room : world.openFiles < ceilings.capacity
  · rw [if_pos room]
    cases owned : (world.registries number).control with
    | none =>
        right
        exists { world with openFiles := world.openFiles + 1 }.record (.reserved none)
        refine ⟨rfl, (sweeps_counters _).trans (sweeps_record ?_), rfl, rfl, room, ?_⟩
        · intro handle number control same
          cases same
        · intro control same
          cases same
    | some control =>
        simp only []
        by_cases cancelled : (world.controls control).isCancelled = true
        · rw [if_pos cancelled]
          exact .inl ⟨_, rfl⟩
        · rw [if_neg cancelled]
          by_cases admitted :
              (world.controls control).openFiles < ceilings.maxOpenFiles control
          · rw [if_pos admitted]
            right
            exists ({ world with openFiles := world.openFiles + 1 }.setControl control
              { world.controls control with
                openFiles := (world.controls control).openFiles + 1 }).record
                  (.reserved (some control))
            have charged : ∀ other, (Function.update world.controls control
                { world.controls control with
                  openFiles := (world.controls control).openFiles + 1 } other).openFiles =
                Ledger.adjust (· + 1) (some control) world.ledger.charged other := by
              intro other
              by_cases same : control = other
              · subst same
                simp [ledger, Ledger.adjust]
              · simp [ledger, Ledger.adjust, same, Ne.symm same]
            refine ⟨rfl, ?_, ?_, rfl, room, ?_⟩
            · apply ((sweeps_counters _).trans (sweeps_setOpenFiles control _)).trans
              apply sweeps_record
              intro handle number control same
              cases same
            · unfold ledger Ledger.charge
              exact congrArg (fun charged => Ledger.mk _ charged _) (funext charged)
            · intro other same
              obtain rfl := Option.some.inj same
              exact admitted
          · rw [if_neg admitted]
            exact .inl ⟨_, rfl⟩
  · rw [if_neg room]
    exact .inl ⟨_, rfl⟩

theorem Sound.startOpen (sound : world.Sound ceilings 0) :
    (world.startOpen ceilings number).2.Sound ceilings 0 := by
  unfold PoolWorld.startOpen
  obtain ⟨error, refused⟩ | ⟨reserved, admitted, sweeps, charged, places, room, limit⟩ :=
    reserve_cases ceilings number world
  · rw [refused]
    exact sound
  · rw [admitted]
    unfold Sound at sound ⊢
    have place : reserved.workerPlace { registry := number, handle := none } =
        { control := (world.registries number).control, handle := none } := by
      rw [workerPlace, sweeps.registry]
      rfl
    rw [places_startWorker, place, places, add_zero]
    rw [add_zero] at sound
    change Balanced ceilings reserved.ledger _
    rw [charged]
    exact sound.charge room limit

theorem Tidy.startOpen (tidy : world.Tidy) (alive : (world.registries number).alive = true) :
    (world.startOpen ceilings number).2.Tidy := by
  unfold PoolWorld.startOpen
  obtain ⟨error, refused⟩ | ⟨reserved, admitted, sweeps, -⟩ := reserve_cases ceilings number world
  · rw [refused]
    exact tidy
  · rw [admitted]
    have staffed := (tidy.sweeps sweeps).staffed
    apply (tidy.sweeps sweeps).staff
    intro worker member
    cases List.mem_cons.mp member with
    | inl same =>
        subst same
        rw [sweeps.registry]
        exact alive
    | inr member => exact staffed worker member

/-- The step of a worker starts with its place in hand. -/
theorem Sound.takes {worker : Worker} (sound : world.Sound ceilings 0)
    (waits : worker ∈ world.workers) :
    { world with workers := world.workers.erase worker }.Sound ceilings
      (world.workerPlace worker ::ₘ 0) := by
  unfold Sound at sound ⊢
  rw [add_zero, places_worker waits] at sound
  rw [Multiset.add_cons, add_zero]
  exact sound

theorem Sound.opens (sound : world.Sound ceilings
      (world.workerPlace { registry := number, handle := none } ::ₘ 0))
    (fresh : lifetime (PoolEvent.mark (world.registries number).vfs handle) world.log ≠
      some true) :
    ({ world with
      workers := { registry := number, handle := some handle } :: world.workers }.record
      (.opened (world.registries number).vfs handle)).Sound ceilings 0 := by
  have places := places_startWorker world { registry := number, handle := some handle }
  unfold Sound at sound ⊢
  rw [Multiset.add_cons, add_zero] at sound
  rw [add_zero]
  exact (sound.opens fresh).congr places.symm

theorem Sound.refuses (sound : world.Sound ceilings
      (world.workerPlace { registry := number, handle := none } ::ₘ 0)) :
    (world.release (world.registries number).control).Sound ceilings 0 := by
  unfold Sound at sound ⊢
  rw [Multiset.add_cons] at sound
  rw [places_release, ledger_release]
  exact sound.release

/-- What takes a handle out of its registry has the place in hand. -/
theorem Sound.removes (sound : world.Sound ceilings 0) (built : number < world.built)
    (present : handle ∈ (world.registries number).files) :
    (world.setFiles number ((world.registries number).files.erase handle)).Sound ceilings
      ((world.jobOf number handle).place ::ₘ 0) := by
  unfold Sound at sound ⊢
  rw [add_zero, places_erase built present] at sound
  rw [Multiset.add_cons, add_zero]
  exact sound

/-- The place in hand is given back with the call that ends its handle. -/
theorem Sound.settles {event : PoolEvent} {job : CleanupJob}
    (sound : world.Sound ceilings (job.place ::ₘ 0)) (settles : event.Settles job.vfs job.handle) :
    ((world.record event).release job.control).Sound ceilings 0 := by
  unfold Sound at sound ⊢
  rw [Multiset.add_cons] at sound
  rw [places_release, ledger_release]
  exact sound.settle settles

theorem openHandles_twice {first second : Place} {held : Nat × Nat} (places : Multiset Place)
    (left : first.handle = some held) (right : second.handle = some held) :
    ¬ (openHandles (first ::ₘ second ::ₘ places)).Nodup := by
  intro distinct
  rw [openHandles, Multiset.filterMap_cons_some _ _ _ left,
    Multiset.filterMap_cons_some _ _ _ right, Multiset.nodup_cons] at distinct
  exact distinct.1 (Multiset.mem_cons_self _ _)

theorem Sound.finishOpen (sound : world.Sound ceilings ((world.jobOf number handle).place ::ₘ 0))
    (built : number < world.built) : (world.finishOpen number handle).2.Sound ceilings 0 := by
  unfold Sound at sound
  rw [Multiset.add_cons, add_zero] at sound
  have absent : handle ∉ (world.registries number).files := by
    intro present
    have distinct := sound.distinct
    rw [places_erase built present] at distinct
    exact openHandles_twice _ rfl rfl distinct
  have stored : (world.setFiles number (insert handle (world.registries number).files)).Sound
      ceilings 0 := by
    unfold Sound
    rw [add_zero, places_insert built absent]
    exact sound
  unfold PoolWorld.finishOpen
  simp only []
  split
  · have present : handle ∈ ((world.setFiles number
        (insert handle (world.registries number).files)).registries number).files := by
      rw [setFiles_files]
      exact Finset.mem_insert_self _ _
    rw [remove, if_pos present]
    have removed := stored.removes built present
    have job : (world.setFiles number
        (insert handle (world.registries number).files)).jobOf number handle =
          world.jobOf number handle := by
      simp [jobOf, setFiles]
    rw [job] at removed
    exact removed.settles (.inl rfl)
  · exact stored

theorem Tidy.finishOpen (tidy : world.Tidy) (alive : (world.registries number).alive = true) :
    (world.finishOpen number handle).2.Tidy := by
  unfold PoolWorld.finishOpen
  simp only []
  split
  · have present : handle ∈ ((world.setFiles number
        (insert handle (world.registries number).files)).registries number).files := by
      rw [setFiles_files]
      exact Finset.mem_insert_self _ _
    rw [remove, if_pos present]
    have back : world.Sweeps ((world.setFiles number
        (insert handle (world.registries number).files)).setFiles number
          (((world.setFiles number
            (insert handle (world.registries number).files)).registries number).files.erase
              handle)) := by
      rw [setFiles_files]
      have twice : ∀ first second, (world.setFiles number first).setFiles number second =
          world.setFiles number second := by
        intro first second
        simp [setFiles]
      rw [twice]
      exact sweeps_setFiles (Finset.erase_insert_subset _ _)
    exact ((tidy.sweeps back).record _).sweeps (sweeps_release _)
  · next running =>
      apply tidy.stores alive
      rw [← Bool.eq_false_iff.mpr running]
      simp [isCancelled, setFiles]

theorem Sound.finish {abort : Bool} {answer : VfsResult Unit} (sound : world.Sound ceilings 0)
    (built : number < world.built) :
    (world.finish number handle abort answer).2.Sound ceilings 0 := by
  unfold PoolWorld.finish remove
  by_cases present : handle ∈ (world.registries number).files
  · rw [if_pos present]
    apply (sound.removes built present).settles
    split
    · exact .inl rfl
    · exact .inr ⟨number, rfl⟩
  · rw [if_neg present]
    exact sound

theorem Tidy.finish {abort : Bool} {answer : VfsResult Unit} (tidy : world.Tidy) :
    (world.finish number handle abort answer).2.Tidy := by
  unfold PoolWorld.finish remove
  by_cases present : handle ∈ (world.registries number).files
  · rw [if_pos present]
    exact ((tidy.sweeps (sweeps_setFiles (Finset.erase_subset _ _))).record _).sweeps
      (sweeps_release _)
  · rw [if_neg present]
    exact tidy

theorem Sound.abandon {inline : CleanupJob → Bool} (sound : world.Sound ceilings 0)
    (built : number < world.built) : (world.abandon inline number handle).Sound ceilings 0 := by
  unfold PoolWorld.abandon remove
  by_cases present : handle ∈ (world.registries number).files
  · rw [if_pos present]
    exact (sound.removes built present).cleanupHandle
  · rw [if_neg present]
    exact sound

theorem sweeps_abandon (inline : CleanupJob → Bool) (number handle : Nat) :
    world.Sweeps (world.abandon inline number handle) := by
  unfold abandon remove
  by_cases present : handle ∈ (world.registries number).files
  · rw [if_pos present]
    exact (sweeps_setFiles (Finset.erase_subset _ _)).trans (sweeps_cleanupHandle inline _)
  · rw [if_neg present]
    exact .refl world

end Steps

end PoolWorld

end TinySandbox.Sandbox
