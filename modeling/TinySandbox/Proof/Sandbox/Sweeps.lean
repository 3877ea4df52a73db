/-
This file follows what cleanup does to the registries and to the executions.
A sweep only takes files out of registries, and it publishes nothing.
-/

import TinySandbox.Proof.Sandbox.Places

namespace TinySandbox.Sandbox
namespace PoolWorld

structure Sweeps (before after : PoolWorld) : Prop where
  built : after.built = before.built
  workers : after.workers = before.workers
  files : ∀ number, (after.registries number).files ⊆ (before.registries number).files
  registry : ∀ number, after.registries number =
    { before.registries number with files := (after.registries number).files }
  control : ∀ number, after.controls number =
    { before.controls number with openFiles := (after.controls number).openFiles }
  log : ∃ later, after.log = before.log ++ later ∧
    ∀ registry vfs handle, PoolEvent.closed registry vfs handle ∉ later

section Sweeps
variable {world middle after : PoolWorld}

theorem Sweeps.refl (world : PoolWorld) : world.Sweeps world where
  built := rfl
  workers := rfl
  files _ := subset_rfl
  registry _ := rfl
  control _ := rfl
  log := ⟨[], (List.append_nil _).symm, fun _ _ _ => List.not_mem_nil⟩

theorem Sweeps.trans (first : world.Sweeps middle) (second : middle.Sweeps after) :
    world.Sweeps after where
  built := second.built.trans first.built
  workers := second.workers.trans first.workers
  files number := (second.files number).trans (first.files number)
  registry number := by rw [second.registry number, first.registry number]
  control number := by rw [second.control number, first.control number]
  log := by
      obtain ⟨early, logged, silent⟩ := first.log
      obtain ⟨late, loggedLate, silentLate⟩ := second.log
      exists early ++ late
      constructor
      · rw [loggedLate, logged, List.append_assoc]
      · intro registry vfs handle member
        cases List.mem_append.mp member with
        | inl member => exact silent registry vfs handle member
        | inr member => exact silentLate registry vfs handle member

theorem sweeps_record {event : PoolEvent}
    (call : ∀ registry vfs handle, event ≠ .closed registry vfs handle) :
    world.Sweeps (world.record event) where
  built := rfl
  workers := rfl
  files _ := subset_rfl
  registry _ := rfl
  control _ := rfl
  log := by
      exists [event]
      constructor
      · rfl
      · intro registry vfs handle member
        exact call registry vfs handle (List.mem_singleton.mp member).symm

theorem sweeps_counters (openFiles : Nat) : world.Sweeps { world with openFiles } :=
  { Sweeps.refl world with }

theorem sweeps_queue (queue : List CleanupJob) : world.Sweeps { world with queue } :=
  { Sweeps.refl world with }

theorem sweeps_setOpenFiles (number openFiles : Nat) :
    world.Sweeps (world.setControl number { world.controls number with openFiles }) :=
  { Sweeps.refl world with
    control := by
      intro other
      by_cases same : other = number
      · subst same
        simp [setControl]
      · simp [setControl, same] }

theorem sweeps_setFiles {number : Nat} {files : Finset Nat}
    (fewer : files ⊆ (world.registries number).files) :
    world.Sweeps (world.setFiles number files) :=
  { Sweeps.refl world with
    files := by
      intro other
      by_cases same : other = number
      · subst same
        rwa [setFiles_files]
      · rw [setFiles_registries same]
    registry := by
      intro other
      by_cases same : other = number
      · subst same
        simp [setFiles]
      · rw [setFiles_registries same] }

theorem sweeps_release (control : Option Nat) : world.Sweeps (world.release control) := by
  have returned : world.Sweeps
      ({ world with openFiles := fetchSub world.openFiles }.record (.returned control)) :=
    (sweeps_counters _).trans (sweeps_record (fun _ _ _ => nofun))
  cases control with
  | none => exact returned
  | some number => exact returned.trans (sweeps_setOpenFiles number _)

theorem sweeps_runCleanup (job : CleanupJob) : world.Sweeps (world.runCleanup job) := by
  have aborted : world.Sweeps (world.record (.aborted job.vfs job.handle)) :=
    sweeps_record fun _ _ _ => nofun
  exact aborted.trans (sweeps_release job.control)

theorem sweeps_cleanupHandle (inline : CleanupJob → Bool) (job : CleanupJob) :
    world.Sweeps (cleanupHandle inline world job) := by
  unfold cleanupHandle
  split
  · exact sweeps_runCleanup job
  · exact sweeps_queue _

theorem sweeps_cleanupAll (inline : CleanupJob → Bool) (jobs : List CleanupJob) :
    world.Sweeps (jobs.foldl (cleanupHandle inline) world) := by
  induction jobs generalizing world with
  | nil => exact .refl world
  | cons job jobs ih => exact (sweeps_cleanupHandle inline job).trans ih

theorem sweeps_abandonAll (inline : CleanupJob → Bool) (number : Nat) :
    world.Sweeps (abandonAll inline world number) :=
  (sweeps_setFiles (Finset.empty_subset _)).trans (sweeps_cleanupAll inline _)

theorem abandonAll_files (inline : CleanupJob → Bool) (world : PoolWorld) (number : Nat) :
    ((abandonAll inline world number).registries number).files = ∅ := by
  have sweeps : (world.setFiles number ∅).Sweeps (abandonAll inline world number) :=
    sweeps_cleanupAll inline _
  have fewer := sweeps.files number
  rw [setFiles_files] at fewer
  exact Finset.subset_empty.mp fewer

/-- A cancellation visits its registries one after the other. -/
theorem abandonEach (inline : CleanupJob → Bool) (world : PoolWorld) (numbers : List Nat) :
    world.Sweeps (numbers.foldl (abandonAll inline) world) ∧
      ∀ number ∈ numbers,
        ((numbers.foldl (abandonAll inline) world).registries number).files = ∅ := by
  induction numbers generalizing world with
  | nil => exact ⟨.refl world, fun _ member => absurd member List.not_mem_nil⟩
  | cons first numbers ih =>
      obtain ⟨sweeps, emptied⟩ := ih (abandonAll inline world first)
      constructor
      · exact (sweeps_abandonAll inline first).trans sweeps
      · intro number member
        cases List.mem_cons.mp member with
        | inl same =>
            subst same
            apply Finset.subset_empty.mp
            rw [← abandonAll_files inline world number]
            exact sweeps.files number
        | inr later => exact emptied number later

theorem Sound.abandonEach {ceilings : Ceilings} {inline : CleanupJob → Bool} {numbers : List Nat}
    (sound : world.Sound ceilings 0) (built : ∀ number ∈ numbers, number < world.built) :
    (numbers.foldl (PoolWorld.abandonAll inline) world).Sound ceilings 0 := by
  induction numbers generalizing world with
  | nil => exact sound
  | cons first numbers ih =>
      apply ih
      · exact sound.abandonAll (built first List.mem_cons_self)
      · intro number member
        rw [(sweeps_abandonAll inline first).built]
        exact built number (List.mem_cons_of_mem first member)

end Sweeps

/-- A cancelled execution finds all of its registries empty, and any other finds them in its
list. -/
structure Tidy (world : PoolWorld) : Prop where
  built : ∀ number, (world.registries number).alive = true → number < world.built
  dropped : ∀ number, (world.registries number).alive = false →
    (world.registries number).files = ∅
  staffed : ∀ worker ∈ world.workers, (world.registries worker.registry).alive = true
  listed : ∀ number control, (world.registries number).alive = true →
    (world.registries number).control = some control →
      (world.controls control).cancelled = false →
        number ∈ (world.controls control).registries
  swept : ∀ number control, (world.registries number).control = some control →
    (world.controls control).cancelled = true → (world.registries number).files = ∅

section Tidy
variable {world after : PoolWorld} {number : Nat}

theorem Tidy.new : PoolWorld.new.Tidy where
  built _ alive := Bool.noConfusion alive
  dropped _ _ := rfl
  staffed _ member := absurd member List.not_mem_nil
  listed _ _ alive := Bool.noConfusion alive
  swept _ _ _ _ := rfl

theorem Tidy.sweeps (tidy : world.Tidy) (sweeps : world.Sweeps after) : after.Tidy where
  built number alive := by
      rw [sweeps.registry] at alive
      rw [sweeps.built]
      exact tidy.built number alive
  dropped number dropped := by
      rw [sweeps.registry] at dropped
      exact Finset.subset_empty.mp (tidy.dropped number dropped ▸ sweeps.files number)
  staffed worker member := by
      rw [sweeps.workers] at member
      rw [sweeps.registry]
      exact tidy.staffed worker member
  listed number control alive owned running := by
      rw [sweeps.registry] at alive owned
      rw [sweeps.control] at running ⊢
      exact tidy.listed number control alive owned running
  swept number control owned cancelled := by
      rw [sweeps.registry] at owned
      rw [sweeps.control] at cancelled
      exact Finset.subset_empty.mp
        (tidy.swept number control owned cancelled ▸ sweeps.files number)

theorem Tidy.record (tidy : world.Tidy) (event : PoolEvent) : (world.record event).Tidy :=
  { tidy with }

theorem Tidy.staff {workers : List Worker} (tidy : world.Tidy)
    (staffed : ∀ worker ∈ workers, (world.registries worker.registry).alive = true) :
    { world with workers }.Tidy :=
  { tidy with staffed }

/-- A handle goes only into a registry whose execution goes on. -/
theorem Tidy.stores {files : Finset Nat} (tidy : world.Tidy)
    (alive : (world.registries number).alive = true)
    (running : world.isCancelled number = false) : (world.setFiles number files).Tidy := by
  have registry : ∀ other, ((world.setFiles number files).registries other).alive =
        (world.registries other).alive ∧
      ((world.setFiles number files).registries other).control =
        (world.registries other).control := by
    intro other
    by_cases same : other = number
    · subst same
      simp [setFiles]
    · rw [setFiles_registries same]
      exact ⟨rfl, rfl⟩
  constructor
  case built =>
      intro other
      rw [(registry other).1]
      exact tidy.built other
  case dropped =>
      intro other dropped
      rw [(registry other).1] at dropped
      have different : other ≠ number := by
        intro same
        rw [same, alive] at dropped
        exact Bool.noConfusion dropped
      rw [setFiles_registries different]
      exact tidy.dropped other dropped
  case staffed =>
      intro worker member
      rw [(registry worker.registry).1]
      exact tidy.staffed worker member
  case listed =>
      intro other control
      rw [(registry other).1, (registry other).2]
      exact tidy.listed other control
  case swept =>
      intro other control owned cancelled
      rw [(registry other).2] at owned
      have different : other ≠ number := by
        intro same
        rw [same] at owned
        have expired : (world.controls control).isCancelled = false := by
          simpa [isCancelled, owned] using running
        rw [ExecutionControl.isCancelled, Bool.or_eq_false_iff] at expired
        exact Bool.noConfusion (expired.1.symm.trans cancelled)
      rw [setFiles_registries different]
      exact tidy.swept other control owned cancelled

theorem Tidy.cancel {inline : CleanupJob → Bool} {control : Nat} (tidy : world.Tidy) :
    (world.cancel inline control).Tidy := by
  obtain ⟨sweeps, emptied⟩ := abandonEach inline
    (world.setControl control
      { world.controls control with cancelled := true, registries := [] })
    ((world.controls control).registries.filter fun number => (world.registries number).alive)
  have others : ∀ other, other ≠ control → (world.setControl control
      { world.controls control with cancelled := true, registries := [] }).controls other =
        world.controls other := by
    intro other different
    exact Function.update_of_ne different _ _
  have own : ((world.setControl control
      { world.controls control with cancelled := true, registries := [] }).controls
        control).cancelled = true := by
    simp [setControl]
  constructor
  case built =>
      intro number alive
      rw [PoolWorld.cancel, sweeps.registry] at alive
      rw [PoolWorld.cancel, sweeps.built]
      exact tidy.built number alive
  case dropped =>
      intro number dropped
      rw [PoolWorld.cancel, sweeps.registry] at dropped
      exact Finset.subset_empty.mp (tidy.dropped number dropped ▸ sweeps.files number)
  case staffed =>
      intro worker member
      rw [PoolWorld.cancel, sweeps.workers] at member
      rw [PoolWorld.cancel, sweeps.registry]
      exact tidy.staffed worker member
  case listed =>
      intro number other alive owned running
      rw [PoolWorld.cancel, sweeps.registry] at alive owned
      rw [PoolWorld.cancel, sweeps.control] at running ⊢
      have different : other ≠ control := by
        intro same
        rw [same] at running
        exact Bool.noConfusion (own.symm.trans running)
      change _ ∈ (PoolWorld.controls (world.setControl control _) other).registries
      change (PoolWorld.controls (world.setControl control _) other).cancelled = _ at running
      rw [others other different] at running ⊢
      exact tidy.listed number other alive owned running
  case swept =>
      intro number other owned cancelled
      rw [PoolWorld.cancel, sweeps.registry] at owned
      rw [PoolWorld.cancel, sweeps.control] at cancelled
      change (world.registries number).control = some other at owned
      have before : (world.registries number).files = ∅ →
          ((world.cancel inline control).registries number).files = ∅ := by
        intro empty
        exact Finset.subset_empty.mp (empty ▸ sweeps.files number)
      by_cases already : (world.controls other).cancelled = true
      · exact before (tidy.swept number other owned already)
      · have same : other = control := by
          by_contra different
          change (PoolWorld.controls (world.setControl control _) other).cancelled = _ at cancelled
          rw [others other different] at cancelled
          exact already cancelled
        subst same
        cases alive : (world.registries number).alive with
        | false => exact before (tidy.dropped number alive)
        | true =>
            apply emptied
            rw [List.mem_filter]
            exact ⟨tidy.listed number other alive owned (Bool.eq_false_iff.mpr already), alive⟩

end Tidy

end PoolWorld

end TinySandbox.Sandbox
