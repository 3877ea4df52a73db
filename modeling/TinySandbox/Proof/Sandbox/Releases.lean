/-
This file proves that every run of the pools releases every open handle exactly once.
A cancelled execution keeps nothing in its registries and publishes nothing any more.
-/

import Mathlib.Logic.Relation
import TinySandbox.Proof.Sandbox.Registries

namespace TinySandbox.Sandbox
open Library
namespace PoolWorld

section Registries
variable {ceilings : Ceilings} {world after : PoolWorld} {number handle : Nat}

theorem build_registries (vfs : Nat) (control : Option Nat) :
    (world.build vfs control).registries = Function.update world.registries world.built
      { vfs, control, files := ∅, alive := true } := by
  cases control with
  | none => rfl
  | some control => rfl

theorem build_built (vfs : Nat) (control : Option Nat) :
    (world.build vfs control).built = world.built + 1 := by
  cases control with
  | none => rfl
  | some control => rfl

theorem build_workers (vfs : Nat) (control : Option Nat) :
    (world.build vfs control).workers = world.workers := by
  cases control with
  | none => rfl
  | some control => rfl

/-- A new registry is also in the list of its execution. -/
theorem build_controls (world : PoolWorld) (vfs : Nat) (control : Option Nat) (other : Nat) :
    ∃ registries, (world.build vfs control).controls other =
        { world.controls other with registries } ∧
      (∀ number ∈ (world.controls other).registries, number ∈ registries) ∧
      (control = some other → world.built ∈ registries) := by
  cases control with
  | none => exact ⟨(world.controls other).registries, rfl, fun _ => id, nofun⟩
  | some control =>
      by_cases same : other = control
      · subst same
        exists (world.controls other).registries ++ [world.built]
        constructor
        · simp [build, setControl]
        · simp +contextual
      · exists (world.controls other).registries
        constructor
        · simp [build, setControl, same]
        · exact ⟨fun _ => id, fun same' => absurd (Option.some.inj same').symm same⟩

theorem places_build (vfs : Nat) (control : Option Nat) (tidy : world.Tidy) :
    (world.build vfs control).places = world.places := by
  have older : ∀ number, number < world.built →
      (world.build vfs control).registries number = world.registries number := by
    intro number below
    rw [build_registries]
    exact Function.update_of_ne (Nat.ne_of_lt below) _ _
  have workers : (world.workers : Multiset Worker).map (world.build vfs control).workerPlace =
      (world.workers : Multiset Worker).map world.workerPlace := by
    apply Multiset.map_congr rfl
    intro worker member
    rw [workerPlace, workerPlace, older _ (tidy.built _ (tidy.staffed worker member))]
  have stored : ∀ number ∈ Finset.range world.built,
      (world.build vfs control).stored number
          ((world.build vfs control).registries number).files =
        world.stored number (world.registries number).files := by
    intro number member
    have same := older number (Finset.mem_range.mp member)
    apply Multiset.map_congr
    · rw [same]
    · intro handle _
      rw [jobOf, jobOf, same]
  have fresh : (world.build vfs control).stored world.built
      ((world.build vfs control).registries world.built).files = 0 := by
    rw [build_registries, Function.update_self]
    rfl
  have queue : (world.build vfs control).queue = world.queue := by
    cases control with
    | none => rfl
    | some control => rfl
  rw [places, places, build_workers, build_built, Finset.sum_range_succ, workers, queue, fresh,
    add_zero, Finset.sum_congr rfl stored]

theorem ledger_build (vfs : Nat) (control : Option Nat) :
    (world.build vfs control).ledger = world.ledger := by
  cases control with
  | none => rfl
  | some control => exact ledger_setControl rfl

theorem Tidy.build (vfs : Nat) (control : Option Nat) (tidy : world.Tidy) :
    (world.build vfs control).Tidy := by
  have cases_registry : ∀ number,
      (number = world.built ∧ (world.build vfs control).registries number =
        { vfs, control, files := ∅, alive := true }) ∨
      (world.build vfs control).registries number = world.registries number := by
    intro number
    rw [build_registries]
    by_cases same : number = world.built
    · subst same
      exact .inl ⟨rfl, Function.update_self _ _ _⟩
    · exact .inr (Function.update_of_ne same _ _)
  constructor
  case built =>
      intro number alive
      rw [build_built]
      obtain ⟨rfl, -⟩ | same := cases_registry number
      · exact Nat.lt_succ_self _
      · rw [same] at alive
        exact Nat.lt_succ_of_lt (tidy.built number alive)
  case dropped =>
      intro number dropped
      obtain ⟨-, new⟩ | same := cases_registry number
      · rw [new]
      · rw [same] at dropped ⊢
        exact tidy.dropped number dropped
  case staffed =>
      intro worker member
      rw [build_workers] at member
      obtain ⟨-, new⟩ | same := cases_registry worker.registry
      · rw [new]
      · rw [same]
        exact tidy.staffed worker member
  case listed =>
      intro number other alive owned running
      obtain ⟨registries, changed, older, newest⟩ := build_controls world vfs control other
      rw [changed] at running ⊢
      obtain ⟨rfl, new⟩ | same := cases_registry number
      · rw [new] at owned
        exact newest owned
      · rw [same] at alive owned
        exact older number (tidy.listed number other alive owned running)
  case swept =>
      intro number other owned cancelled
      obtain ⟨registries, changed, -⟩ := build_controls world vfs control other
      rw [changed] at cancelled
      obtain ⟨-, new⟩ | same := cases_registry number
      · rw [new]
      · rw [same] at owned ⊢
        exact tidy.swept number other owned cancelled

theorem Sound.cancel {inline : CleanupJob → Bool} {control : Nat}
    (sound : world.Sound ceilings 0) (tidy : world.Tidy) :
    (world.cancel inline control).Sound ceilings 0 := by
  apply Sound.abandonEach
  · unfold Sound at sound ⊢
    rw [ledger_setControl]
    · exact sound
    · rfl
  · intro number member
    exact tidy.built number (List.mem_filter.mp member).2

theorem dropRegistry_registry (inline : CleanupJob → Bool) (other : Nat) :
    (world.dropRegistry inline number).registries other =
      { (abandonAll inline world number).registries other with
        alive := decide (other ≠ number) &&
          ((abandonAll inline world number).registries other).alive } := by
  unfold dropRegistry
  by_cases same : other = number
  · subst same
    simp
  · simp [same]

theorem Sound.dropRegistry {inline : CleanupJob → Bool} (sound : world.Sound ceilings 0)
    (built : number < world.built) : (world.dropRegistry inline number).Sound ceilings 0 := by
  have swept : (PoolWorld.abandonAll inline world number).Sound ceilings 0 :=
    sound.abandonAll built
  have workers : (world.dropRegistry inline number).workerPlace =
      (PoolWorld.abandonAll inline world number).workerPlace := by
    funext worker
    rw [workerPlace, dropRegistry_registry]
    rfl
  have stored : (world.dropRegistry inline number).stored =
      (PoolWorld.abandonAll inline world number).stored := by
    funext other files
    unfold stored jobOf
    rw [dropRegistry_registry]
  have places : (world.dropRegistry inline number).places =
      (PoolWorld.abandonAll inline world number).places := by
    rw [PoolWorld.places, PoolWorld.places, workers, stored]
    simp only [dropRegistry_registry]
    rfl
  unfold Sound at swept ⊢
  rw [places]
  exact swept

theorem Tidy.dropRegistry {inline : CleanupJob → Bool} (tidy : world.Tidy)
    (idle : ∀ worker ∈ world.workers, worker.registry ≠ number) :
    (world.dropRegistry inline number).Tidy := by
  have sweeps : world.Sweeps (PoolWorld.abandonAll inline world number) :=
    sweeps_abandonAll inline number
  have swept := tidy.sweeps sweeps
  constructor
  case built =>
      intro other alive
      rw [dropRegistry_registry, Bool.and_eq_true] at alive
      exact swept.built other alive.2
  case dropped =>
      intro other dropped
      rw [dropRegistry_registry] at dropped ⊢
      by_cases same : other = number
      · subst same
        exact abandonAll_files inline world other
      · apply swept.dropped other
        simpa [same] using dropped
  case staffed =>
      intro worker member
      have before : worker ∈ (abandonAll inline world number).workers := member
      rw [dropRegistry_registry, Bool.and_eq_true]
      constructor
      · rw [sweeps.workers] at before
        exact decide_eq_true (idle worker before)
      · exact swept.staffed worker before
  case listed =>
      intro other control alive owned running
      rw [dropRegistry_registry, Bool.and_eq_true] at alive
      rw [dropRegistry_registry] at owned
      exact swept.listed other control alive.2 owned running
  case swept =>
      intro other control owned cancelled
      rw [dropRegistry_registry] at owned ⊢
      exact swept.swept other control owned cancelled

end Registries

section Runs
variable {ceilings : Ceilings} {world middle after : PoolWorld}

theorem Tidy.erase (tidy : world.Tidy) (worker : Worker) :
    { world with workers := world.workers.erase worker }.Tidy := by
  apply tidy.staff
  intro other member
  exact tidy.staffed other (List.mem_of_mem_erase member)

theorem step_tidy (tidy : world.Tidy) (step : Step ceilings world after) : after.Tidy := by
  cases step with
  | builds vfs control => exact tidy.build vfs control
  | expires control =>
      have same : ∀ other, ∃ expired, (world.setControl control
          { world.controls control with expired := true }).controls other =
            { world.controls other with expired } := by
        intro other
        by_cases here : other = control
        · subst here
          exact ⟨true, by simp [setControl]⟩
        · exact ⟨(world.controls other).expired, by simp [setControl, here]⟩
      constructor
      case built => exact tidy.built
      case dropped => exact tidy.dropped
      case staffed => exact tidy.staffed
      case listed =>
          intro number other
          obtain ⟨expired, changed⟩ := same other
          rw [changed]
          exact tidy.listed number other
      case swept =>
          intro number other
          obtain ⟨expired, changed⟩ := same other
          rw [changed]
          exact tidy.swept number other
  | reserves number alive => exact tidy.startOpen alive
  | opens number handle waits =>
      apply Tidy.record
      apply tidy.staff
      intro worker member
      cases List.mem_cons.mp member with
      | inl same =>
          subst same
          exact tidy.staffed { registry := number, handle := none } waits
      | inr member => exact tidy.staffed worker (List.mem_of_mem_erase member)
  | refuses number => exact (tidy.erase _).sweeps (sweeps_release _)
  | inserts number handle waits => exact (tidy.erase _).finishOpen (tidy.staffed _ waits)
  | finishes number handle abort answer => exact tidy.finish
  | abandons number handle inline => exact tidy.sweeps (sweeps_abandon inline number handle)
  | cancels control inline => exact tidy.cancel
  | cleans job => exact tidy.sweeps ((sweeps_queue _).trans (sweeps_runCleanup job))
  | drops number inline alive idle => exact tidy.dropRegistry idle

theorem step_sound (sound : world.Sound ceilings 0) (tidy : world.Tidy)
    (step : Step ceilings world after) : after.Sound ceilings 0 := by
  cases step with
  | builds vfs control =>
      unfold Sound at sound ⊢
      rw [ledger_build, places_build vfs control tidy]
      exact sound
  | expires control =>
      unfold Sound at sound ⊢
      rw [ledger_setControl]
      · exact sound
      · rfl
  | reserves number => exact sound.startOpen
  | opens number handle waits fresh => exact (sound.takes waits).opens fresh
  | refuses number waits => exact (sound.takes waits).refuses
  | inserts number handle waits =>
      exact (sound.takes waits).finishOpen (tidy.built number (tidy.staffed _ waits))
  | finishes number handle abort answer alive => exact sound.finish (tidy.built number alive)
  | abandons number handle inline alive => exact sound.abandon (tidy.built number alive)
  | cancels control inline => exact sound.cancel tidy
  | cleans job waits =>
      apply Sound.runCleanup
      unfold Sound at sound ⊢
      rw [add_zero, places_dequeue waits] at sound
      rw [Multiset.add_cons, add_zero]
      exact sound
  | drops number inline alive => exact sound.dropRegistry (tidy.built number alive)

theorem reaches_sound (ran : Reaches ceilings .new world) :
    world.Sound ceilings 0 ∧ world.Tidy := by
  induction ran with
  | refl => exact ⟨Balanced.new, .new⟩
  | tail earlier step ih => exact ⟨step_sound ih.1 ih.2 step, step_tidy ih.2 step⟩

/-- Registries keep their executions, and only the handles of running executions are published. -/
structure Grows (world after : PoolWorld) : Prop where
  built : world.built ≤ after.built
  control : ∀ number < world.built,
    (after.registries number).control = (world.registries number).control
  cancelled : ∀ control, (world.controls control).cancelled = true →
    (after.controls control).cancelled = true
  log : ∃ later, after.log = world.log ++ later ∧
    ∀ registry vfs handle, PoolEvent.closed registry vfs handle ∈ later →
      registry < world.built ∧ world.isCancelled registry = false

theorem Grows.sweeps (grows : world.Grows middle) (sweeps : middle.Sweeps after) :
    world.Grows after where
  built := by rw [sweeps.built]; exact grows.built
  control number below := by
      rw [sweeps.registry]
      exact grows.control number below
  cancelled control before := by
      rw [sweeps.control]
      exact grows.cancelled control before
  log := by
      obtain ⟨early, logged, published⟩ := grows.log
      obtain ⟨late, loggedLate, silent⟩ := sweeps.log
      exists early ++ late
      constructor
      · rw [loggedLate, logged, List.append_assoc]
      · intro registry vfs handle member
        cases List.mem_append.mp member with
        | inl member => exact published registry vfs handle member
        | inr member => exact absurd member (silent registry vfs handle)

theorem Grows.refl (world : PoolWorld) : world.Grows world where
  built := le_rfl
  control _ _ := rfl
  cancelled _ := id
  log := ⟨[], (List.append_nil _).symm, fun _ _ _ member => absurd member List.not_mem_nil⟩

theorem Sweeps.grows (sweeps : world.Sweeps after) : world.Grows after :=
  (Grows.refl world).sweeps sweeps

theorem grows_setFiles (number : Nat) (files : Finset Nat) :
    world.Grows (world.setFiles number files) :=
  { Grows.refl world with
    control := by
      intro other below
      by_cases same : other = number
      · subst same
        simp [setFiles]
      · rw [setFiles_registries same] }

theorem grows_setControl {number : Nat} {control : ExecutionControl}
    (cancelled : (world.controls number).cancelled = true → control.cancelled = true) :
    world.Grows (world.setControl number control) :=
  { Grows.refl world with
    cancelled := by
      intro other before
      by_cases same : other = number
      · subst same
        simpa [setControl] using cancelled before
      · simpa [setControl, same] using before }

theorem grows_workers {workers : List Worker} (grows : { world with workers }.Grows after) :
    world.Grows after :=
  ⟨grows.built, grows.control, grows.cancelled, grows.log⟩

theorem grows_finishOpen (number handle : Nat) :
    world.Grows (world.finishOpen number handle).2 := by
  unfold finishOpen
  have stored : world.Grows (world.setFiles number (insert handle (world.registries number).files)) :=
    grows_setFiles number _
  simp only []
  split
  · unfold remove
    by_cases present : handle ∈ ((world.setFiles number
        (insert handle (world.registries number).files)).registries number).files
    · rw [if_pos present]
      apply Grows.sweeps _ (sweeps_release _)
      apply Grows.sweeps (stored.sweeps (sweeps_setFiles (Finset.erase_subset _ _)))
      apply sweeps_record
      exact fun _ _ _ => nofun
    · rw [if_neg present]
      exact stored
  · exact stored

theorem grows_finish (tidy : world.Tidy) (number handle : Nat) (abort : Bool)
    (answer : VfsResult Unit) : world.Grows (world.finish number handle abort answer).2 := by
  unfold finish remove
  by_cases present : handle ∈ (world.registries number).files
  · rw [if_pos present]
    have alive : (world.registries number).alive = true := by
      by_contra dropped
      rw [tidy.dropped number (Bool.eq_false_iff.mpr dropped)] at present
      exact Finset.notMem_empty handle present
    have removed : world.Grows
        (world.setFiles number ((world.registries number).files.erase handle)) :=
      grows_setFiles number _
    apply Grows.sweeps _ (sweeps_release _)
    exact {
      built := removed.built
      control := removed.control
      cancelled := removed.cancelled
      log := by
        refine ⟨[_], rfl, ?_⟩
        intro registry vfs other member
        have call := List.mem_singleton.mp member
        split at call
        · exact PoolEvent.noConfusion call
        · next running =>
            obtain ⟨rfl, -⟩ := PoolEvent.closed.inj call
            constructor
            · exact tidy.built registry alive
            · exact Bool.eq_false_iff.mpr fun cancelled => running (by simp [cancelled]) }
  · rw [if_neg present]
    exact .refl world

theorem step_grows (tidy : world.Tidy) (step : Step ceilings world after) :
    world.Grows after := by
  cases step with
  | builds vfs control =>
      exact {
        built := by rw [build_built]; exact Nat.le_succ _
        control := by
          intro number below
          rw [build_registries, Function.update_of_ne (Nat.ne_of_lt below)]
        cancelled := by
          intro other before
          obtain ⟨registries, changed, -⟩ := build_controls world vfs control other
          rw [changed]
          exact before
        log := by
          exists []
          constructor
          · cases control with
            | none => exact (List.append_nil _).symm
            | some control => exact (List.append_nil _).symm
          · exact fun _ _ _ member => absurd member List.not_mem_nil }
  | expires control => exact grows_setControl id
  | reserves number =>
      unfold startOpen
      obtain ⟨error, refused⟩ | ⟨reserved, admitted, sweeps, -⟩ :=
        reserve_cases ceilings number world
      · rw [refused]
        exact .refl world
      · rw [admitted]
        have grows := sweeps.grows
        exact ⟨grows.built, grows.control, grows.cancelled, grows.log⟩
  | opens number handle =>
      apply grows_workers
      apply Sweeps.grows
      apply sweeps_record
      exact fun _ _ _ => nofun
  | refuses number => exact grows_workers (sweeps_release _).grows
  | inserts number handle => exact grows_workers (grows_finishOpen number handle)
  | finishes number handle abort answer => exact grows_finish tidy number handle abort answer
  | abandons number handle inline => exact (sweeps_abandon inline number handle).grows
  | cancels control inline => exact (grows_setControl fun _ => rfl).sweeps (abandonEach inline _ _).1
  | cleans job => exact ((sweeps_queue _).trans (sweeps_runCleanup job)).grows
  | drops number inline =>
      have sweeps : world.Sweeps (abandonAll inline world number) :=
        sweeps_abandonAll inline number
      have swept := sweeps.grows
      exact {
        built := swept.built
        control := by
          intro other below
          rw [dropRegistry_registry]
          exact swept.control other below
        cancelled := swept.cancelled
        log := swept.log }

/-- Nothing of a cancelled execution is published in a later step. -/
theorem step_silent {control : Nat} (tidy : world.Tidy)
    (cancelled : (world.controls control).cancelled = true)
    (step : Step ceilings world after) :
    ∃ later, after.log = world.log ++ later ∧
      ∀ registry vfs handle, PoolEvent.closed registry vfs handle ∈ later →
        registry < world.built ∧ (world.registries registry).control ≠ some control := by
  obtain ⟨later, logged, published⟩ := (step_grows tidy step).log
  exists later
  constructor
  · exact logged
  · intro registry vfs handle member
    obtain ⟨built, running⟩ := published registry vfs handle member
    constructor
    · exact built
    · intro owned
      rw [isCancelled, owned] at running
      have stopped : (world.controls control).isCancelled = true := by
        rw [ExecutionControl.isCancelled, cancelled]
        rfl
      exact Bool.noConfusion (stopped.symm.trans running)

/-- The run keeps the execution cancelled, so that its registries stay empty. -/
theorem run_silent {control : Nat} (tidy : world.Tidy)
    (cancelled : (world.controls control).cancelled = true)
    (ran : Reaches ceilings world after) :
    after.Tidy ∧ (after.controls control).cancelled = true ∧
      ∃ later, after.log = world.log ++ later ∧
        ∀ registry vfs handle, PoolEvent.closed registry vfs handle ∈ later →
          registry < after.built ∧ (after.registries registry).control ≠ some control := by
  induction ran with
  | refl =>
      exact ⟨tidy, cancelled, [], (List.append_nil _).symm,
        fun _ _ _ member => absurd member List.not_mem_nil⟩
  | @tail middle after _ step ih =>
      obtain ⟨tidyMiddle, still, early, logged, silent⟩ := ih
      have grows := step_grows tidyMiddle step
      obtain ⟨late, loggedLate, silentLate⟩ := step_silent tidyMiddle still step
      have keeps : ∀ registry, registry < middle.built →
          (middle.registries registry).control ≠ some control →
            registry < after.built ∧ (after.registries registry).control ≠ some control := by
        intro registry built other
        rw [grows.control registry built]
        exact ⟨Nat.lt_of_lt_of_le built grows.built, other⟩
      refine ⟨step_tidy tidyMiddle step, grows.cancelled control still, early ++ late, ?_, ?_⟩
      · rw [loggedLate, logged, List.append_assoc]
      · intro registry vfs handle member
        have known : registry < middle.built ∧
            (middle.registries registry).control ≠ some control := by
          cases List.mem_append.mp member with
          | inl member => exact silent registry vfs handle member
          | inr member => exact silentLate registry vfs handle member
        exact keeps registry known.1 known.2

/-- Only the place of a waiting worker can be without a handle. -/
theorem places_held (staffed : ∀ worker ∈ world.workers, worker.handle ≠ none) :
    ∀ place ∈ world.places, place.handle ≠ none := by
  intro place member
  rw [places, Multiset.mem_add, Multiset.mem_add] at member
  obtain (member | member) | member := member
  · obtain ⟨worker, present, rfl⟩ := Multiset.mem_map.mp member
    have held := staffed worker (Multiset.mem_coe.mp present)
    rw [workerPlace, ne_eq, Option.map_eq_none_iff]
    exact held
  · obtain ⟨number, -, member⟩ := Multiset.mem_sum.mp member
    obtain ⟨handle, -, rfl⟩ := Multiset.mem_map.mp member
    exact Option.some_ne_none ((world.jobOf number handle).vfs, handle)
  · obtain ⟨job, -, rfl⟩ := Multiset.mem_map.mp member
    exact Option.some_ne_none (job.vfs, job.handle)

/-- Every run releases each handle once, and a cancellation is final. -/
theorem handles_released_once (ran : Reaches ceilings .new world) :
    world.ReleasesOnce ceilings ∧
      ∀ control, (world.controls control).cancelled = true →
        world.StaysCancelled ceilings control := by
  obtain ⟨sound, tidy⟩ := reaches_sound ran
  unfold Sound at sound
  rw [add_zero] at sound
  constructor
  · exact {
      lifetimes := sound.lifetimes
      owners := sound.distinct
      reservations := sound.reservations
      reservationsOf := sound.reservationsOf
      outstanding := sound.total
      outstandingOf := sound.charges
      capacity := sound.capacity
      limits := sound.limits
      drained := by
        intro staffed ended
        have empty := sound.drained (places_held staffed) ended
        rw [empty] at sound
        exact ⟨sound.total, sound.charges⟩ }
  · intro control cancelled after later
    obtain ⟨tidyAfter, still, log, logged, silent⟩ := run_silent tidy cancelled later
    constructor
    · intro number owned
      exact tidyAfter.swept number control owned still
    · exists log
      exact ⟨logged, fun registry vfs handle member => (silent registry vfs handle member).2⟩

/-- An execution opens a file and is cancelled, and a cleanup thread releases the file. -/
theorem handles_released_once_cancelled :
    ∃ world, Reaches { capacity := 1, maxOpenFiles := fun _ => 1 } .new world ∧
      world.log = [.reserved (some 0), .opened 0 7, .aborted 0 7, .returned (some 0)] ∧
      world.ReleasesOnce { capacity := 1, maxOpenFiles := fun _ => 1 } ∧
      world.StaysCancelled { capacity := 1, maxOpenFiles := fun _ => 1 } 0 := by
  have built : Reaches { capacity := 1, maxOpenFiles := fun _ => 1 } .new _ :=
    Relation.ReflTransGen.refl.tail (.builds 0 (some 0))
  have reserved := built.tail (.reserves 0 rfl)
  have opened := reserved.tail (.opens 0 7 (by decide) (by decide))
  have inserted := opened.tail (.inserts 0 7 (by decide))
  have cancelled := inserted.tail (.cancels 0 fun _ => false)
  have cleaned := cancelled.tail (.cleans { vfs := 0, handle := 7, control := some 0 }
    (by decide +kernel))
  refine ⟨_, cleaned, ?_, (handles_released_once cleaned).1, (handles_released_once cleaned).2 0 ?_⟩
  · decide +kernel
  · decide +kernel

end Runs

end PoolWorld

end TinySandbox.Sandbox
