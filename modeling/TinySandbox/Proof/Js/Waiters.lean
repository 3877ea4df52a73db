/-
This file proves when no promised filesystem call is left without its turn.
A waiter is woken by the release of a deferred answer, and by nothing else.
-/

import Mathlib.Data.List.Perm.Basic
import TinySandbox.Construction.Js.Glue
import TinySandbox.Proof.Js.Sessions

namespace TinySandbox.Js

/-- Every slot is counted, every issued call had one, and every call has exactly one place.
The calls in hand are about to wait or to be issued. -/
structure Glue.Accounted (glue : Glue) (inHand : List Nat) : Prop where
  slots : glue.shim.pending.length = maxPending
  counted : glue.shim.pendingCount = glue.shim.pending.countP Option.isSome
  held : glue.deferredCount = glue.shim.pendingCount + glue.releases
  granted : ∀ entry ∈ glue.issued, entry.2 = true
  owned : (inHand ++ (glue.slotWaiters ++ glue.woken ++ glue.issued.map Prod.fst)).Perm
    (List.range glue.asyncCalls)

/-- A call that waits will be woken, by an answer or by a call that is already awake. -/
def Glue.Served (glue : Glue) : Prop :=
  glue.slotWaiters ≠ [] → 0 < glue.deferredCount ∨ glue.woken ≠ []

/-- What the queue promises in every state of a run: a call is issued with a slot and once, and
when all is quiet every call has had its turn. -/
def NoneStranded (actions : List GlueAction) : Prop :=
  ∀ earlier glue, earlier <+: actions → runGlue .new earlier = some glue →
    (∀ entry ∈ glue.issued, entry.2 = true) ∧ (glue.issued.map Prod.fst).Nodup ∧
      (glue.Quiescent → glue.slotWaiters = [] ∧
        ∀ number < glue.asyncCalls, number ∈ glue.issued.map Prod.fst)

/-- The last call that is awake releases nothing when the host answers it inline. -/
def Glue.Strands (glue : Glue) : GlueAction → Prop
  | .resume number deferred =>
      glue.woken = [number] ∧ deferred = false ∧ glue.deferredCount = 0 ∧ glue.slotWaiters ≠ []
  | _ => False

section Steps
variable {glue after : Glue} {deferred : Bool} {number : Nat} {inHand : List Nat}

/-- A host call leaves the slots alone, or the host defers it and it takes a free one. -/
theorem callGlobal_cases (glue : Glue) (deferred : Bool) :
    ((deferred = false ∨ glue.hasSlot = false) ∧
        glue.callGlobal deferred = { glue with hostCalls := glue.hostCalls + 1 }) ∨
      ∃ index, deferred = true ∧ glue.shim.reserveSlot = .slot index ∧
        glue.callGlobal deferred = { glue with
          shim := { pending := glue.shim.pending.set index (some glue.hostCalls)
                    pendingCount := glue.shim.pendingCount + 1 }
          hostCalls := glue.hostCalls + 1
          deferredCount := glue.deferredCount + 1 } := by
  unfold Glue.callGlobal Glue.hostCall Glue.hasSlot
  cases reserved : glue.shim.reserveSlot with
  | slot index =>
      have asked : glue.shim.callId true = .slot index := reserved
      rw [asked]
      cases deferred with
      | false => exact .inl ⟨.inl rfl, rfl⟩
      | true => exact .inr ⟨index, rfl, rfl, rfl⟩
  | noSlot =>
      have asked : glue.shim.callId true = .noSlot := reserved
      rw [asked]
      exact .inl ⟨.inr rfl, rfl⟩
  | inline =>
      have asked : glue.shim.callId true = .inline := reserved
      rw [asked]
      exact .inl ⟨.inr rfl, rfl⟩

theorem callAsync_waits (full : (maxDeferred : Int) ≤ glue.deferredCount) :
    glue.callAsync deferred number =
      { glue with slotWaiters := glue.slotWaiters ++ [number] } :=
  if_pos full

theorem callAsync_issues (room : glue.deferredCount < (maxDeferred : Int)) :
    glue.callAsync deferred number =
      { glue.callGlobal deferred with issued := glue.issued ++ [(number, glue.hasSlot)] } := by
  unfold Glue.callAsync Glue.callGlobal
  rw [if_neg (Int.not_le.mpr room)]
  cases answered : glue.hostCall deferred with
  | mk result called =>
      have issued : called.issued = glue.issued :=
        (congrArg (fun answer => answer.2.issued) answered).symm
      change { called.holdSlot result with issued := called.issued ++ [(number, glue.hasSlot)] } = _
      rw [issued]

/-- A shim with a free slot reserves one. -/
theorem hasSlot_of_free (slots : glue.shim.pending.length = maxPending)
    (free : glue.shim.pending.countP Option.isSome < maxPending) : glue.hasSlot = true := by
  unfold Glue.hasSlot Shim.reserveSlot
  cases found : glue.shim.pending.findIdx? Option.isNone with
  | some index => rfl
  | none =>
      rw [List.findIdx?_eq_none_iff] at found
      have used : glue.shim.pending.countP Option.isSome = glue.shim.pending.length := by
        rw [List.countP_eq_length]
        intro slot member
        have taken := found slot member
        cases slot with
        | none => cases taken
        | some promise => rfl
      omega

/-- Fewer outstanding answers than slots leave a slot for the next call. -/
theorem Glue.Accounted.hasSlot (accounted : glue.Accounted inHand)
    (room : glue.deferredCount < (maxDeferred : Int)) : glue.hasSlot = true := by
  apply hasSlot_of_free accounted.slots
  have counted := accounted.counted
  have held := accounted.held
  have same : maxDeferred = maxPending := rfl
  omega

theorem Glue.Accounted.new : Glue.new.Accounted [] where
  slots := List.length_replicate
  counted := by decide
  held := rfl
  granted := fun _ member => absurd member List.not_mem_nil
  owned := .refl _

theorem Glue.Accounted.callGlobal (accounted : glue.Accounted inHand) (deferred : Bool) :
    (glue.callGlobal deferred).Accounted inHand := by
  obtain ⟨-, inline⟩ | ⟨index, -, reserved, taken⟩ := callGlobal_cases glue deferred
  · rw [inline]
    exact { accounted with }
  · rw [taken]
    have count := countP_set (some glue.hostCalls) (reserveSlot_slot reserved)
    simp only [Option.isSome_none, Option.isSome_some, if_true, Bool.false_eq_true, if_false]
      at count
    have counted := accounted.counted
    have held := accounted.held
    exact { accounted with
      slots := (List.length_set ..).trans accounted.slots
      counted := by
        change glue.shim.pendingCount + 1 =
          ((glue.shim.pending.set index (some glue.hostCalls)).countP Option.isSome : Int)
        omega
      held := by
        change glue.deferredCount + 1 = glue.shim.pendingCount + 1 + glue.releases
        omega }

theorem Glue.Accounted.callAsync (accounted : glue.Accounted [number]) (deferred : Bool) :
    (glue.callAsync deferred number).Accounted [] := by
  have owned := accounted.owned
  by_cases full : (maxDeferred : Int) ≤ glue.deferredCount
  · rw [callAsync_waits full]
    exact { accounted with
      owned := by
        change ((glue.slotWaiters ++ [number]) ++ glue.woken ++ glue.issued.map Prod.fst).Perm _
        have moved : (glue.slotWaiters ++ [number]).Perm ([number] ++ glue.slotWaiters) :=
          List.perm_append_comm
        rw [List.append_assoc] at owned ⊢
        rw [← List.append_assoc] at owned
        exact (moved.append_right _).trans owned }
  · have room := Int.not_le.mp full
    rw [callAsync_issues room]
    have called := accounted.callGlobal deferred
    have unmoved : (glue.callGlobal deferred).issued = glue.issued ∧
        (glue.callGlobal deferred).slotWaiters = glue.slotWaiters ∧
        (glue.callGlobal deferred).woken = glue.woken ∧
        (glue.callGlobal deferred).asyncCalls = glue.asyncCalls := by
      obtain ⟨-, inline⟩ | ⟨index, -, -, taken⟩ := callGlobal_cases glue deferred
      · rw [inline]
        exact ⟨rfl, rfl, rfl, rfl⟩
      · rw [taken]
        exact ⟨rfl, rfl, rfl, rfl⟩
    obtain ⟨-, waiters, woken, calls⟩ := unmoved
    exact { called with
      granted := by
        intro entry member
        cases List.mem_append.mp member with
        | inl earlier => exact accounted.granted entry earlier
        | inr now =>
            rw [List.mem_singleton.mp now]
            exact accounted.hasSlot room
      owned := by
        change ((glue.callGlobal deferred).slotWaiters ++ (glue.callGlobal deferred).woken ++
          (glue.issued ++ [(number, glue.hasSlot)]).map Prod.fst).Perm
            (List.range (glue.callGlobal deferred).asyncCalls)
        rw [waiters, woken, calls, List.map_append, ← List.append_assoc]
        exact (List.perm_append_comm).trans owned }

theorem Glue.Accounted.begins (accounted : glue.Accounted []) :
    ({ glue with asyncCalls := glue.asyncCalls + 1 } : Glue).Accounted [glue.asyncCalls] :=
  { accounted with
    owned := by
      change ([glue.asyncCalls] ++ _).Perm (List.range (glue.asyncCalls + 1))
      rw [List.range_succ]
      exact List.perm_append_comm.trans (accounted.owned.append_right _) }

theorem Glue.Accounted.wakes (accounted : glue.Accounted []) (awake : number ∈ glue.woken) :
    ({ glue with woken := glue.woken.erase number } : Glue).Accounted [number] :=
  { accounted with
    owned := by
      change ([number] ++ (glue.slotWaiters ++ glue.woken.erase number ++ _)).Perm _
      have woken := List.perm_cons_erase awake
      have front : (glue.slotWaiters ++ number :: glue.woken.erase number).Perm
          ([number] ++ (glue.slotWaiters ++ glue.woken.erase number)) :=
        List.perm_middle
      have moved := front.symm.trans (woken.symm.append_left glue.slotWaiters)
      rw [← List.append_assoc]
      exact (moved.append_right _).trans accounted.owned }

theorem Glue.Accounted.resolves (accounted : glue.Accounted []) {index : Nat}
    (settled : glue.resolve index = some after) : after.Accounted [] := by
  unfold Glue.resolve Shim.resolve at settled
  split at settled
  · next promise found =>
      obtain rfl := Option.some.inj settled
      have count := countP_set none found
      simp only [Option.isSome_none, Option.isSome_some, if_true, Bool.false_eq_true, if_false]
        at count
      have counted := accounted.counted
      have held := accounted.held
      exact { accounted with
        slots := (List.length_set ..).trans accounted.slots
        counted := by
          change glue.shim.pendingCount - 1 =
            ((glue.shim.pending.set index none).countP Option.isSome : Int)
          omega
        held := by
          change glue.deferredCount = glue.shim.pendingCount - 1 + (glue.releases + 1 : Nat)
          omega }
  · cases settled

theorem Glue.Accounted.releases (accounted : glue.Accounted []) (left : 0 < glue.releases) :
    glue.release.Accounted [] := by
  have held := accounted.held
  have balance : glue.deferredCount - 1 = glue.shim.pendingCount + (glue.releases - 1 : Nat) := by
    omega
  unfold Glue.release
  cases waiting : glue.slotWaiters with
  | nil =>
      exact { accounted with
        held := balance
        owned := by
          have owned := accounted.owned
          rw [waiting] at owned
          exact owned }
  | cons next later =>
      exact { accounted with
        held := balance
        owned := by
          have owned := accounted.owned
          rw [waiting] at owned
          change (later ++ (glue.woken ++ [next]) ++ _).Perm _
          rw [← List.append_assoc]
          have moved : (later ++ glue.woken ++ [next]).Perm ([next] ++ (later ++ glue.woken)) :=
            List.perm_append_comm
          exact (moved.append_right _).trans owned }

/-- No action loses a call or uses a slot twice. -/
theorem Glue.Accounted.steps (accounted : glue.Accounted []) {action : GlueAction}
    (ran : action.run glue = some after) : after.Accounted [] := by
  cases action with
  | callAsync deferred =>
      obtain rfl := Option.some.inj ran
      exact accounted.begins.callAsync deferred
  | callGlobal deferred =>
      obtain rfl := Option.some.inj ran
      exact accounted.callGlobal deferred
  | resolve index => exact accounted.resolves ran
  | release =>
      obtain ⟨left, released⟩ := Option.ite_none_right_eq_some.mp ran
      obtain rfl := Option.some.inj released
      exact accounted.releases left
  | resume number deferred =>
      obtain ⟨awake, resumed⟩ := Option.ite_none_right_eq_some.mp ran
      obtain rfl := Option.some.inj resumed
      exact (accounted.wakes awake).callAsync deferred

/-- A call that is issued changes no queue, and a deferred answer adds to the count. -/
theorem callGlobal_queues (glue : Glue) (deferred : Bool) :
    (glue.callGlobal deferred).slotWaiters = glue.slotWaiters ∧
      (glue.callGlobal deferred).woken = glue.woken ∧
      glue.deferredCount ≤ (glue.callGlobal deferred).deferredCount := by
  obtain ⟨-, inline⟩ | ⟨index, -, -, taken⟩ := callGlobal_cases glue deferred
  · rw [inline]
    exact ⟨rfl, rfl, Int.le_refl _⟩
  · rw [taken]
    exact ⟨rfl, rfl, Int.le_add_one (Int.le_refl _)⟩

theorem Glue.Served.callGlobal (served : glue.Served) (deferred : Bool) :
    (glue.callGlobal deferred).Served := by
  intro waiting
  obtain ⟨waiters, woken, count⟩ := callGlobal_queues glue deferred
  rw [waiters] at waiting
  rw [woken]
  exact (served waiting).imp_left fun some => Int.lt_of_lt_of_le some count

/-- The call may be the last one awake if an answer is outstanding or its own will be. -/
theorem Glue.Served.callAsync (accounted : glue.Accounted inHand)
    (hope : glue.slotWaiters ≠ [] → (0 < glue.deferredCount ∨ glue.woken ≠ []) ∨ deferred = true) :
    (glue.callAsync deferred number).Served := by
  by_cases full : (maxDeferred : Int) ≤ glue.deferredCount
  · rw [callAsync_waits full]
    intro waiting
    exact .inl (Int.lt_of_lt_of_le (by decide) full)
  · have room := Int.not_le.mp full
    rw [callAsync_issues room]
    intro waiting
    obtain ⟨waiters, woken, count⟩ := callGlobal_queues glue deferred
    change (glue.callGlobal deferred).slotWaiters ≠ [] at waiting
    change 0 < (glue.callGlobal deferred).deferredCount ∨ (glue.callGlobal deferred).woken ≠ []
    rw [waiters] at waiting
    rw [woken]
    cases hope waiting with
    | inl already => exact already.imp_left fun some => Int.lt_of_lt_of_le some count
    | inr answered =>
        left
        have free := accounted.hasSlot room
        have held := accounted.held
        have counted := accounted.counted
        obtain ⟨refused, -⟩ | ⟨index, -, -, taken⟩ := callGlobal_cases glue deferred
        · cases refused with
          | inl inline => exact absurd (answered.symm.trans inline) nofun
          | inr none => exact absurd (free.symm.trans none) nofun
        · rw [taken]
          change 0 < glue.deferredCount + 1
          omega

/-- Only a step that strands leaves a waiter without a call to wake it. -/
theorem Glue.Served.steps (served : glue.Served) (accounted : glue.Accounted [])
    {action : GlueAction} (kept : ¬ glue.Strands action) (ran : action.run glue = some after) :
    after.Served := by
  cases action with
  | callAsync deferred =>
      obtain rfl := Option.some.inj ran
      exact Glue.Served.callAsync accounted.begins fun waiting => .inl (served waiting)
  | callGlobal deferred =>
      obtain rfl := Option.some.inj ran
      exact served.callGlobal deferred
  | resolve index =>
      obtain ⟨settled, -, rfl⟩ := Option.map_eq_some_iff.mp ran
      exact served
  | release =>
      obtain ⟨-, released⟩ := Option.ite_none_right_eq_some.mp ran
      obtain rfl := Option.some.inj released
      unfold Glue.release
      cases glue.slotWaiters with
      | nil => exact fun waiting => absurd rfl waiting
      | cons next later => exact fun _ => .inr (List.append_ne_nil_of_right_ne_nil _ nofun)
  | resume number deferred =>
      obtain ⟨awake, resumed⟩ := Option.ite_none_right_eq_some.mp ran
      obtain rfl := Option.some.inj resumed
      apply Glue.Served.callAsync (accounted.wakes awake)
      intro waiting
      by_cases outstanding : 0 < glue.deferredCount
      · exact .inl (.inl outstanding)
      · by_cases alone : glue.woken.erase number = []
        · right
          have last : glue.woken = [number] :=
            List.perm_singleton.mp (alone ▸ List.perm_cons_erase awake)
          have held := accounted.held
          have counted := accounted.counted
          by_contra inline
          exact kept ⟨last, Bool.eq_false_of_not_eq_true inline, by omega, waiting⟩
        · exact .inl (.inr alone)

theorem callAsync_inline (room : glue.deferredCount < (maxDeferred : Int)) :
    ∃ granted, glue.callAsync false number =
      { glue with
        hostCalls := glue.hostCalls + 1
        issued := glue.issued ++ [(number, granted)] } := by
  rw [callAsync_issues room]
  obtain ⟨-, inline⟩ | ⟨index, impossible, -⟩ := callGlobal_cases glue false
  · rw [inline]
    exact ⟨_, rfl⟩
  · cases impossible

/-- A call that nobody wakes waits at the end: no job is left and no answer is outstanding. -/
theorem Glue.Strands.quiescent (accounted : glue.Accounted []) {action : GlueAction}
    (strands : glue.Strands action) (ran : action.run glue = some after) :
    after.Quiescent ∧ after.slotWaiters ≠ [] := by
  cases action with
  | resume number deferred =>
      obtain ⟨alone, rfl, none, waiting⟩ := strands
      obtain ⟨-, resumed⟩ := Option.ite_none_right_eq_some.mp ran
      obtain rfl := Option.some.inj resumed
      have held := accounted.held
      have counted := accounted.counted
      have room : glue.deferredCount < (maxDeferred : Int) := by
        rw [none]
        decide
      have asleep : glue.woken.erase number = [] := by
        rw [alone]
        exact List.erase_cons_head ..
      have answered : ∃ granted,
          ({ glue with woken := glue.woken.erase number } : Glue).callAsync false number = _ :=
        callAsync_inline room
      obtain ⟨granted, same⟩ := answered
      rw [same]
      have released : glue.releases = 0 := by omega
      have settled : glue.shim.pendingCount = 0 := by omega
      exact ⟨⟨asleep, released, settled⟩, waiting⟩
  | callAsync | callGlobal | resolve | release => cases strands

end Steps

section Runs
variable {glue : Glue} {actions : List GlueAction}

theorem runGlue_concat (actions : List GlueAction) (action : GlueAction) :
    runGlue .new (actions ++ [action]) =
      (runGlue .new actions).bind fun before => action.run before := by
  unfold runGlue
  rw [List.foldlM_append]
  apply congrArg (Option.bind _)
  funext before
  exact bind_pure _

theorem runGlue_accounted (ran : runGlue .new actions = some glue) : glue.Accounted [] := by
  induction actions using List.reverseRecOn generalizing glue with
  | nil =>
      obtain rfl := Option.some.inj ran
      exact .new
  | append_singleton actions action ih =>
      rw [runGlue_concat] at ran
      obtain ⟨before, earlier, step⟩ := Option.bind_eq_some_iff.mp ran
      exact (ih earlier).steps step

theorem runGlue_served
    (kept : ∀ earlier action before, earlier ++ [action] <+: actions →
      runGlue .new earlier = some before → ¬ before.Strands action)
    (ran : runGlue .new actions = some glue) : glue.Served := by
  induction actions using List.reverseRecOn generalizing glue with
  | nil =>
      obtain rfl := Option.some.inj ran
      exact fun waiting => absurd rfl waiting
  | append_singleton actions action ih =>
      rw [runGlue_concat] at ran
      obtain ⟨before, earlier, step⟩ := Option.bind_eq_some_iff.mp ran
      have served := ih
        (fun first next middle within => kept first next middle (within.trans (List.prefix_append ..)))
        earlier
      exact served.steps (runGlue_accounted earlier) (kept _ _ _ (List.prefix_refl _) earlier) step

/-- In a quiet state of an accounted glue every call that does not wait was issued. -/
theorem Glue.Accounted.finished (accounted : glue.Accounted []) (quiet : glue.Quiescent)
    (none : glue.slotWaiters = []) {number : Nat} (called : number < glue.asyncCalls) :
    number ∈ glue.issued.map Prod.fst := by
  have owned := accounted.owned
  rw [none, quiet.1] at owned
  exact owned.mem_iff.mpr (List.mem_range.mpr called)

/-- Every run keeps the promise of the queue exactly as long as no step of it strands a call. -/
theorem none_stranded_iff (actions : List GlueAction) :
    NoneStranded actions ↔
      ∀ earlier action before, earlier ++ [action] <+: actions →
        runGlue .new earlier = some before → ¬ before.Strands action := by
  constructor
  · intro promised earlier action before within ran strands
    have possible : ∃ after, action.run before = some after := by
      cases action with
      | resume number deferred =>
          exact ⟨_, if_pos (strands.1 ▸ List.mem_singleton_self number)⟩
      | callAsync | callGlobal | resolve | release => cases strands
    obtain ⟨after, step⟩ := possible
    have next : runGlue .new (earlier ++ [action]) = some after := by
      rw [runGlue_concat, ran]
      exact step
    obtain ⟨quiet, waiting⟩ := strands.quiescent (runGlue_accounted ran) step
    obtain ⟨-, -, served⟩ := promised _ after within next
    exact waiting (served quiet).1
  · intro kept earlier glue within ran
    have accounted := runGlue_accounted ran
    have served : glue.Served :=
      runGlue_served (fun first next middle inside => kept first next middle (inside.trans within))
        ran
    have places := accounted.owned.nodup_iff.mpr List.nodup_range
    apply And.intro accounted.granted
    apply And.intro (List.nodup_append.mp places).2.1.of_append_right
    intro quiet
    have none : glue.slotWaiters = [] := by
      by_contra waiting
      have held := accounted.held
      obtain ⟨asleep, released, settled⟩ := quiet
      cases served waiting with
      | inl outstanding => omega
      | inr awake => exact awake asleep
    exact ⟨none, fun number called => accounted.finished quiet none called⟩

/-- The host defers the first 64 of 129 calls and answers all the others inline. -/
def inlineRun : List GlueAction :=
  List.replicate 64 (.callAsync true) ++ List.replicate 65 (.callAsync false) ++
    (List.range 64).map .resolve ++ List.replicate 64 .release ++
      (List.range 64).map fun index => .resume (64 + index) false

theorem inlineRun_strands : ¬ NoneStranded inlineRun := by
  intro promised
  have ended : ((runGlue .new inlineRun).map fun glue =>
      (glue.woken, glue.releases, glue.shim.pendingCount, glue.slotWaiters)) =
        some ([], 0, 0, [128]) := by
    decide +kernel
  obtain ⟨glue, ran, last⟩ := Option.map_eq_some_iff.mp ended
  simp only [Prod.mk.injEq] at last
  obtain ⟨asleep, released, settled, waiting⟩ := last
  obtain ⟨-, -, served⟩ := promised _ glue (List.prefix_refl _) ran
  rw [(served ⟨asleep, released, settled⟩).1] at waiting
  cases waiting

end Runs

end TinySandbox.Js
