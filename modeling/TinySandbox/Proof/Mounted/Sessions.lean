/-
This file follows the handles of a mounted filesystem over whole sessions.
The counter wraps, so a handle can come back only after every other number was used.
-/

import TinySandbox.Proof.Mounted.Handles

namespace TinySandbox.Mounted
open Library Library.Task Mem MountedVfs

variable {vfs : MountedVfs} {steps : List Step} {before after : State}

theorem session_append_iff {first second : List Step} :
    Session vfs before (first ++ second) after ↔
      ∃ middle, Session vfs before first middle ∧ Session vfs middle second after := by
  induction first generalizing before with
  | nil => simp [Session]
  | cons step rest ih =>
      simp only [List.cons_append, Session, ih]
      constructor
      · intro session
        obtain ⟨next, ran, middle, left, right⟩ := session
        exact ⟨middle, ⟨next, ran, left⟩, right⟩
      · intro session
        obtain ⟨middle, ⟨next, ran, left⟩, right⟩ := session
        exact ⟨next, ran, middle, left, right⟩

theorem session_snoc_iff {step : Step} :
    Session vfs before (steps ++ [step]) after ↔
      ∃ middle, Session vfs before steps middle ∧
        (vfs.call step.call).Runs middle step.events step.reply after := by
  rw [session_append_iff]
  simp [Session]

theorem session_tracks (session : Session vfs State.new steps after) : Tracks steps after := by
  induction steps using List.reverseRecOn generalizing after with
  | nil =>
      obtain rfl := session
      intro handle
      rfl
  | append_singleton steps step ih =>
      obtain ⟨middle, earlier, ran⟩ := session_snoc_iff.mp session
      exact (step_tracks (ih earlier) ran).tracks

/-- Every step of a session is tracked by the steps before it. -/
theorem session_step {first later : List Step} {step : Step}
    (session : Session vfs State.new (first ++ step :: later) after) :
    ∃ middle next, Session vfs State.new first middle ∧ StepTracks first step middle next := by
  obtain ⟨middle, earlier, next, ran, -⟩ := session_append_iff.mp session
  exact ⟨middle, next, earlier, step_tracks (session_tracks earlier) ran⟩

theorem session_forwards (session : Session vfs State.new steps after) :
    ForwardsHandles steps := by
  intro first step later same
  subst same
  obtain ⟨middle, next, -, tracked⟩ := session_step session
  exact ⟨tracked.follows, tracked.fresh⟩

/-- These are the handles that the steps opened, in order. -/
def openedHandles (steps : List Step) : List Nat := steps.filterMap Step.opened

theorem openedHandles_snoc (steps : List Step) (step : Step) :
    openedHandles (steps ++ [step]) = openedHandles steps ++ step.opened.toList := by
  rw [openedHandles, List.filterMap_append]
  cases opened : step.opened with
  | none => simp [opened, openedHandles]
  | some outer => simp [opened, openedHandles]

/-- A handle that was never opened has no owner. -/
theorem owner_eq_none_of_unopened {handle : Nat} (unopened : handle ∉ openedHandles steps) :
    owner steps handle = none := by
  induction steps using List.reverseRecOn with
  | nil => rfl
  | append_singleton steps step ih =>
      rw [openedHandles, List.filterMap_append, List.mem_append, not_or] at unopened
      rw [owner_snoc, Step.owner, ih unopened.1, if_neg]
      · exact ite_self none
      · intro opened
        exact unopened.2 (by simp [opened])

/-- A handle without an owner gets one only from an open that returns it. -/
theorem owner_append_eq_none {handle : Nat} {middle : List Step} (free : owner steps handle = none)
    (unopened : handle ∉ openedHandles middle) : owner (steps ++ middle) handle = none := by
  induction middle using List.reverseRecOn with
  | nil => rwa [List.append_nil]
  | append_singleton middle step ih =>
      rw [openedHandles, List.filterMap_append, List.mem_append, not_or] at unopened
      rw [← List.append_assoc, owner_snoc, Step.owner, ih unopened.1, if_neg]
      · exact ite_self none
      · intro opened
        exact unopened.2 (by simp [opened])

theorem vacant_next {handles : OrderedMap Nat MountedHandle} {raw : Nat} (fuel : Nat)
    (nonzero : raw ≠ 0) (free : handles.get raw = none) :
    vacant handles (fuel + 1) raw = some raw :=
  if_pos ⟨nonzero, free⟩

/-- Before the counter wraps, the opens return the numbers from one on. -/
theorem session_counts (session : Session vfs State.new steps after)
    (few : (openedHandles steps).length < 2 ^ 64) :
    openedHandles steps = List.range' 1 (openedHandles steps).length ∧
      after.nextHandle = ((openedHandles steps).length + 1) % 2 ^ 64 := by
  induction steps using List.reverseRecOn generalizing after with
  | nil =>
      obtain rfl := session
      exact ⟨rfl, by decide⟩
  | append_singleton steps step ih =>
      obtain ⟨middle, earlier, ran⟩ := session_snoc_iff.mp session
      have tracks := session_tracks earlier
      have tracked := step_tracks tracks ran
      rw [openedHandles_snoc] at few ⊢
      cases opened : step.opened with
      | none =>
          rw [opened, Option.toList_none, List.append_nil] at few
          rw [Option.toList_none, List.append_nil, tracked.counter opened]
          exact ih earlier few
      | some outer =>
          rw [opened, Option.toList_some, List.length_append, List.length_singleton] at few
          obtain ⟨numbers, counter⟩ := ih earlier (by omega)
          rw [Nat.mod_eq_of_lt few] at counter
          obtain ⟨free, next⟩ := tracked.taken outer opened
          have bounded : ∀ handle ∈ openedHandles steps, handle < (openedHandles steps).length + 1 := by
            intro handle member
            rw [numbers, List.mem_range'_1] at member
            omega
          have unused : (openedHandles steps).length + 1 ∉ openedHandles steps :=
            fun member => absurd (bounded _ member) (lt_irrefl _)
          have unowned : middle.handles.get ((openedHandles steps).length + 1) = none :=
            (tracks _).trans (owner_eq_none_of_unopened unused)
          rw [counter, vacant_next _ (Nat.succ_ne_zero _) unowned] at free
          obtain rfl := Option.some.inj free
          rw [Option.toList_some, List.length_append, List.length_singleton]
          refine ⟨?_, next⟩
          rw [List.range'_1_concat, ← numbers, Nat.add_comm 1]

theorem session_never_reuses (session : Session vfs State.new steps after)
    (few : (openedHandles steps).length < 2 ^ 64) : NeverReuses steps := by
  have distinct : (openedHandles steps).Nodup := by
    rw [(session_counts session few).1]
    exact List.nodup_range'
  refine ⟨distinct, ?_⟩
  intro first release middle use later same handle released owned uses
  have forwards := session_forwards session
  have opened : handle ∈ openedHandles first := by
    by_contra unopened
    exact owned (owner_eq_none_of_unopened unopened)
  subst same
  -- The handle was opened before the release, so nothing opens it again.
  have apart : handle ∉ openedHandles (release :: middle) := by
    intro again
    have prefixed : openedHandles (first ++ release :: (middle ++ use :: later)) =
        openedHandles first ++ (openedHandles (release :: middle) ++
          openedHandles (use :: later)) := by
      simp only [openedHandles, ← List.filterMap_append, List.cons_append]
    rw [prefixed, List.nodup_append] at distinct
    exact distinct.2.2 handle opened handle (List.mem_append_left _ again) rfl
  rw [openedHandles, ← List.singleton_append, List.filterMap_append, List.mem_append,
    not_or] at apart
  have ended : owner (first ++ [release]) handle = none := by
    rw [owner_snoc, Step.owner, if_neg, if_pos released]
    intro reopened
    exact apart.1 (by simp [reopened])
  have free := owner_append_eq_none ended apart.2
  obtain ⟨follows, -⟩ := forwards (first ++ [release] ++ middle) use later (by simp)
  have rejected := follows handle uses
  rwa [free] at rejected

/-- A number that is not live is found before the search has seen every number. -/
theorem vacant_found {handles : OrderedMap Nat MountedHandle} (room : handles.size + 1 < 2 ^ 64)
    {raw : Nat} (small : raw < 2 ^ 64) :
    ∃ outer, vacant handles (handles.size + 2) raw = some outer := by
  have search : ∀ fuel raw, raw < 2 ^ 64 → vacant handles fuel raw = none →
      ∀ step < fuel, (raw + step) % 2 ^ 64 = 0 ∨ handles.get ((raw + step) % 2 ^ 64) ≠ none := by
    intro fuel
    induction fuel with
    | zero => exact fun _ _ _ step impossible => absurd impossible (Nat.not_lt_zero step)
    | succ fuel ih =>
        intro raw small missing step inside
        unfold vacant at missing
        split_ifs at missing with free
        cases step with
        | zero =>
            rw [Nat.add_zero, Nat.mod_eq_of_lt small]
            rwa [not_and_or, not_not] at free
        | succ step =>
            have later := ih ((raw + 1) % 2 ^ 64) (Nat.mod_lt _ (by decide)) missing step (by omega)
            rwa [Nat.mod_add_mod, Nat.add_assoc, Nat.add_comm 1] at later
  by_contra missing
  have occupied := search (handles.size + 2) raw small
    (Option.eq_none_iff_forall_ne_some.mpr fun outer found => missing ⟨outer, found⟩)
  -- The numbers that the search saw are distinct, and there is one more than zero and the live ones.
  let seen : Finset Nat := (Finset.range (handles.size + 2)).image fun step => (raw + step) % 2 ^ 64
  have many : seen.card = handles.size + 2 := by
    rw [Finset.card_image_of_injOn, Finset.card_range]
    intro first inside second within same
    rw [Finset.coe_range, Set.mem_Iio] at inside within
    change (raw + first) % 2 ^ 64 = (raw + second) % 2 ^ 64 at same
    omega
  have live : (seen : Set Nat) ⊆ insert 0 {key | handles.get key ≠ none} := by
    intro number member
    obtain ⟨step, inside, rfl⟩ := Finset.mem_image.mp (Finset.mem_coe.mp member)
    exact occupied step (Finset.mem_range.mp inside)
  have finite : {key | handles.get key ≠ none}.Finite := handles.keys_finite
  have few := Set.ncard_le_ncard live (finite.insert 0)
  rw [Set.ncard_coe_finset, many] at few
  have bound := Set.ncard_insert_le 0 {key | handles.get key ≠ none}
  rw [handles.ncard_keys] at bound
  omega

/-- The counter stays a `u64`. -/
theorem session_nextHandle (session : Session vfs State.new steps after) :
    after.nextHandle < 2 ^ 64 := by
  induction steps using List.reverseRecOn generalizing after with
  | nil =>
      obtain rfl := session
      decide
  | append_singleton steps step ih =>
      obtain ⟨middle, earlier, ran⟩ := session_snoc_iff.mp session
      have tracked := step_tracks (session_tracks earlier) ran
      cases opened : step.opened with
      | none =>
          rw [tracked.counter opened]
          exact ih earlier
      | some outer =>
          rw [(tracked.taken outer opened).2]
          exact Nat.mod_lt _ (by decide)

/-- While a number is left, an open that the backend accepted returns. -/
theorem insertHandle_returns {state : State} (small : state.nextHandle < 2 ^ 64)
    (room : state.handles.size + 1 < 2 ^ 64) (mount : Name) (inner : Nat) :
    ∃ outer reached, (MountedVfs.insertHandle mount inner).exec state = .pure (.ok outer, reached) := by
  obtain ⟨outer, found⟩ := vacant_found room small
  refine ⟨outer, {
    handles := state.handles.insert outer { mount, inner }
    nextHandle := (outer + 1) % 2 ^ 64 }, ?_⟩
  exact insertHandle_exec mount inner found

/-- Paths are routed exactly, mounts are protected, and a handle reaches only its owner. Handles
are distinct while they live, and for ever in sessions with less than `2 ^ 64` opens. -/
theorem mounts_route_and_forward (vfs : MountedVfs) :
    RoutesExactly vfs ∧ ProtectsMounts vfs ∧
      ∀ steps after, Session vfs State.new steps after →
        ForwardsHandles steps ∧
        ((openedHandles steps).length < 2 ^ 64 → NeverReuses steps) ∧
        (after.handles.size + 1 < 2 ^ 64 → ∀ mount inner, ∃ outer reached,
          (MountedVfs.insertHandle mount inner).exec after = .pure (.ok outer, reached)) := by
  refine ⟨routesExactly vfs, protectsMounts vfs, ?_⟩
  intro steps after session
  refine ⟨session_forwards session, session_never_reuses session, ?_⟩
  intro room mount inner
  exact insertHandle_returns (session_nextHandle session) room mount inner

/-- One mount is enough to use up the numbers. -/
def singleMount : MountedVfs where
  mounts := (∅ : OrderedMap Name Unit).insert ['m'] ()
  valid := by decide

/-- The backend opens its file under one number again and again. -/
def openStep (outer : Nat) : Step where
  call := .open ['/', 'm', '/', 'f'] .readOnly
  events := [⟨⟨['m'], .open ['/', 'f'] .readOnly⟩, .ok 0⟩]
  reply := .ok outer

def closeStep (outer : Nat) : Step where
  call := .close outer
  events := [⟨⟨['m'], .close 0⟩, .ok ()⟩]
  reply := .ok ()

/-- The steps open and close a file as often as the count says. -/
def cycles : Nat → List Step
  | 0 => []
  | count + 1 => cycles count ++ [openStep (count + 1), closeStep (count + 1)]

theorem open_runs (outer next : Nat)
    (taken : vacant ∅ 2 next = some outer) :
    (singleMount.call (openStep outer).call).Runs { handles := ∅, nextHandle := next }
      (openStep outer).events (openStep outer).reply
      { handles := (∅ : OrderedMap Nat MountedHandle).insert outer { mount := ['m'], inner := 0 }
        nextHandle := (outer + 1) % 2 ^ 64 } := by
  have below : Below singleMount ['/', 'm', '/', 'f'] ['m'] [['f']] :=
    ⟨by decide, by decide, by decide⟩
  change (singleMount.open ['/', 'm', '/', 'f'] .readOnly).Runs _
    [⟨⟨['m'], .open ['/', 'f'] .readOnly⟩, .ok 0⟩] (.ok outer) _
  rw [MountedVfs.open, mountedPath_below below, lift_ok_bind, Call.okOr_some, lift_ok_bind,
    refuse_bind_of_not (by decide)]
  apply runs_bind_iff.mpr
  right
  refine ⟨_, [], (0 : Nat), _, rfl, runs_forward_iff.mpr ⟨rfl, rfl⟩, ?_⟩
  unfold Runs
  rw [insertHandle_exec _ _ taken]
  exact runs_pure_iff.mpr ⟨rfl, rfl, rfl⟩

theorem close_runs (outer next : Nat) :
    (singleMount.call (closeStep outer).call).Runs
      { handles := (∅ : OrderedMap Nat MountedHandle).insert outer { mount := ['m'], inner := 0 }
        nextHandle := next }
      (closeStep outer).events (closeStep outer).reply { handles := ∅, nextHandle := next } := by
  change (MountedVfs.close outer).Runs _ [⟨⟨['m'], .close 0⟩, .ok ()⟩] (.ok ()) _
  rw [MountedVfs.close, runs_removeHandle_bind_iff]
  have erased : ((∅ : OrderedMap Nat MountedHandle).insert outer { mount := ['m'], inner := 0 }).erase
      outer = ∅ := by
    ext1 other
    rw [OrderedMap.get_erase, OrderedMap.get_insert]
    split <;> simp_all
  simp only [OrderedMap.get_insert, if_true, erased]
  exact runs_forward_iff.mpr ⟨rfl, rfl⟩

theorem cycles_session (count : Nat) (small : count < 2 ^ 64) :
    Session singleMount State.new (cycles count)
      { handles := ∅, nextHandle := (count + 1) % 2 ^ 64 } := by
  induction count with
  | zero => rfl
  | succ count ih =>
      have earlier := ih (by omega)
      rw [Nat.mod_eq_of_lt small] at earlier
      apply session_append_iff.mpr
      refine ⟨_, earlier, _, open_runs (count + 1) (count + 1) ?_, _, close_runs (count + 1) _, rfl⟩
      exact vacant_next 1 (Nat.succ_ne_zero count) rfl

theorem one_mem_cycles {count : Nat} (some : 0 < count) : 1 ∈ openedHandles (cycles count) := by
  induction count with
  | zero => exact absurd some (lt_irrefl 0)
  | succ count ih =>
      cases count with
      | zero => decide
      | succ count =>
          rw [cycles, openedHandles, List.filterMap_append, List.mem_append]
          exact .inl (ih (Nat.succ_pos count))

/-- After `2 ^ 64 - 1` opens that were all closed, the next open returns the first number again. -/
theorem wrapped_counter_reuses :
    ¬ ∀ vfs steps after, Session vfs State.new steps after → (openedHandles steps).Nodup := by
  intro distinct
  obtain ⟨count, numbers⟩ : ∃ count, count = 2 ^ 64 - 1 := ⟨_, rfl⟩
  have cycled := cycles_session count (by omega)
  have zero : (count + 1) % 2 ^ 64 = 0 := by omega
  rw [zero] at cycled
  have session : Session singleMount State.new (cycles count ++ [openStep 1]) _ :=
    session_snoc_iff.mpr ⟨_, cycled, open_runs 1 0 (by decide)⟩
  have nodup := distinct singleMount _ _ session
  rw [openedHandles_snoc, List.nodup_append] at nodup
  have first := one_mem_cycles (show 0 < count by omega)
  exact nodup.2.2 1 first 1 (List.mem_singleton.mpr rfl) rfl

/-- The session of one open and one close meets the hypotheses. -/
theorem mounts_route_and_forward_cycle :
    (RoutesExactly singleMount ∧ ProtectsMounts singleMount) ∧
      ForwardsHandles (cycles 1) ∧ NeverReuses (cycles 1) := by
  have all := mounts_route_and_forward singleMount
  have session := all.2.2 (cycles 1) _ (cycles_session 1 (by decide))
  exact ⟨⟨all.1, all.2.1⟩, session.1, session.2.1 (by decide)⟩

end TinySandbox.Mounted
