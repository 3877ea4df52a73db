/-
This file shows that the timers of a guest keep a heap in which every live entry is found.
-/

import TinySandbox.Specification.Turns

namespace TinySandbox.Js
open Library

theorem precedes_iff (first second : TimerEntry) :
    precedes first second = true ↔ first.rank < second.rank := by
  unfold precedes TimerEntry.rank
  rw [Prod.Lex.toLex_lt_toLex]
  simp

namespace TimerQueue
variable {queue : TimerQueue} {inside : Option Nat} {id : Nat} {timer : Timer}

section Frames

@[simp] theorem timers_setTimer (id : Nat) (timer : Timer) (queue : TimerQueue) (other : Nat) :
    (queue.setTimer id timer).timers other =
      if other = id then some timer else queue.timers other := by
  show Function.update queue.timers id (some timer) other = _
  rw [Function.update_apply]

theorem timers_setTimer_self (id : Nat) (timer : Timer) (queue : TimerQueue) :
    (queue.setTimer id timer).timers id = some timer := by
  rw [timers_setTimer, if_pos rfl]

@[simp] theorem entryOf_setTimer (id : Nat) (timer : Timer) (queue : TimerQueue) (other : Nat) :
    (queue.setTimer id timer).entryOf other =
      if other = id then timer.entry else queue.entryOf other := by
  unfold entryOf
  rw [timers_setTimer]
  split
  · rfl
  · rfl

@[simp] theorem refed_setTimer (id : Nat) (timer : Timer) (queue : TimerQueue) (other : Nat) :
    (queue.setTimer id timer).refed other =
      if other = id then timer.ref else queue.refed other := by
  unfold refed
  rw [timers_setTimer]
  split
  · rfl
  · rfl

theorem entryOf_of_timers (found : queue.timers id = some timer) :
    queue.entryOf id = timer.entry := by
  unfold entryOf
  rw [found]
  rfl

theorem refed_of_timers (found : queue.timers id = some timer) : queue.refed id = timer.ref := by
  unfold refed
  rw [found]
  rfl

theorem live_iff {entry : TimerEntry} :
    queue.live entry = true ↔ queue.entryOf entry.timer = some entry := by
  unfold live
  rw [decide_eq_true_iff]

end Frames

section Reading

/-- No two live entries have one rank. -/
theorem Kept.eq_of_rank (kept : queue.Kept inside) {first second : TimerEntry}
    (alive : queue.live first = true) (other : queue.live second = true)
    (same : first.rank = second.rank) : first = second := by
  have seq : first.seq = second.seq := congrArg (fun rank => (ofLex rank).2) same
  exact List.inj_on_of_nodup_map kept.distinct (kept.stored first alive)
    (kept.stored second other) seq

/-- A timer has one live entry. -/
theorem live_unique {first second : TimerEntry} (one : queue.live first = true)
    (two : queue.live second = true) (same : first.timer = second.timer) : first = second := by
  rw [live_iff] at one two
  rw [same, two] at one
  exact (Option.some.inj one).symm

/-- An active timer was not cleared. -/
theorem Kept.uncleared (kept : queue.Kept inside) (found : queue.timers id = some timer)
    (active : id ∈ queue.activeTimers) : timer.cleared = false := by
  rw [← Bool.not_eq_true]
  exact fun cleared => kept.cleared id timer found cleared active

/-- The first entry of the settled heap is the next one. -/
theorem Kept.nextTimer (kept : queue.Kept inside) (entry : TimerEntry) :
    queue.nextTimer.1 = some entry ↔ queue.Next entry := by
  have ordered := Heap.ordered_settle precedes precedes_iff queue.live kept.ordered
  constructor
  · intro head
    refine ⟨Heap.keep_of_head_settle precedes head, ?_⟩
    intro other alive
    exact ordered.first_le head (Heap.mem_settle precedes (kept.stored other alive) alive)
  · intro next
    have stored := Heap.mem_settle precedes (kept.stored entry next.live) next.live
    cases head : (Heap.settle precedes queue.live queue.timerHeap).head? with
    | none =>
        rw [List.head?_eq_none_iff.mp head] at stored
        exact absurd stored List.not_mem_nil
    | some first =>
        have alive := Heap.keep_of_head_settle precedes head
        have same : first.rank = entry.rank :=
          le_antisymm (ordered.first_le head stored) (next.least first alive)
        have equal := kept.eq_of_rank alive next.live same
        show (Heap.settle precedes queue.live queue.timerHeap).head? = some entry
        rw [head, equal]

theorem Kept.nextTimer_eq_none (kept : queue.Kept inside) :
    queue.nextTimer.1 = none ↔ ∀ id, queue.entryOf id = none := by
  constructor
  · intro none id
    have empty : Heap.settle precedes queue.live queue.timerHeap = [] :=
      List.head?_eq_none_iff.mp none
    cases found : queue.entryOf id with
    | none => rfl
    | some entry =>
        have alive : queue.live entry = true := by
          rw [live_iff, kept.named id entry found, found]
        have stored := Heap.mem_settle precedes (kept.stored entry alive) alive
        rw [empty] at stored
        exact absurd stored List.not_mem_nil
  · intro empty
    cases head : queue.nextTimer.1 with
    | none => rfl
    | some entry =>
        have alive := ((kept.nextTimer entry).mp head).live
        rw [live_iff, empty] at alive
        contradiction

end Reading

section Keeping

/-- Only the heap differs, and it still has every live entry. -/
theorem Kept.withHeap (kept : queue.Kept inside) {heap : List TimerEntry}
    (ordered : Heap.Ordered TimerEntry.rank heap)
    (stored : ∀ entry, queue.live entry = true → entry ∈ heap)
    (fewer : heap.Subperm queue.timerHeap) :
    Kept inside { queue with timerHeap := heap } where
  ordered := ordered
  stored := stored
  distinct := by
    obtain ⟨same, perm, sublist⟩ := fewer
    exact (perm.map _).nodup_iff.mp ((sublist.map _).nodup kept.distinct)
  young := fun entry inHeap => kept.young entry (fewer.subset inHeap)
  named := kept.named
  active := kept.active
  waiting := kept.waiting
  inner := kept.inner
  known := kept.known
  unknown := kept.unknown
  cleared := kept.cleared
  delayed := kept.delayed
  refs := kept.refs

theorem Kept.afterNext (kept : queue.Kept inside) : queue.nextTimer.2.Kept inside :=
  kept.withHeap (Heap.ordered_settle precedes precedes_iff queue.live kept.ordered)
    (fun entry alive => Heap.mem_settle precedes (kept.stored entry alive) alive)
    (Heap.settle_subperm precedes queue.live queue.timerHeap)

theorem sorted_mergeSort_rank (heap : List TimerEntry) :
    (heap.mergeSort fun first second => !precedes second first).Pairwise
      fun first second => first.rank ≤ second.rank := by
  have not_precedes : ∀ first second : TimerEntry,
      (!precedes second first) = true ↔ first.rank ≤ second.rank := by
    intro first second
    rw [Bool.not_eq_true', ← Bool.not_eq_true, precedes_iff, not_lt]
  have sorted : (heap.mergeSort fun first second => !precedes second first).Pairwise
      fun first second => (!precedes second first) = true := by
    apply List.pairwise_mergeSort
    · intro first second third before behind
      rw [not_precedes] at *
      exact before.trans behind
    · intro first second
      rw [Bool.or_eq_true, not_precedes, not_precedes]
      exact le_total _ _
  exact sorted.imp fun before => (not_precedes _ _).mp before

theorem Kept.dropStale (kept : queue.Kept inside) : queue.dropStale.Kept inside := by
  unfold TimerQueue.dropStale
  split
  · refine kept.withHeap ?_ ?_ ?_
    · exact Heap.ordered_of_sorted (sorted_mergeSort_rank _)
    · intro entry alive
      rw [List.mem_mergeSort, List.mem_filter]
      exact ⟨kept.stored entry alive, alive⟩
    · exact (List.mergeSort_perm _ _).subperm.trans List.filter_sublist.subperm
  · exact kept

@[simp] theorem timers_activate (id : Nat) (timer : Timer) (queue : TimerQueue) :
    (queue.activate id timer).timers = queue.timers := by
  unfold activate
  split
  · rfl
  · rfl

@[simp] theorem activeTimers_activate (id : Nat) (timer : Timer) (queue : TimerQueue) :
    (queue.activate id timer).activeTimers = insert id queue.activeTimers := by
  unfold activate
  split
  · next inside => exact (Finset.insert_eq_of_mem inside).symm
  · rfl

@[simp] theorem nextTimerId_activate (id : Nat) (timer : Timer) (queue : TimerQueue) :
    (queue.activate id timer).nextTimerId = queue.nextTimerId := by
  unfold activate
  split
  · rfl
  · rfl

/-- An activated timer is counted once. -/
theorem refs_activate (id : Nat) (timer : Timer) (found : queue.timers id = some timer)
    (refs : queue.refedTimers = ((queue.activeTimers.filter fun id => queue.refed id).card : ℤ)) :
    (queue.activate id timer).refedTimers =
      (((insert id queue.activeTimers).filter fun id => queue.refed id).card : ℤ) := by
  unfold activate
  by_cases inside : id ∈ queue.activeTimers
  · rw [if_pos inside, Finset.insert_eq_of_mem inside, refs]
  · rw [if_neg inside, Finset.filter_insert, refed_of_timers found]
    show queue.refedTimers + _ = _
    cases counted : timer.ref
    · simp [refs]
    · rw [if_pos rfl, if_pos rfl, Finset.card_insert_of_notMem, refs, Nat.cast_add, Nat.cast_one]
      exact fun member => inside (Finset.mem_filter.mp member).1

@[simp] theorem timers_enter (entry : TimerEntry) (timer : Timer) (queue : TimerQueue)
    (other : Nat) :
    (queue.enter entry timer).timers other =
      if other = entry.timer then some { timer with entry := some entry }
      else queue.timers other := by
  show ((queue.activate entry.timer timer).setTimer entry.timer _).timers other = _
  rw [timers_setTimer, timers_activate]

@[simp] theorem entryOf_enter (entry : TimerEntry) (timer : Timer) (queue : TimerQueue)
    (other : Nat) :
    (queue.enter entry timer).entryOf other =
      if other = entry.timer then some entry else queue.entryOf other := by
  unfold entryOf
  rw [timers_enter]
  split
  · rfl
  · rfl

theorem refed_enter (entry : TimerEntry) (found : queue.timers entry.timer = some timer) :
    (queue.enter entry timer).refed = queue.refed := by
  funext other
  unfold refed
  rw [timers_enter]
  split
  · next same =>
      subst same
      rw [found]
      rfl
  · rfl

@[simp] theorem activeTimers_enter (entry : TimerEntry) (timer : Timer) (queue : TimerQueue) :
    (queue.enter entry timer).activeTimers = insert entry.timer queue.activeTimers := by
  show (queue.activate entry.timer timer).activeTimers = _
  rw [activeTimers_activate]

theorem live_enter {entry other : TimerEntry} :
    (queue.enter entry timer).live other = true ↔
      other = entry ∨ (other.timer ≠ entry.timer ∧ queue.live other = true) := by
  rw [live_iff, live_iff, entryOf_enter]
  split
  · next same =>
      constructor
      · intro equal
        exact Or.inl (Option.some.inj equal).symm
      · intro either
        rcases either with rfl | ⟨different, -⟩
        · rfl
        · exact absurd same different
  · next different =>
      constructor
      · intro alive
        exact Or.inr ⟨different, alive⟩
      · intro either
        rcases either with rfl | ⟨-, alive⟩
        · exact absurd rfl different
        · exact alive

theorem Kept.enter (kept : queue.Kept inside) {entry : TimerEntry}
    (found : queue.timers entry.timer = some timer) (uncleared : timer.cleared = false)
    (number : entry.seq = queue.timerSeq) : (queue.enter entry timer).Kept inside := by
  have heap : (queue.enter entry timer).timerHeap.Perm (entry :: queue.timerHeap) :=
    Heap.push_perm precedes entry queue.timerHeap
  have seq : (queue.enter entry timer).timerSeq = queue.timerSeq + 1 := rfl
  constructor
  · exact Heap.ordered_push precedes precedes_iff entry kept.ordered
  · intro other alive
    rw [heap.mem_iff]
    rcases live_enter.mp alive with rfl | ⟨-, old⟩
    · exact List.mem_cons_self
    · exact List.mem_cons_of_mem entry (kept.stored other old)
  · rw [(heap.map TimerEntry.seq).nodup_iff, List.map_cons, List.nodup_cons]
    refine ⟨?_, kept.distinct⟩
    intro taken
    obtain ⟨old, inHeap, same⟩ := List.mem_map.mp taken
    have := kept.young old inHeap
    omega
  · intro other inHeap
    rw [seq]
    rcases List.mem_cons.mp (heap.mem_iff.mp inHeap) with rfl | old
    · omega
    · have := kept.young other old
      omega
  · intro id other named
    rw [entryOf_enter] at named
    split at named
    · next same =>
        obtain rfl := Option.some.inj named
        exact same.symm
    · exact kept.named id other named
  · intro id other named
    rw [entryOf_enter] at named
    rw [activeTimers_enter, Finset.mem_insert]
    split at named
    · next same => exact Or.inl same
    · exact Or.inr (kept.active id other named)
  · intro id member
    rw [entryOf_enter]
    split
    · exact Or.inl (Option.some_ne_none entry)
    · next different =>
        rw [activeTimers_enter, Finset.mem_insert] at member
        exact kept.waiting id (member.resolve_left different)
  · intro id runs
    obtain ⟨other, known, repeats⟩ := kept.inner id runs
    rw [timers_enter]
    split
    · next same =>
        rw [same, found] at known
        obtain rfl := Option.some.inj known
        exact ⟨_, rfl, repeats⟩
    · exact ⟨other, known, repeats⟩
  · intro id member
    rw [timers_enter]
    split
    · exact Option.some_ne_none _
    · next different =>
        rw [activeTimers_enter, Finset.mem_insert] at member
        exact kept.known id (member.resolve_left different)
  · intro id later
    have same : (queue.enter entry timer).nextTimerId = queue.nextTimerId :=
      nextTimerId_activate entry.timer timer queue
    have old : queue.timers id = none := kept.unknown id (same ▸ later)
    rw [timers_enter, if_neg, old]
    intro same
    rw [same, found] at old
    contradiction
  · intro id other known cleared
    rw [timers_enter] at known
    split at known
    · obtain rfl := Option.some.inj known
      rw [uncleared] at cleared
      contradiction
    · next different =>
        rw [activeTimers_enter, Finset.mem_insert, not_or]
        exact ⟨different, kept.cleared id other known cleared⟩
  · intro id other known
    rw [timers_enter] at known
    split at known
    · obtain rfl := Option.some.inj known
      exact kept.delayed entry.timer timer found
    · exact kept.delayed id other known
  · rw [activeTimers_enter, refed_enter entry found]
    exact refs_activate entry.timer timer found kept.refs

@[simp] theorem timers_dropStale (queue : TimerQueue) : queue.dropStale.timers = queue.timers := by
  unfold dropStale
  split
  · rfl
  · rfl

theorem entryOf_schedule (found : queue.timers id = some timer) (start : ℚ) (other : Nat) :
    (queue.schedule id start).entryOf other =
      if other = id then
        some { timer := id, due := start + timer.delay, seq := queue.timerSeq }
      else queue.entryOf other := by
  unfold schedule
  rw [found]
  show ((TimerQueue.dropStale _).timers other).bind Timer.entry = _
  rw [timers_dropStale]
  exact entryOf_enter _ timer queue other

theorem Kept.schedule (kept : queue.Kept inside) (found : queue.timers id = some timer)
    (uncleared : timer.cleared = false) (start : ℚ) : (queue.schedule id start).Kept inside := by
  unfold TimerQueue.schedule
  rw [found]
  exact (kept.enter found uncleared rfl).dropStale

theorem Kept.lt_nextTimerId (kept : queue.Kept inside) (found : queue.timers id = some timer) :
    id < queue.nextTimerId := by
  by_contra later
  have unknown := kept.unknown id (not_lt.mp later)
  rw [found] at unknown
  contradiction

/-- The timer keeps its entry, or it is made without one. -/
theorem Kept.revise (kept : queue.Kept inside) (entry : timer.entry = queue.entryOf id)
    (repeats : ∀ old, queue.timers id = some old → timer.repeats = old.repeats)
    (delayed : 1 ≤ timer.delay) {next : Nat} (later : queue.nextTimerId ≤ next) (below : id < next)
    (cleared : timer.cleared = true → id ∉ queue.activeTimers) {refs : Int}
    (counted : refs = ((queue.activeTimers.filter
      fun other => (queue.setTimer id timer).refed other).card : ℤ)) :
    ({ queue with nextTimerId := next, refedTimers := refs }.setTimer id timer).Kept inside := by
  have entryOf : ∀ other,
      ({ queue with nextTimerId := next, refedTimers := refs }.setTimer id timer).entryOf other =
        queue.entryOf other := by
    intro other
    rw [entryOf_setTimer]
    split
    · next same => rw [same, entry]
    · rfl
  have live : ({ queue with nextTimerId := next, refedTimers := refs }.setTimer id timer).live =
      queue.live := by
    funext other
    unfold TimerQueue.live
    rw [entryOf]
  constructor
  · exact kept.ordered
  · rw [live]
    exact kept.stored
  · exact kept.distinct
  · exact kept.young
  · intro other named
    rw [entryOf]
    exact kept.named other named
  · intro other named
    rw [entryOf]
    exact kept.active other named
  · intro other
    rw [entryOf]
    exact kept.waiting other
  · intro other runs
    obtain ⟨old, known, again⟩ := kept.inner other runs
    rw [timers_setTimer]
    split
    · next same => exact ⟨timer, rfl, (repeats old (same ▸ known)).trans again⟩
    · exact ⟨old, known, again⟩
  · intro other member
    rw [timers_setTimer]
    split
    · exact Option.some_ne_none timer
    · exact kept.known other member
  · intro other after
    rw [timers_setTimer, if_neg (below.trans_le after).ne']
    exact kept.unknown other (later.trans after)
  · intro other known named
    rw [timers_setTimer] at named
    split at named
    · next same =>
        obtain rfl := Option.some.inj named
        intro gone member
        exact cleared gone (same ▸ member)
    · exact kept.cleared other known named
  · intro other known named
    rw [timers_setTimer] at named
    split at named
    · obtain rfl := Option.some.inj named
      exact delayed
    · exact kept.delayed other known named
  · exact counted

/-- The timer loses its entry, and it stays active only inside its own callback. -/
theorem Kept.retire (kept : queue.Kept inside) {old : Timer} (found : queue.timers id = some old)
    (entry : timer.entry = none) (repeats : timer.repeats = old.repeats)
    (delay : timer.delay = old.delay) {heap : List TimerEntry}
    (ordered : Heap.Ordered TimerEntry.rank heap)
    (stored : ∀ other, other.timer ≠ id → queue.live other = true → other ∈ heap)
    (fewer : heap.Subperm queue.timerHeap) {active : Finset Nat} {within : Option Nat}
    (others : ∀ other, other ≠ id → (other ∈ active ↔ other ∈ queue.activeTimers))
    (self : id ∈ active → within = some id ∧ timer.cleared = false)
    (outside : ∀ other, other ≠ id → inside = some other → within = some other)
    (inner : ∀ other, within = some other →
      inside = some other ∨ (other = id ∧ old.repeats = true)) {refs : Int}
    (counted : refs = ((active.filter
      fun other => (queue.setTimer id timer).refed other).card : ℤ)) :
    ({ queue with
      timerHeap := heap
      activeTimers := active
      refedTimers := refs }.setTimer id timer).Kept within := by
  constructor
  · exact ordered
  · intro other alive
    rw [live_iff, entryOf_setTimer] at alive
    split at alive
    · rw [entry] at alive
      contradiction
    · next different => exact stored other different (live_iff.mpr alive)
  · obtain ⟨same, perm, sublist⟩ := fewer
    exact (perm.map _).nodup_iff.mp ((sublist.map _).nodup kept.distinct)
  · exact fun other inHeap => kept.young other (fewer.subset inHeap)
  · intro other named known
    rw [entryOf_setTimer] at known
    split at known
    · rw [entry] at known
      contradiction
    · exact kept.named other named known
  · intro other named known
    rw [entryOf_setTimer] at known
    split at known
    · rw [entry] at known
      contradiction
    · next different => exact (others other different).mpr (kept.active other named known)
  · intro other member
    rw [entryOf_setTimer]
    split
    · next same =>
        subst same
        exact Or.inr (self member).1
    · next different =>
        rcases kept.waiting other ((others other different).mp member) with waits | runs
        · exact Or.inl waits
        · exact Or.inr (outside other different runs)
  · intro other runs
    rw [timers_setTimer]
    split
    · next same =>
        rcases inner other runs with before | ⟨-, again⟩
        · obtain ⟨known, stored, again⟩ := kept.inner other before
          rw [same, found] at stored
          obtain rfl := Option.some.inj stored
          exact ⟨timer, rfl, repeats.trans again⟩
        · exact ⟨timer, rfl, repeats.trans again⟩
    · next different =>
        rcases inner other runs with before | ⟨same, -⟩
        · exact kept.inner other before
        · exact absurd same different
  · intro other member
    rw [timers_setTimer]
    split
    · exact Option.some_ne_none timer
    · next different => exact kept.known other ((others other different).mp member)
  · intro other later
    have unknown := kept.unknown other later
    rw [timers_setTimer, if_neg]
    · exact unknown
    · intro same
      rw [same, found] at unknown
      contradiction
  · intro other known named cleared
    rw [timers_setTimer] at named
    split at named
    · next same =>
        subst same
        obtain rfl := Option.some.inj named
        intro member
        rw [(self member).2] at cleared
        contradiction
    · next different =>
        intro member
        exact kept.cleared other known named cleared ((others other different).mp member)
  · intro other known named
    rw [timers_setTimer] at named
    split at named
    · obtain rfl := Option.some.inj named
      rw [delay]
      exact kept.delayed id old found
    · exact kept.delayed other known named
  · exact counted

/-- A timer that is no longer active is no longer counted. -/
theorem refs_erase {old : Timer} (timer : Timer) (found : queue.timers id = some old)
    (active : id ∈ queue.activeTimers)
    (refs : queue.refedTimers = ((queue.activeTimers.filter fun id => queue.refed id).card : ℤ)) :
    (queue.refedTimers - if old.ref then 1 else 0) =
      (((queue.activeTimers.erase id).filter
        fun other => (queue.setTimer id timer).refed other).card : ℤ) := by
  have same : ((queue.activeTimers.erase id).filter
      fun other => (queue.setTimer id timer).refed other) =
        (queue.activeTimers.filter fun other => queue.refed other).erase id := by
    rw [← Finset.filter_erase]
    apply Finset.filter_congr
    intro other member
    rw [refed_setTimer, if_neg (Finset.ne_of_mem_erase member)]
  rw [same, refs]
  cases counted : old.ref
  · rw [Finset.erase_eq_of_notMem]
    · simp
    · intro member
      have := (Finset.mem_filter.mp member).2
      rw [refed_of_timers found, counted] at this
      contradiction
  · have member : id ∈ queue.activeTimers.filter fun other => queue.refed other := by
      rw [Finset.mem_filter, refed_of_timers found]
      exact ⟨active, counted⟩
    have positive := Finset.card_pos.mpr ⟨id, member⟩
    rw [Finset.card_erase_of_mem member, if_pos rfl, Nat.cast_sub positive, Nat.cast_one]

theorem unschedule_of_active {old : Timer} (found : queue.timers id = some old)
    (active : id ∈ queue.activeTimers) :
    queue.unschedule id =
      { queue with
        activeTimers := queue.activeTimers.erase id
        refedTimers := queue.refedTimers - if old.ref then 1 else 0 }.setTimer id
          { old with entry := none } := by
  unfold unschedule
  rw [found]
  exact if_pos active

theorem unschedule_of_not_active (idle : id ∉ queue.activeTimers) :
    queue.unschedule id = queue := by
  unfold unschedule
  split
  · rfl
  · exact if_neg idle

/-- A timer that is not active is not counted. -/
theorem refs_setTimer_of_not_active (idle : id ∉ queue.activeTimers) (timer : Timer)
    (refs : queue.refedTimers = ((queue.activeTimers.filter fun id => queue.refed id).card : ℤ)) :
    queue.refedTimers = ((queue.activeTimers.filter
      fun other => (queue.setTimer id timer).refed other).card : ℤ) := by
  rw [refs]
  congr 2
  apply Finset.filter_congr
  intro other member
  rw [refed_setTimer, if_neg]
  intro same
  exact idle (same ▸ member)

/-- A timer that stays referenced as it was is counted as before. -/
theorem refs_setTimer_same {old : Timer} (found : queue.timers id = some old)
    (same : timer.ref = old.ref)
    (refs : queue.refedTimers = ((queue.activeTimers.filter fun id => queue.refed id).card : ℤ)) :
    queue.refedTimers = ((queue.activeTimers.filter
      fun other => (queue.setTimer id timer).refed other).card : ℤ) := by
  rw [refs]
  congr 2
  apply Finset.filter_congr
  intro other member
  rw [refed_setTimer]
  split
  · next here => rw [here, refed_of_timers found, same]
  · rfl

theorem refs_setTimerRef {old : Timer} (found : queue.timers id = some old) (ref : Bool)
    (refs : queue.refedTimers = ((queue.activeTimers.filter fun id => queue.refed id).card : ℤ)) :
    (if old.ref ≠ ref ∧ id ∈ queue.activeTimers then
      queue.refedTimers + if ref then 1 else -1 else queue.refedTimers) =
      ((queue.activeTimers.filter
        fun other => (queue.setTimer id { old with ref }).refed other).card : ℤ) := by
  by_cases active : id ∈ queue.activeTimers
  · have erased := refs_erase { old with ref } found active refs
    have fresh : id ∉ (queue.activeTimers.erase id).filter
        fun other => (queue.setTimer id { old with ref }).refed other :=
      fun member => Finset.notMem_erase id _ (Finset.mem_filter.mp member).1
    rw [← Finset.insert_erase active, Finset.filter_insert, refed_setTimer, if_pos rfl,
      Finset.insert_erase active]
    generalize ((queue.activeTimers.erase id).filter
      fun other => (queue.setTimer id { old with ref }).refed other) = others at erased fresh ⊢
    have one := Finset.card_insert_of_notMem fresh
    cases before : old.ref
    all_goals
      cases ref
      all_goals
        simp only [before, active, if_true, if_false, ne_eq, not_true, not_false_eq_true,
          and_true, and_self, reduceCtorEq, Bool.false_eq_true] at erased ⊢
        omega
  · rw [if_neg (fun both => active both.2)]
    exact refs_setTimer_of_not_active active { old with ref } refs

theorem Kept.setTimerRef (kept : queue.Kept inside) (id : Nat) (ref : Bool) :
    (queue.setTimerRef id ref).Kept inside := by
  unfold TimerQueue.setTimerRef
  split
  · exact kept
  · next timer found =>
      refine kept.revise ?_ ?_ ?_ le_rfl (kept.lt_nextTimerId found) ?_ ?_
      · exact (entryOf_of_timers found).symm
      · intro old known
        rw [← Option.some.inj (found.symm.trans known)]
      · exact kept.delayed id timer found
      · exact kept.cleared id timer found
      · exact refs_setTimerRef found ref kept.refs

theorem one_le_coerceDelay (delay : Option ℚ) : 1 ≤ coerceDelay delay := by
  unfold coerceDelay
  split
  · split
    · next allowed => exact allowed.1
    · exact le_rfl
  · exact le_rfl

/-- A timer that has just been made is not active yet. -/
theorem Kept.make (kept : queue.Kept inside) (delay : Option ℚ) (repeats : Bool) :
    ({ queue with nextTimerId := queue.nextTimerId + 1 }.setTimer queue.nextTimerId
      { delay := coerceDelay delay, repeats, ref := true, cleared := false, entry := none }).Kept
      inside := by
  have none : queue.timers queue.nextTimerId = none := kept.unknown _ le_rfl
  have idle : queue.nextTimerId ∉ queue.activeTimers := fun member => kept.known _ member none
  refine kept.revise ?_ ?_ ?_ (Nat.le_succ _) (Nat.lt_succ_self _) ?_ ?_
  · unfold entryOf
    rw [none]
    rfl
  · exact fun old known => absurd (none.symm.trans known) (Option.some_ne_none old).symm
  · exact one_le_coerceDelay delay
  · exact fun _ => idle
  · exact refs_setTimer_of_not_active idle _ kept.refs

theorem Kept.startTimer (kept : queue.Kept inside) (callable : Bool) (delay : Option ℚ)
    (repeats : Bool) (clock : ℚ) :
    (queue.startTimer callable delay repeats clock).2.Kept inside := by
  unfold TimerQueue.startTimer
  dsimp only
  split
  · exact (kept.make delay repeats).schedule (timers_setTimer_self _ _ _) rfl clock
  · exact
      { kept with unknown := fun id later => kept.unknown id ((Nat.le_succ _).trans later) }

theorem Kept.refresh (kept : queue.Kept inside) (id : Nat) (clock : ℚ) :
    (queue.refresh id clock).Kept inside := by
  unfold TimerQueue.refresh
  split
  · exact kept
  · next timer found =>
      split
      · exact kept
      · next uncleared => exact kept.schedule found (Bool.not_eq_true _ ▸ uncleared) clock

/-- Clearing a timer is unscheduling it for good. -/
theorem setTimer_unschedule {old : Timer} (active : id ∈ queue.activeTimers) :
    (queue.setTimer id { old with cleared := true }).unschedule id =
      { queue with
        activeTimers := queue.activeTimers.erase id
        refedTimers := queue.refedTimers - if old.ref then 1 else 0 }.setTimer id
          { old with cleared := true, entry := none } := by
  rw [unschedule_of_active (timers_setTimer_self _ _ _) active]
  unfold setTimer
  simp only [Function.update_idem]

theorem Kept.clearTimer (kept : queue.Kept inside) (handle : TimerHandle) :
    (queue.clearTimer handle).Kept inside := by
  unfold TimerQueue.clearTimer
  split
  · exact kept
  · next id named =>
      split
      · exact kept
      · next timer found =>
          by_cases active : id ∈ queue.activeTimers
          · rw [setTimer_unschedule active]
            refine kept.retire found ?_ ?_ ?_ kept.ordered ?_ (List.Subperm.refl _) ?_ ?_ ?_ ?_ ?_
            · rfl
            · rfl
            · rfl
            · exact fun other _ alive => kept.stored other alive
            · intro other different
              rw [Finset.mem_erase]
              exact ⟨And.right, fun member => ⟨different, member⟩⟩
            · exact fun member => absurd member (Finset.notMem_erase id _)
            · exact fun other _ runs => runs
            · exact fun other runs => Or.inl runs
            · exact refs_erase _ found active kept.refs
          · rw [unschedule_of_not_active (by exact active)]
            refine kept.revise ?_ ?_ ?_ le_rfl (kept.lt_nextTimerId found) ?_ ?_
            · exact (entryOf_of_timers found).symm
            · intro old known
              rw [← Option.some.inj (found.symm.trans known)]
            · exact kept.delayed id timer found
            · exact fun _ => active
            · exact refs_setTimer_of_not_active active _ kept.refs

/-- The entry that fires is at the root of the settled heap. -/
theorem nextTimer_heap {entry : TimerEntry} (head : queue.nextTimer.1 = some entry) :
    ∃ rest, queue.nextTimer.2.timerHeap = entry :: rest :=
  List.head?_eq_some_iff.mp head

/-- Only an interval keeps running inside its callback. -/
def insideOf (queue : TimerQueue) (id : Nat) : Option Nat :=
  (queue.timers id).bind fun timer => if timer.repeats then some id else none

theorem Kept.fire (kept : queue.Kept none) {entry : TimerEntry}
    (head : queue.nextTimer.1 = some entry) :
    (queue.nextTimer.2.fire entry).Kept (queue.insideOf entry.timer) := by
  have timers : queue.insideOf entry.timer = queue.nextTimer.2.insideOf entry.timer := rfl
  rw [timers]
  have next := kept.afterNext
  have alive : queue.nextTimer.2.live entry = true := ((kept.nextTimer entry).mp head).live
  obtain ⟨rest, root⟩ := nextTimer_heap head
  generalize queue.nextTimer.2 = settled at *
  have popped := Heap.pop_perm_rest precedes entry rest
  rw [← root] at popped
  have fewer : (Heap.pop precedes settled.timerHeap).Subperm settled.timerHeap := by
    refine popped.subperm.trans ?_
    rw [root]
    exact (List.sublist_cons_self entry rest).subperm
  have stored : ∀ other, other.timer ≠ entry.timer → settled.live other = true →
      other ∈ Heap.pop precedes settled.timerHeap := by
    intro other different alive
    rw [popped.mem_iff]
    have inHeap := next.stored other alive
    rw [root] at inHeap
    rcases List.mem_cons.mp inHeap with rfl | inRest
    · exact absurd rfl different
    · exact inRest
  have ordered := Heap.ordered_pop precedes precedes_iff next.ordered
  unfold TimerQueue.fire
  cases found : settled.timers entry.timer with
  | none =>
      rw [live_iff, entryOf, found] at alive
      contradiction
  | some timer =>
      have active : entry.timer ∈ settled.activeTimers :=
        next.active entry.timer entry (live_iff.mp alive)
      have uncleared := next.uncleared found active
      have same : settled.heapPop.timers entry.timer = some timer := found
      simp only [same, insideOf, found, Option.bind_some]
      split
      · next again =>
          refine next.retire found ?_ ?_ ?_ ordered stored fewer ?_ ?_ ?_ ?_ ?_
          · rfl
          · rfl
          · rfl
          · exact fun other _ => Iff.rfl
          · exact fun _ => ⟨rfl, uncleared⟩
          · exact fun other _ runs => absurd runs (by simp)
          · exact fun other runs => Or.inr ⟨(Option.some.inj runs).symm, again⟩
          · exact refs_setTimer_same found rfl next.refs
      · rw [unschedule_of_active same active]
        refine next.retire found ?_ ?_ ?_ ordered stored fewer ?_ ?_ ?_ ?_ ?_
        · rfl
        · rfl
        · rfl
        · intro other different
          show other ∈ settled.activeTimers.erase entry.timer ↔ _
          rw [Finset.mem_erase]
          exact ⟨And.right, fun member => ⟨different, member⟩⟩
        · exact fun member => absurd member (Finset.notMem_erase entry.timer _)
        · exact fun other _ runs => absurd runs (by simp)
        · exact fun other runs => Or.inl runs
        · exact refs_erase _ found active next.refs

/-- Once its callback has returned, an active interval has an entry again. -/
theorem Kept.repeatTimer (kept : queue.Kept inside)
    (only : ∀ other, inside = some other → other = id) (turnStarted : ℚ) :
    (queue.repeatTimer id turnStarted).Kept none := by
  have leave : ∀ {left : TimerQueue}, left.Kept inside →
      (id ∈ left.activeTimers → inside = some id → left.entryOf id ≠ none) → left.Kept none := by
    intro left kept waits
    refine { kept with waiting := ?_, inner := fun other runs => absurd runs (by simp) }
    intro other member
    rcases kept.waiting other member with entry | runs
    · exact Or.inl entry
    · obtain rfl := only other runs
      exact Or.inl (waits member runs)
  unfold TimerQueue.repeatTimer
  split
  · next none =>
      apply leave kept
      exact fun member _ => absurd none (kept.known id member)
  · next timer found =>
      split
      · next again =>
          apply leave (kept.schedule found (kept.uncleared found again.2.2) turnStarted)
          intro _ _
          rw [entryOf_schedule found]
          simp
      · next still =>
          apply leave kept
          intro member runs none
          obtain ⟨other, known, again⟩ := kept.inner id runs
          obtain rfl := Option.some.inj (found.symm.trans known)
          exact still ⟨again, (entryOf_of_timers found).symm.trans none, member⟩

end Keeping

end TimerQueue

end TinySandbox.Js
