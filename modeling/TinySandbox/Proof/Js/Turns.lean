/-
This file shows which callbacks a turn of the event loop runs, and in which order.
-/

import TinySandbox.Proof.Js.EventLoop

namespace TinySandbox.Js

namespace TimerQueue
variable {queue : TimerQueue} {entry : TimerEntry} {id : Nat} {timer : Timer}

/-- A timer that fires loses its entry, and nothing else changes. -/
theorem timers_fire (kept : queue.Kept none) (next : queue.Next entry) :
    ∃ timer, queue.timers entry.timer = some timer ∧ ∀ id,
      (queue.nextTimer.2.fire entry).timers id =
        if id = entry.timer then some { timer with entry := none } else queue.timers id := by
  have named := live_iff.mp next.live
  have active := kept.active entry.timer entry named
  obtain ⟨timer, found, -⟩ := Option.bind_eq_some_iff.mp named
  refine ⟨timer, found, ?_⟩
  intro id
  have same : queue.nextTimer.2.heapPop.timers entry.timer = some timer := found
  unfold TimerQueue.fire
  simp only [same]
  split
  · exact timers_setTimer _ _ _ id
  · rw [unschedule_of_active same active]
    exact timers_setTimer _ _ _ id

theorem entryOf_fire (kept : queue.Kept none) (next : queue.Next entry) (id : Nat) :
    (queue.nextTimer.2.fire entry).entryOf id =
      if id = entry.timer then none else queue.entryOf id := by
  obtain ⟨timer, -, timers⟩ := timers_fire kept next
  unfold entryOf
  rw [timers]
  split
  · rfl
  · rfl

theorem live_fire (kept : queue.Kept none) (next : queue.Next entry) {other : TimerEntry} :
    (queue.nextTimer.2.fire entry).live other = true ↔
      queue.live other = true ∧ other.timer ≠ entry.timer := by
  rw [live_iff, live_iff, entryOf_fire kept next]
  split
  · next same => simp [same]
  · next different => simp [different]

/-- The timer that fires was not withdrawn. -/
theorem Kept.withdrawn_fire (kept : queue.Kept none) (next : queue.Next entry) {now : ℚ}
    (due : entry.due ≤ now) {other : TimerEntry} (withdrawn : Withdrawn queue now other) :
    Withdrawn (queue.nextTimer.2.fire entry) now other := by
  obtain ⟨timer, found, either⟩ := withdrawn
  obtain ⟨own, known, timers⟩ := timers_fire kept next
  have named := live_iff.mp next.live
  refine ⟨timer, ?_, either⟩
  rw [timers, if_neg, found]
  intro same
  obtain rfl := Option.some.inj (known.symm.trans (same ▸ found))
  rcases either with cleared | ⟨later, stored, after⟩
  · exact kept.cleared entry.timer own known cleared (kept.active entry.timer entry named)
  · rw [entryOf_of_timers known, stored] at named
    obtain rfl := Option.some.inj named
    exact absurd due (not_le.mpr after)

/-- Whatever happened to an entry that was live, it is live, or its timer was cleared, or its timer
is due later. -/
theorem Moves.live_or_withdrawn {after : TimerQueue} {start now : ℚ}
    (moves : queue.Moves start after) (delayed : ∀ id timer, after.timers id = some timer →
      1 ≤ timer.delay) (late : now ≤ start) (alive : queue.live entry = true) :
    after.live entry = true ∨ Withdrawn after now entry := by
  rcases moves.entries entry.timer with same | ⟨timer, found, gone | new⟩
  · rw [live_iff] at alive ⊢
    exact Or.inl (same.trans alive)
  · exact Or.inr ⟨timer, found, Or.inl gone.2⟩
  · obtain ⟨seq, named⟩ := new
    rw [entryOf_of_timers found] at named
    have := delayed entry.timer timer found
    exact Or.inr ⟨timer, found, Or.inr ⟨_, named, by show now < start + timer.delay; linarith⟩⟩

theorem Moves.withdrawn {after : TimerQueue} {start now : ℚ}
    (moves : queue.Moves start after) (delayed : ∀ id timer, after.timers id = some timer →
      1 ≤ timer.delay) (late : now ≤ start) (withdrawn : Withdrawn queue now entry) :
    Withdrawn after now entry := by
  obtain ⟨timer, found, either⟩ := withdrawn
  obtain ⟨last, known, delay, stays⟩ := moves.timers entry.timer timer found
  refine ⟨last, known, ?_⟩
  rcases either with cleared | ⟨later, named, due⟩
  · exact Or.inl (stays cleared)
  · rcases moves.entries entry.timer with same | ⟨timer, again, gone | new⟩
    · rw [entryOf_of_timers known, entryOf_of_timers found, named] at same
      exact Or.inr ⟨later, same, due⟩
    · obtain rfl := Option.some.inj (known.symm.trans again)
      exact Or.inl gone.2
    · obtain rfl := Option.some.inj (known.symm.trans again)
      obtain ⟨seq, named⟩ := new
      rw [entryOf_of_timers known] at named
      have := delayed entry.timer last known
      exact Or.inr ⟨_, named, by show now < start + last.delay; linarith⟩

/-- An entry that is live and due by now was live before. -/
theorem Moves.live_before {after : TimerQueue} {start now : ℚ}
    (moves : queue.Moves start after) (delayed : ∀ id timer, after.timers id = some timer →
      1 ≤ timer.delay) (late : now ≤ start) (alive : after.live entry = true)
    (due : entry.due ≤ now) : queue.live entry = true := by
  rw [live_iff] at alive ⊢
  rcases moves.entries entry.timer with same | ⟨timer, found, gone | new⟩
  · rw [← same, alive]
  · rw [gone.1] at alive
    contradiction
  · obtain ⟨seq, named⟩ := new
    rw [named] at alive
    have delay := delayed entry.timer timer found
    have same : start + timer.delay = entry.due :=
      congrArg TimerEntry.due (Option.some.inj alive)
    linarith

section Sizes
variable {inside : Option Nat}

/-- The heap has not grown, or it is bounded by the active timers. -/
def Bounded (before after : TimerQueue) : Prop :=
  after.timerHeap.length ≤ max before.timerHeap.length (max 64 (2 * after.activeTimers.card))

end Sizes

end TimerQueue

namespace EventLoop
variable {start middle loop after : EventLoop} {fired : List TimerEntry}

theorem Reachable.kept (reachable : loop.Reachable) : loop.Kept := by
  induction reachable with
  | refl => exact Kept.new
  | tail _ step ih => exact (ih.step step).1

theorem Kept.delayed (kept : loop.Kept) (id : Nat) (timer : Timer)
    (found : loop.queue.timers.timers id = some timer) : 1 ≤ timer.delay := by
  obtain ⟨inside, timers, -⟩ := kept.timers
  exact timers.delayed id timer found

/-- The guest has started one timer of five milliseconds, and this time has passed since. -/
def started (repeats : Bool) (elapsed : ℚ) : EventLoop :=
  let queue := (TimerCall.startTimer true (some 5) repeats).run .new
  { EventLoop.new with queue := { queue with clock := queue.clock + elapsed } }

theorem started_reachable (repeats : Bool) {elapsed : ℚ} (forward : 0 ≤ elapsed) :
    (started repeats elapsed).Reachable :=
  (Relation.ReflTransGen.single (.calls (.startTimer true (some 5) repeats) rfl)).tail
    (.passes elapsed forward)

/-- The guest has made one immediate. -/
def queuedOne : EventLoop :=
  { EventLoop.new with queue := (TimerCall.setImmediate true).run .new }

/-- This holds throughout the turn that began in the first loop. -/
structure Turn (start loop : EventLoop) (fired : List TimerEntry) : Prop where
  kept : loop.Kept
  began : loop.queue.turnStarted = start.queue.clock
  log : loop.fired = start.fired ++ fired.map fun entry => (entry, start.queue.clock)
  sorted : fired.Pairwise fun first second => first.rank < second.rank
  due : ∀ entry ∈ fired, start.queue.timers.live entry = true ∧ entry.due ≤ start.queue.clock
  left : ∀ entry, loop.queue.timers.live entry = true → entry.due ≤ start.queue.clock →
    start.queue.timers.live entry = true ∧ ∀ earlier ∈ fired, earlier.rank < entry.rank
  all : ∀ entry, start.queue.timers.live entry = true → entry.due ≤ start.queue.clock →
    entry ∈ fired ∨ loop.queue.timers.live entry = true ∨
      Withdrawn loop.queue.timers start.queue.clock entry
  past : loop.queue.timersPhase = false → ∀ entry, loop.queue.timers.live entry = true →
    start.queue.clock < entry.due

theorem Turn.begin (kept : start.Kept) (running : start.phase = .running) :
    Turn start start.begin [] where
  kept := (kept.step (.begins running)).1
  began := rfl
  log := (List.append_nil _).symm
  sorted := List.Pairwise.nil
  due := fun _ member => absurd member List.not_mem_nil
  left := fun _ alive _ => ⟨alive, fun _ member => absurd member List.not_mem_nil⟩
  all := fun _ alive _ => Or.inr (Or.inl alive)
  past := fun off => absurd off.symm Bool.false_ne_true

theorem Turn.step (turn : Turn start loop fired) (step : TurnStep loop after) :
    ∃ more, Turn start after (fired ++ more) := by
  obtain ⟨inside, step⟩ := step
  obtain ⟨kept, happens⟩ := turn.kept.step step
  cases happens with
  | moves now late moves log same past =>
      rw [turn.began] at late past
      refine ⟨[], ?_⟩
      rw [List.append_nil]
      constructor
      · exact kept
      · exact (same inside).trans turn.began
      · exact log.trans turn.log
      · exact turn.sorted
      · exact turn.due
      · intro entry alive due
        exact turn.left entry (moves.live_before kept.delayed late alive due) due
      · intro entry alive due
        rcases turn.all entry alive due with done | waits | withdrawn
        · exact Or.inl done
        · exact Or.inr (moves.live_or_withdrawn kept.delayed late waits)
        · exact Or.inr (Or.inr (moves.withdrawn kept.delayed late withdrawn))
      · intro off entry alive
        rw [← not_le]
        intro due
        have before := moves.live_before kept.delayed late alive due
        cases on : loop.queue.timersPhase with
        | false => exact absurd due (not_le.mpr (turn.past on entry before))
        | true => exact absurd due (not_le.mpr (past off on entry before))
  | fires entry outside on next due timers log same still =>
      rw [turn.began] at due log
      refine ⟨[entry], ?_⟩
      constructor
      · exact kept
      · exact same.trans turn.began
      · rw [log, turn.log, List.map_append, List.append_assoc]
        rfl
      · rw [List.pairwise_append]
        refine ⟨turn.sorted, List.pairwise_singleton _ _, ?_⟩
        intro earlier member last new
        obtain rfl := List.mem_singleton.mp new
        exact (turn.left last next.live due).2 earlier member
      · intro other member
        rcases List.mem_append.mp member with old | new
        · exact turn.due other old
        · obtain rfl := List.mem_singleton.mp new
          exact ⟨(turn.left other next.live due).1, due⟩
      · intro other alive soon
        rw [timers, TimerQueue.live_fire outside next] at alive
        obtain ⟨began, later⟩ := turn.left other alive.1 soon
        refine ⟨began, ?_⟩
        intro earlier member
        rcases List.mem_append.mp member with old | new
        · exact later earlier old
        · obtain rfl := List.mem_singleton.mp new
          refine lt_of_le_of_ne (next.least other alive.1) ?_
          intro equal
          exact alive.2 (congrArg TimerEntry.timer
            (outside.eq_of_rank next.live alive.1 equal)).symm
      · intro other alive soon
        rcases turn.all other alive soon with done | waits | withdrawn
        · exact Or.inl (List.mem_append_left _ done)
        · by_cases here : other.timer = entry.timer
          · have same := TimerQueue.live_unique waits next.live here
            exact Or.inl (List.mem_append_right _ (List.mem_singleton.mpr same))
          · rw [timers, TimerQueue.live_fire outside next]
            exact Or.inr (Or.inl ⟨waits, here⟩)
        · exact Or.inr (Or.inr (timers ▸ outside.withdrawn_fire next due withdrawn))
      · intro off
        rw [still] at off
        contradiction

/-- Every live entry belongs to an active timer of its own. -/
theorem Kept.active_of_live (kept : loop.Kept) {entry : TimerEntry}
    (alive : loop.queue.timers.live entry = true) :
    entry.timer ∈ loop.queue.timers.activeTimers := by
  obtain ⟨inside, timers, -⟩ := kept.timers
  exact timers.active entry.timer entry (TimerQueue.live_iff.mp alive)

theorem Turn.length_fired (kept : start.Kept) (turn : Turn start loop fired) :
    fired.length ≤ start.queue.timers.activeTimers.card := by
  have timers : (fired.map TimerEntry.timer).Nodup := by
    rw [List.nodup_map_iff_inj_on (turn.sorted.imp fun less same => less.ne (congrArg _ same))]
    intro first inFirst second inSecond same
    exact TimerQueue.live_unique (turn.due first inFirst).1 (turn.due second inSecond).1 same
  have subset : (fired.map TimerEntry.timer).toFinset ⊆ start.queue.timers.activeTimers := by
    intro id member
    obtain ⟨entry, inFired, rfl⟩ := List.mem_map.mp (List.mem_toFinset.mp member)
    exact kept.active_of_live (turn.due entry inFired).1
  rw [← List.length_map TimerEntry.timer, ← List.toFinset_card_of_nodup timers]
  exact Finset.card_le_card subset

theorem Turn.run (turn : Turn start middle fired) (run : TurnRun middle loop) :
    ∃ more, Turn start loop (fired ++ more) := by
  induction run with
  | refl => exact ⟨[], (List.append_nil fired).symm ▸ turn⟩
  | tail _ step ih =>
      obtain ⟨more, turn⟩ := ih
      obtain ⟨last, turn⟩ := turn.step step
      exact ⟨more ++ last, List.append_assoc fired more last ▸ turn⟩

/-- A turn fires the timers that were due when it began, in the order of their times and then of
their starts. Whatever callbacks do, no other timer fires, and none is left out except one that a
callback cleared or refreshed first. -/
theorem turn_fires (reachable : start.Reachable) (running : start.phase = .running)
    (run : TurnRun start.begin loop) :
    ∃ fired : List TimerEntry,
      loop.fired = start.fired ++ fired.map (fun entry => (entry, start.queue.clock)) ∧
      fired.Pairwise (fun first second => first.rank < second.rank) ∧
      (∀ entry ∈ fired,
        start.queue.timers.live entry = true ∧ entry.due ≤ start.queue.clock) ∧
      fired.length ≤ start.queue.timers.activeTimers.card ∧
      (loop.phase = .running → ∀ entry, start.queue.timers.live entry = true →
        entry.due ≤ start.queue.clock →
          entry ∈ fired ∨ Withdrawn loop.queue.timers start.queue.clock entry) := by
  obtain ⟨fired, turn⟩ := (Turn.begin reachable.kept running).run run
  rw [List.nil_append] at turn
  refine ⟨fired, turn.log, turn.sorted, turn.due, ?_, ?_⟩
  · exact turn.length_fired reachable.kept
  · intro ended entry alive due
    rcases turn.all entry alive due with done | waits | withdrawn
    · exact Or.inl done
    · exact absurd due (not_le.mpr (turn.past (turn.kept.closed ended) entry waits))
    · exact Or.inr withdrawn

/-- A timeout of five milliseconds is due when a turn begins after ten. -/
theorem turn_fires_timeout : ∃ fired : List TimerEntry,
    (started false 10).begin.run.fired =
      (started false 10).fired ++ fired.map (fun entry => (entry, (started false 10).queue.clock)) ∧
    fired.Pairwise (fun first second => first.rank < second.rank) := by
  have forward : (0 : ℚ) ≤ 10 := by norm_num
  obtain ⟨fired, log, sorted, -⟩ := turn_fires
    (started_reachable false forward) rfl (.single ⟨LoopPhase.noConfusion, .runs rfl⟩)
  exact ⟨fired, log, sorted⟩

/-- This holds of the timers that have fired, in every run. -/
structure Spaced (loop : EventLoop) : Prop where
  known : ∀ fired ∈ loop.fired, loop.queue.timers.timers fired.1.timer ≠ none
  past : loop.fired.Pairwise fun earlier later => earlier.1.timer = later.1.timer →
    ∀ timer, loop.queue.timers.timers earlier.1.timer = some timer →
      earlier.2 + timer.delay ≤ later.2
  next : ∀ fired ∈ loop.fired, ∀ timer, loop.queue.timers.timers fired.1.timer = some timer →
    ∀ entry, timer.entry = some entry → fired.2 + timer.delay ≤ entry.due

theorem Spaced.step (kept : loop.Kept) (spaced : loop.Spaced) (step : LoopStep loop after) :
    after.Spaced := by
  obtain ⟨keeps, happens⟩ := kept.step step
  cases happens with
  | moves start late moves log same past =>
      -- A timer that was known keeps its delay, so that the old distances are still right.
      have old : ∀ fired ∈ loop.fired, ∀ timer,
          after.queue.timers.timers fired.1.timer = some timer →
          ∃ before, loop.queue.timers.timers fired.1.timer = some before ∧
            timer.delay = before.delay := by
        intro fired member timer found
        obtain ⟨before, known⟩ := Option.ne_none_iff_exists'.mp (spaced.known fired member)
        obtain ⟨later, again, delay, -⟩ := moves.timers _ before known
        obtain rfl := Option.some.inj (found.symm.trans again)
        exact ⟨before, known, delay⟩
      constructor
      · intro fired member
        rw [log] at member
        obtain ⟨before, known⟩ := Option.ne_none_iff_exists'.mp (spaced.known fired member)
        obtain ⟨later, again, -⟩ := moves.timers _ before known
        rw [again]
        exact Option.some_ne_none later
      · rw [log]
        refine spaced.past.imp_of_mem ?_
        intro earlier later inFired _ apart same timer found
        obtain ⟨before, known, delay⟩ := old earlier inFired timer found
        rw [delay]
        exact apart same before known
      · intro fired member timer found entry named
        rw [log] at member
        obtain ⟨before, known, delay⟩ := old fired member timer found
        have current := TimerQueue.entryOf_of_timers found
        rcases moves.entries fired.1.timer with same | ⟨other, again, gone | ⟨seq, new⟩⟩
        · rw [current, TimerQueue.entryOf_of_timers known, named] at same
          rw [delay]
          exact spaced.next fired member before known entry same.symm
        · rw [current, named] at gone
          exact absurd gone.1 (Option.some_ne_none entry)
        · obtain rfl := Option.some.inj (found.symm.trans again)
          rw [current, named] at new
          obtain rfl := Option.some.inj new
          have := (kept.dated fired member).2
          show fired.2 + timer.delay ≤ start + timer.delay
          linarith
  | fires entry outside on next due timers log same still =>
      obtain ⟨own, found, fire⟩ := TimerQueue.timers_fire outside next
      rw [← timers] at fire
      have named : own.entry = some entry := by
        rw [← TimerQueue.entryOf_of_timers found]
        exact TimerQueue.live_iff.mp next.live
      have old : ∀ fired ∈ loop.fired, ∀ timer,
          after.queue.timers.timers fired.1.timer = some timer →
          ∃ before, loop.queue.timers.timers fired.1.timer = some before ∧
            timer.delay = before.delay ∧
              ((fired.1.timer = entry.timer ∧ timer.entry = none) ∨ timer = before) := by
        intro fired member timer known
        rw [fire] at known
        split at known
        · next here =>
            obtain rfl := Option.some.inj known
            exact ⟨own, here ▸ found, rfl, Or.inl ⟨here, rfl⟩⟩
        · exact ⟨timer, known, rfl, Or.inr rfl⟩
      constructor
      · intro fired member
        rw [log] at member
        rw [fire]
        split
        · exact Option.some_ne_none _
        · next other =>
            rcases List.mem_append.mp member with before | new
            · exact spaced.known fired before
            · obtain rfl := List.mem_singleton.mp new
              exact absurd rfl other
      · rw [log, List.pairwise_append]
        refine ⟨?_, List.pairwise_singleton _ _, ?_⟩
        · refine spaced.past.imp_of_mem ?_
          intro earlier later inFired _ apart same timer known
          obtain ⟨before, first, delay, -⟩ := old earlier inFired timer known
          rw [delay]
          exact apart same before first
        · intro earlier inFired last new same timer known
          obtain rfl := List.mem_singleton.mp new
          obtain ⟨before, first, delay, -⟩ := old earlier inFired timer known
          obtain rfl := Option.some.inj ((same ▸ first).symm.trans found)
          rw [delay]
          exact (spaced.next earlier inFired before first entry named).trans due
      · intro fired member timer known other stored
        rw [log] at member
        rcases List.mem_append.mp member with before | new
        · obtain ⟨first, here, delay, either⟩ := old fired before timer known
          rcases either with ⟨-, gone⟩ | rfl
          · rw [gone] at stored
            contradiction
          · exact spaced.next fired before timer here other stored
        · obtain rfl := List.mem_singleton.mp new
          rw [fire, if_pos rfl] at known
          obtain rfl := Option.some.inj known
          contradiction

theorem Kept.steps (kept : loop.Kept) (steps : Relation.ReflTransGen LoopStep loop after) :
    after.Kept := by
  induction steps with
  | refl => exact kept
  | tail _ step ih => exact (ih.step step).1

/-- In every run the queues of the loop say what they are kept for. The heap gives the live entry
that is due first, the active timers are those that have one or run as intervals, and the counters
that decide whether the program ends count what they name. -/
theorem queues_agree (reachable : loop.Reachable) :
    loop.phase ≠ .threw ∧
      (∀ entry, loop.queue.timers.nextTimer.1 = some entry ↔ loop.queue.timers.Next entry) ∧
      (∀ id, loop.queue.timers.entryOf id ≠ none → id ∈ loop.queue.timers.activeTimers) ∧
      (∀ id ∈ loop.queue.timers.activeTimers, loop.queue.timers.entryOf id ≠ none ∨
        ∃ entry, loop.phase = .callback (.timer entry) ∧ entry.timer = id) ∧
      loop.queue.timers.refedTimers =
        ((loop.queue.timers.activeTimers.filter fun id => loop.queue.timers.refed id).card : ℤ) ∧
      loop.queue.immediates.queuedImmediates =
        (loop.queue.immediates.made.countP Immediate.queued : ℤ) ∧
      loop.queue.immediates.refedImmediates =
        (loop.queue.immediates.made.countP fun immediate =>
          immediate.queued && immediate.ref : ℤ) := by
  have kept := reachable.kept
  obtain ⟨inside, timers, runs⟩ := kept.timers
  refine ⟨kept.calm, timers.nextTimer, ?_, ?_, timers.refs, kept.immediates.counted,
    kept.immediates.refs⟩
  · intro id entry
    obtain ⟨live, named⟩ := Option.ne_none_iff_exists'.mp entry
    exact timers.active id live named
  · intro id active
    exact (timers.waiting id active).imp_right (runs id)

theorem queues_agree_timeout : (started false 3).phase ≠ .threw ∧
    ∀ entry, (started false 3).queue.timers.nextTimer.1 = some entry ↔
      (started false 3).queue.timers.Next entry := by
  have forward : (0 : ℚ) ≤ 3 := by norm_num
  obtain ⟨calm, next, -⟩ := queues_agree (started_reachable false forward)
  exact ⟨calm, next⟩

section Immediates

theorem grows_call (call : TimerCall) {queue : EventQueue} (kept : queue.immediates.Kept) :
    queue.immediates.Grows (call.run queue).immediates call.dropped := by
  cases call with
  | startTimer callable delay repeats => exact ImmediateQueue.Grows.refl _ _
  | setTimerRef id ref => exact ImmediateQueue.Grows.refl _ _
  | refresh id => exact ImmediateQueue.Grows.refl _ _
  | clearTimer handle => exact ImmediateQueue.Grows.refl _ _
  | setImmediate callable => exact ImmediateQueue.Grows.setImmediate kept callable
  | setImmediateRef number ref => exact ImmediateQueue.Grows.setImmediateRef number ref
  | clearImmediate number => exact ImmediateQueue.Grows.dequeueImmediate number

/-- The guest adds or drops immediates, or the loop runs one, or the loop finds none left. -/
inductive Proceeds (before after : EventLoop) : Prop where
  | grows (dropped : List Nat)
      (grows : before.queue.immediates.Grows after.queue.immediates dropped)
      (log : after.ran = before.ran) (drops : after.dropped = before.dropped ++ dropped)
      (inside : before.phase ≠ .running →
        after.phase ≠ .running ∧ after.queue.timersPhase = before.queue.timersPhase)
  | takes (number : Nat) (takes : before.queue.ready.Takes number after.queue.immediates)
      (log : after.ran = before.ran ++ [number]) (drops : after.dropped = before.dropped)
      (off : after.queue.timersPhase = false) (inside : after.phase ≠ .running)
  | ends (exhausts : before.queue.ready.Exhausts after.queue.immediates)
      (log : after.ran = before.ran) (drops : after.dropped = before.dropped)
      (off : after.queue.timersPhase = false)

theorem Kept.proceeds (kept : loop.Kept) (step : LoopStep loop after) : Proceeds loop after := by
  cases step with
  | calls call guest =>
      refine Proceeds.grows call.dropped (grows_call call kept.immediates) rfl rfl ?_
      exact fun inside => ⟨inside, (call.frame loop.queue).2.2.1⟩
  | passes elapsed forward =>
      exact Proceeds.grows [] (ImmediateQueue.Grows.refl _ _) rfl (List.append_nil _).symm
        fun inside => ⟨inside, rfl⟩
  | asks hostPending running =>
      refine Proceeds.grows [] ?_ rfl (List.append_nil _).symm fun inside => absurd running inside
      rcases timerDelay_cases hostPending loop.queue with same | settled
      · rw [same]
        exact ImmediateQueue.Grows.refl _ _
      · rw [settled]
        exact ImmediateQueue.Grows.refl _ _
  | begins running =>
      refine Proceeds.grows [] ?_ rfl (List.append_nil _).symm fun inside => absurd running inside
      have first := (kept.immediates.begin (kept.idle (Or.inl running))).2
      exact
        { ImmediateQueue.Grows.refl loop.queue.immediates [] with
          first := first
          limit := congrArg (· + loop.queue.immediates.immediateBudget) first }
  | runs turn =>
      have timers := kept.outside turn fun _ => LoopPhase.noConfusion
      have runs := runTimer_runs timers kept.immediates
      generalize found : loop.queue.runTimer = result at runs
      obtain ⟨ran, queue⟩ := result
      unfold EventLoop.run
      rw [found]
      cases runs with
      | fires entry on head due =>
          exact Proceeds.grows [] (ImmediateQueue.Grows.refl _ _) rfl (List.append_nil _).symm
            fun _ => ⟨LoopPhase.noConfusion, rfl⟩
      | takes number timers immediates past either same good taken takes =>
          exact Proceeds.takes number takes rfl rfl rfl LoopPhase.noConfusion
      | ends timers immediates past either same good taken exhausts =>
          exact Proceeds.ends exhausts rfl rfl rfl
  | returns callback inside =>
      refine Proceeds.grows [] ?_ rfl (List.append_nil _).symm fun _ => ⟨LoopPhase.noConfusion, ?_⟩
      · cases callback with
        | timer entry => exact ImmediateQueue.Grows.refl _ _
        | immediate number => exact ImmediateQueue.Grows.refl _ _
      · cases callback with
        | timer entry => rfl
        | immediate number => rfl
  | drains jobs =>
      exact Proceeds.grows [] (ImmediateQueue.Grows.refl _ _) rfl (List.append_nil _).symm
        fun _ => ⟨LoopPhase.noConfusion, rfl⟩

theorem ready_first (queue : EventQueue) : queue.ready.first = queue.immediates.first := by
  unfold EventQueue.ready
  split
  · rfl
  · rfl

theorem ready_queued (queue : EventQueue) : queue.ready.queued = queue.immediates.queued := by
  unfold EventQueue.ready
  split
  · rfl
  · rfl

theorem ready_made (queue : EventQueue) : queue.ready.made = queue.immediates.made := by
  unfold EventQueue.ready
  split
  · rfl
  · rfl

/-- This holds of the immediates in every run. -/
structure InOrder (loop : EventLoop) : Prop where
  sorted : loop.ran.Pairwise fun earlier later => earlier < later
  behind : ∀ number ∈ loop.ran, number < loop.queue.immediates.first
  all : ∀ number, number < loop.queue.immediates.made.length →
    loop.queue.immediates.queued number = true ∨ number ∈ loop.ran ∨ number ∈ loop.dropped

theorem InOrder.step (ordered : loop.InOrder) (proceeds : Proceeds loop after) :
    after.InOrder := by
  cases proceeds with
  | grows dropped grows log drops inside =>
      constructor
      · rw [log]
        exact ordered.sorted
      · rw [log, grows.first]
        exact ordered.behind
      · intro number made
        rw [log, drops, List.mem_append]
        rcases Nat.lt_or_ge number loop.queue.immediates.made.length with old | new
        · rcases ordered.all number old with waits | ran | gone
          · rcases grows.kept number old waits with still | gone
            · exact Or.inl still
            · exact Or.inr (Or.inr (Or.inr gone))
          · exact Or.inr (Or.inl ran)
          · exact Or.inr (Or.inr (Or.inl gone))
        · exact Or.inl (grows.new number new made)
  | takes number takes log drops off inside =>
      have behind := takes.behind
      rw [ready_first] at behind
      constructor
      · rw [log, List.pairwise_append]
        refine ⟨ordered.sorted, List.pairwise_singleton _ _, ?_⟩
        intro earlier ran last same
        obtain rfl := List.mem_singleton.mp same
        exact (ordered.behind earlier ran).trans_le behind
      · intro other ran
        rw [log] at ran
        rw [takes.first]
        rcases List.mem_append.mp ran with old | same
        · have := ordered.behind other old
          omega
        · obtain rfl := List.mem_singleton.mp same
          exact Nat.lt_succ_self other
      · intro other made
        rw [takes.made, ready_made] at made
        rw [takes.others, log, drops, ready_queued, List.mem_append, List.mem_singleton]
        rcases ordered.all other made with waits | ran | gone
        · by_cases same : other = number
          · exact Or.inr (Or.inl (Or.inr same))
          · left
            rw [waits, Bool.true_and]
            exact bne_iff_ne.mpr same
        · exact Or.inr (Or.inl (Or.inl ran))
        · exact Or.inr (Or.inr gone)
  | ends exhausts log drops off =>
      constructor
      · rw [log]
        exact ordered.sorted
      · intro number ran
        rw [log] at ran
        rw [exhausts.first]
        have behind := ordered.behind number ran
        rw [← ready_first] at behind
        exact behind.trans_le (Nat.le_add_right _ _)
      · intro number made
        rw [exhausts.made, ready_made] at made
        rw [exhausts.others, log, drops, ready_queued]
        exact ordered.all number made

theorem Reachable.inOrder (reachable : loop.Reachable) : loop.InOrder := by
  induction reachable with
  | refl =>
      constructor
      · exact List.Pairwise.nil
      · exact fun number ran => absurd ran List.not_mem_nil
      · exact fun number made => absurd made (Nat.not_lt_zero number)
  | tail before step ih => exact ih.step ((Reachable.kept before).proceeds step)

/-- The immediates below the limit may run in this turn. -/
structure Admits (start loop : EventLoop) : Prop where
  kept : loop.Kept
  least : start.queue.immediates.made.length ≤ loop.queue.ready.limit
  most : loop.queue.ready.limit ≤ loop.queue.immediates.made.length
  ended : loop.phase = .running → ∀ number, number < loop.queue.ready.limit →
    loop.queue.immediates.queued number = false

theorem ready_limit_of_on {queue : EventQueue} (kept : queue.immediates.Kept)
    (on : queue.timersPhase = true) : queue.ready.limit = queue.immediates.made.length := by
  unfold EventQueue.ready
  rw [if_pos on]
  exact kept.budget.2.2

theorem ready_of_off {queue : EventQueue} (off : queue.timersPhase = false) :
    queue.ready = queue.immediates := by
  unfold EventQueue.ready
  rw [if_neg (Bool.eq_false_iff.mp off)]

theorem Admits.step (admits : Admits start loop) (step : TurnStep loop after) :
    Admits start after := by
  obtain ⟨inside, step⟩ := step
  have kept := (admits.kept.step step).1
  cases admits.kept.proceeds step with
  | grows dropped grows log drops still =>
      obtain ⟨inner, same⟩ := still inside
      have longer := grows.longer
      have least := admits.least
      have most := admits.most
      cases on : loop.queue.timersPhase with
      | true =>
          rw [ready_limit_of_on admits.kept.immediates on] at least
          have limit := ready_limit_of_on kept.immediates (same.trans on)
          exact ⟨kept, by omega, by omega, fun ends => absurd ends inner⟩
      | false =>
          rw [ready_of_off on] at least most
          have limit := grows.limit
          rw [← ready_of_off (same.trans on)] at limit
          exact ⟨kept, by omega, by omega, fun ends => absurd ends inner⟩
  | takes number takes log drops off inner =>
      have limit := takes.limit
      rw [← ready_of_off off] at limit
      refine ⟨kept, limit ▸ admits.least, ?_, fun ends => absurd ends inner⟩
      rw [limit, takes.made, ready_made]
      exact admits.most
  | ends exhausts log drops off =>
      have limit := exhausts.limit
      rw [← ready_of_off off] at limit
      refine ⟨kept, limit ▸ admits.least, ?_, ?_⟩
      · rw [limit, exhausts.made, ready_made]
        exact admits.most
      · intro _ number below
        rw [limit] at below
        rw [exhausts.others]
        exact exhausts.idle number below

/-- Once the timers of a turn are done, only immediates below the limit run. -/
theorem Admits.ran_step (admits : Admits start loop) (off : loop.queue.timersPhase = false)
    (step : TurnStep loop after) :
    after.queue.timersPhase = false ∧ after.queue.ready.limit = loop.queue.ready.limit ∧
      ∃ ran, after.ran = loop.ran ++ ran ∧ ∀ number ∈ ran, number < loop.queue.ready.limit := by
  obtain ⟨inside, step⟩ := step
  cases admits.kept.proceeds step with
  | grows dropped grows log drops still =>
      have same := (still inside).2.trans off
      refine ⟨same, ?_, [], ?_, fun number none => absurd none List.not_mem_nil⟩
      · rw [ready_of_off same, ready_of_off off]
        exact grows.limit
      · rw [log, List.append_nil]
  | takes number takes log drops off inner =>
      refine ⟨off, ?_, [number], log, ?_⟩
      · rw [ready_of_off off]
        exact takes.limit
      · intro other same
        obtain rfl := List.mem_singleton.mp same
        exact takes.below
  | ends exhausts log drops off =>
      refine ⟨off, ?_, [], ?_, fun number none => absurd none List.not_mem_nil⟩
      · rw [ready_of_off off]
        exact exhausts.limit
      · rw [log, List.append_nil]

/-- Immediates run in the order in which they were made, and each at most once. A turn runs every
immediate that was made before it and that nobody drops, and none that is made once its first
immediate has been taken, so that immediates that make immediates cannot keep a turn going. -/
theorem immediates_in_order (reachable : start.Reachable) (running : start.phase = .running)
    (first : TurnRun start.begin middle) (off : middle.queue.timersPhase = false)
    (second : TurnRun middle loop) :
    (loop.ran.Pairwise fun earlier later => earlier < later) ∧
      (∃ ran, loop.ran = middle.ran ++ ran ∧
        ∀ number ∈ ran, number < middle.queue.immediates.made.length) ∧
      (loop.phase = .running → ∀ number, number < start.queue.immediates.made.length →
        number ∈ loop.ran ∨ number ∈ loop.dropped) := by
  have begins : LoopStep start start.begin := .begins running
  have run : ∀ {last : EventLoop}, TurnRun start.begin last →
      Admits start last ∧ last.Reachable := by
    intro last run
    induction run with
    | refl =>
        have kept := (reachable.kept.step begins).1
        have limit := ready_limit_of_on kept.immediates rfl
        exact ⟨⟨kept, limit.ge, limit.le, fun ends => absurd ends LoopPhase.noConfusion⟩,
          reachable.tail begins⟩
    | tail _ step ih => exact ⟨ih.1.step step, ih.2.tail step.2⟩
  have later : loop.queue.timersPhase = false ∧
      loop.queue.ready.limit = middle.queue.ready.limit ∧
        ∃ ran, loop.ran = middle.ran ++ ran ∧
          ∀ number ∈ ran, number < middle.queue.ready.limit := by
    induction second with
    | refl =>
        exact ⟨off, rfl, [], (List.append_nil _).symm,
          fun number none => absurd none List.not_mem_nil⟩
    | tail before step ih =>
        obtain ⟨still, same, ran, log, below⟩ := ih
        obtain ⟨last, limit, more, longer, new⟩ :=
          (run (first.trans before)).1.ran_step still step
        refine ⟨last, limit.trans same, ran ++ more, ?_, ?_⟩
        · rw [longer, log, List.append_assoc]
        · intro number member
          rcases List.mem_append.mp member with old | recent
          · exact below number old
          · exact same ▸ new number recent
  obtain ⟨admits, reached⟩ := run (first.trans second)
  have ordered := reached.inOrder
  obtain ⟨-, -, ran, log, below⟩ := later
  refine ⟨ordered.sorted, ⟨ran, log, ?_⟩, ?_⟩
  · intro number member
    exact (below number member).trans_le (run first).1.most
  · intro ends number made
    have below := made.trans_le admits.least
    rcases ordered.all number (below.trans_le admits.most) with waits | gone
    · rw [admits.ended ends number below] at waits
      contradiction
    · exact gone

theorem immediates_in_order_one : ∃ ran, queuedOne.begin.run.ran = queuedOne.begin.run.ran ++ ran ∧
    ∀ number ∈ ran, number < queuedOne.begin.run.queue.immediates.made.length := by
  have sets : LoopStep EventLoop.new queuedOne := .calls (.setImmediate true) rfl
  have off : queuedOne.begin.run.queue.timersPhase = false := by
    have empty : queuedOne.begin.queue.timers.nextTimer.1 = none := by
      show (Library.Heap.settle _ _ []).head? = none
      rw [Library.Heap.settle_nil]
      rfl
    have on : queuedOne.begin.queue.timersPhase = true := rfl
    unfold EventLoop.run EventQueue.runTimer
    rw [if_pos on]
    dsimp only
    rw [empty]
    rfl
  exact (immediates_in_order (.single sets) rfl
    (.single ⟨LoopPhase.noConfusion, .runs rfl⟩) off .refl).2.1

end Immediates

section Delays

theorem Kept.wakes (kept : loop.Kept) (running : loop.phase = .running) (hostPending : Bool)
    {elapsed : ℚ} (forward : 0 ≤ elapsed) : (loop.wakes hostPending elapsed).Kept := by
  have asked := (kept.step (.asks hostPending running)).1
  have passed := (asked.step (.passes elapsed forward)).1
  exact (passed.step (.begins running)).1

theorem wakes_timers (hostPending : Bool) (elapsed : ℚ) (loop : EventLoop) :
    (loop.wakes hostPending elapsed).queue.timers.timers = loop.queue.timers.timers ∧
      (loop.wakes hostPending elapsed).queue.turnStarted = loop.queue.clock + elapsed ∧
        (loop.wakes hostPending elapsed).queue.immediates = loop.queue.immediates.begin := by
  unfold wakes
  rcases timerDelay_cases hostPending loop.queue with same | settled
  · rw [same]
    exact ⟨rfl, rfl, rfl⟩
  · rw [settled]
    exact ⟨rfl, rfl, rfl⟩

theorem wakes_live (hostPending : Bool) (elapsed : ℚ) (loop : EventLoop) :
    (loop.wakes hostPending elapsed).queue.timers.live = loop.queue.timers.live := by
  funext entry
  unfold TimerQueue.live TimerQueue.entryOf
  rw [(wakes_timers hostPending elapsed loop).1]

/-- The first step of the turn runs a callback exactly when there is something to run. -/
theorem Kept.wakes_run (kept : loop.Kept) (running : loop.phase = .running) (hostPending : Bool)
    {elapsed : ℚ} (forward : 0 ≤ elapsed) :
    ((∃ callback, (loop.wakes hostPending elapsed).run.phase = .callback callback) ∧
      ((∃ entry, loop.queue.timers.live entry = true ∧
          entry.due ≤ loop.queue.clock + elapsed) ∨
        ∃ number, loop.queue.immediates.queued number = true)) ∨
    ((loop.wakes hostPending elapsed).run.phase = .running ∧
      (∀ entry, loop.queue.timers.live entry = true →
        loop.queue.clock + elapsed < entry.due) ∧
      ∀ number, loop.queue.immediates.queued number = false) := by
  have woken := kept.wakes running hostPending forward
  obtain ⟨-, started, begun⟩ := wakes_timers hostPending elapsed loop
  have live := wakes_live hostPending elapsed loop
  have on : (loop.wakes hostPending elapsed).queue.timersPhase = true := rfl
  have timers := woken.outside rfl fun _ => LoopPhase.noConfusion
  have runs := runTimer_runs timers woken.immediates
  have ready : (loop.wakes hostPending elapsed).queue.ready =
      (loop.wakes hostPending elapsed).queue.immediates.budget := if_pos rfl
  have limit : (loop.wakes hostPending elapsed).queue.ready.limit =
      loop.queue.immediates.made.length := by
    rw [ready_limit_of_on woken.immediates rfl, begun]
    rfl
  have queued : (loop.wakes hostPending elapsed).queue.ready.queued =
      loop.queue.immediates.queued := by
    rw [ready_queued, begun]
    rfl
  unfold EventLoop.run
  generalize (loop.wakes hostPending elapsed).queue.runTimer = result at runs
  obtain ⟨ran, queue⟩ := result
  generalize loop.wakes hostPending elapsed = woken at *
  cases runs with
  | fires entry on head due =>
      have next := (timers.nextTimer entry).mp head
      rw [started] at due
      exact Or.inl ⟨⟨_, rfl⟩, Or.inl ⟨entry, live ▸ next.live, due⟩⟩
  | takes number left immediates past either same good taken takes =>
      exact Or.inl ⟨⟨_, rfl⟩, Or.inr ⟨number, queued ▸ takes.waits⟩⟩
  | ends left immediates past either same good taken exhausts =>
      refine Or.inr ⟨rfl, ?_, ?_⟩
      · intro entry alive
        rw [← started]
        exact past on entry (live ▸ alive)
      · intro number
        rw [← Bool.not_eq_true, ← queued]
        intro waits
        have made : number < loop.queue.immediates.made.length := by
          rw [queued] at waits
          obtain ⟨immediate, found, -⟩ := ImmediateQueue.made_of_queued waits
          exact (List.getElem?_eq_some_iff.mp found).1
        rw [exhausts.idle number (limit ▸ made)] at waits
        contradiction

/-- Nothing that the guest has set may keep its program alive. -/
structure Released (loop : EventLoop) : Prop where
  timers : ∀ id ∈ loop.queue.timers.activeTimers, loop.queue.timers.refed id = false
  immediates : ∀ immediate ∈ loop.queue.immediates.made, immediate.queued = true →
    immediate.ref = false

/-- The guest has neither an immediate nor a timer that may still run. -/
structure Empty (loop : EventLoop) : Prop where
  timers : loop.queue.timers.activeTimers = ∅
  immediates : ∀ immediate ∈ loop.queue.immediates.made, immediate.queued = false

theorem Kept.released_iff (kept : loop.Kept) :
    loop.Released ↔ loop.queue.timers.refedTimers = 0 ∧
      loop.queue.immediates.refedImmediates = 0 := by
  obtain ⟨inside, timers, -⟩ := kept.timers
  rw [timers.refs, kept.immediates.refs, Nat.cast_eq_zero, Nat.cast_eq_zero, Finset.card_eq_zero,
    Finset.filter_eq_empty_iff, List.countP_eq_zero]
  constructor
  · intro released
    refine ⟨fun id active => Bool.eq_false_iff.mp (released.timers id active), ?_⟩
    intro immediate made both
    obtain ⟨waits, refed⟩ := Bool.and_eq_true_iff.mp both
    rw [released.immediates immediate made waits] at refed
    contradiction
  · intro both
    refine ⟨fun id active => Bool.eq_false_iff.mpr (both.1 active), ?_⟩
    intro immediate made waits
    rw [← Bool.not_eq_true]
    intro refed
    exact both.2 immediate made (Bool.and_eq_true_iff.mpr ⟨waits, refed⟩)

theorem Kept.queuedImmediates_pos_iff (kept : loop.Kept) :
    0 < loop.queue.immediates.queuedImmediates ↔
      ∃ number, loop.queue.immediates.queued number = true := by
  rw [kept.immediates.counted, Int.natCast_pos, List.countP_pos_iff]
  constructor
  · intro found
    obtain ⟨immediate, made, waits⟩ := found
    obtain ⟨number, found⟩ := List.getElem?_of_mem made
    exact ⟨number, (ImmediateQueue.queued_eq found).trans waits⟩
  · intro found
    obtain ⟨number, waits⟩ := found
    obtain ⟨immediate, found, queued⟩ := ImmediateQueue.made_of_queued waits
    exact ⟨immediate, List.mem_of_getElem? found, queued⟩

theorem Kept.empty_iff (kept : loop.Kept) (running : loop.phase = .running) :
    loop.Empty ↔ (∀ id, loop.queue.timers.entryOf id = none) ∧
      ∀ number, loop.queue.immediates.queued number = false := by
  have timers := kept.outside running fun _ => LoopPhase.noConfusion
  constructor
  · intro empty
    constructor
    · intro id
      cases named : loop.queue.timers.entryOf id with
      | none => rfl
      | some entry =>
          have active := timers.active id entry named
          rw [empty.timers] at active
          exact absurd active (Finset.notMem_empty id)
    · intro number
      rw [← Bool.not_eq_true]
      intro waits
      obtain ⟨immediate, found, queued⟩ := ImmediateQueue.made_of_queued waits
      rw [empty.immediates immediate (List.mem_of_getElem? found)] at queued
      contradiction
  · intro both
    constructor
    · rw [Finset.eq_empty_iff_forall_notMem]
      intro id active
      rcases timers.waiting id active with entry | inside
      · exact entry (both.1 id)
      · contradiction
    · intro immediate made
      obtain ⟨number, found⟩ := List.getElem?_of_mem made
      rw [← ImmediateQueue.queued_eq found]
      exact both.2 number

/-- The four answers to the question how long the guest may wait. -/
theorem Kept.timerDelay_cases (kept : loop.Kept) (running : loop.phase = .running)
    (hostPending : Bool) :
    ((loop.queue.timerDelay hostPending).1 = -1 ∧ hostPending = false ∧ loop.Released) ∨
    (¬ (hostPending = false ∧ loop.Released) ∧
      (((loop.queue.timerDelay hostPending).1 = 0 ∧
          ∃ number, loop.queue.immediates.queued number = true) ∨
        ((∀ number, loop.queue.immediates.queued number = false) ∧
          (((loop.queue.timerDelay hostPending).1 = -1 ∧
              ∀ id, loop.queue.timers.entryOf id = none) ∨
            ∃ entry, loop.queue.timers.Next entry ∧
              (loop.queue.timerDelay hostPending).1 =
                max 0 ⌈entry.due - loop.queue.clock⌉)))) := by
  have timers := kept.outside running fun _ => LoopPhase.noConfusion
  have released : (!hostPending && decide (loop.queue.timers.refedTimers = 0) &&
      decide (loop.queue.immediates.refedImmediates = 0)) = true ↔
        hostPending = false ∧ loop.Released := by
    rw [kept.released_iff]
    simp [and_assoc]
  unfold EventQueue.timerDelay
  split
  · next none => exact Or.inl ⟨rfl, released.mp none⟩
  · next some =>
      refine Or.inr ⟨fun both => some (released.mpr both), ?_⟩
      split
      · next waits => exact Or.inl ⟨rfl, kept.queuedImmediates_pos_iff.mp waits⟩
      · next idle =>
          have idle : ∀ number, loop.queue.immediates.queued number = false := by
            intro number
            rw [← Bool.not_eq_true]
            exact fun waits => idle (kept.queuedImmediates_pos_iff.mpr ⟨number, waits⟩)
          refine Or.inr ⟨idle, ?_⟩
          cases head : loop.queue.timers.nextTimer.1 with
          | none => exact Or.inl ⟨by simp [head], timers.nextTimer_eq_none.mp head⟩
          | some entry => exact Or.inr ⟨entry, (timers.nextTimer entry).mp head, by simp [head]⟩

/-- The guest waits exactly as long as it may. It waits forever only when nothing is left that may
run or keep the program alive. Otherwise a turn that begins after the delay runs a callback, and a
turn that begins a millisecond earlier does not. -/
theorem delay_exact (reachable : loop.Reachable) (running : loop.phase = .running)
    (hostPending : Bool) :
    ((loop.queue.timerDelay hostPending).1 = -1 ↔
      (hostPending = false ∧ loop.Released) ∨ loop.Empty) ∧
    (∀ elapsed : ℚ, 0 ≤ (loop.queue.timerDelay hostPending).1 →
      (loop.queue.timerDelay hostPending).1 ≤ elapsed →
        ∃ callback, (loop.wakes hostPending elapsed).run.phase = .callback callback) ∧
    (∀ elapsed : ℚ, 0 ≤ elapsed → elapsed ≤ (loop.queue.timerDelay hostPending).1 - 1 →
      (loop.wakes hostPending elapsed).run.phase = .running) := by
  have kept := reachable.kept
  have answers := kept.timerDelay_cases running hostPending
  refine ⟨?_, ?_, ?_⟩
  · rw [kept.empty_iff running]
    constructor
    · intro never
      rcases answers with ⟨-, released⟩ | ⟨-, now | ⟨idle, none | later⟩⟩
      · exact Or.inl released
      · rw [never] at now
        exact absurd now.1 (by decide)
      · exact Or.inr ⟨none.2, idle⟩
      · obtain ⟨entry, -, delay⟩ := later
        rw [never] at delay
        exact absurd (delay ▸ le_max_left (0 : ℤ) _) (by decide)
    · intro either
      rcases answers with ⟨never, -⟩ | ⟨held, now | ⟨idle, none | later⟩⟩
      · exact never
      · rcases either with released | ⟨-, idle⟩
        · exact absurd released held
        · obtain ⟨-, number, waits⟩ := now
          rw [idle] at waits
          contradiction
      · exact none.1
      · rcases either with released | ⟨none, -⟩
        · exact absurd released held
        · obtain ⟨entry, next, -⟩ := later
          have named := TimerQueue.live_iff.mp next.live
          rw [none] at named
          contradiction
  · intro elapsed waits enough
    have forward : 0 ≤ elapsed := (by exact_mod_cast waits : (0 : ℚ) ≤ _).trans enough
    rcases kept.wakes_run running hostPending forward with ⟨runs, -⟩ | ⟨-, late, idle⟩
    · exact runs
    · exfalso
      rcases answers with ⟨never, -⟩ | ⟨-, now | ⟨-, none | later⟩⟩
      · rw [never] at waits
        exact absurd waits (by decide)
      · obtain ⟨-, number, queued⟩ := now
        rw [idle] at queued
        contradiction
      · rw [none.1] at waits
        exact absurd waits (by decide)
      · obtain ⟨entry, next, delay⟩ := later
        have after := late entry next.live
        have ceil := Int.le_ceil (entry.due - loop.queue.clock)
        have least : (⌈entry.due - loop.queue.clock⌉ : ℚ) ≤
            (loop.queue.timerDelay hostPending).1 := by
          rw [delay]
          exact_mod_cast le_max_right _ _
        linarith
  · intro elapsed forward early
    rcases kept.wakes_run running hostPending forward with ⟨-, some⟩ | ⟨ends, -, -⟩
    · exfalso
      have positive : (0 : ℚ) < (loop.queue.timerDelay hostPending).1 := by linarith
      rcases answers with ⟨never, -⟩ | ⟨-, now | ⟨idle, none | later⟩⟩
      · rw [never] at positive
        norm_num at positive
      · rw [now.1] at positive
        norm_num at positive
      · rw [none.1] at positive
        norm_num at positive
      · obtain ⟨entry, next, delay⟩ := later
        have large : 0 < ⌈entry.due - loop.queue.clock⌉ := by
          rw [delay] at positive
          have := Int.cast_pos.mp positive
          omega
        rw [max_eq_right large.le] at delay
        have ceil := Int.ceil_lt_add_one (entry.due - loop.queue.clock)
        rcases some with ⟨other, alive, due⟩ | ⟨number, queued⟩
        · have first : entry.due ≤ other.due := Prod.Lex.monotone_fst _ _ (next.least other alive)
          rw [delay] at early
          linarith
        · rw [idle] at queued
          contradiction
    · exact ends

theorem delay_exact_timeout :
    (((started false 3).queue.timerDelay false).1 = -1 ↔
      (false = false ∧ (started false 3).Released) ∨ (started false 3).Empty) ∧
    ∀ elapsed : ℚ, 0 ≤ elapsed →
      elapsed ≤ ((started false 3).queue.timerDelay false).1 - 1 →
        ((started false 3).wakes false elapsed).run.phase = .running := by
  have forward : (0 : ℚ) ≤ 3 := by norm_num
  obtain ⟨never, -, early⟩ := delay_exact (started_reachable false forward) rfl false
  exact ⟨never, early⟩

end Delays

end EventLoop

end TinySandbox.Js
