/-
This file shows what the event loop of a guest does in every run.
-/

import TinySandbox.Proof.Js.Immediates
import TinySandbox.Proof.Js.Timers

namespace TinySandbox.Js

section Moves
variable {queue : TimerQueue} {inside : Option Nat} {id : Nat} {timer : Timer}

namespace TimerQueue

theorem Moves.refl (queue : TimerQueue) (start : ℚ) : queue.Moves start queue where
  timers := fun _ timer found => ⟨timer, found, rfl, fun cleared => cleared⟩
  entries := fun _ => Or.inl rfl

/-- Only the timers matter. -/
theorem Moves.of_timers {after : TimerQueue} (same : after.timers = queue.timers) (start : ℚ) :
    queue.Moves start after where
  timers := fun _ timer found => ⟨timer, same ▸ found, rfl, fun cleared => cleared⟩
  entries := by
    intro id
    unfold entryOf
    rw [same]
    exact Or.inl rfl

theorem Moves.afterNext (queue : TimerQueue) (start : ℚ) :
    queue.Moves start queue.nextTimer.2 := by
  refine Moves.of_timers ?_ start
  rfl

theorem timers_schedule (found : queue.timers id = some timer) (start : ℚ) (other : Nat) :
    (queue.schedule id start).timers other =
      if other = id then
        some { timer with
          entry := some { timer := id, due := start + timer.delay, seq := queue.timerSeq } }
      else queue.timers other := by
  unfold schedule
  rw [found]
  show (TimerQueue.dropStale _).timers other = _
  rw [timers_dropStale]
  exact timers_enter _ timer queue other

theorem Moves.schedule (found : queue.timers id = some timer) (start : ℚ) :
    queue.Moves start (queue.schedule id start) := by
  constructor
  · intro other old known
    rw [timers_schedule found]
    split
    · next same =>
        obtain rfl := Option.some.inj (found.symm.trans (same ▸ known))
        exact ⟨_, rfl, rfl, fun cleared => cleared⟩
    · exact ⟨old, known, rfl, fun cleared => cleared⟩
  · intro other
    rw [entryOf_schedule found, timers_schedule found]
    split
    · next same =>
        subst same
        exact Or.inr ⟨_, rfl, Or.inr ⟨queue.timerSeq, rfl⟩⟩
    · exact Or.inl rfl

theorem Moves.trans {middle after : TimerQueue} {start : ℚ} (first : queue.Moves start middle)
    (second : middle.Moves start after) : queue.Moves start after := by
  constructor
  · intro id timer found
    obtain ⟨later, known, delay, cleared⟩ := first.timers id timer found
    obtain ⟨last, final, same, stays⟩ := second.timers id later known
    exact ⟨last, final, same.trans delay, fun gone => stays (cleared gone)⟩
  · intro id
    rcases second.entries id with same | changed
    · rw [same]
      rcases first.entries id with before | ⟨timer, known, cases⟩
      · exact Or.inl before
      · obtain ⟨last, final, delay, stays⟩ := second.timers id timer known
        refine Or.inr ⟨last, final, ?_⟩
        rw [delay]
        rcases cases with ⟨gone, cleared⟩ | new
        · exact Or.inl ⟨gone, stays cleared⟩
        · exact Or.inr new
    · exact Or.inr changed

theorem Moves.startTimer (kept : queue.Kept inside) (callable : Bool) (delay : Option ℚ)
    (repeats : Bool) (clock : ℚ) :
    queue.Moves clock (queue.startTimer callable delay repeats clock).2 := by
  have none : queue.timers queue.nextTimerId = none := kept.unknown _ le_rfl
  unfold TimerQueue.startTimer
  dsimp only
  split
  · refine Moves.trans ?_ (Moves.schedule (timers_setTimer_self _ _ _) clock)
    constructor
    · intro id timer found
      rw [timers_setTimer, if_neg]
      · exact ⟨timer, found, rfl, fun cleared => cleared⟩
      · intro same
        rw [same, none] at found
        contradiction
    · intro id
      rw [entryOf_setTimer]
      split
      · next same =>
          left
          unfold entryOf
          rw [same, none]
          rfl
      · exact Or.inl rfl
  · refine Moves.of_timers ?_ clock
    rfl

theorem Moves.setTimerRef (id : Nat) (ref : Bool) (start : ℚ) :
    queue.Moves start (queue.setTimerRef id ref) := by
  unfold TimerQueue.setTimerRef
  split
  · exact Moves.refl queue start
  · next timer found =>
      constructor
      · intro other old known
        rw [timers_setTimer]
        split
        · next same =>
            obtain rfl := Option.some.inj (found.symm.trans (same ▸ known))
            exact ⟨_, rfl, rfl, fun cleared => cleared⟩
        · exact ⟨old, known, rfl, fun cleared => cleared⟩
      · intro other
        rw [entryOf_setTimer]
        split
        · next same =>
            subst same
            exact Or.inl (entryOf_of_timers found).symm
        · exact Or.inl rfl

theorem Moves.refresh (id : Nat) (clock : ℚ) : queue.Moves clock (queue.refresh id clock) := by
  unfold TimerQueue.refresh
  split
  · exact Moves.refl queue clock
  · next timer found =>
      split
      · exact Moves.refl queue clock
      · exact Moves.schedule found clock

/-- The timer is cleared, whether it still had an entry or not. -/
theorem Moves.clear {old : Timer} (new : Timer) (found : queue.timers id = some old)
    (delay : new.delay = old.delay) (gone : new.cleared = true)
    (entry : new.entry = none ∨ new.entry = old.entry) {after : TimerQueue}
    (timers : ∀ other, after.timers other = if other = id then some new else queue.timers other)
    (start : ℚ) : queue.Moves start after := by
  constructor
  · intro other timer known
    rw [timers]
    split
    · next here =>
        obtain rfl := Option.some.inj (found.symm.trans (here ▸ known))
        exact ⟨new, rfl, delay, fun _ => gone⟩
    · exact ⟨timer, known, rfl, fun cleared => cleared⟩
  · intro other
    unfold entryOf
    rw [timers]
    split
    · next here =>
        subst here
        rcases entry with none | kept
        · exact Or.inr ⟨new, rfl, Or.inl ⟨none, gone⟩⟩
        · left
          rw [found]
          exact kept
    · exact Or.inl rfl

theorem Moves.clearTimer (handle : TimerHandle) (start : ℚ) :
    queue.Moves start (queue.clearTimer handle) := by
  unfold TimerQueue.clearTimer
  split
  · exact Moves.refl queue start
  · next id named =>
      split
      · exact Moves.refl queue start
      · next timer found =>
          by_cases active : id ∈ queue.activeTimers
          · rw [setTimer_unschedule active]
            refine Moves.clear { timer with cleared := true, entry := none } found rfl rfl
              (Or.inl rfl) ?_ start
            exact timers_setTimer id _ _
          · rw [unschedule_of_not_active (by exact active)]
            exact Moves.clear { timer with cleared := true } found rfl rfl (Or.inr rfl)
              (timers_setTimer _ _ _) start

theorem Moves.repeatTimer (id : Nat) (turnStarted : ℚ) :
    queue.Moves turnStarted (queue.repeatTimer id turnStarted) := by
  unfold TimerQueue.repeatTimer
  split
  · exact Moves.refl queue turnStarted
  · next timer found =>
      split
      · exact Moves.schedule found turnStarted
      · exact Moves.refl queue turnStarted

end TimerQueue

end Moves

section Runs

/-- The immediates that may run, once the timers of the turn are done. -/
def EventQueue.ready (queue : EventQueue) : ImmediateQueue :=
  if queue.timersPhase then queue.immediates.budget else queue.immediates

/-- These are the ways in which a step of a turn ends. -/
inductive Runs (queue : EventQueue) : Ran Callback → EventQueue → Prop where
  | fires (entry : TimerEntry) (on : queue.timersPhase = true)
      (head : queue.timers.nextTimer.1 = some entry) (due : entry.due ≤ queue.turnStarted) :
      Runs queue (.callback (.timer entry))
        { queue with timers := queue.timers.nextTimer.2.fire entry }
  | takes (number : Nat) (timers : TimerQueue) (immediates : ImmediateQueue)
      (past : queue.timersPhase = true → ∀ entry, queue.timers.live entry = true →
        queue.turnStarted < entry.due)
      (left : timers = queue.timers ∨ timers = queue.timers.nextTimer.2)
      (same : timers.timers = queue.timers.timers) (kept : timers.Kept none)
      (good : immediates.Kept) (takes : queue.ready.Takes number immediates) :
      Runs queue (.callback (.immediate number))
        { queue with timers, immediates, timersPhase := false }
  | ends (timers : TimerQueue) (immediates : ImmediateQueue)
      (past : queue.timersPhase = true → ∀ entry, queue.timers.live entry = true →
        queue.turnStarted < entry.due)
      (left : timers = queue.timers ∨ timers = queue.timers.nextTimer.2)
      (same : timers.timers = queue.timers.timers) (kept : timers.Kept none)
      (good : immediates.Kept) (exhausts : queue.ready.Exhausts immediates) :
      Runs queue .nothing { queue with timers, immediates, timersPhase := false }

theorem runImmediates_runs {queue : EventQueue} (timers : TimerQueue)
    (past : queue.timersPhase = true → ∀ entry, queue.timers.live entry = true →
      queue.turnStarted < entry.due)
    (left : timers = queue.timers ∨ timers = queue.timers.nextTimer.2)
    (same : timers.timers = queue.timers.timers) (kept : timers.Kept none)
    (good : queue.ready.Kept) :
    Runs queue
      ({ queue with timers, timersPhase := false, immediates := queue.ready }.runImmediates).1
      ({ queue with timers, timersPhase := false, immediates := queue.ready }.runImmediates).2 := by
  obtain ⟨after, runs⟩ := good.runImmediates queue.ready.immediateBudget rfl
  unfold EventQueue.runImmediates
  dsimp only
  rcases runs with ⟨number, called, takes⟩ | ⟨nothing, exhausts⟩
  · rw [called]
    exact Runs.takes number timers _ past left same kept after takes
  · rw [nothing]
    exact Runs.ends timers _ past left same kept after exhausts

theorem runTimer_runs {queue : EventQueue} (kept : queue.timers.Kept none)
    (good : queue.immediates.Kept) : Runs queue queue.runTimer.1 queue.runTimer.2 := by
  unfold EventQueue.runTimer
  split
  · next on =>
      have ready : queue.ready = queue.immediates.budget := if_pos on
      dsimp only
      split
      · next entry found =>
          obtain ⟨head, due⟩ := Option.filter_eq_some_iff.mp found
          exact Runs.fires entry on head (of_decide_eq_true due)
      · next none =>
          have past : ∀ entry, queue.timers.live entry = true → queue.turnStarted < entry.due := by
            intro entry alive
            rw [← not_le]
            intro due
            cases head : queue.timers.nextTimer.1 with
            | none =>
                have empty := kept.nextTimer_eq_none.mp head entry.timer
                rw [TimerQueue.live_iff, empty] at alive
                contradiction
            | some first =>
                have least := ((kept.nextTimer first).mp head).least entry alive
                have before : first.due ≤ entry.due := Prod.Lex.monotone_fst _ _ least
                rw [head] at none
                exact absurd (decide_eq_true (before.trans due))
                  (Option.filter_eq_none_iff.mp none first rfl)
          have runs := runImmediates_runs queue.timers.nextTimer.2 (fun _ => past) (Or.inr rfl)
            rfl kept.afterNext (ready ▸ good.budget.1)
          rw [ready] at runs
          exact runs
  · next off =>
      have ready : queue.ready = queue.immediates := if_neg off
      have runs := runImmediates_runs queue.timers (fun on => absurd on off) (Or.inl rfl)
        rfl kept (ready ▸ good)
      have same : queue = { queue with timersPhase := false } := by
        rw [Bool.not_eq_true] at off
        rw [← off]
      rw [ready, ← same] at runs
      exact runs

end Runs

section Steps
variable {loop after : EventLoop}

theorem TimerCall.keeps (call : TimerCall) {queue : EventQueue} {inside : Option Nat}
    (timers : queue.timers.Kept inside) (immediates : queue.immediates.Kept) :
    (call.run queue).timers.Kept inside ∧ (call.run queue).immediates.Kept ∧
      queue.timers.Moves queue.clock (call.run queue).timers := by
  cases call with
  | startTimer callable delay repeats =>
      exact ⟨timers.startTimer callable delay repeats queue.clock, immediates,
        TimerQueue.Moves.startTimer timers callable delay repeats queue.clock⟩
  | setTimerRef id ref =>
      exact ⟨timers.setTimerRef id ref, immediates,
        TimerQueue.Moves.setTimerRef id ref queue.clock⟩
  | refresh id =>
      exact ⟨timers.refresh id queue.clock, immediates, TimerQueue.Moves.refresh id queue.clock⟩
  | clearTimer handle =>
      exact ⟨timers.clearTimer handle, immediates,
        TimerQueue.Moves.clearTimer handle queue.clock⟩
  | setImmediate callable =>
      exact ⟨timers, immediates.setImmediate callable, TimerQueue.Moves.refl _ _⟩
  | setImmediateRef number ref =>
      exact ⟨timers, immediates.setImmediateRef number ref, TimerQueue.Moves.refl _ _⟩
  | clearImmediate number =>
      exact ⟨timers, immediates.dequeueImmediate number, TimerQueue.Moves.refl _ _⟩

/-- A call changes neither the times nor what may still run in the turn. -/
theorem TimerCall.frame (call : TimerCall) (queue : EventQueue) :
    (call.run queue).clock = queue.clock ∧ (call.run queue).turnStarted = queue.turnStarted ∧
      (call.run queue).timersPhase = queue.timersPhase ∧
        (call.run queue).immediates.immediateBudget = queue.immediates.immediateBudget := by
  refine ⟨?_, ?_, ?_, ?_⟩
  · cases call <;> rfl
  · cases call <;> rfl
  · cases call <;> rfl
  · cases call with
    | setImmediate callable =>
        show (queue.immediates.setImmediate callable).2.immediateBudget = _
        unfold ImmediateQueue.setImmediate
        split
        · rfl
        · rfl
    | setImmediateRef number ref =>
        show (queue.immediates.setImmediateRef number ref).immediateBudget = _
        unfold ImmediateQueue.setImmediateRef
        split
        · rfl
        · rfl
    | clearImmediate number =>
        exact (ImmediateQueue.immediates_dequeueImmediate queue.immediates number).2.2
    | startTimer callable delay repeats => rfl
    | setTimerRef id ref => rfl
    | refresh id => rfl
    | clearTimer handle => rfl

/-- The timers of the guest move, or one of them fires. -/
inductive Happens (before after : EventLoop) : Prop where
  | moves (start : ℚ) (late : before.queue.turnStarted ≤ start)
      (moves : before.queue.timers.Moves start after.queue.timers)
      (fired : after.fired = before.fired)
      (same : before.phase ≠ .running → after.queue.turnStarted = before.queue.turnStarted)
      (past : after.queue.timersPhase = false → before.queue.timersPhase = true →
        ∀ entry, before.queue.timers.live entry = true →
          before.queue.turnStarted < entry.due)
  | fires (entry : TimerEntry) (kept : before.queue.timers.Kept none)
      (on : before.queue.timersPhase = true) (next : before.queue.timers.Next entry)
      (due : entry.due ≤ before.queue.turnStarted)
      (timers : after.queue.timers = before.queue.timers.nextTimer.2.fire entry)
      (fired : after.fired = before.fired ++ [(entry, before.queue.turnStarted)])
      (same : after.queue.turnStarted = before.queue.turnStarted)
      (still : after.queue.timersPhase = true)

namespace EventLoop

/-- The turn has neither begun nor ended. -/
theorem Happens.still {start : ℚ} (late : loop.queue.turnStarted ≤ start)
    (moves : loop.queue.timers.Moves start after.queue.timers) (fired : after.fired = loop.fired)
    (same : after.queue.turnStarted = loop.queue.turnStarted)
    (phase : after.queue.timersPhase = loop.queue.timersPhase) : Happens loop after := by
  refine Happens.moves start late moves fired (fun _ => same) ?_
  intro off on
  rw [phase, on] at off
  contradiction

/-- Outside the callback of an interval every active timer has an entry. -/
theorem Kept.outside (kept : loop.Kept) {phase : LoopPhase} (now : loop.phase = phase)
    (outside : ∀ callback, phase ≠ .callback callback) : loop.queue.timers.Kept none := by
  obtain ⟨inside, timers, runs⟩ := kept.timers
  cases inside with
  | none => exact timers
  | some id =>
      obtain ⟨entry, inner, -⟩ := runs id rfl
      exact absurd (now.symm.trans inner) (outside _)

theorem Kept.new : EventLoop.new.Kept where
  timers := by
    refine ⟨none, ?_, fun id inside => absurd inside (by simp)⟩
    constructor
    · intro child positive above under found
      cases found
    · intro entry alive
      rw [TimerQueue.live_iff] at alive
      cases alive
    · exact List.nodup_nil
    · exact fun entry inHeap => absurd inHeap List.not_mem_nil
    · intro id entry found
      cases found
    · intro id entry found
      cases found
    · exact fun id member => absurd member (Finset.notMem_empty id)
    · exact fun id inside => absurd inside (by simp)
    · exact fun id member => absurd member (Finset.notMem_empty id)
    · exact fun id _ => rfl
    · intro id timer found
      cases found
    · intro id timer found
      cases found
    · rfl
  immediates := by
    constructor
    · exact le_rfl
    · exact le_rfl
    · intro place _ inside
      exact absurd inside (Nat.not_lt_zero place)
    · intro number waits
      exact Nat.zero_le number
    · exact le_rfl
    · rfl
    · rfl
  started := le_rfl
  dated := fun fired member => absurd member List.not_mem_nil
  idle := fun _ => rfl
  calm := LoopPhase.noConfusion
  closed := fun _ => rfl

theorem timerDelay_cases (hostPending : Bool) (queue : EventQueue) :
    (queue.timerDelay hostPending).2 = queue ∨
      (queue.timerDelay hostPending).2 = { queue with timers := queue.timers.nextTimer.2 } := by
  unfold EventQueue.timerDelay
  split
  · exact Or.inl rfl
  · split
    · exact Or.inl rfl
    · exact Or.inr rfl

theorem Kept.run (kept : loop.Kept) (timers : loop.queue.timers.Kept none)
    (runs : Runs loop.queue loop.queue.runTimer.1 loop.queue.runTimer.2) :
    loop.run.Kept ∧ Happens loop loop.run := by
  generalize found : loop.queue.runTimer = result at runs
  obtain ⟨ran, queue⟩ := result
  unfold EventLoop.run
  rw [found]
  cases runs with
  | fires entry on head due =>
      refine ⟨⟨⟨_, timers.fire head, ?_⟩, kept.immediates, kept.started, ?_, ?_,
        LoopPhase.noConfusion, LoopPhase.noConfusion⟩, ?_⟩
      · intro id inside
        unfold TimerQueue.insideOf at inside
        obtain ⟨timer, -, repeats⟩ := Option.bind_eq_some_iff.mp inside
        split at repeats
        · exact ⟨entry, rfl, Option.some.inj repeats⟩
        · contradiction
      · intro fired member
        rcases List.mem_append.mp member with old | new
        · exact kept.dated fired old
        · obtain rfl := List.mem_singleton.mp new
          exact ⟨due, le_rfl⟩
      · exact fun _ => kept.idle (Or.inr on)
      · exact Happens.fires entry timers on ((timers.nextTimer entry).mp head) due rfl rfl
          rfl on
  | takes number left immediates past either same good taken takes =>
      refine ⟨⟨⟨none, good, fun id inside => absurd inside (by simp)⟩, taken, kept.started,
        kept.dated, ?_, LoopPhase.noConfusion, LoopPhase.noConfusion⟩, ?_⟩
      · exact fun either => absurd (either.resolve_left LoopPhase.noConfusion) Bool.false_ne_true
      · exact Happens.moves loop.queue.clock kept.started (TimerQueue.Moves.of_timers same _) rfl
          (fun _ => rfl) (fun _ => past)
  | ends left immediates past either same good taken exhausts =>
      refine ⟨⟨⟨none, good, fun id inside => absurd inside (by simp)⟩, taken, kept.started,
        kept.dated, ?_, LoopPhase.noConfusion, fun _ => rfl⟩, ?_⟩
      · exact fun _ => exhausts.spent
      · exact Happens.moves loop.queue.clock kept.started (TimerQueue.Moves.of_timers same _) rfl
          (fun _ => rfl) (fun _ => past)

theorem Kept.step (kept : loop.Kept) (step : LoopStep loop after) :
    after.Kept ∧ Happens loop after := by
  cases step with
  | calls call guest =>
      obtain ⟨inside, timers, runs⟩ := kept.timers
      obtain ⟨clock, turnStarted, timersPhase, budget⟩ := call.frame loop.queue
      obtain ⟨newTimers, immediates, moves⟩ := call.keeps timers kept.immediates
      refine ⟨⟨⟨inside, newTimers, runs⟩, immediates, ?_, ?_, ?_, kept.calm, ?_⟩, ?_⟩
      · show (call.run loop.queue).turnStarted ≤ (call.run loop.queue).clock
        rw [clock, turnStarted]
        exact kept.started
      · show ∀ fired ∈ loop.fired, fired.1.due ≤ fired.2 ∧
          fired.2 ≤ (call.run loop.queue).turnStarted
        rw [turnStarted]
        exact kept.dated
      · show loop.phase = .running ∨ (call.run loop.queue).timersPhase = true →
          (call.run loop.queue).immediates.immediateBudget = 0
        rw [timersPhase, budget]
        exact kept.idle
      · exact fun running => timersPhase.trans (kept.closed running)
      · exact Happens.still kept.started moves rfl turnStarted timersPhase
  | passes elapsed forward =>
      refine ⟨⟨kept.timers, kept.immediates, ?_, kept.dated, kept.idle, kept.calm,
        kept.closed⟩, ?_⟩
      · exact kept.started.trans (le_add_of_nonneg_right forward)
      · exact Happens.still kept.started (TimerQueue.Moves.refl _ _) rfl rfl rfl
  | asks hostPending running =>
      have timers := kept.outside running fun _ => LoopPhase.noConfusion
      rcases timerDelay_cases hostPending loop.queue with same | settled
      · rw [same]
        exact ⟨kept, Happens.still kept.started (TimerQueue.Moves.refl _ _) rfl rfl rfl⟩
      · rw [settled]
        refine ⟨⟨⟨none, timers.afterNext, fun id inside => absurd inside (by simp)⟩,
          kept.immediates, kept.started, kept.dated, kept.idle, kept.calm,
        kept.closed⟩, ?_⟩
        exact Happens.still kept.started (TimerQueue.Moves.afterNext _ _) rfl rfl rfl
  | begins running =>
      have timers := kept.outside running fun _ => LoopPhase.noConfusion
      refine ⟨⟨⟨none, timers, fun id inside => absurd inside (by simp)⟩,
        (kept.immediates.begin (kept.idle (Or.inl running))).1, le_rfl, ?_, ?_,
        LoopPhase.noConfusion, LoopPhase.noConfusion⟩, ?_⟩
      · intro fired member
        obtain ⟨due, before⟩ := kept.dated fired member
        exact ⟨due, before.trans kept.started⟩
      · exact fun _ => kept.idle (Or.inl running)
      · refine Happens.moves loop.queue.clock kept.started (TimerQueue.Moves.refl _ _) rfl ?_ ?_
        · exact fun inside => absurd running inside
        · exact fun off => absurd off.symm Bool.false_ne_true
  | runs turn =>
      have timers := kept.outside turn fun _ => LoopPhase.noConfusion
      exact kept.run timers (runTimer_runs timers kept.immediates)
  | returns callback inside =>
      cases callback with
      | timer entry =>
          obtain ⟨within, timers, runs⟩ := kept.timers
          have only : ∀ other, within = some other → other = entry.timer := by
            intro other running
            obtain ⟨own, phase, same⟩ := runs other running
            rw [inside] at phase
            obtain rfl := Callback.timer.inj (LoopPhase.callback.inj phase)
            exact same.symm
          refine ⟨⟨⟨none, timers.repeatTimer only loop.queue.turnStarted, ?_⟩, kept.immediates,
            kept.started, kept.dated, ?_, LoopPhase.noConfusion, LoopPhase.noConfusion⟩, ?_⟩
          · exact fun id inside => absurd inside (by simp)
          · exact fun either => kept.idle (Or.inr (either.resolve_left LoopPhase.noConfusion))
          · exact Happens.still le_rfl
              (TimerQueue.Moves.repeatTimer entry.timer loop.queue.turnStarted) rfl rfl rfl
      | immediate number =>
          obtain ⟨within, timers, runs⟩ := kept.timers
          cases within with
          | none =>
              refine ⟨⟨⟨none, timers, ?_⟩, kept.immediates, kept.started, kept.dated, ?_,
                LoopPhase.noConfusion, LoopPhase.noConfusion⟩, ?_⟩
              · exact fun id inside => absurd inside (by simp)
              · exact fun either => kept.idle (Or.inr (either.resolve_left LoopPhase.noConfusion))
              · exact Happens.still kept.started (TimerQueue.Moves.refl _ _) rfl rfl rfl
          | some id =>
              obtain ⟨entry, phase, -⟩ := runs id rfl
              rw [inside] at phase
              exact absurd (LoopPhase.callback.inj phase) Callback.noConfusion
  | drains jobs =>
      have timers := kept.outside jobs fun _ => LoopPhase.noConfusion
      refine ⟨⟨⟨none, timers, fun id inside => absurd inside (by simp)⟩, kept.immediates,
        kept.started, kept.dated, ?_, LoopPhase.noConfusion, LoopPhase.noConfusion⟩, ?_⟩
      · exact fun either => kept.idle (Or.inr (either.resolve_left LoopPhase.noConfusion))
      · exact Happens.still kept.started (TimerQueue.Moves.refl _ _) rfl rfl rfl

end EventLoop

end Steps

end TinySandbox.Js
