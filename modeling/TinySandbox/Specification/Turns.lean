/-
This file says what the timers of a guest are for. Of the entries that are live, the one that is due
first fires first, and entries that are due at one time fire in the order in which they were made.
-/

import Mathlib.Data.Prod.Lex
import Mathlib.Logic.Relation
import TinySandbox.Construction.Js.Timers

namespace TinySandbox.Js

def TimerEntry.rank (entry : TimerEntry) : ℚ ×ₗ ℕ := toLex (entry.due, entry.seq)

namespace TimerQueue

def refed (queue : TimerQueue) (id : Nat) : Bool := (queue.timers id).any Timer.ref

/-- The entry is live, and no live entry comes before it. -/
structure Next (queue : TimerQueue) (entry : TimerEntry) : Prop where
  live : queue.live entry = true
  least : ∀ other, queue.live other = true → entry.rank ≤ other.rank

/-- A timer is active exactly while it has a live entry, except that an interval has none inside its
callback. -/
structure Kept (inside : Option Nat) (queue : TimerQueue) : Prop where
  ordered : Library.Heap.Ordered TimerEntry.rank queue.timerHeap
  stored : ∀ entry, queue.live entry = true → entry ∈ queue.timerHeap
  distinct : (queue.timerHeap.map TimerEntry.seq).Nodup
  young : ∀ entry ∈ queue.timerHeap, entry.seq < queue.timerSeq
  named : ∀ id entry, queue.entryOf id = some entry → entry.timer = id
  active : ∀ id entry, queue.entryOf id = some entry → id ∈ queue.activeTimers
  waiting : ∀ id ∈ queue.activeTimers, queue.entryOf id ≠ none ∨ inside = some id
  inner : ∀ id, inside = some id → ∃ timer, queue.timers id = some timer ∧ timer.repeats = true
  known : ∀ id ∈ queue.activeTimers, queue.timers id ≠ none
  unknown : ∀ id, queue.nextTimerId ≤ id → queue.timers id = none
  cleared : ∀ id timer, queue.timers id = some timer → timer.cleared = true →
    id ∉ queue.activeTimers
  delayed : ∀ id timer, queue.timers id = some timer → 1 ≤ timer.delay
  refs : queue.refedTimers = ((queue.activeTimers.filter fun id => queue.refed id).card : ℤ)

/-- A timer keeps its delay and stays cleared. Its entry stays as it is, goes away for good, or is
replaced by one that is due a whole delay after the given time. -/
structure Moves (before : TimerQueue) (start : ℚ) (after : TimerQueue) : Prop where
  timers : ∀ id timer, before.timers id = some timer → ∃ later, after.timers id = some later ∧
    later.delay = timer.delay ∧ (timer.cleared = true → later.cleared = true)
  entries : ∀ id, after.entryOf id = before.entryOf id ∨
    ∃ timer, after.timers id = some timer ∧
      ((after.entryOf id = none ∧ timer.cleared = true) ∨
        ∃ seq, after.entryOf id = some { timer := id, due := start + timer.delay, seq })

end TimerQueue

namespace ImmediateQueue

def queued (queue : ImmediateQueue) (number : Nat) : Bool :=
  (queue.made[number]?).any Immediate.queued

/-- The first immediate that has not been taken. -/
def first (queue : ImmediateQueue) : Nat :=
  queue.made.length - (queue.immediates.length - queue.immediateHead)

/-- The first immediate that has to wait for the next turn. -/
def limit (queue : ImmediateQueue) : Nat := queue.first + queue.immediateBudget

structure Kept (queue : ImmediateQueue) : Prop where
  head : queue.immediateHead ≤ queue.immediates.length
  fits : queue.immediates.length - queue.immediateHead ≤ queue.made.length
  numbered : ∀ place, queue.immediateHead ≤ place → place < queue.immediates.length →
    queue.immediates[place]? = some (some (queue.first + (place - queue.immediateHead)))
  behind : ∀ number, queue.queued number = true → queue.first ≤ number
  within : queue.immediateBudget ≤ queue.immediates.length - queue.immediateHead
  counted : queue.queuedImmediates = (queue.made.countP Immediate.queued : ℤ)
  refs : queue.refedImmediates =
    (queue.made.countP fun immediate => immediate.queued && immediate.ref : ℤ)

/-- The first immediate that is still queued is taken, if it may run in this turn. -/
structure Takes (before : ImmediateQueue) (number : Nat) (after : ImmediateQueue) : Prop where
  behind : before.first ≤ number
  below : number < before.limit
  waits : before.queued number = true
  skipped : ∀ other, before.first ≤ other → other < number → before.queued other = false
  first : after.first = number + 1
  limit : after.limit = before.limit
  made : after.made.length = before.made.length
  others : ∀ other, after.queued other = (before.queued other && other != number)

/-- None of the immediates that may run in this turn is still queued. -/
structure Exhausts (before after : ImmediateQueue) : Prop where
  idle : ∀ other, other < before.limit → before.queued other = false
  first : after.first = before.limit
  limit : after.limit = before.limit
  made : after.made.length = before.made.length
  others : ∀ other, after.queued other = before.queued other

end ImmediateQueue

namespace EventLoop

structure Kept (loop : EventLoop) : Prop where
  timers : ∃ inside, loop.queue.timers.Kept inside ∧ ∀ id, inside = some id →
    ∃ entry, loop.phase = .callback (.timer entry) ∧ entry.timer = id
  immediates : loop.queue.immediates.Kept
  started : loop.queue.turnStarted ≤ loop.queue.clock
  dated : ∀ fired ∈ loop.fired, fired.1.due ≤ fired.2 ∧ fired.2 ≤ loop.queue.turnStarted
  idle : loop.phase = .running ∨ loop.queue.timersPhase = true →
    loop.queue.immediates.immediateBudget = 0
  calm : loop.phase ≠ .threw
  closed : loop.phase = .running → loop.queue.timersPhase = false

def Reachable : EventLoop → Prop := Relation.ReflTransGen LoopStep .new

/-- The turn has begun in the loop. -/
def begin (loop : EventLoop) : EventLoop :=
  { loop with queue := loop.queue.beginTimers, phase := .turn }

/-- The guest has asked how long it may wait, and a turn starts after this time. -/
def wakes (hostPending : Bool) (elapsed : ℚ) (loop : EventLoop) : EventLoop :=
  let queue := (loop.queue.timerDelay hostPending).2
  { loop with queue := { queue with clock := queue.clock + elapsed } }.begin

/-- This step belongs to a turn. -/
def TurnStep (before after : EventLoop) : Prop := before.phase ≠ .running ∧ LoopStep before after

def TurnRun : EventLoop → EventLoop → Prop := Relation.ReflTransGen TurnStep

end EventLoop

/-- The timer of an entry was cleared, or it was refreshed and is due later. -/
def Withdrawn (queue : TimerQueue) (now : ℚ) (entry : TimerEntry) : Prop :=
  ∃ timer, queue.timers entry.timer = some timer ∧
    (timer.cleared = true ∨ ∃ later, timer.entry = some later ∧ now < later.due)

end TinySandbox.Js
