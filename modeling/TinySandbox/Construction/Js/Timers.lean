/-
This file gives the timers and the immediates of a guest, and the event loop that runs them.
Times are in milliseconds. The guest may call at any time while one of its functions runs.
-/

import Mathlib.Data.Finset.Card
import Mathlib.Data.Rat.Floor
import TinySandbox.Library.Heaps

namespace TinySandbox.Js
open Library

def timeoutMax : ℚ := 2 ^ 31 - 1

structure TimerEntry where
  timer : Nat
  due : ℚ
  seq : Nat
  deriving DecidableEq

/-- The entry of a timer is the only one of its entries that is live. -/
structure Timer where
  delay : ℚ
  repeats : Bool
  ref : Bool
  cleared : Bool
  entry : Option TimerEntry

/-- A guest names a timer by its handle or by its id. -/
inductive TimerHandle where
  | timeout (id : Nat)
  | number (id : Nat)

def precedes (first second : TimerEntry) : Bool :=
  first.due < second.due || (first.due = second.due && first.seq < second.seq)

/-- Clearing or rescheduling a timer leaves its old entry in the heap. -/
structure TimerQueue where
  timerHeap : List TimerEntry
  timers : Nat → Option Timer
  activeTimers : Finset Nat
  nextTimerId : Nat
  timerSeq : Nat
  refedTimers : Int

namespace TimerQueue

def new : TimerQueue where
  timerHeap := []
  timers := fun _ => none
  activeTimers := ∅
  nextTimerId := 1
  timerSeq := 0
  refedTimers := 0

def entryOf (queue : TimerQueue) (id : Nat) : Option TimerEntry :=
  (queue.timers id).bind Timer.entry

def live (queue : TimerQueue) (entry : TimerEntry) : Bool :=
  queue.entryOf entry.timer = some entry

def setTimer (id : Nat) (timer : Timer) (queue : TimerQueue) : TimerQueue :=
  { queue with timers := Function.update queue.timers id (some timer) }

def nextTimer (queue : TimerQueue) : Option TimerEntry × TimerQueue :=
  let timerHeap := Heap.settle precedes queue.live queue.timerHeap
  (timerHeap.head?, { queue with timerHeap })

def heapPop (queue : TimerQueue) : TimerQueue :=
  { queue with timerHeap := Heap.pop precedes queue.timerHeap }

def activate (id : Nat) (timer : Timer) (queue : TimerQueue) : TimerQueue :=
  if id ∈ queue.activeTimers then queue
  else
    { queue with
      activeTimers := insert id queue.activeTimers
      refedTimers := queue.refedTimers + if timer.ref then 1 else 0 }

/-- Stale entries are dropped once they outnumber the live ones. -/
def dropStale (queue : TimerQueue) : TimerQueue :=
  if 64 < queue.timerHeap.length ∧ 2 * queue.activeTimers.card < queue.timerHeap.length then
    { queue with
      timerHeap := (queue.timerHeap.filter queue.live).mergeSort
        fun first second => !precedes second first }
  else queue

/-- The timer gets a new entry. -/
def enter (entry : TimerEntry) (timer : Timer) (queue : TimerQueue) : TimerQueue :=
  { (queue.activate entry.timer timer).setTimer entry.timer { timer with entry := some entry } with
    timerSeq := queue.timerSeq + 1
    timerHeap := Heap.push precedes entry queue.timerHeap }

def schedule (id : Nat) (start : ℚ) (queue : TimerQueue) : TimerQueue :=
  match queue.timers id with
  | none => queue
  | some timer =>
      (queue.enter { timer := id, due := start + timer.delay, seq := queue.timerSeq }
        timer).dropStale

def unschedule (id : Nat) (queue : TimerQueue) : TimerQueue :=
  match queue.timers id with
  | none => queue
  | some timer =>
      if id ∈ queue.activeTimers then
        { queue with
          activeTimers := queue.activeTimers.erase id
          refedTimers := queue.refedTimers - if timer.ref then 1 else 0 }.setTimer id
            { timer with entry := none }
      else queue

def setTimerRef (id : Nat) (ref : Bool) (queue : TimerQueue) : TimerQueue :=
  match queue.timers id with
  | none => queue
  | some timer =>
      let refedTimers :=
        if timer.ref ≠ ref ∧ id ∈ queue.activeTimers then
          queue.refedTimers + if ref then 1 else -1
        else queue.refedTimers
      { queue with refedTimers }.setTimer id { timer with ref }

/-- A delay that is not a finite number is like one that is out of bounds. -/
def coerceDelay : Option ℚ → ℚ
  | some delay => if 1 ≤ delay ∧ delay ≤ timeoutMax then delay else 1
  | none => 1

/-- A callback that is no function takes an id and then throws. -/
def startTimer (callable : Bool) (delay : Option ℚ) (repeats : Bool) (clock : ℚ)
    (queue : TimerQueue) : Option Nat × TimerQueue :=
  let id := queue.nextTimerId
  let queue := { queue with nextTimerId := id + 1 }
  if callable then
    let timer : Timer :=
      { delay := coerceDelay delay, repeats, ref := true, cleared := false, entry := none }
    (some id, (queue.setTimer id timer).schedule id clock)
  else (none, queue)

def refresh (id : Nat) (clock : ℚ) (queue : TimerQueue) : TimerQueue :=
  match queue.timers id with
  | none => queue
  | some timer => if timer.cleared then queue else queue.schedule id clock

/-- Only an active timer is found by its id. -/
def find (queue : TimerQueue) : TimerHandle → Option Nat
  | .timeout id => some id
  | .number id => if id ∈ queue.activeTimers then some id else none

def clearTimer (handle : TimerHandle) (queue : TimerQueue) : TimerQueue :=
  match queue.find handle with
  | none => queue
  | some id =>
      match queue.timers id with
      | none => queue
      | some timer => (queue.setTimer id { timer with cleared := true }).unschedule id

/-- A timer that fires loses its entry, and only an interval stays active. -/
def fire (entry : TimerEntry) (queue : TimerQueue) : TimerQueue :=
  let queue := queue.heapPop
  match queue.timers entry.timer with
  | none => queue
  | some timer =>
      if timer.repeats then queue.setTimer entry.timer { timer with entry := none }
      else queue.unschedule entry.timer

/-- An interval starts again unless its callback cleared or refreshed it. -/
def repeatTimer (id : Nat) (turnStarted : ℚ) (queue : TimerQueue) : TimerQueue :=
  match queue.timers id with
  | none => queue
  | some timer =>
      if timer.repeats ∧ timer.entry = none ∧ id ∈ queue.activeTimers then
        queue.schedule id turnStarted
      else queue

end TimerQueue

structure Immediate where
  ref : Bool
  queued : Bool

/-- Immediates are numbered in the order in which they were made. A place of the list is emptied
when its immediate is taken. -/
structure ImmediateQueue where
  immediates : List (Option Nat)
  immediateHead : Nat
  immediateBudget : Nat
  made : List Immediate
  queuedImmediates : Int
  refedImmediates : Int

/-- A step of the loop runs a callback, finds none, or throws on an empty place. -/
inductive Ran (α : Type) where
  | callback (name : α)
  | nothing
  | throws

namespace ImmediateQueue

def new : ImmediateQueue where
  immediates := []
  immediateHead := 0
  immediateBudget := 0
  made := []
  queuedImmediates := 0
  refedImmediates := 0

def setImmediateRef (number : Nat) (ref : Bool) (queue : ImmediateQueue) : ImmediateQueue :=
  match queue.made[number]? with
  | none => queue
  | some immediate =>
      { queue with
        made := queue.made.set number { immediate with ref }
        refedImmediates :=
          if immediate.ref ≠ ref ∧ immediate.queued then
            queue.refedImmediates + if ref then 1 else -1
          else queue.refedImmediates }

def dequeueImmediate (number : Nat) (queue : ImmediateQueue) : ImmediateQueue :=
  match queue.made[number]? with
  | none => queue
  | some immediate =>
      if immediate.queued then
        { queue with
          made := queue.made.set number { immediate with queued := false }
          queuedImmediates := queue.queuedImmediates - 1
          refedImmediates := queue.refedImmediates - if immediate.ref then 1 else 0 }
      else queue

def setImmediate (callable : Bool) (queue : ImmediateQueue) : Option Nat × ImmediateQueue :=
  if callable then
    (some queue.made.length,
      { queue with
        made := queue.made ++ [{ ref := true, queued := true }]
        immediates := queue.immediates ++ [some queue.made.length]
        queuedImmediates := queue.queuedImmediates + 1
        refedImmediates := queue.refedImmediates + 1 })
  else (none, queue)

def begin (queue : ImmediateQueue) : ImmediateQueue :=
  { queue with immediates := queue.immediates.drop queue.immediateHead, immediateHead := 0 }

/-- The immediates queued so far are those that may still run in this turn. -/
def budget (queue : ImmediateQueue) : ImmediateQueue :=
  { queue with immediateBudget := queue.immediates.length - queue.immediateHead }

def take (queue : ImmediateQueue) : ImmediateQueue :=
  { queue with
    immediateBudget := queue.immediateBudget - 1
    immediates := queue.immediates.set queue.immediateHead none
    immediateHead := queue.immediateHead + 1 }

/-- An immediate that was cleared is skipped. -/
def runImmediates : Nat → ImmediateQueue → Ran Nat × ImmediateQueue
  | 0, queue => (.nothing, queue)
  | budget + 1, queue =>
      match queue.immediates[queue.immediateHead]? with
      | some (some number) =>
          match queue.made[number]? with
          | some immediate =>
              if immediate.queued then (.callback number, queue.take.dequeueImmediate number)
              else runImmediates budget queue.take
          | none => (.throws, queue.take)
      | _ => (.throws, queue.take)

end ImmediateQueue

inductive Callback where
  | timer (entry : TimerEntry)
  | immediate (number : Nat)

/-- The clock is the one that the guest reads, and it never runs back. -/
structure EventQueue where
  timers : TimerQueue
  immediates : ImmediateQueue
  clock : ℚ
  turnStarted : ℚ
  timersPhase : Bool

namespace EventQueue

def new : EventQueue where
  timers := .new
  immediates := .new
  clock := 0
  turnStarted := 0
  timersPhase := false

/-- The guest may wait for this long, and not at all when nothing keeps the loop alive. -/
def timerDelay (hostPending : Bool) (queue : EventQueue) : Int × EventQueue :=
  if !hostPending && queue.timers.refedTimers = 0 && queue.immediates.refedImmediates = 0 then
    (-1, queue)
  else if 0 < queue.immediates.queuedImmediates then (0, queue)
  else
    let (entry, timers) := queue.timers.nextTimer
    (match entry with
      | none => -1
      | some entry => max 0 ⌈entry.due - queue.clock⌉, { queue with timers })

def beginTimers (queue : EventQueue) : EventQueue :=
  { queue with
    immediates := queue.immediates.begin
    turnStarted := queue.clock
    timersPhase := true }

def runImmediates (queue : EventQueue) : Ran Callback × EventQueue :=
  let (ran, immediates) := queue.immediates.runImmediates queue.immediates.immediateBudget
  (match ran with
    | .callback number => .callback (.immediate number)
    | .nothing => .nothing
    | .throws => .throws, { queue with immediates })

def endTimers (queue : EventQueue) : EventQueue :=
  { queue with timersPhase := false, immediates := queue.immediates.budget }

/-- The callback itself runs afterwards. -/
def runTimer (queue : EventQueue) : Ran Callback × EventQueue :=
  if queue.timersPhase then
    let (entry, timers) := queue.timers.nextTimer
    match entry.filter fun entry => entry.due ≤ queue.turnStarted with
    | some entry => (.callback (.timer entry), { queue with timers := timers.fire entry })
    | none => { queue with timers }.endTimers.runImmediates
  else queue.runImmediates

def afterCallback (callback : Callback) (queue : EventQueue) : EventQueue :=
  match callback with
  | .timer entry =>
      { queue with timers := queue.timers.repeatTimer entry.timer queue.turnStarted }
  | .immediate _ => queue

end EventQueue

/-- These are the calls by which a guest uses timers and immediates. -/
inductive TimerCall where
  | startTimer (callable : Bool) (delay : Option ℚ) (repeats : Bool)
  | setTimerRef (id : Nat) (ref : Bool)
  | refresh (id : Nat)
  | clearTimer (handle : TimerHandle)
  | setImmediate (callable : Bool)
  | setImmediateRef (number : Nat) (ref : Bool)
  | clearImmediate (number : Nat)

def TimerCall.run (queue : EventQueue) : TimerCall → EventQueue
  | .startTimer callable delay repeats =>
      { queue with
        timers := (queue.timers.startTimer callable delay repeats queue.clock).2 }
  | .setTimerRef id ref => { queue with timers := queue.timers.setTimerRef id ref }
  | .refresh id => { queue with timers := queue.timers.refresh id queue.clock }
  | .clearTimer handle => { queue with timers := queue.timers.clearTimer handle }
  | .setImmediate callable =>
      { queue with immediates := (queue.immediates.setImmediate callable).2 }
  | .setImmediateRef number ref =>
      { queue with immediates := queue.immediates.setImmediateRef number ref }
  | .clearImmediate number =>
      { queue with immediates := queue.immediates.dequeueImmediate number }

/-- These immediates are cleared by the call. -/
def TimerCall.dropped : TimerCall → List Nat
  | .clearImmediate number => [number]
  | _ => []

/-- The guest runs outside a turn, or inside one in a callback or in the jobs behind it. -/
inductive LoopPhase where
  | running
  | turn
  | callback (name : Callback)
  | jobs
  | threw

def LoopPhase.guestRuns : LoopPhase → Bool
  | .running | .callback _ | .jobs => true
  | .turn | .threw => false

/-- The last three fields record what has happened. The entries that fired carry the time at which
their turn started. -/
structure EventLoop where
  queue : EventQueue
  phase : LoopPhase
  fired : List (TimerEntry × ℚ)
  ran : List Nat
  dropped : List Nat

namespace EventLoop

def new : EventLoop where
  queue := .new
  phase := .running
  fired := []
  ran := []
  dropped := []

/-- One step of a turn runs one callback or ends the turn. -/
def run (loop : EventLoop) : EventLoop :=
  let (ran, queue) := loop.queue.runTimer
  match ran with
  | .callback (.timer entry) =>
      { loop with
        queue
        phase := .callback (.timer entry)
        fired := loop.fired ++ [(entry, loop.queue.turnStarted)] }
  | .callback (.immediate number) =>
      { loop with queue, phase := .callback (.immediate number), ran := loop.ran ++ [number] }
  | .nothing => { loop with queue, phase := .running }
  | .throws => { loop with queue, phase := .threw }

end EventLoop

/-- Time passes and the guest calls in any order, and a turn may start whenever none is on. -/
inductive LoopStep (loop : EventLoop) : EventLoop → Prop
  | calls (call : TimerCall) (guest : loop.phase.guestRuns = true) :
      LoopStep loop
        { loop with queue := call.run loop.queue, dropped := loop.dropped ++ call.dropped }
  | passes (elapsed : ℚ) (forward : 0 ≤ elapsed) :
      LoopStep loop { loop with queue.clock := loop.queue.clock + elapsed }
  | asks (hostPending : Bool) (running : loop.phase = .running) :
      LoopStep loop { loop with queue := (loop.queue.timerDelay hostPending).2 }
  | begins (running : loop.phase = .running) :
      LoopStep loop { loop with queue := loop.queue.beginTimers, phase := .turn }
  | runs (turn : loop.phase = .turn) : LoopStep loop loop.run
  | returns (callback : Callback) (inside : loop.phase = .callback callback) :
      LoopStep loop { loop with queue := loop.queue.afterCallback callback, phase := .jobs }
  | drains (jobs : loop.phase = .jobs) : LoopStep loop { loop with phase := .turn }

end TinySandbox.Js
