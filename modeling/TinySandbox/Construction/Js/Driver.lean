/-
This file gives the driver that answers the host calls of a guest.
The guest and the driver take turns, and the promises of the host settle at any time.
-/

import Mathlib.Logic.Relation
import TinySandbox.Construction.Js.Glue
import TinySandbox.Library.OrderedMap

namespace TinySandbox.Js
open Library

/-- A deferred entry is the promise of a call, and the staged response is that of a call. -/
structure Driver where
  deferred : OrderedMap Nat Nat
  staged : Option Nat

def Driver.new : Driver where
  deferred := ∅
  staged := none

/-- A call without a slot is answered inline, whatever its handler would return. -/
def Driver.hostCall (driver : Driver) (callId : CallId) (number : Nat) (thenable : Bool) :
    HostAnswer × Driver :=
  match callId with
  | .slot index =>
      if thenable then (.deferred, { driver with deferred := driver.deferred.insert index number })
      else (.inline, { driver with staged := some number })
  | _ => (.inline, { driver with staged := some number })

inductive Phase where
  | running
  | suspended (delay : Int)
  | ended
  | waitsForNothing
  | unusedSlot
  deriving DecidableEq

/-- The settlements are those of the host's promises, and the deliveries are pairs of a promise of
the guest and the call whose response it got. -/
structure Session where
  shim : Shim
  driver : Driver
  calls : Nat
  settled : List Nat
  delivered : List (Nat × Option Nat)
  phase : Phase

namespace Session

def new : Session where
  shim := .new
  driver := .new
  calls := 0
  settled := []
  delivered := []
  phase := .running

def hostCall (deferrable thenable : Bool) (session : Session) : CallResult × Session :=
  let callId := session.shim.callId deferrable
  let (answer, driver) := session.driver.hostCall callId session.calls thenable
  let (result, shim) := session.shim.hostCall callId session.calls answer
  (result, { session with shim, driver, calls := session.calls + 1 })

/-- The guest parks while it waits for the host or for a timer that is not due. -/
def settle (delay : Int) (session : Session) : Session :=
  if 0 < session.shim.pendingCount ∨ 0 < delay then { session with phase := .suspended delay }
  else { session with phase := if delay < 0 then .ended else .running }

/-- The driver refuses to wait for nothing. -/
def checkWait (delay : Int) (session : Session) : Option Session :=
  if session.driver.deferred.size = 0 ∧ delay < 0 then
    some { session with phase := .waitsForNothing }
  else none

/-- The response is staged before the guest settles its promise with it. -/
def resolve (index number : Nat) (session : Session) : Session :=
  let driver : Driver :=
    { deferred := session.driver.deferred.erase index, staged := some number }
  match session.shim.resolve index with
  | none => { session with driver, phase := .unusedSlot }
  | some (promise, shim) =>
      { session with
        shim
        driver
        delivered := session.delivered ++ [(promise, driver.staged)]
        phase := .running }

end Session

/-- A run of the guest is a sequence of calls, and the winner of a race is any settled promise. -/
inductive SessionStep (session : Session) : Session → Prop
  | calls (deferrable thenable : Bool) (running : session.phase = .running) :
      SessionStep session (session.hostCall deferrable thenable).2
  | parks (delay : Int) (running : session.phase = .running) :
      SessionStep session (session.settle delay)
  | exits (running : session.phase = .running) :
      SessionStep session { session with phase := .ended }
  | settles (index number : Nat) (outstanding : session.driver.deferred.get index = some number)
      (pending : number ∉ session.settled) :
      SessionStep session { session with settled := number :: session.settled }
  | refuses (delay : Int) (refused : Session) (parked : session.phase = .suspended delay)
      (nothing : session.checkWait delay = some refused) : SessionStep session refused
  | wakes (delay : Int) (parked : session.phase = .suspended delay)
      (waits : session.checkWait delay = none) (timer : 0 ≤ delay) :
      SessionStep session { session with phase := .running }
  | resolves (delay : Int) (index number : Nat) (parked : session.phase = .suspended delay)
      (waits : session.checkWait delay = none)
      (deferred : session.driver.deferred.get index = some number)
      (settled : number ∈ session.settled) :
      SessionStep session (session.resolve index number)
  | expires (delay : Int) (parked : session.phase = .suspended delay) :
      SessionStep session { session with phase := .ended }

end TinySandbox.Js
