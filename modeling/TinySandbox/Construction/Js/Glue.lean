/-
This file gives the slots in which the guest shim keeps the calls that the host answers later, and the
queue in which promised filesystem calls wait for a slot.
Promise jobs run in any order, and the guest may call at any time.
-/

import Mathlib.Data.List.Basic

namespace TinySandbox.Js

def maxPending : Nat := 64

/-- A call without a slot must be answered before it returns. -/
inductive CallId where
  | slot (index : Nat)
  | noSlot
  | inline
  deriving DecidableEq

inductive HostAnswer where
  | inline
  | deferred
  deriving DecidableEq

/-- The guest reads a response, gets a promise, or sees an exception. -/
inductive CallResult where
  | response
  | promise (number : Nat)
  | limitExceeded
  deriving DecidableEq

/-- A slot in use holds the promise of a call, which is the number of the call. -/
structure Shim where
  pending : List (Option Nat)
  pendingCount : Int
  deriving DecidableEq

namespace Shim

def new : Shim where
  pending := List.replicate maxPending none
  pendingCount := 0

def reserveSlot (shim : Shim) : CallId :=
  match shim.pending.findIdx? Option.isNone with
  | some index => .slot index
  | none => .noSlot

/-- Only a caller that awaits the answer gets a slot. -/
def callId (shim : Shim) (deferrable : Bool) : CallId :=
  if deferrable then shim.reserveSlot else .inline

/-- This is the rest of a host call once the host has answered. -/
def hostCall (shim : Shim) (callId : CallId) (number : Nat) : HostAnswer → CallResult × Shim
  | .inline => (.response, shim)
  | .deferred =>
      match callId with
      | .slot index =>
          (.promise number,
            { pending := shim.pending.set index (some number)
              pendingCount := shim.pendingCount + 1 })
      | _ => (.limitExceeded, shim)

/-- A slot that is not in use has no promise to settle. -/
def resolve (shim : Shim) (index : Nat) : Option (Nat × Shim) :=
  match shim.pending[index]? with
  | some (some promise) =>
      some (promise,
        { pending := shim.pending.set index none, pendingCount := shim.pendingCount - 1 })
  | _ => none

end Shim

def maxDeferred : Nat := 64

/-- A call of `callAsync` has a number, and it waits, waits no more, or was issued.
The flag of an issued call tells whether the shim had a slot for it. -/
structure Glue where
  shim : Shim
  hostCalls : Nat
  asyncCalls : Nat
  deferredCount : Int
  slotWaiters : List Nat
  woken : List Nat
  releases : Nat
  issued : List (Nat × Bool)
  deriving DecidableEq

namespace Glue

def new : Glue where
  shim := .new
  hostCalls := 0
  asyncCalls := 0
  deferredCount := 0
  slotWaiters := []
  woken := []
  releases := 0
  issued := []

/-- The host may defer an answer only for a call that has a slot. -/
def hostCall (deferred : Bool) (glue : Glue) : CallResult × Glue :=
  let callId := glue.shim.callId true
  let answer :=
    match callId with
    | .slot _ => if deferred then HostAnswer.deferred else .inline
    | _ => .inline
  let (result, shim) := glue.shim.hostCall callId glue.hostCalls answer
  (result, { glue with shim, hostCalls := glue.hostCalls + 1 })

/-- The promise of a deferred answer counts until its release job has run. -/
def holdSlot (result : CallResult) (glue : Glue) : Glue :=
  match result with
  | .promise _ => { glue with deferredCount := glue.deferredCount + 1 }
  | _ => glue

def hasSlot (glue : Glue) : Bool :=
  match glue.shim.reserveSlot with
  | .slot _ => true
  | _ => false

def callAsync (deferred : Bool) (number : Nat) (glue : Glue) : Glue :=
  if (maxDeferred : Int) ≤ glue.deferredCount then
    { glue with slotWaiters := glue.slotWaiters ++ [number] }
  else
    let (result, called) := glue.hostCall deferred
    { called.holdSlot result with issued := called.issued ++ [(number, glue.hasSlot)] }

def callGlobal (deferred : Bool) (glue : Glue) : Glue :=
  let (result, called) := glue.hostCall deferred
  called.holdSlot result

/-- The host settles a promise, and then its release job can run. -/
def resolve (index : Nat) (glue : Glue) : Option Glue :=
  (glue.shim.resolve index).map fun settled =>
    { glue with shim := settled.2, releases := glue.releases + 1 }

def release (glue : Glue) : Glue :=
  match glue.slotWaiters with
  | [] => { glue with deferredCount := glue.deferredCount - 1, releases := glue.releases - 1 }
  | next :: later =>
      { glue with
        deferredCount := glue.deferredCount - 1
        releases := glue.releases - 1
        slotWaiters := later
        woken := glue.woken ++ [next] }

end Glue

/-- The flag is the choice of the host between a deferred answer and an inline one. -/
inductive GlueAction where
  | callAsync (deferred : Bool)
  | callGlobal (deferred : Bool)
  | resolve (index : Nat)
  | release
  | resume (number : Nat) (deferred : Bool)
  deriving DecidableEq

/-- Some actions are not possible: there may be nothing to settle, to release or to resume. -/
def GlueAction.run (glue : Glue) : GlueAction → Option Glue
  | .callAsync deferred =>
      some ({ glue with asyncCalls := glue.asyncCalls + 1 }.callAsync deferred glue.asyncCalls)
  | .callGlobal deferred => some (glue.callGlobal deferred)
  | .resolve index => glue.resolve index
  | .release => if 0 < glue.releases then some glue.release else none
  | .resume number deferred =>
      if number ∈ glue.woken then
        some ({ glue with woken := glue.woken.erase number }.callAsync deferred number)
      else none

def runGlue (glue : Glue) (actions : List GlueAction) : Option Glue :=
  actions.foldlM (fun current action => action.run current) glue

/-- No job is left and no answer is outstanding. -/
def Glue.Quiescent (glue : Glue) : Prop :=
  glue.woken = [] ∧ glue.releases = 0 ∧ glue.shim.pendingCount = 0

end TinySandbox.Js
