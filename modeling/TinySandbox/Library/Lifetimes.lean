/-
This file follows things that begin and end, such as open handles, through a log of events.
A thing that has ended may begin again.
-/

import Mathlib.Data.List.Basic

namespace TinySandbox.Library

universe u

inductive Mark where
  | begins
  | ends
  deriving DecidableEq

/-- Only what is not alive begins, and only what is alive ends. -/
def Mark.turn : Bool → Mark → Option Bool
  | false, .begins => some true
  | true, .ends => some false
  | _, _ => none

/-- The result tells whether the thing is alive, and there is none when a beginning or an end is
out of turn. -/
def lifetime {ε : Type u} (mark : ε → Option Mark) (log : List ε) : Option Bool :=
  (log.filterMap mark).foldlM Mark.turn false

section Lifetimes
variable {ε : Type u} {mark : ε → Option Mark} {log : List ε} {event : ε}

@[simp] theorem lifetime_nil : lifetime mark [] = some false := rfl

theorem lifetime_append (later : List ε) :
    lifetime mark (log ++ later) =
      (lifetime mark log).bind fun alive => (later.filterMap mark).foldlM Mark.turn alive := by
  unfold lifetime
  rw [List.filterMap_append, List.foldlM_append]
  rfl

/-- An event about other things changes nothing. -/
theorem lifetime_other (other : mark event = none) :
    lifetime mark (log ++ [event]) = lifetime mark log := by
  rw [lifetime_append, List.filterMap_cons_none other]
  cases lifetime mark log with
  | none => rfl
  | some alive => rfl

theorem lifetime_begins (begins : mark event = some .begins) (gone : lifetime mark log = some false) :
    lifetime mark (log ++ [event]) = some true := by
  rw [lifetime_append, List.filterMap_cons_some begins, gone]
  rfl

theorem lifetime_ends (ends : mark event = some .ends) (alive : lifetime mark log = some true) :
    lifetime mark (log ++ [event]) = some false := by
  rw [lifetime_append, List.filterMap_cons_some ends, alive]
  rfl

end Lifetimes

end TinySandbox.Library
