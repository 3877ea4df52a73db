/-
This file gives the repetition of a grammar rule.
A piece is a list of symbols together with the value that the rule gives it.
-/

import Mathlib.Tactic

namespace TinySandbox.Library

universe u v

variable {κ : Type u} {α : Type v}

/-- The symbols are the pieces of the values, one after the other. -/
inductive Repeated (piece : List κ → α → Prop) : List κ → List α → Prop where
  | nil : Repeated piece [] []
  | cons {first rest : List κ} {value : α} {values : List α} (here : piece first value)
      (later : Repeated piece rest values) : Repeated piece (first ++ rest) (value :: values)

namespace Repeated

variable {piece : List κ → α → Prop}

theorem append {first second : List κ} {left right : List α} (before : Repeated piece first left)
    (after : Repeated piece second right) :
    Repeated piece (first ++ second) (left ++ right) := by
  induction before with
  | nil => exact after
  | cons here later ih =>
      rw [List.append_assoc, List.cons_append]
      exact .cons here ih

theorem single {symbols : List κ} {value : α} (here : piece symbols value) :
    Repeated piece symbols [value] := by
  have one := cons here nil
  rwa [List.append_nil] at one

theorem snoc {first last : List κ} {values : List α} {value : α}
    (before : Repeated piece first values) (here : piece last value) :
    Repeated piece (first ++ last) (values ++ [value]) :=
  before.append (single here)

end Repeated

end TinySandbox.Library
