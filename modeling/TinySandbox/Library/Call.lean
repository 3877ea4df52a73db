/-
This file gives calls that change a state, fail with an error, or panic.
A failing call keeps the changes it made before the failure. A panic has no outcome.
-/

import Mathlib.Tactic

namespace TinySandbox.Library

universe u

/-- A call runs on a state, and an error does not undo the state. -/
abbrev Call (ε σ : Type u) : Type u → Type u := ExceptT ε (StateT σ Option)

namespace Call

variable {ε σ α β : Type u}

/-- The outcome of a call is its result and the state it leaves, unless it panics. -/
def outcome (call : Call ε σ α) (state : σ) : Option (Except ε α × σ) :=
  (ExceptT.run call).run state

/-- This call returns a result that was computed without the state. -/
def lift (result : Except ε α) : Call ε σ α := ExceptT.mk (pure result)

/-- This call panics when the value is missing. -/
def orPanic (value : Option α) : Call ε σ α :=
  ExceptT.mk (StateT.mk fun state => value.map fun found => (.ok found, state))

/-- This call fails when the condition holds. -/
def refuse (condition : Prop) [Decidable condition] (error : ε) : Call ε σ PUnit :=
  if condition then throw error else pure ⟨⟩

/-- A missing value becomes the given error. -/
def okOr (error : ε) : Option α → Except ε α
  | some value => .ok value
  | none => .error error

@[simp] theorem okOr_some (error : ε) (value : α) : okOr error (some value) = .ok value := rfl

@[simp] theorem okOr_none (error : ε) : okOr error (none : Option α) = .error error := rfl

/-- A sequence of results succeeds exactly when both steps do. -/
theorem bind_eq_ok_iff {first : Except ε α} {next : α → Except ε β} {result : β} :
    first >>= next = .ok result ↔ ∃ value, first = .ok value ∧ next value = .ok result := by
  cases first with
  | error error => simp [bind, Except.bind]
  | ok value => simp [bind, Except.bind]

theorem map_eq_ok_iff {first : Except ε α} {image : α → β} {result : β} :
    first.map image = .ok result ↔ ∃ value, first = .ok value ∧ image value = result := by
  cases first with
  | error error => simp [Except.map]
  | ok value => simp [Except.map]

/-- A refused result succeeds exactly when the refusal does not apply. -/
theorem ite_error_eq_ok_iff {condition : Prop} {_ : Decidable condition} {error : ε}
    {otherwise : Except ε α} {result : α} :
    (if condition then .error error else otherwise) = .ok result ↔
      ¬ condition ∧ otherwise = .ok result := by
  by_cases holds : condition
  · simp [holds]
  · simp [holds]

theorem ite_eq_ok_iff_of_error {condition : Prop} {_ : Decidable condition} {error : ε}
    {wanted : Except ε α} {result : α} :
    (if condition then wanted else .error error) = .ok result ↔
      condition ∧ wanted = .ok result := by
  by_cases holds : condition
  · simp [holds]
  · simp [holds]

@[simp] theorem outcome_pure (value : α) (state : σ) :
    outcome (pure value : Call ε σ α) state = some (.ok value, state) := rfl

@[simp] theorem outcome_throw (error : ε) (state : σ) :
    outcome (throw error : Call ε σ α) state = some (.error error, state) := rfl

@[simp] theorem outcome_get (state : σ) :
    outcome (get : Call ε σ σ) state = some (.ok state, state) := rfl

@[simp] theorem outcome_set (next state : σ) :
    outcome (set next : Call ε σ PUnit) state = some (.ok ⟨⟩, next) := rfl

@[simp] theorem outcome_lift (result : Except ε α) (state : σ) :
    outcome (lift result : Call ε σ α) state = some (result, state) := rfl

@[simp] theorem outcome_orPanic (value : Option α) (state : σ) :
    outcome (orPanic value : Call ε σ α) state = value.map fun found => (.ok found, state) := rfl

@[simp] theorem outcome_refuse (condition : Prop) [Decidable condition] (error : ε) (state : σ) :
    outcome (refuse condition error : Call ε σ PUnit) state =
      some (if condition then .error error else .ok ⟨⟩, state) := by
  unfold refuse
  split <;> rfl

/-- A sequence stops at the first error and keeps the state reached there. -/
theorem outcome_bind (call : Call ε σ α) (next : α → Call ε σ β) (state : σ) :
    outcome (call >>= next) state =
      (outcome call state).bind fun reached =>
        match reached.1 with
        | .ok value => outcome (next value) reached.2
        | .error error => some (.error error, reached.2) := by
  change (outcome call state).bind _ = _
  congr 1
  funext reached
  rcases reached with ⟨result, after⟩
  cases result <;> rfl

/-- A mapped call changes only its value. -/
theorem outcome_map (call : Call ε σ α) (image : α → β) (state : σ) :
    outcome (image <$> call) state =
      (outcome call state).map fun reached => (reached.1.map image, reached.2) := by
  change (outcome call state).bind _ = _
  rw [Option.map_eq_bind]
  congr 1
  funext reached
  rcases reached with ⟨result, after⟩
  cases result <;> rfl

theorem outcome_ite (condition : Prop) [Decidable condition] (first second : Call ε σ α)
    (state : σ) :
    outcome (if condition then first else second) state =
      if condition then outcome first state else outcome second state := by
  split <;> rfl

/-- A stored state is the state of what follows. -/
theorem outcome_set_bind (next state : σ) (rest : PUnit → Call ε σ β) :
    outcome (set next >>= rest) state = outcome (rest ⟨⟩) next := rfl

/-- A lifted success continues with its value. -/
theorem outcome_lift_bind_ok (value : α) (next : α → Call ε σ β) (state : σ) :
    outcome (lift (.ok value) >>= next) state = outcome (next value) state := rfl

/-- A lifted failure ends the call with the state unchanged. -/
theorem outcome_lift_bind_error (error : ε) (next : α → Call ε σ β) (state : σ) :
    outcome (lift (.error error) >>= next) state = some (.error error, state) := rfl

end Call

end TinySandbox.Library
