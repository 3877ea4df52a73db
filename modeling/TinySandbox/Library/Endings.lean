/-
This file gives how calls end.
A call from a state ends well when every value and every error it gives comes with a good state.
A panic is not judged.
-/

import TinySandbox.Library.Call

namespace TinySandbox.Library.Call

universe u

variable {ε σ α β : Type u} {state : σ} {returns : α → σ → Prop} {fails : ε → σ → Prop}
  {holds : σ → Prop}

/-- A value is judged by one condition and an error by another. -/
def Judged (returns : α → σ → Prop) (fails : ε → σ → Prop) : Except ε α → σ → Prop
  | .ok value, after => returns value after
  | .error error, after => fails error after

def EndsAt (returns : α → σ → Prop) (fails : ε → σ → Prop) (call : Call ε σ α) (state : σ) : Prop :=
  ∀ result after, outcome call state = some (result, after) → Judged returns fails result after

/-- From every state that has the property the call keeps it, also when it fails. -/
def Keeps (holds : σ → Prop) (call : Call ε σ α) : Prop :=
  ∀ state, holds state → EndsAt (fun _ => holds) (fun _ => holds) call state

/-- A property of the state holds whatever the result is. -/
theorem Keeps.after {call : Call ε σ α} (keeps : Keeps holds call) (start : holds state)
    {result : Except ε α} {after : σ} (ran : outcome call state = some (result, after)) :
    holds after := by
  have judged := keeps state start result after ran
  cases result <;> exact judged

theorem endsAt_of_outcome {call : Call ε σ α} {result : Except ε α} {after : σ}
    (reached : outcome call state = some (result, after)) (judged : Judged returns fails result after) :
    EndsAt returns fails call state := by
  intro other last ran
  rw [reached] at ran
  obtain ⟨rfl, rfl⟩ := Prod.mk.inj (Option.some.inj ran)
  exact judged

theorem EndsAt.mono {call : Call ε σ α} {returns' : α → σ → Prop} {fails' : ε → σ → Prop}
    (ends : EndsAt returns fails call state) (ok : ∀ value after, returns value after → returns' value after)
    (error : ∀ error after, fails error after → fails' error after) :
    EndsAt returns' fails' call state := by
  intro result after ran
  have judged := ends result after ran
  cases result with
  | ok value => exact ok value after judged
  | error failure => exact error failure after judged

theorem endsAt_pure {value : α} (kept : returns value state) :
    EndsAt returns fails (pure value : Call ε σ α) state :=
  endsAt_of_outcome (outcome_pure value state) kept

theorem endsAt_throw {error : ε} (kept : fails error state) :
    EndsAt returns fails (throw error : Call ε σ α) state :=
  endsAt_of_outcome (outcome_throw error state) kept

theorem endsAt_lift {result : Except ε α} (judged : Judged returns fails result state) :
    EndsAt returns fails (lift result : Call ε σ α) state :=
  endsAt_of_outcome (outcome_lift result state) judged

theorem endsAt_set {next : σ} {returns : PUnit → σ → Prop} (kept : returns ⟨⟩ next) :
    EndsAt returns fails (set next : Call ε σ PUnit) state :=
  endsAt_of_outcome (outcome_set next state) kept

/-- What follows a call can assume what the call returns. -/
theorem EndsAt.bind {call : Call ε σ β} {next : β → Call ε σ α} {middle : β → σ → Prop}
    (first : EndsAt middle fails call state)
    (rest : ∀ value after, middle value after → EndsAt returns fails (next value) after) :
    EndsAt returns fails (call >>= next) state := by
  intro result after ran
  rw [outcome_bind] at ran
  obtain ⟨⟨reached, between⟩, here, ran⟩ := Option.bind_eq_some_iff.mp ran
  have judged := first reached between here
  cases reached with
  | ok value => exact rest value between judged result after ran
  | error error =>
      obtain ⟨rfl, rfl⟩ := Prod.mk.inj (Option.some.inj ran)
      exact judged

/-- A lifted result stops the call or passes its value on. -/
theorem endsAt_lift_bind {result : Except ε β} {next : β → Call ε σ α}
    (error : ∀ error, result = .error error → fails error state)
    (ok : ∀ value, result = .ok value → EndsAt returns fails (next value) state) :
    EndsAt returns fails (lift result >>= next) state := by
  cases result with
  | ok value => exact ok value rfl
  | error failure =>
      exact endsAt_of_outcome (outcome_lift_bind_error failure next state) (error failure rfl)

theorem endsAt_orPanic_bind {value : Option β} {next : β → Call ε σ α}
    (rest : ∀ found, value = some found → EndsAt returns fails (next found) state) :
    EndsAt returns fails (orPanic value >>= next) state := by
  intro result after ran
  rw [outcome_bind, outcome_orPanic] at ran
  cases value with
  | none => cases ran
  | some found => exact rest found rfl result after ran

theorem endsAt_refuse_bind {condition : Prop} [Decidable condition] {error : ε}
    {next : PUnit → Call ε σ α} (refused : condition → fails error state)
    (passed : ¬ condition → EndsAt returns fails (next ⟨⟩) state) :
    EndsAt returns fails (refuse condition error >>= next) state := by
  unfold refuse
  by_cases holds : condition
  · rw [if_pos holds]
    exact endsAt_of_outcome rfl (refused holds)
  · rw [if_neg holds]
    exact passed holds

theorem endsAt_get_bind {next : σ → Call ε σ α} (rest : EndsAt returns fails (next state) state) :
    EndsAt returns fails (get >>= next) state :=
  rest

theorem endsAt_set_bind {stored : σ} {next : PUnit → Call ε σ α}
    (rest : EndsAt returns fails (next ⟨⟩) stored) :
    EndsAt returns fails (set stored >>= next) state :=
  rest

theorem endsAt_ite {condition : Prop} [Decidable condition] {first second : Call ε σ α}
    (left : condition → EndsAt returns fails first state)
    (right : ¬ condition → EndsAt returns fails second state) :
    EndsAt returns fails (if condition then first else second) state := by
  split
  · exact left ‹_›
  · exact right ‹_›

section Keeps
variable {call : Call ε σ β} {next : β → Call ε σ α}

theorem Keeps.map (keeps : Keeps holds call) (image : β → α) : Keeps holds (image <$> call) := by
  intro state start result after ran
  rw [outcome_map] at ran
  obtain ⟨⟨reached, last⟩, here, same⟩ := Option.map_eq_some_iff.mp ran
  obtain ⟨rfl, rfl⟩ := Prod.mk.inj same
  have kept := keeps state start reached last here
  cases reached <;> exact kept

end Keeps

end TinySandbox.Library.Call
