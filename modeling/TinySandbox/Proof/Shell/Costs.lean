/-
This file gives the exact cost of an expansion, so a budget is enough when it covers the cost.
-/

import TinySandbox.Construction.Shell.Expansion

namespace TinySandbox.Shell
open Library

@[simp] theorem utf8Len_append (first second : Text) :
    utf8Len (first ++ second) = utf8Len first + utf8Len second := by
  unfold utf8Len
  rw [List.map_append, List.sum_append]

section Costs
variable {α β : Type} {cost cost' : Nat} {value : α} {result : β}

/-- The expansion takes exactly this many bytes of the budget and fails without them. -/
def Costs (budget : Budget α) (cost : Nat) (value : α) : Prop :=
  ∀ left, budget.run left = if cost ≤ left then some (value, left - cost) else none

theorem Costs.pure (value : α) : Costs (Pure.pure value) 0 value := by
  intro left
  rw [if_pos (Nat.zero_le _)]
  rfl

theorem Costs.charge (bytes : Nat) : Costs (Budget.charge bytes) bytes () := fun _ => rfl

theorem Costs.bind {budget : Budget α} {next : α → Budget β} (first : Costs budget cost value)
    (second : Costs (next value) cost' result) : Costs (budget >>= next) (cost + cost') result := by
  intro left
  rw [StateT.run_bind, first]
  by_cases enough : cost ≤ left
  · rw [if_pos enough, Option.bind_eq_bind, Option.bind_some, second]
    by_cases more : cost' ≤ left - cost
    · rw [if_pos more, if_pos (by omega), Nat.sub_sub]
    · rw [if_neg more, if_neg (by omega)]
  · rw [if_neg enough, if_neg (by omega)]
    rfl

/-- What follows a charge takes its bytes on top. -/
theorem Costs.charged {bytes : Nat} {next : Unit → Budget β} (rest : Costs (next ()) cost result) :
    Costs (Budget.charge bytes >>= next) (bytes + cost) result :=
  (Costs.charge bytes).bind rest

/-- The last step only gives the result. -/
theorem Costs.map {budget : Budget α} (first : Costs budget cost value) (convert : α → β) :
    Costs (budget >>= fun found => Pure.pure (convert found)) cost (convert value) := by
  change Costs _ (cost + 0) _
  apply first.bind
  exact Costs.pure _

/-- Expansions one after the other take the sum of what each takes. -/
theorem Costs.mapM {γ : Type} {step : γ → Budget β} {price : γ → Nat} {output : γ → β}
    {items : List γ} (each : ∀ item ∈ items, Costs (step item) (price item) (output item)) :
    Costs (items.mapM step) (items.map price).sum (items.map output) := by
  induction items with
  | nil => exact Costs.pure []
  | cons item items ih =>
      rw [List.mapM_cons, List.map_cons, List.map_cons, List.sum_cons]
      apply Costs.bind (each item List.mem_cons_self)
      have rest := ih fun other found => each other (List.mem_cons_of_mem _ found)
      exact rest.map _

/-- What a loop takes when each step takes a price. -/
def foldCost {σ γ : Type} (price : σ → γ → Nat) (next : σ → γ → σ) : σ → List γ → Nat
  | _, [] => 0
  | state, item :: items => price state item + foldCost price next (next state item) items

/-- A loop takes what its steps take, and its result is the one of the steps. -/
theorem Costs.foldlM {σ γ : Type} {step : σ → γ → Budget σ} {price : σ → γ → Nat}
    {next : σ → γ → σ} (each : ∀ state item, Costs (step state item) (price state item) (next state item))
    (items : List γ) (state : σ) :
    Costs (items.foldlM step state) (foldCost price next state items) (items.foldl next state) := by
  induction items generalizing state with
  | nil => exact Costs.pure state
  | cons item items ih =>
      rw [List.foldlM_cons, List.foldl_cons]
      exact (each state item).bind (ih (next state item))

end Costs

/-- The bytes that the environment takes. -/
def envCost (entries : List (Text × Text)) : Nat :=
  (entries.map fun entry => 2 * sizeOfString + utf8Len entry.1 + utf8Len entry.2).sum

theorem costs_chargeEnv (entries : List (Text × Text)) :
    Costs (Budget.chargeEnv entries) (envCost entries) () := by
  induction entries with
  | nil => exact Costs.pure ()
  | cons entry entries ih =>
      obtain ⟨name, value⟩ := entry
      unfold envCost
      rw [List.map_cons, List.sum_cons, Nat.add_assoc, Nat.add_assoc]
      apply Costs.charged
      apply Costs.charged
      apply Costs.charged
      exact ih

end TinySandbox.Shell
