/-
This file compares two tasks. They agree on a state when they are the same program there.
-/

import TinySandbox.Library.Program

namespace TinySandbox.Library

variable {Req : Type} {Resp : Req → Type} {ε σ τ α β : Type}

/-- A sequence only depends on how it goes on behind the values that a run can reach. -/
theorem Program.bind_eq_on_runs {program : Program Req Resp α} {next other : α → Program Req Resp β}
    (same : ∀ events value, program.Runs events value → next value = other value) :
    program >>= next = program >>= other := by
  change program.bind next = program.bind other
  induction program with
  | pure value => exact same [] value ⟨rfl, rfl⟩
  | stuck => rfl
  | call request rest ih =>
      refine congrArg (Program.call request) (funext fun response => ih response ?_)
      intro events value runs
      exact same (⟨request, response⟩ :: events) value ⟨response, events, rfl, runs⟩

namespace Task

/-- The tasks send the same requests and end alike, whatever the responses are. -/
def Agrees (task other : Task Req Resp ε σ α) (state : σ) : Prop :=
  task.exec state = other.exec state

variable {task other : Task Req Resp ε σ α} {state : σ}

theorem Agrees.refl (task : Task Req Resp ε σ α) (state : σ) : Agrees task task state := rfl

/-- Sequences agree when what follows agrees wherever the first part can end. -/
theorem Agrees.bind {next rest : α → Task Req Resp ε σ β} {log : List (Event Req Resp)}
    {middle : α → σ → List (Event Req Resp) → Prop} {fails : ε → σ → List (Event Req Resp) → Prop}
    (agrees : Agrees task other state) (wp : Wp task state log middle fails)
    (follows : ∀ value after log, middle value after log → Agrees (next value) (rest value) after) :
    Agrees (task >>= next) (other >>= rest) state := by
  unfold Agrees at agrees ⊢
  rw [exec_bind, exec_bind, ← agrees]
  refine Program.bind_eq_on_runs ?_
  rintro events ⟨result, after⟩ runs
  cases result with
  | error error => rfl
  | ok value => exact follows value after _ (wp.ok runs)

theorem Agrees.get_bind {next rest : σ → Task Req Resp ε σ β}
    (agrees : Agrees (next state) (rest state) state) :
    Agrees (get >>= next) (get >>= rest) state := agrees

theorem Agrees.set_bind {stored : σ} {next rest : PUnit → Task Req Resp ε σ β}
    (agrees : Agrees (next ⟨⟩) (rest ⟨⟩) stored) :
    Agrees (set stored >>= next) (set stored >>= rest) state := agrees

theorem Agrees.map {image : α → β} (agrees : Agrees task other state) :
    Agrees (image <$> task) (image <$> other) state := by
  rw [map_eq_pure_bind, map_eq_pure_bind]
  unfold Agrees at agrees ⊢
  rw [exec_bind, exec_bind, agrees]

theorem Agrees.attempt (agrees : Agrees task other state) :
    Agrees (attempt task) (attempt other) state := by
  unfold Agrees at agrees
  change (task.exec state >>= _) = other.exec state >>= _
  rw [agrees]

theorem Agrees.focus {part : τ} {store : τ → σ} {task other : Task Req Resp ε τ α}
    (agrees : Agrees task other part) : Agrees (focus part store task) (focus part store other) state := by
  unfold Agrees at agrees
  change (task.exec part >>= _) = other.exec part >>= _
  rw [agrees]

section Wp
variable {log : List (Event Req Resp)} {returns : α → σ → List (Event Req Resp) → Prop}
  {fails : ε → σ → List (Event Req Resp) → Prop}

theorem wp_trivial (task : Task Req Resp ε σ α) (state : σ) (log : List (Event Req Resp)) :
    Wp task state log (fun _ _ _ => True) (fun _ _ _ => True) := by
  intro events result after runs
  cases result <;> trivial

end Wp

end Task

end TinySandbox.Library
