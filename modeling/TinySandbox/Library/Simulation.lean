/-
This file relates two programs that send the same requests.
-/

import TinySandbox.Library.Program

namespace TinySandbox.Library

variable {Req : Type} {Resp : Req → Type} {ε σ τ υ φ α β γ δ : Type}

/-- The programs send the same requests, and related values end them on the same responses. -/
inductive Program.Relates (related : α → β → Prop) : Program Req Resp α → Program Req Resp β → Prop where
  | pure {value : α} {other : β} (here : related value other) :
      Relates related (.pure value) (.pure other)
  | stuck : Relates related .stuck .stuck
  | call {request : Req} {next : Resp request → Program Req Resp α}
      {rest : Resp request → Program Req Resp β}
      (later : ∀ response, Relates related (next response) (rest response)) :
      Relates related (.call request next) (.call request rest)

namespace Program

theorem relates_refl {related : α → α → Prop} (same : ∀ value, related value value)
    (program : Program Req Resp α) : Relates related program program := by
  induction program with
  | pure value => exact .pure (same value)
  | stuck => exact .stuck
  | call request next ih => exact .call ih

theorem Relates.bind {related : α → β → Prop} {image : γ → δ → Prop} {program : Program Req Resp α}
    {other : Program Req Resp β} {next : α → Program Req Resp γ} {rest : β → Program Req Resp δ}
    (relates : Relates related program other)
    (follows : ∀ value found, related value found → Relates image (next value) (rest found)) :
    Relates image (program >>= next) (other >>= rest) := by
  change Relates image (program.bind next) (other.bind rest)
  induction relates with
  | pure here => exact follows _ _ here
  | stuck => exact .stuck
  | call later ih => exact .call ih

/-- Programs whose ends have the same image are the same behind that image. -/
theorem Relates.map_eq {related : α → β → Prop} {image : α → γ} {project : β → γ}
    {program : Program Req Resp α} {other : Program Req Resp β}
    (relates : Relates related program other)
    (same : ∀ value found, related value found → image value = project found) :
    image <$> program = project <$> other := by
  induction relates with
  | pure here => exact congrArg Program.pure (same _ _ here)
  | stuck => rfl
  | call later ih => exact congrArg (Program.call _) (funext ih)

end Program

namespace Task

/-- The tasks send the same requests, return the same, and leave related states. -/
def Simulates (related : σ → τ → Prop) (task : Task Req Resp ε σ α) (other : Task Req Resp ε τ α)
    (state : σ) (image : τ) : Prop :=
  Program.Relates (fun reached found => reached.1 = found.1 ∧ related reached.2 found.2)
    (task.exec state) (other.exec image)

variable {related : σ → τ → Prop} {state : σ} {image : τ}

theorem simulates_refl {related : σ → σ → Prop} (same : ∀ state, related state state)
    (task : Task Req Resp ε σ α) (state : σ) : Simulates related task task state state :=
  Program.relates_refl (fun reached => ⟨rfl, same reached.2⟩) _

/-- Tasks that are the same program simulate each other. -/
theorem simulates_of_eq {related : σ → σ → Prop} (same : ∀ state, related state state)
    {task other : Task Req Resp ε σ α} {state image : σ} (agree : task.exec state = other.exec image) :
    Simulates related task other state image := by
  unfold Simulates
  rw [agree]
  exact simulates_refl same other image

theorem simulates_pure (value : α) (relates : related state image) :
    Simulates related (pure value : Task Req Resp ε σ α) (pure value) state image :=
  .pure ⟨rfl, relates⟩

theorem simulates_throw (error : ε) (relates : related state image) :
    Simulates related (throw error : Task Req Resp ε σ α) (throw error) state image :=
  .pure ⟨rfl, relates⟩

theorem Simulates.bind {task : Task Req Resp ε σ α} {other : Task Req Resp ε τ α}
    {next : α → Task Req Resp ε σ β} {rest : α → Task Req Resp ε τ β}
    (simulates : Simulates related task other state image)
    (follows : ∀ value after found, related after found →
      Simulates related (next value) (rest value) after found) :
    Simulates related (task >>= next) (other >>= rest) state image := by
  unfold Simulates
  rw [exec_bind, exec_bind]
  refine Program.Relates.bind simulates ?_
  rintro ⟨result, after⟩ ⟨outcome, found⟩ ⟨rfl, relates⟩
  cases result with
  | error error => exact .pure ⟨rfl, relates⟩
  | ok value => exact follows value after found relates

theorem Simulates.get_bind {next : σ → Task Req Resp ε σ β} {rest : τ → Task Req Resp ε τ β}
    (simulates : Simulates related (next state) (rest image) state image) :
    Simulates related (get >>= next) (get >>= rest) state image := simulates

theorem Simulates.set_bind {stored : σ} {kept : τ} {next : PUnit → Task Req Resp ε σ β}
    {rest : PUnit → Task Req Resp ε τ β}
    (simulates : Simulates related (next ⟨⟩) (rest ⟨⟩) stored kept) :
    Simulates related (set stored >>= next) (set kept >>= rest) state image := simulates

theorem Simulates.map {task : Task Req Resp ε σ α} {other : Task Req Resp ε τ α} {convert : α → β}
    (simulates : Simulates related task other state image) :
    Simulates related (convert <$> task) (convert <$> other) state image := by
  rw [map_eq_pure_bind, map_eq_pure_bind]
  exact simulates.bind fun value _ _ relates => simulates_pure (convert value) relates

theorem Simulates.attempt {task : Task Req Resp ε σ α} {other : Task Req Resp ε τ α}
    (simulates : Simulates related task other state image) :
    Simulates related (attempt task) (attempt other) state image := by
  refine Program.Relates.bind simulates ?_
  rintro ⟨result, after⟩ ⟨outcome, found⟩ ⟨rfl, relates⟩
  exact .pure ⟨rfl, relates⟩

/-- Related parts are stored into related states. -/
theorem Simulates.focus {inner : υ → φ → Prop} {task : Task Req Resp ε υ α}
    {other : Task Req Resp ε φ α} {part : υ} {piece : φ} {store : υ → σ} {keep : φ → τ}
    (simulates : Simulates inner task other part piece)
    (stores : ∀ left found, inner left found → related (store left) (keep found)) :
    Simulates related (focus part store task) (focus piece keep other) state image := by
  refine Program.Relates.bind simulates ?_
  rintro ⟨result, left⟩ ⟨outcome, found⟩ ⟨rfl, relates⟩
  exact .pure ⟨rfl, stores left found relates⟩

theorem simulates_perform (task : Task Req Resp ε Unit α) (relates : related state image) :
    Simulates related (perform task) (perform task) state image := by
  have same : Program.Relates Eq (task.exec ()) (task.exec ()) :=
    Program.relates_refl (fun _ => rfl) _
  refine same.bind ?_
  rintro reached _ rfl
  exact .pure ⟨rfl, relates⟩

theorem Simulates.refuse_bind {condition : Prop} [Decidable condition] {error : ε}
    {next : PUnit → Task Req Resp ε σ β} {rest : PUnit → Task Req Resp ε τ β}
    (relates : related state image)
    (simulates : ¬ condition → Simulates related (next ⟨⟩) (rest ⟨⟩) state image) :
    Simulates related (refuse condition error >>= next) (refuse condition error >>= rest) state
      image := by
  by_cases refused : condition
  · rw [refuse_bind_of refused, refuse_bind_of refused]
    exact simulates_throw error relates
  · rw [refuse_bind_of_not refused, refuse_bind_of_not refused]
    exact simulates refused

end Task

end TinySandbox.Library
