/-
This file gives the requests that a program can send, whatever the responses are.
A guarded program sends only allowed requests, also when it never returns.
-/

import TinySandbox.Library.Program

namespace TinySandbox.Library

namespace Program

variable {Req : Type} {Resp : Req → Type} {α β : Type} {allowed : Req → Prop}

/-- Every request that the program can send is allowed, and every value it returns is good. -/
def Guards (allowed : Req → Prop) (good : α → Prop) : Program Req Resp α → Prop
  | .pure value => good value
  | .stuck => True
  | .call request next => allowed request ∧ ∀ response, (next response).Guards allowed good

theorem guards_bind_iff {program : Program Req Resp α} {next : α → Program Req Resp β}
    {good : β → Prop} :
    (program >>= next).Guards allowed good ↔
      program.Guards allowed fun value => (next value).Guards allowed good := by
  change (program.bind next).Guards allowed good ↔ _
  induction program with
  | pure value => exact Iff.rfl
  | stuck => exact Iff.rfl
  | call request rest ih =>
      apply and_congr_right
      intro _
      exact forall_congr' ih

theorem Guards.mono {program : Program Req Resp α} {good better : α → Prop}
    (guards : program.Guards allowed good) (implies : ∀ value, good value → better value) :
    program.Guards allowed better := by
  induction program with
  | pure value => exact implies value guards
  | stuck => exact trivial
  | call request rest ih => exact ⟨guards.1, fun response => ih response (guards.2 response)⟩

end Program

namespace Task

variable {Req : Type} {Resp : Req → Type} {ε σ τ α β : Type} {allowed : Req → Prop}
  {state : σ} {returns : α → σ → Prop} {fails : ε → σ → Prop}

/-- A result is good when its value or its error is. -/
def Ends (returns : α → σ → Prop) (fails : ε → σ → Prop) (state : σ) : Except ε α → Prop
  | .ok value => returns value state
  | .error error => fails error state

@[simp] theorem ends_ok {value : α} : Ends returns fails state (.ok value) ↔ returns value state :=
  Iff.rfl

@[simp] theorem ends_error {error : ε} :
    Ends returns fails state (.error error) ↔ fails error state :=
  Iff.rfl

/-- The task sends only allowed requests and ends as described. -/
def Guards (allowed : Req → Prop) (task : Task Req Resp ε σ α) (state : σ)
    (returns : α → σ → Prop) (fails : ε → σ → Prop) : Prop :=
  (task.exec state).Guards allowed fun reached => Ends returns fails reached.2 reached.1

theorem Guards.mono {task : Task Req Resp ε σ α} (guards : Guards allowed task state returns fails)
    {returns' : α → σ → Prop} {fails' : ε → σ → Prop}
    (ok : ∀ value after, returns value after → returns' value after)
    (error : ∀ error after, fails error after → fails' error after) :
    Guards allowed task state returns' fails' := by
  apply Program.Guards.mono guards
  intro reached good
  rcases reached with ⟨result, after⟩
  cases result with
  | ok value => exact ok value after good
  | error failure => exact error failure after good

theorem guards_bind_iff {task : Task Req Resp ε σ β} {next : β → Task Req Resp ε σ α} :
    Guards allowed (task >>= next) state returns fails ↔
      Guards allowed task state
        (fun value middle => Guards allowed (next value) middle returns fails) fails := by
  unfold Guards
  rw [exec_bind, Program.guards_bind_iff]
  apply iff_of_eq
  congr 1
  funext reached
  rcases reached with ⟨result, after⟩
  cases result <;> rfl

/-- What follows a task can assume what the task returns. -/
theorem Guards.bind {task : Task Req Resp ε σ β} {next : β → Task Req Resp ε σ α}
    {middle : β → σ → Prop} (guards : Guards allowed task state middle fails)
    (rest : ∀ value after, middle value after → Guards allowed (next value) after returns fails) :
    Guards allowed (task >>= next) state returns fails :=
  guards_bind_iff.mpr (guards.mono rest fun _ _ failed => failed)

@[simp] theorem guards_pure_iff {value : α} :
    Guards allowed (pure value : Task Req Resp ε σ α) state returns fails ↔ returns value state :=
  Iff.rfl

@[simp] theorem guards_throw_iff {error : ε} :
    Guards allowed (throw error : Task Req Resp ε σ α) state returns fails ↔ fails error state :=
  Iff.rfl

@[simp] theorem guards_lift_iff {result : Except ε α} :
    Guards allowed (lift result : Task Req Resp ε σ α) state returns fails ↔
      Ends returns fails state result :=
  Iff.rfl

/-- A lifted result stops the task or passes its value on. -/
theorem guards_lift_bind {result : Except ε β} {next : β → Task Req Resp ε σ α}
    (error : ∀ error, result = .error error → fails error state)
    (ok : ∀ value, result = .ok value → Guards allowed (next value) state returns fails) :
    Guards allowed (lift result >>= next) state returns fails := by
  rw [guards_bind_iff, guards_lift_iff]
  cases result with
  | error failure => exact error failure rfl
  | ok value => exact ok value rfl

@[simp] theorem guards_diverge :
    Guards allowed (diverge : Task Req Resp ε σ α) state returns fails := trivial

@[simp] theorem guards_get_iff {returns : σ → σ → Prop} :
    Guards allowed (get : Task Req Resp ε σ σ) state returns fails ↔ returns state state :=
  Iff.rfl

@[simp] theorem guards_set_iff {next : σ} {returns : PUnit → σ → Prop} :
    Guards allowed (set next : Task Req Resp ε σ PUnit) state returns fails ↔ returns ⟨⟩ next :=
  Iff.rfl

@[simp] theorem guards_refuse_iff {condition : Prop} [Decidable condition] {error : ε}
    {returns : PUnit → σ → Prop} :
    Guards allowed (refuse condition error : Task Req Resp ε σ PUnit) state returns fails ↔
      if condition then fails error state else returns ⟨⟩ state := by
  unfold refuse
  split <;> simp

/-- A task that is not refused goes on. -/
theorem guards_refuse_bind {condition : Prop} [Decidable condition] {error : ε}
    {next : PUnit → Task Req Resp ε σ α} (refused : condition → fails error state)
    (passed : ¬ condition → Guards allowed (next ⟨⟩) state returns fails) :
    Guards allowed (refuse condition error >>= next) state returns fails := by
  rw [guards_bind_iff, guards_refuse_iff]
  split
  · exact refused ‹_›
  · exact passed ‹_›

@[simp] theorem guards_request_iff {request : Req} {returns : Resp request → σ → Prop} :
    Guards allowed (Task.request request : Task Req Resp ε σ (Resp request)) state returns fails ↔
      allowed request ∧ ∀ response, returns response state :=
  Iff.rfl

@[simp] theorem guards_attempt_iff {task : Task Req Resp ε σ α}
    {returns : Except ε α → σ → Prop} :
    Guards allowed (attempt task) state returns fails ↔
      Guards allowed task state (fun value => returns (.ok value))
        (fun error => returns (.error error)) := by
  change (task.exec state >>= _).Guards allowed _ ↔ _
  rw [Program.guards_bind_iff]
  apply iff_of_eq
  unfold Guards
  congr 1
  funext reached
  rcases reached with ⟨result, after⟩
  cases result <;> rfl

@[simp] theorem guards_focus_iff {part : τ} {store : τ → σ} {task : Task Req Resp ε τ α} :
    Guards allowed (focus part store task) state returns fails ↔
      Guards allowed task part (fun value left => returns value (store left))
        (fun error left => fails error (store left)) := by
  change (task.exec part >>= _).Guards allowed _ ↔ _
  rw [Program.guards_bind_iff]
  exact Iff.rfl

@[simp] theorem guards_perform_iff {task : Task Req Resp ε Unit α} :
    Guards allowed (perform task) state returns fails ↔
      Guards allowed task () (fun value _ => returns value state)
        (fun error _ => fails error state) := by
  change (task.exec () >>= _).Guards allowed _ ↔ _
  rw [Program.guards_bind_iff]
  exact Iff.rfl

@[simp] theorem guards_map_iff {task : Task Req Resp ε σ β} {image : β → α} :
    Guards allowed (image <$> task) state returns fails ↔
      Guards allowed task state (fun value => returns (image value)) fails := by
  rw [map_eq_pure_bind, guards_bind_iff]
  exact Iff.rfl

/-- From every state the task sends only allowed requests. -/
def Sends (allowed : Req → Prop) (task : Task Req Resp ε σ α) : Prop :=
  ∀ state, Guards allowed task state (fun _ _ => True) (fun _ _ => True)

section Sends
variable {task : Task Req Resp ε σ β} {next : β → Task Req Resp ε σ α}

theorem Sends.bind (first : Sends allowed task) (rest : ∀ value, Sends allowed (next value)) :
    Sends allowed (task >>= next) := by
  intro state
  apply Guards.bind (first state)
  intro value after _
  exact rest value after

theorem sends_pure (value : α) : Sends allowed (pure value : Task Req Resp ε σ α) :=
  fun _ => trivial

theorem sends_throw (error : ε) : Sends allowed (throw error : Task Req Resp ε σ α) :=
  fun _ => trivial

theorem sends_get : Sends allowed (get : Task Req Resp ε σ σ) := fun _ => trivial

theorem sends_set (next : σ) : Sends allowed (set next : Task Req Resp ε σ PUnit) := fun _ => trivial

theorem sends_diverge : Sends allowed (diverge : Task Req Resp ε σ α) := fun _ => trivial

theorem sends_lift (result : Except ε α) : Sends allowed (lift result : Task Req Resp ε σ α) := by
  intro state
  cases result <;> trivial

theorem sends_refuse (condition : Prop) [Decidable condition] (error : ε) :
    Sends allowed (refuse condition error : Task Req Resp ε σ PUnit) := by
  intro state
  rw [guards_refuse_iff]
  split <;> trivial

theorem sends_request {request : Req} (permitted : allowed request) :
    Sends allowed (Task.request request : Task Req Resp ε σ (Resp request)) :=
  fun _ => ⟨permitted, fun _ => trivial⟩

theorem Sends.attempt (sends : Sends allowed task) : Sends allowed (attempt task) :=
  fun state => guards_attempt_iff.mpr (sends state)

theorem Sends.perform {task : Task Req Resp ε Unit α} (sends : Sends allowed task) :
    Sends allowed (perform task : Task Req Resp ε σ α) :=
  fun _ => guards_perform_iff.mpr (sends ())

/-- What holds of every stored part holds after a task that runs on the part. -/
theorem Sends.focus_holds {task : Task Req Resp ε τ α} (sends : Sends allowed task) (part : τ)
    {store : τ → σ} {holds : σ → Prop} (kept : ∀ left, holds (store left)) :
    Guards allowed (Task.focus part store task) state (fun _ => holds) (fun _ => holds) :=
  guards_focus_iff.mpr ((sends part).mono (fun _ left _ => kept left) (fun _ left _ => kept left))

theorem Sends.perform_holds {task : Task Req Resp ε Unit α} (sends : Sends allowed task)
    {holds : σ → Prop} (kept : holds state) :
    Guards allowed (Task.perform task) state (fun _ => holds) (fun _ => holds) :=
  guards_perform_iff.mpr ((sends ()).mono (fun _ _ _ => kept) (fun _ _ _ => kept))

theorem sends_ite {condition : Prop} [Decidable condition] {first second : Task Req Resp ε σ α}
    (left : condition → Sends allowed first) (right : ¬ condition → Sends allowed second) :
    Sends allowed (if condition then first else second) := by
  split
  · exact left ‹_›
  · exact right ‹_›

theorem sends_refuse_bind {condition : Prop} [Decidable condition] {error : ε}
    {next : PUnit → Task Req Resp ε σ α} (passed : ¬ condition → Sends allowed (next ⟨⟩)) :
    Sends allowed (refuse condition error >>= next) := by
  intro state
  exact guards_refuse_bind (fun _ => trivial) (fun free => passed free state)

end Sends

end Task

end TinySandbox.Library
