/-
This file gives programs that follow a protocol.
A protocol has a state. A request moves it when it is sent and again when it is answered, and a
program that waits for an answer is described by the state in between.
-/

import TinySandbox.Library.Guarded

namespace TinySandbox.Library

/-- A request can be sent in a state when it moves the state. -/
structure Protocol (Req : Type) (Resp : Req → Type) (κ : Type) where
  sends : κ → Req → Option κ
  takes : κ → (request : Req) → Resp request → κ

namespace Program

variable {Req : Type} {Resp : Req → Type} {κ α β : Type} {protocol : Protocol Req Resp κ}

/-- The program sends what the protocol permits, and it ends well if it ends. -/
def Follows (protocol : Protocol Req Resp κ) (ends : α → κ → Prop) :
    Program Req Resp α → κ → Prop
  | .pure value, state => ends value state
  | .stuck, _ => True
  | .call request next, state => ∃ waiting, protocol.sends state request = some waiting ∧
      ∀ response, (next response).Follows protocol ends (protocol.takes waiting request response)

theorem follows_bind_iff {program : Program Req Resp α} {next : α → Program Req Resp β}
    {ends : β → κ → Prop} {state : κ} :
    (program >>= next).Follows protocol ends state ↔
      program.Follows protocol (fun value reached => (next value).Follows protocol ends reached)
        state := by
  change (program.bind next).Follows protocol ends state ↔ _
  induction program generalizing state with
  | pure value => exact Iff.rfl
  | stuck => exact Iff.rfl
  | call request rest ih =>
      apply exists_congr
      intro waiting
      apply and_congr_right
      intro _
      exact forall_congr' fun response => ih response

theorem Follows.mono {program : Program Req Resp α} {ends better : α → κ → Prop} {state : κ}
    (follows : program.Follows protocol ends state)
    (implies : ∀ value reached, ends value reached → better value reached) :
    program.Follows protocol better state := by
  induction program generalizing state with
  | pure value => exact implies value state follows
  | stuck => exact trivial
  | call request rest ih =>
      obtain ⟨waiting, sent, later⟩ := follows
      exact ⟨waiting, sent, fun response => ih response (later response)⟩

end Program

namespace Task

variable {Req : Type} {Resp : Req → Type} {ε κ α β : Type} {protocol : Protocol Req Resp κ}
  {state : κ} {returns : α → κ → Prop} {fails : ε → κ → Prop}

/-- The task follows the protocol from the state and ends as described. -/
def Follows (protocol : Protocol Req Resp κ) (task : Task Req Resp ε Unit α) (state : κ)
    (returns : α → κ → Prop) (fails : ε → κ → Prop) : Prop :=
  (task.exec ()).Follows protocol (fun reached => fun last => Ends returns fails last reached.1) state

theorem Follows.mono {task : Task Req Resp ε Unit α}
    (follows : Follows protocol task state returns fails)
    {returns' : α → κ → Prop} {fails' : ε → κ → Prop}
    (ok : ∀ value last, returns value last → returns' value last)
    (error : ∀ error last, fails error last → fails' error last) :
    Follows protocol task state returns' fails' := by
  apply Program.Follows.mono follows
  intro reached last ends
  rcases reached with ⟨result, nothing⟩
  cases result with
  | ok value => exact ok value last ends
  | error failure => exact error failure last ends

theorem follows_bind_iff {task : Task Req Resp ε Unit β} {next : β → Task Req Resp ε Unit α} :
    Follows protocol (task >>= next) state returns fails ↔
      Follows protocol task state
        (fun value middle => Follows protocol (next value) middle returns fails) fails := by
  unfold Follows
  rw [exec_bind, Program.follows_bind_iff]
  apply iff_of_eq
  congr 1
  funext reached
  rcases reached with ⟨result, nothing⟩
  cases result <;> rfl

/-- What follows a task can assume what the task returns. -/
theorem Follows.bind {task : Task Req Resp ε Unit β} {next : β → Task Req Resp ε Unit α}
    {middle : β → κ → Prop} (follows : Follows protocol task state middle fails)
    (rest : ∀ value last, middle value last → Follows protocol (next value) last returns fails) :
    Follows protocol (task >>= next) state returns fails :=
  follows_bind_iff.mpr (follows.mono rest fun _ _ failed => failed)

@[simp] theorem follows_pure_iff {value : α} :
    Follows protocol (pure value : Task Req Resp ε Unit α) state returns fails ↔
      returns value state :=
  Iff.rfl

@[simp] theorem follows_lift_iff {result : Except ε α} :
    Follows protocol (lift result : Task Req Resp ε Unit α) state returns fails ↔
      Ends returns fails state result :=
  Iff.rfl

/-- A lifted result stops the task or passes its value on. -/
theorem follows_lift_bind {result : Except ε β} {next : β → Task Req Resp ε Unit α}
    (error : ∀ error, result = .error error → fails error state)
    (ok : ∀ value, result = .ok value → Follows protocol (next value) state returns fails) :
    Follows protocol (lift result >>= next) state returns fails := by
  rw [follows_bind_iff, follows_lift_iff]
  cases result with
  | error failure => exact error failure rfl
  | ok value => exact ok value rfl

/-- A task that is not refused goes on. -/
theorem follows_refuse_bind {condition : Prop} [Decidable condition] {error : ε}
    {next : PUnit → Task Req Resp ε Unit α} (refused : condition → fails error state)
    (passed : ¬ condition → Follows protocol (next ⟨⟩) state returns fails) :
    Follows protocol (refuse condition error >>= next) state returns fails := by
  rw [follows_bind_iff]
  unfold refuse
  split
  · exact refused ‹_›
  · exact passed ‹_›

/-- A request that is permitted goes on with every response. -/
theorem follows_request_bind {request : Req} {next : Resp request → Task Req Resp ε Unit α}
    {waiting : κ} (sent : protocol.sends state request = some waiting)
    (rest : ∀ response, Follows protocol (next response)
      (protocol.takes waiting request response) returns fails) :
    Follows protocol (Task.request request >>= next) state returns fails :=
  follows_bind_iff.mpr ⟨waiting, sent, rest⟩

@[simp] theorem follows_attempt_iff {task : Task Req Resp ε Unit α}
    {returns : Except ε α → κ → Prop} :
    Follows protocol (attempt task) state returns fails ↔
      Follows protocol task state (fun value => returns (.ok value))
        (fun error => returns (.error error)) := by
  change (task.exec () >>= _).Follows protocol _ state ↔ _
  rw [Program.follows_bind_iff]
  apply iff_of_eq
  unfold Follows
  congr 1
  funext reached
  rcases reached with ⟨result, nothing⟩
  cases result <;> rfl

/-- What follows an attempt sees the result, and the state is the same for a value and an error. -/
theorem follows_attempt_bind {task : Task Req Resp ε Unit β}
    {next : Except ε β → Task Req Resp ε Unit α} {middle : κ → Prop}
    (follows : Follows protocol task state (fun _ => middle) (fun _ => middle))
    (rest : ∀ result last, middle last → Follows protocol (next result) last returns fails) :
    Follows protocol (attempt task >>= next) state returns fails := by
  rw [follows_bind_iff, follows_attempt_iff]
  exact follows.mono (fun value => rest (.ok value)) fun error => rest (.error error)

/-- From every state in a set the task stays in the set. -/
def Keeps (protocol : Protocol Req Resp κ) (calm : κ → Prop) (task : Task Req Resp ε Unit α) :
    Prop :=
  ∀ state, calm state → Follows protocol task state (fun _ => calm) (fun _ => calm)

section Keeps
variable {calm : κ → Prop} {task : Task Req Resp ε Unit β} {next : β → Task Req Resp ε Unit α}

theorem Keeps.bind (first : Keeps protocol calm task)
    (rest : ∀ value, Keeps protocol calm (next value)) : Keeps protocol calm (task >>= next) := by
  intro state quiet
  apply Follows.bind (first state quiet)
  intro value last kept
  exact rest value last kept

theorem keeps_pure (value : α) : Keeps protocol calm (pure value : Task Req Resp ε Unit α) :=
  fun _ quiet => quiet

theorem keeps_throw (error : ε) : Keeps protocol calm (throw error : Task Req Resp ε Unit α) :=
  fun _ quiet => quiet

theorem keeps_diverge : Keeps protocol calm (diverge : Task Req Resp ε Unit α) :=
  fun _ _ => trivial

theorem keeps_lift (result : Except ε α) :
    Keeps protocol calm (lift result : Task Req Resp ε Unit α) := by
  intro state quiet
  cases result <;> exact quiet

theorem keeps_refuse (condition : Prop) [Decidable condition] (error : ε) :
    Keeps protocol calm (refuse condition error : Task Req Resp ε Unit PUnit) := by
  intro state quiet
  unfold refuse
  split <;> exact quiet

theorem Keeps.attempt (keeps : Keeps protocol calm task) :
    Keeps protocol calm (attempt task) :=
  fun state quiet => follows_attempt_iff.mpr (keeps state quiet)

theorem keeps_ite {condition : Prop} [Decidable condition] {first second : Task Req Resp ε Unit α}
    (left : condition → Keeps protocol calm first) (right : ¬ condition → Keeps protocol calm second) :
    Keeps protocol calm (if condition then first else second) := by
  split
  · exact left ‹_›
  · exact right ‹_›

theorem keeps_refuse_bind {condition : Prop} [Decidable condition] {error : ε}
    {next : PUnit → Task Req Resp ε Unit α} (passed : ¬ condition → Keeps protocol calm (next ⟨⟩)) :
    Keeps protocol calm (refuse condition error >>= next) := by
  intro state quiet
  exact follows_refuse_bind (fun _ => quiet) (fun free => passed free state quiet)

end Keeps

end Task

end TinySandbox.Library
