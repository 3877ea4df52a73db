/-
This file runs programs on one server, which may also give no answer.
A program can end within a number of requests, as long as the responses are allowed.
-/

import TinySandbox.Library.Program

namespace TinySandbox.Library

namespace Program

variable {Req : Type} {Resp : Req → Type} {α β server : Type}
  {respond : server → (request : Req) → Option (Resp request × server)}

/-- A run ends with the value of the program and with the server as the program left it. -/
def serve (respond : server → (request : Req) → Option (Resp request × server)) :
    Program Req Resp α → server → Option (α × server)
  | .pure value, state => some (value, state)
  | .stuck, _ => none
  | .call request next, state =>
      (respond state request).bind fun answer => (next answer.1).serve respond answer.2

theorem serve_bind (program : Program Req Resp α) (next : α → Program Req Resp β) (state : server) :
    (program >>= next).serve respond state =
      (program.serve respond state).bind fun reached => (next reached.1).serve respond reached.2 := by
  change (program.bind next).serve respond state = _
  induction program generalizing state with
  | pure value => rfl
  | stuck => rfl
  | call request rest ih =>
      change (respond state request).bind _ = ((respond state request).bind _).bind _
      cases respond state request with
      | none => rfl
      | some answer => exact ih answer.1 answer.2

end Program

namespace Task

variable {Req : Type} {Resp : Req → Type} {ε σ α β server : Type}
  {respond : server → (request : Req) → Option (Resp request × server)}
  {state : σ} {before : server}

def serve (respond : server → (request : Req) → Option (Resp request × server))
    (task : Task Req Resp ε σ α) (state : σ) (before : server) :
    Option ((Except ε α × σ) × server) :=
  (task.exec state).serve respond before

/-- A sequence stops at the first error. -/
theorem serve_bind (task : Task Req Resp ε σ α) (next : α → Task Req Resp ε σ β) :
    (task >>= next).serve respond state before =
      (task.serve respond state before).bind fun reached =>
        match reached.1.1 with
        | .ok value => (next value).serve respond reached.1.2 reached.2
        | .error error => some ((.error error, reached.1.2), reached.2) := by
  unfold serve
  rw [exec_bind, Program.serve_bind]
  congr 1
  funext reached
  rcases reached with ⟨⟨result, after⟩, served⟩
  cases result with
  | ok value => rfl
  | error error => rfl

@[simp] theorem serve_request (request : Req) :
    (Task.request request : Task Req Resp ε σ (Resp request)).serve respond state before =
      (respond before request).map fun answer => ((.ok answer.1, state), answer.2) := by
  change (respond before request).bind _ = _
  cases respond before request with
  | none => rfl
  | some answer => rfl

@[simp] theorem serve_attempt (task : Task Req Resp ε σ α) :
    (attempt task).serve respond state before =
      (task.serve respond state before).map fun reached =>
        ((.ok reached.1.1, reached.1.2), reached.2) := by
  change (task.exec state >>= _).serve respond before = _
  rw [Program.serve_bind]
  unfold serve
  cases (task.exec state).serve respond before with
  | none => rfl
  | some reached => rfl

/-- A refused task fails, and any other goes on. -/
theorem serve_refuse_bind (condition : Prop) [Decidable condition] (error : ε)
    (next : PUnit → Task Req Resp ε σ β) :
    (refuse condition error >>= next).serve respond state before =
      if condition then some ((.error error, state), before)
      else (next ⟨⟩).serve respond state before := by
  by_cases refused : condition
  · rw [refuse_bind_of refused, if_pos refused]
    rfl
  · rw [refuse_bind_of_not refused, if_neg refused]

/-- A task without a state ends with its result and with the server as it left it. -/
def settle (respond : server → (request : Req) → Option (Resp request × server))
    (task : Task Req Resp ε Unit α) (before : server) : Option (Except ε α × server) :=
  (task.serve respond () before).map fun reached => (reached.1.1, reached.2)

section Settling
variable {task : Task Req Resp ε Unit α} {next : α → Task Req Resp ε Unit β} {after : server}

/-- A sequence goes on at the server that its first task leaves, up to the first error. -/
theorem settle_bind (task : Task Req Resp ε Unit α) (next : α → Task Req Resp ε Unit β)
    (before : server) :
    settle respond (task >>= next) before =
      (settle respond task before).bind fun reached =>
        match reached.1 with
        | .ok value => settle respond (next value) reached.2
        | .error error => some (.error error, reached.2) := by
  unfold settle
  rw [serve_bind]
  cases task.serve respond () before with
  | none => rfl
  | some reached =>
      obtain ⟨⟨result, after⟩, served⟩ := reached
      cases result with
      | ok value => rfl
      | error error => rfl

theorem settle_bind_ok {value : α} (settled : settle respond task before = some (.ok value, after)) :
    settle respond (task >>= next) before = settle respond (next value) after := by
  rw [settle_bind, settled]
  rfl

theorem settle_bind_error {error : ε}
    (settled : settle respond task before = some (.error error, after)) :
    settle respond (task >>= next) before = some (.error error, after) := by
  rw [settle_bind, settled]
  rfl

theorem settle_refuse (condition : Prop) [Decidable condition] (error : ε) :
    settle respond (refuse condition error) before =
      some (if condition then .error error else .ok ⟨⟩, before) := by
  unfold Task.refuse
  split
  · rfl
  · rfl

theorem settle_refuse_bind (condition : Prop) [Decidable condition] (error : ε)
    (next : PUnit → Task Req Resp ε Unit β) :
    settle respond (refuse condition error >>= next) before =
      if condition then some (.error error, before) else settle respond (next ⟨⟩) before := by
  unfold settle
  rw [serve_refuse_bind]
  split
  · rfl
  · rfl

theorem settle_attempt {result : Except ε α} (settled : settle respond task before = some (result, after)) :
    settle respond (attempt task) before = some (.ok result, after) := by
  unfold settle at settled ⊢
  rw [serve_attempt]
  obtain ⟨reached, served, same⟩ := Option.map_eq_some_iff.mp settled
  rw [served]
  obtain ⟨rfl, rfl⟩ := Prod.mk.inj same
  rfl

theorem settle_request {request : Req} {response : Resp request}
    (answered : respond before request = some (response, after)) :
    settle respond (Task.request request : Task Req Resp ε Unit (Resp request)) before =
      some (.ok response, after) := by
  unfold settle
  rw [serve_request, answered]
  rfl

end Settling

end Task

namespace Program

variable {Req : Type} {Resp : Req → Type} {α β : Type} {allowed : Event Req Resp → Prop}

/-- The program returns, and it sends at most so many requests before. -/
def Within (allowed : Event Req Resp → Prop) : Nat → Program Req Resp α → Prop
  | _, .pure _ => True
  | _, .stuck => False
  | 0, .call _ _ => False
  | count + 1, .call request next =>
      ∀ response, allowed ⟨request, response⟩ → (next response).Within allowed count

@[simp] theorem within_pure (count : Nat) (value : α) :
    (pure value : Program Req Resp α).Within allowed count := by
  cases count <;> trivial

end Program

namespace Task

variable {Req : Type} {Resp : Req → Type} {ε σ α β : Type} {allowed : Event Req Resp → Prop}
  {state : σ} {count : Nat}

def Within (allowed : Event Req Resp → Prop) (count : Nat) (task : Task Req Resp ε σ α) (state : σ) :
    Prop :=
  (task.exec state).Within allowed count

@[simp] theorem within_pure (value : α) :
    (pure value : Task Req Resp ε σ α).Within allowed count state :=
  Program.within_pure count ((.ok value, state) : Except ε α × σ)

@[simp] theorem within_throw (error : ε) :
    (throw error : Task Req Resp ε σ α).Within allowed count state :=
  Program.within_pure count ((.error error, state) : Except ε α × σ)

/-- A request is answered before the rest of the requests. -/
theorem within_request_bind {request : Req} {next : Resp request → Task Req Resp ε σ α}
    (rest : ∀ response, allowed ⟨request, response⟩ → (next response).Within allowed count state) :
    (Task.request request >>= next).Within allowed (count + 1) state := rest

end Task

end TinySandbox.Library
