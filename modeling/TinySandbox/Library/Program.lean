/-
This file gives programs that send requests to a server and use its responses.
A run of a program is a list of requests with the responses they got.
-/

import Mathlib.Tactic

namespace TinySandbox.Library

/-- A program returns a value, never returns, or sends a request and continues. -/
inductive Program (Req : Type) (Resp : Req → Type) (α : Type) where
  | pure (value : α)
  | stuck
  | call (request : Req) (next : Resp request → Program Req Resp α)

/-- An event is a request with the response it got. -/
abbrev Event (Req : Type) (Resp : Req → Type) : Type := Σ request : Req, Resp request

namespace Program

variable {Req : Type} {Resp : Req → Type} {α β server : Type}

protected def bind : Program Req Resp α → (α → Program Req Resp β) → Program Req Resp β
  | .pure value, next => next value
  | .stuck, _ => .stuck
  | .call request rest, next => .call request fun response => (rest response).bind next

instance : Monad (Program Req Resp) where
  pure := .pure
  bind := Program.bind

instance : LawfulMonad (Program Req Resp) := LawfulMonad.mk' _
  (fun program => by
    change program.bind (fun value => .pure value) = program
    induction program with
    | pure value => rfl
    | stuck => rfl
    | call request rest ih => exact congrArg (Program.call request) (funext ih))
  (fun _ _ => rfl)
  (fun program first second => by
    change (program.bind first).bind second = program.bind fun value => (first value).bind second
    induction program with
    | pure value => rfl
    | stuck => rfl
    | call request rest ih => exact congrArg (Program.call request) (funext ih))

/-- The responses in a run are arbitrary. -/
def Runs : Program Req Resp α → List (Event Req Resp) → α → Prop
  | .pure value, events, result => events = [] ∧ result = value
  | .stuck, _, _ => False
  | .call request next, events, result =>
      ∃ response rest, events = ⟨request, response⟩ :: rest ∧ (next response).Runs rest result

/-- The value of a program that has nothing left to send. -/
def value? : Program Req Resp α → Option α
  | .pure value => some value
  | .stuck => none
  | .call _ _ => none

theorem eq_pure_of_value? {program : Program Req Resp α} {value : α}
    (finished : program.value? = some value) : program = .pure value := by
  cases program with
  | pure found => exact congrArg Program.pure (Option.some.inj finished)
  | stuck => cases finished
  | call request next => cases finished

@[simp] theorem runs_pure_iff {value result : α} {events : List (Event Req Resp)} :
    (pure value : Program Req Resp α).Runs events result ↔ events = [] ∧ result = value :=
  Iff.rfl

/-- A run of a sequence is a run of the first part followed by a run of the rest. -/
theorem runs_bind_iff {program : Program Req Resp α} {next : α → Program Req Resp β}
    {events : List (Event Req Resp)} {result : β} :
    (program >>= next).Runs events result ↔
      ∃ first second value, events = first ++ second ∧ program.Runs first value ∧
        (next value).Runs second result := by
  change (program.bind next).Runs events result ↔ _
  induction program generalizing events with
  | pure value =>
      constructor
      · intro runs
        exact ⟨[], events, value, rfl, ⟨rfl, rfl⟩, runs⟩
      · rintro ⟨first, second, found, rfl, ⟨rfl, rfl⟩, runs⟩
        exact runs
  | stuck => simp [Program.bind, Runs]
  | call request rest ih =>
      constructor
      · rintro ⟨response, tail, rfl, runs⟩
        obtain ⟨first, second, value, rfl, left, right⟩ := (ih response).mp runs
        exact ⟨⟨request, response⟩ :: first, second, value, rfl, ⟨response, first, rfl, left⟩, right⟩
      · rintro ⟨first, second, value, rfl, ⟨response, tail, rfl, left⟩, right⟩
        exact ⟨response, tail ++ second, rfl, (ih response).mpr ⟨tail, second, value, rfl, left, right⟩⟩

/-- The responses come from one server. -/
def run (respond : server → (request : Req) → Resp request × server) :
    Program Req Resp α → server → Option (α × server)
  | .pure value, state => some (value, state)
  | .stuck, _ => none
  | .call request next, state =>
      (next (respond state request).1).run respond (respond state request).2

@[simp] theorem run_pure (respond : server → (request : Req) → Resp request × server) (value : α)
    (state : server) : (pure value : Program Req Resp α).run respond state = some (value, state) :=
  rfl

/-- The server goes from one state to another while it answers the events. -/
def Served (serves : server → Event Req Resp → server → Prop) :
    server → List (Event Req Resp) → server → Prop
  | first, [], last => last = first
  | first, event :: rest, last => ∃ middle, serves first event middle ∧ Served serves middle rest last

theorem served_append_iff {serves : server → Event Req Resp → server → Prop}
    {first last : server} {before after : List (Event Req Resp)} :
    Served serves first (before ++ after) last ↔
      ∃ middle, Served serves first before middle ∧ Served serves middle after last := by
  induction before generalizing first with
  | nil => simp [Served]
  | cons event rest ih =>
      simp only [List.cons_append, Served, ih]
      constructor
      · rintro ⟨next, step, middle, left, right⟩
        exact ⟨middle, ⟨next, step, left⟩, right⟩
      · rintro ⟨middle, ⟨next, step, left⟩, right⟩
        exact ⟨next, step, middle, left, right⟩

/-- What every answer preserves is preserved while the server answers a list of events. -/
theorem Served.preserves {serves : server → Event Req Resp → server → Prop}
    {property : server → Prop} {first last : server} {events : List (Event Req Resp)}
    (served : Served serves first events last) (start : property first)
    (step : ∀ before event after, event ∈ events → serves before event after →
      property before → property after) : property last := by
  induction events generalizing first with
  | nil =>
      obtain rfl := served
      exact start
  | cons event rest ih =>
      obtain ⟨middle, here, later⟩ := served
      refine ih later (step first event middle List.mem_cons_self here start) ?_
      intro before other after member
      exact step before other after (List.mem_cons_of_mem _ member)

/-- The server answers an event with what it computes for the request. -/
def Answers (respond : server → (request : Req) → Resp request × server)
    (before : server) (event : Event Req Resp) (after : server) : Prop :=
  respond before event.1 = (event.2, after)

/-- A run on a server is a run, and the server gave its responses. -/
theorem exists_runs_of_run {respond : server → (request : Req) → Resp request × server}
    {program : Program Req Resp α} {before after : server} {value : α}
    (ran : program.run respond before = some (value, after)) :
    ∃ events, program.Runs events value ∧ Served (Answers respond) before events after := by
  induction program generalizing before with
  | pure found =>
      obtain ⟨rfl, rfl⟩ := Prod.mk.inj (Option.some.inj ran)
      exact ⟨[], ⟨rfl, rfl⟩, rfl⟩
  | stuck => cases ran
  | call request next ih =>
      obtain ⟨events, runs, served⟩ := ih _ ran
      exact ⟨⟨request, (respond before request).1⟩ :: events, ⟨_, events, rfl, runs⟩,
        (respond before request).2, rfl, served⟩

end Program

/-- A task runs on a state, and an error does not undo the state. -/
abbrev Task (Req : Type) (Resp : Req → Type) (ε σ : Type) : Type → Type :=
  ExceptT ε (StateT σ (Program Req Resp))

namespace Task

variable {Req : Type} {Resp : Req → Type} {ε σ τ α β server : Type}

/-- The program of a task returns the result together with the state it leaves. -/
def exec (task : Task Req Resp ε σ α) (state : σ) : Program Req Resp (Except ε α × σ) :=
  (ExceptT.run task).run state

/-- This task returns a result that was computed without the state. -/
def lift (result : Except ε α) : Task Req Resp ε σ α := ExceptT.mk (pure result)

/-- This task fails when the condition holds. -/
def refuse (condition : Prop) [Decidable condition] (error : ε) : Task Req Resp ε σ PUnit :=
  if condition then throw error else pure ⟨⟩

/-- This task never returns. -/
def diverge : Task Req Resp ε σ α := ExceptT.mk (StateT.mk fun _ => .stuck)

/-- This task returns the response to one request. -/
def request (request : Req) : Task Req Resp ε σ (Resp request) :=
  ExceptT.mk (StateT.mk fun state => .call request fun response => .pure (.ok response, state))

/-- This task runs another task and returns its result as a value. -/
def attempt (task : Task Req Resp ε σ α) : Task Req Resp ε σ (Except ε α) :=
  ExceptT.mk (StateT.mk fun state =>
    task.exec state >>= fun reached => .pure (.ok reached.1, reached.2))

/-- This task runs a task on a part of the state and stores the part back. -/
def focus (part : τ) (store : τ → σ) (task : Task Req Resp ε τ α) : Task Req Resp ε σ α :=
  ExceptT.mk (StateT.mk fun _ =>
    task.exec part >>= fun reached => .pure (reached.1, store reached.2))

/-- This task runs a task that has no state of its own. -/
def perform (task : Task Req Resp ε Unit α) : Task Req Resp ε σ α :=
  ExceptT.mk (StateT.mk fun state =>
    task.exec () >>= fun reached => .pure (reached.1, state))

@[simp] theorem lift_ok_bind (value : α) (next : α → Task Req Resp ε σ β) :
    lift (.ok value) >>= next = next value := rfl

@[simp] theorem lift_error_bind (error : ε) (next : α → Task Req Resp ε σ β) :
    lift (.error error) >>= next = throw error := rfl

theorem refuse_bind_of {condition : Prop} [Decidable condition] (refused : condition) (error : ε)
    (next : PUnit → Task Req Resp ε σ β) : refuse condition error >>= next = throw error := by
  rw [refuse, if_pos refused]
  rfl

theorem refuse_bind_of_not {condition : Prop} [Decidable condition] (passed : ¬ condition)
    (error : ε) (next : PUnit → Task Req Resp ε σ β) :
    refuse condition error >>= next = next ⟨⟩ := by
  rw [refuse, if_neg passed]
  rfl

/-- A sequence stops at the first error and keeps the state reached there. -/
theorem exec_bind (task : Task Req Resp ε σ α) (next : α → Task Req Resp ε σ β) (state : σ) :
    exec (task >>= next) state = exec task state >>= fun reached =>
      match reached.1 with
      | .ok value => exec (next value) reached.2
      | .error error => .pure (.error error, reached.2) := by
  change (exec task state >>= _) = _
  congr 1
  funext reached
  rcases reached with ⟨result, after⟩
  cases result <;> rfl

theorem exec_get_bind (next : σ → Task Req Resp ε σ α) (state : σ) :
    exec (get >>= next) state = exec (next state) state := rfl

/-- A task runs from one state to another with the given events and result. -/
def Runs (task : Task Req Resp ε σ α) (state : σ) (events : List (Event Req Resp))
    (result : Except ε α) (after : σ) : Prop :=
  (task.exec state).Runs events (result, after)

theorem runs_of_run {respond : server → (request : Req) → Resp request × server}
    {task : Task Req Resp ε σ α} {state after : σ} {before reached : server} {result : Except ε α}
    (ran : (task.exec state).run respond before = some ((result, after), reached)) :
    ∃ events, Runs task state events result after ∧
      Program.Served (Program.Answers respond) before events reached :=
  Program.exists_runs_of_run ran

section Runs
variable {state after : σ} {events : List (Event Req Resp)}

theorem runs_bind_iff {task : Task Req Resp ε σ α} {next : α → Task Req Resp ε σ β}
    {result : Except ε β} :
    Runs (task >>= next) state events result after ↔
      (∃ error, Runs task state events (.error error) after ∧ result = .error error) ∨
      (∃ first second value middle, events = first ++ second ∧
        Runs task state first (.ok value) middle ∧
        Runs (next value) middle second result after) := by
  unfold Runs
  rw [exec_bind, Program.runs_bind_iff]
  constructor
  · rintro ⟨first, second, ⟨result, middle⟩, rfl, left, right⟩
    cases result with
    | error error =>
        obtain ⟨rfl, same⟩ := right
        obtain ⟨rfl, rfl⟩ := Prod.mk.inj same
        exact .inl ⟨error, by simpa using left, rfl⟩
    | ok value => exact .inr ⟨first, second, value, middle, rfl, left, right⟩
  · rintro (⟨error, left, rfl⟩ | ⟨first, second, value, middle, rfl, left, right⟩)
    · exact ⟨events, [], (.error error, after), by simp, left, rfl, rfl⟩
    · exact ⟨first, second, (.ok value, middle), rfl, left, right⟩

@[simp] theorem runs_pure_iff {value : α} {result : Except ε α} :
    Runs (pure value : Task Req Resp ε σ α) state events result after ↔
      events = [] ∧ result = .ok value ∧ after = state := by
  change (events = [] ∧ (result, after) = (.ok value, state)) ↔ _
  rw [Prod.mk.injEq]

@[simp] theorem runs_throw_iff {error : ε} {result : Except ε α} :
    Runs (throw error : Task Req Resp ε σ α) state events result after ↔
      events = [] ∧ result = .error error ∧ after = state := by
  change (events = [] ∧ (result, after) = (.error error, state)) ↔ _
  rw [Prod.mk.injEq]

@[simp] theorem runs_lift_iff {value result : Except ε α} :
    Runs (lift value : Task Req Resp ε σ α) state events result after ↔
      events = [] ∧ result = value ∧ after = state := by
  change (events = [] ∧ (result, after) = (value, state)) ↔ _
  rw [Prod.mk.injEq]

@[simp] theorem runs_get_iff {result : Except ε σ} :
    Runs (get : Task Req Resp ε σ σ) state events result after ↔
      events = [] ∧ result = .ok state ∧ after = state := by
  change (events = [] ∧ (result, after) = (.ok state, state)) ↔ _
  rw [Prod.mk.injEq]

@[simp] theorem runs_set_iff {next : σ} {result : Except ε PUnit} :
    Runs (set next : Task Req Resp ε σ PUnit) state events result after ↔
      events = [] ∧ result = .ok ⟨⟩ ∧ after = next := by
  change (events = [] ∧ (result, after) = (.ok ⟨⟩, next)) ↔ _
  rw [Prod.mk.injEq]

@[simp] theorem runs_diverge_iff {result : Except ε α} :
    Runs (diverge : Task Req Resp ε σ α) state events result after ↔ False := Iff.rfl

@[simp] theorem runs_refuse_iff {condition : Prop} [Decidable condition] {error : ε}
    {result : Except ε PUnit} :
    Runs (refuse condition error : Task Req Resp ε σ PUnit) state events result after ↔
      events = [] ∧ result = (if condition then .error error else .ok ⟨⟩) ∧ after = state := by
  unfold refuse
  split
  · exact runs_throw_iff
  · exact runs_pure_iff

@[simp] theorem runs_request_iff {request : Req} {result : Except ε (Resp request)} :
    Runs (Task.request request : Task Req Resp ε σ (Resp request)) state events result after ↔
      ∃ response, events = [⟨request, response⟩] ∧ result = .ok response ∧ after = state := by
  constructor
  · rintro ⟨response, rest, rfl, rfl, same⟩
    obtain ⟨rfl, rfl⟩ := Prod.mk.inj same
    exact ⟨response, rfl, rfl, rfl⟩
  · rintro ⟨response, rfl, rfl, rfl⟩
    exact ⟨response, [], rfl, rfl, rfl⟩

@[simp] theorem runs_attempt_iff {task : Task Req Resp ε σ α}
    {result : Except ε (Except ε α)} :
    Runs (attempt task) state events result after ↔
      ∃ inner, Runs task state events inner after ∧ result = .ok inner := by
  change (task.exec state >>= _).Runs events (result, after) ↔ _
  rw [Program.runs_bind_iff]
  constructor
  · rintro ⟨first, second, ⟨inner, middle⟩, rfl, left, rfl, same⟩
    obtain ⟨rfl, rfl⟩ := Prod.mk.inj same
    exact ⟨inner, by simpa [Runs] using left, rfl⟩
  · rintro ⟨inner, left, rfl⟩
    exact ⟨events, [], (inner, after), by simp, left, rfl, rfl⟩

@[simp] theorem runs_focus_iff {part : τ} {store : τ → σ} {task : Task Req Resp ε τ α}
    {result : Except ε α} :
    Runs (focus part store task) state events result after ↔
      ∃ left, Runs task part events result left ∧ after = store left := by
  change (task.exec part >>= _).Runs events (result, after) ↔ _
  rw [Program.runs_bind_iff]
  constructor
  · rintro ⟨first, second, ⟨inner, middle⟩, rfl, left, rfl, same⟩
    obtain ⟨rfl, rfl⟩ := Prod.mk.inj same
    exact ⟨middle, by simpa [Runs] using left, rfl⟩
  · rintro ⟨left, runs, rfl⟩
    exact ⟨events, [], (result, left), by simp, runs, rfl, rfl⟩

@[simp] theorem runs_perform_iff {task : Task Req Resp ε Unit α} {result : Except ε α} :
    Runs (perform task) state events result after ↔
      Runs task () events result () ∧ after = state := by
  change (task.exec () >>= _).Runs events (result, after) ↔ _
  rw [Program.runs_bind_iff]
  constructor
  · rintro ⟨first, second, ⟨inner, middle⟩, rfl, left, rfl, same⟩
    obtain ⟨rfl, rfl⟩ := Prod.mk.inj same
    exact ⟨by simpa [Runs] using left, rfl⟩
  · rintro ⟨runs, rfl⟩
    exact ⟨events, [], (result, ()), by simp, runs, rfl, rfl⟩

@[simp] theorem runs_map_iff {task : Task Req Resp ε σ α} {image : α → β}
    {result : Except ε β} :
    Runs (image <$> task) state events result after ↔
      ∃ inner, Runs task state events inner after ∧ result = inner.map image := by
  rw [map_eq_pure_bind, runs_bind_iff]
  simp only [runs_pure_iff]
  constructor
  · rintro (⟨error, runs, rfl⟩ | ⟨first, second, value, middle, rfl, runs, rfl, rfl, rfl⟩)
    · exact ⟨_, runs, rfl⟩
    · exact ⟨_, by simpa using runs, rfl⟩
  · rintro ⟨inner, runs, rfl⟩
    cases inner with
    | error error => exact .inl ⟨error, runs, rfl⟩
    | ok value => exact .inr ⟨events, [], value, after, by simp, runs, rfl, rfl, rfl⟩

end Runs

/-- A result is judged by one condition when it is a value and by another when it is an error. -/
def Judged (returns : α → σ → List (Event Req Resp) → Prop)
    (fails : ε → σ → List (Event Req Resp) → Prop) (state : σ) (log : List (Event Req Resp)) :
    Except ε α → Prop
  | .ok value => returns value state log
  | .error error => fails error state log

@[simp] theorem judged_ok {returns : α → σ → List (Event Req Resp) → Prop}
    {fails : ε → σ → List (Event Req Resp) → Prop} {state : σ} {log : List (Event Req Resp)}
    {value : α} : Judged returns fails state log (.ok value) ↔ returns value state log := Iff.rfl

@[simp] theorem judged_error {returns : α → σ → List (Event Req Resp) → Prop}
    {fails : ε → σ → List (Event Req Resp) → Prop} {state : σ} {log : List (Event Req Resp)}
    {error : ε} : Judged returns fails state log (.error error) ↔ fails error state log := Iff.rfl

/-- Every run of the task that starts here ends as described. The log lists the events so far. -/
def Wp (task : Task Req Resp ε σ α) (state : σ) (log : List (Event Req Resp))
    (returns : α → σ → List (Event Req Resp) → Prop)
    (fails : ε → σ → List (Event Req Resp) → Prop) : Prop :=
  ∀ events result after, Runs task state events result after →
    Judged returns fails after (log ++ events) result

section Wp
variable {state : σ} {log : List (Event Req Resp)}
  {returns : α → σ → List (Event Req Resp) → Prop}
  {fails : ε → σ → List (Event Req Resp) → Prop}

theorem Wp.ok {task : Task Req Resp ε σ α} (wp : Wp task state log returns fails)
    {events : List (Event Req Resp)} {value : α} {after : σ}
    (runs : Runs task state events (.ok value) after) : returns value after (log ++ events) :=
  wp events (.ok value) after runs

theorem Wp.error {task : Task Req Resp ε σ α} (wp : Wp task state log returns fails)
    {events : List (Event Req Resp)} {error : ε} {after : σ}
    (runs : Runs task state events (.error error) after) : fails error after (log ++ events) :=
  wp events (.error error) after runs

/-- A condition on the state and the log holds whatever the result is. -/
theorem Wp.either {task : Task Req Resp ε σ α} {holds : σ → List (Event Req Resp) → Prop}
    (wp : Wp task state log (fun _ => holds) (fun _ => holds)) {events : List (Event Req Resp)}
    {result : Except ε α} {after : σ} (runs : Runs task state events result after) :
    holds after (log ++ events) := by
  cases result with
  | ok value => exact wp.ok runs
  | error error => exact wp.error runs

theorem Wp.mono {task : Task Req Resp ε σ α} (wp : Wp task state log returns fails)
    {returns' : α → σ → List (Event Req Resp) → Prop}
    {fails' : ε → σ → List (Event Req Resp) → Prop}
    (ok : ∀ value after log, returns value after log → returns' value after log)
    (error : ∀ error after log, fails error after log → fails' error after log) :
    Wp task state log returns' fails' := by
  intro events result after runs
  cases result with
  | ok value => exact ok _ _ _ (wp.ok runs)
  | error failure => exact error _ _ _ (wp.error runs)

theorem wp_bind_iff {task : Task Req Resp ε σ β} {next : β → Task Req Resp ε σ α} :
    Wp (task >>= next) state log returns fails ↔
      Wp task state log (fun value middle log => Wp (next value) middle log returns fails) fails := by
  constructor
  · intro wp events result middle runs
    cases result with
    | error error => exact wp events (.error error) middle (runs_bind_iff.mpr (.inl ⟨error, runs, rfl⟩))
    | ok value =>
        intro later result after continued
        have whole := wp (events ++ later) result after
          (runs_bind_iff.mpr (.inr ⟨events, later, value, middle, rfl, runs, continued⟩))
        simpa [List.append_assoc] using whole
  · intro wp events result after runs
    rcases runs_bind_iff.mp runs with ⟨error, failed, rfl⟩ |
      ⟨first, second, value, middle, rfl, started, continued⟩
    · exact wp.error failed
    · have later := (wp.ok started) second result after continued
      simpa [List.append_assoc] using later

/-- A task without requests ends in one way. -/
theorem wp_silent_iff {task : Task Req Resp ε σ α} {result : Except ε α} {final : σ}
    (silent : ∀ events outcome after, Runs task state events outcome after ↔
      events = [] ∧ outcome = result ∧ after = final) :
    Wp task state log returns fails ↔ Judged returns fails final log result := by
  constructor
  · intro wp
    have ended := wp [] result final ((silent _ _ _).mpr ⟨rfl, rfl, rfl⟩)
    simpa using ended
  · intro ended events outcome after runs
    obtain ⟨rfl, rfl, rfl⟩ := (silent _ _ _).mp runs
    simpa using ended

@[simp] theorem wp_pure_iff {value : α} :
    Wp (pure value) state log returns fails ↔ returns value state log :=
  wp_silent_iff fun _ _ _ => runs_pure_iff

@[simp] theorem wp_throw_iff {error : ε} :
    Wp (throw error : Task Req Resp ε σ α) state log returns fails ↔ fails error state log :=
  wp_silent_iff fun _ _ _ => runs_throw_iff

@[simp] theorem wp_lift_iff {result : Except ε α} :
    Wp (lift result) state log returns fails ↔ Judged returns fails state log result :=
  wp_silent_iff fun _ _ _ => runs_lift_iff

/-- A lifted result stops the task or passes its value on. -/
theorem wp_lift_bind {result : Except ε β} {next : β → Task Req Resp ε σ α}
    (error : ∀ error, result = .error error → fails error state log)
    (ok : ∀ value, result = .ok value → Wp (next value) state log returns fails) :
    Wp (lift result >>= next) state log returns fails := by
  rw [wp_bind_iff, wp_lift_iff]
  cases result with
  | error failure => exact error failure rfl
  | ok value => exact ok value rfl

/-- What follows a task can assume what the task ensures. -/
theorem Wp.bind {task : Task Req Resp ε σ β} {next : β → Task Req Resp ε σ α}
    {middle : β → σ → List (Event Req Resp) → Prop} (wp : Wp task state log middle fails)
    (rest : ∀ value after log, middle value after log → Wp (next value) after log returns fails) :
    Wp (task >>= next) state log returns fails :=
  wp_bind_iff.mpr (wp.mono rest fun _ _ _ failed => failed)

@[simp] theorem wp_diverge : Wp diverge state log returns fails := by
  simp [Wp]

@[simp] theorem wp_get_iff {returns : σ → σ → List (Event Req Resp) → Prop} :
    Wp (get : Task Req Resp ε σ σ) state log returns fails ↔ returns state state log :=
  wp_silent_iff fun _ _ _ => runs_get_iff

@[simp] theorem wp_set_iff {next : σ} {returns : PUnit → σ → List (Event Req Resp) → Prop} :
    Wp (set next : Task Req Resp ε σ PUnit) state log returns fails ↔ returns ⟨⟩ next log :=
  wp_silent_iff fun _ _ _ => runs_set_iff

@[simp] theorem wp_refuse_iff {condition : Prop} [Decidable condition] {error : ε}
    {returns : PUnit → σ → List (Event Req Resp) → Prop} :
    Wp (refuse condition error : Task Req Resp ε σ PUnit) state log returns fails ↔
      if condition then fails error state log else returns ⟨⟩ state log := by
  unfold refuse
  split <;> simp

@[simp] theorem wp_request_iff {request : Req}
    {returns : Resp request → σ → List (Event Req Resp) → Prop} :
    Wp (Task.request request : Task Req Resp ε σ (Resp request)) state log returns fails ↔
      ∀ response, returns response state (log ++ [⟨request, response⟩]) := by
  constructor
  · intro wp response
    exact wp _ _ _ (runs_request_iff.mpr ⟨response, rfl, rfl, rfl⟩)
  · intro all events result after runs
    obtain ⟨response, rfl, rfl, rfl⟩ := runs_request_iff.mp runs
    exact all response

@[simp] theorem wp_attempt_iff {task : Task Req Resp ε σ α}
    {returns : Except ε α → σ → List (Event Req Resp) → Prop} :
    Wp (attempt task) state log returns fails ↔
      Wp task state log (fun value => returns (.ok value)) (fun error => returns (.error error)) := by
  constructor
  · intro wp events result after runs
    have whole := wp events (.ok result) after (runs_attempt_iff.mpr ⟨result, runs, rfl⟩)
    cases result <;> exact whole
  · intro wp events result after runs
    obtain ⟨inner, ran, rfl⟩ := runs_attempt_iff.mp runs
    have part := wp events inner after ran
    cases inner <;> exact part

@[simp] theorem wp_focus_iff {part : τ} {store : τ → σ} {task : Task Req Resp ε τ α} :
    Wp (focus part store task) state log returns fails ↔
      Wp task part log (fun value left => returns value (store left))
        (fun error left => fails error (store left)) := by
  constructor
  · intro wp events result after runs
    exact wp events result (store after) (runs_focus_iff.mpr ⟨after, runs, rfl⟩)
  · intro wp events result after runs
    obtain ⟨left, ran, rfl⟩ := runs_focus_iff.mp runs
    exact wp events result left ran

@[simp] theorem wp_perform_iff {task : Task Req Resp ε Unit α} :
    Wp (perform task) state log returns fails ↔
      Wp task () log (fun value _ => returns value state) (fun error _ => fails error state) := by
  constructor
  · intro wp events result after runs
    exact wp events result state (runs_perform_iff.mpr ⟨runs, rfl⟩)
  · intro wp events result after runs
    obtain ⟨ran, rfl⟩ := runs_perform_iff.mp runs
    exact wp events result () ran

@[simp] theorem wp_map_iff {task : Task Req Resp ε σ β} {image : β → α} :
    Wp (image <$> task) state log returns fails ↔
      Wp task state log (fun value => returns (image value)) fails := by
  rw [map_eq_pure_bind, wp_bind_iff]
  simp

end Wp

end Task

end TinySandbox.Library
