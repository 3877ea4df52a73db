/-
This file interleaves programs that share one server, one request at a time.
Changes from outside can happen between any two requests.
-/

import TinySandbox.Library.Program

namespace TinySandbox.Library

/-- The clients have programs left to run. -/
structure Pool (Req : Type) (Resp : Req → Type) (α server : Type) where
  server : server
  clients : Nat → Program Req Resp α

/-- A step answers a request of one client or changes the server from outside. -/
inductive Label (Req : Type) (Resp : Req → Type) (change : Type) where
  | client (number : Nat) (event : Event Req Resp)
  | outside (change : change)

namespace Pool

variable {Req : Type} {Resp : Req → Type} {α server change : Type}

inductive Step (serves : server → Event Req Resp → server → Prop)
    (alters : server → change → server → Prop) :
    Pool Req Resp α server → Label Req Resp change → Pool Req Resp α server → Prop where
  | client {pool : Pool Req Resp α server} {number : Nat} {request : Req}
      {next : Resp request → Program Req Resp α} {response : Resp request} {after : server}
      (waits : pool.clients number = .call request next)
      (served : serves pool.server ⟨request, response⟩ after) :
      Step serves alters pool (.client number ⟨request, response⟩)
        { server := after, clients := Function.update pool.clients number (next response) }
  | outside {pool : Pool Req Resp α server} {change : change} {after : server}
      (altered : alters pool.server change after) :
      Step serves alters pool (.outside change) { pool with server := after }

/-- A trace lists every step with the server before it. -/
def Trace (serves : server → Event Req Resp → server → Prop)
    (alters : server → change → server → Prop) :
    Pool Req Resp α server → List (server × Label Req Resp change) → Pool Req Resp α server → Prop
  | first, [], last => last = first
  | first, entry :: rest, last =>
      entry.1 = first.server ∧ ∃ next, Step serves alters first entry.2 next ∧
        Trace serves alters next rest last

/-- The event of one client, if the step is its own. -/
def eventOf (number : Nat) (entry : server × Label Req Resp change) : Option (Event Req Resp) :=
  match entry.2 with
  | .client client event => if client = number then some event else none
  | .outside _ => none

/-- The clients take turns in the given order, and a client that has nothing to send waits. -/
def schedule (respond : server → (request : Req) → Resp request × server) :
    List Nat → Pool Req Resp α server →
      List (server × Label Req Resp change) × Pool Req Resp α server
  | [], pool => ([], pool)
  | number :: order, pool =>
      match pool.clients number with
      | .pure _ => schedule respond order pool
      | .stuck => schedule respond order pool
      | .call request next =>
          let answer := respond pool.server request
          let later := schedule respond order {
            server := answer.2
            clients := Function.update pool.clients number (next answer.1) }
          ((pool.server, .client number ⟨request, answer.1⟩) :: later.1, later.2)

section Traces
variable {serves : server → Event Req Resp → server → Prop}
  {alters : server → change → server → Prop} {first last : Pool Req Resp α server}
  {steps before after : List (server × Label Req Resp change)} {number : Nat}

theorem trace_append_iff :
    Trace serves alters first (before ++ after) last ↔
      ∃ middle, Trace serves alters first before middle ∧ Trace serves alters middle after last := by
  induction before generalizing first with
  | nil => simp [Trace]
  | cons entry rest ih =>
      simp only [List.cons_append, Trace, ih]
      constructor
      · rintro ⟨here, next, step, middle, left, right⟩
        exact ⟨middle, ⟨here, next, step, left⟩, right⟩
      · rintro ⟨middle, ⟨here, next, step, left⟩, right⟩
        exact ⟨here, next, step, middle, left, right⟩

/-- The steps of a client that has finished are a run of its program. -/
theorem Trace.runs (trace : Trace serves alters first steps last) {value : α}
    (finished : last.clients number = .pure value) :
    (first.clients number).Runs (steps.filterMap (eventOf number)) value := by
  induction steps generalizing first with
  | nil =>
      obtain rfl : last = first := trace
      rw [finished]
      exact ⟨rfl, rfl⟩
  | cons entry rest ih =>
      obtain ⟨-, next, step, later⟩ := trace
      have runs := ih later
      obtain ⟨state, label⟩ := entry
      cases step with
      | outside altered => exact runs
      | client waits served =>
          rename_i other request continuation response reached
          rcases eq_or_ne other number with rfl | different
          · rw [waits, List.filterMap_cons_some (show eventOf other (state,
              Label.client other ⟨request, response⟩) = some ⟨request, response⟩ from if_pos rfl)]
            exact ⟨response, _, rfl, by simpa using runs⟩
          · rw [List.filterMap_cons_none (show eventOf number (state,
              Label.client other ⟨request, response⟩) = none from if_neg different)]
            simpa [different.symm] using runs

/-- What every step preserves holds of the server at the end of a trace. -/
theorem Trace.preserves {property : server → Prop} (trace : Trace serves alters first steps last)
    (start : property first.server)
    (served : ∀ state event next, serves state event next → property state → property next)
    (altered : ∀ state change next, alters state change next → property state → property next) :
    property last.server := by
  induction steps generalizing first with
  | nil =>
      obtain rfl : last = first := trace
      exact start
  | cons entry rest ih =>
      obtain ⟨-, next, step, later⟩ := trace
      refine ih later ?_
      obtain ⟨state, label⟩ := entry
      cases step with
      | client waits answers => exact served _ _ _ answers start
      | outside alteration => exact altered _ _ _ alteration start

/-- An event of a client is one of the steps of the trace. -/
theorem eventOf_eq_some_iff {entry : server × Label Req Resp change} {event : Event Req Resp} :
    eventOf number entry = some event ↔ entry.2 = .client number event := by
  obtain ⟨state, label⟩ := entry
  cases label with
  | outside change => simp [eventOf]
  | client client found =>
      simp only [eventOf, Option.ite_none_right_eq_some, Option.some.injEq, Label.client.injEq]

/-- The step of a client can be found in the trace, with the server that answered it. -/
theorem exists_step_of_event {events later : List (Event Req Resp)} {event : Event Req Resp}
    (trace : Trace serves alters first steps last)
    (same : steps.filterMap (eventOf number) = events ++ event :: later) :
    ∃ before after middle next, steps = before ++ (middle.server, .client number event) :: after ∧
      before.filterMap (eventOf number) = events ∧ after.filterMap (eventOf number) = later ∧
      Trace serves alters first before middle ∧ serves middle.server event next.server ∧
      Trace serves alters next after last := by
  obtain ⟨before, rest, rfl, front, back⟩ := List.filterMap_eq_append_iff.mp same
  obtain ⟨skipped, entry, after, rfl, silent, own, behind⟩ := List.filterMap_eq_cons_iff.mp back
  obtain ⟨state, label⟩ := entry
  obtain rfl : label = .client number event := eventOf_eq_some_iff.mp own
  rw [← List.append_assoc] at trace
  obtain ⟨middle, left, here, next, step, right⟩ := trace_append_iff.mp trace
  obtain rfl : state = middle.server := here
  refine ⟨before ++ skipped, after, middle, next, by simp, ?_, behind, left, ?_, right⟩
  · rw [List.filterMap_append, front, List.filterMap_eq_nil_iff.mpr silent, List.append_nil]
  · cases step with
    | client waits served => exact served

/-- Clients that take turns make a trace. -/
theorem trace_schedule {respond : server → (request : Req) → Resp request × server}
    (answers : ∀ state request,
      serves state ⟨request, (respond state request).1⟩ (respond state request).2)
    {order : List Nat} (taken : schedule respond order first = (steps, last)) :
    Trace serves alters first steps last := by
  induction order generalizing first steps with
  | nil =>
      obtain ⟨rfl, rfl⟩ := Prod.mk.inj taken
      rfl
  | cons number rest ih =>
      rw [schedule] at taken
      split at taken
      · exact ih taken
      · exact ih taken
      · rename_i request next waits
        obtain ⟨rfl, rfl⟩ := Prod.mk.inj taken
        exact ⟨rfl, _, .client waits (answers first.server request), ih rfl⟩

end Traces

end Pool

end TinySandbox.Library
