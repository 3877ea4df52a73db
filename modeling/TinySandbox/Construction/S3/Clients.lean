/-
This file runs the calls of one S3 filesystem on a bucket that nobody else uses, and clients that open
handles on one bucket and send their requests in any order.
The bucket answers by a function of its state and the request.
-/

import TinySandbox.Construction.S3.Bucket
import TinySandbox.Construction.S3.Shared
import TinySandbox.Construction.S3.Vfs
import TinySandbox.Library.Interleaving

namespace TinySandbox.S3
open Library Mem

structure World where
  state : State
  bucket : BucketState

abbrev Respond := BucketState → (request : Request) → Response request × BucketState

def World.new (bucket : BucketState) : World where
  state := State.new
  bucket := bucket

/-- A call has no outcome when the pages of a listing do not end. -/
def World.step (vfs : S3Vfs) (respond : Respond) (world : World) (call : VfsCall) :
    Option (VfsResult Reply × World) :=
  (((vfs.call call).exec world.state).run respond world.bucket).map
    fun reached => (reached.1.1, { state := reached.1.2, bucket := reached.2 })

/-- A run keeps the reply of every call. -/
def World.run (vfs : S3Vfs) (respond : Respond) (world : World) :
    List VfsCall → Option (List (VfsResult Reply) × World)
  | [] => some ([], world)
  | call :: rest =>
      (world.step vfs respond call).bind fun reached =>
        (reached.2.run vfs respond rest).map fun final => (reached.1 :: final.1, final.2)

theorem World.step_runs {vfs : S3Vfs} {respond : Respond} {world after : World} {call : VfsCall}
    {reply : VfsResult Reply} (stepped : world.step vfs respond call = some (reply, after)) :
    ∃ events, (vfs.call call).Runs world.state events reply after.state ∧
      Program.Served (Program.Answers respond) world.bucket events after.bucket := by
  obtain ⟨⟨⟨found, state⟩, bucket⟩, ran, same⟩ := Option.map_eq_some_iff.mp stepped
  obtain ⟨rfl, rfl⟩ := Prod.mk.inj same
  exact Task.runs_of_run ran

/-- A run is a session, and the bucket gave its responses. -/
theorem World.run_session {vfs : S3Vfs} {respond : Respond} {world after : World}
    {calls : List VfsCall} {replies : List (VfsResult Reply)}
    (ran : world.run vfs respond calls = some (replies, after)) :
    ∃ events, Session vfs (fun _ _ => True) world.state calls events replies after.state ∧
      Program.Served (Program.Answers respond) world.bucket events after.bucket := by
  induction calls generalizing world replies with
  | nil =>
      obtain ⟨rfl, rfl⟩ := Prod.mk.inj (Option.some.inj ran)
      exact ⟨[], ⟨rfl, rfl, rfl⟩, rfl⟩
  | cons call rest ih =>
      obtain ⟨⟨reply, middle⟩, stepped, mapped⟩ := Option.bind_eq_some_iff.mp ran
      obtain ⟨⟨others, final⟩, later, same⟩ := Option.map_eq_some_iff.mp mapped
      obtain ⟨rfl, rfl⟩ := Prod.mk.inj same
      obtain ⟨first, runs, served⟩ := step_runs stepped
      obtain ⟨events, session, continued⟩ := ih later
      exact ⟨first ++ events,
        ⟨trivial, first, events, reply, others, middle.state, rfl, rfl, runs, session⟩,
        Program.served_append_iff.mpr ⟨middle.bucket, served, continued⟩⟩

open Library Library.Task

/-- A client opens a path, uses the handle, and closes it. -/
structure Client where
  vfs : S3Vfs
  path : Text
  mode : OpenMode
  ops : List HandleOp
  keeps : ∀ op ∈ ops, op.releases = false

/-- The staged state is the one in front of the close. -/
structure Outcome where
  staged : HandleState
  replies : List (VfsResult Unit)
  closed : VfsResult Unit
  deriving DecidableEq

/-- An operation that fails does not stop the next one. -/
def useHandle (vfs : S3Vfs) : List HandleOp → S3Task HandleState (List (VfsResult Unit))
  | [] => pure []
  | op :: rest => do
      let reply ← attempt (op.body vfs)
      let others ← useHandle vfs rest
      pure (reply :: others)

def useAndClose (vfs : S3Vfs) (ops : List HandleOp) : S3Task HandleState Outcome := do
  let replies ← useHandle vfs ops
  let staged ← get
  let closed ← attempt vfs.closeResolved
  pure { staged, replies, closed }

def Client.session (client : Client) : Exchange Outcome := do
  let cell ← client.vfs.openHandle client.path client.mode
  focus cell (fun _ => ()) (useAndClose client.vfs client.ops)

/-- A stream always lands at its close, and a buffer lands when it is dirty. -/
def Staging.staged : Staging → Bool
  | .remote _ => false
  | .buffer held => held.dirty
  | .stream _ => true
  | .failed _ => false

/-- The bytes of the writes that returned Ok. -/
def accepted (ops : List HandleOp) (replies : List (VfsResult Unit)) : Bytes :=
  (ops.zip replies).flatMap fun entry =>
    match entry with
    | (.write _ data, .ok _) => data
    | _ => []

inductive Change where
  | put (key : Text) (body : Bytes)
  | delete (key : Text)

def Alters (service : Service) (state : BucketState) (change : Change) (after : BucketState) : Prop :=
  match change with
  | .put key body => after = state.store service key body
  | .delete key => after = { state with objects := state.objects.erase key }

abbrev ClientPool := Pool Request Response (VfsResult Outcome × Unit) BucketState

/-- A step of the run, with the bucket in front of it. -/
abbrev ClientStep := BucketState × Label Request Response Change

def Client.pool (clients : Nat → Client) (bucket : BucketState) : ClientPool where
  server := bucket
  clients := fun number => (clients number).session.exec ()

/-- The bucket refuses or loses requests, but it never denies that an object is there. -/
abbrev ClientTrace (service : Service) : ClientPool → List ClientStep → ClientPool → Prop :=
  Pool.Trace (Serves service (· ≠ .missing)) (Alters service)

/-- The bucket in front of the last look of a client at a key. -/
def observedAt (number : Nat) (key : Text) (steps : List ClientStep) : Option BucketState :=
  (steps.filterMap fun entry =>
    match entry.2 with
    | .client client ⟨.head _ target, _⟩ =>
        if client = number ∧ target = key then some entry.1 else none
    | _ => none).getLast?

/-- The bucket in front of the last publication of a client at a key that succeeded. -/
def publishedAt (number : Nat) (key : Text) (steps : List ClientStep) : Option BucketState :=
  (steps.filterMap fun entry =>
    match entry.2 with
    | .client client ⟨.put _ target _ _, .ok _⟩ =>
        if client = number ∧ target = key then some entry.1 else none
    | .client client ⟨.completeUpload _ target _ _ _, .ok _⟩ =>
        if client = number ∧ target = key then some entry.1 else none
    | _ => none).getLast?

end TinySandbox.S3
