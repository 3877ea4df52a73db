/-
This file runs the operations of the portable dispatcher and ends the run.
Promises settle in any order, and what waits for a promise goes on when it settles.
-/

import Mathlib.Logic.Relation
import TinySandbox.Construction.Portable.Dispatch

namespace TinySandbox.Portable
open Library

/-- The log lists the calls of the `Vfs`, the handles it opened, the descriptors the guest closed,
and the calls that failed. -/
inductive VfsEvent where
  | started (call : BoundCall)
  | opened (handle : Handle)
  | taken (handle : Handle)
  | failed (call : BoundCall)
  deriving DecidableEq

/-- A promise that has not settled is awaited by an operation, is an open whose handle nobody wants,
is a close or an abort whose failure counts, or is only waited for. -/
inductive Work where
  | operation (call : BoundCall) (number : Nat) (next : Answer → Running HostValue)
  | abandoned (path : Text) (mode : OpenMode) (number : Nat)
  | closing (call : BoundCall)
  | waiting (call : BoundCall)

inductive Phase where
  | running
  | settling (commit : Bool)
  | closing (expired : Bool)
  | finished (expired : Bool)
  deriving DecidableEq

structure World where
  files : OrderedMap Nat OpenFile
  nextFd : Nat
  opening : Nat
  failure : Option Thrown
  works : List Work
  calls : Nat
  log : List VfsEvent
  phase : Phase

namespace World

def new : World where
  files := ∅
  nextFd := 3
  opening := 0
  failure := none
  works := []
  calls := 0
  log := []
  phase := .running

def record (world : World) (events : List VfsEvent) : World :=
  { world with log := world.log ++ events }

def start (world : World) (call : BoundCall) : World :=
  { world with calls := world.calls + 1, log := world.log ++ [.started call] }

def track (world : World) (work : Work) : World := { world with works := world.works ++ [work] }

/-- Only the first failure is kept. -/
def fail (world : World) (error : Thrown) : World :=
  { world with failure := world.failure.or (some error) }

/-- These requests are answered from the table of descriptors. -/
def table (settings : Settings) (world : World) : (request : Request) →
    Option (request.Response × World)
  | .isFull => some (settings.maxOpenFiles ≤ world.files.size + world.opening ||
      maxSafeInteger ≤ world.nextFd, world)
  | .reserve => some ((), { world with opening := world.opening + 1 })
  | .unreserve => some ((), { world with opening := world.opening - 1 })
  | .store handle => some (world.nextFd, { world with
      files := world.files.insert world.nextFd { handle, position := 0 }
      nextFd := world.nextFd + 1 })
  | .lookup fd => some (world.files.get fd, world)
  | .remove fd => some ((), { world with
      files := world.files.erase fd
      log := world.log ++ ((world.files.get fd).map fun file => VfsEvent.taken file.handle).toList })
  | .advance fd count => some ((), { world with
      files := match world.files.get fd with
        | some file => world.files.insert fd { file with position := file.position + count }
        | none => world.files })
  | .checkpoint => none
  | .vfs _ => none

end World

/-- A close or an abort may go on after the synchronous API has answered. -/
def BoundCall.detach : BoundCall → Bool
  | .close _ => true
  | .abort _ => true
  | _ => false

/-- What a settled call adds to the log. -/
def outcome (call : BoundCall) : Answer → List VfsEvent
  | .returned reply =>
      match call with
      | .open _ _ =>
          let handle : Handle := { value := reply.value, call := reply.call }
          if handle.IsValid then [.opened handle] else []
      | _ => []
  | .failed _ => [.failed call]
  | .wouldBlock => []

/-- A call settles with a value or an error. -/
inductive Settles (number : Nat) : Answer → Prop where
  | returned (value : Returned) (buffer : Bytes) :
      Settles number (.returned { value, buffer, call := number })
  | failed (code : Option VfsErrno) : Settles number (.failed code)

/-- The synchronous API takes a detached call for done and gives up on any other. -/
def lateAnswer (call : BoundCall) (number : Nat) : Answer :=
  if call.detach then .returned { value := .other, call := number } else .wouldBlock

def lateWork (call : BoundCall) (number : Nat) : Work :=
  match call with
  | .close _ => .closing call
  | .abort _ => .closing call
  | .open path mode => .abandoned path mode number
  | call => .waiting call

inductive Mode where
  | inline
  | awaitable
  deriving DecidableEq

/-- An operation is done, or it awaits the promise of a call. -/
inductive Stop where
  | done (result : Except Thrown HostValue)
  | suspended (call : BoundCall) (number : Nat) (next : Answer → Running HostValue)

/-- An operation runs until it is done or awaits a promise. The `Vfs` decides what answers at once,
and the run decides which checkpoints pass. -/
inductive Runs (settings : Settings) (mode : Mode) :
    Running HostValue → World → Stop → World → Prop where
  | done (result : Except Thrown HostValue) (world : World) :
      Runs settings mode (.pure (result, ())) world (.done result) world
  | checkpoint (passes : Bool) {next : Bool → Running HostValue} {world after : World} {stop : Stop}
      (rest : Runs settings mode (next passes) world stop after) :
      Runs settings mode (.call .checkpoint next) world stop after
  | table {request : Request} {next : request.Response → Running HostValue}
      {world middle after : World} {stop : Stop} {response : request.Response}
      (found : world.table settings request = some (response, middle))
      (rest : Runs settings mode (next response) middle stop after) :
      Runs settings mode (.call request next) world stop after
  | direct {call : BoundCall} {next : Answer → Running HostValue} {world after : World} {stop : Stop}
      {answer : Answer} (settles : Settles world.calls answer)
      (rest : Runs settings mode (next answer) ((world.start call).record (outcome call answer))
        stop after) : Runs settings mode (.call (.vfs call) next) world stop after
  | later {call : BoundCall} {next : Answer → Running HostValue} {world after : World} {stop : Stop}
      (inline : mode = .inline)
      (rest : Runs settings mode (next (lateAnswer call world.calls))
        ((world.start call).track (lateWork call world.calls)) stop after) :
      Runs settings mode (.call (.vfs call) next) world stop after
  | suspends {call : BoundCall} {next : Answer → Running HostValue} {world : World}
      (awaitable : mode = .awaitable) :
      Runs settings mode (.call (.vfs call) next) world (.suspended call world.calls next)
        (world.start call)

/-- A suspended operation is tracked until it is done. -/
def World.park (world : World) : Stop → World
  | .done _ => world
  | .suspended call number next => world.track (.operation call number next)

/-- The method that `discardHandle` calls. -/
def discardHandle (settings : Settings) (handle : Handle) : BoundCall :=
  if settings.hasAbort then .abort handle else .close handle

/-- The method that ends a descriptor of a run. -/
def endFile (settings : Settings) (commit : Bool) (handle : Handle) : BoundCall :=
  if ! commit && settings.hasAbort then .abort handle else .close handle

/-- A close of the end of a run answers at once or is tracked. -/
inductive Closes (settings : Settings) (commit : Bool) : List OpenFile → World → World → Prop where
  | nil (world : World) : Closes settings commit [] world world
  | returned {file : OpenFile} {files : List OpenFile} {world after : World}
      (rest : Closes settings commit files
        (world.start (endFile settings commit file.handle)) after) :
      Closes settings commit (file :: files) world after
  | failed (code : Option VfsErrno) {file : OpenFile} {files : List OpenFile} {world after : World}
      (rest : Closes settings commit files
        (((world.start (endFile settings commit file.handle)).record
          [.failed (endFile settings commit file.handle)]).fail (vfsFailure code "close")) after) :
      Closes settings commit (file :: files) world after
  | later {file : OpenFile} {files : List OpenFile} {world after : World}
      (rest : Closes settings commit files
        ((world.start (endFile settings commit file.handle)).track
          (.closing (endFile settings commit file.handle))) after) :
      Closes settings commit (file :: files) world after

/-- The guest calls while the run goes on, and promises settle at any time. Waiting for the rest of
the work stops when there is none or when the time is up. -/
inductive Step (settings : Settings) (world : World) : World → Prop where
  | calls (mode : Mode) (op : HostOp) (arguments : Arguments) (fuel : Nat) {stop : Stop}
      {after : World}
      (running : world.phase = .running)
      (runs : Runs settings mode ((dispatch settings arguments fuel op).exec ()) world stop after) :
      Step settings world (after.park stop)
  | resumes {call : BoundCall} {number : Nat} {next : Answer → Running HostValue}
      {before behind : List Work} {answer : Answer} {stop : Stop} {after : World}
      (work : world.works = before ++ .operation call number next :: behind)
      (settles : Settles number answer)
      (runs : Runs settings .awaitable (next answer)
        ({ world with works := before ++ behind }.record (outcome call answer)) stop after) :
      Step settings world (after.park stop)
  | opensNothing {path : Text} {mode : OpenMode} {number : Nat} {before behind : List Work}
      {answer : Answer}
      (work : world.works = before ++ .abandoned path mode number :: behind)
      (settles : Settles number answer) (nothing : outcome (.open path mode) answer = [] ∨
        ∃ call, outcome (.open path mode) answer = [.failed call]) :
      Step settings world
        ({ world with works := before ++ behind }.record (outcome (.open path mode) answer))
  | discards {path : Text} {mode : OpenMode} {number : Nat} {before behind : List Work}
      {handle : Handle} {answer : Answer} (settled : List VfsEvent)
      (work : world.works = before ++ .abandoned path mode number :: behind)
      (settles : Settles number answer) (opened : outcome (.open path mode) answer = [.opened handle])
      (direct : settled = [] ∨ settled = [.failed (discardHandle settings handle)]) :
      Step settings world
        ((({ world with works := before ++ behind }.record [.opened handle]).start
          (discardHandle settings handle)).record settled)
  | discardsLater {path : Text} {mode : OpenMode} {number : Nat} {before behind : List Work}
      {handle : Handle} {answer : Answer}
      (work : world.works = before ++ .abandoned path mode number :: behind)
      (settles : Settles number answer)
      (opened : outcome (.open path mode) answer = [.opened handle]) :
      Step settings world
        ((({ world with works := before ++ behind }.record [.opened handle]).start
          (discardHandle settings handle)).track (.waiting (discardHandle settings handle)))
  | closed {call : BoundCall} {before behind : List Work} {number : Nat} {answer : Answer}
      (work : world.works = before ++ .closing call :: behind) (settles : Settles number answer)
      (returned : outcome call answer = []) :
      Step settings world { world with works := before ++ behind }
  | closeFailed (code : Option VfsErrno) {call : BoundCall} {before behind : List Work}
      (work : world.works = before ++ .closing call :: behind) :
      Step settings world
        (({ world with works := before ++ behind }.record [.failed call]).fail
          (vfsFailure code "close"))
  | waited {call : BoundCall} {before behind : List Work} (settled : List VfsEvent)
      (work : world.works = before ++ .waiting call :: behind)
      (outcome : settled = [] ∨ settled = [.failed call]) :
      Step settings world ({ world with works := before ++ behind }.record settled)
  | finishes (commit : Bool) (running : world.phase = .running) :
      Step settings world { world with phase := .settling commit }
  | closesAll (commit expired : Bool) {after : World} (settling : world.phase = .settling commit)
      (settled : expired = false → world.works = [])
      (closes : Closes settings commit (world.files.entries.map Prod.snd) world after) :
      Step settings world { after with files := ∅, phase := .closing expired }
  | returns (expired late : Bool) (closing : world.phase = .closing expired)
      (settled : late = false → world.works = []) :
      Step settings world { world with phase := .finished (expired || late) }

/-- The dispatcher gets from a new one to this one. -/
def Reaches (settings : Settings) (world : World) : Prop :=
  Relation.ReflTransGen (Step settings) .new world

end TinySandbox.Portable
