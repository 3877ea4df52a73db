/-
This file gives the file behind a redirect, its writers, and the task that writes a chunk.
Whoever holds the lock alone goes on, and what happens between two awaits is one action.
-/

import TinySandbox.Construction.Sandbox.Fs

namespace TinySandbox.Sandbox
open Library Mem

structure RedirectState where
  handle : Option Nat
  offset : Nat
  error : Option Errno

/-- A task owns the lock from the accepted chunk on, and `finish` owns it while it releases. -/
inductive Holder where
  | free
  | writing (handle : Nat) (data : Bytes)
  | checking (handle : Nat) (data : Bytes)
  | finishing (handle : Nat) (abort cancelled : Bool)

/-- The execution may be cancelled before the release or within it, and then it is an abort. -/
structure Release where
  handle : Nat
  abort : Bool
  cancelled : Bool
  result : VfsResult Unit

/-- The backend receives a part of the data when it answers with a count. -/
inductive RedirectEvent where
  | accepted (chunk : Bytes)
  | rejected (error : Errno)
  | flushed (result : VfsResult Unit)
  | wrote (handle offset : Nat) (data : Bytes) (result : VfsResult Nat)
  | failed (error : Errno)
  | released (release : Release)
  | finished (result : VfsResult Unit)

/-- Writers share the file, and each of them may be polled at any time. -/
inductive RedirectAction where
  | pollWrite (buf : Bytes)
  | pollFlush
  | wroteAt (result : VfsResult Nat)
  | checkpoint (result : VfsResult Unit)
  | discardTask
  | finish (cancelled : Bool)
  | released (cancelled : Bool) (result : VfsResult Unit)

/-- The state of a redirect file with the holder of its lock. -/
structure SharedRedirect where
  state : RedirectState
  holder : Holder

namespace SharedRedirect

def new (handle : Nat) : SharedRedirect where
  state := { handle := some handle, offset := 0, error := none }
  holder := .free

def outcomeOf : Option Errno → VfsResult Unit
  | none => .ok ()
  | some error => .error error

/-- The placeholder error stays when the task never completes. -/
def pollWrite (file : SharedRedirect) (buf : Bytes) : List RedirectEvent × SharedRedirect :=
  match file.state.error, file.state.handle with
  | some error, _ => ([.rejected error], file)
  | none, none => ([.rejected .EBADF], file)
  | none, some handle =>
      let data := buf.take (min buf.length streamChunkBytes)
      if data = [] then ([.accepted []], file)
      else
        ([.accepted data],
          { state := { file.state with error := some Errno.EIO }, holder := .writing handle data })

def fail (file : SharedRedirect) (error : Errno) : SharedRedirect where
  state := { file.state with error := some error }
  holder := .free

/-- The filesystem refuses a count that is larger than the data. -/
def boundedCount (data : Bytes) : VfsResult Nat → VfsResult Nat
  | .ok count => if data.length < count then .error Errno.EIO else .ok count
  | .error error => .error error

def wroteAt (file : SharedRedirect) (handle : Nat) (data : Bytes) (result : VfsResult Nat) :
    List RedirectEvent × SharedRedirect :=
  let event := RedirectEvent.wrote handle file.state.offset data result
  match boundedCount data result with
  | .error error => ([event, .failed error], file.fail error)
  | .ok count =>
      if count = 0 then ([event, .failed .ENOSPC], file.fail .ENOSPC)
      else
        ([event],
          { state := { file.state with offset := min (file.state.offset + count) u64Max }
            holder := .checking handle (data.drop count) })

/-- The error is cleared after every byte is written. -/
def checkpoint (file : SharedRedirect) (handle : Nat) (data : Bytes) :
    VfsResult Unit → List RedirectEvent × SharedRedirect
  | .error error => ([.failed error], file.fail error)
  | .ok _ =>
      if data = [] then ([], { state := { file.state with error := none }, holder := .free })
      else ([], { file with holder := .writing handle data })

/-- The first `finish` takes the handle out of the state. -/
def finish (file : SharedRedirect) (cancelled : Bool) : List RedirectEvent × SharedRedirect :=
  match file.state.handle with
  | none => ([.finished (outcomeOf file.state.error)], file)
  | some handle =>
      ([], { state := { file.state with handle := none }
             holder := .finishing handle (file.state.error.isSome || cancelled) cancelled })

/-- An earlier error is kept, and else an error of the release is the first one. -/
def released (file : SharedRedirect) (handle : Nat) (abort earlier later : Bool)
    (result : VfsResult Unit) : List RedirectEvent × SharedRedirect :=
  let event := RedirectEvent.released
    { handle, abort := abort || later, cancelled := earlier || later, result }
  match file.state.error, result with
  | none, .error error => ([event, .failed error, .finished (.error error)], file.fail error)
  | kept, _ => ([event, .finished (outcomeOf kept)], { file with holder := .free })

/-- An action that nobody waits for, or that waits for the lock, does nothing. -/
def step (file : SharedRedirect) : RedirectAction → List RedirectEvent × SharedRedirect
  | .pollWrite buf =>
      match file.holder with
      | .free => file.pollWrite buf
      | _ => ([], file)
  | .pollFlush =>
      match file.holder with
      | .free => ([.flushed (outcomeOf file.state.error)], file)
      | _ => ([], file)
  | .wroteAt result =>
      match file.holder with
      | .writing handle data => file.wroteAt handle data result
      | _ => ([], file)
  | .checkpoint result =>
      match file.holder with
      | .checking handle data => file.checkpoint handle data result
      | _ => ([], file)
  | .discardTask =>
      match file.holder with
      | .writing _ _ => ([.failed Errno.EIO], file.fail Errno.EIO)
      | .checking _ _ => ([.failed Errno.EIO], file.fail Errno.EIO)
      | _ => ([], file)
  | .finish cancelled =>
      match file.holder with
      | .free => file.finish cancelled
      | _ => ([], file)
  | .released cancelled result =>
      match file.holder with
      | .finishing handle abort earlier => file.released handle abort earlier cancelled result
      | _ => ([], file)

/-- The log lists the events of all actions in their order. -/
def run (file : SharedRedirect) : List RedirectAction → List RedirectEvent × SharedRedirect
  | [] => ([], file)
  | action :: rest =>
      let (events, next) := file.step action
      let (later, last) := next.run rest
      (events ++ later, last)

end SharedRedirect

end TinySandbox.Sandbox
