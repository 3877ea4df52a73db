/-
This file gives what the streams of a command are connected to, and a backend for its redirects.
The pipe behind a stage has the number of the stage.
-/

import TinySandbox.Construction.Sandbox.Exec
import TinySandbox.Construction.Sandbox.Redirect

namespace TinySandbox.Sandbox
open Library Shell

inductive Stdin where
  | empty
  | pipe (index : Nat)
  | file (redirect : InputRedirect)
  deriving DecidableEq

inductive Writer where
  | capture (fd : CaptureFd)
  | pipe (index : Nat)
  | file (target : RedirectFile)
  deriving DecidableEq

structure Streams where
  stdin : Stdin
  stdout : Writer
  stderr : Writer
  deriving DecidableEq

/-- The captured output stands for the pipe when there is one. -/
def writerForDestination (destination : OutputDestination) (pipe : Option Nat) : Writer :=
  match destination with
  | .capture .stdout =>
      match pipe with
      | some index => .pipe index
      | none => .capture .stdout
  | .capture .stderr => .capture .stderr
  | .file target => .file target

def stdinFor (default : Stdin) : Option InputRedirect → Stdin
  | some redirect => .file redirect
  | none => default

/-- The streams of a command that runs alone. -/
def singleStreams (redirects : PreparedRedirects) : Streams where
  stdin := stdinFor .empty redirects.stdin
  stdout := writerForDestination redirects.stdout none
  stderr := writerForDestination redirects.stderr none

/-- The errors of a stage go into its pipe only beside its output. -/
def stageStreams (total index : Nat) (redirects : PreparedRedirects) : Streams :=
  let defaultPipe := if index + 1 < total then some index else none
  { stdin := stdinFor (if index = 0 then .empty else .pipe (index - 1)) redirects.stdin
    stdout := writerForDestination redirects.stdout defaultPipe
    stderr := writerForDestination redirects.stderr
      (if redirects.stderr = .capture .stdout then defaultPipe else none) }

/-- A handle is the number of its open. What a handle is told at its close or its abort, and whether
the execution is cancelled by then, are parts of the pattern. -/
structure Answers where
  checkpoint : Nat → VfsResult Unit
  openFile : Nat → VfsResult Unit
  finish : Nat → VfsResult Unit
  cancelled : Nat → Bool

inductive HandleEvent where
  | attempted (path : Text) (mode : OpenMode)
  | opened (handle : Nat)
  | closed (handle : Nat)
  | aborted (handle : Nat)
  deriving DecidableEq

/-- The files of a command with the calls that were made for them. -/
structure HandleWorld where
  checkpoints : Nat := 0
  opens : Nat := 0
  files : OrderedMap Nat RedirectState := ∅
  log : List HandleEvent := []

namespace HandleWorld

def checkpoint (answers : Answers) (world : HandleWorld) : VfsResult Unit × HandleWorld :=
  (answers.checkpoint world.checkpoints, { world with checkpoints := world.checkpoints + 1 })

def openFile (answers : Answers) (path : Text) (mode : OpenMode) (world : HandleWorld) :
    VfsResult Nat × HandleWorld :=
  let handle := world.opens
  let attempted := { world with opens := handle + 1, log := world.log ++ [.attempted path mode] }
  match answers.openFile handle with
  | .error error => (.error error, attempted)
  | .ok _ => (.ok handle, { attempted with log := attempted.log ++ [.opened handle] })

def closeFile (answers : Answers) (handle : Nat) (world : HandleWorld) :
    VfsResult Unit × HandleWorld :=
  (answers.finish handle, { world with log := world.log ++ [.closed handle] })

/-- The state of a file starts with its handle. -/
def stateOf (world : HandleWorld) (file : RedirectFile) : RedirectState :=
  (world.files.get file.number).getD { handle := some file.handle, offset := 0, error := none }

def failure (file : RedirectFile) : Option Errno → Except RedirectError Unit
  | none => .ok ()
  | some error => .error (file.path, error)

/-- The handle is taken once, and the first error stays. -/
def finish (answers : Answers) (file : RedirectFile) (world : HandleWorld) :
    Except RedirectError Unit × HandleWorld :=
  let state := world.stateOf file
  match state.handle with
  | none => (failure file state.error, world)
  | some handle =>
      let event :=
        if state.error.isSome ∨ answers.cancelled handle then HandleEvent.aborted handle
        else HandleEvent.closed handle
      let error := state.error <|> match answers.finish handle with
        | .ok _ => none
        | .error error => some error
      (failure file error, { world with
        files := world.files.insert file.number { state with handle := none, error }
        log := world.log ++ [event] })

end HandleWorld

/-- The redirects of a command are prepared against a pattern of answers. -/
def withAnswers (host : ExecHost HandleWorld) (answers : Answers) : ExecHost HandleWorld :=
  { host with
    checkpoint := HandleWorld.checkpoint answers
    openFile := fun _ path mode => HandleWorld.openFile answers path mode
    closeFile := HandleWorld.closeFile answers
    finish := HandleWorld.finish answers }

/-- What a command gets, with the calls that were made, before any other call. -/
def prepareWith (host : ExecHost HandleWorld) (answers : Answers) (cwd : Text)
    (simple : SimpleCommand) (targets : List (List Text)) (current : Execution HandleWorld) :
    Except RedirectError PreparedRedirects × HandleWorld :=
  let start := { current with exec := { current.exec with world := {} } }
  let (result, ended) := prepareRedirects (withAnswers host answers) cwd simple targets start
  (result, ended.exec.world)

end TinySandbox.Sandbox
