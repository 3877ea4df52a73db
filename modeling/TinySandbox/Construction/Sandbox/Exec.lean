/-
This file gives the execution of a shell program: its lists, its pipelines and its stages.
What the commands and the filesystem do is a parameter, and so is what others do meanwhile.
-/

import TinySandbox.Construction.Sandbox.Fs
import TinySandbox.Construction.Shell.Expansion

namespace TinySandbox.Sandbox
open Library Shell

structure ExecLimits extends Limits where
  maxCommands : Nat := 1024
  shellInputBytes : Nat := 1024 * 1024

structure Session where
  cwd : Text
  env : Env
  lastStatus : Int

inductive ShellBuiltin where
  | cd
  | export
  | unset
  deriving DecidableEq

inductive RegisteredCommand where
  | shell (builtin : ShellBuiltin)
  | handler
  deriving DecidableEq

structure CommandResult where
  exitCode : Int
  peakWasmMemoryBytes : Option Nat := none

inductive CaptureFd where
  | stdout
  | stderr
  deriving DecidableEq

structure InputRedirect where
  path : Text
  handle : Nat
  deriving DecidableEq

/-- The number tells the files of one command apart. -/
structure RedirectFile where
  path : Text
  handle : Nat
  number : Nat
  deriving DecidableEq

inductive OutputDestination where
  | capture (fd : CaptureFd)
  | file (file : RedirectFile)
  deriving DecidableEq

structure PreparedRedirects where
  stdin : Option InputRedirect := none
  stdout : OutputDestination := .capture .stdout
  stderr : OutputDestination := .capture .stderr
  deriving DecidableEq

abbrev RedirectError := Text × Errno

inductive StageKind where
  | command
  | assignmentOnly
  | failed (message : Text)
  deriving DecidableEq

structure PreparedStage where
  name : Text
  args : List Text
  env : Env
  cwd : Text
  command : Option RegisteredCommand
  redirects : PreparedRedirects
  countsCommand : Bool
  kind : StageKind

structure StageOutcome where
  index : Nat
  name : Text
  exitCode : Int
  peakWasmMemoryBytes : Option Nat
  redirectErrors : List Text
  countsCommand : Bool

/-- The captured output is a part of the world, because commands write to it. -/
structure ExecHost (ω : Type) where
  commands : OrderedMap Text RegisteredCommand
  yieldNow : ω → ω
  isCancelled : ω → Bool
  writeStderr : Text → ω → ω
  checkpoint : ω → VfsResult Unit × ω
  openFile : Text → Text → OpenMode → ω → VfsResult Nat × ω
  closeFile : Nat → ω → VfsResult Unit × ω
  finish : RedirectFile → ω → Except RedirectError Unit × ω
  writeAll : OutputDestination → Text → ω → Bool × ω
  runBuiltin : ShellBuiltin → List Text → Session → Env → ω → (Int × Session × Text × Text) × ω
  runHandler : PreparedStage → ω → CommandResult × ω
  taskError : Nat → ω → Option Text
  taskOrder : Nat → ω → Nat
  pipeBroken : Nat → ω → Bool
  pipeBytes : Nat → ω → Nat

/-- These events tell what a refused pipeline must not be followed by. -/
inductive ExecEvent where
  | refused
  | opened (path : Text)
  | ran (name : Text)
  deriving DecidableEq

structure ExecState (ω : Type) where
  world : ω
  timings : List (Text × Int)
  pipeBytes : List Nat
  lastStatus : Int
  commandCount : Nat
  limitHit : Bool
  peakWasmMemoryBytes : Option Nat
  trace : List ExecEvent

/-- An execution has its own session, which the commands of the shell change. -/
structure Execution (ω : Type) where
  session : Session
  exec : ExecState ω

abbrev Exec (ω : Type) := StateM (Execution ω)

def errnoMessage : Errno → String
  | .EBADF => "Bad file descriptor"
  | .EBUSY => "Device or resource busy"
  | .EXDEV => "Invalid cross-device link"
  | .EACCES => "Permission denied"
  | .EEXIST => "File exists"
  | .EFBIG => "File too large"
  | Errno.EIO => "Input/output error"
  | .EINVAL => "Invalid argument"
  | .EISDIR => "Is a directory"
  | .ENOENT => "No such file or directory"
  | .ENOSPC => "No space left on device"
  | .ENOTDIR => "Not a directory"
  | .ENOTEMPTY => "Directory not empty"

/-- This is the line that reports a failed redirect of a command. -/
def errorLine (name : Text) (error : RedirectError) : Text :=
  name ++ ": ".toList ++ error.1 ++ ": ".toList ++ (errnoMessage error.2).toList ++ ['\n']

namespace Exec

variable {ω α : Type}

def ask (operation : ω → α × ω) : Exec ω α := fun current =>
  let (answer, world) := operation current.exec.world
  (answer, { current with exec := { current.exec with world } })

def look (question : ω → α) : Exec ω α := fun current => (question current.exec.world, current)

def tell (operation : ω → ω) : Exec ω Unit := fun current =>
  ((), { current with exec := { current.exec with world := operation current.exec.world } })

def note (event : ExecEvent) : Exec ω Unit := fun current =>
  ((), { current with exec := { current.exec with trace := current.exec.trace ++ [event] } })

def yieldNow (host : ExecHost ω) : Exec ω Unit := tell host.yieldNow

def isCancelled (host : ExecHost ω) : Exec ω Bool := look host.isCancelled

def writeStderr (host : ExecHost ω) (line : Text) : Exec ω Unit := tell (host.writeStderr line)

def recordPeakWasmMemory (bytes : Option Nat) : Exec ω Unit := fun current =>
  match bytes with
  | none => ((), current)
  | some bytes =>
      let peak := (current.exec.peakWasmMemoryBytes.map (max · bytes)).getD bytes
      ((), { current with exec := { current.exec with peakWasmMemoryBytes := some peak } })

def recordTiming (name : Text) (exitCode : Int) : Exec ω Unit := fun current =>
  ((), { current with exec := { current.exec with
    timings := current.exec.timings ++ [(name, exitCode)] } })

def recordPipeBytes (counts : List Nat) : Exec ω Unit := fun current =>
  ((), { current with exec := { current.exec with pipeBytes := current.exec.pipeBytes ++ counts } })

def setSession (session : Session) : Exec ω Unit := fun current => ((), { current with session })

def setLastStatus (status : Int) : Exec ω Unit := fun current =>
  ((), { current with exec := { current.exec with lastStatus := status } })

def countCommands (count : Nat) : Exec ω Unit := fun current =>
  ((), { current with exec := { current.exec with commandCount := current.exec.commandCount + count } })

/-- A refusal is reported, and it sets the flag that stops the program. -/
def refuse (host : ExecHost ω) (message : Text) : Exec ω Int := fun current =>
  (125, { current with exec := { current.exec with
    world := host.writeStderr message current.exec.world
    limitHit := true
    trace := current.exec.trace ++ [.refused] } })
end Exec

open Exec

section Redirects
variable {ω : Type}

def defaultRedirectFd : RedirectOp → Nat
  | .read => 0
  | .write => 1
  | .append => 1

def applyFdRedirect (redirects : PreparedRedirects) (redirect : Redirect) (targetFd : Nat) :
    Except RedirectError PreparedRedirects :=
  let fd := redirect.fd.getD 1
  if ¬ (fd = 1 ∨ fd = 2) ∨ ¬ (targetFd = 1 ∨ targetFd = 2) then
    .error ((toString targetFd).toList, .EINVAL)
  else
    let target := if targetFd = 1 then redirects.stdout else redirects.stderr
    .ok (if fd = 1 then { redirects with stdout := target }
      else { redirects with stderr := target })

/-- The files that were opened so far, in the order of their redirects. -/
structure Preparing where
  redirects : PreparedRedirects := {}
  openedFiles : List RedirectFile := []

def openTraced (host : ExecHost ω) (cwd path : Text) (mode : OpenMode) :
    Exec ω (VfsResult Nat) := do
  note (.opened path)
  ask (host.openFile cwd path mode)

/-- The new input is in place before the old one is closed. -/
def openInput (host : ExecHost ω) (cwd path : Text) (preparing : Preparing) :
    Exec ω (Except RedirectError Unit × Preparing) := do
  match ← openTraced host cwd path .readOnly with
  | .error error => pure (.error (path, error), preparing)
  | .ok handle => do
      let replaced := { preparing with
        redirects := { preparing.redirects with stdin := some { path, handle } } }
      match preparing.redirects.stdin with
      | none => pure (.ok (), replaced)
      | some previous => do
          let closed ← ask (host.closeFile previous.handle)
          pure (closed.mapError fun error => (previous.path, error), replaced)

def outputMode (op : RedirectOp) : OpenMode :=
  if op = .append then { write := true, create := true, append := true }
  else { write := true, create := true, truncate := true }

def openOutput (host : ExecHost ω) (cwd path : Text) (fd : Nat) (op : RedirectOp)
    (preparing : Preparing) : Exec ω (Except RedirectError Unit × Preparing) := do
  match ← openTraced host cwd path (outputMode op) with
  | .error error => pure (.error (path, error), preparing)
  | .ok handle =>
      let target : RedirectFile := { path, handle, number := preparing.openedFiles.length }
      let redirects := preparing.redirects
      pure (.ok (), {
        redirects :=
          if fd = 1 then { redirects with stdout := .file target }
          else { redirects with stderr := .file target }
        openedFiles := preparing.openedFiles ++ [target] })

/-- The target of a redirect must expand to one word. -/
def prepareTarget (host : ExecHost ω) (cwd : Text) (redirect : Redirect) (words : List Text)
    (preparing : Preparing) : Exec ω (Except RedirectError Unit × Preparing) :=
  match words with
  | [] => pure (.error ([], .ENOENT), preparing)
  | path :: _ :: _ => pure (.error (path, .EINVAL), preparing)
  | [path] =>
      match redirect.fd.getD (defaultRedirectFd redirect.op), redirect.op with
      | 0, .read => openInput host cwd path preparing
      | 1, .write | 1, .append | 2, .write | 2, .append =>
          openOutput host cwd path (redirect.fd.getD 1) redirect.op preparing
      | _, _ => pure (.error (path, .EINVAL), preparing)

def prepareRedirect (host : ExecHost ω) (cwd : Text) (redirect : Redirect) (words : List Text)
    (preparing : Preparing) : Exec ω (Except RedirectError Unit × Preparing) := do
  match ← ask host.checkpoint with
  | .error error => pure (.error ("redirect".toList, error), preparing)
  | .ok _ =>
      match redirect.target with
      | .fd fd =>
          match applyFdRedirect preparing.redirects redirect fd with
          | .error error => pure (.error error, preparing)
          | .ok redirects => pure (.ok (), { preparing with redirects })
      | .word _ => prepareTarget host cwd redirect words preparing

def prepareLoop (host : ExecHost ω) (cwd : Text) :
    List (Redirect × List Text) → Preparing → Exec ω (Except RedirectError Unit × Preparing)
  | [], preparing => pure (.ok (), preparing)
  | (redirect, words) :: rest, preparing => do
      let (result, preparing) ← prepareRedirect host cwd redirect words preparing
      match result with
      | .error error => pure (.error error, preparing)
      | .ok _ => prepareLoop host cwd rest preparing

/-- A file that a later redirect replaced is closed, and after an error every file is. -/
def finishUnused (host : ExecHost ω) (redirects : PreparedRedirects) :
    List RedirectFile → Except RedirectError Unit → Exec ω (Except RedirectError Unit)
  | [], result => pure result
  | file :: rest, result =>
      if result.isOk = false ∨ (redirects.stdout ≠ .file file ∧ redirects.stderr ≠ .file file) then do
        let close ← ask (host.finish file)
        finishUnused host redirects rest (if result.isOk then close else result)
      else finishUnused host redirects rest result

def closeStdinRedirect (host : ExecHost ω) : Option InputRedirect → Exec ω Unit
  | none => pure ()
  | some redirect => do
      let _ ← ask (host.closeFile redirect.handle)

def prepareRedirects (host : ExecHost ω) (cwd : Text) (simple : SimpleCommand)
    (targets : List (List Text)) : Exec ω (Except RedirectError PreparedRedirects) := do
  let (result, preparing) ← prepareLoop host cwd (simple.redirects.zip targets) {}
  match ← finishUnused host preparing.redirects preparing.openedFiles result with
  | .error error => do
      closeStdinRedirect host preparing.redirects.stdin
      pure (.error error)
  | .ok _ => pure (.ok preparing.redirects)

def outputFiles (redirects : PreparedRedirects) : List RedirectFile :=
  [redirects.stdout, redirects.stderr].filterMap fun
    | .file file => some file
    | .capture _ => none

/-- The first error stays, and every file is finished. -/
def finishRedirects (host : ExecHost ω) :
    List RedirectFile → Except RedirectError Unit → Exec ω (Except RedirectError Unit)
  | [], result => pure result
  | file :: rest, result => do
      let close ← ask (host.finish file)
      finishRedirects host rest (if result.isOk then close else result)

end Redirects

section Stages
variable {ω : Type}

/-- A builtin in a pipeline works on a session of its own. -/
def runBuiltinStage (host : ExecHost ω) (stage : PreparedStage) (builtin : ShellBuiltin) :
    Exec ω CommandResult := do
  let status := ((stage.env.get ['?']).bind fun text => (String.ofList text).toInt?).getD 0
  note (.ran stage.name)
  let (status, _, out, err) ← ask (host.runBuiltin builtin stage.args
    { cwd := stage.cwd, env := stage.env, lastStatus := status } stage.env)
  if ← ask (host.writeAll stage.redirects.stdout out) then
    if ← ask (host.writeAll stage.redirects.stderr err) then pure { exitCode := status }
    else pure { exitCode := 1 }
  else pure { exitCode := 1 }

def runRegisteredStage (host : ExecHost ω) (stage : PreparedStage) : Exec ω CommandResult :=
  match stage.command with
  | some (.shell builtin) => runBuiltinStage host stage builtin
  | some .handler => do
      note (.ran stage.name)
      ask (host.runHandler stage)
  | none => do
      let _ ← ask (host.writeAll stage.redirects.stderr
        (stage.name ++ ": command not found\n".toList))
      pure { exitCode := 127 }

/-- The errors of the files of a stage, one line each. -/
def awaitSinks (host : ExecHost ω) (name : Text) : List RedirectFile → Exec ω (List Text)
  | [] => pure []
  | file :: rest => do
      let close ← ask (host.finish file)
      let later ← awaitSinks host name rest
      match close with
      | .error error => pure (errorLine name error :: later)
      | .ok _ => pure later

/-- The pipe is the one that follows the stage. -/
def writesToPipe (total index : Nat) (redirects : PreparedRedirects) : Bool :=
  index + 1 < total ∧
    (redirects.stdout = .capture .stdout ∨ redirects.stderr = .capture .stdout)

def runStageKind (host : ExecHost ω) (stage : PreparedStage) : Exec ω CommandResult :=
  match stage.kind with
  | .failed message => do
      let _ ← ask (host.writeAll stage.redirects.stderr message)
      pure { exitCode := 1 }
  | .assignmentOnly => pure { exitCode := 0 }
  | .command => runRegisteredStage host stage

def runStageTask (host : ExecHost ω) (total index : Nat) (stage : PreparedStage) :
    Exec ω StageOutcome := do
  let result ← runStageKind host stage
  let redirectErrors ← awaitSinks host stage.name (outputFiles stage.redirects)
  let broken ← look (host.pipeBroken index)
  pure {
    index
    name := stage.name
    exitCode :=
      if redirectErrors ≠ [] then 1
      else if result.exitCode ≠ 0 ∧ writesToPipe total index stage.redirects ∧ broken then 141
      else result.exitCode
    peakWasmMemoryBytes := result.peakWasmMemoryBytes
    redirectErrors
    countsCommand := stage.countsCommand }

/-- A task that panics is recorded as the first stage. -/
def joinTask (host : ExecHost ω) (total : Nat) (task : Nat × PreparedStage) :
    Exec ω StageOutcome := do
  let outcome ← runStageTask host total task.1 task.2
  match ← look (host.taskError task.1) with
  | none => pure outcome
  | some error =>
      pure {
        index := 0
        name := "<task>".toList
        exitCode := 1
        peakWasmMemoryBytes := none
        redirectErrors := ["tinysandbox: command task failed: ".toList ++ error ++ ['\n']]
        countsCommand := true }

def joinTasks (host : ExecHost ω) (total : Nat) :
    List (Nat × PreparedStage) → List (Option StageOutcome) → Exec ω (List (Option StageOutcome))
  | [], outcomes => pure outcomes
  | task :: rest, outcomes => do
      let outcome ← joinTask host total task
      joinTasks host total rest (outcomes.set outcome.index (some outcome))

def writeLines (host : ExecHost ω) : List Text → Exec ω Unit
  | [] => pure ()
  | line :: rest => do
      writeStderr host line
      writeLines host rest

/-- The status of a pipeline is the one of its last stage. -/
def reportOutcomes (host : ExecHost ω) : List StageOutcome → Int → Exec ω Int
  | [], status => pure status
  | outcome :: rest, _ => do
      writeLines host outcome.redirectErrors
      recordPeakWasmMemory outcome.peakWasmMemoryBytes
      if outcome.countsCommand then recordTiming outcome.name outcome.exitCode
      reportOutcomes host rest outcome.exitCode

/-- The world decides in which order the tasks of the stages end. -/
def runPipelineStages (host : ExecHost ω) (stages : List PreparedStage) : Exec ω Int :=
  if stages = [] then pure 0
  else do
    let tasks := (List.range stages.length).zip stages
    let rank ← look fun world index => host.taskOrder index world
    let ended := tasks.mergeSort fun first second => rank first.1 ≤ rank second.1
    let outcomes ← joinTasks host stages.length ended (List.replicate stages.length none)
    let status ← reportOutcomes host (outcomes.filterMap id) 0
    let counts ← look fun world => (List.range (stages.length - 1)).map (host.pipeBytes · world)
    recordPipeBytes counts
    pure status

def statusText (exec : ExecState ω) : Text := (toString exec.lastStatus).toList

def stageName (expanded : ExpandedCommand) : Text :=
  (expanded.words.head? <|> expanded.syntaxTree.assignments.head?.map (·.name)).getD
    "<empty>".toList

def prepareStage (host : ExecHost ω) (expanded : ExpandedCommand) : Exec ω PreparedStage := do
  let current ← get
  let session := current.session
  let name := stageName expanded
  let env := expanded.env.insert ['?'] (statusText current.exec)
  match ← prepareRedirects host session.cwd expanded.syntaxTree expanded.targets with
  | .error error =>
      pure {
        name
        args := []
        env
        cwd := session.cwd
        command := none
        redirects := {}
        countsCommand := expanded.words ≠ []
        kind := .failed (errorLine name error) }
  | .ok redirects =>
      pure {
        name
        args := expanded.words.tail
        env
        cwd := session.cwd
        command := host.commands.get name
        redirects
        countsCommand := expanded.words ≠ []
        kind := if expanded.words = [] then .assignmentOnly else .command }

end Stages

section Pipelines
variable {ω : Type}

def commandCountMessage : Text := "tinysandbox: maximum command count exceeded\n".toList

def expansionMessage : Text := "tinysandbox: shell expansion limit exceeded\n".toList

/-- A failed redirect of a command is reported at once. -/
def reportError (host : ExecHost ω) (name : Text) (error : RedirectError) : Exec ω Unit :=
  writeStderr host (errorLine name error)

def nullCommandName : Text := "tinysandbox".toList

/-- A command without words only has its redirects and its assignments. -/
def finishNullCommand (host : ExecHost ω) (redirects : PreparedRedirects) : Exec ω Int := do
  closeStdinRedirect host redirects.stdin
  match ← finishRedirects host (outputFiles redirects) (.ok ()) with
  | .error error => do
      reportError host nullCommandName error
      pure 1
  | .ok _ => pure 0

/-- A builtin changes the session of the shell, and its output goes to the redirects. -/
def runShellBuiltin (host : ExecHost ω) (name : Text) (args : List Text) (env : Env)
    (redirects : PreparedRedirects) (builtin : ShellBuiltin) : Exec ω Int := do
  let current ← get
  note (.ran name)
  let (status, session, out, err) ← ask (host.runBuiltin builtin args current.session env)
  setSession session
  closeStdinRedirect host redirects.stdin
  let _ ← ask (host.writeAll redirects.stdout out)
  let _ ← ask (host.writeAll redirects.stderr err)
  pure status

def runSingleStage (host : ExecHost ω) (stage : PreparedStage) : Exec ω Int := do
  let result ← runRegisteredStage host stage
  recordPeakWasmMemory result.peakWasmMemoryBytes
  pure result.exitCode

/-- Only a builtin sees the session itself. -/
def runWords (host : ExecHost ω) (stage : PreparedStage) : Exec ω Int :=
  match stage.command with
  | some (.shell builtin) =>
      runShellBuiltin host stage.name stage.args stage.env stage.redirects builtin
  | _ => runSingleStage host stage

def runSingleCommand (host : ExecHost ω) (expanded : ExpandedCommand)
    (redirects : PreparedRedirects) : Exec ω Int := do
  let current ← get
  let name := stageName expanded
  let status ← runWords host {
    name
    args := expanded.words.tail
    env := expanded.env.insert ['?'] (statusText current.exec)
    cwd := current.session.cwd
    command := host.commands.get name
    redirects
    countsCommand := true
    kind := .command }
  let errors ← awaitSinks host name (outputFiles redirects)
  writeLines host errors
  let exitCode := if errors ≠ [] then 1 else status
  recordTiming name exitCode
  pure exitCode

def performRedirected (host : ExecHost ω) (expanded : ExpandedCommand) (cwd : Text) :
    Exec ω Int := do
  match ← prepareRedirects host cwd expanded.syntaxTree expanded.targets with
  | .error error => do
      reportError host (expanded.words.head?.getD nullCommandName) error
      pure 1
  | .ok redirects =>
      if expanded.words = [] then finishNullCommand host redirects
      else runSingleCommand host expanded redirects

/-- The environment of a null command becomes the one of the session before its redirects. -/
def performSimple (host : ExecHost ω) (expanded : ExpandedCommand) : Exec ω Int := do
  let current ← get
  let session := current.session
  setSession (if expanded.words = [] then { session with env := expanded.env } else session)
  performRedirected host expanded session.cwd

def execSingleSimple (host : ExecHost ω) (limits : ExecLimits) (expanded : ExpandedCommand) :
    Exec ω Int := do
  let current ← get
  if limits.maxCommands ≤ current.exec.commandCount then refuse host commandCountMessage
  else do
    countCommands 1
    performSimple host expanded

/-- A pipeline is cancelled, refused with a message, or expanded. -/
inductive Admission where
  | cancelled
  | refused (message : Text)
  | expanded (commands : List ExpandedCommand)

def Admission.isRefused : Admission → Bool
  | .refused _ => true
  | _ => false

/-- Every command is expanded under the budget that the earlier ones left. -/
def expandCommands (host : ExecHost ω) : List Command → Nat → List ExpandedCommand → Exec ω Admission
  | [], _, expanded => pure (.expanded expanded)
  | .simple simple :: rest, left, expanded => do
      yieldNow host
      if ← isCancelled host then pure .cancelled
      else do
        let current ← get
        match Budget.expand simple current.session.env current.exec.lastStatus left with
        | none => pure (.refused expansionMessage)
        | some (command, left) => expandCommands host rest left (expanded ++ [command])

/-- No redirect is opened and no command runs before the whole pipeline is admitted. -/
def admitPipeline (host : ExecHost ω) (limits : ExecLimits) (pipeline : Pipeline) :
    Exec ω Admission := do
  yieldNow host
  if ← isCancelled host then pure .cancelled
  else do
    let current ← get
    if limits.maxCommands - current.exec.commandCount < pipeline.commands.length then
      pure (.refused commandCountMessage)
    else expandCommands host pipeline.commands (max limits.shellInputBytes limits.hostInputBytes) []

/-- There are no stages when the execution was cancelled between two of them. -/
def prepareStages (host : ExecHost ω) :
    List ExpandedCommand → List PreparedStage → Exec ω (Option (List PreparedStage))
  | [], stages => pure (some stages)
  | expanded :: rest, stages => do
      yieldNow host
      if ← isCancelled host then pure none
      else do
        let stage ← prepareStage host expanded
        prepareStages host rest (stages ++ [stage])

def runPrepared (host : ExecHost ω) : Option (List PreparedStage) → Exec ω Int
  | none => pure 124
  | some stages => do
      countCommands stages.length
      runPipelineStages host stages

def runExpanded (host : ExecHost ω) (limits : ExecLimits) :
    List ExpandedCommand → Exec ω Int
  | [expanded] => execSingleSimple host limits expanded
  | commands => do
      let prepared ← prepareStages host commands []
      runPrepared host prepared

def runAdmitted (host : ExecHost ω) (limits : ExecLimits) : Admission → Exec ω Int
  | .cancelled => pure 124
  | .refused message => refuse host message
  | .expanded commands => runExpanded host limits commands

def execPipeline (host : ExecHost ω) (limits : ExecLimits) (pipeline : Pipeline) : Exec ω Int := do
  let admission ← admitPipeline host limits pipeline
  runAdmitted host limits admission

def shouldRun (op : AndOrOp) (status : Int) : Bool :=
  match op with
  | .and => status = 0
  | .or => status ≠ 0

def execStatus (host : ExecHost ω) (limits : ExecLimits) (pipeline : Pipeline) : Exec ω Int := do
  let status ← execPipeline host limits pipeline
  setLastStatus status
  pure status

def execItem (host : ExecHost ω) (limits : ExecLimits) (item : AndOr) (status : Int) : Exec ω Int :=
  if shouldRun item.op status then execStatus host limits item.pipeline else pure status

/-- The flag is looked at after an item, and not before the first one. -/
def execItems (host : ExecHost ω) (limits : ExecLimits) : List AndOr → Int → Exec ω Int
  | [], status => pure status
  | item :: rest, status => do
      let status ← execItem host limits item status
      let current ← get
      if current.exec.limitHit then pure status else execItems host limits rest status

def execAndOrList (host : ExecHost ω) (limits : ExecLimits) (list : AndOrList) : Exec ω Int := do
  let status ← execStatus host limits list.first
  execItems host limits list.rest status

def execList (host : ExecHost ω) (limits : ExecLimits) (list : AndOrList) : Exec ω Unit := do
  let status ← execAndOrList host limits list
  setLastStatus status

def execLists (host : ExecHost ω) (limits : ExecLimits) : List AndOrList → Exec ω Unit
  | [] => pure ()
  | list :: rest => do
      yieldNow host
      if ← isCancelled host then pure ()
      else do
        execList host limits list
        let current ← get
        if current.exec.limitHit then pure () else execLists host limits rest

end Pipelines

section Programs
variable {ω : Type}

/-- A program starts with the session of the sandbox and with empty counters. -/
def Execution.start (session : Session) (world : ω) : Execution ω where
  session
  exec := {
    world
    timings := []
    pipeBytes := []
    lastStatus := session.lastStatus
    commandCount := 0
    limitHit := false
    peakWasmMemoryBytes := none
    trace := [] }

/-- The exit code is the last status. -/
def execProgram (host : ExecHost ω) (limits : ExecLimits) (program : Program) (session : Session)
    (world : ω) : Execution ω :=
  (execLists host limits program.lists (.start session world)).2

end Programs

end TinySandbox.Sandbox
