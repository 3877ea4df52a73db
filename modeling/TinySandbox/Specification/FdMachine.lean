/-
This file gives a shell that executes its redirects from left to right on a table of descriptors.
A redirect opens a description and installs it, or it copies the description of another descriptor.
-/

import TinySandbox.Construction.Sandbox.Wiring

namespace TinySandbox.Sandbox
open Library Shell

/-- An opened description is named by the number of its open. -/
inductive Description where
  | empty
  | pipe (index : Nat)
  | captured (fd : CaptureFd)
  | opened (number : Nat)
  deriving DecidableEq

structure Descriptors where
  stdin : Description
  stdout : Description
  stderr : Description
  deriving DecidableEq

/-- The machine with its attempts to open a file and the outputs that it opened. -/
structure FdMachine where
  descriptors : Descriptors
  steps : Nat := 0
  attempts : List (Text × OpenMode) := []
  outputs : List Nat := []

namespace FdMachine

/-- A stage writes into its pipe unless it is the last one, and it reads from the one before. -/
def start (total index : Nat) : FdMachine where
  descriptors := {
    stdin := if index = 0 then .empty else .pipe (index - 1)
    stdout := if index + 1 < total then .pipe index else .captured .stdout
    stderr := .captured .stderr }

def dup2 (table : Descriptors) (source target : Nat) : Option Descriptors :=
  let copied := match source with
    | 1 => some table.stdout
    | 2 => some table.stderr
    | _ => none
  copied.bind fun description =>
    match target with
    | 1 => some { table with stdout := description }
    | 2 => some { table with stderr := description }
    | _ => none

/-- The mode of a redirect, when its operator fits its descriptor. -/
def modeOf (fd : Nat) (op : RedirectOp) : Option OpenMode :=
  match fd, op with
  | 0, .read => some { read := true }
  | 1, .write | 2, .write => some { write := true, create := true, truncate := true }
  | 1, .append | 2, .append => some { write := true, create := true, append := true }
  | _, _ => none

/-- The description that is replaced as the input is closed at once. -/
def install (answers : Answers) (machine : FdMachine) (fd number : Nat) : FdMachine × Bool :=
  let table := machine.descriptors
  match fd with
  | 0 =>
      ({ machine with descriptors := { table with stdin := .opened number } },
        match table.stdin with
        | .opened replaced => (answers.finish replaced).isOk
        | _ => true)
  | 1 => ({ machine with
      descriptors := { table with stdout := .opened number }
      outputs := machine.outputs ++ [number] }, true)
  | _ => ({ machine with
      descriptors := { table with stderr := .opened number }
      outputs := machine.outputs ++ [number] }, true)

def openAt (answers : Answers) (machine : FdMachine) (fd : Nat) (path : Text) (mode : OpenMode) :
    FdMachine × Bool :=
  let number := machine.attempts.length
  let machine := { machine with attempts := machine.attempts ++ [(path, mode)] }
  if (answers.openFile number).isOk then machine.install answers fd number else (machine, false)

def execute (answers : Answers) (machine : FdMachine) (redirect : Redirect) (words : List Text) :
    FdMachine × Bool :=
  match redirect.target, words with
  | .fd source, _ =>
      match dup2 machine.descriptors source (redirect.fd.getD 1) with
      | some descriptors => ({ machine with descriptors }, true)
      | none => (machine, false)
  | .word _, [path] =>
      let fd := redirect.fd.getD (if redirect.op = .read then 0 else 1)
      match modeOf fd redirect.op with
      | some mode => machine.openAt answers fd path mode
      | none => (machine, false)
  | .word _, _ => (machine, false)

/-- The command is asked whether it goes on before every redirect. -/
def step (answers : Answers) (machine : FdMachine) (redirect : Redirect) (words : List Text) :
    FdMachine × Bool :=
  let next := { machine with steps := machine.steps + 1 }
  if (answers.checkpoint machine.steps).isOk then next.execute answers redirect words
  else (next, false)

/-- The machine stops at the first redirect that fails. -/
def run (answers : Answers) (machine : FdMachine) : List (Redirect × List Text) → FdMachine × Bool
  | [] => (machine, true)
  | (redirect, words) :: rest =>
      match machine.step answers redirect words with
      | (machine, true) => machine.run answers rest
      | (machine, false) => (machine, false)

/-- A descriptor still refers to this output. -/
def InUse (machine : FdMachine) (number : Nat) : Prop :=
  machine.descriptors.stdout = .opened number ∨ machine.descriptors.stderr = .opened number

/-- The output was superseded, and finishing it fails. -/
def Spoils (answers : Answers) (machine : FdMachine) (number : Nat) : Prop :=
  ¬ machine.InUse number ∧ (answers.finish number).isOk = false

/-- An output in use was opened before every output that spoils, and there is one that does. -/
def Leaks (answers : Answers) (machine : FdMachine) : Prop :=
  ∃ before kept after, machine.outputs = before ++ kept :: after ∧ machine.InUse kept ∧
    (∀ number ∈ before, ¬ machine.Spoils answers number) ∧
    ∃ number ∈ after, machine.Spoils answers number

end FdMachine

/-- What the descriptors of the code refer to. -/
def Stdin.description : Stdin → Description
  | .empty => .empty
  | .pipe index => .pipe index
  | .file redirect => .opened redirect.handle

def Writer.description : Writer → Description
  | .capture fd => .captured fd
  | .pipe index => .pipe index
  | .file target => .opened target.handle

def Streams.descriptors (streams : Streams) : Descriptors where
  stdin := streams.stdin.description
  stdout := streams.stdout.description
  stderr := streams.stderr.description

/-- The attempts to open a file, in their order. -/
def attemptsOf (log : List HandleEvent) : List (Text × OpenMode) :=
  log.filterMap fun
    | .attempted path mode => some (path, mode)
    | _ => none

def openedOf (log : List HandleEvent) : List Nat :=
  log.filterMap fun
    | .opened handle => some handle
    | _ => none

def finishedOf (log : List HandleEvent) : List Nat :=
  log.filterMap fun
    | .closed handle => some handle
    | .aborted handle => some handle
    | _ => none

/-- The handles that a command goes on with. -/
def referenced : Except RedirectError PreparedRedirects → List Nat
  | .error _ => []
  | .ok redirects =>
      (redirects.stdin.map (·.handle)).toList ++ (outputFiles redirects).map (·.handle)

/-- Every handle was opened once, and it was finished once unless the command goes on with it. -/
structure Tidy (result : Except RedirectError PreparedRedirects) (log : List HandleEvent) :
    Prop where
  distinct : (openedOf log).Nodup
  accounts : ∀ handle, (openedOf log).count handle =
    (finishedOf log).count handle + if handle ∈ referenced result then 1 else 0

end TinySandbox.Sandbox
