/-
This file expands the words of a command under a budget of bytes.
The expander is given again with a log of every value that the string of a field takes.
The sizes of Rust values are the ones of a 64-bit target.
-/

import TinySandbox.Construction.Shell.Syntax
import TinySandbox.Library.OrderedMap

namespace TinySandbox.Shell
open Library

abbrev Env := OrderedMap Text Text

structure ExpandedCommand where
  syntaxTree : SimpleCommand
  env : Env
  words : List Text
  targets : List (List Text)

def sizeOfExpandedCommand : Nat := 80

/-- A `String` and a `Vec` have the same size. -/
def sizeOfString : Nat := 24

/-- The budget is the number of bytes that are left, and without enough of them there is no
result. -/
abbrev Budget := StateT Nat Option

namespace Budget

def charge (bytes : Nat) : Budget Unit := fun left =>
  if bytes ≤ left then some ((), left - bytes) else none

def isFieldSeparator (symbol : Char) : Bool := symbol = ' ' || symbol = '\t' || symbol = '\n'

/-- Every part but the last ends with a separator. -/
def splitInclusive : Text → List Text
  | [] => []
  | symbol :: rest =>
      if isFieldSeparator symbol then [symbol] :: splitInclusive rest
      else
        match splitInclusive rest with
        | [] => [[symbol]]
        | part :: parts => (symbol :: part) :: parts

/-- A field is kept when it has text or comes from text that is not split. -/
structure Fields where
  fields : List Text := []
  current : Text := []
  keep : Bool

def pushField (state : Fields) : Budget Fields := do
  charge sizeOfString
  pure { fields := state.fields ++ [state.current], current := [], keep := false }

def splitPart (state : Fields) (part : Text) : Budget Fields := do
  let separated := (part.getLast?.map isFieldSeparator).getD false
  let text := if separated then part.dropLast else part
  let state := { state with
    current := state.current ++ text
    keep := state.keep || text ≠ [] }
  if separated ∧ state.keep then pushField state else pure state

/-- The value of a segment, and whether it is split into fields. -/
def segmentValue (env : Env) (status : Int) (split : Bool) : Segment → Text × Bool
  | .literal value _ => (value, false)
  | .expansion name quoted =>
      (if name = ['?'] then (toString status).toList else (env.get name).getD [],
        split && ! quoted)

def expandSegment (env : Env) (status : Int) (split : Bool) (state : Fields) (segment : Segment) :
    Budget Fields := do
  let (value, fieldSplit) := segmentValue env status split segment
  charge (utf8Len value)
  if fieldSplit then (splitInclusive value).foldlM splitPart state
  else pure { state with current := state.current ++ value, keep := true }

def word (word : Word) (env : Env) (status : Int) (split : Bool) : Budget (List Text) := do
  let state ← word.segments.foldlM (expandSegment env status split) { keep := ! split }
  if state.keep then do
    let state ← pushField state
    pure state.fields
  else pure state.fields

def chargeEnv : List (Text × Text) → Budget Unit
  | [] => pure ()
  | (name, value) :: rest => do
      charge (2 * sizeOfString)
      charge (utf8Len name)
      charge (utf8Len value)
      chargeEnv rest

/-- A later assignment sees the earlier ones. -/
def assign (status : Int) (env : Env) (assignment : Assignment) : Budget Env := do
  charge sizeOfString
  charge (utf8Len assignment.name)
  let fields ← word assignment.value env status false
  match fields.getLast? with
  | some value => pure (env.insert assignment.name value)
  | none => failure

def expandTarget (env : Env) (status : Int) (redirect : Redirect) : Budget (List Text) := do
  charge sizeOfString
  match redirect.target with
  | .word target => word target env status true
  | .fd _ => pure []

/-- The arguments use the environment of the caller, and so do redirects beside a word. -/
def expand (command : SimpleCommand) (base : Env) (status : Int) : Budget ExpandedCommand := do
  charge sizeOfExpandedCommand
  chargeEnv base.entries
  let env ← command.assignments.foldlM (assign status) base
  let fields ← command.words.mapM fun argument => word argument base status true
  let words := fields.flatten
  let redirectEnv := if words = [] then env else base
  let targets ← command.redirects.mapM (expandTarget redirectEnv status)
  pure { syntaxTree := command, env, words, targets }

end Budget

open Library Budget

/-- The log stays when the budget runs out. -/
abbrev Observed := StateT Nat (OptionT (StateM (List Text)))

namespace Observed

def charge (bytes : Nat) : Observed Unit := fun left log =>
  (if bytes ≤ left then some ((), left - bytes) else none, log)

def hold (text : Text) : Observed Unit := fun left log => (some ((), left), log ++ [text])

def pushField (state : Fields) : Observed Fields := do
  charge sizeOfString
  pure { fields := state.fields ++ [state.current], current := [], keep := false }

def splitPart (state : Fields) (part : Text) : Observed Fields := do
  let separated := (part.getLast?.map isFieldSeparator).getD false
  let text := if separated then part.dropLast else part
  let state := { state with
    current := state.current ++ text
    keep := state.keep || text ≠ [] }
  hold state.current
  if separated ∧ state.keep then pushField state else pure state

def pushValue (state : Fields) (value : Text) : Observed Fields := do
  hold (state.current ++ value)
  pure { state with current := state.current ++ value, keep := true }

def expandSegment (env : Env) (status : Int) (split : Bool) (state : Fields) (segment : Segment) :
    Observed Fields := do
  let (value, fieldSplit) := segmentValue env status split segment
  charge (utf8Len value)
  if fieldSplit then (splitInclusive value).foldlM splitPart state else pushValue state value

def finishWord (state : Fields) : Observed (List Text) :=
  if state.keep then do
    let state ← pushField state
    pure state.fields
  else pure state.fields

def word (word : Word) (env : Env) (status : Int) (split : Bool) : Observed (List Text) := do
  let state ← word.segments.foldlM (expandSegment env status split) { keep := ! split }
  finishWord state

def chargeEnv : List (Text × Text) → Observed Unit
  | [] => pure ()
  | (name, value) :: rest => do
      charge (2 * sizeOfString)
      charge (utf8Len name)
      charge (utf8Len value)
      chargeEnv rest

def assign (status : Int) (env : Env) (assignment : Assignment) : Observed Env := do
  charge sizeOfString
  charge (utf8Len assignment.name)
  let fields ← word assignment.value env status false
  match fields.getLast? with
  | some value => pure (env.insert assignment.name value)
  | none => failure

def expandTarget (env : Env) (status : Int) (redirect : Redirect) : Observed (List Text) := do
  charge sizeOfString
  match redirect.target with
  | .word target => word target env status true
  | .fd _ => pure []

def expand (command : SimpleCommand) (base : Env) (status : Int) : Observed ExpandedCommand := do
  charge sizeOfExpandedCommand
  chargeEnv base.entries
  let env ← command.assignments.foldlM (assign status) base
  let fields ← command.words.mapM fun argument => word argument base status true
  let words := fields.flatten
  let redirectEnv := if words = [] then env else base
  let targets ← command.redirects.mapM (expandTarget redirectEnv status)
  pure { syntaxTree := command, env, words, targets }

end Observed

/-- The stages of a pipeline share the budget, the environment and the status. -/
def expandStages (commands : List Command) (env : Env) (status : Int) :
    Budget (List ExpandedCommand) :=
  commands.mapM fun | .simple simple => Budget.expand simple env status

def Observed.expandStages (commands : List Command) (env : Env) (status : Int) :
    Observed (List ExpandedCommand) :=
  commands.mapM fun | .simple simple => Observed.expand simple env status

end TinySandbox.Shell
