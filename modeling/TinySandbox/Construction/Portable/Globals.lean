/-
This file gives the check for the names of the host functions in the portable host.
-/

import TinySandbox.Construction.Js.Codecs

namespace TinySandbox.Portable
open Library Js.Guest

def reservedGlobals : List CodeUnits :=
  ["Buffer", "Headers", "Response", "__dirname", "__filename", "console", "exports", "fetch",
    "globalThis", "module", "process", "require", "setTimeout", "clearTimeout", "setInterval",
    "clearInterval", "setImmediate", "clearImmediate"].map units

inductive GlobalsError where
  | notFunction (name : CodeUnits)
  | invalid (name : CodeUnits)
  | reserved (name root : CodeUnits)
  | conflict (current previous : CodeUnits)

def GlobalsError.message : GlobalsError → CodeUnits
  | .notFunction name => units "global '" ++ name ++ units "' must be a function"
  | .invalid name =>
      units "cannot register invalid name '" ++ name ++
        units "'; names are dot-separated paths of [A-Za-z_][A-Za-z0-9_]* segments"
  | .reserved name root =>
      units "cannot register reserved name '" ++ name ++ units "'; '" ++ root ++
        units "' is provided by the JavaScript runtime"
  | .conflict current previous =>
      units "cannot register '" ++ current ++ units "'; it conflicts with '" ++ previous ++
        units "'"

/-- This is the class `[A-Za-z_]`. -/
def isNameUnit (unit : UInt16) : Bool :=
  (65 ≤ unit.toNat ∧ unit.toNat ≤ 90) ∨ (97 ≤ unit.toNat ∧ unit.toNat ≤ 122) ∨ unit.toNat = 95

/-- This is the class `[0-9]`. -/
def isDigitUnit (unit : UInt16) : Bool := 48 ≤ unit.toNat ∧ unit.toNat ≤ 57

def isSegment : CodeUnits → Bool
  | [] => false
  | first :: rest => isNameUnit first && rest.all fun unit => isNameUnit unit || isDigitUnit unit

def checkGlobal (isFunction : CodeUnits → Bool) (name : CodeUnits) : Except GlobalsError Unit :=
  let parts := Js.Guest.pathParts name
  let root := parts.headD []
  if isFunction name = false then .error (.notFunction name)
  else if parts.any fun part => ! isSegment part then .error (.invalid name)
  else if reservedGlobals.contains root then .error (.reserved name root)
  else .ok ()

/-- Only neighbours are compared. -/
def checkNeighbours : List CodeUnits → Except GlobalsError Unit
  | previous :: current :: rest =>
      if (previous ++ [dot]).isPrefixOf current then .error (.conflict current previous)
      else checkNeighbours (current :: rest)
  | _ => .ok ()

/-- The keys of the object are sorted by their code units. -/
def validateGlobals (isFunction : CodeUnits → Bool) (keys : List CodeUnits) :
    Except GlobalsError (List CodeUnits) := do
  let names := keys.mergeSort fun left right => left ≤ right
  names.forM (checkGlobal isFunction)
  checkNeighbours names
  return names

end TinySandbox.Portable
