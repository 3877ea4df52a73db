/-
This file gives the registry of the host functions that scripts can call.
A function is registered at a dotted global path.
-/

import TinySandbox.Construction.Types
import TinySandbox.Library.OrderedMap

namespace TinySandbox.Sandbox
open Library

abbrev JsGlobalRegistry (γ : Type) := OrderedMap Text γ

structure JsGlobalError where
  message : Text
  deriving DecidableEq

def isAssignmentName : Text → Bool
  | [] => false
  | first :: rest =>
      (first.isAlpha || first = '_') && rest.all fun symbol => symbol.isAlphanum || symbol = '_'

def isJsGlobalName (name : Text) : Bool := name ≠ [] && (name.splitOn '.').all isAssignmentName

def reservedJsGlobals : List Text :=
  ["Buffer", "Headers", "Response", "__dirname", "__filename", "console", "exports", "fetch",
    "globalThis", "module", "process", "require", "setTimeout", "clearTimeout", "setInterval",
    "clearInterval", "setImmediate", "clearImmediate"].map String.toList

def checkJsGlobalName (name : Text) : Except JsGlobalError Unit :=
  if ! isJsGlobalName name then
    .error { message := "cannot register invalid name '".toList ++ name ++
      "'; names are dot-separated paths of [A-Za-z_][A-Za-z0-9_]* segments".toList }
  else
    let root := (name.splitOn '.').head?.getD name
    if root ∈ reservedJsGlobals then
      .error { message := "cannot register reserved name '".toList ++ name ++ "'; '".toList ++
        root ++ "' is provided by the JavaScript runtime".toList }
    else .ok ()

/-- The path is in the namespace. A dot is one byte, so characters serve as well as bytes. -/
def isInside (space path : Text) : Bool :=
  decide (space.length < path.length) && decide (path[space.length]? = some '.') &&
    decide (space <+: path)

def pathsConflict (left right : Text) : Bool :=
  decide (left = right) || isInside left right || isInside right left

/-- The loop knows the registry so far and the names that it has added. -/
def mergeEntries {γ : Type} (merged : JsGlobalRegistry γ) (added : List Text) :
    List (Text × γ) → Except JsGlobalError (JsGlobalRegistry γ)
  | [] => .ok merged
  | (name, global) :: entries => do
      checkJsGlobalName name
      if name ∈ added then
        .error { message := "cannot register duplicate name '".toList ++ name ++ "'".toList }
      else
        let others := merged.erase name
        match (others.entries.map Prod.fst).find? fun other => pathsConflict other name with
        | some other =>
            .error { message := "cannot register '".toList ++ name ++
              "'; it conflicts with '".toList ++ other ++ "'".toList }
        | none => mergeEntries (others.insert name global) (name :: added) entries

def mergeJsGlobals {γ : Type} (merged : JsGlobalRegistry γ) (entries : List (Text × γ)) :
    Except JsGlobalError (JsGlobalRegistry γ) :=
  mergeEntries merged [] entries

/-- A set that is rejected makes the builder panic. -/
def buildJsGlobalRegistry {γ : Type} (entries : List (Text × γ)) : Option (JsGlobalRegistry γ) :=
  (mergeJsGlobals ∅ entries).toOption

/-- The change happens under the lock, and an error keeps the registry. -/
def mutateJsGlobals {γ : Type}
    (change : JsGlobalRegistry γ → Except JsGlobalError (JsGlobalRegistry γ))
    (registry : JsGlobalRegistry γ) : Except JsGlobalError Unit × JsGlobalRegistry γ :=
  match change registry with
  | .error error => (.error error, registry)
  | .ok next => (.ok (), next)

def setJsGlobal {γ : Type} (name : Text) (global : γ) :
    JsGlobalRegistry γ → Except JsGlobalError Unit × JsGlobalRegistry γ :=
  mutateJsGlobals fun current => mergeJsGlobals current [(name, global)]

def extendJsGlobals {γ : Type} (entries : List (Text × γ)) :
    JsGlobalRegistry γ → Except JsGlobalError Unit × JsGlobalRegistry γ :=
  mutateJsGlobals fun current => mergeJsGlobals current entries

def replaceJsGlobals {γ : Type} (entries : List (Text × γ)) :
    JsGlobalRegistry γ → Except JsGlobalError Unit × JsGlobalRegistry γ :=
  mutateJsGlobals fun _ => mergeJsGlobals ∅ entries

/-- The flag tells whether the name was registered. -/
def removeJsGlobal {γ : Type} (name : Text) (registry : JsGlobalRegistry γ) :
    Bool × JsGlobalRegistry γ :=
  match registry.get name with
  | none => (false, registry)
  | some _ => (true, registry.erase name)

inductive JsGlobalCall (γ : Type) where
  | set (name : Text) (global : γ)
  | extend (entries : List (Text × γ))
  | replace (entries : List (Text × γ))
  | remove (name : Text)

inductive JsGlobalReply where
  | mutated (result : Except JsGlobalError Unit)
  | removed (found : Bool)

/-- A name that was not registered is not removed, and that rejects nothing. -/
def JsGlobalReply.Rejects : JsGlobalReply → Prop
  | .mutated (.error _) => True
  | _ => False

def JsGlobalCall.run {γ : Type} (registry : JsGlobalRegistry γ) :
    JsGlobalCall γ → JsGlobalReply × JsGlobalRegistry γ
  | .set name global => (setJsGlobal name global registry).map .mutated id
  | .extend entries => (extendJsGlobals entries registry).map .mutated id
  | .replace entries => (replaceJsGlobals entries registry).map .mutated id
  | .remove name => (removeJsGlobal name registry).map .removed id

def runJsGlobalCalls {γ : Type} (registry : JsGlobalRegistry γ) (calls : List (JsGlobalCall γ)) :
    JsGlobalRegistry γ :=
  calls.foldl (fun current call => (call.run current).2) registry

end TinySandbox.Sandbox
