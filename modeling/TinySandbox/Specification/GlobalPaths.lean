/-
This file states which sets of dotted paths can be global names at the same time.
-/

import TinySandbox.Construction.Sandbox.JsGlobals
import TinySandbox.Specification.ShellGrammar

namespace TinySandbox.Sandbox
open Library

/-- The path has segments like the names of shell variables, and its root is free. -/
def GlobalName (name : Text) : Prop :=
  ∃ root segments, name = ['.'].intercalate (root :: segments) ∧
    (∀ segment ∈ root :: segments, Shell.IsName segment) ∧ root ∉ reservedJsGlobals

/-- The inner path continues the outer one behind a dot. -/
def Nested (outer inner : Text) : Prop := ∃ rest, inner = outer ++ '.' :: rest

/-- No name shadows another one. -/
structure WellFormed {γ : Type} (registry : JsGlobalRegistry γ) : Prop where
  valid : ∀ name, registry.get name ≠ none → GlobalName name
  apart : ∀ outer inner, registry.get outer ≠ none → registry.get inner ≠ none →
    ¬ Nested outer inner

/-- The names fit together and into the registry, where they may replace equal names. -/
structure Acceptable {γ : Type} (registry : JsGlobalRegistry γ) (names : List Text) : Prop where
  valid : ∀ name ∈ names, GlobalName name
  distinct : names.Nodup
  apart : ∀ outer ∈ names, ∀ inner ∈ names, ¬ Nested outer inner
  free : ∀ name ∈ names, ∀ other, registry.get other ≠ none →
    ¬ Nested name other ∧ ¬ Nested other name

end TinySandbox.Sandbox
