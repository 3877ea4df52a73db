/-
This file gives the syntax trees of `jq` filters, and the check that finds the definitions in them.
The trees are those of the imported parser, and the parser itself is a parameter.
-/

import TinySandbox.Construction.Jq.FilterSource

namespace TinySandbox.Jq

inductive Math where
  | add
  | sub
  | mul
  | div
  | rem
  deriving DecidableEq

inductive Cmp where
  | lt
  | le
  | gt
  | ge
  | eq
  | ne
  deriving DecidableEq

inductive Opt where
  | optional
  | essential
  deriving DecidableEq

mutual

inductive Term where
  | id
  | recurse
  | num (text : Text)
  | str (format : Option Text) (parts : List StrPart)
  | arr (term : Option Term)
  | obj (entries : List (Term × Option Term))
  | neg (term : Term)
  | binOp (left : Term) (op : BinaryOp) (right : Term)
  | label (name : Text) (term : Term)
  | break (name : Text)
  | fold (name : Text) (input : Term) (pattern : Pattern) (args : List Term)
  | tryCatch (term : Term) (handler : Option Term)
  | ifThenElse (branches : List (Term × Term)) (fallback : Option Term)
  | «def» (defs : List Def) (rest : Term)
  | call (name : Text) (args : List Term)
  | var (name : Text)
  | path (head : Term) (path : List (Part × Opt))

inductive StrPart where
  | str (text : Text)
  | term (term : Term)
  | char (symbol : Char)

inductive BinaryOp where
  | pipe (pattern : Option Pattern)
  | comma
  | alt
  | or
  | and
  | math (op : Math)
  | cmp (op : Cmp)
  | assign
  | update
  | updateMath (op : Math)
  | updateAlt

inductive Pattern where
  | var (name : Text)
  | arr (patterns : List Pattern)
  | obj (entries : List (Term × Pattern))

inductive Part where
  | index (term : Term)
  | range (start stop : Option Term)

inductive Def where
  | «def» (name : Text) (args : List Text) (body : Term)

end

mutual

def termContainsUserDef : Term → Bool
  | .id | .recurse | .num _ | .break _ | .var _ => false
  | .str _ parts => partsContainUserDef parts
  | .arr term => optionContainsUserDef term
  | .obj entries => entriesContainUserDef entries
  | .neg term | .label _ term | .tryCatch term none => termContainsUserDef term
  | .binOp left op right =>
      termContainsUserDef left || binaryOpContainsUserDef op || termContainsUserDef right
  | .fold _ input pattern args =>
      termContainsUserDef input || patternContainsUserDef pattern || termsContainUserDef args
  | .tryCatch term (some handler) => termContainsUserDef term || termContainsUserDef handler
  | .ifThenElse branches fallback =>
      branchesContainUserDef branches || optionContainsUserDef fallback
  | .«def» _ _ => true
  | .call _ args => termsContainUserDef args
  | .path head path => termContainsUserDef head || pathContainsUserDef path

def optionContainsUserDef : Option Term → Bool
  | none => false
  | some term => termContainsUserDef term

def termsContainUserDef : List Term → Bool
  | [] => false
  | term :: rest => termContainsUserDef term || termsContainUserDef rest

def partsContainUserDef : List StrPart → Bool
  | [] => false
  | .term term :: rest => termContainsUserDef term || partsContainUserDef rest
  | .str _ :: rest => partsContainUserDef rest
  | .char _ :: rest => partsContainUserDef rest

def entriesContainUserDef : List (Term × Option Term) → Bool
  | [] => false
  | (key, value) :: rest =>
      termContainsUserDef key || optionContainsUserDef value || entriesContainUserDef rest

def branchesContainUserDef : List (Term × Term) → Bool
  | [] => false
  | (condition, body) :: rest =>
      termContainsUserDef condition || termContainsUserDef body || branchesContainUserDef rest

def binaryOpContainsUserDef : BinaryOp → Bool
  | .pipe (some pattern) => patternContainsUserDef pattern
  | .pipe none | .comma | .alt | .or | .and | .math _ | .cmp _ | .assign | .update
  | .updateMath _ | .updateAlt => false

def patternContainsUserDef : Pattern → Bool
  | .var _ => false
  | .arr patterns => patternsContainUserDef patterns
  | .obj entries => patternEntriesContainUserDef entries

def patternsContainUserDef : List Pattern → Bool
  | [] => false
  | pattern :: rest => patternContainsUserDef pattern || patternsContainUserDef rest

def patternEntriesContainUserDef : List (Term × Pattern) → Bool
  | [] => false
  | (key, pattern) :: rest =>
      termContainsUserDef key || patternContainsUserDef pattern || patternEntriesContainUserDef rest

def pathContainsUserDef : List (Part × Opt) → Bool
  | [] => false
  | (.index term, _) :: rest => termContainsUserDef term || pathContainsUserDef rest
  | (.range start stop, _) :: rest =>
      optionContainsUserDef start || optionContainsUserDef stop || pathContainsUserDef rest

end

def userDefMessage : Text :=
  "user-defined jq functions are not supported in tinysandbox".toList

/-- A filter that does not parse is left to the compiler. -/
def validateFilterPolicy (parse : Bytes → Option Term) (filter : Bytes) : Except JqError Unit := do
  validateFilterSource filter
  match parse filter with
  | none => .ok ()
  | some term =>
      if termContainsUserDef term then .error (.compile userDefMessage) else .ok ()

end TinySandbox.Jq
