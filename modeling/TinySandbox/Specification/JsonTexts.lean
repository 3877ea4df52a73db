/-
This file gives the text of a JSON value, and the grammar of streams of JSON values with the depth to
which each value nests. Blanks and comments may stand between all lexemes. Strings and scalars are as
loose as their ends allow, so every stream of valid JSON is a stream here.
-/

import TinySandbox.Construction.Portable.BoundedJson
import TinySandbox.Construction.Types

namespace TinySandbox.Jq

inductive Bracket where
  | array
  | object
  deriving DecidableEq

def Bracket.openingByte : Bracket → UInt8
  | .array => 91
  | .object => 123

def Bracket.closingByte : Bracket → UInt8
  | .array => 93
  | .object => 125

/-- A byte of a string stands for itself, or it stands behind a backslash. -/
inductive StringPiece where
  | plain (byte : UInt8) (unquoted : byte ≠ 34 ∧ byte ≠ 92)
  | escaped (byte : UInt8)

def StringPiece.bytes : StringPiece → Bytes
  | .plain byte _ => [byte]
  | .escaped byte => [92, byte]

def isBlank (byte : UInt8) : Bool := byte = 32 ∨ byte = 9 ∨ byte = 10 ∨ byte = 13

/-- These bytes are no part of a number, `true`, `false` or `null`. -/
def isMeaningful (byte : UInt8) : Bool := [34, 35, 44, 58, 91, 93, 123, 125].contains byte

inductive Lexeme where
  | opening (bracket : Bracket)
  | closing (bracket : Bracket)
  | comma
  | colon
  | string (pieces : List StringPiece)
  | scalar (text : Bytes) (plain : ∀ byte ∈ text, isMeaningful byte = false)
  | blank (byte : UInt8) (space : isBlank byte = true)
  | comment (text : Bytes) (line : 10 ∉ text)

def Lexeme.bytes : Lexeme → Bytes
  | .opening bracket => [bracket.openingByte]
  | .closing bracket => [bracket.closingByte]
  | .comma => [44]
  | .colon => [58]
  | .string pieces => 34 :: pieces.flatMap StringPiece.bytes ++ [34]
  | .scalar text _ => text
  | .blank byte _ => [byte]
  | .comment text _ => 35 :: text ++ [10]

def lexemeBytes (lexemes : List Lexeme) : Bytes := lexemes.flatMap Lexeme.bytes

inductive Lexeme.IsGap : Lexeme → Prop where
  | blank {byte : UInt8} {space : isBlank byte = true} : IsGap (.blank byte space)
  | comment {text : Bytes} {line : 10 ∉ text} : IsGap (.comment text line)

def Gap (lexemes : List Lexeme) : Prop := ∀ lexeme ∈ lexemes, lexeme.IsGap

inductive Lexeme.IsAtom : Lexeme → Prop where
  | string {pieces : List StringPiece} : IsAtom (.string pieces)
  | scalar {text : Bytes} {plain : ∀ byte ∈ text, isMeaningful byte = false} :
      IsAtom (.scalar text plain)

mutual

/-- The lexemes of a value and its depth. -/
inductive ValueOf : List Lexeme → Nat → Prop where
  | atom {lexeme : Lexeme} (atom : lexeme.IsAtom) : ValueOf [lexeme] 0
  | empty (bracket : Bracket) {gap : List Lexeme} (blank : Gap gap) :
      ValueOf (.opening bracket :: gap ++ [.closing bracket]) 1
  | filled {bracket : Bracket} {items : List Lexeme} {depth : Nat}
      (inside : ItemsOf bracket items depth) :
      ValueOf (.opening bracket :: items ++ [.closing bracket]) (depth + 1)

/-- The items between two brackets and the depth of the deepest. -/
inductive ItemsOf : Bracket → List Lexeme → Nat → Prop where
  | last {bracket : Bracket} {item : List Lexeme} {depth : Nat} (here : ItemOf bracket item depth) :
      ItemsOf bracket item depth
  | more {bracket : Bracket} {item rest : List Lexeme} {depth other : Nat}
      (here : ItemOf bracket item depth) (later : ItemsOf bracket rest other) :
      ItemsOf bracket (item ++ .comma :: rest) (max depth other)

/-- An item of an object has a key. -/
inductive ItemOf : Bracket → List Lexeme → Nat → Prop where
  | element {before value behind : List Lexeme} {depth : Nat} (first : Gap before)
      (here : ValueOf value depth) (last : Gap behind) :
      ItemOf .array (before ++ value ++ behind) depth
  | member {before middle between value behind : List Lexeme} {key : List StringPiece} {depth : Nat}
      (first : Gap before) (second : Gap middle) (third : Gap between) (here : ValueOf value depth)
      (last : Gap behind) :
      ItemOf .object (before ++ .string key :: middle ++ .colon :: between ++ value ++ behind) depth

end

/-- The lexemes of a stream and the depths of its values. -/
inductive StreamOf : List Lexeme → List Nat → Prop where
  | done {gap : List Lexeme} (blank : Gap gap) : StreamOf gap []
  | value {gap value rest : List Lexeme} {depth : Nat} {depths : List Nat} (blank : Gap gap)
      (here : ValueOf value depth) (later : StreamOf rest depths) :
      StreamOf (gap ++ value ++ rest) (depth :: depths)

/-- The last comment of a stream needs no newline. -/
def Trailing (bytes : Bytes) : Prop := bytes = [] ∨ ∃ text, bytes = 35 :: text ∧ 10 ∉ text

/-- The bytes are the values of these depths. -/
def JsonStream (data : Bytes) (depths : List Nat) : Prop :=
  ∃ lexemes trailing, StreamOf lexemes depths ∧ Trailing trailing ∧
    data = lexemeBytes lexemes ++ trailing

/-- A parser consumes these bytes as the first lexemes of some stream and a part of the next. -/
def Consumes (consumed : Bytes) (lexemes : List Lexeme) : Prop :=
  ∃ behind depths trailing part, StreamOf (lexemes ++ behind) depths ∧ Trailing trailing ∧
    part <+: lexemeBytes behind ++ trailing ∧ consumed = lexemeBytes lexemes ++ part

def Lexeme.isOpening : Lexeme → Bool
  | .opening _ => true
  | _ => false

def Lexeme.isClosing : Lexeme → Bool
  | .closing _ => true
  | _ => false

/-- The brackets that are open behind the lexemes. -/
def unclosed (lexemes : List Lexeme) : Nat :=
  lexemes.countP Lexeme.isOpening - lexemes.countP Lexeme.isClosing

end TinySandbox.Jq

namespace TinySandbox.Portable
open Library Js.Guest

mutual

/-- An undefined entry of an array is `null`. -/
def Json.text : Json → CodeUnits
  | .undefined => units "null"
  | .null => units "null"
  | .bool value => units (if value then "true" else "false")
  | .number value => value.text
  | .string text => quote text
  | .array items => units "[" ++ (units ",").intercalate (itemTexts items) ++ units "]"
  | .object members => units "\x7b" ++ (units ",").intercalate (memberTexts members) ++ units "\x7d"

def itemTexts : List Json → List CodeUnits
  | [] => []
  | entry :: rest => entry.text :: itemTexts rest

/-- An undefined member has no text. -/
def memberTexts : List (CodeUnits × Json) → List CodeUnits
  | [] => []
  | (key, entry) :: rest =>
      if entry.isUndefined then memberTexts rest
      else (quote key ++ units ":" ++ entry.text) :: memberTexts rest

end

/-- There is no text for an undefined value. -/
def stringify (value : Json) : Option CodeUnits :=
  if value.isUndefined then none else some value.text

mutual

/-- The level of the deepest item. -/
def Json.levels : Json → Nat
  | .array items => itemLevels items
  | .object members => memberLevels members
  | _ => 0

def itemLevels : List Json → Nat
  | [] => 0
  | entry :: rest => max (if entry.isUndefined then 0 else entry.levels + 1) (itemLevels rest)

def memberLevels : List (CodeUnits × Json) → Nat
  | [] => 0
  | (_, entry) :: rest =>
      max (if entry.isUndefined then 0 else entry.levels + 1) (memberLevels rest)

end

end TinySandbox.Portable
