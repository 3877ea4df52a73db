/-
This file gives the encoder of host responses, which counts the bytes of a text before it is made.
-/

import TinySandbox.Construction.Js.Codecs
import TinySandbox.Construction.Sandbox.Lines

namespace TinySandbox.Portable
open Library Js.Guest

/-- The code units of a number are characters of ASCII. -/
structure NumberText where
  text : CodeUnits
  ascii : ∀ unit ∈ text, unit.toNat < 0x80

/-- The entries of an array and the members of an object can be undefined. -/
inductive Json where
  | undefined
  | null
  | bool (value : Bool)
  | number (value : NumberText)
  | string (text : CodeUnits)
  | array (items : List Json)
  | object (members : List (CodeUnits × Json))

def Json.isUndefined : Json → Bool
  | .undefined => true
  | _ => false

inductive ResponseError where
  | limit
  | depth
  | value

def ResponseError.message : ResponseError → String
  | .limit => "host response exceeded limit"
  | .depth => "JSON response exceeds maximum depth of 256"
  | .value => "response contains a non-JSON value"

/-- The four digits of an escape. -/
def hexDigits (code : Nat) : CodeUnits :=
  [code / 4096, code / 256 % 16, code / 16 % 16, code % 16].map fun digit =>
    (units "0123456789abcdef").getD digit 0

def unicodeEscape (unit : UInt16) : CodeUnits := units "\\u" ++ hexDigits unit.toNat

/-- Only some control characters have a short escape. -/
def quoteUnit (unit : UInt16) : CodeUnits :=
  if unit = 34 then units "\\\""
  else if unit = 92 then units "\\\\"
  else if unit = 8 then units "\\b"
  else if unit = 9 then units "\\t"
  else if unit = 10 then units "\\n"
  else if unit = 12 then units "\\f"
  else if unit = 13 then units "\\r"
  else if unit.toNat < 32 ∨ isSurrogate unit = true then unicodeEscape unit
  else [unit]

def quoteUnits : CodeUnits → CodeUnits
  | [] => []
  | [unit] => quoteUnit unit
  | first :: second :: rest =>
      if isHighSurrogate first ∧ isLowSurrogate second then first :: second :: quoteUnits rest
      else quoteUnit first ++ quoteUnits (second :: rest)

/-- This is `JSON.stringify` of a string. -/
def quote (text : CodeUnits) : CodeUnits := units "\"" ++ quoteUnits text ++ units "\""

def startsPair (unit : UInt16) (rest : CodeUnits) : Bool :=
  0xd800 ≤ unit.toNat ∧ unit.toNat ≤ 0xdbff ∧
    rest.head?.any fun next => 0xdc00 ≤ next.toNat ∧ next.toNat ≤ 0xdfff

/-- The bytes that are counted for the next unit, and whether the unit behind it is counted too. -/
def utf8Cost (unit : UInt16) (rest : CodeUnits) : Nat × Nat :=
  let code := unit.toNat
  if code < 0x80 then (1, 0)
  else if code < 0x800 then (2, 0)
  else if startsPair unit rest then (4, 1)
  else (3, 0)

def utf8LengthFrom (cap : Int) : CodeUnits → Int → Int
  | [], bytes => bytes
  | unit :: rest, bytes =>
      let cost := utf8Cost unit rest
      if cap < bytes + cost.1 then bytes + cost.1
      else utf8LengthFrom cap (rest.drop cost.2) (bytes + cost.1)
termination_by input => input.length
decreasing_by
  rw [List.length_drop, List.length_cons]
  omega

def utf8Length (value : CodeUnits) (cap : Int) : Int := utf8LengthFrom cap value 0

structure Output where
  parts : List CodeUnits := []
  bytes : Int := 0

def append (cap : Int) (part : CodeUnits) (length : Nat) (output : Output) :
    Except ResponseError Output :=
  if cap - output.bytes < length then .error .limit
  else .ok { parts := output.parts ++ [part], bytes := output.bytes + length }

/-- The bytes that the quoted form of the next unit is expected to have. -/
def quotedCost (unit : UInt16) (rest : CodeUnits) : Nat × Nat :=
  let code := unit.toNat
  if code = 34 ∨ code = 92 ∨ code = 8 ∨ code = 9 ∨ code = 10 ∨ code = 12 ∨ code = 13 then (2, 0)
  else if code < 32 then (6, 0)
  else if code < 0x80 then (1, 0)
  else if code < 0x800 then (2, 0)
  else if startsPair unit rest then (4, 1)
  else (if 0xd800 ≤ code ∧ code ≤ 0xdfff then 6 else 3, 0)

def countQuoted (cap bytes : Int) : CodeUnits → Nat → Except ResponseError Nat
  | [], length => .ok length
  | unit :: rest, length =>
      let cost := quotedCost unit rest
      if cap - bytes < (length + cost.1 : Nat) then .error .limit
      else countQuoted cap bytes (rest.drop cost.2) (length + cost.1)
termination_by input => input.length
decreasing_by
  rw [List.length_drop, List.length_cons]
  omega

def appendString (cap : Int) (text : CodeUnits) (output : Output) : Except ResponseError Output :=
    do
  let length ← countQuoted cap output.bytes text 2
  append cap (quote text) length output

/-- The length of a part is the number of its code units. -/
def appendUnits (cap : Int) (part : CodeUnits) (output : Output) : Except ResponseError Output :=
  append cap part part.length output

mutual

def write (cap : Int) : Json → Nat → Output → Except ResponseError Output
  | .undefined, depth, _ => if 256 < depth then .error .depth else .error .value
  | .null, depth, output =>
      if 256 < depth then .error .depth else appendUnits cap (units "null") output
  | .string text, depth, output =>
      if 256 < depth then .error .depth else appendString cap text output
  | .number value, depth, output =>
      if 256 < depth then .error .depth else appendUnits cap value.text output
  | .bool value, depth, output =>
      if 256 < depth then .error .depth
      else appendUnits cap (units (if value then "true" else "false")) output
  | .array items, depth, output =>
      if 256 < depth then .error .depth
      else do
        let output ← appendUnits cap (units "[") output
        let output ← writeItems cap true items depth output
        appendUnits cap (units "]") output
  | .object members, depth, output =>
      if 256 < depth then .error .depth
      else do
        let output ← appendUnits cap (units "\x7b") output
        let output ← writeMembers cap true members depth output
        appendUnits cap (units "\x7d") output

/-- An undefined entry of an array is written as `null`. -/
def writeItems (cap : Int) (first : Bool) : List Json → Nat → Output → Except ResponseError Output
  | [], _, output => .ok output
  | entry :: rest, depth, output => do
      let output ← if first then .ok output else appendUnits cap (units ",") output
      let output ← if entry.isUndefined then appendUnits cap (units "null") output
        else write cap entry (depth + 1) output
      writeItems cap false rest depth output

/-- An undefined member of an object is left out. -/
def writeMembers (cap : Int) (first : Bool) :
    List (CodeUnits × Json) → Nat → Output → Except ResponseError Output
  | [], _, output => .ok output
  | (key, entry) :: rest, depth, output =>
      if entry.isUndefined then writeMembers cap first rest depth output
      else do
        let output ← if first then .ok output else appendUnits cap (units ",") output
        let output ← appendString cap key output
        let output ← appendUnits cap (units ":") output
        let output ← write cap entry (depth + 1) output
        writeMembers cap false rest depth output

end

def boundedJson (value : Json) (cap : Int) : Except ResponseError Bytes := do
  let output ← write cap value 0 {}
  return Sandbox.textBytes (unitsText output.parts.flatten)

end TinySandbox.Portable
