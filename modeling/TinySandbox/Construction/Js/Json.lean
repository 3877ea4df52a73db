/-
This file gives the JSON values of host calls, how they are written, and how bytes stand in them.
The serializer writes chunks, and a buffer takes each chunk in full or fails.
-/

import TinySandbox.Construction.Sandbox.Lines

namespace TinySandbox.Js
open Sandbox

inductive JsonNumber where
  | posInt (value : UInt64)
  | negInt (value : Int64)
  | float (literal : Text)
  deriving DecidableEq

inductive Json where
  | null
  | bool (value : Bool)
  | number (value : JsonNumber)
  | string (value : Text)
  | array (items : List Json)
  | object (members : List (Text × Json))

namespace Json

def get (name : Text) : Json → Option Json
  | .object members => (members.find? fun member => member.1 = name).map Prod.snd
  | _ => none

def asStr : Json → Option Text
  | .string value => some value
  | _ => none

def asBool : Json → Option Bool
  | .bool value => some value
  | _ => none

def asI64 : Json → Option Int
  | .number (.posInt value) => if value.toNat < 2 ^ 63 then some value.toNat else none
  | .number (.negInt value) => some value.toInt
  | _ => none

def asU64 : Json → Option Nat
  | .number (.posInt value) => some value.toNat
  | _ => none

end Json

/-! ## The serializer -/

def hexDigit (value : Nat) : UInt8 :=
  if value < 10 then UInt8.ofNat (48 + value) else UInt8.ofNat (87 + value)

/-- A control character without a short escape is written with four digits. -/
def escapeOf (symbol : Char) : Option Bytes :=
  if symbol = '"' then some [92, 34]
  else if symbol = '\\' then some [92, 92]
  else if symbol.toNat = 8 then some [92, 98]
  else if symbol.toNat = 12 then some [92, 102]
  else if symbol.toNat = 10 then some [92, 110]
  else if symbol.toNat = 13 then some [92, 114]
  else if symbol.toNat = 9 then some [92, 116]
  else if symbol.toNat < 32 then
    some [92, 117, 48, 48, hexDigit (symbol.toNat / 16), hexDigit (symbol.toNat % 16)]
  else none

/-- A fragment holds the characters since the last escape, and an empty one is not written. -/
def escapedChunks (fragment : Bytes) : Text → List Bytes
  | [] => if fragment = [] then [] else [fragment]
  | symbol :: rest =>
      match escapeOf symbol with
      | none => escapedChunks (fragment ++ String.utf8EncodeChar symbol) rest
      | some escape =>
          (if fragment = [] then [] else [fragment]) ++ escape :: escapedChunks [] rest

def stringChunks (value : Text) : List Bytes := [34] :: escapedChunks [] value ++ [[34]]

def JsonNumber.literal : JsonNumber → Text
  | .posInt value => (toString value.toNat).toList
  | .negInt value => (toString value.toInt).toList
  | .float literal => literal

mutual

def Json.chunks : Json → List Bytes
  | .null => [textBytes "null".toList]
  | .bool value => [textBytes (if value then "true".toList else "false".toList)]
  | .number value => [textBytes value.literal]
  | .string value => stringChunks value
  | .array items => [91] :: itemChunks true items ++ [[93]]
  | .object members => [123] :: memberChunks true members ++ [[125]]

def itemChunks (first : Bool) : List Json → List Bytes
  | [] => []
  | item :: rest => (if first then [] else [[44]]) ++ item.chunks ++ itemChunks false rest

def memberChunks (first : Bool) : List (Text × Json) → List Bytes
  | [] => []
  | (name, value) :: rest =>
      (if first then [] else [[44]]) ++ stringChunks name ++ [58] :: value.chunks ++
        memberChunks false rest

end

def Json.serialize (value : Json) : Bytes := value.chunks.flatten

/-- The buffer of the response, with the capacities that were asked of the allocator. -/
structure Writer where
  bytes : Bytes := []
  capacity : Nat := 0
  requests : List Nat := []

namespace Writer

/-- The allocator may give more than it is asked for. -/
def reserve (granted : Nat → Nat) (capacity : Nat) (writer : Writer) : Writer :=
  { writer with
    capacity := max capacity (granted capacity)
    requests := writer.requests ++ [capacity] }

/-- A full vector doubles its capacity. -/
def extendFromSlice (granted : Nat → Nat) (data : Bytes) (writer : Writer) : Writer :=
  let needed := writer.bytes.length + data.length
  let roomy :=
    if writer.capacity < needed then writer.reserve granted (max needed (writer.capacity * 2))
    else writer
  { roomy with bytes := roomy.bytes ++ data }

def write (granted : Nat → Nat) (cap : Nat) (data : Bytes) (writer : Writer) : Option Writer :=
  if cap - writer.bytes.length < data.length then none
  else
    let needed := writer.bytes.length + data.length
    let roomy :=
      if writer.capacity < needed then
        writer.reserve granted (min (max needed (min (writer.capacity * 2) u64Max)) cap)
      else writer
    some (roomy.extendFromSlice granted data)

def writeAll (granted : Nat → Nat) (cap : Nat) (writer : Writer) : List Bytes → Option Writer
  | [] => some writer
  | data :: rest =>
      if data = [] then writer.writeAll granted cap rest
      else (writer.write granted cap data).bind fun next => next.writeAll granted cap rest

end Writer

def boundedJson (granted : Nat → Nat) (value : Json) (cap : Nat) : Option Writer :=
  Writer.writeAll granted cap {} value.chunks

/-! ## Base64 -/

/-- The character of six bits. -/
def base64Symbol (value : Nat) : Char :=
  if value < 26 then Char.ofNat (65 + value)
  else if value < 52 then Char.ofNat (71 + value)
  else if value < 62 then Char.ofNat (value - 4)
  else if value = 62 then '+'
  else '/'

/-- Three bytes are four characters, and the last characters are padded. -/
def base64Encode : Bytes → Text
  | [] => []
  | [first] =>
      [base64Symbol (first.toNat / 4), base64Symbol (first.toNat % 4 * 16), '=', '=']
  | [first, second] =>
      [base64Symbol (first.toNat / 4),
        base64Symbol (first.toNat % 4 * 16 + second.toNat / 16),
        base64Symbol (second.toNat % 16 * 4), '=']
  | first :: second :: third :: rest =>
      base64Symbol (first.toNat / 4) ::
        base64Symbol (first.toNat % 4 * 16 + second.toNat / 16) ::
        base64Symbol (second.toNat % 16 * 4 + third.toNat / 64) ::
        base64Symbol (third.toNat % 64) :: base64Encode rest

def base64Value (symbol : Char) : Option Nat :=
  (List.range 64).find? fun value => base64Symbol value = symbol

/-- Only padded texts without stray bits are decoded. -/
def base64Decode : Text → Option Bytes
  | [] => some []
  | first :: second :: third :: fourth :: rest => do
      let one ← base64Value first
      let two ← base64Value second
      if third = '=' ∧ fourth = '=' ∧ rest = [] then
        if two % 16 = 0 then some [UInt8.ofNat (one * 4 + two / 16)] else none
      else do
        let three ← base64Value third
        let head := [UInt8.ofNat (one * 4 + two / 16), UInt8.ofNat (two % 16 * 16 + three / 4)]
        if fourth = '=' ∧ rest = [] then if three % 4 = 0 then some head else none
        else do
          let four ← base64Value fourth
          let tail ← base64Decode rest
          some (head ++ UInt8.ofNat (three % 4 * 64 + four) :: tail)
  | _ => none

end TinySandbox.Js
