/-
This file gives the paths, the bytes and the modes in the arguments of a host call.
The base64 codec of the host is given on lists and with the arrays that it fills.
-/

import TinySandbox.Construction.Js.Codecs
import TinySandbox.Construction.Portable.Types
import TinySandbox.Construction.Sandbox.LineFilters

namespace TinySandbox.Portable
open Library

def normalizeAbsolute (path : Text) : Text := Sandbox.normalizeAbsolute path

def resolvePath (cwd path : Text) : Text :=
  normalizeAbsolute (if path.head? = some '/' then path
    else if cwd = ['/'] then '/' :: path
    else cwd ++ '/' :: path)

/-- These are the parts that `split` gives. -/
def pathParts (path : Text) : List Text := path.splitOn '/'

def base64Chars : Text :=
  "ABCDEFGHIJKLMNOPQRSTUVWXYZabcdefghijklmnopqrstuvwxyz0123456789+/".toList

def base64Char (bits : Nat) : Char := base64Chars.getD (bits % 64) '='

/-- Every three bytes give four characters. -/
def encodeBase64 : Bytes → Text
  | [] => []
  | [first] =>
      let bits := first.toNat * 2 ^ 16
      [base64Char (bits / 2 ^ 18), base64Char (bits / 2 ^ 12), '=', '=']
  | [first, second] =>
      let bits := first.toNat * 2 ^ 16 + second.toNat * 2 ^ 8
      [base64Char (bits / 2 ^ 18), base64Char (bits / 2 ^ 12), base64Char (bits / 2 ^ 6), '=']
  | first :: second :: third :: rest =>
      let bits := first.toNat * 2 ^ 16 + second.toNat * 2 ^ 8 + third.toNat
      [base64Char (bits / 2 ^ 18), base64Char (bits / 2 ^ 12), base64Char (bits / 2 ^ 6),
        base64Char bits] ++ encodeBase64 rest

def byteOf (bits : Nat) : UInt8 := UInt8.ofNat (bits % 256)

/-- The last four characters may end with one or two signs of padding. -/
def decodeChunks : Text → Option Bytes
  | [] => some []
  | [first, second, '=', '='] => do
      let first ← base64Chars.idxOf? first
      let second ← base64Chars.idxOf? second
      let bits := first * 2 ^ 18 + second * 2 ^ 12
      pure [byteOf (bits / 2 ^ 16)]
  | [first, second, third, '='] => do
      let first ← base64Chars.idxOf? first
      let second ← base64Chars.idxOf? second
      let third ← base64Chars.idxOf? third
      let bits := first * 2 ^ 18 + second * 2 ^ 12 + third * 2 ^ 6
      pure [byteOf (bits / 2 ^ 16), byteOf (bits / 2 ^ 8)]
  | first :: second :: third :: fourth :: rest => do
      let first ← base64Chars.idxOf? first
      let second ← base64Chars.idxOf? second
      let third ← base64Chars.idxOf? third
      let fourth ← base64Chars.idxOf? fourth
      let bits := first * 2 ^ 18 + second * 2 ^ 12 + third * 2 ^ 6 + fourth
      let behind ← decodeChunks rest
      pure (byteOf (bits / 2 ^ 16) :: byteOf (bits / 2 ^ 8) :: byteOf bits :: behind)
  | _ => none

def decodeBase64 (value : Argument) (maximumBytes : Nat) : Except Thrown Bytes :=
  match decodeChunks value.text with
  | none => .error (invalidVfsCall "tinysandbox")
  | some data =>
      if maximumBytes < data.length then .error (vfsFailure (some .EFBIG) "write") else .ok data

def checkedInteger (value : Argument) (syscall : String) : Except Thrown Nat :=
  match value with
  | .integer value =>
      if isSafeInteger value ∧ 0 ≤ value then .ok value.toNat else .error (invalidVfsCall syscall)
  | _ => .error (invalidVfsCall syscall)

/-- A missing integer is allowed. -/
def checkedNullable (value : Argument) (syscall : String) : Except Thrown (Option Nat) :=
  match value with
  | .undefined => .ok none
  | .null => .ok none
  | value => (checkedInteger value syscall).map some

def checkedMetadata (value : Returned) (syscall : String) (path : Option Text) :
    Except Thrown Metadata :=
  match value with
  | .metadata fileType len =>
      if isSafeInteger len ∧ 0 ≤ len then .ok { fileType, len := len.toNat }
      else .error (vfsFailure none syscall path)
  | _ => .error (vfsFailure none syscall path)

/-- The flags of an open file are the text of the argument or its normal forms. -/
def openMode (flags : Argument) (path : Text) : Except Thrown OpenMode :=
  match flags with
  | .string text =>
      match String.ofList text with
      | "r" => .ok { read := true }
      | "r+" => .ok { read := true, write := true }
      | "w" => .ok { write := true, create := true, truncate := true }
      | "wx" => .ok { write := true, create := true, createNew := true, truncate := true }
      | "xw" => .ok { write := true, create := true, createNew := true, truncate := true }
      | "w+" => .ok { read := true, write := true, create := true, truncate := true }
      | "wx+" => .ok { read := true, write := true, create := true, createNew := true, truncate := true }
      | "w+x" => .ok { read := true, write := true, create := true, createNew := true, truncate := true }
      | "xw+" => .ok { read := true, write := true, create := true, createNew := true, truncate := true }
      | "x+w" => .ok { read := true, write := true, create := true, createNew := true, truncate := true }
      | "a" => .ok { write := true, create := true, append := true }
      | "ax" => .ok { write := true, create := true, createNew := true, append := true }
      | "xa" => .ok { write := true, create := true, createNew := true, append := true }
      | "a+" => .ok { read := true, write := true, create := true, append := true }
      | "ax+" => .ok { read := true, write := true, create := true, createNew := true, append := true }
      | "a+x" => .ok { read := true, write := true, create := true, createNew := true, append := true }
      | "xa+" => .ok { read := true, write := true, create := true, createNew := true, append := true }
      | "x+a" => .ok { read := true, write := true, create := true, createNew := true, append := true }
      | _ => .error (invalidVfsCall "open" (some path))
  | _ => .error (invalidVfsCall "open" (some path))

end TinySandbox.Portable

namespace TinySandbox.Portable.Filled
open Library Js.Guest

def charCode (bits : Nat) : Nat := (Portable.base64Chars.getD (bits &&& 63) '=').toNat

/-- A byte behind the end counts as zero. -/
def encodeLoop : Bytes → Filling → Filling
  | [], output => output
  | byte :: rest, output =>
      let first := byte.toNat
      let second := (rest.getD 0 0).toNat
      let third := (rest.getD 1 0).toNat
      let bits := (first <<< 16) ||| (second <<< 8) ||| third
      let output := output.push (charCode (bits >>> 18))
      let output := output.push (charCode (bits >>> 12))
      let output := output.push (if 0 < rest.length then charCode (bits >>> 6) else 61)
      let output := output.push (if 1 < rest.length then charCode bits else 61)
      encodeLoop (rest.drop 2) output
termination_by bytes => bytes.length
decreasing_by
  rw [List.length_drop, List.length_cons]
  omega

def encodeFill (data : Bytes) : Filling :=
  encodeLoop data (Filling.new ((data.length + 2) / 3 * 4))

/-- The filled array is decoded as UTF-8. -/
def encodeBase64 (data : Bytes) : CodeUnits :=
  textUnits (Sandbox.fromUtf8Lossy (encodeFill data).bytes)

/-- This is the class `[A-Za-z0-9+/]`. -/
def isBase64 (unit : UInt16) : Bool :=
  (65 ≤ unit.toNat ∧ unit.toNat ≤ 90) ∨ (97 ≤ unit.toNat ∧ unit.toNat ≤ 122) ∨
    (48 ≤ unit.toNat ∧ unit.toNat ≤ 57) ∨ unit.toNat = 43 ∨ unit.toNat = 47

/-- The pattern is whole groups with one padded group behind them. -/
def matchesBase64 : CodeUnits → Bool
  | [] => true
  | first :: second :: third :: fourth :: rest =>
      (isBase64 first && isBase64 second && isBase64 third && isBase64 fourth &&
        matchesBase64 rest) ||
      (rest.isEmpty && isBase64 first && isBase64 second &&
        (third == equalsSign || isBase64 third) && fourth == equalsSign)
  | _ => false

/-- A missing character is `-1`, whose bits are all set. -/
def indexOf (unit : UInt16) : Nat :=
  (Portable.base64Chars.idxOf? (Char.ofNat unit.toNat)).getD 0xffffffff

/-- The second and the third byte of a group are written where the array has a place for them. -/
def Filling.pushInside (output : Filling) (value : Nat) : Filling :=
  if output.next < output.bytes.length then output.push value else output

def decodeLoop : CodeUnits → Filling → Filling
  | first :: second :: third :: fourth :: rest, output =>
      let bits := (indexOf first <<< 18) ||| (indexOf second <<< 12) |||
        ((if third = equalsSign then 0 else indexOf third) <<< 6) |||
        (if fourth = equalsSign then 0 else indexOf fourth)
      let output := output.push ((bits >>> 16) &&& 255)
      let output := Filling.pushInside output ((bits >>> 8) &&& 255)
      let output := Filling.pushInside output (bits &&& 255)
      decodeLoop rest output
  | _, output => output

def endsWith (input ending : CodeUnits) : Bool := ending.isSuffixOf input

def decodedLength (input : CodeUnits) : Nat :=
  let padding :=
    if endsWith input [equalsSign, equalsSign] then 2
    else if endsWith input [equalsSign] then 1 else 0
  input.length / 4 * 3 - padding

/-- The length is checked before the array is made. -/
def decodeFill (input : CodeUnits) (maximumBytes : Nat) : Except Thrown Filling :=
  if input.length = 0 then .ok (Filling.new 0)
  else if input.length % 4 ≠ 0 ∨ matchesBase64 input = false then
    .error (invalidVfsCall "tinysandbox")
  else if maximumBytes < decodedLength input then .error (vfsFailure (some .EFBIG) "write")
  else .ok (decodeLoop input (Filling.new (decodedLength input)))

def decodeBase64 (input : CodeUnits) (maximumBytes : Nat) : Except Thrown Bytes :=
  (decodeFill input maximumBytes).map Filling.bytes

end TinySandbox.Portable.Filled
