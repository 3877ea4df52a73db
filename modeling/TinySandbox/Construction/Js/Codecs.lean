/-
This file gives the codecs of the guest shim and the installation of its globals.
A string is its list of 16-bit code units, and a read behind the end of an array counts as zero.
-/

import Mathlib.Logic.Function.Basic
import TinySandbox.Construction.Types
import TinySandbox.Library.Unicode

namespace TinySandbox.Js.Guest
open Library

abbrev CodeUnits := List UInt16

/-! ## UTF-8 -/

def encodeCode (code : Nat) : Bytes :=
  (if code ≤ 0x7f then [code]
  else if code ≤ 0x7ff then [0xc0 ||| (code >>> 6), 0x80 ||| (code &&& 0x3f)]
  else if code ≤ 0xffff then
    [0xe0 ||| (code >>> 12), 0x80 ||| ((code >>> 6) &&& 0x3f), 0x80 ||| (code &&& 0x3f)]
  else
    [0xf0 ||| (code >>> 18), 0x80 ||| ((code >>> 12) &&& 0x3f), 0x80 ||| ((code >>> 6) &&& 0x3f),
      0x80 ||| (code &&& 0x3f)]).map UInt8.ofNat

/-- An unpaired surrogate is encoded by its own number. -/
def utf8Encode : CodeUnits → Bytes
  | [] => []
  | [unit] => encodeCode unit.toNat
  | unit :: next :: rest =>
      if isHighSurrogate unit ∧ isLowSurrogate next then
        encodeCode (0x10000 + ((unit.toNat - 0xd800) <<< 10) + (next.toNat - 0xdc00)) ++
          utf8Encode rest
      else encodeCode unit.toNat ++ utf8Encode (next :: rest)

def fromCode (code : Nat) : CodeUnits :=
  if code ≤ 0xffff then [UInt16.ofNat code]
  else
    [UInt16.ofNat (0xd800 + ((code - 0x10000) >>> 10)),
      UInt16.ofNat (0xdc00 + ((code - 0x10000) &&& 0x3ff))]

/-- The low bits of the byte at the index. -/
def lowBits (bytes : Bytes) (index : Nat) : Nat := (bytes.getD index 0).toNat &&& 0x3f

/-- The code that the first byte starts, with the number of bytes that it takes behind itself. -/
def decodeCode (first : Nat) (rest : Bytes) : Nat × Nat :=
  if first < 0x80 then (first, 0)
  else if first &&& 0xe0 = 0xc0 then (((first &&& 0x1f) <<< 6) ||| lowBits rest 0, 1)
  else if first &&& 0xf0 = 0xe0 then
    (((first &&& 0x0f) <<< 12) ||| (lowBits rest 0 <<< 6) ||| lowBits rest 1, 2)
  else
    (((first &&& 0x07) <<< 18) ||| (lowBits rest 0 <<< 12) ||| (lowBits rest 1 <<< 6) |||
      lowBits rest 2, 3)

def utf8Decode : Bytes → CodeUnits
  | [] => []
  | first :: rest =>
      fromCode (decodeCode first.toNat rest).1 ++
        utf8Decode (rest.drop (decodeCode first.toNat rest).2)
termination_by bytes => bytes.length

/-! ## Base64 -/

def units (text : String) : CodeUnits := text.toList.map fun symbol => UInt16.ofNat symbol.toNat

def base64Chars : CodeUnits :=
  units "ABCDEFGHIJKLMNOPQRSTUVWXYZabcdefghijklmnopqrstuvwxyz0123456789+/"

def equalsSign : UInt16 := 61

def base64Char (bits : Nat) : UInt16 := base64Chars.getD (bits &&& 63) 0

structure Emitter where
  chunks : List CodeUnits := []
  chunk : CodeUnits := []

/-- A chunk is put away when it has reached the limit. -/
def Emitter.emit (limit : Nat) (emitter : Emitter) (value : CodeUnits) : Emitter :=
  let chunk := emitter.chunk ++ value
  if limit ≤ chunk.length then { chunks := emitter.chunks ++ [chunk], chunk := [] }
  else { emitter with chunk }

def base64Loop (limit : Nat) : Bytes → Emitter → Emitter
  | [], emitter => emitter
  | [first], emitter =>
      let n := first.toNat <<< 16
      emitter.emit limit [base64Char (n >>> 18), base64Char (n >>> 12), equalsSign, equalsSign]
  | [first, second], emitter =>
      let n := (first.toNat <<< 16) ||| (second.toNat <<< 8)
      emitter.emit limit
        [base64Char (n >>> 18), base64Char (n >>> 12), base64Char (n >>> 6), equalsSign]
  | first :: second :: third :: rest, emitter =>
      let n := (first.toNat <<< 16) ||| (second.toNat <<< 8) ||| third.toNat
      base64Loop limit rest (emitter.emit limit
        [base64Char (n >>> 18), base64Char (n >>> 12), base64Char (n >>> 6), base64Char n])

def base64ChunkLength : Nat := 16384

/-- The encoder with chunks of any length. -/
def base64EncodeBy (limit : Nat) (bytes : Bytes) : CodeUnits :=
  let emitter := base64Loop limit bytes {}
  if emitter.chunks.length = 0 then emitter.chunk else emitter.chunks.flatten ++ emitter.chunk

def base64Encode (bytes : Bytes) : CodeUnits := base64EncodeBy base64ChunkLength bytes

def base64Code (unit : UInt16) : Option Nat := base64Chars.idxOf? unit

/-- A typed array that is filled from its start. A write behind the end has no effect. -/
structure Filling where
  bytes : Bytes
  next : Nat := 0
  inside : Bool := true

def Filling.new (length : Nat) : Filling where
  bytes := List.replicate length 0

/-- The flag remembers whether every write was inside the array. -/
def Filling.push (filling : Filling) (value : Nat) : Filling where
  bytes := filling.bytes.set filling.next (UInt8.ofNat value)
  next := filling.next + 1
  inside := filling.inside && decide (filling.next < filling.bytes.length)

/-- The padding sign has a code of its own in the last two places of a group. -/
def paddedCode (unit : UInt16) : Option Nat :=
  if unit = equalsSign then some 64 else base64Code unit

def base64Groups : CodeUnits → Filling → Option Filling
  | [], out => some out
  | first :: second :: third :: fourth :: rest, out => do
      let c0 ← base64Code first
      let c1 ← base64Code second
      let c2 ← paddedCode third
      let c3 ← paddedCode fourth
      let n := (c0 <<< 18) ||| (c1 <<< 12) ||| ((c2 &&& 63) <<< 6) ||| (c3 &&& 63)
      let out := out.push ((n >>> 16) &&& 255)
      let out := if c2 ≠ 64 then out.push ((n >>> 8) &&& 255) else out
      let out := if c3 ≠ 64 then out.push (n &&& 255) else out
      base64Groups rest out
  | _, _ => none

def paddingOf (input : CodeUnits) : Nat :=
  (if input.getLast? = some equalsSign then 1 else 0) +
    (if input.dropLast.getLast? = some equalsSign then 1 else 0)

/-- A missing result is a `TypeError`. -/
def base64Fill (input : CodeUnits) : Option Filling :=
  if input.length = 0 then some (Filling.new 0)
  else if input.length % 4 ≠ 0 then none
  else base64Groups input (Filling.new (input.length / 4 * 3 - paddingOf input))

def base64Decode (input : CodeUnits) : Option Bytes := (base64Fill input).map Filling.bytes

/-- A field holds an object, a function that calls the host, or a value of the runtime. -/
inductive Value (γ : Type) where
  | object (id : Nat)
  | host (path : CodeUnits)
  | existing (value : γ)

/-- The object zero is `globalThis`. A missing field is `undefined`. -/
structure Heap (γ : Type) where
  fields : Nat → CodeUnits → Option (Value γ)
  next : Nat := 1

section Objects
variable {γ : Type}

/-- The field names of the runtime are all on the global object. -/
def Heap.new (globals : CodeUnits → Option γ) : Heap γ where
  fields id name := if id = 0 then (globals name).map .existing else none

def Heap.set (heap : Heap γ) (id : Nat) (name : CodeUnits) (value : Value γ) : Heap γ :=
  { heap with
    fields := Function.update heap.fields id (Function.update (heap.fields id) name (some value)) }

/-- The heap with the namespaces that the installation has made. -/
structure Installation (γ : Type) where
  heap : Heap γ
  created : List Nat := []

/-- A new object has no prototype, so it has no fields. -/
def Installation.create (state : Installation γ) (id : Nat) (name : CodeUnits) :
    Installation γ where
  heap := { state.heap.set id name (.object state.heap.next) with next := state.heap.next + 1 }
  created := state.heap.next :: state.created

inductive GlobalError where
  | space (path : CodeUnits) (taken : List CodeUnits)
  | leaf (path : CodeUnits)

def dot : UInt16 := 46

def pathParts (path : CodeUnits) : List CodeUnits := path.splitOn dot

def GlobalError.message : GlobalError → CodeUnits
  | .space path taken =>
      units "tinysandbox: global '" ++ path ++ units "' collides with existing global '" ++
        [dot].intercalate taken ++ units "'"
  | .leaf path =>
      units "tinysandbox: global '" ++ path ++ units "' collides with an existing global"

/-- The loop knows the parts that it has gone through and the node that they lead to. -/
def enterSpaces (path : CodeUnits) (taken : List CodeUnits) (node : Nat) :
    List CodeUnits → Installation γ → Except GlobalError (Nat × Installation γ)
  | [], state => .ok (node, state)
  | part :: parts, state =>
      match state.heap.fields node part with
      | none =>
          enterSpaces path (taken ++ [part]) state.heap.next parts (state.create node part)
      | some (.object child) =>
          if state.created.contains child then enterSpaces path (taken ++ [part]) child parts state
          else .error (.space path (taken ++ [part]))
      | some _ => .error (.space path (taken ++ [part]))

def installGlobal (state : Installation γ) (path : CodeUnits) :
    Except GlobalError (Installation γ) := do
  let parts := pathParts path
  let (node, state) ← enterSpaces path [] 0 parts.dropLast state
  let leaf := parts.getLastD []
  match state.heap.fields node leaf with
  | some _ => throw (.leaf path)
  | none => return { state with heap := state.heap.set node leaf (.host path) }

def installGlobals (paths : List CodeUnits) (heap : Heap γ) :
    Except GlobalError (Installation γ) :=
  paths.foldlM installGlobal { heap }

/-- The value at the end of a path of fields. -/
def Heap.resolve (heap : Heap γ) (id : Nat) : List CodeUnits → Option (Value γ)
  | [] => some (.object id)
  | name :: names =>
      match heap.fields id name with
      | some (.object child) => heap.resolve child names
      | found => if names.isEmpty then found else none

end Objects

end TinySandbox.Js.Guest
