/-
This file gives base64 with padding: the bits of the bytes in groups of six, and a sign for every
character that the last four lack.
-/

import Mathlib.Tactic

namespace TinySandbox.Library.Base64

/-- The first bit of a byte is its highest bit. -/
def byteBits (byte : UInt8) : List Bool :=
  [7, 6, 5, 4, 3, 2, 1, 0].map byte.toNat.testBit

def bitsValue (bits : List Bool) : Nat := bits.foldl (fun value bit => 2 * value + bit.toNat) 0

/-- The last group is filled up with zeros. -/
def sextets : List Bool → List Nat
  | [] => []
  | first :: rest => bitsValue ((first :: rest).takeD 6 false) :: sextets (rest.drop 5)
termination_by bits => bits.length
decreasing_by
  rw [List.length_drop, List.length_cons]
  omega

def alphabet (sextet : Nat) : Char :=
  if sextet < 26 then Char.ofNat (65 + sextet)
  else if sextet < 52 then Char.ofNat (97 + (sextet - 26))
  else if sextet < 62 then Char.ofNat (48 + (sextet - 52))
  else if sextet = 62 then '+' else '/'

def padding : Char := '='

def encode (bytes : List UInt8) : List Char :=
  let symbols := (sextets (bytes.flatMap byteBits)).map alphabet
  symbols ++ List.replicate ((4 - symbols.length % 4) % 4) padding

section Groups
variable (first second third : UInt8) (rest : List UInt8)

theorem bitsValue_append (high low : List Bool) :
    bitsValue (high ++ low) = bitsValue high * 2 ^ low.length + bitsValue low := by
  induction low using List.reverseRecOn with
  | nil =>
      rw [List.append_nil, List.length_nil, pow_zero, Nat.mul_one]
      rfl
  | append_singleton low bit ih =>
      have snoc (bits : List Bool) : bitsValue (bits ++ [bit]) = 2 * bitsValue bits +
          bit.toNat := by
        rw [bitsValue, List.foldl_append]
        rfl
      rw [← List.append_assoc, snoc, snoc, ih, List.length_append, List.length_singleton, pow_succ]
      ring

/-- The first bits of a byte are its quotient and its last bits are its remainder. -/
theorem bitsValue_byte :
    bitsValue ((byteBits first).take 2) = first.toNat / 64 ∧
      bitsValue ((byteBits first).drop 2) = first.toNat % 64 ∧
      bitsValue ((byteBits first).take 4) = first.toNat / 16 ∧
      bitsValue ((byteBits first).drop 4) = first.toNat % 16 ∧
      bitsValue ((byteBits first).take 6) = first.toNat / 4 ∧
      bitsValue ((byteBits first).drop 6) = first.toNat % 4 := by
  have all : ∀ value < 256, let bits := [7, 6, 5, 4, 3, 2, 1, 0].map value.testBit
      bitsValue (bits.take 2) = value / 64 ∧ bitsValue (bits.drop 2) = value % 64 ∧
      bitsValue (bits.take 4) = value / 16 ∧ bitsValue (bits.drop 4) = value % 16 ∧
      bitsValue (bits.take 6) = value / 4 ∧ bitsValue (bits.drop 6) = value % 4 := by
    decide +kernel
  exact all first.toNat first.toNat_lt

theorem sextets_nil : sextets [] = [] := by
  rw [sextets]

theorem sextets_three (bits : List Bool) :
    sextets (byteBits first ++ (byteBits second ++ (byteBits third ++ bits))) =
      [first.toNat / 4, first.toNat % 4 * 16 + second.toNat / 16,
        second.toNat % 16 * 4 + third.toNat / 64, third.toNat % 64] ++ sextets bits := by
  obtain ⟨-, -, -, -, firstHigh, firstLow⟩ := bitsValue_byte first
  obtain ⟨-, -, secondHigh, secondLow, -, -⟩ := bitsValue_byte second
  obtain ⟨thirdHigh, thirdLow, -, -, -, -⟩ := bitsValue_byte third
  have two := bitsValue_append ((byteBits first).drop 6) ((byteBits second).take 4)
  have three := bitsValue_append ((byteBits second).drop 4) ((byteBits third).take 2)
  rw [firstLow, secondHigh] at two
  rw [secondLow, thirdHigh] at three
  change sextets (_ :: _) = _
  rw [sextets]
  change bitsValue ((byteBits first).take 6) :: sextets (_ :: _) = _
  rw [sextets, firstHigh]
  change _ :: bitsValue ((byteBits first).drop 6 ++ (byteBits second).take 4) ::
    sextets (_ :: _) = _
  rw [sextets, two]
  change _ :: _ :: bitsValue ((byteBits second).drop 4 ++ (byteBits third).take 2) ::
    sextets (_ :: _) = _
  rw [sextets, three]
  change _ :: _ :: _ :: bitsValue ((byteBits third).drop 2) :: sextets bits = _
  rw [thirdLow]
  rfl

theorem sextets_two :
    sextets (byteBits first ++ byteBits second) =
      [first.toNat / 4, first.toNat % 4 * 16 + second.toNat / 16, second.toNat % 16 * 4] := by
  obtain ⟨-, -, -, -, firstHigh, firstLow⟩ := bitsValue_byte first
  obtain ⟨-, -, secondHigh, secondLow, -, -⟩ := bitsValue_byte second
  have two := bitsValue_append ((byteBits first).drop 6) ((byteBits second).take 4)
  have three := bitsValue_append ((byteBits second).drop 4) [false, false]
  rw [firstLow, secondHigh] at two
  rw [secondLow] at three
  change sextets (_ :: _) = _
  rw [sextets]
  change bitsValue ((byteBits first).take 6) :: sextets (_ :: _) = _
  rw [sextets, firstHigh]
  change _ :: bitsValue ((byteBits first).drop 6 ++ (byteBits second).take 4) ::
    sextets (_ :: _) = _
  rw [sextets, two]
  change _ :: _ :: bitsValue ((byteBits second).drop 4 ++ [false, false]) :: sextets [] = _
  rw [sextets_nil, three]
  rfl

theorem sextets_one :
    sextets (byteBits first) = [first.toNat / 4, first.toNat % 4 * 16] := by
  obtain ⟨-, -, -, -, firstHigh, firstLow⟩ := bitsValue_byte first
  have two := bitsValue_append ((byteBits first).drop 6) [false, false, false, false]
  rw [firstLow] at two
  change sextets (_ :: _) = _
  rw [sextets]
  change bitsValue ((byteBits first).take 6) :: sextets (_ :: _) = _
  rw [sextets, firstHigh]
  change _ :: bitsValue ((byteBits first).drop 6 ++ [false, false, false, false]) :: sextets [] = _
  rw [sextets_nil, two]
  rfl

theorem encode_nil : encode [] = [] := by
  unfold encode
  rw [List.flatMap_nil, sextets_nil]
  rfl

theorem encode_one :
    encode [first] =
      [alphabet (first.toNat / 4), alphabet (first.toNat % 4 * 16), padding, padding] := by
  unfold encode
  rw [List.flatMap_cons, List.flatMap_nil, List.append_nil, sextets_one]
  rfl

theorem encode_two :
    encode [first, second] =
      [alphabet (first.toNat / 4), alphabet (first.toNat % 4 * 16 + second.toNat / 16),
        alphabet (second.toNat % 16 * 4), padding] := by
  unfold encode
  rw [List.flatMap_cons, List.flatMap_cons, List.flatMap_nil, List.append_nil, sextets_two]
  rfl

/-- Three bytes have four characters of their own. -/
theorem encode_three :
    encode (first :: second :: third :: rest) =
      [alphabet (first.toNat / 4), alphabet (first.toNat % 4 * 16 + second.toNat / 16),
        alphabet (second.toNat % 16 * 4 + third.toNat / 64), alphabet (third.toNat % 64)] ++
        encode rest := by
  unfold encode
  rw [List.flatMap_cons, List.flatMap_cons, List.flatMap_cons, sextets_three]
  simp only [List.map_append, List.map_cons, List.map_nil, List.length_append, List.length_cons,
    List.length_nil, List.length_map, List.append_assoc]
  rw [show 0 + 1 + 1 + 1 + 1 = 4 from rfl, Nat.add_mod_left]

/-- Bytes are empty, are the rest of a group, or start with a group. -/
@[elab_as_elim]
theorem groups_induction {motive : List UInt8 → Prop} (nil : motive [])
    (one : ∀ first, motive [first]) (two : ∀ first second, motive [first, second])
    (three : ∀ first second third rest, motive rest → motive (first :: second :: third :: rest)) :
    ∀ bytes, motive bytes
  | [] => nil
  | [first] => one first
  | [first, second] => two first second
  | first :: second :: third :: rest =>
      three first second third rest (groups_induction nil one two three rest)

end Groups

end TinySandbox.Library.Base64
