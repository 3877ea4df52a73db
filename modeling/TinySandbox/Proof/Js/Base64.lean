/-
This file shows that the codecs of the guest and of the host are base64.
-/

import TinySandbox.Construction.Portable.Encoding
import TinySandbox.Library.Base64
import TinySandbox.Proof.Js.Utf8

namespace TinySandbox.Js.Guest
open Library Library.Base64

section Digits

def digitUnit (sextet : Nat) : UInt16 := UInt16.ofNat (alphabet sextet).toNat

theorem alphabet_ascii : ∀ sextet < 64, (alphabet sextet).toNat < 128 := by
  decide

theorem digitUnit_ne_equals : ∀ sextet < 64, digitUnit sextet ≠ equalsSign := by
  decide

theorem base64Chars_getD : ∀ sextet < 64, base64Chars.getD sextet 0 = digitUnit sextet := by
  decide

theorem base64Code_digitUnit : ∀ sextet < 64, base64Code (digitUnit sextet) = some sextet := by
  decide +kernel

theorem base64Char_eq (bits : Nat) : base64Char bits = digitUnit (bits % 64) := by
  unfold base64Char
  rw [show bits &&& 63 = bits % 64 from and_low 6 bits]
  exact base64Chars_getD _ (Nat.mod_lt _ (by decide))

theorem charUnits_alphabet {sextet : Nat} (small : sextet < 64) :
    charUnits (alphabet sextet) = [digitUnit sextet] := by
  have ascii := alphabet_ascii sextet small
  exact if_pos (by omega)

theorem paddedCode_digitUnit {sextet : Nat} (small : sextet < 64) :
    paddedCode (digitUnit sextet) = some sextet := by
  unfold paddedCode
  rw [if_neg (digitUnit_ne_equals sextet small), base64Code_digitUnit sextet small]

/-- Three bytes are one number. -/
theorem byteBits_eq {second third : Nat} (first : Nat) (two : second < 256) (three : third < 256) :
    (first <<< 16) ||| (second <<< 8) ||| third = first * 65536 + second * 256 + third := by
  rw [Nat.shiftLeft_eq, Nat.shiftLeft_eq]
  have inner : first * 2 ^ 16 ||| second * 2 ^ 8 = 2 ^ 8 * (first * 256 + second) := by
    rw [Nat.mul_comm, or_eq_add 16 _ (by omega)]
    omega
  rw [inner, or_eq_add 8 _ three]
  omega

/-- Four digits are one number. -/
theorem digitBits_eq {second third fourth : Nat} (first : Nat) (two : second < 64)
    (three : third < 64) (four : fourth < 64) :
    (first <<< 18) ||| (second <<< 12) ||| (third <<< 6) ||| fourth =
      first * 262144 + second * 4096 + third * 64 + fourth := by
  rw [Nat.shiftLeft_eq, Nat.shiftLeft_eq, Nat.shiftLeft_eq]
  have inner : first * 2 ^ 18 ||| second * 2 ^ 12 = 2 ^ 12 * (first * 64 + second) := by
    rw [Nat.mul_comm, or_eq_add 18 _ (by omega)]
    omega
  have middle : 2 ^ 12 * (first * 64 + second) ||| third * 2 ^ 6 =
      2 ^ 6 * (first * 4096 + second * 64 + third) := by
    rw [or_eq_add 12 _ (by omega)]
    omega
  rw [inner, middle, or_eq_add 6 _ four]
  omega

end Digits

section Units
variable (first second third : UInt8) (rest : Bytes)

theorem textUnits_alphabet {sextet : Nat} (small : sextet < 64) (text : Text) :
    textUnits (alphabet sextet :: text) = digitUnit sextet :: textUnits text := by
  change charUnits _ ++ textUnits text = _
  rw [charUnits_alphabet small]
  rfl

theorem units_one :
    textUnits (encode [first]) =
      [digitUnit (first.toNat / 4), digitUnit (first.toNat % 4 * 16), equalsSign, equalsSign] := by
  have bound := first.toNat_lt
  rw [encode_one, textUnits_alphabet (by omega), textUnits_alphabet (by omega)]
  rfl

theorem units_two :
    textUnits (encode [first, second]) =
      [digitUnit (first.toNat / 4), digitUnit (first.toNat % 4 * 16 + second.toNat / 16),
        digitUnit (second.toNat % 16 * 4), equalsSign] := by
  have one := first.toNat_lt
  have two := second.toNat_lt
  rw [encode_two, textUnits_alphabet (by omega), textUnits_alphabet (by omega),
    textUnits_alphabet (by omega)]
  rfl

theorem units_three :
    textUnits (encode (first :: second :: third :: rest)) =
      digitUnit (first.toNat / 4) :: digitUnit (first.toNat % 4 * 16 + second.toNat / 16) ::
        digitUnit (second.toNat % 16 * 4 + third.toNat / 64) :: digitUnit (third.toNat % 64) ::
        textUnits (encode rest) := by
  have one := first.toNat_lt
  have two := second.toNat_lt
  have three := third.toNat_lt
  rw [encode_three, List.cons_append, List.cons_append, List.cons_append, List.cons_append,
    List.nil_append, textUnits_alphabet (by omega), textUnits_alphabet (by omega),
    textUnits_alphabet (by omega), textUnits_alphabet (by omega)]

end Units

section Encoder
variable (limit : Nat)

def Emitter.content (emitter : Emitter) : CodeUnits := emitter.chunks.flatten ++ emitter.chunk

theorem Emitter.content_emit (emitter : Emitter) (value : CodeUnits) :
    (emitter.emit limit value).content = emitter.content ++ value := by
  unfold Emitter.emit
  dsimp only
  split_ifs with full
  · simp only [Emitter.content, List.flatten_append, List.flatten_cons, List.flatten_nil,
      List.append_nil, List.append_assoc]
  · exact (List.append_assoc _ _ _).symm

/-- The emitter gets the digits of all bytes, wherever it puts chunks away. -/
theorem content_base64Loop (bytes : Bytes) (emitter : Emitter) :
    (base64Loop limit bytes emitter).content = emitter.content ++ textUnits (encode bytes) := by
  induction bytes using groups_induction generalizing emitter with
  | nil =>
      rw [encode_nil]
      exact (List.append_nil _).symm
  | one first =>
      have bound := first.toNat_lt
      rw [base64Loop, Emitter.content_emit, units_one]
      simp only [base64Char_eq, Nat.shiftLeft_eq, Nat.shiftRight_eq_div_pow]
      rw [show first.toNat * 2 ^ 16 / 2 ^ 18 % 64 = first.toNat / 4 by omega,
        show first.toNat * 2 ^ 16 / 2 ^ 12 % 64 = first.toNat % 4 * 16 by omega]
  | two first second =>
      have one := first.toNat_lt
      have two := second.toNat_lt
      have bits := byteBits_eq first.toNat two (Nat.zero_lt_succ 255)
      rw [Nat.or_zero] at bits
      rw [base64Loop, Emitter.content_emit, units_two]
      simp only [base64Char_eq, bits, Nat.shiftRight_eq_div_pow]
      generalize first.toNat = high at *
      generalize second.toNat = low at *
      rw [show (high * 65536 + low * 256 + 0) / 2 ^ 18 % 64 = high / 4 by omega,
        show (high * 65536 + low * 256 + 0) / 2 ^ 12 % 64 = high % 4 * 16 + low / 16 by omega,
        show (high * 65536 + low * 256 + 0) / 2 ^ 6 % 64 = low % 16 * 4 by omega]
  | three first second third rest ih =>
      have one := first.toNat_lt
      have two := second.toNat_lt
      have three := third.toNat_lt
      have bits := byteBits_eq first.toNat two three
      rw [base64Loop, ih, Emitter.content_emit, units_three, List.append_assoc]
      simp only [base64Char_eq, bits, Nat.shiftRight_eq_div_pow]
      generalize first.toNat = high at *
      generalize second.toNat = middle at *
      generalize third.toNat = low at *
      rw [show (high * 65536 + middle * 256 + low) / 2 ^ 18 % 64 = high / 4 by omega,
        show (high * 65536 + middle * 256 + low) / 2 ^ 12 % 64 = high % 4 * 16 +
          middle / 16 by omega,
        show (high * 65536 + middle * 256 + low) / 2 ^ 6 % 64 = middle % 16 * 4 + low / 64 by omega,
        show (high * 65536 + middle * 256 + low) % 64 = low % 64 by omega]
      rfl

theorem base64EncodeBy_eq (bytes : Bytes) :
    base64EncodeBy limit bytes = textUnits (encode bytes) := by
  have content := content_base64Loop limit bytes {}
  change _ = textUnits (encode bytes) at content
  unfold base64EncodeBy
  rw [← content]
  dsimp only
  split_ifs with none
  · rw [Emitter.content, List.length_eq_zero_iff.mp none]
    rfl
  · rfl

end Encoder

section Filling

/-- An array whose first bytes are written. -/
def written (done : Bytes) (free : Nat) : Filling where
  bytes := done ++ List.replicate free 0
  next := done.length

theorem new_eq_written (length : Nat) : Filling.new length = written [] length := rfl

theorem push_written (done : Bytes) (free value : Nat) :
    (written done (free + 1)).push value = written (done ++ [UInt8.ofNat value]) free := by
  have inside : done.length < (done ++ List.replicate (free + 1) (0 : UInt8)).length := by
    rw [List.length_append, List.length_replicate]
    omega
  have stored : (done ++ List.replicate (free + 1) (0 : UInt8)).set done.length
      (UInt8.ofNat value) =
      done ++ [UInt8.ofNat value] ++ List.replicate free 0 := by
    rw [List.set_append_right _ _ le_rfl, Nat.sub_self, List.append_assoc]
    rfl
  unfold Filling.push written
  dsimp only
  rw [stored, decide_eq_true inside, List.length_append]
  rfl

variable (first second third : UInt8) (rest : CodeUnits) (done : Bytes) (free : Nat)

/-- The digits of three bytes give the number of the three bytes. -/
theorem digits_of_bytes (one two three : Nat) :
    one / 4 * 262144 + (one % 4 * 16 + two / 16) * 4096 + (two % 16 * 4 + three / 64) * 64 +
      three % 64 = one * 65536 + two * 256 + three := by
  omega

theorem byte_high (first second third : UInt8) :
    UInt8.ofNat (((first.toNat * 65536 + second.toNat * 256 + third.toNat) >>> 16) &&& 255) =
      first := by
  have one := first.toNat_lt
  have two := second.toNat_lt
  have three := third.toNat_lt
  rw [show _ &&& 255 = _ from and_low 8 _, Nat.shiftRight_eq_div_pow, ← UInt8.toNat_inj,
    UInt8.toNat_ofNat']
  omega

theorem byte_middle (first second third : UInt8) :
    UInt8.ofNat (((first.toNat * 65536 + second.toNat * 256 + third.toNat) >>> 8) &&& 255) =
      second := by
  have two := second.toNat_lt
  have three := third.toNat_lt
  rw [show _ &&& 255 = _ from and_low 8 _, Nat.shiftRight_eq_div_pow, ← UInt8.toNat_inj,
    UInt8.toNat_ofNat']
  omega

theorem byte_low (first second third : UInt8) :
    UInt8.ofNat ((first.toNat * 65536 + second.toNat * 256 + third.toNat) &&& 255) = third := by
  have three := third.toNat_lt
  rw [show _ &&& 255 = _ from and_low 8 _, ← UInt8.toNat_inj, UInt8.toNat_ofNat']
  omega

theorem and_digit {sextet : Nat} (small : sextet < 64) : sextet &&& 63 = sextet :=
  (and_low 6 sextet).trans (Nat.mod_eq_of_lt small)

theorem base64Groups_codes {c0 c1 c2 c3 : Nat} {first second third fourth : UInt16} {out : Filling}
    (zero : base64Code first = some c0) (one : base64Code second = some c1)
    (two : paddedCode third = some c2) (three : paddedCode fourth = some c3) :
    base64Groups (first :: second :: third :: fourth :: rest) out =
      let n := (c0 <<< 18) ||| (c1 <<< 12) ||| ((c2 &&& 63) <<< 6) ||| (c3 &&& 63)
      let out := out.push ((n >>> 16) &&& 255)
      let out := if c2 ≠ 64 then out.push ((n >>> 8) &&& 255) else out
      let out := if c3 ≠ 64 then out.push (n &&& 255) else out
      base64Groups rest out := by
  rw [base64Groups, zero, one, two, three]
  rfl

/-- The guest reads three bytes from four digits. -/
theorem base64Groups_three :
    base64Groups
      (digitUnit (first.toNat / 4) :: digitUnit (first.toNat % 4 * 16 + second.toNat / 16) ::
        digitUnit (second.toNat % 16 * 4 + third.toNat / 64) :: digitUnit (third.toNat % 64) ::
          rest)
      (written done (free + 3)) =
    base64Groups rest (written (done ++ [first, second, third]) free) := by
  have one := first.toNat_lt
  have two := second.toNat_lt
  have three := third.toNat_lt
  rw [base64Groups_codes rest (base64Code_digitUnit _ (by omega))
    (base64Code_digitUnit _ (by omega))
    (paddedCode_digitUnit (by omega)) (paddedCode_digitUnit (by omega))]
  have middle : second.toNat % 16 * 4 + third.toNat / 64 < 64 := by omega
  have low : third.toNat % 64 < 64 := by omega
  dsimp only
  rw [if_pos (by omega), if_pos (by omega), and_digit middle, and_digit low, digitBits_eq _
    (by omega) (by omega) (by omega), digits_of_bytes, push_written, push_written,
    push_written, byte_high, byte_middle, byte_low, List.append_assoc, List.append_assoc]
  rfl

theorem base64Groups_two :
    base64Groups
      [digitUnit (first.toNat / 4), digitUnit (first.toNat % 4 * 16 + second.toNat / 16),
        digitUnit (second.toNat % 16 * 4), equalsSign] (written done 2) =
    some (written (done ++ [first, second]) 0) := by
  have one := first.toNat_lt
  have two := second.toNat_lt
  have bits := digits_of_bytes first.toNat second.toNat (0 : UInt8).toNat
  change _ + second.toNat % 16 * 4 * 64 + 0 = _ at bits
  rw [base64Groups_codes [] (base64Code_digitUnit _ (by omega)) (base64Code_digitUnit _ (by omega))
    (paddedCode_digitUnit (by omega)) rfl]
  have middle : second.toNat % 16 * 4 < 64 := by omega
  have padded : second.toNat % 16 * 4 ≠ 64 := by omega
  dsimp only
  rw [if_pos padded, if_neg (not_not.mpr rfl), and_digit middle, show 64 &&& 63 = 0 from rfl,
    digitBits_eq _ (by omega) (by omega) (by omega), bits, push_written, push_written, byte_high,
    byte_middle, List.append_assoc]
  rfl

theorem base64Groups_one :
    base64Groups
      [digitUnit (first.toNat / 4), digitUnit (first.toNat % 4 * 16), equalsSign, equalsSign]
      (written done 1) =
    some (written (done ++ [first]) 0) := by
  have one := first.toNat_lt
  have bits := digits_of_bytes first.toNat (0 : UInt8).toNat (0 : UInt8).toNat
  change _ + first.toNat % 4 * 16 * 4096 + 0 * 64 + 0 = _ at bits
  rw [base64Groups_codes [] (base64Code_digitUnit _ (by omega)) (base64Code_digitUnit _ (by omega))
    rfl rfl]
  dsimp only
  rw [if_neg (not_not.mpr rfl), if_neg (not_not.mpr rfl), show 64 &&& 63 = 0 from rfl,
    digitBits_eq _ (by omega) (by omega) (by omega), bits, push_written, byte_high]
  rfl

theorem base64Groups_encode (bytes done : Bytes) :
    base64Groups (textUnits (encode bytes)) (written done bytes.length) =
      some (written (done ++ bytes) 0) := by
  induction bytes using groups_induction generalizing done with
  | nil =>
      rw [encode_nil, List.append_nil]
      rfl
  | one first =>
      rw [units_one]
      exact base64Groups_one first done
  | two first second =>
      rw [units_two]
      exact base64Groups_two first second done
  | three first second third rest ih =>
      rw [units_three, List.length_cons, List.length_cons, List.length_cons, base64Groups_three, ih,
        List.append_assoc]
      rfl

end Filling

section Padding

/-- Letters in whole groups, where padding can take the last one or two places. -/
structure Padded (input : CodeUnits) (missing : Nat) : Prop where
  whole : input.length % 4 = 0
  few : missing ≤ 2
  letters : ∃ body, input = body ++ List.replicate missing equalsSign ∧
    ∀ unit ∈ body, ∃ sextet < 64, unit = digitUnit sextet

theorem Padded.digits {a b c d : Nat} {rest : CodeUnits} {missing : Nat} (first : a < 64)
    (second : b < 64) (third : c < 64) (fourth : d < 64) (padded : Padded rest missing) :
    Padded (digitUnit a :: digitUnit b :: digitUnit c :: digitUnit d :: rest) missing where
  whole := by
    have whole := padded.whole
    simp only [List.length_cons]
    omega
  few := padded.few
  letters := by
    obtain ⟨body, rfl, letters⟩ := padded.letters
    refine ⟨digitUnit a :: digitUnit b :: digitUnit c :: digitUnit d :: body, rfl, ?_⟩
    simp only [List.mem_cons]
    rintro unit (rfl | rfl | rfl | rfl | inside)
    · exact ⟨a, first, rfl⟩
    · exact ⟨b, second, rfl⟩
    · exact ⟨c, third, rfl⟩
    · exact ⟨d, fourth, rfl⟩
    · exact letters _ inside

/-- The encoding lacks the characters that the last group has no bytes for. -/
theorem padded_encode (bytes : Bytes) :
    ∃ missing, Padded (textUnits (encode bytes)) missing ∧
      (textUnits (encode bytes)).length / 4 * 3 = bytes.length + missing := by
  induction bytes using groups_induction with
  | nil =>
      rw [encode_nil]
      exact ⟨0, ⟨rfl, by decide, [], rfl, by simp⟩, rfl⟩
  | one first =>
      have one := first.toNat_lt
      rw [units_one]
      refine ⟨2, ⟨by simp, le_rfl, [_, _], rfl, ?_⟩, by simp⟩
      simp only [List.mem_cons, List.not_mem_nil, or_false]
      rintro unit (rfl | rfl)
      · exact ⟨_, by omega, rfl⟩
      · exact ⟨_, by omega, rfl⟩
  | two first second =>
      have one := first.toNat_lt
      have two := second.toNat_lt
      rw [units_two]
      refine ⟨1, ⟨by simp, by decide, [_, _, _], rfl, ?_⟩, by simp⟩
      simp only [List.mem_cons, List.not_mem_nil, or_false]
      rintro unit (rfl | rfl | rfl)
      · exact ⟨_, by omega, rfl⟩
      · exact ⟨_, by omega, rfl⟩
      · exact ⟨_, by omega, rfl⟩
  | three first second third rest ih =>
      have one := first.toNat_lt
      have two := second.toNat_lt
      have three := third.toNat_lt
      obtain ⟨missing, padded, size⟩ := ih
      rw [units_three]
      refine ⟨missing, padded.digits (by omega) (by omega) (by omega) (by omega), ?_⟩
      simp only [List.length_cons]
      omega

variable {input : CodeUnits} {missing : Nat}

theorem equals_not_mem {body : CodeUnits}
    (letters : ∀ unit ∈ body, ∃ sextet < 64, unit = digitUnit sextet) : equalsSign ∉ body := by
  intro inside
  obtain ⟨sextet, small, same⟩ := letters _ inside
  exact digitUnit_ne_equals sextet small same.symm

theorem getLast?_ne {body : CodeUnits}
    (letters : ∀ unit ∈ body, ∃ sextet < 64, unit = digitUnit sextet) :
    body.getLast? ≠ some equalsSign := fun last =>
  equals_not_mem letters (List.mem_of_getLast? last)

theorem Padded.paddingOf_eq (padded : Padded input missing) : paddingOf input = missing := by
  obtain ⟨whole, few, body, rfl, letters⟩ := padded
  have last := getLast?_ne letters
  unfold paddingOf
  rcases missing with - | - | - | missing
  · have before : body.dropLast.getLast? ≠ some equalsSign := fun last =>
      equals_not_mem letters (List.dropLast_subset body (List.mem_of_getLast? last))
    rw [List.replicate_zero, List.append_nil, if_neg last, if_neg before]
  · rw [List.replicate_one, List.getLast?_concat, List.dropLast_concat, if_pos rfl, if_neg last]
  · have split : body ++ List.replicate 2 equalsSign = body ++ [equalsSign] ++ [equalsSign] :=
      List.append_cons _ _ _
    rw [split, List.getLast?_concat, List.dropLast_concat, List.getLast?_concat, if_pos rfl]
  · omega

/-- The guest reads back the bytes that it encodes. -/
theorem base64Decode_encode (bytes : Bytes) :
    base64Decode (textUnits (encode bytes)) = some bytes := by
  obtain ⟨missing, padded, size⟩ := padded_encode bytes
  unfold base64Decode base64Fill
  by_cases empty : (textUnits (encode bytes)).length = 0
  · rw [if_pos empty]
    rw [empty] at size
    have none := List.length_eq_zero_iff.mp (Nat.eq_zero_of_add_eq_zero_right size.symm)
    rw [none]
    rfl
  · rw [if_neg empty, if_neg (by rw [padded.whole]; decide), padded.paddingOf_eq, size,
      Nat.add_sub_cancel, new_eq_written, base64Groups_encode]
    exact congrArg some (List.append_nil bytes)

end Padding

end TinySandbox.Js.Guest

namespace TinySandbox.Portable.Filled
open Library Library.Base64 Sandbox Js.Guest

section Encoder

theorem charCode_eq (bits : Nat) : charCode bits = (alphabet (bits % 64)).toNat := by
  have all : ∀ sextet < 64, (Portable.base64Chars.getD sextet '=').toNat =
      (alphabet sextet).toNat := by
    decide +kernel
  unfold charCode
  rw [show bits &&& 63 = bits % 64 from and_low 6 bits]
  exact all _ (Nat.mod_lt _ (by decide))

theorem textBytes_alphabet {sextet : Nat} (small : sextet < 64) (text : Text) :
    textBytes (alphabet sextet :: text) =
      UInt8.ofNat (alphabet sextet).toNat :: textBytes text := by
  have ascii := alphabet_ascii sextet small
  rw [textBytes_cons, ← encodeCode_toNat, encodeCode_eq (by omega), if_pos (by omega)]
  rfl

theorem textBytes_padding (text : Text) : textBytes (padding :: text) = 61 :: textBytes text := rfl

/-- Four bytes are written for every group. -/
theorem encodeLoop_cons (byte : UInt8) (rest done : Bytes) (free : Nat) :
    encodeLoop (byte :: rest) (written done (free + 4)) =
      let bits := byte.toNat * 65536 + (rest.getD 0 0).toNat * 256 + (rest.getD 1 0).toNat
      encodeLoop (rest.drop 2) (written (done ++
        [UInt8.ofNat (alphabet (bits / 262144 % 64)).toNat,
          UInt8.ofNat (alphabet (bits / 4096 % 64)).toNat,
          UInt8.ofNat (if 0 < rest.length then (alphabet (bits / 64 % 64)).toNat else 61),
          UInt8.ofNat (if 1 < rest.length then (alphabet (bits % 64)).toNat else 61)]) free) := by
  have two := (rest.getD 0 0).toNat_lt
  have three := (rest.getD 1 0).toNat_lt
  rw [encodeLoop, byteBits_eq _ two three]
  simp only [charCode_eq, Nat.shiftRight_eq_div_pow, push_written, List.append_assoc]
  rfl

theorem encodeLoop_encode (data done : Bytes) :
    encodeLoop data (written done ((data.length + 2) / 3 * 4)) =
      written (done ++ textBytes (encode data)) 0 := by
  induction data using groups_induction generalizing done with
  | nil =>
      rw [encodeLoop, encode_nil]
      exact congrArg (written · 0) (List.append_nil done).symm
  | one first =>
      have bound := first.toNat_lt
      rw [encode_one, textBytes_alphabet (by omega), textBytes_alphabet (by omega),
        textBytes_padding, textBytes_padding, show ([first].length + 2) / 3 * 4 = 0 + 4 by simp,
        encodeLoop_cons]
      dsimp only
      change encodeLoop [] (written (done ++ [UInt8.ofNat (alphabet
        ((first.toNat * 65536 + 0 * 256 + 0) / 262144 % 64)).toNat, UInt8.ofNat (alphabet
        ((first.toNat * 65536 + 0 * 256 + 0) / 4096 % 64)).toNat, 61, 61]) 0) = _
      rw [encodeLoop, show (first.toNat * 65536 + 0 * 256 + 0) / 262144 % 64 =
        first.toNat / 4 by omega,
        show (first.toNat * 65536 + 0 * 256 + 0) / 4096 % 64 = first.toNat % 4 * 16 by omega]
      rfl
  | two first second =>
      have one := first.toNat_lt
      have two := second.toNat_lt
      rw [encode_two, textBytes_alphabet (by omega), textBytes_alphabet (by omega),
        textBytes_alphabet (by omega), textBytes_padding,
        show ([first, second].length + 2) / 3 * 4 = 0 + 4 by simp, encodeLoop_cons]
      dsimp only
      change encodeLoop [] (written (done ++ [UInt8.ofNat (alphabet
        ((first.toNat * 65536 + second.toNat * 256 + 0) / 262144 % 64)).toNat, UInt8.ofNat (alphabet
        ((first.toNat * 65536 + second.toNat * 256 + 0) / 4096 % 64)).toNat, UInt8.ofNat (alphabet
        ((first.toNat * 65536 + second.toNat * 256 + 0) / 64 % 64)).toNat, 61]) 0) = _
      generalize first.toNat = high at *
      generalize second.toNat = low at *
      rw [encodeLoop, show (high * 65536 + low * 256 + 0) / 262144 % 64 = high / 4 by omega,
        show (high * 65536 + low * 256 + 0) / 4096 % 64 = high % 4 * 16 + low / 16 by omega,
        show (high * 65536 + low * 256 + 0) / 64 % 64 = low % 16 * 4 by omega]
      rfl
  | three first second third rest ih =>
      have one := first.toNat_lt
      have two := second.toNat_lt
      have three := third.toNat_lt
      have size : ((first :: second :: third :: rest).length + 2) / 3 * 4 =
          (rest.length + 2) / 3 * 4 + 4 := by
        simp only [List.length_cons]
        omega
      rw [encode_three, size, encodeLoop_cons]
      dsimp only
      have some : 0 < (second :: third :: rest).length := Nat.succ_pos _
      have more : 1 < (second :: third :: rest).length := Nat.succ_lt_succ (Nat.succ_pos _)
      rw [if_pos some, if_pos more]
      change encodeLoop rest (written (done ++ [UInt8.ofNat (alphabet
        ((first.toNat * 65536 + second.toNat * 256 + third.toNat) / 262144 % 64)).toNat,
        UInt8.ofNat (alphabet
        ((first.toNat * 65536 + second.toNat * 256 + third.toNat) / 4096 % 64)).toNat,
        UInt8.ofNat (alphabet
        ((first.toNat * 65536 + second.toNat * 256 + third.toNat) / 64 % 64)).toNat,
        UInt8.ofNat (alphabet
        ((first.toNat * 65536 + second.toNat * 256 + third.toNat) % 64)).toNat]) _) = _
      rw [ih, List.cons_append, List.cons_append, List.cons_append, List.cons_append,
        List.nil_append, textBytes_alphabet (by omega), textBytes_alphabet (by omega),
        textBytes_alphabet (by omega), textBytes_alphabet (by omega), List.append_assoc]
      generalize first.toNat = high at *
      generalize second.toNat = middle at *
      generalize third.toNat = low at *
      rw [show (high * 65536 + middle * 256 + low) / 262144 % 64 = high / 4 by omega,
        show (high * 65536 + middle * 256 + low) / 4096 % 64 = high % 4 * 16 + middle / 16 by omega,
        show (high * 65536 + middle * 256 + low) / 64 % 64 = middle % 16 * 4 + low / 64 by omega,
        show (high * 65536 + middle * 256 + low) % 64 = low % 64 by omega]
      rfl

/-- The host fills exactly its array. -/
theorem encodeFill_eq (data : Bytes) : encodeFill data = written (textBytes (encode data)) 0 :=
  encodeLoop_encode data []

theorem encodeBase64_eq (data : Bytes) : encodeBase64 data = textUnits (encode data) := by
  unfold encodeBase64
  rw [encodeFill_eq]
  change textUnits (fromUtf8Lossy (textBytes (encode data) ++ [])) = _
  rw [List.append_nil, fromUtf8Lossy_textBytes]

end Encoder

section Pattern

theorem isBase64_iff (unit : UInt16) :
    isBase64 unit = true ↔ ∃ sextet < 64, unit = digitUnit sextet := by
  have letters : ∀ sextet < 64, isBase64 (digitUnit sextet) = true := by
    decide +kernel
  have covered : ∀ code < 128, isBase64 (UInt16.ofNat code) = true →
      ∃ sextet < 64, UInt16.ofNat code = digitUnit sextet := by
    decide +kernel
  constructor
  · intro letter
    have small : unit.toNat < 128 := by
      simp only [isBase64, decide_eq_true_eq] at letter
      omega
    have same := UInt16.ofNat_toNat (x := unit)
    rw [← same] at letter ⊢
    exact covered _ small letter
  · rintro ⟨sextet, small, rfl⟩
    exact letters sextet small

theorem matches_letters {body : CodeUnits} {missing : Nat}
    (letters : ∀ unit ∈ body, ∃ sextet < 64, unit = digitUnit sextet) (few : missing ≤ 2)
    (whole : (body.length + missing) % 4 = 0) :
    matchesBase64 (body ++ List.replicate missing equalsSign) = true := by
  induction size : body.length using Nat.strong_induction_on generalizing body with
  | _ bound ih =>
      rcases body with - | ⟨a, - | ⟨b, - | ⟨c, - | ⟨d, body⟩⟩⟩⟩
      · have none : missing = 0 := by
          rw [List.length_nil] at whole
          omega
        subst none
        rfl
      · simp only [List.length_cons, List.length_nil] at whole
        omega
      · have two : missing = 2 := by
          simp only [List.length_cons, List.length_nil] at whole
          omega
        subst two
        have first := (isBase64_iff a).mpr (letters a (by simp))
        have second := (isBase64_iff b).mpr (letters b (by simp))
        change matchesBase64 [a, b, equalsSign, equalsSign] = true
        simp [matchesBase64, first, second]
      · have one : missing = 1 := by
          simp only [List.length_cons, List.length_nil] at whole
          omega
        subst one
        have first := (isBase64_iff a).mpr (letters a (by simp))
        have second := (isBase64_iff b).mpr (letters b (by simp))
        have third := (isBase64_iff c).mpr (letters c (by simp))
        change matchesBase64 [a, b, c, equalsSign] = true
        simp [matchesBase64, first, second, third]
      · have first := (isBase64_iff a).mpr (letters a (by simp))
        have second := (isBase64_iff b).mpr (letters b (by simp))
        have third := (isBase64_iff c).mpr (letters c (by simp))
        have fourth := (isBase64_iff d).mpr (letters d (by simp))
        simp only [List.length_cons] at size whole
        have behind := ih body.length (by omega)
          (fun unit inside => letters unit (by simp [inside])) (by omega) rfl
        change matchesBase64 (a :: b :: c :: d :: (body ++ _)) = true
        rw [matchesBase64, first, second, third, fourth, behind]
        rfl

/-- The pattern matches letters in whole groups with padding at the end. -/
theorem matchesBase64_iff (input : CodeUnits) :
    input.length % 4 = 0 ∧ matchesBase64 input = true ↔ ∃ missing, Padded input missing := by
  constructor
  · rintro ⟨-, pattern⟩
    fun_induction matchesBase64 input with
    | case1 => exact ⟨0, by simp, by decide, [], rfl, by simp⟩
    | case2 first second third fourth rest ih =>
        simp only [Bool.or_eq_true, Bool.and_eq_true, isBase64_iff] at pattern
        rcases pattern with
          ⟨⟨⟨⟨⟨a, one, rfl⟩, b, two, rfl⟩, c, three, rfl⟩, d, four, rfl⟩, behind⟩ |
          ⟨⟨⟨⟨empty, a, one, rfl⟩, b, two, rfl⟩, last⟩, sign⟩
        · obtain ⟨missing, padded⟩ := ih behind
          exact ⟨missing, padded.digits one two three four⟩
        · rw [List.isEmpty_iff] at empty
          rw [beq_iff_eq] at sign
          subst empty sign
          rcases last with same | ⟨c, three, rfl⟩
          · rw [beq_iff_eq] at same
            subst same
            refine ⟨2, by simp, le_rfl, [_, _], rfl, ?_⟩
            simp only [List.mem_cons, List.not_mem_nil, or_false]
            rintro unit (rfl | rfl)
            · exact ⟨a, one, rfl⟩
            · exact ⟨b, two, rfl⟩
          · refine ⟨1, by simp, by decide, [_, _, _], rfl, ?_⟩
            simp only [List.mem_cons, List.not_mem_nil, or_false]
            rintro unit (rfl | rfl | rfl)
            · exact ⟨a, one, rfl⟩
            · exact ⟨b, two, rfl⟩
            · exact ⟨c, three, rfl⟩
    | case3 => cases pattern
  · rintro ⟨missing, whole, few, body, rfl, letters⟩
    refine ⟨whole, ?_⟩
    rw [List.length_append, List.length_replicate] at whole
    exact matches_letters letters few whole

end Pattern

section Decoder

theorem indexOf_digitUnit : ∀ sextet < 64, indexOf (digitUnit sextet) = sextet := by
  decide +kernel

theorem decodedLength_eq {input : CodeUnits} {missing : Nat} (padded : Padded input missing) :
    decodedLength input = input.length / 4 * 3 - missing := by
  obtain ⟨-, few, body, rfl, letters⟩ := padded
  have ends (ending : CodeUnits) : endsWith (body ++ ending) ending = true :=
    List.isSuffixOf_iff_suffix.mpr (List.suffix_append body ending)
  have last (front : CodeUnits) : endsWith body (front ++ [equalsSign]) = false := by
    rw [Bool.eq_false_iff]
    intro suffix
    obtain ⟨lead, whole⟩ := List.isSuffixOf_iff_suffix.mp suffix
    refine getLast?_ne letters ?_
    rw [← whole, ← List.append_assoc, List.getLast?_concat]
  unfold decodedLength
  dsimp only
  rcases missing with - | - | - | missing
  · have two : endsWith body [equalsSign, equalsSign] = false := last [equalsSign]
    have one : endsWith body [equalsSign] = false := last []
    rw [List.replicate_zero, List.append_nil, two, one]
    rfl
  · have single : endsWith (body ++ [equalsSign]) [equalsSign, equalsSign] = false := by
      rw [Bool.eq_false_iff]
      intro suffix
      obtain ⟨lead, whole⟩ := List.isSuffixOf_iff_suffix.mp suffix
      refine getLast?_ne letters ?_
      have front : lead ++ [equalsSign] = body := by
        refine List.append_cancel_right (?_ : _ ++ [equalsSign] = _)
        rw [List.append_assoc]
        exact whole
      rw [← front, List.getLast?_concat]
    rw [List.replicate_one, single, ends [equalsSign]]
    rfl
  · rw [show List.replicate (0 + 1 + 1) equalsSign = [equalsSign, equalsSign] from rfl,
      ends [equalsSign, equalsSign]]
    rfl
  · omega

/-- Every write of the loop is inside, and the loop fills the array. -/
structure Fits (output : Filling) (groups : Nat) : Prop where
  inside : output.inside = true
  enough : output.bytes.length ≤ output.next + 3 * groups
  few : output.next + 3 * groups ≤ output.bytes.length + 2
  ends : groups = 0 → output.next = output.bytes.length

theorem length_push (output : Filling) (value : Nat) :
    (output.push value).bytes.length = output.bytes.length := List.length_set

theorem next_push (output : Filling) (value : Nat) :
    (output.push value).next = output.next + 1 := rfl

theorem push_inside {output : Filling} (value : Nat) (fits : output.next < output.bytes.length) :
    (output.push value).inside = output.inside := by
  unfold Filling.push
  rw [decide_eq_true fits, Bool.and_true]

theorem length_pushInside (output : Filling) (value : Nat) :
    (Filling.pushInside output value).bytes.length = output.bytes.length := by
  unfold Filling.pushInside
  split_ifs
  · exact length_push output value
  · rfl

theorem pushInside_inside (output : Filling) (value : Nat) :
    (Filling.pushInside output value).inside = output.inside := by
  unfold Filling.pushInside
  split_ifs with fits
  · exact push_inside value fits
  · rfl

theorem pushInside_next (output : Filling) (value : Nat) :
    (Filling.pushInside output value).next =
      if output.next < output.bytes.length then output.next + 1 else output.next := by
  unfold Filling.pushInside
  split_ifs <;> rfl

theorem decodeLoop_fits {input : CodeUnits} {output : Filling} {groups : Nat}
    (size : input.length = 4 * groups) (fits : Fits output groups) :
    Fits (decodeLoop input output) 0 := by
  induction groups generalizing input output with
  | zero =>
      rw [List.length_eq_zero_iff.mp size]
      exact fits
  | succ groups ih =>
      obtain ⟨inside, enough, few, -⟩ := fits
      rcases input with - | ⟨a, - | ⟨b, - | ⟨c, - | ⟨d, rest⟩⟩⟩⟩
      all_goals simp only [List.length_cons, List.length_nil] at size
      all_goals first | omega | skip
      rw [decodeLoop]
      refine ih (by omega) ?_
      have place : output.next < output.bytes.length := by omega
      constructor
      · rw [pushInside_inside, pushInside_inside, push_inside _ place]
        exact inside
      all_goals
        simp only [pushInside_next, length_pushInside, length_push, next_push]
        generalize output.bytes.length = total at *
        generalize output.next = next at *
        split_ifs <;> omega

/-- The host reads three bytes from four digits. -/
theorem decodeLoop_codes {first second third fourth : UInt16} (rest : CodeUnits) (output : Filling)
    {c0 c1 c2 c3 : Nat} (zero : indexOf first = c0) (one : indexOf second = c1)
    (two : (if third = equalsSign then 0 else indexOf third) = c2)
    (three : (if fourth = equalsSign then 0 else indexOf fourth) = c3)
    (small : c1 < 64 ∧ c2 < 64 ∧ c3 < 64) :
    decodeLoop (first :: second :: third :: fourth :: rest) output =
      let bits := c0 * 262144 + c1 * 4096 + c2 * 64 + c3
      decodeLoop rest (Filling.pushInside (Filling.pushInside (output.push ((bits >>> 16) &&& 255))
        ((bits >>> 8) &&& 255)) (bits &&& 255)) := by
  rw [decodeLoop, zero, one, two, three, digitBits_eq _ small.1 small.2.1 small.2.2]

theorem pushInside_written (done : Bytes) (free value : Nat) :
    Filling.pushInside (written done (free + 1)) value =
      written (done ++ [UInt8.ofNat value]) free := by
  rw [← push_written]
  refine if_pos ?_
  change done.length < (done ++ List.replicate (free + 1) 0).length
  rw [List.length_append, List.length_replicate]
  omega

theorem pushInside_full (done : Bytes) (value : Nat) :
    Filling.pushInside (written done 0) value = written done 0 := by
  refine if_neg ?_
  change ¬ done.length < (done ++ []).length
  rw [List.append_nil]
  exact lt_irrefl _

theorem index_digit {sextet : Nat} (small : sextet < 64) :
    (if digitUnit sextet = equalsSign then 0 else indexOf (digitUnit sextet)) = sextet := by
  rw [if_neg (digitUnit_ne_equals sextet small), indexOf_digitUnit sextet small]

theorem decodeLoop_encode (bytes done : Bytes) :
    decodeLoop (textUnits (encode bytes)) (written done bytes.length) =
      written (done ++ bytes) 0 := by
  induction bytes using groups_induction generalizing done with
  | nil =>
      rw [encode_nil, List.append_nil]
      rfl
  | one first =>
      have one := first.toNat_lt
      have bits := digits_of_bytes first.toNat (0 : UInt8).toNat (0 : UInt8).toNat
      change _ + first.toNat % 4 * 16 * 4096 + 0 * 64 + 0 = _ at bits
      rw [units_one, decodeLoop_codes [] _ (indexOf_digitUnit _ (by omega))
        (indexOf_digitUnit _ (by omega)) (if_pos rfl) (if_pos rfl)
        ⟨by omega, by decide, by decide⟩]
      dsimp only
      rw [bits, List.length_singleton, push_written, byte_high, pushInside_full, pushInside_full]
      rfl
  | two first second =>
      have one := first.toNat_lt
      have two := second.toNat_lt
      have bits := digits_of_bytes first.toNat second.toNat (0 : UInt8).toNat
      change _ + second.toNat % 16 * 4 * 64 + 0 = _ at bits
      rw [units_two, decodeLoop_codes [] _ (indexOf_digitUnit _ (by omega))
        (indexOf_digitUnit _ (by omega)) (index_digit (by omega)) (if_pos rfl)
        ⟨by omega, by omega, by decide⟩]
      dsimp only
      rw [bits, List.length_cons, List.length_singleton, push_written, byte_high,
        pushInside_written, byte_middle, pushInside_full, List.append_assoc]
      rfl
  | three first second third rest ih =>
      have one := first.toNat_lt
      have two := second.toNat_lt
      have three := third.toNat_lt
      rw [units_three, decodeLoop_codes _ _ (indexOf_digitUnit _ (by omega))
        (indexOf_digitUnit _ (by omega)) (index_digit (by omega)) (index_digit (by omega))
        ⟨by omega, by omega, by omega⟩]
      dsimp only
      rw [digits_of_bytes, List.length_cons, List.length_cons, List.length_cons, push_written,
        byte_high, pushInside_written, byte_middle, pushInside_written, byte_low, ih,
        List.append_assoc, List.append_assoc, List.append_assoc]
      rfl

theorem decodeFill_ok {input : CodeUnits} {missing maximumBytes : Nat}
    (padded : Padded input missing)
    (fits : input.length / 4 * 3 - missing ≤ maximumBytes) :
    decodeFill input maximumBytes =
      .ok (decodeLoop input (Filling.new (input.length / 4 * 3 - missing))) := by
  have pattern := (matchesBase64_iff input).mpr ⟨missing, padded⟩
  unfold decodeFill
  by_cases empty : input.length = 0
  · rw [if_pos empty, empty, List.length_eq_zero_iff.mp empty, Nat.zero_div, Nat.zero_mul,
      Nat.zero_sub]
    rfl
  · rw [if_neg empty, if_neg (by simp [pattern.1, pattern.2]), decodedLength_eq padded,
      if_neg (by omega)]

/-- A string is accepted when it is padded letters whose length is allowed. -/
theorem decodeFill_iff (input : CodeUnits) (maximumBytes : Nat) :
    (∃ output, decodeFill input maximumBytes = .ok output) ↔
      ∃ missing, Padded input missing ∧ input.length / 4 * 3 - missing ≤ maximumBytes := by
  constructor
  · rintro ⟨output, accepted⟩
    unfold decodeFill at accepted
    split_ifs at accepted with empty broken long
    · have none := List.length_eq_zero_iff.mp empty
      subst none
      exact ⟨0, ⟨by simp, by decide, [], rfl, by simp⟩, by simp⟩
    · have pattern : input.length % 4 = 0 ∧ matchesBase64 input = true := by
        simpa using broken
      obtain ⟨missing, padded⟩ := (matchesBase64_iff input).mp pattern
      rw [decodedLength_eq padded] at long
      exact ⟨missing, padded, Nat.le_of_not_lt long⟩
  · rintro ⟨missing, padded, fits⟩
    exact ⟨_, decodeFill_ok padded fits⟩

/-- An accepted string fills its array without a write behind the end. -/
theorem decodeFill_inside {input : CodeUnits} {maximumBytes : Nat} {output : Filling}
    (accepted : decodeFill input maximumBytes = .ok output) :
    output.inside = true ∧ output.next = output.bytes.length := by
  obtain ⟨missing, padded, fits⟩ := (decodeFill_iff input maximumBytes).mp ⟨output, accepted⟩
  rw [decodeFill_ok padded fits] at accepted
  have same : decodeLoop input (Filling.new (input.length / 4 * 3 - missing)) = output :=
    Except.ok.inj accepted
  have whole := padded.whole
  have few := padded.few
  have filled : missing ≤ input.length / 4 * 3 := by
    obtain ⟨body, here, -⟩ := padded.letters
    have size := congrArg List.length here
    rw [List.length_append, List.length_replicate] at size
    omega
  have start : Fits (Filling.new (input.length / 4 * 3 - missing)) (input.length / 4) := by
    have long : (Filling.new (input.length / 4 * 3 - missing)).bytes.length =
        input.length / 4 * 3 - missing := List.length_replicate
    have next : (Filling.new (input.length / 4 * 3 - missing)).next = 0 := rfl
    exact ⟨rfl, by omega, by omega, fun none => by omega⟩
  have size : input.length = 4 * (input.length / 4) := by omega
  have done := decodeLoop_fits size start
  rw [same] at done
  exact ⟨done.inside, done.ends rfl⟩

theorem decodeBase64_encode {bytes : Bytes} {maximumBytes : Nat}
    (fits : bytes.length ≤ maximumBytes) :
    decodeBase64 (textUnits (encode bytes)) maximumBytes = .ok bytes := by
  obtain ⟨missing, padded, size⟩ := padded_encode bytes
  have length : (textUnits (encode bytes)).length / 4 * 3 - missing = bytes.length := by omega
  unfold decodeBase64
  rw [decodeFill_ok padded (by omega), length, new_eq_written, decodeLoop_encode]
  exact congrArg Except.ok (List.append_nil bytes)

end Decoder

/-- Both encoders give base64, both decoders undo it, and the host accepts padded letters. -/
theorem base64_bridge (bytes : Bytes) (limit maximumBytes : Nat) (input : CodeUnits) :
    base64EncodeBy limit bytes = textUnits (encode bytes) ∧
      base64Encode bytes = textUnits (encode bytes) ∧
      encodeBase64 bytes = textUnits (encode bytes) ∧
      base64Decode (textUnits (encode bytes)) = some bytes ∧
      (bytes.length ≤ maximumBytes →
        decodeBase64 (textUnits (encode bytes)) maximumBytes = .ok bytes) ∧
      ((∃ output, decodeFill input maximumBytes = .ok output) ↔
        ∃ missing, Padded input missing ∧ input.length / 4 * 3 - missing ≤ maximumBytes) ∧
      ∀ output, decodeFill input maximumBytes = .ok output →
        output.inside = true ∧ output.next = output.bytes.length :=
  ⟨base64EncodeBy_eq limit bytes, base64EncodeBy_eq base64ChunkLength bytes, encodeBase64_eq bytes,
    base64Decode_encode bytes, decodeBase64_encode, decodeFill_iff input maximumBytes,
    fun _ => decodeFill_inside⟩

end TinySandbox.Portable.Filled
