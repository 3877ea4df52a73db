/-
This file shows where the codec of the guest is UTF-8.
The codec checks neither surrogates nor bytes, so it differs from the standard on all other inputs.
-/

import TinySandbox.Construction.Js.Codecs
import TinySandbox.Proof.Sandbox.SortedLines

namespace TinySandbox.Js.Guest
open Library Sandbox

section Bits

theorem or_eq_add {value : Nat} (width high : Nat) (small : value < 2 ^ width) :
    2 ^ width * high ||| value = 2 ^ width * high + value :=
  (Nat.two_pow_add_eq_or_of_lt small high).symm

theorem and_low (width value : Nat) : value &&& (2 ^ width - 1) = value % 2 ^ width :=
  Nat.and_two_pow_sub_one_eq_mod value width

theorem lowBits_eq (bytes : Bytes) (index : Nat) :
    lowBits bytes index = (bytes.getD index 0).toNat % 64 := and_low 6 _

theorem lowBits_nil (index : Nat) : lowBits [] index = 0 := lowBits_eq [] index

theorem lowBits_zero (first : UInt8) (rest : Bytes) :
    lowBits (first :: rest) 0 = first.toNat % 64 := lowBits_eq _ 0

theorem lowBits_succ (first : UInt8) (rest : Bytes) (index : Nat) :
    lowBits (first :: rest) (index + 1) = lowBits rest index := rfl

theorem lowBits_lt (bytes : Bytes) (index : Nat) : lowBits bytes index < 64 := by
  rw [lowBits_eq]
  exact Nat.mod_lt _ (by decide)

/-- The bytes of a code are its digits behind the marks of their places. -/
theorem encodeCode_eq {code : Nat} (small : code < 0x200000) :
    encodeCode code =
      (if code ≤ 0x7f then [code]
      else if code ≤ 0x7ff then [0xc0 + code / 64, 0x80 + code % 64]
      else if code ≤ 0xffff then [0xe0 + code / 4096, 0x80 + code / 64 % 64, 0x80 + code % 64]
      else [0xf0 + code / 262144, 0x80 + code / 4096 % 64, 0x80 + code / 64 % 64,
        0x80 + code % 64]).map UInt8.ofNat := by
  have continued (value : Nat) : 0x80 ||| (value &&& 0x3f) = 0x80 + value % 64 := by
    rw [show value &&& 0x3f = value % 64 from and_low 6 value]
    exact or_eq_add 6 2 (Nat.mod_lt _ (by decide))
  unfold encodeCode
  simp only [continued, Nat.shiftRight_eq_div_pow]
  split_ifs with one two three
  · rfl
  · rw [show 0xc0 ||| code / 2 ^ 6 = 0xc0 + code / 2 ^ 6 from
      or_eq_add 5 6 (by omega)]
    rfl
  · rw [show 0xe0 ||| code / 2 ^ 12 = 0xe0 + code / 2 ^ 12 from
      or_eq_add 4 14 (by omega)]
    rfl
  · rw [show 0xf0 ||| code / 2 ^ 18 = 0xf0 + code / 2 ^ 18 from
      or_eq_add 3 30 (by omega)]
    rfl

theorem first_marks : ∀ first < 256,
    (first &&& 0xe0 = 0xc0 ↔ first / 32 = 6) ∧ (first &&& 0xf0 = 0xe0 ↔ first / 16 = 14) := by
  decide +kernel

/-- The code is read from the low bits of all bytes, whatever their marks are. -/
theorem decodeCode_eq (first : UInt8) (rest : Bytes) :
    decodeCode first.toNat rest =
      if first.toNat < 128 then (first.toNat, 0)
      else if first.toNat / 32 = 6 then (first.toNat % 32 * 64 + lowBits rest 0, 1)
      else if first.toNat / 16 = 14 then
        (first.toNat % 16 * 4096 + lowBits rest 0 * 64 + lowBits rest 1, 2)
      else
        (first.toNat % 8 * 262144 + lowBits rest 0 * 4096 + lowBits rest 1 * 64 + lowBits rest 2,
          3) := by
  have marks := first_marks first.toNat first.toNat_lt
  have zero := lowBits_lt rest 0
  have one := lowBits_lt rest 1
  have two := lowBits_lt rest 2
  unfold decodeCode
  simp only [marks.1, marks.2, Nat.shiftLeft_eq]
  split_ifs with plain double triple
  · rfl
  · rw [show first.toNat &&& 0x1f = first.toNat % 32 from and_low 5 _, Nat.mul_comm,
      or_eq_add 6 _ zero, Nat.mul_comm]
  · rw [show first.toNat &&& 0x0f = first.toNat % 16 from and_low 4 _]
    have inner : first.toNat % 16 * 2 ^ 12 ||| lowBits rest 0 * 2 ^ 6 =
        2 ^ 6 * (first.toNat % 16 * 64 + lowBits rest 0) := by
      rw [Nat.mul_comm, or_eq_add 12 _ (by omega)]
      omega
    rw [inner, or_eq_add 6 _ one]
    refine Prod.ext ?_ rfl
    dsimp only
    omega
  · rw [show first.toNat &&& 0x07 = first.toNat % 8 from and_low 3 _]
    have inner : first.toNat % 8 * 2 ^ 18 ||| lowBits rest 0 * 2 ^ 12 =
        2 ^ 12 * (first.toNat % 8 * 64 + lowBits rest 0) := by
      rw [Nat.mul_comm, or_eq_add 18 _ (by omega)]
      omega
    have middle : 2 ^ 12 * (first.toNat % 8 * 64 + lowBits rest 0) ||| lowBits rest 1 * 2 ^ 6 =
        2 ^ 6 * (first.toNat % 8 * 4096 + lowBits rest 0 * 64 + lowBits rest 1) := by
      rw [or_eq_add 12 _ (by omega)]
      omega
    rw [inner, middle, or_eq_add 6 _ two]
    refine Prod.ext ?_ rfl
    dsimp only
    omega

theorem decodeCode_lt (first : UInt8) (rest : Bytes) :
    (decodeCode first.toNat rest).1 < 0x200000 := by
  have bound := first.toNat_lt
  have zero := lowBits_lt rest 0
  have one := lowBits_lt rest 1
  have two := lowBits_lt rest 2
  rw [decodeCode_eq]
  split_ifs <;> dsimp only <;> omega

theorem fromCode_eq (code : Nat) :
    fromCode code =
      if code < 0x10000 then [UInt16.ofNat code]
      else [UInt16.ofNat (0xD800 + (code - 0x10000) / 0x400),
        UInt16.ofNat (0xDC00 + (code - 0x10000) % 0x400)] := by
  unfold fromCode
  rw [show (code - 0x10000) &&& 0x3ff = (code - 0x10000) % 0x400 from and_low 10 _,
    Nat.shiftRight_eq_div_pow]
  by_cases plane : code < 0x10000
  · rw [if_pos plane, if_pos (by omega)]
  · rw [if_neg plane, if_neg (by omega)]

theorem fromCode_toNat (symbol : Char) : fromCode symbol.toNat = charUnits symbol := by
  rw [fromCode_eq]
  rfl

theorem encodeCode_toNat (symbol : Char) :
    encodeCode symbol.toNat = String.utf8EncodeChar symbol := by
  have bounds := toNat_bounds symbol
  rw [encodeCode_eq (by omega)]
  unfold String.utf8EncodeChar
  change _ = if symbol.toNat ≤ 0x7f then _ else if symbol.toNat ≤ 0x7ff then _
    else if symbol.toNat ≤ 0xffff then _ else _
  split_ifs with one two three
  · rfl
  · simp only [List.map_cons, List.map_nil, List.cons.injEq, and_true]
    exact ⟨congrArg UInt8.ofNat (by change _ = symbol.toNat / 64 % 32 + _; omega),
      congrArg UInt8.ofNat (Nat.add_comm _ _)⟩
  · simp only [List.map_cons, List.map_nil, List.cons.injEq, and_true]
    exact ⟨congrArg UInt8.ofNat (by change _ = symbol.toNat / 4096 % 16 + _; omega),
      congrArg UInt8.ofNat (Nat.add_comm _ _), congrArg UInt8.ofNat (Nat.add_comm _ _)⟩
  · simp only [List.map_cons, List.map_nil, List.cons.injEq, and_true]
    exact ⟨congrArg UInt8.ofNat (by change _ = symbol.toNat / 262144 % 8 + _; omega),
      congrArg UInt8.ofNat (Nat.add_comm _ _), congrArg UInt8.ofNat (Nat.add_comm _ _),
      congrArg UInt8.ofNat (Nat.add_comm _ _)⟩

end Bits

section Valid

/-- The code of a character is read back from its bytes. -/
theorem decodeCode_utf8EncodeChar (symbol : Char) :
    ∃ first tail, String.utf8EncodeChar symbol = first :: tail ∧
      ∀ rest, decodeCode first.toNat (tail ++ rest) = (symbol.toNat, tail.length) := by
  have bounds := toNat_bounds symbol
  have byte {value : Nat} (small : value < 256) : (UInt8.ofNat value).toNat = value := by
    rw [UInt8.toNat_ofNat']
    exact Nat.mod_eq_of_lt small
  rw [← encodeCode_toNat, encodeCode_eq (by omega)]
  split_ifs with one two three
  · refine ⟨_, [], rfl, fun rest => ?_⟩
    rw [decodeCode_eq, byte (by omega), if_pos (by omega)]
    rfl
  · refine ⟨_, _, rfl, fun rest => ?_⟩
    rw [decodeCode_eq, byte (by omega), if_neg (by omega), if_pos (by omega)]
    simp only [lowBits_eq, List.map_cons, List.map_nil, List.cons_append, List.getD_cons_zero]
    rw [byte (by omega)]
    refine Prod.ext ?_ rfl
    dsimp only
    omega
  · refine ⟨_, _, rfl, fun rest => ?_⟩
    rw [decodeCode_eq, byte (by omega), if_neg (by omega), if_neg (by omega), if_pos (by omega)]
    simp only [lowBits_eq, List.map_cons, List.map_nil, List.cons_append, List.getD_cons_zero,
      List.getD_cons_succ]
    rw [byte (by omega), byte (by omega)]
    refine Prod.ext ?_ rfl
    dsimp only
    omega
  · refine ⟨_, _, rfl, fun rest => ?_⟩
    rw [decodeCode_eq, byte (by omega), if_neg (by omega), if_neg (by omega), if_neg (by omega)]
    simp only [lowBits_eq, List.map_cons, List.map_nil, List.cons_append, List.getD_cons_zero,
      List.getD_cons_succ]
    rw [byte (by omega), byte (by omega), byte (by omega)]
    refine Prod.ext ?_ rfl
    dsimp only
    omega

/-- The guest decodes valid bytes as the standard does. -/
theorem utf8Decode_textBytes_append (text : Text) (rest : Bytes) :
    utf8Decode (textBytes text ++ rest) = textUnits text ++ utf8Decode rest := by
  induction text with
  | nil => rfl
  | cons symbol text ih =>
      obtain ⟨first, tail, same, code⟩ := decodeCode_utf8EncodeChar symbol
      rw [textBytes_cons, same, List.cons_append, List.cons_append, utf8Decode, List.append_assoc,
        code, List.drop_left, ih, fromCode_toNat, ← List.append_assoc]
      rfl

theorem utf8Decode_textBytes (text : Text) : utf8Decode (textBytes text) = textUnits text := by
  have decoded := utf8Decode_textBytes_append text []
  rwa [List.append_nil, utf8Decode, List.append_nil] at decoded

theorem utf8Encode_plain {unit : UInt16} {rest : CodeUnits} (plain : isSurrogate unit = false) :
    utf8Encode (unit :: rest) = String.utf8EncodeChar (unitChar unit) ++ utf8Encode rest := by
  rw [← encodeCode_toNat, toNat_unitChar plain]
  cases rest with
  | nil => exact (List.append_nil _).symm
  | cons next rest =>
      rw [utf8Encode, if_neg]
      simp [not_high_of_plain plain]

theorem utf8Encode_pair {high low : UInt16} {rest : CodeUnits} (first : isHighSurrogate high = true)
    (second : isLowSurrogate low = true) :
    utf8Encode (high :: low :: rest) =
      String.utf8EncodeChar (pairChar high low) ++ utf8Encode rest := by
  rw [utf8Encode, if_pos ⟨first, second⟩, ← encodeCode_toNat, toNat_pairChar first second,
    Nat.shiftLeft_eq]

theorem utf8Encode_lone {unit : UInt16} {rest : CodeUnits}
    (none : ¬ ∃ low tail, rest = low :: tail ∧ isHighSurrogate unit = true ∧
      isLowSurrogate low = true) :
    utf8Encode (unit :: rest) = encodeCode unit.toNat ++ utf8Encode rest := by
  cases rest with
  | nil => exact (List.append_nil _).symm
  | cons next rest =>
      rw [utf8Encode, if_neg]
      exact fun pair => none ⟨next, rest, rfl, pair⟩

/-- The guest encodes paired surrogates as the standard does. -/
theorem utf8Encode_textUnits (text : Text) : utf8Encode (textUnits text) = textBytes text := by
  induction text with
  | nil => rfl
  | cons symbol text ih =>
      change utf8Encode (charUnits symbol ++ textUnits text) = _
      rw [textBytes_cons, ← ih]
      rcases charUnits_cases symbol with ⟨unit, same, plain, char⟩ |
        ⟨high, low, same, first, second, char⟩
      · rw [same, ← char]
        exact utf8Encode_plain plain
      · rw [same, ← char]
        exact utf8Encode_pair first second

/-- The bytes of a text that start with a character are the bytes of this character. -/
theorem textBytes_starts {text : Text} {symbol : Char} {rest : Bytes}
    (same : textBytes text = String.utf8EncodeChar symbol ++ rest) :
    ∃ tail, rest = textBytes tail := by
  cases text with
  | nil =>
      have size := congrArg List.length same
      have positive := symbol.utf8Size_pos
      rw [List.length_append, String.length_utf8EncodeChar] at size
      change 0 = _ at size
      omega
  | cons first tail =>
      rw [textBytes_cons] at same
      have decoded := congrArg (fun bytes : Bytes => bytes.toByteArray.utf8DecodeChar? 0) same
      simp only [List.toByteArray_append, ByteArray.utf8DecodeChar?_utf8EncodeChar_append,
        Option.some.injEq] at decoded
      subst decoded
      exact ⟨tail, (List.append_cancel_left same).symm⟩

/-- No character has the bytes of a surrogate. -/
theorem surrogate_not_valid {unit : UInt16} (lone : isSurrogate unit = true) (rest : Bytes)
    (text : Text) : encodeCode unit.toNat ++ rest ≠ textBytes text := by
  intro same
  rw [isSurrogate_iff] at lone
  rw [encodeCode_eq (by omega), if_neg (by omega), if_neg (by omega), if_pos (by omega)] at same
  cases text with
  | nil => cases same
  | cons symbol text =>
      have bounds := toNat_bounds symbol
      have byte {value : Nat} (small : value < 256) : (UInt8.ofNat value).toNat = value := by
        rw [UInt8.toNat_ofNat']
        exact Nat.mod_eq_of_lt small
      rw [textBytes_cons, ← encodeCode_toNat, encodeCode_eq (by omega)] at same
      split_ifs at same with one two three
      all_goals
        simp only [List.map_cons, List.map_nil, List.cons_append, List.cons.injEq,
          ← UInt8.toNat_inj] at same
      · have first := same.1
        rw [byte (by omega), byte (by omega)] at first
        omega
      · have first := same.1
        rw [byte (by omega), byte (by omega)] at first
        omega
      · have first := same.1
        have second := same.2.1
        rw [byte (by omega), byte (by omega)] at first second
        omega
      · have first := same.1
        rw [byte (by omega), byte (by omega)] at first
        omega

/-- The output of the encoder is valid only when all surrogates are paired. -/
theorem paired_of_valid {input : CodeUnits} {text : Text}
    (same : utf8Encode input = textBytes text) :
    Paired input := by
  induction size : input.length using Nat.strong_induction_on generalizing input text with
  | _ bound ih =>
      cases input with
      | nil => trivial
      | cons unit rest =>
          rw [List.length_cons] at size
          rcases units_cases unit rest with plain | ⟨low, tail, rfl, first, second⟩ | ⟨lone, none⟩
          · rw [utf8Encode_plain plain] at same
            obtain ⟨behind, valid⟩ := textBytes_starts same.symm
            exact (paired_plain plain).mpr (ih _ (by omega) valid rfl)
          · rw [utf8Encode_pair first second] at same
            obtain ⟨behind, valid⟩ := textBytes_starts same.symm
            rw [List.length_cons] at size
            exact (paired_pair first second).mpr (ih _ (by omega) valid rfl)
          · rw [utf8Encode_lone none] at same
            exact absurd same (surrogate_not_valid lone _ _)

end Valid

section Weights

/-- The bytes that a code unit costs at least. -/
def unitWeight (unit : UInt16) : Nat :=
  if unit.toNat < 0x80 then 1
  else if unit.toNat < 0x800 ∨ 0xD800 ≤ unit.toNat ∧ unit.toNat ≤ 0xDFFF then 2 else 3

def weight (input : CodeUnits) : Nat := (input.map unitWeight).sum

theorem weight_append (first second : CodeUnits) :
    weight (first ++ second) = weight first + weight second := by
  rw [weight, List.map_append, List.sum_append]
  rfl

theorem unitWeight_ofNat {value : Nat} (plane : value < 0x10000) :
    unitWeight (UInt16.ofNat value) =
      if value < 0x80 then 1
      else if value < 0x800 ∨ 0xD800 ≤ value ∧ value ≤ 0xDFFF then 2 else 3 := by
  unfold unitWeight
  rw [toNat_ofNat_of_lt plane]

theorem weight_cons (unit : UInt16) (input : CodeUnits) :
    weight (unit :: input) = unitWeight unit + weight input := by
  rw [weight, List.map_cons, List.sum_cons]
  rfl

theorem weight_nil : weight [] = 0 := rfl

theorem weight_fromCode {code : Nat} (small : code < 0x200000) :
    weight (fromCode code) =
      if code < 0x10000 then
        if code < 0x80 then 1 else if code < 0x800 ∨ 0xD800 ≤ code ∧ code ≤ 0xDFFF then 2 else 3
      else 4 := by
  rw [fromCode_eq]
  by_cases plane : code < 0x10000
  · rw [if_pos plane, if_pos plane, weight_cons, weight_nil, unitWeight_ofNat plane, Nat.add_zero]
  · rw [if_neg plane, if_neg plane, weight_cons, weight_cons, weight_nil,
      unitWeight_ofNat (by omega), if_neg (by omega), if_pos (by omega),
      unitWeight_ofNat (by omega), if_neg (by omega), if_pos (by omega)]

theorem length_utf8EncodeChar_eq (symbol : Char) :
    (String.utf8EncodeChar symbol).length = weight (charUnits symbol) := by
  have bounds := toNat_bounds symbol
  rw [← fromCode_toNat, weight_fromCode (by omega), ← encodeCode_toNat, encodeCode_eq (by omega)]
  split_ifs <;> first | rfl | omega

/-- A whole group of the guest has at least the bytes that its units cost. -/
theorem weight_decodeCode (first : UInt8) (rest : Bytes) :
    weight (fromCode (decodeCode first.toNat rest).1) ≤ 1 + (decodeCode first.toNat rest).2 := by
  have bound := first.toNat_lt
  have zero := lowBits_lt rest 0
  have one := lowBits_lt rest 1
  rw [weight_fromCode (decodeCode_lt first rest), decodeCode_eq]
  split_ifs <;> omega

end Weights

section Replacement

theorem invalidLength_le {bytes : Bytes} (filled : bytes ≠ []) :
    invalidLength bytes ≤ bytes.length ∧ invalidLength bytes ≤ 3 := by
  rcases bytes with - | ⟨first, - | ⟨second, - | ⟨third, rest⟩⟩⟩
  · cases filled rfl
  · exact ⟨le_rfl, Nat.le_add_left 1 2⟩
  · change (if _ then 2 else 1) ≤ 2 ∧ (if _ then 2 else 1) ≤ 3
    split_ifs <;> decide
  · have long : (first :: second :: third :: rest).length = rest.length + 3 := rfl
    rw [long]
    change (if _ then if _ then 3 else 2 else 1) ≤ _ ∧ (if _ then if _ then 3 else 2 else 1) ≤ 3
    split_ifs <;> omega

/-- The standard reads a character, or it replaces an invalid part. -/
theorem lossy_cases (bytes : Bytes) :
    bytes = [] ∨
    (∃ symbol rest, bytes = String.utf8EncodeChar symbol ++ rest ∧
      fromUtf8Lossy bytes = symbol :: fromUtf8Lossy rest) ∨
    bytes ≠ [] ∧ bytes.toByteArray.utf8DecodeChar? 0 = none ∧
      fromUtf8Lossy bytes = '\uFFFD' :: fromUtf8Lossy (bytes.drop (invalidLength bytes)) := by
  by_cases filled : bytes = []
  · exact .inl filled
  · rw [fromUtf8Lossy, dif_neg filled]
    cases decoded : bytes.toByteArray.utf8DecodeChar? 0 with
    | none => exact .inr (.inr ⟨filled, rfl, rfl⟩)
    | some symbol =>
        obtain ⟨behind, starts⟩ := ByteArray.exists_of_utf8DecodeChar?_eq_some decoded
        have listed : behind = behind.data.toList.toByteArray :=
          ByteArray.ext List.data_toByteArray.symm
        rw [listed, ← List.toByteArray_append, List.toByteArray_inj] at starts
        refine .inr (.inl ⟨symbol, behind.data.toList, starts, ?_⟩)
        dsimp only
        rw [starts, ← String.length_utf8EncodeChar symbol, List.drop_left]

/-- Every unit of the standard costs the bytes that it stands for. -/
theorem length_le_weight (bytes : Bytes) :
    bytes.length ≤ weight (textUnits (fromUtf8Lossy bytes)) := by
  induction size : bytes.length using Nat.strong_induction_on generalizing bytes with
  | _ bound ih =>
      rcases lossy_cases bytes with rfl | ⟨symbol, rest, rfl, lossy⟩ | ⟨filled, -, lossy⟩
      · rw [← size]
        exact Nat.zero_le _
      · have positive := symbol.utf8Size_pos
        have long := String.length_utf8EncodeChar symbol
        rw [List.length_append] at size
        have behind := ih rest.length (by omega) rest rfl
        have same : weight (textUnits (symbol :: fromUtf8Lossy rest)) =
            weight (charUnits symbol) + weight (textUnits (fromUtf8Lossy rest)) := weight_append _ _
        rw [lossy, same, ← length_utf8EncodeChar_eq]
        omega
      · have inside := invalidLength_le filled
        have positive := invalidLength_pos bytes
        have short := List.length_drop (l := bytes) (i := invalidLength bytes)
        have behind := ih _ (by omega) (bytes.drop (invalidLength bytes)) rfl
        have same : weight (textUnits
            ('\uFFFD' :: fromUtf8Lossy (bytes.drop (invalidLength bytes)))) =
            3 + weight (textUnits (fromUtf8Lossy (bytes.drop (invalidLength bytes)))) :=
          weight_append _ _
        rw [lossy, same]
        omega

/-- The last group of the guest is whole, or the input ends inside it. -/
theorem decode_tail (bytes : Bytes) :
    weight (utf8Decode bytes) ≤ bytes.length ∨
    ∃ (before : CodeUnits) (front : Bytes) (first : UInt8) (tail : Bytes),
      bytes = front ++ first :: tail ∧ weight before ≤ front.length ∧
      tail.length < (decodeCode first.toNat tail).2 ∧
      utf8Decode bytes = before ++ fromCode (decodeCode first.toNat tail).1 := by
  induction size : bytes.length using Nat.strong_induction_on generalizing bytes with
  | _ bound ih =>
      cases bytes with
      | nil =>
          rw [utf8Decode]
          exact .inl (Nat.zero_le _)
      | cons first rest =>
          rw [List.length_cons] at size
          have cost := weight_decodeCode first rest
          rw [utf8Decode]
          by_cases whole : (decodeCode first.toNat rest).2 ≤ rest.length
          · have split := List.take_append_drop (decodeCode first.toNat rest).2 rest
            have taken := List.length_take_of_le whole
            have short := List.length_drop (l := rest) (i := (decodeCode first.toNat rest).2)
            rcases ih _ (by omega) (rest.drop (decodeCode first.toNat rest).2) rfl with
              light | ⟨before, front, last, tail, same, light, cut, decoded⟩
            · rw [weight_append]
              exact .inl (by omega)
            · refine .inr ⟨fromCode (decodeCode first.toNat rest).1 ++ before,
                first :: rest.take (decodeCode first.toNat rest).2 ++ front, last, tail, ?_, ?_,
                  cut, ?_⟩
              · rw [List.cons_append, List.cons_append, List.append_assoc, ← same, split]
              · rw [weight_append, List.length_append, List.length_cons, taken]
                omega
              · rw [decoded, List.append_assoc]
          · refine .inr ⟨[], [], first, rest, rfl, le_rfl, by omega, ?_⟩
            rw [List.drop_eq_nil_of_le (by omega), utf8Decode, List.append_nil, List.nil_append]

/-- The last character of the standard is read, or it replaces. -/
theorem lossy_last (bytes : Bytes) :
    bytes = [] ∨
    ∃ (before : CodeUnits) (front part : Bytes) (symbol : Char), bytes = front ++ part ∧
      textUnits (fromUtf8Lossy bytes) = before ++ charUnits symbol ∧
      (part = String.utf8EncodeChar symbol ∨ symbol = '\uFFFD') := by
  induction size : bytes.length using Nat.strong_induction_on generalizing bytes with
  | _ bound ih =>
      have step {part rest : Bytes} {symbol : Char} (filled : 0 < part.length)
          (same : bytes = part ++ rest) (lossy : fromUtf8Lossy bytes = symbol :: fromUtf8Lossy rest)
          (read : part = String.utf8EncodeChar symbol ∨ symbol = '\uFFFD') :
          bytes = [] ∨ ∃ (before : CodeUnits) (front part : Bytes) (symbol : Char),
            bytes = front ++ part ∧ textUnits (fromUtf8Lossy bytes) = before ++ charUnits symbol ∧
            (part = String.utf8EncodeChar symbol ∨ symbol = '\uFFFD') := by
        have shorter := congrArg List.length same
        rw [List.length_append] at shorter
        refine .inr ?_
        rcases ih rest.length (by omega) rest rfl with
          rfl | ⟨before, front, last, char, cut, decoded, kind⟩
        · refine ⟨[], [], part, symbol, ?_, ?_, read⟩
          · rw [same, List.append_nil, List.nil_append]
          · rw [lossy, fromUtf8Lossy, dif_pos rfl]
            exact List.append_nil _
        · refine ⟨charUnits symbol ++ before, part ++ front, last, char, ?_, ?_, kind⟩
          · rw [same, cut, List.append_assoc]
          · rw [lossy, List.append_assoc, ← decoded]
            rfl
      rcases lossy_cases bytes with empty | ⟨symbol, rest, same, lossy⟩ | ⟨filled, -, lossy⟩
      · exact .inl empty
      · have positive := symbol.utf8Size_pos
        rw [← String.length_utf8EncodeChar] at positive
        exact step positive same lossy (.inl rfl)
      · have positive := invalidLength_pos bytes
        have inside := invalidLength_le filled
        exact step (by rw [List.length_take_of_le inside.1]; exact positive)
          (List.take_append_drop (invalidLength bytes) bytes).symm lossy (.inr rfl)

/-- Strings with the same last units end with the same code, or a unit is half of a pair. -/
theorem fromCode_last {before behind : CodeUnits} {code : Nat} {symbol : Char}
    (small : code < 0x200000) (same : before ++ fromCode code = behind ++ charUnits symbol) :
    code = symbol.toNat ∨
    code < 0x10000 ∧ 0x10000 ≤ symbol.toNat ∧ code = 0xDC00 + (symbol.toNat - 0x10000) % 0x400 := by
  have bounds := toNat_bounds symbol
  have unit {first second : Nat} (one : first < 0x10000) (two : second < 0x10000)
      (equal : UInt16.ofNat first = UInt16.ofNat second) : first = second := by
    rw [← UInt16.toNat_inj, toNat_ofNat_of_lt one, toNat_ofNat_of_lt two] at equal
    exact equal
  have single {first second : UInt16} {left right : CodeUnits}
      (equal : left ++ [first] = right ++ [second]) : first = second :=
    (List.cons.inj (List.append_inj' equal rfl).2).1
  have double {first second third fourth : UInt16} {left right : CodeUnits}
      (equal : left ++ [first, second] = right ++ [third, fourth]) :
      first = third ∧ second = fourth := by
    have pair := List.cons.inj (List.append_inj' equal rfl).2
    exact ⟨pair.1, (List.cons.inj pair.2).1⟩
  rw [← fromCode_toNat, fromCode_eq, fromCode_eq] at same
  by_cases plane : code < 0x10000
  · by_cases other : symbol.toNat < 0x10000
    · rw [if_pos plane, if_pos other] at same
      exact .inl (unit plane other (single same))
    · rw [if_pos plane, if_neg other] at same
      have last := single (same.trans (List.append_cons _ _ _))
      exact .inr ⟨plane, by omega, unit plane (by omega) last⟩
  · by_cases other : symbol.toNat < 0x10000
    · rw [if_neg plane, if_pos other] at same
      have last := single ((List.append_cons _ _ _).symm.trans same)
      have equal := unit (by omega) other last
      omega
    · rw [if_neg plane, if_neg other] at same
      have high := unit (by omega) (by omega) (double same).1
      have low := unit (by omega) (by omega) (double same).2
      omega

/-- A group at which the input ends has no low bits, so it is no replacement character. -/
theorem cut_ne_replacement {first : UInt8} {tail : Bytes}
    (cut : tail.length < (decodeCode first.toNat tail).2) :
    ¬ ((decodeCode first.toNat tail).1 = '\uFFFD'.toNat ∨
      (decodeCode first.toNat tail).1 < 0x10000 ∧ 0x10000 ≤ '\uFFFD'.toNat ∧
        (decodeCode first.toNat tail).1 = 0xDC00 + ('\uFFFD'.toNat - 0x10000) % 0x400) := by
  have number : '\uFFFD'.toNat = 0xFFFD := rfl
  have missing (index : Nat) (behind : tail.length ≤ index) : lowBits tail index = 0 := by
    rw [lowBits_eq, List.getD_eq_getElem?_getD, List.getElem?_eq_none behind]
    rfl
  rw [number]
  rw [decodeCode_eq] at cut ⊢
  split_ifs at cut ⊢ with plain double triple
  · cases cut
  · have zero := missing 0 (by omega)
    omega
  · have one := missing 1 (by omega)
    omega
  · have two := missing 2 (by omega)
    omega

/-- The last bytes of a character hold its last digits. -/
theorem last_bytes (number : Nat) (large : 0x80 ≤ number) (small : number < 0x200000) :
    ∃ rest, (encodeCode number).reverse = UInt8.ofNat (0x80 + number % 64) :: rest ∧
      (0x800 ≤ number → ∃ rest', rest = UInt8.ofNat (0x80 + number / 64 % 64) :: rest' ∧
        (0x10000 ≤ number → ∃ last, rest' = [UInt8.ofNat (0x80 + number / 4096 % 64), last])) := by
  rw [encodeCode_eq small, if_neg (by omega)]
  split_ifs with two three
  · exact ⟨_, rfl, fun long => by omega⟩
  · exact ⟨_, rfl, fun _ => ⟨_, rfl, fun long => by omega⟩⟩
  · exact ⟨_, rfl, fun _ => ⟨_, rfl, fun _ => ⟨_, rfl⟩⟩⟩

/-- A group at which the input ends costs its bytes when the standard reads the same there. -/
theorem weight_cut {front behind : Bytes} {first : UInt8} {tail : Bytes} {number : Nat}
    (same : front ++ first :: tail = behind ++ encodeCode number) (small : number < 0x110000)
    (cut : tail.length < (decodeCode first.toNat tail).2)
    (codes : (decodeCode first.toNat tail).1 = number ∨
      (decodeCode first.toNat tail).1 < 0x10000 ∧ 0x10000 ≤ number ∧
        (decodeCode first.toNat tail).1 = 0xDC00 + (number - 0x10000) % 0x400) :
    weight (fromCode (decodeCode first.toNat tail).1) ≤ 1 + tail.length := by
  have bound := first.toNat_lt
  have byte {value : Nat} (small : value < 256) : (UInt8.ofNat value).toNat = value := by
    rw [UInt8.toNat_ofNat']
    exact Nat.mod_eq_of_lt small
  have marks := decodeCode_eq first tail
  rw [weight_fromCode (decodeCode_lt first tail)]
  by_cases light : number < 0x80
  · rw [if_pos (by omega), if_pos (by omega)]
    exact Nat.le_add_right 1 _
  obtain ⟨rest, last, more⟩ := last_bytes number (by omega) (by omega)
  have ends := congrArg List.reverse same
  rw [List.reverse_append, List.reverse_append, last, List.reverse_cons] at ends
  rcases tail with - | ⟨second, - | ⟨third, - | ⟨fourth, tail⟩⟩⟩
  · have one := congrArg UInt8.toNat (List.cons.inj ends).1
    rw [byte (by omega)] at one
    rw [marks] at cut codes ⊢
    simp only [lowBits_nil, List.length_nil] at *
    split_ifs at * <;> dsimp only at * <;> omega
  · have one := congrArg UInt8.toNat (List.cons.inj ends).1
    rw [byte (by omega)] at one
    rw [marks] at cut codes ⊢
    by_cases long : 0x800 ≤ number
    · obtain ⟨rest', there, -⟩ := more long
      rw [there] at ends
      have two := congrArg UInt8.toNat (List.cons.inj (List.cons.inj ends).2).1
      rw [byte (by omega)] at two
      simp only [lowBits_nil, lowBits_zero, lowBits_succ, List.length_cons, List.length_nil] at *
      split_ifs at * <;> dsimp only at * <;> omega
    · simp only [lowBits_nil, lowBits_zero, lowBits_succ, List.length_cons, List.length_nil] at *
      split_ifs at * <;> dsimp only at * <;> omega
  · have one := congrArg UInt8.toNat (List.cons.inj ends).1
    rw [byte (by omega)] at one
    by_cases long : 0x10000 ≤ number
    · rw [marks] at cut codes ⊢
      obtain ⟨rest', there, full⟩ := more (by omega)
      obtain ⟨lead, rfl⟩ := full long
      rw [there] at ends
      have two := congrArg UInt8.toNat (List.cons.inj (List.cons.inj ends).2).1
      have three := congrArg UInt8.toNat (List.cons.inj (List.cons.inj (List.cons.inj ends).2).2).1
      rw [byte (by omega)] at two three
      simp only [lowBits_nil, lowBits_zero, lowBits_succ, List.length_cons, List.length_nil] at *
      split_ifs at * <;> dsimp only at * <;> omega
    · simp only [List.length_cons, List.length_nil] at *
      split_ifs <;> omega
  · rw [marks] at cut
    simp only [List.length_cons] at cut
    split_ifs at cut <;> omega

/-- A suffix on which the guest agrees with the standard is everything. -/
theorem length_le_of_agree {short long : Bytes} (suffix : short <:+ long)
    (same : utf8Decode short = textUnits (fromUtf8Lossy long)) : long.length ≤ short.length := by
  have cost := length_le_weight long
  rw [← same] at cost
  rcases decode_tail short with light | ⟨before, front, first, tail, here, light, cut, decoded⟩
  · exact cost.trans light
  · obtain ⟨lead, whole⟩ := suffix
    have last : weight (fromCode (decodeCode first.toNat tail).1) ≤ 1 + tail.length := by
      rcases lossy_last long with rfl | ⟨units, behind, part, symbol, there, lossy, read⟩
      · rw [here] at whole
        simp at whole
      · have small := decodeCode_lt first tail
        have bounds := toNat_bounds symbol
        rw [decoded, lossy] at same
        have codes := fromCode_last small same
        rcases read with rfl | rfl
        · rw [here, ← List.append_assoc, there, ← encodeCode_toNat] at whole
          exact weight_cut whole (by omega) cut codes
        · exact absurd codes (cut_ne_replacement cut)
    rw [decoded, weight_append] at cost
    rw [here, List.length_append, List.length_cons]
    omega

/-- The guest reads more bytes for a replacement character than an invalid part has. -/
theorem invalidLength_lt {first : UInt8} {rest : Bytes}
    (invalid : (first :: rest).toByteArray.utf8DecodeChar? 0 = none)
    (code : (decodeCode first.toNat rest).1 = 0xFFFD) :
    invalidLength (first :: rest) ≤ (decodeCode first.toNat rest).2 ∧
      (decodeCode first.toNat rest).2 ≤ rest.length := by
  have whole : (decodeCode first.toNat rest).2 ≤ rest.length := by
    by_contra cut
    exact cut_ne_replacement (Nat.lt_of_not_le cut) (.inl code)
  have inside := invalidLength_le (List.cons_ne_nil first rest)
  refine ⟨?_, whole⟩
  have bound := first.toNat_lt
  have zero := lowBits_lt rest 0
  have one := lowBits_lt rest 1
  rw [decodeCode_eq] at code whole ⊢
  split_ifs at code whole ⊢ with plain double triple
  · dsimp only at code
    omega
  · dsimp only at code
    omega
  · rcases rest with - | ⟨second, - | ⟨third, rest⟩⟩
    · cases whole
    · cases whole with
      | step whole => cases whole
    · dsimp only at code
      rw [lowBits_succ, lowBits_zero, lowBits_zero] at code
      by_contra long
      have lead : first = 0xEF := by
        rw [← UInt8.toNat_inj]
        change first.toNat = 239
        omega
      subst lead
      -- Three invalid bytes are the bytes of the replacement character.
      have parts : isContinuation second = true ∧ isContinuation third = true := by
        by_contra other
        refine long ?_
        change (if isContinuation second = true then if isContinuation third = true then 3 else 2
          else 1) ≤ 2
        split_ifs with continued last
        · exact absurd ⟨continued, last⟩ other
        · exact le_rfl
        · exact Nat.le_succ 1
      simp only [isContinuation, Bool.decide_and, Bool.and_eq_true, decide_eq_true_eq,
        UInt8.le_iff_toNat_le] at parts
      change (128 ≤ second.toNat ∧ second.toNat ≤ 191) ∧ 128 ≤ third.toNat ∧
        third.toNat ≤ 191 at parts
      have two : second = 0xBF := by
        rw [← UInt8.toNat_inj]
        change second.toNat = 191
        omega
      have three : third = 0xBD := by
        rw [← UInt8.toNat_inj]
        change third.toNat = 189
        omega
      subst two three
      have valid := ByteArray.utf8DecodeChar?_utf8EncodeChar_append (c := '\uFFFD')
        (b := rest.toByteArray)
      rw [← List.toByteArray_append] at valid
      exact Option.some_ne_none _ (valid.symm.trans invalid)
  · exact inside.2

/-- The guest agrees with the standard on valid bytes only. -/
theorem valid_of_agree {bytes : Bytes}
    (same : utf8Decode bytes = textUnits (fromUtf8Lossy bytes)) :
    ∃ text, bytes = textBytes text := by
  induction size : bytes.length using Nat.strong_induction_on generalizing bytes with
  | _ bound ih =>
      rcases lossy_cases bytes with rfl | ⟨symbol, rest, rfl, lossy⟩ | ⟨filled, invalid, lossy⟩
      · exact ⟨[], rfl⟩
      · have positive := symbol.utf8Size_pos
        rw [List.length_append, String.length_utf8EncodeChar] at size
        have first := utf8Decode_textBytes_append [symbol] rest
        rw [textBytes_cons, List.append_assoc] at first
        rw [lossy] at same
        have behind : utf8Decode rest = textUnits (fromUtf8Lossy rest) := by
          have both := first.symm.trans same
          simpa [textUnits] using both
        obtain ⟨text, valid⟩ := ih rest.length (by omega) behind rfl
        exact ⟨symbol :: text, by rw [valid, textBytes_cons]⟩
      · obtain ⟨first, rest, rfl⟩ := List.exists_cons_of_ne_nil filled
        rw [lossy, utf8Decode] at same
        have small := decodeCode_lt first rest
        have replaced : (decodeCode first.toNat rest).1 = 0xFFFD ∧
            utf8Decode (rest.drop (decodeCode first.toNat rest).2) =
              textUnits (fromUtf8Lossy ((first :: rest).drop (invalidLength (first :: rest)))) := by
          change _ = [UInt16.ofNat 0xFFFD] ++ _ at same
          rw [fromCode_eq] at same
          split_ifs at same with plane
          · have parts := List.append_inj same rfl
            have equal := congrArg UInt16.toNat (List.cons.inj parts.1).1
            rw [toNat_ofNat_of_lt plane] at equal
            exact ⟨equal, parts.2⟩
          · have equal := congrArg UInt16.toNat (List.cons.inj same).1
            rw [toNat_ofNat_of_lt (by omega)] at equal
            change _ = 0xFFFD at equal
            omega
        have lengths := invalidLength_lt invalid replaced.1
        have suffix := List.drop_suffix_drop_left (first :: rest) (Nat.le_succ_of_le lengths.1)
        have short := length_le_of_agree suffix replaced.2
        rw [List.drop_succ_cons, List.length_drop, List.length_drop, List.length_cons] at short
        omega

end Replacement

section Standard

theorem count_newline_char (symbol : Char) :
    (charUnits symbol).count 10 = (String.utf8EncodeChar symbol).count newline := by
  have bounds := toNat_bounds symbol
  by_cases ascii : symbol.toNat ≤ 0x7f
  · have unit : charUnits symbol = [UInt16.ofNat symbol.toNat] := if_pos (by omega)
    have byte : String.utf8EncodeChar symbol = [UInt8.ofNat symbol.toNat] := by
      rw [← encodeCode_toNat, encodeCode_eq (by omega), if_pos ascii]
      rfl
    have same : UInt16.ofNat symbol.toNat = 10 ↔ UInt8.ofNat symbol.toNat = newline := by
      rw [← UInt16.toNat_inj, ← UInt8.toNat_inj, toNat_ofNat_of_lt (by omega), UInt8.toNat_ofNat',
        Nat.mod_eq_of_lt (by omega)]
      rfl
    rw [unit, byte, List.count_singleton, List.count_singleton]
    simp only [beq_iff_eq, same]
  · have bytes : newline ∉ String.utf8EncodeChar symbol := fun inside => by
      have equal := toNat_eq_of_mem_utf8EncodeChar inside (by decide)
      change symbol.toNat = 10 at equal
      omega
    have units : 10 ∉ charUnits symbol := by
      unfold charUnits
      split_ifs with plane
      · rw [List.mem_singleton, ← UInt16.toNat_inj, toNat_ofNat_of_lt plane]
        change ¬ 10 = symbol.toNat
        omega
      · simp only [List.mem_cons, List.not_mem_nil, or_false, ← UInt16.toNat_inj]
        rw [toNat_ofNat_of_lt (by omega), toNat_ofNat_of_lt (by omega)]
        change ¬ (10 = _ ∨ 10 = _)
        omega
    rw [List.count_eq_zero.mpr bytes, List.count_eq_zero.mpr units]

theorem count_newline (text : Text) :
    (textUnits text).count 10 = (textBytes text).count newline := by
  induction text with
  | nil => rfl
  | cons symbol text ih =>
      change (charUnits symbol ++ textUnits text).count 10 = _
      rw [textBytes_cons, List.count_append, List.count_append, ih, count_newline_char]

/-- The encoder is standard exactly on paired surrogates, the decoder exactly on valid bytes. -/
theorem utf8_standard_iff (input : CodeUnits) (bytes : Bytes) :
    (utf8Encode input = textBytes (unitsText input) ∧ (∃ text, utf8Encode input = textBytes text) ∧
        utf8Decode (utf8Encode input) = input ↔ Paired input) ∧
      (utf8Decode bytes = textUnits (fromUtf8Lossy bytes) ∧
        (utf8Decode bytes).count 10 = bytes.count newline ↔ ∃ text, bytes = textBytes text) := by
  constructor
  · constructor
    · rintro ⟨-, ⟨text, valid⟩, -⟩
      exact paired_of_valid valid
    · intro paired
      have same := textUnits_unitsText paired
      have encoded := utf8Encode_textUnits (unitsText input)
      rw [same] at encoded
      exact ⟨encoded, ⟨_, encoded⟩, by rw [encoded, utf8Decode_textBytes, same]⟩
  · constructor
    · rintro ⟨same, -⟩
      exact valid_of_agree same
    · rintro ⟨text, rfl⟩
      rw [utf8Decode_textBytes, fromUtf8Lossy_textBytes]
      exact ⟨rfl, count_newline text⟩

/-- An unpaired surrogate is encoded as itself, and a cut character swallows a newline. -/
theorem utf8_not_standard :
    utf8Encode [0xD800] ≠ textBytes (unitsText [0xD800]) ∧
      utf8Decode [0xC3, 0x0A] ≠ textUnits (fromUtf8Lossy [0xC3, 0x0A]) ∧
      (utf8Decode [0xC3, 0x0A]).count 10 ≠ ([0xC3, 0x0A] : Bytes).count newline := by
  have decoded : utf8Decode [0xC3, 0x0A] = [0xCA] := by
    rw [utf8Decode]
    change [0xCA] ++ utf8Decode [] = _
    rw [utf8Decode]
    rfl
  have lossy : fromUtf8Lossy [0xC3, 0x0A] = '\uFFFD' :: fromUtf8Lossy [0x0A] := by
    rw [fromUtf8Lossy, dif_neg (by decide)]
    rfl
  have rest : fromUtf8Lossy [0x0A] = ['\n'] := fromUtf8Lossy_textBytes ['\n']
  rw [decoded, lossy, rest]
  decide

end Standard

end TinySandbox.Js.Guest
