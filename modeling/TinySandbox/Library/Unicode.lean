/-
This file gives strings of 16-bit code units, the texts that they stand for, and the bytes of the
characters of a text.
-/

import Mathlib.Tactic

namespace TinySandbox.Library

def isHighSurrogate (unit : UInt16) : Bool := 0xD800 ≤ unit.toNat ∧ unit.toNat ≤ 0xDBFF

def isLowSurrogate (unit : UInt16) : Bool := 0xDC00 ≤ unit.toNat ∧ unit.toNat ≤ 0xDFFF

def isSurrogate (unit : UInt16) : Bool := 0xD800 ≤ unit.toNat ∧ unit.toNat ≤ 0xDFFF

/-- A character above the first plane has a pair of surrogates. -/
def charUnits (symbol : Char) : List UInt16 :=
  if symbol.toNat < 0x10000 then [UInt16.ofNat symbol.toNat]
  else [UInt16.ofNat (0xD800 + (symbol.toNat - 0x10000) / 0x400),
    UInt16.ofNat (0xDC00 + (symbol.toNat - 0x10000) % 0x400)]

def textUnits (text : List Char) : List UInt16 := text.flatMap charUnits

/-- An unpaired surrogate stands for the replacement character. -/
def unitChar (unit : UInt16) : Char :=
  if isSurrogate unit then '\uFFFD' else Char.ofNat unit.toNat

def pairChar (high low : UInt16) : Char :=
  Char.ofNat (0x10000 + (high.toNat - 0xD800) * 0x400 + (low.toNat - 0xDC00))

def unitsText : List UInt16 → List Char
  | [] => []
  | [unit] => [unitChar unit]
  | first :: second :: rest =>
      if isHighSurrogate first ∧ isLowSurrogate second then pairChar first second :: unitsText rest
      else unitChar first :: unitsText (second :: rest)

/-- Every surrogate is part of a pair. -/
def Paired : List UInt16 → Prop
  | [] => True
  | [unit] => isSurrogate unit = false
  | first :: second :: rest =>
      if isHighSurrogate first ∧ isLowSurrogate second then Paired rest
      else isSurrogate first = false ∧ Paired (second :: rest)

section Units
variable {symbol : Char} {unit high low : UInt16} {units rest : List UInt16}

theorem isHighSurrogate_iff :
    isHighSurrogate unit = true ↔ 0xD800 ≤ unit.toNat ∧ unit.toNat ≤ 0xDBFF := by
  simp [isHighSurrogate]

theorem isLowSurrogate_iff :
    isLowSurrogate unit = true ↔ 0xDC00 ≤ unit.toNat ∧ unit.toNat ≤ 0xDFFF := by
  simp [isLowSurrogate]

theorem isSurrogate_iff : isSurrogate unit = true ↔ 0xD800 ≤ unit.toNat ∧ unit.toNat ≤ 0xDFFF := by
  simp [isSurrogate]

/-- The number of a character is no surrogate. -/
theorem toNat_bounds (symbol : Char) :
    symbol.toNat < 0xD800 ∨ 0xDFFF < symbol.toNat ∧ symbol.toNat < 0x110000 := symbol.valid

theorem toNat_ofNat_of_lt {value : Nat} (fits : value < 0x10000) :
    (UInt16.ofNat value).toNat = value := by
  rw [UInt16.toNat_ofNat']
  exact Nat.mod_eq_of_lt fits

theorem toNat_charOfNat {value : Nat}
    (valid : value < 0xD800 ∨ 0xDFFF < value ∧ value < 0x110000) :
    (Char.ofNat value).toNat = value := by
  unfold Char.ofNat
  rw [dif_pos valid]
  rfl

theorem toNat_unitChar (plain : isSurrogate unit = false) : (unitChar unit).toNat = unit.toNat := by
  have bound := unit.toNat_lt
  have outside := mt isSurrogate_iff.mpr (Bool.eq_false_iff.mp plain)
  unfold unitChar
  rw [if_neg (Bool.eq_false_iff.mp plain), toNat_charOfNat (by omega)]

theorem toNat_pairChar (first : isHighSurrogate high = true) (second : isLowSurrogate low = true) :
    (pairChar high low).toNat = 0x10000 + (high.toNat - 0xD800) * 0x400 + (low.toNat - 0xDC00) := by
  rw [isHighSurrogate_iff] at first
  rw [isLowSurrogate_iff] at second
  unfold pairChar
  rw [toNat_charOfNat (by omega)]

theorem charUnits_unitChar (plain : isSurrogate unit = false) :
    charUnits (unitChar unit) = [unit] := by
  have bound := unit.toNat_lt
  unfold charUnits
  rw [toNat_unitChar plain, if_pos bound, UInt16.ofNat_toNat]

theorem charUnits_pairChar (first : isHighSurrogate high = true)
    (second : isLowSurrogate low = true) :
    charUnits (pairChar high low) = [high, low] := by
  have code := toNat_pairChar first second
  rw [isHighSurrogate_iff] at first
  rw [isLowSurrogate_iff] at second
  have above : ¬ (pairChar high low).toNat < 0x10000 := by omega
  have one : UInt16.ofNat (0xD800 + ((pairChar high low).toNat - 0x10000) / 0x400) = high := by
    rw [← UInt16.toNat_inj, toNat_ofNat_of_lt (by omega)]
    omega
  have two : UInt16.ofNat (0xDC00 + ((pairChar high low).toNat - 0x10000) % 0x400) = low := by
    rw [← UInt16.toNat_inj, toNat_ofNat_of_lt (by omega)]
    omega
  unfold charUnits
  rw [if_neg above, one, two]

/-- The units of a character are one unit or a pair. -/
theorem charUnits_cases (symbol : Char) :
    (∃ unit, charUnits symbol = [unit] ∧ isSurrogate unit = false ∧ unitChar unit = symbol) ∨
    ∃ high low, charUnits symbol = [high, low] ∧ isHighSurrogate high = true ∧
      isLowSurrogate low = true ∧ pairChar high low = symbol := by
  have bounds := toNat_bounds symbol
  unfold charUnits
  by_cases plane : symbol.toNat < 0x10000
  · have same := toNat_ofNat_of_lt plane
    have plain : isSurrogate (UInt16.ofNat symbol.toNat) = false := by
      rw [Bool.eq_false_iff, ne_eq, isSurrogate_iff, same]
      omega
    refine .inl ⟨_, if_pos plane, plain, Char.toNat_inj.mp ?_⟩
    rw [toNat_unitChar plain, same]
  · have first : (UInt16.ofNat (0xD800 + (symbol.toNat - 0x10000) / 0x400)).toNat =
        0xD800 + (symbol.toNat - 0x10000) / 0x400 := toNat_ofNat_of_lt (by omega)
    have second : (UInt16.ofNat (0xDC00 + (symbol.toNat - 0x10000) % 0x400)).toNat =
        0xDC00 + (symbol.toNat - 0x10000) % 0x400 := toNat_ofNat_of_lt (by omega)
    have high : isHighSurrogate (UInt16.ofNat (0xD800 + (symbol.toNat - 0x10000) / 0x400)) =
        true := by
      rw [isHighSurrogate_iff, first]
      omega
    have low : isLowSurrogate (UInt16.ofNat (0xDC00 + (symbol.toNat - 0x10000) % 0x400)) =
        true := by
      rw [isLowSurrogate_iff, second]
      omega
    refine .inr ⟨_, _, if_neg plane, high, low, Char.toNat_inj.mp ?_⟩
    rw [toNat_pairChar high low, first, second]
    omega

theorem not_high_of_plain (plain : isSurrogate unit = false) : isHighSurrogate unit = false := by
  have outside := mt isSurrogate_iff.mpr (Bool.eq_false_iff.mp plain)
  rw [Bool.eq_false_iff, ne_eq, isHighSurrogate_iff]
  omega

theorem unitsText_plain (plain : isSurrogate unit = false) :
    unitsText (unit :: rest) = unitChar unit :: unitsText rest := by
  cases rest with
  | nil => rfl
  | cons second rest =>
      rw [unitsText, if_neg]
      simp [not_high_of_plain plain]

theorem unitsText_pair (first : isHighSurrogate high = true) (second : isLowSurrogate low = true) :
    unitsText (high :: low :: rest) = pairChar high low :: unitsText rest := by
  rw [unitsText, if_pos ⟨first, second⟩]

theorem paired_plain (plain : isSurrogate unit = false) : Paired (unit :: rest) ↔ Paired rest := by
  cases rest with
  | nil => exact iff_of_true plain trivial
  | cons second rest =>
      rw [Paired, if_neg (by simp [not_high_of_plain plain])]
      exact and_iff_right plain

theorem paired_pair (first : isHighSurrogate high = true) (second : isLowSurrogate low = true) :
    Paired (high :: low :: rest) ↔ Paired rest := by
  rw [Paired, if_pos ⟨first, second⟩]

/-- A string starts with a plain unit, with a pair, or with an unpaired surrogate. -/
theorem units_cases (unit : UInt16) (rest : List UInt16) :
    isSurrogate unit = false ∨
    (∃ low tail, rest = low :: tail ∧ isHighSurrogate unit = true ∧ isLowSurrogate low = true) ∨
    isSurrogate unit = true ∧
      ¬ ∃ low tail, rest = low :: tail ∧ isHighSurrogate unit = true ∧ isLowSurrogate low =
        true := by
  cases plain : isSurrogate unit with
  | false => exact .inl rfl
  | true =>
      by_cases pair : ∃ low tail, rest = low :: tail ∧ isHighSurrogate unit = true ∧
          isLowSurrogate low = true
      · exact .inr (.inl pair)
      · exact .inr (.inr ⟨rfl, pair⟩)

/-- The texts of strings with only paired surrogates have these strings as their units. -/
theorem textUnits_unitsText (paired : Paired units) : textUnits (unitsText units) = units := by
  induction size : units.length using Nat.strong_induction_on generalizing units with
  | _ bound ih =>
      cases units with
      | nil => rfl
      | cons unit rest =>
          rw [List.length_cons] at size
          rcases units_cases unit rest with plain | ⟨low, tail, rfl, first, second⟩ | ⟨lone, none⟩
          · rw [paired_plain plain] at paired
            rw [unitsText_plain plain]
            change charUnits (unitChar unit) ++ textUnits (unitsText rest) = _
            rw [charUnits_unitChar plain, ih _ (by omega) paired rfl]
            rfl
          · rw [paired_pair first second] at paired
            rw [unitsText_pair first second]
            change charUnits (pairChar unit low) ++ textUnits (unitsText tail) = _
            rw [List.length_cons] at size
            rw [charUnits_pairChar first second, ih _ (by omega) paired rfl]
            rfl
          · cases rest with
            | nil =>
                rw [Paired, lone] at paired
                cases paired
            | cons second tail =>
                rw [Paired, if_neg (fun pair => none ⟨second, tail, rfl, pair⟩), lone] at paired
                cases paired.1

theorem unitsText_textUnits_append (text : List Char) (rest : List UInt16) :
    unitsText (textUnits text ++ rest) = text ++ unitsText rest := by
  induction text with
  | nil => rfl
  | cons symbol text ih =>
      change unitsText (charUnits symbol ++ textUnits text ++ rest) = symbol :: (text ++ _)
      rw [List.append_assoc, ← ih]
      rcases charUnits_cases symbol with ⟨unit, same, plain, char⟩ |
        ⟨high, low, same, first, second, char⟩
      · rw [same, ← char]
        exact unitsText_plain plain
      · rw [same, ← char]
        exact unitsText_pair first second

theorem paired_textUnits (text : List Char) : Paired (textUnits text) := by
  induction text with
  | nil => trivial
  | cons symbol text ih =>
      change Paired (charUnits symbol ++ textUnits text)
      rcases charUnits_cases symbol with ⟨unit, same, plain, -⟩ |
        ⟨high, low, same, first, second, -⟩
      · rw [same]
        exact (paired_plain plain).mpr ih
      · rw [same]
        exact (paired_pair first second).mpr ih

/-- A string has only paired surrogates when it is the string of a text. -/
theorem paired_iff : Paired units ↔ ∃ text, units = textUnits text := by
  constructor
  · intro paired
    exact ⟨unitsText units, (textUnits_unitsText paired).symm⟩
  · rintro ⟨text, rfl⟩
    exact paired_textUnits text

theorem paired_append {first second : List UInt16} (one : Paired first) (two : Paired second) :
    Paired (first ++ second) := by
  rw [paired_iff] at one two ⊢
  obtain ⟨left, rfl⟩ := one
  obtain ⟨right, rfl⟩ := two
  exact ⟨left ++ right, List.flatMap_append.symm⟩

theorem paired_of_plain (plain : ∀ unit ∈ units, isSurrogate unit = false) : Paired units := by
  induction units with
  | nil => trivial
  | cons unit units ih =>
      exact (paired_plain (plain unit List.mem_cons_self)).mpr
        (ih fun other inside => plain other (List.mem_cons_of_mem _ inside))

theorem plain_of_ascii (ascii : unit.toNat < 0x80) : isSurrogate unit = false := by
  rw [Bool.eq_false_iff, ne_eq, isSurrogate_iff]
  omega

theorem paired_of_ascii (ascii : ∀ unit ∈ units, unit.toNat < 0x80) : Paired units :=
  paired_of_plain fun unit inside => plain_of_ascii (ascii unit inside)

theorem unitsText_textUnits (text : List Char) : unitsText (textUnits text) = text := by
  have whole := unitsText_textUnits_append text []
  rwa [List.append_nil, unitsText, List.append_nil] at whole

theorem textUnits_injective : Function.Injective textUnits :=
  Function.LeftInverse.injective unitsText_textUnits

theorem textUnits_append (first second : List Char) :
    textUnits (first ++ second) = textUnits first ++ textUnits second := List.flatMap_append

/-- A character of ASCII is one unit. -/
theorem charUnits_ascii (ascii : symbol.toNat < 0x80) :
    charUnits symbol = [UInt16.ofNat symbol.toNat] := if_pos (by omega)

end Units

end TinySandbox.Library
