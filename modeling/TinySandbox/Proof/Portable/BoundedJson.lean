/-
This file shows that the counted bytes of a host response are the bytes of its JSON text.
-/

import TinySandbox.Proof.Js.Utf8
import TinySandbox.Specification.JsonTexts

namespace TinySandbox.Portable
open Library Js.Guest Sandbox

section Weights
variable {unit : UInt16} {text rest : CodeUnits}

theorem length_textBytes (text : Text) : (textBytes text).length = weight (textUnits text) := by
  induction text with
  | nil => rfl
  | cons symbol text ih =>
      change _ = weight (charUnits symbol ++ textUnits text)
      rw [textBytes_cons, List.length_append, weight_append, ih, length_utf8EncodeChar_eq]

theorem length_encoded (paired : Paired text) :
    (textBytes (unitsText text)).length = weight text := by
  rw [length_textBytes, textUnits_unitsText paired]

/-- A text is plain when each of its units is checked to be. -/
theorem ascii_units {part : CodeUnits} (checked : part.all (·.toNat < 0x80) = true) :
    ∀ unit ∈ part, unit.toNat < 0x80 :=
  fun unit inside => of_decide_eq_true (List.all_eq_true.mp checked unit inside)

theorem weight_ascii (ascii : ∀ unit ∈ text, unit.toNat < 0x80) : weight text = text.length := by
  induction text with
  | nil => rfl
  | cons unit text ih =>
      rw [weight_cons, ih fun other inside => ascii other (List.mem_cons_of_mem _ inside),
        List.length_cons, unitWeight, if_pos (ascii unit List.mem_cons_self), Nat.add_comm]

theorem startsPair_iff :
    startsPair unit rest = true ↔
      ∃ low tail, rest = low :: tail ∧ isHighSurrogate unit = true ∧ isLowSurrogate low = true := by
  cases rest with
  | nil => simp [startsPair]
  | cons next rest => simp [startsPair, isHighSurrogate, isLowSurrogate, and_assoc]

end Weights

section Lengths
variable {unit : UInt16} {rest : CodeUnits}

theorem startsPair_plain (plain : isSurrogate unit = false) : startsPair unit rest = false := by
  rw [Bool.eq_false_iff, ne_eq, startsPair_iff]
  rintro ⟨low, tail, -, high, -⟩
  rw [not_high_of_plain plain] at high
  cases high

theorem unitsText_alone (alone : startsPair unit rest = false) :
    unitsText (unit :: rest) = unitChar unit :: unitsText rest := by
  cases rest with
  | nil => rfl
  | cons next rest =>
      rw [unitsText, if_neg]
      intro pair
      rw [startsPair_iff.mpr ⟨next, rest, rfl, pair⟩] at alone
      cases alone

theorem weight_pair {low : UInt16} (high : isHighSurrogate unit = true)
    (last : isLowSurrogate low = true) : weight [unit, low] = 4 := by
  rw [isHighSurrogate_iff] at high
  rw [isLowSurrogate_iff] at last
  rw [weight_cons, weight_cons, weight_nil, unitWeight, if_neg (by omega), if_pos (by omega),
    unitWeight, if_neg (by omega), if_pos (by omega)]

theorem weight_plain (plain : isSurrogate unit = false) :
    weight [unit] =
      if unit.toNat < 0x80 then 1 else if unit.toNat < 0x800 then 2 else 3 := by
  have outside := mt isSurrogate_iff.mpr (Bool.eq_false_iff.mp plain)
  rw [weight_cons, weight_nil, unitWeight]
  split_ifs <;> omega

/-- A string starts with a plain unit, with a pair, or with an unpaired surrogate. -/
theorem starts_cases (unit : UInt16) (rest : CodeUnits) :
    isSurrogate unit = false ∧ startsPair unit rest = false ∨
    (∃ low tail, rest = low :: tail ∧ isHighSurrogate unit = true ∧ isLowSurrogate low = true ∧
      startsPair unit rest = true) ∨
    isSurrogate unit = true ∧ startsPair unit rest = false := by
  rcases units_cases unit rest with plain | ⟨low, tail, same, first, second⟩ | ⟨lone, none⟩
  · exact .inl ⟨plain, startsPair_plain plain⟩
  · exact .inr (.inl ⟨low, tail, same, first, second,
      startsPair_iff.mpr ⟨low, tail, same, first, second⟩⟩)
  · exact .inr (.inr ⟨lone, Bool.eq_false_iff.mpr (mt startsPair_iff.mp none)⟩)

/-- The counted bytes are the bytes of the next character. -/
theorem utf8Cost_eq (unit : UInt16) (rest : CodeUnits) :
    ∃ symbol, unitsText (unit :: rest) = symbol :: unitsText (rest.drop (utf8Cost unit rest).2) ∧
      weight (charUnits symbol) = (utf8Cost unit rest).1 := by
  unfold utf8Cost
  dsimp only
  rcases starts_cases unit rest with ⟨plain, alone⟩ | ⟨low, tail, rfl, first, second, pair⟩ |
    ⟨lone, alone⟩
  · refine ⟨unitChar unit, ?_, ?_⟩
    · rw [unitsText_alone alone]
      split_ifs with one two three
      · rfl
      · rfl
      · rw [alone] at three
        cases three
      · rfl
    · rw [charUnits_unitChar plain, weight_plain plain, alone]
      split_ifs <;> first | rfl | contradiction
  · have large := isHighSurrogate_iff.mp first
    rw [if_neg (by omega), if_neg (by omega), if_pos pair]
    refine ⟨pairChar unit low, unitsText_pair first second, ?_⟩
    rw [charUnits_pairChar first second, weight_pair first second]
  · have large := isSurrogate_iff.mp lone
    rw [if_neg (by omega), if_neg (by omega), if_neg (Bool.eq_false_iff.mp alone)]
    refine ⟨unitChar unit, unitsText_alone alone, ?_⟩
    unfold unitChar
    rw [if_pos lone]
    rfl

/-- The count is exact as long as the cap holds. -/
theorem utf8LengthFrom_eq (cap : Int) (input : CodeUnits) (bytes : Int) :
    let total := bytes + (textBytes (unitsText input)).length
    (total ≤ cap → utf8LengthFrom cap input bytes = total) ∧
      (cap < total → cap < utf8LengthFrom cap input bytes) := by
  dsimp only
  induction size : input.length using Nat.strong_induction_on generalizing input bytes with
  | _ bound ih =>
      cases input with
      | nil =>
          rw [utf8LengthFrom]
          change (bytes + (0 : Nat) ≤ cap → bytes = bytes + (0 : Nat)) ∧ _
          exact ⟨fun _ => (Int.add_zero bytes).symm, fun above => by
            simpa [unitsText, textBytes] using above⟩
      | cons unit rest =>
          rw [List.length_cons] at size
          obtain ⟨symbol, text, cost⟩ := utf8Cost_eq unit rest
          have short := List.length_drop (l := rest) (i := (utf8Cost unit rest).2)
          have behind := ih _ (by omega) (rest.drop (utf8Cost unit rest).2)
            (bytes + (utf8Cost unit rest).1) rfl
          rw [utf8LengthFrom, text, textBytes_cons, List.length_append, length_utf8EncodeChar_eq,
            cost]
          split_ifs with full
          · exact ⟨fun fits => by omega, fun _ => full⟩
          · push_cast
            rw [← Int.add_assoc]
            exact behind

end Lengths

section Quotes
variable {unit : UInt16} {rest : CodeUnits}

theorem hexDigits_ascii (code : Nat) : ∀ unit ∈ hexDigits code, unit.toNat < 0x80 := by
  have digit (value : Nat) : ((units "0123456789abcdef").getD value 0).toNat < 0x80 := by
    rcases Nat.lt_or_ge value 16 with small | large
    · have all : ∀ value < 16, ((units "0123456789abcdef").getD value 0).toNat < 0x80 := by
        decide
      exact all value small
    · rw [List.getD_eq_getElem?_getD, List.getElem?_eq_none large]
      decide
  intro unit inside
  obtain ⟨value, -, rfl⟩ := List.mem_map.mp inside
  exact digit value

theorem unicodeEscape_ascii (unit : UInt16) : ∀ other ∈ unicodeEscape unit, other.toNat < 0x80 := by
  intro other inside
  rcases List.mem_append.mp inside with mark | digit
  · have all : ∀ unit ∈ units "\\u", unit.toNat < 0x80 := ascii_units (by decide)
    exact all other mark
  · exact hexDigits_ascii _ other digit

theorem weight_unicodeEscape (unit : UInt16) : weight (unicodeEscape unit) = 6 :=
  weight_ascii (unicodeEscape_ascii unit)

/-- The quoted form of a unit is an escape, or it is the unit itself. -/
theorem quoteUnit_eq (unit : UInt16) (alone : startsPair unit rest = false) :
    Paired (quoteUnit unit) ∧ quotedCost unit rest = (weight (quoteUnit unit), 0) := by
  have code {value : UInt16} (other : unit ≠ value) : unit.toNat ≠ value.toNat :=
    mt UInt16.toNat_inj.mp other
  have short {value : UInt16} (same : unit = value) (two : quotedCost value rest = (2, 0))
      {escape : CodeUnits} (ascii : ∀ unit ∈ escape, unit.toNat < 0x80) (long : escape.length = 2) :
      Paired escape ∧ quotedCost unit rest = (weight escape, 0) := by
    rw [same, two, weight_ascii ascii, long]
    exact ⟨paired_of_ascii ascii, rfl⟩
  unfold quoteUnit
  split_ifs with quote backslash backspace tab newline feed carriage control
  · exact short quote rfl (ascii_units (by decide)) rfl
  · exact short backslash rfl (ascii_units (by decide)) rfl
  · exact short backspace rfl (ascii_units (by decide)) rfl
  · exact short tab rfl (ascii_units (by decide)) rfl
  · exact short newline rfl (ascii_units (by decide)) rfl
  · exact short feed rfl (ascii_units (by decide)) rfl
  · exact short carriage rfl (ascii_units (by decide)) rfl
  all_goals
    have named : ¬ (unit.toNat = 34 ∨ unit.toNat = 92 ∨ unit.toNat = 8 ∨ unit.toNat = 9 ∨
        unit.toNat = 10 ∨ unit.toNat = 12 ∨ unit.toNat = 13) := by
      simp only [not_or]
      exact ⟨code quote, code backslash, code backspace, code tab, code newline, code feed,
        code carriage⟩
    unfold quotedCost
    dsimp only
    rw [if_neg named, alone]
  · refine ⟨paired_of_ascii (unicodeEscape_ascii unit), ?_⟩
    rw [weight_unicodeEscape]
    rcases control with low | lone
    · rw [if_pos low]
    · have large := isSurrogate_iff.mp lone
      rw [if_neg (by omega), if_neg (by omega), if_neg (by omega), if_neg Bool.false_ne_true,
        if_pos large]
  · rw [not_or, Bool.not_eq_true] at control
    refine ⟨(paired_plain control.2).mpr trivial, ?_⟩
    have outside := mt isSurrogate_iff.mpr (Bool.eq_false_iff.mp control.2)
    rw [weight_plain control.2, if_neg control.1, if_neg Bool.false_ne_true, if_neg outside]
    split_ifs <;> rfl

theorem quotedCost_pair {low : UInt16} {tail : CodeUnits} (first : isHighSurrogate unit = true)
    (pair : startsPair unit (low :: tail) = true) :
    quotedCost unit (low :: tail) = (4, 1) := by
  have large := isHighSurrogate_iff.mp first
  unfold quotedCost
  dsimp only
  rw [if_neg (by omega), if_neg (by omega), if_neg (by omega), if_neg (by omega), if_pos pair]

theorem quoteUnits_alone (alone : startsPair unit rest = false) :
    quoteUnits (unit :: rest) = quoteUnit unit ++ quoteUnits rest := by
  cases rest with
  | nil => exact (List.append_nil _).symm
  | cons next rest =>
      rw [quoteUnits, if_neg]
      intro pair
      rw [startsPair_iff.mpr ⟨next, rest, rfl, pair⟩] at alone
      cases alone

/-- The counted bytes are the bytes of the quoted form of the next units. -/
theorem quotedCost_eq (unit : UInt16) (rest : CodeUnits) :
    ∃ part, quoteUnits (unit :: rest) = part ++ quoteUnits (rest.drop (quotedCost unit rest).2) ∧
      Paired part ∧ weight part = (quotedCost unit rest).1 := by
  rcases starts_cases unit rest with ⟨-, alone⟩ | ⟨low, tail, rfl, first, second, pair⟩ | ⟨-, alone⟩
  · obtain ⟨paired, cost⟩ := quoteUnit_eq unit alone
    exact ⟨quoteUnit unit, by rw [cost]; exact quoteUnits_alone alone, paired, by rw [cost]⟩
  · refine ⟨[unit, low], ?_, (paired_pair first second).mpr trivial, ?_⟩
    · rw [quotedCost_pair first pair, quoteUnits, if_pos ⟨first, second⟩]
      rfl
    · rw [quotedCost_pair first pair, weight_pair first second]
  · obtain ⟨paired, cost⟩ := quoteUnit_eq unit alone
    exact ⟨quoteUnit unit, by rw [cost]; exact quoteUnits_alone alone, paired, by rw [cost]⟩

theorem paired_quoteUnits (text : CodeUnits) : Paired (quoteUnits text) := by
  induction size : text.length using Nat.strong_induction_on generalizing text with
  | _ bound ih =>
      cases text with
      | nil => trivial
      | cons unit rest =>
          rw [List.length_cons] at size
          obtain ⟨part, same, paired, -⟩ := quotedCost_eq unit rest
          have short := List.length_drop (l := rest) (i := (quotedCost unit rest).2)
          rw [same]
          exact paired_append paired (ih _ (by omega) _ rfl)

theorem paired_quote (text : CodeUnits) : Paired (quote text) := by
  have mark : Paired (units "\"") := paired_of_ascii (ascii_units (by decide))
  exact paired_append (paired_append mark (paired_quoteUnits text)) mark

/-- The count is the length of the quoted form, or it stops because this length is too long. -/
theorem countQuoted_eq (cap bytes : Int) (text : CodeUnits) (length : Nat) :
    countQuoted cap bytes text length = .ok (length + weight (quoteUnits text)) ∨
      countQuoted cap bytes text length = .error .limit ∧
        cap - bytes < (length + weight (quoteUnits text) : Nat) := by
  induction size : text.length using Nat.strong_induction_on generalizing text length with
  | _ bound ih =>
      cases text with
      | nil =>
          rw [countQuoted]
          exact .inl rfl
      | cons unit rest =>
          rw [List.length_cons] at size
          obtain ⟨part, same, -, cost⟩ := quotedCost_eq unit rest
          have short := List.length_drop (l := rest) (i := (quotedCost unit rest).2)
          have behind := ih _ (by omega) (rest.drop (quotedCost unit rest).2)
            (length + (quotedCost unit rest).1) rfl
          rw [countQuoted, same, weight_append, cost, ← Nat.add_assoc]
          split_ifs with full
          · exact .inr ⟨rfl, by omega⟩
          · exact behind

theorem weight_quote (text : CodeUnits) : weight (quote text) = 2 + weight (quoteUnits text) := by
  unfold quote
  rw [weight_append, weight_append, show weight (units "\"") = 1 from rfl]
  omega

end Quotes

section Writer
variable {cap : Int}

/-- The action adds the parts when they fit under the cap. -/
def Emits (cap : Int) (action : Output → Except ResponseError Output) (parts : List CodeUnits) :
    Prop :=
  ∀ output : Output, output.bytes ≤ cap →
    action output =
      if output.bytes + weight parts.flatten ≤ cap then
        .ok { parts := output.parts ++ parts, bytes := output.bytes + weight parts.flatten }
      else .error .limit

theorem emits_nothing : Emits cap .ok [] := by
  intro output fits
  rw [List.flatten_nil, weight_nil, List.append_nil, if_pos (by simpa using fits)]
  simp

theorem Emits.bind {first second : Output → Except ResponseError Output}
    {left right : List CodeUnits} (one : Emits cap first left) (two : Emits cap second right) :
    Emits cap (fun output => first output >>= second) (left ++ right) := by
  intro output fits
  dsimp only
  rw [one output fits, List.flatten_append, weight_append]
  split_ifs with here there there
  · change second _ = _
    rw [two _ here]
    dsimp only
    rw [if_pos (by push_cast at there; omega), List.append_assoc]
    push_cast
    rw [Int.add_assoc]
  · change second _ = _
    rw [two _ here]
    exact if_neg (by push_cast at there ⊢; omega)
  · push_cast at there
    omega
  · rfl

theorem emits_append {part : CodeUnits} {length : Nat} (counted : weight part = length) :
    Emits cap (append cap part length) [part] := by
  intro output fits
  unfold append
  rw [List.flatten_singleton, counted]
  split_ifs <;> first | rfl | omega

theorem emits_units {part : CodeUnits} (ascii : ∀ unit ∈ part, unit.toNat < 0x80) :
    Emits cap (appendUnits cap part) [part] := emits_append (weight_ascii ascii)

theorem emits_string (text : CodeUnits) : Emits cap (appendString cap text) [quote text] := by
  intro output fits
  unfold appendString
  rcases countQuoted_eq cap output.bytes text 2 with counted | ⟨stopped, long⟩
  · rw [counted]
    exact emits_append (weight_quote text) output fits
  · rw [stopped, List.flatten_singleton, weight_quote, if_neg (by omega)]
    rfl

/-- The action writes the text, and the text can be encoded. -/
def Writes (cap : Int) (action : Output → Except ResponseError Output) (text : CodeUnits) : Prop :=
  Paired text ∧ ∃ parts, Emits cap action parts ∧ parts.flatten = text

theorem Writes.bind {first second : Output → Except ResponseError Output} {left right : CodeUnits}
    (one : Writes cap first left) (two : Writes cap second right) :
    Writes cap (fun output => first output >>= second) (left ++ right) := by
  obtain ⟨pairedLeft, leftParts, emitsLeft, rfl⟩ := one
  obtain ⟨pairedRight, rightParts, emitsRight, rfl⟩ := two
  exact ⟨paired_append pairedLeft pairedRight, _, emitsLeft.bind emitsRight, List.flatten_append⟩

theorem writes_nothing : Writes cap .ok [] := ⟨trivial, [], emits_nothing, rfl⟩

theorem writes_units {part : CodeUnits} (ascii : ∀ unit ∈ part, unit.toNat < 0x80) :
    Writes cap (appendUnits cap part) part :=
  ⟨paired_of_ascii ascii, [part], emits_units ascii, List.flatten_singleton⟩

theorem writes_string (text : CodeUnits) : Writes cap (appendString cap text) (quote text) :=
  ⟨paired_quote text, [quote text], emits_string text, List.flatten_singleton⟩

/-- The texts with a comma between them, and with a comma before them unless they come first. -/
def joined (first : Bool) (texts : List CodeUnits) : CodeUnits :=
  if first then (units ",").intercalate texts else texts.flatMap (units "," ++ ·)

theorem joined_nil (first : Bool) : joined first [] = [] := by
  cases first <;> rfl

theorem joined_cons (first : Bool) (text : CodeUnits) (texts : List CodeUnits) :
    joined first (text :: texts) =
      (if first then [] else units ",") ++ (text ++ joined false texts) := by
  cases first with
  | false => exact List.append_assoc _ _ _
  | true =>
      change (units ",").intercalate (text :: texts) = text ++ texts.flatMap (units "," ++ ·)
      induction texts generalizing text with
      | nil => simp [List.intercalate]
      | cons next texts ih =>
          have step : (units ",").intercalate (text :: next :: texts) =
              text ++ (units "," ++ (units ",").intercalate (next :: texts)) := rfl
          rw [step, ih next, List.flatMap_cons, List.append_assoc]

theorem writes_comma (first : Bool) :
    Writes cap (fun output => if first then .ok output else appendUnits cap (units ",") output)
      (if first then [] else units ",") := by
  cases first with
  | false => exact writes_units (ascii_units (by decide))
  | true => exact writes_nothing

/-- Values are written from their items outwards. -/
theorem json_induction {motive : Json → Prop} (undefined : motive .undefined) (null : motive .null)
    (bool : ∀ value, motive (.bool value)) (number : ∀ value, motive (.number value))
    (string : ∀ text, motive (.string text))
    (array : ∀ items, (∀ item ∈ items, motive item) → motive (.array items))
    (object : ∀ members, (∀ member ∈ members, motive member.2) → motive (.object members)) :
    ∀ value, motive value
  | .undefined => undefined
  | .null => null
  | .bool value => bool value
  | .number value => number value
  | .string text => string text
  | .array items => array items fun item _ =>
      json_induction undefined null bool number string array object item
  | .object members => object members fun member _ =>
      json_induction undefined null bool number string array object member.2
termination_by value => sizeOf value
decreasing_by
  · have smaller := List.sizeOf_lt_of_mem ‹item ∈ items›
    rw [Json.array.sizeOf_spec]
    omega
  · have smaller := List.sizeOf_lt_of_mem ‹member ∈ members›
    rw [Json.object.sizeOf_spec]
    rw [Prod.mk.sizeOf_spec] at smaller
    omega

/-- A value with few levels below the depth is written with its text. -/
def Written (cap : Int) (value : Json) : Prop :=
  ∀ depth, value.isUndefined = false → depth + value.levels ≤ 256 →
    Writes cap (write cap value depth) value.text

theorem writes_items {items : List Json} (written : ∀ item ∈ items, Written cap item) (first : Bool)
    {depth : Nat} (shallow : depth + itemLevels items ≤ 256) :
    Writes cap (writeItems cap first items depth) (joined first (itemTexts items)) := by
  induction items generalizing first with
  | nil =>
      rw [itemTexts, joined_nil]
      exact writes_nothing
  | cons entry rest ih =>
      rw [itemLevels] at shallow
      have behind := ih (fun item inside => written item (List.mem_cons_of_mem _ inside)) false
        (by omega)
      have here : Writes cap (fun output => if entry.isUndefined then
          appendUnits cap (units "null") output else write cap entry (depth + 1) output)
          entry.text := by
        cases defined : entry.isUndefined with
        | true =>
            cases entry with
            | undefined => exact writes_units (ascii_units (by decide))
            | _ => cases defined
        | false =>
            rw [if_neg (Bool.eq_false_iff.mp defined)] at shallow
            exact written entry List.mem_cons_self (depth + 1) defined (by omega)
      have step : writeItems cap first (entry :: rest) depth = fun output =>
          (if first then .ok output else appendUnits cap (units ",") output) >>= fun output =>
            (if entry.isUndefined then appendUnits cap (units "null") output
              else write cap entry (depth + 1) output) >>= writeItems cap false rest depth := by
        funext output
        rw [writeItems]
        split_ifs <;> rfl
      rw [itemTexts, joined_cons, step]
      exact (writes_comma first).bind (here.bind behind)

theorem writes_members {members : List (CodeUnits × Json)}
    (written : ∀ member ∈ members, Written cap member.2) (first : Bool) {depth : Nat}
    (shallow : depth + memberLevels members ≤ 256) :
    Writes cap (writeMembers cap first members depth) (joined first (memberTexts members)) := by
  induction members generalizing first with
  | nil =>
      rw [memberTexts, joined_nil]
      exact writes_nothing
  | cons member rest ih =>
      obtain ⟨key, entry⟩ := member
      rw [memberLevels] at shallow
      have behind (first : Bool) : Writes cap (writeMembers cap first rest depth)
          (joined first (memberTexts rest)) :=
        ih (fun item inside => written item (List.mem_cons_of_mem _ inside)) first (by omega)
      cases defined : entry.isUndefined with
      | true =>
          have step : writeMembers cap first ((key, entry) :: rest) depth =
              writeMembers cap first rest depth := by
            funext output
            rw [writeMembers, if_pos defined]
          rw [memberTexts, if_pos defined, step]
          exact behind first
      | false =>
          have absent := Bool.eq_false_iff.mp defined
          have step : writeMembers cap first ((key, entry) :: rest) depth = fun output =>
              (if first then .ok output else appendUnits cap (units ",") output) >>= fun output =>
                (appendString cap key output >>= fun output =>
                  appendUnits cap (units ":") output >>= fun output =>
                    write cap entry (depth + 1) output) >>= writeMembers cap false rest depth := by
            funext output
            rw [writeMembers, if_neg absent]
            simp only [bind_assoc]
            split_ifs <;> rfl
          rw [if_neg absent] at shallow
          have here := written (key, entry) List.mem_cons_self (depth + 1) defined
            (by dsimp only; omega)
          have colon : Writes cap (appendUnits cap (units ":")) (units ":") :=
            writes_units (ascii_units (by decide))
          have member := (writes_string key).bind (colon.bind here)
          rw [memberTexts, if_neg absent, joined_cons, step, List.append_assoc (quote key)]
          exact (writes_comma first).bind (member.bind (behind false))

theorem write_object (members : List (CodeUnits × Json)) {depth : Nat} (shallow : depth ≤ 256) :
    write cap (.object members) depth = fun output =>
      appendUnits cap (units "\x7b") output >>= fun output =>
        writeMembers cap true members depth output >>= fun output =>
          appendUnits cap (units "\x7d") output := by
  funext output
  rw [write, if_neg (Nat.not_lt.mpr shallow)]

theorem write_array (items : List Json) {depth : Nat} (shallow : depth ≤ 256) :
    write cap (.array items) depth = fun output =>
      appendUnits cap (units "[") output >>= fun output =>
        writeItems cap true items depth output >>= fun output =>
          appendUnits cap (units "]") output := by
  funext output
  rw [write, if_neg (Nat.not_lt.mpr shallow)]

/-- Every value is written with its text. -/
theorem written_all (cap : Int) (value : Json) : Written cap value := by
  induction value using json_induction with
  | undefined =>
      intro depth defined
      cases defined
  | null =>
      intro depth _ shallow
      have step : write cap .null depth = appendUnits cap (units "null") := by
        funext output
        rw [write, if_neg (by omega)]
      rw [step]
      exact writes_units (ascii_units (by decide))
  | bool value =>
      intro depth _ shallow
      have step : write cap (.bool value) depth =
          appendUnits cap (units (if value then "true" else "false")) := by
        funext output
        rw [write, if_neg (by omega)]
      rw [step]
      cases value with
      | false => exact writes_units (ascii_units (by decide))
      | true => exact writes_units (ascii_units (by decide))
  | number value =>
      intro depth _ shallow
      have step : write cap (.number value) depth = appendUnits cap value.text := by
        funext output
        rw [write, if_neg (by omega)]
      rw [step]
      exact writes_units value.ascii
  | string text =>
      intro depth _ shallow
      have step : write cap (.string text) depth = appendString cap text := by
        funext output
        rw [write, if_neg (by omega)]
      rw [step]
      exact writes_string text
  | array items written =>
      intro depth _ shallow
      rw [Json.levels] at shallow
      rw [write_array items (by omega), Json.text, List.append_assoc]
      exact (writes_units (ascii_units (by decide))).bind
        ((writes_items written true shallow).bind (writes_units (ascii_units (by decide))))
  | object members written =>
      intro depth _ shallow
      rw [Json.levels] at shallow
      rw [write_object members (by omega), Json.text, List.append_assoc]
      exact (writes_units (ascii_units (by decide))).bind
        ((writes_members written true shallow).bind (writes_units (ascii_units (by decide))))

end Writer

section Exact

/-- Without room for the first part nothing is written. -/
theorem write_full {cap : Int} (full : cap < 0) {value : Json}
    (defined : value.isUndefined = false) : write cap value 0 {} = .error .limit := by
  have nothing (part : CodeUnits) (length : Nat) : append cap part length {} = .error .limit := by
    refine if_pos ?_
    change cap - 0 < _
    omega
  have none (part : CodeUnits) : appendUnits cap part {} = .error .limit := nothing part part.length
  cases value with
  | undefined => cases defined
  | null => exact none _
  | bool value => exact none _
  | number value => exact none _
  | string text =>
      change appendString cap text {} = _
      unfold appendString
      rcases countQuoted_eq cap 0 text 2 with counted | ⟨stopped, -⟩
      · rw [counted]
        exact nothing _ _
      · rw [stopped]
        rfl
  | array items =>
      rw [write_array items (Nat.zero_le 256)]
      dsimp only
      rw [none]
      rfl
  | object members =>
      rw [write_object members (Nat.zero_le 256)]
      dsimp only
      rw [none]
      rfl

/-- The encoder gives the bytes of the JSON text when they fit, and the length of a string is
exact. -/
theorem boundedJson_exact {value : Json} {text : CodeUnits} (cap : Int) (input : CodeUnits)
    (defined : stringify value = some text) (shallow : value.levels ≤ 256) :
    boundedJson value cap =
        (if (textBytes (unitsText text)).length ≤ cap then .ok (textBytes (unitsText text))
        else .error .limit) ∧
      ((textBytes (unitsText input)).length ≤ cap →
        utf8Length input cap = (textBytes (unitsText input)).length) ∧
      (cap < (textBytes (unitsText input)).length → cap < utf8Length input cap) := by
  have counted := utf8LengthFrom_eq cap input 0
  simp only [Int.zero_add] at counted
  refine ⟨?_, counted⟩
  unfold stringify at defined
  split_ifs at defined with absent
  cases defined
  rw [Bool.not_eq_true] at absent
  obtain ⟨paired, parts, emits, same⟩ := written_all cap value 0 absent (by omega)
  have long := length_encoded paired
  unfold boundedJson
  by_cases room : 0 ≤ cap
  · rw [emits {} room, same, long]
    change (if 0 + _ ≤ cap then _ else _) >>= _ = _
    rw [Int.zero_add]
    split_ifs with fits
    · change Except.ok (textBytes (unitsText ([] ++ parts).flatten)) = _
      rw [List.nil_append, same]
    · rfl
  · rw [write_full (by omega) absent, if_neg (by omega)]
    rfl

/-- The text of an array with an undefined entry and an unpaired surrogate fits into 15 bytes. -/
theorem boundedJson_exact_array :
    boundedJson (.array [.undefined, .string [0xD800]]) 15 =
      .ok (textBytes "[null,\"\\ud800\"]".toList) := by
  have encoded := (@boundedJson_exact (.array [.undefined, .string [0xD800]]) _ 15 [] rfl
    (by decide)).1
  rw [encoded, if_pos (by decide)]
  exact congrArg Except.ok (by decide)

end Exact

end TinySandbox.Portable
