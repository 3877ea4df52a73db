/-
This file shows that the lexer on byte positions follows the lexer on texts.
Every cursor stands on a boundary, so no slice panics, and every error is at a boundary.
-/

import TinySandbox.Construction.Shell.ByteLexer
import TinySandbox.Proof.Shell.Costs
import TinySandbox.Proof.Shell.Scans
import TinySandbox.Specification.ShellWords

namespace TinySandbox.Shell

variable {input rest next : Text} {place : Nat} {symbol : Char}

@[simp] theorem utf8Len_nil : utf8Len [] = 0 := rfl

@[simp] theorem utf8Len_cons (symbol : Char) (rest : Text) :
    utf8Len (symbol :: rest) = symbol.utf8Size + utf8Len rest := by
  simp [utf8Len]

theorem length_le_utf8Len (text : Text) : text.length ≤ utf8Len text := by
  induction text with
  | nil => exact Nat.le_refl 0
  | cons symbol text ih =>
      have positive := symbol.utf8Size_pos
      rw [List.length_cons, utf8Len_cons]
      omega

/-- The characters of operators, digits and names take one byte. -/
theorem utf8Size_ascii (low : symbol.toNat < 128) : symbol.utf8Size = 1 := by
  rw [Char.utf8Size_eq_one_iff]
  have value : symbol.val.toNat < 128 := low
  rw [UInt32.le_iff_toNat_le]
  exact Nat.le_of_lt_succ value

/-- A range of characters below 128 takes one byte each. -/
theorem utf8Size_within {first last : Char} (low : last.toNat < 128)
    (within : (decide (symbol.val ≥ first.val) && decide (symbol.val ≤ last.val)) = true) :
    symbol.utf8Size = 1 := by
  rw [Bool.and_eq_true, decide_eq_true_eq, decide_eq_true_eq, UInt32.le_iff_toNat_le] at within
  exact utf8Size_ascii (Nat.lt_of_le_of_lt within.2 low)

theorem utf8Size_digit (digit : symbol.isDigit = true) : symbol.utf8Size = 1 :=
  @utf8Size_within symbol '0' '9' (by decide) digit

theorem utf8Size_alpha (alpha : symbol.isAlpha = true) : symbol.utf8Size = 1 := by
  rcases Bool.or_eq_true_iff.mp alpha with upper | lower
  · apply @utf8Size_within symbol 'A' 'Z' (by decide)
    rw [← Bool.decide_and]
    exact upper
  · exact @utf8Size_within symbol 'a' 'z' (by decide) lower

theorem utf8Size_name (continues : isNameContinue symbol = true) : symbol.utf8Size = 1 := by
  simp only [isNameContinue, Char.isAlphanum, Bool.or_eq_true, decide_eq_true_eq] at continues
  rcases continues with (alpha | digit) | rfl
  · exact utf8Size_alpha alpha
  · exact utf8Size_digit digit
  · rfl

namespace Stands

theorem start (input : Text) : Stands input 0 input :=
  ⟨List.suffix_rfl, Nat.zero_add _⟩

theorem boundary (stands : Stands input place rest) : Boundary input place := by
  obtain ⟨⟨before, whole⟩, total⟩ := stands
  refine ⟨before, rest, whole, ?_⟩
  rw [← whole, utf8Len_append] at total
  omega

theorem position_eq (stands : Stands input place rest) : position input rest = place := by
  have total := stands.place
  unfold position
  omega

theorem drop {text : Text} (stands : Stands input place (text ++ rest)) :
    Stands input (place + utf8Len text) rest := by
  have total := stands.place
  rw [utf8Len_append] at total
  exact ⟨(List.suffix_append text rest).trans stands.inside, by omega⟩

theorem behind (stands : Stands input place (symbol :: next)) :
    Stands input (place + symbol.utf8Size) next := by
  have dropped : Stands input (place + utf8Len [symbol]) next := drop stands
  simpa using dropped

theorem one (stands : Stands input place (symbol :: next)) (size : symbol.utf8Size = 1) :
    Stands input (place + 1) next :=
  size ▸ stands.behind

/-- A place in front of a shorter rest comes later. -/
theorem lt {later : Nat} (stands : Stands input place rest) (further : Stands input later next)
    (shorter : next.length < rest.length) : place < later := by
  obtain ⟨text, rfl⟩ := List.suffix_of_suffix_length_le further.inside stands.inside shorter.le
  have total := stands.place
  have less := further.place
  have size := length_le_utf8Len text
  rw [List.length_append] at shorter
  rw [utf8Len_append] at total
  omega

theorem length (stands : Stands input place rest) : rest.length < Bytes.enough input := by
  have shorter := stands.inside.length_le
  have size := length_le_utf8Len input
  unfold Bytes.enough
  omega

theorem at_end (stands : Stands input place []) : place = utf8Len input := by
  simpa using stands.place

theorem before_end (stands : Stands input place (symbol :: next)) : place < utf8Len input := by
  have total := stands.place
  have positive := symbol.utf8Size_pos
  rw [utf8Len_cons] at total
  omega

end Stands

/-- Every boundary is in front of some rest. -/
theorem Boundary.stands (boundary : Boundary input place) : ∃ rest, Stands input place rest := by
  obtain ⟨before, rest, rfl, rfl⟩ := boundary
  exact ⟨rest, List.suffix_append before rest, (utf8Len_append before rest).symm⟩

theorem Boundary.le (boundary : Boundary input place) : place ≤ utf8Len input := by
  obtain ⟨before, rest, rfl, rfl⟩ := boundary
  rw [utf8Len_append]
  exact Nat.le_add_right _ _

section Slices

theorem textFrom_append (before rest : Text) :
    Bytes.textFrom (before ++ rest) (utf8Len before) = some rest := by
  induction before with
  | nil => cases rest <;> rfl
  | cons symbol before ih =>
      have positive := symbol.utf8Size_pos
      obtain ⟨more, size⟩ := Nat.exists_eq_add_one.mpr positive
      rw [utf8Len_cons, List.cons_append, size, Nat.add_right_comm, Bytes.textFrom,
        if_pos (by omega), size, Nat.add_right_comm more, Nat.add_sub_cancel_left]
      exact ih

theorem textTo_append (text rest : Text) :
    Bytes.textTo (text ++ rest) (utf8Len text) = some text := by
  induction text with
  | nil => cases rest <;> rfl
  | cons symbol text ih =>
      have positive := symbol.utf8Size_pos
      obtain ⟨more, size⟩ := Nat.exists_eq_add_one.mpr positive
      rw [utf8Len_cons, List.cons_append, size, Nat.add_right_comm, Bytes.textTo, if_pos (by omega),
        size, Nat.add_right_comm more, Nat.add_sub_cancel_left, ih]
      rfl

theorem Stands.textFrom (stands : Stands input place rest) :
    Bytes.textFrom input place = some rest := by
  obtain ⟨⟨before, rfl⟩, total⟩ := stands
  rw [utf8Len_append] at total
  have same : place = utf8Len before := by omega
  rw [same]
  exact textFrom_append before rest

theorem Stands.peek (stands : Stands input place rest) :
    Bytes.peekChar input place = rest.head? := by
  unfold Bytes.peekChar
  rw [stands.textFrom]
  rfl

theorem Stands.startsWith (stands : Stands input place rest) (pattern : Text) :
    Bytes.startsWith input place pattern = pure (pattern.isPrefixOf rest) := by
  unfold Bytes.startsWith
  rw [stands.textFrom]

theorem Stands.slice {text : Text} (stands : Stands input place (text ++ rest)) :
    Bytes.slice input place (place + utf8Len text) = pure text := by
  unfold Bytes.slice
  rw [if_neg (by omega), stands.textFrom, Option.bind_some, Nat.add_sub_cancel_left,
    textTo_append]

/-- The place behind the characters that a loop skips. -/
def behindWhile (keep : Char → Bool) (place : Nat) (rest : Text) : Nat :=
  place + utf8Len (rest.takeWhile keep)

theorem Stands.while (stands : Stands input place rest) (keep : Char → Bool) :
    Stands input (behindWhile keep place rest) (rest.dropWhile keep) := by
  apply Stands.drop
  rw [List.takeWhile_append_dropWhile]
  exact stands

theorem Stands.sliceWhile (stands : Stands input place rest) (keep : Char → Bool) :
    Bytes.slice input place (behindWhile keep place rest) = pure (rest.takeWhile keep) := by
  have whole : Stands input place (rest.takeWhile keep ++ rest.dropWhile keep) := by
    rw [List.takeWhile_append_dropWhile]
    exact stands
  exact whole.slice

/-- A loop that moves by the size of each character skips the characters to keep. -/
theorem skipWhile_eq {keep : Char → Bool} {step : Char → Nat} {fuel : Nat}
    (sized : ∀ symbol, keep symbol = true → step symbol = symbol.utf8Size)
    (stands : Stands input place rest) (plenty : rest.length < fuel) :
    Bytes.skipWhile input keep step fuel place = pure (behindWhile keep place rest) := by
  induction fuel generalizing place rest with
  | zero => omega
  | succ fuel ih =>
      unfold Bytes.skipWhile behindWhile
      rw [stands.peek]
      cases rest with
      | nil => rfl
      | cons symbol next =>
          rw [List.length_cons] at plenty
          rw [List.head?_cons, List.takeWhile_cons]
          dsimp only
          by_cases kept : keep symbol = true
          · rw [if_pos kept, if_pos kept, sized symbol kept, ih stands.behind (by omega),
              behindWhile, utf8Len_cons, Nat.add_assoc]
          · rw [if_neg kept, if_neg kept]
            rfl

theorem skipBlanks_eq (stands : Stands input place rest) :
    Bytes.skipBlanks input place = pure (behindWhile isBlank place rest) :=
  skipWhile_eq (fun _ _ => rfl) stands stands.length

theorem skipComment_eq (stands : Stands input place rest) :
    Bytes.skipComment input place = pure (behindWhile (· ≠ '\n') place rest) :=
  skipWhile_eq (fun _ _ => rfl) stands stands.length

theorem skipDigits_eq (stands : Stands input place rest) :
    Bytes.skipDigits input place = pure (behindWhile Char.isDigit place rest) :=
  skipWhile_eq (fun _ digit => (utf8Size_digit digit).symm) stands stands.length

theorem skipName_eq (stands : Stands input place rest) :
    Bytes.skipName input place = pure (behindWhile isNameContinue place rest) :=
  skipWhile_eq (fun _ continues => (utf8Size_name continues).symm) stands stands.length

/-- A loop skips something exactly when it keeps the first character. -/
theorem behindWhile_eq_iff (keep : Char → Bool) (place : Nat) (rest : Text) :
    behindWhile keep place rest = place ↔ rest.takeWhile keep = [] := by
  unfold behindWhile
  constructor
  · intro same
    have size := length_le_utf8Len (rest.takeWhile keep)
    exact List.length_eq_zero_iff.mp (by omega)
  · intro none
    rw [none]
    rfl

theorem lt_behindWhile_iff (keep : Char → Bool) (place : Nat) (rest : Text) :
    place < behindWhile keep place rest ↔ rest.takeWhile keep ≠ [] := by
  rw [ne_eq, ← behindWhile_eq_iff keep place rest]
  unfold behindWhile
  omega

end Slices

/-- The scans both fail with one error at a boundary, or both return related values. -/
inductive Tracks {α β : Type} (input : Text) (related : α → β → Prop) : Scan α → Scan β → Prop where
  | returns (first : α) (second : β) (same : related first second) :
      Tracks input related (pure first) (pure second)
  | fails (place : Nat) (kind : ParseErrorKind) (boundary : Boundary input place) :
      Tracks input related (Scan.fail place kind) (Scan.fail place kind)

/-- The values are the same, and the new place is in front of the new rest. -/
def Moved {α : Type} (input : Text) (left : α × Nat) (right : α × Text) : Prop :=
  left.1 = right.1 ∧ Stands input left.2 right.2

namespace Tracks

section Rules
variable {α β γ δ : Type} {related : α → β → Prop} {after : γ → δ → Prop}
variable {first : Scan α} {second : Scan β}

theorem bind {next : α → Scan γ} {later : β → Scan δ} (tracks : Tracks input related first second)
    (goes : ∀ left right, second = pure right → related left right →
      Tracks input after (next left) (later right)) :
    Tracks input after (first >>= next) (second >>= later) := by
  cases tracks with
  | returns left right same =>
      rw [pure_bind, pure_bind]
      exact goes left right rfl same
  | fails place kind boundary => exact .fails place kind boundary

theorem mono {weaker : α → β → Prop} (tracks : Tracks input related first second)
    (implies : ∀ left right, related left right → weaker left right) :
    Tracks input weaker first second := by
  cases tracks with
  | returns left right same => exact .returns left right (implies left right same)
  | fails place kind boundary => exact .fails place kind boundary

theorem ite {condition : Prop} [Decidable condition] {other : Scan α} {another : Scan β}
    (holds : condition → Tracks input related first second)
    (fails : ¬ condition → Tracks input related other another) :
    Tracks input related (if condition then first else other)
      (if condition then second else another) := by
  by_cases known : condition
  · rw [if_pos known, if_pos known]
    exact holds known
  · rw [if_neg known, if_neg known]
    exact fails known

/-- Both scans fail at the place in front of the rest. -/
theorem fail (stands : Stands input place rest) (kind : ParseErrorKind) :
    Tracks input related (Scan.fail place kind) (Scan.fail (position input rest) kind) := by
  rw [stands.position_eq]
  exact .fails place kind stands.boundary

theorem refuse {condition : Prop} [Decidable condition] {kind : ParseErrorKind}
    (stands : Stands input place rest) (passes : ¬ condition → Tracks input related first second) :
    Tracks input related (if condition then Scan.fail place kind else first)
      (if condition then Scan.fail (position input rest) kind else second) :=
  .ite (fun _ => fail stands kind) passes

end Rules

theorem pure {α : Type} {value : α} (stands : Stands input place rest) :
    Tracks input (Moved input) (Pure.pure (value, place)) (Pure.pure (value, rest)) :=
  .returns _ _ ⟨rfl, stands⟩

end Tracks

/-- The relation holds for the value that a scan returns. -/
theorem Agrees.returned {α : Type} {related : α → α → Prop} {scan : Scan α} {value : α}
    (agrees : Agrees related scan scan) (returned : scan = Pure.pure value) :
    ∃ left, related left value := by
  have general : ∀ first second, Agrees related first second → second = Pure.pure value →
      ∃ left, related left value := by
    intro first second agrees returned
    cases agrees with
    | returns left right same =>
        obtain rfl : right = value := Except.ok.inj (Option.some.inj returned)
        exact ⟨left, same⟩
    | fails left right kind => cases (Option.some.inj returned)
  exact general scan scan agrees returned

/-- A scan that returns leaves less than its bound. -/
theorem Advances.shorter {α : Type} {bound : Nat} {scan : Scan (α × Text)} {value : α × Text}
    (advances : Advances bound scan scan) (returned : scan = Pure.pure value) :
    value.2.length < bound := by
  obtain ⟨left, rfl, less⟩ := Agrees.returned advances returned
  exact less

section Redirects

theorem parseFd_tracks (stands : Stands input place rest)
    (some' : rest.takeWhile Char.isDigit ≠ []) :
    Tracks input Eq (Bytes.parseFd input place (behindWhile Char.isDigit place rest))
      (parseFd input rest (rest.takeWhile Char.isDigit)) := by
  unfold Bytes.parseFd parseFd
  rw [stands.sliceWhile, pure_bind]
  dsimp only
  simp only [ne_eq, some', not_false_eq_true, true_and]
  apply Tracks.ite
  · intro fits
    exact .returns _ _ rfl
  · intro large
    exact .fail stands _

/-- The scans find the same operator, or both find none. -/
def MovedIfFound {α : Type} (input : Text) : Option (α × Nat) → Option (α × Text) → Prop
  | none, none => True
  | some left, some right => Moved input left right
  | _, _ => False

theorem scanRedirectOp_less (next : Text) :
    scanRedirectOp input ('<' :: next) =
      if next.head? = some '<' then
        Scan.fail (position input ('<' :: next)) (.unsupported .heredoc)
      else pure (some (.read, next)) := by
  by_cases double : next.head? = some '<'
  · obtain ⟨behind, rfl⟩ := List.head?_eq_some_iff.mp double
    rfl
  · rw [if_neg double, scanRedirectOp_read double]

theorem scanRedirectOp_greater (next : Text) :
    scanRedirectOp input ('>' :: next) =
      if next.head? = some '>' then pure (some (.append, next.tail))
      else pure (some (.write, next)) := by
  by_cases double : next.head? = some '>'
  · obtain ⟨behind, rfl⟩ := List.head?_eq_some_iff.mp double
    rfl
  · rw [if_neg double, scanRedirectOp_write double]

theorem scanRedirectOp_none (read : rest.head? ≠ some '<') (write : rest.head? ≠ some '>') :
    scanRedirectOp input rest = pure none := by
  unfold scanRedirectOp
  split
  all_goals first | rfl | simp_all

theorem Stands.doubled (stands : Stands input place (symbol :: next)) :
    Bytes.startsWith input place [symbol, symbol] = pure (decide (next.head? = some symbol)) := by
  rw [stands.startsWith]
  cases next with
  | nil => simp [List.isPrefixOf]
  | cons second next =>
      simp only [List.isPrefixOf, beq_self_eq_true, Bool.true_and, Bool.and_true, List.head?_cons,
        Option.some.injEq]
      rw [Bool.beq_eq_decide_eq]
      exact congrArg Pure.pure (decide_eq_decide.mpr eq_comm)

theorem scanRedirectOp_tracks (stands : Stands input place rest) :
    Tracks input (MovedIfFound input) (Bytes.scanRedirectOp input place place)
      (scanRedirectOp input rest) := by
  unfold Bytes.scanRedirectOp
  rw [stands.peek]
  cases rest with
  | nil => exact .returns _ _ trivial
  | cons symbol next =>
      rw [List.head?_cons]
      dsimp only
      by_cases read : symbol = '<'
      · subst read
        rw [if_pos rfl, stands.doubled, pure_bind, scanRedirectOp_less]
        simp only [decide_eq_true_eq]
        apply Tracks.refuse stands
        intro single
        exact .returns _ _ ⟨rfl, stands.one rfl⟩
      · rw [if_neg read]
        by_cases write : symbol = '>'
        · subst write
          rw [if_pos rfl, stands.doubled, pure_bind, scanRedirectOp_greater]
          simp only [decide_eq_true_eq]
          apply Tracks.ite
          · intro double
            obtain ⟨behind, rfl⟩ := List.head?_eq_some_iff.mp double
            exact .returns _ _ ⟨rfl, (stands.one rfl).one rfl⟩
          · intro single
            exact .returns _ _ ⟨rfl, stands.one rfl⟩
        · rw [if_neg write, scanRedirectOp_none]
          · exact .returns _ _ trivial
          · exact fun same => read (Option.some.inj same)
          · exact fun same => write (Option.some.inj same)

/-- The operator is not the place in front of what follows it. -/
theorem scanTargetFd_tracks {operator : Nat} {front : Text} (op : RedirectOp)
    (before : Stands input operator front) (stands : Stands input place rest) :
    Tracks input (Moved input) (Bytes.scanTargetFd input operator op place)
      (scanTargetFd input front op rest) := by
  unfold Bytes.scanTargetFd
  rw [stands.peek]
  by_cases target : rest.head? = some '&'
  · obtain ⟨start, rfl⟩ := List.head?_eq_some_iff.mp target
    have behind : Stands input (place + 1) start := stands.one rfl
    have stops := behind.while Char.isDigit
    rw [if_pos target, scanTargetFd]
    dsimp only
    rw [skipDigits_eq behind, pure_bind, stops.peek]
    simp only [behindWhile_eq_iff]
    apply Tracks.refuse before
    intro writes
    by_cases digits : start.takeWhile Char.isDigit = []
    · rw [if_pos digits, if_pos digits]
      exact .fail before _
    · rw [if_neg digits, if_neg digits]
      apply Tracks.refuse before
      intro ends
      apply Tracks.bind (parseFd_tracks behind digits)
      intro fd same returned equal
      obtain rfl := equal
      exact .pure stops
  · rw [if_neg target]
    have absent : scanTargetFd input front op rest = pure (none, rest) := by
      unfold scanTargetFd
      split
      · exact absurd rfl target
      · rfl
    rw [absent]
    exact .pure stands

/-- This is the scan of a redirect behind its number. -/
def Bytes.redirectBehind (input : Text) (operator : Nat) (fd : Option Nat) :
    Scan (Option (RedirectToken × Nat)) := do
  let scanned ← Bytes.scanRedirectOp input operator operator
  match scanned with
  | none => pure none
  | some (op, next) => do
      let target ← Bytes.scanTargetFd input operator op next
      pure (some ({ fd, op, targetFd := target.1 }, target.2))

theorem redirectBehind_tracks (stands : Stands input place rest) (fd : Option Nat) :
    Tracks input (MovedIfFound input) (Bytes.redirectBehind input place fd)
      (redirectBehind input rest fd) := by
  apply Tracks.bind (scanRedirectOp_tracks stands)
  intro left right returned found
  cases left with
  | none =>
      cases right with
      | none => exact .returns _ _ trivial
      | some right => cases found
  | some left =>
      cases right with
      | none => cases found
      | some right =>
          obtain ⟨op, place'⟩ := left
          obtain ⟨op', next⟩ := right
          obtain ⟨same, further⟩ := found
          cases same
          apply Tracks.bind (scanTargetFd_tracks op stands further)
          intro left right returned moved
          refine .returns _ _ ⟨?_, moved.2⟩
          rw [moved.1]

theorem scanRedirect_tracks (stands : Stands input place rest) :
    Tracks input (MovedIfFound input) (Bytes.scanRedirect input place)
      (scanRedirect input rest) := by
  have stops := stands.while Char.isDigit
  unfold Bytes.scanRedirect scanRedirect
  rw [skipDigits_eq stands, pure_bind, stops.peek]
  simp only [lt_behindWhile_iff]
  by_cases numbered : rest.takeWhile Char.isDigit ≠ [] ∧
      ((rest.dropWhile Char.isDigit).head? = some '<' ∨
        (rest.dropWhile Char.isDigit).head? = some '>')
  · simp only [if_pos numbered, bind_map_left]
    apply Tracks.bind (parseFd_tracks stands numbered.1)
    intro fd same returned equal
    obtain rfl := equal
    exact redirectBehind_tracks stops (some fd)
  · simp only [if_neg numbered, pure_bind]
    exact redirectBehind_tracks stands none

end Redirects

section Quotes

/-- The scan closes the quotes, if the text up to the quote was found. -/
def closeSingle (input front : Text) (segments : List Segment) (literal : Text) :
    Option (Text × Text) → Scan (List Segment × Text)
  | some (text, next) => pure (pushLiteral segments (literal ++ text) true, next)
  | none => Scan.fail (position input front) (.unterminatedQuote .single)

theorem singleQuotedLoop_tracks {quote : Nat} {front : Text} {fuel : Nat} (segments : List Segment)
    (literal : Text) (opens : Stands input quote front) (stands : Stands input place rest)
    (plenty : rest.length < fuel) :
    Tracks input (Moved input)
      (Bytes.singleQuotedLoop input quote segments fuel place literal)
      (closeSingle input front segments literal (untilSingleQuote rest)) := by
  induction fuel generalizing place rest literal with
  | zero => omega
  | succ fuel ih =>
      unfold Bytes.singleQuotedLoop
      rw [stands.peek]
      cases rest with
      | nil => exact .fail opens _
      | cons symbol next =>
          rw [List.length_cons] at plenty
          rw [List.head?_cons, untilSingleQuote]
          dsimp only
          by_cases closes : symbol = '\''
          · subst closes
            rw [if_pos rfl, if_pos rfl, closeSingle, List.append_nil]
            exact .pure (stands.one rfl)
          · rw [if_neg closes, if_neg closes]
            have later := ih (literal ++ [symbol]) stands.behind (by omega)
            cases found : untilSingleQuote next with
            | none =>
                rw [found] at later
                exact later
            | some cut =>
                rw [found, closeSingle, List.append_assoc] at later
                exact later

theorem scanSingleQuoted_tracks (segments : List Segment)
    (stands : Stands input place ('\'' :: next)) :
    Tracks input (Moved input) (Bytes.scanSingleQuoted input place segments)
      (scanSingleQuoted input ('\'' :: next) segments) := by
  have behind := stands.one rfl
  exact singleQuotedLoop_tracks segments [] stands behind behind.length

theorem scanDoubleQuotedEscape_other {escaped : Char} (other : escaped ≠ '\n') (literal : Text) :
    scanDoubleQuotedEscape input (symbol :: escaped :: next) literal =
      if escaped ∈ ['$', '\x60', '"', '\\'] then pure (literal ++ [escaped], next)
      else pure (literal ++ ['\\', escaped], next) := by
  simp [scanDoubleQuotedEscape]

theorem scanDoubleQuotedEscape_tracks (literal : Text)
    (stands : Stands input place (symbol :: next))
    (size : symbol.utf8Size = 1) :
    Tracks input (Moved input) (Bytes.scanDoubleQuotedEscape input place literal)
      (scanDoubleQuotedEscape input (symbol :: next) literal) := by
  have behind := stands.one size
  unfold Bytes.scanDoubleQuotedEscape
  rw [behind.peek]
  cases next with
  | nil => exact .fail stands _
  | cons escaped next =>
      rw [List.head?_cons]
      dsimp only
      by_cases newline : escaped = '\n'
      · subst newline
        rw [if_pos rfl]
        exact .pure (behind.one rfl)
      · rw [if_neg newline, scanDoubleQuotedEscape_other newline]
        apply Tracks.ite
        · intro special
          exact .pure behind.behind
        · intro plain
          exact .pure behind.behind

end Quotes

section Expansions

/-- The name of a variable starts at the place. -/
theorem Stands.name (stands : Stands input place (symbol :: next)) :
    Bytes.slice input place (behindWhile isNameContinue (place + symbol.utf8Size) next) =
        pure (symbol :: next.takeWhile isNameContinue) ∧
      Bytes.skipName input (place + symbol.utf8Size) =
        pure (behindWhile isNameContinue (place + symbol.utf8Size) next) ∧
      Stands input (behindWhile isNameContinue (place + symbol.utf8Size) next)
        (next.dropWhile isNameContinue) := by
  have behind := stands.behind
  refine ⟨?_, skipName_eq behind, behind.while isNameContinue⟩
  have whole : Stands input place ((symbol :: next.takeWhile isNameContinue) ++
      next.dropWhile isNameContinue) := by
    rw [List.cons_append, List.takeWhile_append_dropWhile]
    exact stands
  have sliced := whole.slice
  rw [utf8Len_cons, ← Nat.add_assoc] at sliced
  exact sliced

theorem scanBracedExpansion_tracks (quoted : Bool) (before : Literals)
    (stands : Stands input place ('$' :: '{' :: next)) :
    Tracks input (Moved input) (Bytes.scanBracedExpansion input place quoted before)
      (scanBracedExpansion input ('$' :: '{' :: next) quoted before) := by
  have behind : Stands input (place + 2) next := (stands.one rfl).one rfl
  unfold Bytes.scanBracedExpansion scanBracedExpansion
  rw [behind.peek]
  rw [List.drop_succ_cons, List.drop_succ_cons, List.drop_zero]
  cases next with
  | nil => exact .fail stands _
  | cons first next =>
      rw [List.head?_cons]
      dsimp only
      apply Tracks.ite
      · intro status
        subst status
        have further : Stands input (place + 2 + 1) next := behind.one rfl
        rw [further.peek]
        by_cases closes : next.head? = some '}'
        · obtain ⟨next, rfl⟩ := List.head?_eq_some_iff.mp closes
          rw [if_neg (not_not_intro closes)]
          exact .pure (further.one rfl)
        · rw [if_pos closes]
          split
          · exact absurd rfl closes
          · exact .fail stands _
      · intro name
        apply Tracks.refuse stands
        intro free
        apply Tracks.refuse stands
        intro starts
        obtain ⟨sliced, skipped, stops⟩ := behind.name
        rw [skipped, pure_bind, stops.peek, sliced]
        cases cut : next.dropWhile isNameContinue with
        | nil => exact .fail stands _
        | cons closing rest =>
            rw [cut] at stops
            rw [List.head?_cons]
            dsimp only
            by_cases closes : closing = '}'
            · subst closes
              rw [if_pos rfl, pure_bind]
              apply Tracks.refuse stands
              intro valid
              exact .pure (stops.one rfl)
            · rw [if_neg closes]
              split
              · rename_i same
                exact absurd (List.cons.inj same).1 closes
              · rename_i empty
                cases empty
              · exact .fail stands _

theorem scanExpansion_tracks (quoted : Bool) (before : Literals)
    (stands : Stands input place ('$' :: next)) :
    Tracks input (Moved input) (Bytes.scanExpansion input place quoted before)
      (scanExpansion input ('$' :: next) quoted before) := by
  have behind := stands.one rfl
  unfold Bytes.scanExpansion scanExpansion
  rw [behind.peek, List.tail_cons]
  cases next with
  | nil => exact .pure behind
  | cons symbol next =>
      rw [List.head?_cons]
      dsimp only
      apply Tracks.refuse stands
      intro command
      apply Tracks.refuse stands
      intro ansi
      apply Tracks.refuse stands
      intro locale
      apply Tracks.ite
      · intro braced
        subst braced
        exact scanBracedExpansion_tracks quoted before stands
      · intro bare
        apply Tracks.ite
        · intro status
          subst status
          exact .pure (behind.one rfl)
        · intro name
          apply Tracks.ite
          · intro starts
            obtain ⟨sliced, skipped, stops⟩ := behind.name
            rw [skipped, pure_bind, sliced, pure_bind]
            apply Tracks.refuse stands
            intro valid
            exact .pure stops
          · intro other
            apply Tracks.refuse stands
            intro free
            exact .pure behind

end Expansions

section Loops

theorem doubleQuotedStep_tracks (scan : DoubleQuoted)
    (stands : Stands input place (symbol :: next)) :
    Tracks input (Moved input) (Bytes.doubleQuotedStep input place symbol scan)
      (doubleQuotedStep input (symbol :: next) symbol next scan) := by
  unfold Bytes.doubleQuotedStep doubleQuotedStep
  apply Tracks.ite
  · intro escape
    subst escape
    apply Tracks.bind (scanDoubleQuotedEscape_tracks scan.literal stands rfl)
    intro left right returned moved
    obtain ⟨same, further⟩ := moved
    rw [same]
    exact .pure further
  · intro unescaped
    apply Tracks.ite
    · intro dollar
      subst dollar
      apply Tracks.bind (scanExpansion_tracks true scan.toLiterals stands)
      intro left right returned moved
      obtain ⟨same, further⟩ := moved
      rw [same]
      exact .pure further
    · intro literal
      apply Tracks.refuse stands
      intro plain
      exact .pure stands.behind

theorem doubleQuotedLoop_tracks {quote : Nat} {front : Text} {fuel more : Nat} (scan : DoubleQuoted)
    (opens : Stands input quote front) (stands : Stands input place rest)
    (enough : rest.length < fuel) (plenty : rest.length < more) :
    Tracks input (Moved input) (Bytes.doubleQuotedLoop input quote fuel place scan)
      (doubleQuotedLoop input front more rest scan) := by
  induction fuel generalizing more place rest scan with
  | zero => omega
  | succ fuel ih =>
      obtain ⟨more, rfl⟩ := Nat.exists_eq_add_one.mpr (Nat.zero_lt_of_lt plenty)
      unfold Bytes.doubleQuotedLoop
      rw [stands.peek]
      cases rest with
      | nil => exact .fail opens _
      | cons symbol next =>
          rw [List.length_cons] at enough plenty
          rw [List.head?_cons, doubleQuotedLoop]
          dsimp only
          apply Tracks.ite
          · intro closes
            subst closes
            have behind := stands.one rfl
            apply Tracks.ite
            · intro pushed
              exact .pure behind
            · intro kept
              exact .pure behind
          · intro inside
            apply Tracks.bind (doubleQuotedStep_tracks scan stands)
            intro left right returned moved
            have shorter := (doubleQuotedStep_advances symbol next scan).shorter returned
            obtain ⟨same, further⟩ := moved
            rw [same]
            exact ih right.1 further (by omega) (by omega)

theorem scanDoubleQuoted_tracks (segments : List Segment)
    (stands : Stands input place ('"' :: next)) :
    Tracks input (Moved input) (Bytes.scanDoubleQuoted input place segments)
      (scanDoubleQuoted input ('"' :: next) segments) := by
  have behind := stands.one rfl
  exact doubleQuotedLoop_tracks _ stands behind behind.length (Nat.lt_succ_self _)

theorem closingBracketLoop_eq {fuel : Nat} (stands : Stands input place rest)
    (plenty : rest.length < fuel) :
    Bytes.closingBracketLoop input fuel place = pure (hasClosingBracketBeforeWordEnd rest) := by
  induction fuel generalizing place rest with
  | zero => omega
  | succ fuel ih =>
      unfold Bytes.closingBracketLoop
      rw [stands.peek]
      cases rest with
      | nil => rfl
      | cons symbol next =>
          rw [List.length_cons] at plenty
          rw [List.head?_cons, hasClosingBracketBeforeWordEnd]
          dsimp only
          by_cases closes : symbol = ']'
          · rw [if_pos closes, if_pos closes]
          · rw [if_neg closes, if_neg closes]
            by_cases ends : isWordBreak symbol = true
            · rw [if_pos ends, if_pos ends]
            · rw [if_neg ends, if_neg ends]
              exact ih stands.behind (by omega)

theorem scanUnquotedEscape_moved (stands : Stands input place ('\\' :: next)) :
    (Bytes.scanUnquotedEscape input place).2 = (scanUnquotedEscape ('\\' :: next)).2 ∧
      Stands input (Bytes.scanUnquotedEscape input place).1
        (scanUnquotedEscape ('\\' :: next)).1 := by
  have behind := stands.one rfl
  unfold Bytes.scanUnquotedEscape
  rw [behind.peek]
  cases next with
  | nil => exact ⟨rfl, behind⟩
  | cons escaped next =>
      rw [List.head?_cons]
      dsimp only
      by_cases newline : escaped = '\n'
      · subst newline
        rw [if_pos rfl]
        exact ⟨rfl, behind.one rfl⟩
      · have other : scanUnquotedEscape ('\\' :: escaped :: next) = (next, some escaped) := by
          simp [scanUnquotedEscape]
        rw [if_neg newline, other]
        exact ⟨rfl, behind.behind⟩

/-- The search for the closing bracket stands in front of the other checks. -/
theorem bracketStep_eq (scan : WordScan) (stands : Stands input place (symbol :: next)) :
    (if symbol = '[' then
        Bytes.hasClosingBracketBeforeWordEnd input place >>= fun closes =>
          if closes = true then Scan.fail place (.unsupported .glob)
          else Bytes.plainStep place symbol scan
      else Bytes.plainStep place symbol scan) =
      if symbol = '[' ∧ hasClosingBracketBeforeWordEnd next = true then
        Scan.fail place (.unsupported .glob)
      else Bytes.plainStep place symbol scan := by
  by_cases bracket : symbol = '['
  · subst bracket
    have behind := stands.one rfl
    have searched : Bytes.hasClosingBracketBeforeWordEnd input place =
        pure (hasClosingBracketBeforeWordEnd next) :=
      closingBracketLoop_eq behind behind.length
    rw [if_pos rfl, searched, pure_bind]
    by_cases closes : hasClosingBracketBeforeWordEnd next = true
    · rw [if_pos closes, if_pos ⟨rfl, closes⟩]
    · rw [if_neg closes, if_neg (fun both => closes both.2)]
  · rw [if_neg bracket, if_neg (fun both => bracket both.1)]

theorem wordStep_tracks (scan : WordScan) (stands : Stands input place (symbol :: next)) :
    Tracks input (Moved input) (Bytes.wordStep input place symbol scan)
      (wordStep input (symbol :: next) symbol next scan) := by
  unfold Bytes.wordStep wordStep
  rw [bracketStep_eq scan stands]
  apply Tracks.ite
  · intro single
    subst single
    apply Tracks.bind (scanSingleQuoted_tracks scan.flushed stands)
    intro left right returned moved
    obtain ⟨same, further⟩ := moved
    rw [same]
    exact .pure further
  · intro unquoted
    apply Tracks.ite
    · intro double
      subst double
      apply Tracks.bind (scanDoubleQuoted_tracks scan.flushed stands)
      intro left right returned moved
      obtain ⟨same, further⟩ := moved
      rw [same]
      exact .pure further
    · intro bare
      apply Tracks.ite
      · intro escape
        subst escape
        obtain ⟨same, further⟩ := scanUnquotedEscape_moved stands
        generalize Bytes.scanUnquotedEscape input place = left at same further ⊢
        generalize scanUnquotedEscape ('\\' :: next) = right at same further ⊢
        obtain ⟨behind, escaped⟩ := left
        obtain ⟨rest, escaped'⟩ := right
        obtain rfl : escaped = escaped' := same
        cases escaped with
        | none => exact .pure further
        | some escaped => exact .pure further
      · intro unescaped
        apply Tracks.ite
        · intro dollar
          subst dollar
          apply Tracks.bind (scanExpansion_tracks false scan.toLiterals stands)
          intro left right returned moved
          obtain ⟨same, further⟩ := moved
          rw [same]
          exact .pure further
        · intro literal
          unfold Bytes.plainStep
          apply Tracks.refuse stands
          intro pattern
          apply Tracks.refuse stands
          intro bracket
          apply Tracks.refuse stands
          intro backtick
          apply Tracks.refuse stands
          intro subshell
          apply Tracks.refuse stands
          intro brace
          apply Tracks.refuse stands
          intro tilde
          exact .pure stands.behind

theorem wordLoop_tracks {fuel more : Nat} (scan : WordScan) (stands : Stands input place rest)
    (enough : rest.length < fuel) (plenty : rest.length < more) :
    Tracks input (Moved input) (Bytes.wordLoop input fuel place scan)
      (wordLoop input more rest scan) := by
  induction fuel generalizing more place rest scan with
  | zero => omega
  | succ fuel ih =>
      obtain ⟨more, rfl⟩ := Nat.exists_eq_add_one.mpr (Nat.zero_lt_of_lt plenty)
      unfold Bytes.wordLoop
      rw [stands.peek]
      cases rest with
      | nil => exact .pure stands
      | cons symbol next =>
          rw [List.length_cons] at enough plenty
          rw [List.head?_cons, wordLoop]
          dsimp only
          apply Tracks.ite
          · intro ends
            exact .pure stands
          · intro inside
            apply Tracks.bind (wordStep_tracks scan stands)
            intro left right returned moved
            have shorter := (wordStep_advances symbol next scan).shorter returned
            obtain ⟨same, further⟩ := moved
            rw [same]
            exact ih right.1 further (by omega) (by omega)

theorem scanWord_tracks (stands : Stands input place rest) :
    Tracks input (Moved input) (Bytes.scanWord input place) (scanWord input rest) := by
  unfold Bytes.scanWord scanWord
  apply Tracks.bind (wordLoop_tracks {} stands stands.length (Nat.lt_succ_self _))
  intro left right returned moved
  obtain ⟨same, further⟩ := moved
  rw [same]
  apply Tracks.ite
  · intro content
    exact .pure further
  · intro empty
    exact .pure further

end Loops

end TinySandbox.Shell
