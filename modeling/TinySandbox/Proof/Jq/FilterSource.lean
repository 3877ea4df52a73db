/-
This file shows that the check of a filter bounds what the lexer finds, unless a comment goes on
behind its line. The check stays close behind the lexer.
-/

import TinySandbox.Specification.FilterLexing

namespace TinySandbox.Jq

/-! ## The check alone -/

namespace FilterScan

variable {scan : FilterScan} {byte : UInt8} {rest : Bytes}

/-- Nothing but the number of tokens differs. -/
def counting (scan : FilterScan) (count : Nat) : FilterScan := { scan with syntaxTokens := count }

/-- The check is outside strings and comments. -/
structure InCode (scan : FilterScan) : Prop where
  inString : scan.inString = false
  escaped : scan.escaped = false
  inComment : scan.inComment = false

theorem run_nil (skip : Nat) : run skip scan [] = .ok () := by cases skip <;> rfl

theorem run_skip (more skip : Nat) (scan : FilterScan) (bytes : Bytes) :
    run (more + skip) scan bytes = run skip scan (bytes.drop more) := by
  induction more generalizing bytes with
  | zero => rw [Nat.zero_add, List.drop_zero]
  | succ more ih =>
      cases bytes with
      | nil => rw [List.drop_nil, run_nil, run_nil]
      | cons byte rest =>
          rw [Nat.succ_add, List.drop_succ_cons]
          exact ih rest

theorem run_drop (more : Nat) (scan : FilterScan) (bytes : Bytes) :
    run more scan bytes = run 0 scan (bytes.drop more) := run_skip more 0 scan bytes

theorem run_cons (scan : FilterScan) (byte : UInt8) (rest : Bytes) :
    run 0 scan (byte :: rest) = (scan.byte byte rest).bind fun next => run next.2 next.1 rest := rfl

theorem byte_of_inCode (inCode : scan.InCode) : scan.byte byte rest = scan.codeByte byte rest := by
  unfold FilterScan.byte
  rw [inCode.inComment, inCode.inString]
  rfl

theorem bumpSyntaxToken_ok {after : FilterScan} (bumped : scan.bumpSyntaxToken = .ok after) :
    after = scan.counting (scan.syntaxTokens + 1) ∧
      scan.syntaxTokens + 1 ≤ maxJqFilterSyntaxTokens := by
  unfold bumpSyntaxToken at bumped
  split at bumped
  · cases bumped
  · next room =>
      cases bumped
      exact ⟨rfl, Nat.le_of_not_lt room⟩

/-- A token of the check is counted before its bytes are skipped. -/
theorem bump_run {more : Nat} {bytes : Bytes}
    (accepted : (do
      let scan ← scan.bumpSyntaxToken
      .ok (scan, more) : Except JqError (FilterScan × Nat)).bind
        (fun next => run next.2 next.1 bytes) = .ok ()) :
    scan.syntaxTokens + 1 ≤ maxJqFilterSyntaxTokens ∧
      run more (scan.counting (scan.syntaxTokens + 1)) bytes = .ok () := by
  cases bumped : scan.bumpSyntaxToken with
  | error error =>
      rw [bumped] at accepted
      cases accepted
  | ok after =>
      obtain ⟨rfl, room⟩ := bumpSyntaxToken_ok bumped
      rw [bumped] at accepted
      exact ⟨room, accepted⟩

/-- The byte is neither blank nor the start of a comment or a string, and it is no delimiter. -/
def IsPlain (byte : UInt8) : Prop :=
  isAsciiWhitespace byte = false ∧ byte ≠ ascii '#' ∧ byte ≠ ascii '"' ∧ isClosing byte = false ∧
    delimiterOf byte = none

instance (byte : UInt8) : Decidable (IsPlain byte) :=
  inferInstanceAs (Decidable (_ ∧ _ ∧ _ ∧ _ ∧ _))

/-- The byte is plain, and no name and no number starts with it. -/
def IsSymbol (byte : UInt8) : Prop :=
  IsPlain byte ∧ isJqIdentStart byte = false ∧ isAsciiDigit byte = false

instance (byte : UInt8) : Decidable (IsSymbol byte) := inferInstanceAs (Decidable (_ ∧ _ ∧ _))

theorem forall_byte {holds : UInt8 → Prop} (checked : ∀ number : Fin 256, holds ⟨⟨number⟩⟩)
    (byte : UInt8) : holds byte := checked byte.toBitVec.toFin

/-- A letter is no digit. -/
theorem plain_of_start : ∀ byte, isJqIdentStart byte = true →
    IsPlain byte ∧ isAsciiDigit byte = false ∧ isJqIdentContinue byte = true := by
  apply forall_byte
  decide +kernel

theorem plain_of_digit : ∀ byte, isAsciiDigit byte = true →
    IsPlain byte ∧ isJqIdentStart byte = false ∧ isJqIdentContinue byte = true := by
  apply forall_byte
  decide +kernel

/-- A name goes on with a letter or with a digit. -/
theorem start_of_continue : ∀ byte, isJqIdentContinue byte = true → isAsciiDigit byte = false →
    isJqIdentStart byte = true := by
  apply forall_byte
  decide +kernel

theorem symbol_of_operator : ∀ byte, byte ∈ operatorSymbols → IsSymbol byte := by
  apply forall_byte
  decide +kernel

theorem codeByte_plain (plain : IsPlain byte) :
    scan.codeByte byte rest = (do
      let scan ← scan.bumpSyntaxToken
      .ok (scan,
        if isJqIdentStart byte then (rest.takeWhile isJqIdentContinue).length
        else if isAsciiDigit byte then digitsLength rest
        else jqOperatorLen (byte :: rest) - 1)) := by
  obtain ⟨blank, comment, quote, closing, opening⟩ := plain
  have ends : ¬ (byte = ascii ')' ∨ byte = ascii ']' ∨ byte = ascii '}') := by
    simpa [isClosing] using closing
  obtain ⟨paren, bracket, brace⟩ : byte ≠ ascii '(' ∧ byte ≠ ascii '[' ∧ byte ≠ ascii '{' := by
    unfold delimiterOf at opening
    split_ifs at opening with paren bracket brace
    exact ⟨paren, bracket, brace⟩
  obtain ⟨closeParen, others⟩ := not_or.mp ends
  obtain ⟨closeBracket, closeBrace⟩ := not_or.mp others
  unfold codeByte
  rw [blank, if_neg (by decide), if_neg comment, if_neg quote, if_neg paren, if_neg bracket,
    if_neg brace, if_neg closeParen, if_neg closeBracket, if_neg closeBrace]
  split_ifs
  · rfl
  · rfl
  · rfl

theorem run_plain (inCode : scan.InCode) (plain : IsPlain byte)
    (accepted : run 0 scan (byte :: rest) = .ok ()) :
    scan.syntaxTokens + 1 ≤ maxJqFilterSyntaxTokens ∧
      run (if isJqIdentStart byte then (rest.takeWhile isJqIdentContinue).length
        else if isAsciiDigit byte then digitsLength rest
        else jqOperatorLen (byte :: rest) - 1) (scan.counting (scan.syntaxTokens + 1)) rest =
        .ok () := by
  rw [run_cons, byte_of_inCode inCode, codeByte_plain plain] at accepted
  exact bump_run accepted

theorem run_symbol (inCode : scan.InCode) (symbol : IsSymbol byte)
    (accepted : run 0 scan (byte :: rest) = .ok ()) :
    scan.syntaxTokens + 1 ≤ maxJqFilterSyntaxTokens ∧
      run (jqOperatorLen (byte :: rest) - 1) (scan.counting (scan.syntaxTokens + 1)) rest =
        .ok () := by
  obtain ⟨plain, word, digit⟩ := symbol
  have read := run_plain inCode plain accepted
  rwa [word, digit, if_neg (by decide), if_neg (by decide)] at read

theorem run_word (inCode : scan.InCode) (start : isJqIdentStart byte = true)
    (accepted : run 0 scan (byte :: rest) = .ok ()) :
    scan.syntaxTokens + 1 ≤ maxJqFilterSyntaxTokens ∧
      run (rest.takeWhile isJqIdentContinue).length (scan.counting (scan.syntaxTokens + 1)) rest =
        .ok () := by
  have read := run_plain inCode (plain_of_start byte start).1 accepted
  rwa [if_pos start] at read

/-- The check reads on with at least so many more tokens. -/
def Reads (scan : FilterScan) (least more : Nat) (bytes : Bytes) : Prop :=
  ∃ count, scan.syntaxTokens + least ≤ count ∧ count ≤ maxJqFilterSyntaxTokens ∧
    run more (scan.counting count) bytes = .ok ()

theorem Reads.trans {first second more : Nat} {bytes later : Bytes}
    (reads : scan.Reads first 0 bytes)
    (next : ∀ count, count ≤ maxJqFilterSyntaxTokens →
      run 0 (scan.counting count) bytes = .ok () → (scan.counting count).Reads second more later) :
    scan.Reads (first + second) more later := by
  obtain ⟨middle, grown, room, accepted⟩ := reads
  obtain ⟨last, more, fits, rest⟩ := next middle room accepted
  have sum : middle + second ≤ last := more
  exact ⟨last, by omega, fits, rest⟩

theorem reads_self {bytes : Bytes} (room : scan.syntaxTokens ≤ maxJqFilterSyntaxTokens)
    (accepted : run 0 scan bytes = .ok ()) : scan.Reads 0 0 bytes :=
  ⟨scan.syntaxTokens, le_rfl, room, accepted⟩

theorem InCode.counting (inCode : scan.InCode) (count : Nat) : (scan.counting count).InCode :=
  ⟨inCode.inString, inCode.escaped, inCode.inComment⟩

theorem run_digit (inCode : scan.InCode) (digit : isAsciiDigit byte = true)
    (accepted : run 0 scan (byte :: rest) = .ok ()) :
    scan.Reads 1 0 (rest.drop (digitsLength rest)) := by
  obtain ⟨plain, word, -⟩ := plain_of_digit byte digit
  obtain ⟨room, accepted⟩ := run_plain inCode plain accepted
  rw [word, digit, if_neg (by decide), if_pos rfl, run_drop] at accepted
  exact ⟨_, le_rfl, room, accepted⟩

/-- No digit starts the rest. -/
def NoDigit (bytes : Bytes) : Prop := ∀ byte, bytes.head? = some byte → isAsciiDigit byte = false

theorem digitsLength_cons (digit : isAsciiDigit byte = true) :
    digitsLength (byte :: rest) = digitsLength rest + 1 := by
  unfold digitsLength
  rw [List.takeWhile_cons_of_pos digit, List.length_cons]

theorem digitsLength_zero {bytes : Bytes} (none : NoDigit bytes) : digitsLength bytes = 0 := by
  cases bytes with
  | nil => rfl
  | cons byte rest =>
      have other : ¬ isAsciiDigit byte = true := by simp [none byte rfl]
      unfold digitsLength
      rw [List.takeWhile_cons_of_neg other, List.length_nil]

theorem noDigit_drop (bytes : Bytes) : NoDigit (bytes.drop (digitsLength bytes)) := by
  induction bytes with
  | nil =>
      intro byte head
      cases head
  | cons first rest ih =>
      by_cases digit : isAsciiDigit first = true
      · rw [digitsLength_cons digit, List.drop_succ_cons]
        exact ih
      · have none : NoDigit (first :: rest) := by
          intro byte head
          cases head
          simpa using digit
        rw [digitsLength_zero none]
        exact none

theorem run_digits {bytes : Bytes} (inCode : scan.InCode)
    (room : scan.syntaxTokens ≤ maxJqFilterSyntaxTokens) (accepted : run 0 scan bytes = .ok ()) :
    scan.Reads 0 0 (bytes.drop (digitsLength bytes)) := by
  cases bytes with
  | nil => exact reads_self room accepted
  | cons byte rest =>
      by_cases digit : isAsciiDigit byte = true
      · rw [digitsLength_cons digit, List.drop_succ_cons]
        obtain ⟨count, grown, fits, later⟩ := run_digit inCode digit accepted
        exact ⟨count, by omega, fits, later⟩
      · have none : NoDigit (byte :: rest) := by
          intro other head
          cases head
          simpa using digit
        rw [digitsLength_zero none]
        exact reads_self room accepted

theorem dot_not_mem : ∀ next, [ascii '.', next] ∉ jqOperators := by
  apply forall_byte
  decide +kernel

theorem equals_not_mem : ∀ next, next ≠ ascii '=' → [ascii '=', next] ∉ jqOperators := by
  apply forall_byte
  decide +kernel

theorem run_dot (inCode : scan.InCode) (accepted : run 0 scan (ascii '.' :: rest) = .ok ()) :
    scan.Reads 1 0 rest := by
  obtain ⟨room, accepted⟩ := run_symbol inCode (symbol_of_operator _ (by decide)) accepted
  have single : jqOperatorLen (ascii '.' :: rest) = 1 := by
    apply if_neg
    cases rest with
    | nil => decide
    | cons next rest => exact dot_not_mem next
  rw [single] at accepted
  exact ⟨_, le_rfl, room, accepted⟩

theorem run_fraction {bytes : Bytes} (inCode : scan.InCode)
    (room : scan.syntaxTokens ≤ maxJqFilterSyntaxTokens) (accepted : run 0 scan bytes = .ok ()) :
    scan.Reads 0 0 (bytes.drop (fractionLength bytes)) := by
  cases bytes with
  | nil => exact reads_self room accepted
  | cons byte rest =>
      change scan.Reads 0 0
        ((byte :: rest).drop (if byte = ascii '.' then digitsLength rest + 1 else 0))
      split_ifs with dot
      · subst dot
        obtain ⟨count, grown, fits, later⟩ := (run_dot inCode accepted).trans
          fun count fits read => run_digits (inCode.counting count) fits read
        rw [List.drop_succ_cons]
        exact ⟨count, by omega, fits, later⟩
      · exact reads_self room accepted

/-- What the check still skips is the rest of a name. -/
def WordEnd (bytes : Bytes) (more : Nat) : Prop :=
  NoDigit bytes ∧ more = (bytes.takeWhile isJqIdentContinue).length

theorem takeWhile_digits (bytes : Bytes) :
    (bytes.takeWhile isJqIdentContinue).length =
      digitsLength bytes + ((bytes.drop (digitsLength bytes)).takeWhile isJqIdentContinue).length := by
  induction bytes with
  | nil => rfl
  | cons byte rest ih =>
      by_cases digit : isAsciiDigit byte = true
      · rw [digitsLength_cons digit, List.drop_succ_cons,
          List.takeWhile_cons_of_pos (plain_of_digit byte digit).2.2, List.length_cons, ih]
        omega
      · have none : NoDigit (byte :: rest) := by
          intro other head
          cases head
          simpa using digit
        rw [digitsLength_zero none, List.drop_zero, Nat.zero_add]

/-- A sign in front of a digit is read alone. -/
theorem sign_not_mem : ∀ next, isAsciiDigit next = true →
    [ascii '+', next] ∉ jqOperators ∧ [ascii '-', next] ∉ jqOperators := by
  apply forall_byte
  decide +kernel

theorem digit_of_digitsLength {bytes : Bytes} (some_ : digitsLength bytes ≠ 0) :
    ∃ digit rest, bytes = digit :: rest ∧ isAsciiDigit digit = true := by
  cases bytes with
  | nil => exact absurd rfl some_
  | cons digit rest =>
      refine ⟨digit, rest, rfl, ?_⟩
      by_contra other
      apply some_
      unfold digitsLength
      rw [List.takeWhile_cons_of_neg other, List.length_nil]

theorem run_sign {sign : UInt8} (inCode : scan.InCode)
    (listed : sign = ascii '+' ∨ sign = ascii '-') (digits : digitsLength rest ≠ 0)
    (accepted : run 0 scan (sign :: rest) = .ok ()) : scan.Reads 1 0 rest := by
  have symbol : IsSymbol sign := by
    rcases listed with rfl | rfl
    · exact symbol_of_operator _ (by decide)
    · exact symbol_of_operator _ (by decide)
  obtain ⟨room, accepted⟩ := run_symbol inCode symbol accepted
  have single : jqOperatorLen (sign :: rest) = 1 := by
    obtain ⟨digit, rest, rfl, isDigit⟩ := digit_of_digitsLength digits
    obtain ⟨plus, minus⟩ := sign_not_mem digit isDigit
    apply if_neg
    rcases listed with rfl | rfl
    · exact plus
    · exact minus
  rw [single] at accepted
  exact ⟨_, le_rfl, room, accepted⟩

theorem run_exponent {bytes : Bytes} (inCode : scan.InCode)
    (room : scan.syntaxTokens ≤ maxJqFilterSyntaxTokens) (accepted : run 0 scan bytes = .ok ()) :
    ∃ more, (more = 0 ∨ WordEnd (bytes.drop (exponentLength bytes)) more) ∧
      scan.Reads 0 more (bytes.drop (exponentLength bytes)) := by
  cases bytes with
  | nil => exact ⟨0, .inl rfl, reads_self room accepted⟩
  | cons letter rest =>
      have length : exponentLength (letter :: rest) =
          if (letter = ascii 'e' ∨ letter = ascii 'E') ∧
              digitsLength (rest.drop (if rest.head? = some (ascii '+') ∨
                rest.head? = some (ascii '-') then 1 else 0)) ≠ 0 then
            digitsLength (rest.drop (if rest.head? = some (ascii '+') ∨
              rest.head? = some (ascii '-') then 1 else 0)) +
              (if rest.head? = some (ascii '+') ∨ rest.head? = some (ascii '-') then 1 else 0) + 1
          else 0 := rfl
      rw [length]
      by_cases signed : rest.head? = some (ascii '+') ∨ rest.head? = some (ascii '-')
      · rw [if_pos signed]
        by_cases exponent : (letter = ascii 'e' ∨ letter = ascii 'E') ∧
            digitsLength (rest.drop 1) ≠ 0
        · rw [if_pos exponent]
          have start : isJqIdentStart letter = true := by
            rcases exponent.1 with rfl | rfl <;> decide
          obtain ⟨fits, accepted⟩ := run_word inCode start accepted
          obtain ⟨sign, tail, rfl, listed⟩ :
              ∃ sign tail, rest = sign :: tail ∧ (sign = ascii '+' ∨ sign = ascii '-') := by
            cases rest with
            | nil => simp at signed
            | cons sign tail => exact ⟨sign, tail, rfl, by simpa using signed⟩
          have stops : ¬ isJqIdentContinue sign = true := by
            rcases listed with rfl | rfl <;> decide
          rw [List.takeWhile_cons_of_neg stops, List.length_nil] at accepted
          obtain ⟨count, grown, fits, later⟩ :=
            (run_sign (inCode.counting _) listed exponent.2 accepted).trans
              fun count fits read => run_digits ((inCode.counting _).counting count) fits read
          have grown : scan.syntaxTokens + 1 + (1 + 0) ≤ count := grown
          exact ⟨0, .inl rfl, count, by omega, fits, later⟩
        · rw [if_neg exponent]
          exact ⟨0, .inl rfl, reads_self room accepted⟩
      · rw [if_neg signed]
        by_cases exponent : (letter = ascii 'e' ∨ letter = ascii 'E') ∧
            digitsLength (rest.drop 0) ≠ 0
        · rw [if_pos exponent]
          have start : isJqIdentStart letter = true := by
            rcases exponent.1 with rfl | rfl <;> decide
          obtain ⟨fits, accepted⟩ := run_word inCode start accepted
          rw [takeWhile_digits, run_skip] at accepted
          rw [List.drop_zero, Nat.add_zero, List.drop_succ_cons]
          exact ⟨_, .inr ⟨noDigit_drop rest, rfl⟩, _, Nat.le_succ _, fits, accepted⟩
        · rw [if_neg exponent]
          exact ⟨0, .inl rfl, reads_self room accepted⟩

theorem numberLength_drop (bytes : Bytes) :
    bytes.drop (numberLength bytes) =
      (((bytes.drop (digitsLength bytes)).drop
        (fractionLength (bytes.drop (digitsLength bytes)))).drop
          (exponentLength ((bytes.drop (digitsLength bytes)).drop
            (fractionLength (bytes.drop (digitsLength bytes)))))) := by
  unfold numberLength
  simp only [List.drop_drop, Nat.add_assoc]

/-- A number is at least one token of the check, and the check may be in a name behind it. -/
theorem run_number (inCode : scan.InCode) (digit : isAsciiDigit byte = true)
    (accepted : run 0 scan (byte :: rest) = .ok ()) :
    ∃ more, (more = 0 ∨ WordEnd (rest.drop (numberLength rest)) more) ∧
      scan.Reads 1 more (rest.drop (numberLength rest)) := by
  obtain ⟨count, grown, fits, accepted⟩ := (run_digit inCode digit accepted).trans
    fun count fits read => run_fraction (inCode.counting count) fits read
  obtain ⟨more, behind, last, later, room, accepted⟩ :=
    run_exponent (inCode.counting count) fits accepted
  rw [numberLength_drop]
  have later : count + 0 ≤ last := later
  exact ⟨more, behind, last, by omega, room, accepted⟩

/-- The check ends a comment where the lexer does, unless the comment goes on behind its line. -/
theorem run_comment (bytes : Bytes) : ∀ odd, commentContinues odd bytes = false →
    run 0 { scan with inComment := true } bytes =
      run 0 { scan with inComment := false } (bytes.drop (commentLength odd bytes)) := by
  induction bytes with
  | nil =>
      intro odd _
      rw [List.drop_nil, run_nil, run_nil]
  | cons byte rest ih =>
      intro odd stops
      unfold commentContinues at stops
      unfold commentLength
      rw [run_cons]
      by_cases line : byte = 10
      · rw [if_pos line] at stops
        rw [if_pos line, stops, if_neg (by decide), List.drop_succ_cons, List.drop_zero]
        unfold FilterScan.byte
        rw [if_pos rfl, if_pos line]
        rfl
      · rw [if_neg line] at stops
        rw [if_neg line, List.drop_succ_cons, ← ih _ stops]
        unfold FilterScan.byte
        rw [if_pos rfl, if_neg line]
        rfl

/-- The check reads the text of a string without any change. -/
theorem run_text (inString : scan.inString = true) (escaped : scan.escaped = false)
    (inComment : scan.inComment = false) (bytes : Bytes) :
    run 0 scan bytes = run 0 scan (bytes.drop (bytes.takeWhile isStringText).length) := by
  induction bytes with
  | nil => rw [List.drop_nil]
  | cons byte rest ih =>
      by_cases text : isStringText byte = true
      · rw [List.takeWhile_cons_of_pos text, List.length_cons, List.drop_succ_cons, ← ih, run_cons]
        have plain : ¬ (byte = ascii '"' ∨ byte = ascii '\\') := by simpa [isStringText] using text
        obtain ⟨quote, backslash⟩ := not_or.mp plain
        unfold FilterScan.byte stringByte
        rw [inComment, inString, escaped, if_neg (by decide), if_pos rfl, if_neg (by decide),
          if_neg backslash, if_neg quote]
        rfl
      · rw [List.takeWhile_cons_of_neg text, List.length_nil, List.drop_zero]

end FilterScan

/-! ## The check beside the lexer -/

open FilterScan

/-- The delimiters that are open in the contexts. -/
def openDelimiters : List FilterContext → List FilterDelimiter
  | [] => []
  | .string :: contexts => openDelimiters contexts
  | .inside delimiter :: contexts => delimiter :: openDelimiters contexts

/-- Only an interpolation stands right inside a string, and it always does. -/
def Nested : List FilterContext → Prop
  | [] => True
  | .string :: contexts => contexts.head? ≠ some .string ∧ Nested contexts
  | .inside delimiter :: contexts =>
      (delimiter = .interpolation ↔ contexts.head? = some .string) ∧ Nested contexts

/-- The check is in the contexts of the lexer, and its limits hold. -/
structure Matches (contexts : List FilterContext) (scan : FilterScan) : Prop where
  nested : Nested contexts
  stack : scan.stack = openDelimiters contexts
  inString : scan.inString = decide (contexts.head? = some .string)
  escaped : scan.escaped = false
  inComment : scan.inComment = false
  depth : scan.stack.length ≤ maxJqFilterNesting
  room : scan.syntaxTokens ≤ maxJqFilterSyntaxTokens

/-- The check is a name or half an operator behind the lexer. The second number counts a token of
the check that the lexer has not seen. -/
inductive Lag (contexts : List FilterContext) (bytes : Bytes) : Nat → Nat → Prop where
  | nothing : Lag contexts bytes 0 0
  | word {more : Nat} (code : contexts.head? ≠ some .string) (inside : WordEnd bytes more) :
      Lag contexts bytes more 0
  | equals (code : contexts.head? ≠ some .string) (head : bytes.head? = some (ascii '=')) :
      Lag contexts bytes 1 1

/-- The check accepts the rest, and it counted at least the tokens that the lexer has seen. -/
def Tracks (contexts : List FilterContext) (seen : Nat) (bytes : Bytes) : Prop :=
  ∃ scan more ahead, Lag contexts bytes more ahead ∧ Matches contexts scan ∧
    seen + ahead ≤ scan.syntaxTokens ∧ run more scan bytes = .ok ()

section Tokens
variable {contexts : List FilterContext} {scan : FilterScan} {byte : UInt8} {rest : Bytes}
  {seen : Nat}

theorem Matches.inCode (agree : Matches contexts scan) (code : contexts.head? ≠ some .string) :
    scan.InCode where
  inString := by
    rw [agree.inString]
    exact decide_eq_false code
  escaped := agree.escaped
  inComment := agree.inComment

theorem Matches.counting (agree : Matches contexts scan) {count : Nat}
    (room : count ≤ maxJqFilterSyntaxTokens) : Matches contexts (scan.counting count) :=
  ⟨agree.nested, agree.stack, agree.inString, agree.escaped, agree.inComment, agree.depth, room⟩

/-- A token in the same contexts. -/
theorem tracks_of_reads (agree : Matches contexts scan) {least more ahead : Nat} {bytes : Bytes}
    (lag : Lag contexts bytes more ahead) (enough : seen + ahead ≤ scan.syntaxTokens + least)
    (reads : scan.Reads least more bytes) : Tracks contexts seen bytes := by
  obtain ⟨count, grown, room, accepted⟩ := reads
  exact ⟨scan.counting count, more, ahead, lag, agree.counting room, enough.trans grown, accepted⟩

theorem tracks_blank (agree : Matches contexts scan) (code : contexts.head? ≠ some .string)
    (enough : seen ≤ scan.syntaxTokens) (blank : isAsciiWhitespace byte = true)
    (accepted : run 0 scan (byte :: rest) = .ok ()) : Tracks contexts seen rest := by
  rw [run_cons, byte_of_inCode (agree.inCode code)] at accepted
  unfold codeByte at accepted
  rw [if_pos blank] at accepted
  exact ⟨scan, 0, 0, .nothing, agree, enough, accepted⟩

theorem tracks_comment (agree : Matches contexts scan) (code : contexts.head? ≠ some .string)
    (enough : seen ≤ scan.syntaxTokens) (stops : commentContinues false rest = false)
    (accepted : run 0 scan (ascii '#' :: rest) = .ok ()) :
    Tracks contexts seen (rest.drop (commentLength false rest)) := by
  rw [run_cons, byte_of_inCode (agree.inCode code)] at accepted
  change run 0 { scan with inComment := true } rest = .ok () at accepted
  rw [run_comment rest false stops] at accepted
  have same : { scan with inComment := false } = scan := by
    rw [← agree.inComment]
  rw [same] at accepted
  exact ⟨scan, 0, 0, .nothing, agree, enough, accepted⟩

theorem tracks_word (agree : Matches contexts scan) (code : contexts.head? ≠ some .string)
    (enough : seen ≤ scan.syntaxTokens) (start : isJqIdentStart byte = true)
    (accepted : run 0 scan (byte :: rest) = .ok ()) :
    Tracks contexts seen (rest.drop (rest.takeWhile isJqIdentContinue).length) := by
  obtain ⟨room, accepted⟩ := run_word (agree.inCode code) start accepted
  rw [run_drop] at accepted
  exact tracks_of_reads agree .nothing (enough.trans (Nat.le_succ _)) ⟨_, le_rfl, room, accepted⟩

theorem tracks_number (agree : Matches contexts scan) (code : contexts.head? ≠ some .string)
    (enough : seen ≤ scan.syntaxTokens) (digit : isAsciiDigit byte = true)
    (accepted : run 0 scan (byte :: rest) = .ok ()) :
    Tracks contexts seen (rest.drop (numberLength rest)) := by
  obtain ⟨more, behind, reads⟩ := run_number (agree.inCode code) digit accepted
  rcases behind with rfl | inside
  · exact tracks_of_reads agree .nothing (enough.trans (Nat.le_succ _)) reads
  · exact tracks_of_reads agree (.word code inside) (enough.trans (Nat.le_succ _)) reads

/-- The check reads an equality sign alone or with the next one. -/
theorem run_equals (inCode : scan.InCode) (accepted : run 0 scan (ascii '=' :: rest) = .ok ()) :
    scan.Reads 1 0 rest ∨ scan.Reads 1 1 rest ∧ rest.head? = some (ascii '=') := by
  obtain ⟨room, accepted⟩ := run_symbol inCode (symbol_of_operator _ (by decide)) accepted
  by_cases double : rest.head? = some (ascii '=')
  · obtain ⟨tail, rfl⟩ := List.head?_eq_some_iff.mp double
    have pair : jqOperatorLen (ascii '=' :: ascii '=' :: tail) = 2 := if_pos (by
      change [ascii '=', ascii '='] ∈ jqOperators
      decide)
    rw [pair] at accepted
    exact .inr ⟨⟨_, le_rfl, room, accepted⟩, rfl⟩
  · have single : jqOperatorLen (ascii '=' :: rest) = 1 := by
      apply if_neg
      cases rest with
      | nil => decide
      | cons next rest =>
          have other : next ≠ ascii '=' := fun same => double (same ▸ rfl)
          exact equals_not_mem next other
    rw [single] at accepted
    exact .inl ⟨_, le_rfl, room, accepted⟩

/-- The longest operators are two tokens of the check at least. -/
theorem tracks_long (agree : Matches contexts scan) (code : contexts.head? ≠ some .string)
    (enough : seen ≤ scan.syntaxTokens) (long : (byte :: rest).take 3 ∈ longOperators)
    (accepted : run 0 scan (byte :: rest) = .ok ()) : Tracks contexts (seen + 1) (rest.drop 2) := by
  have inCode := agree.inCode code
  obtain ⟨tail, whole⟩ : ∃ tail, byte :: rest = ascii '/' :: ascii '/' :: ascii '=' :: tail ∨
      byte :: rest = ascii '?' :: ascii '/' :: ascii '/' :: tail := by
    simp only [longOperators, List.map_cons, List.map_nil, List.mem_cons, List.not_mem_nil,
      or_false] at long
    refine ⟨(byte :: rest).drop 3, ?_⟩
    rcases long with same | same
    · left
      rw [← List.take_append_drop 3 (byte :: rest), same]
      rfl
    · right
      rw [← List.take_append_drop 3 (byte :: rest), same]
      rfl
  rcases whole with whole | whole
  · obtain ⟨rfl, rfl⟩ := List.cons.inj whole
    obtain ⟨room, accepted⟩ := run_symbol inCode (symbol_of_operator _ (by decide)) accepted
    have pair : jqOperatorLen (ascii '/' :: ascii '/' :: ascii '=' :: tail) = 2 := if_pos (by
      change [ascii '/', ascii '/'] ∈ jqOperators
      decide)
    rw [pair, run_drop] at accepted
    change Tracks contexts (seen + 1) tail
    rcases run_equals (inCode.counting _) accepted with alone | ⟨double, head⟩
    · obtain ⟨count, grown, fits, later⟩ := alone
      have reads : scan.Reads 2 0 tail := ⟨count, grown, fits, later⟩
      exact tracks_of_reads agree .nothing (by omega) reads
    · obtain ⟨count, grown, fits, later⟩ := double
      have reads : scan.Reads 2 1 tail := ⟨count, grown, fits, later⟩
      exact tracks_of_reads agree (.equals code head) (by omega) reads
  · obtain ⟨rfl, rfl⟩ := List.cons.inj whole
    obtain ⟨room, accepted⟩ := run_symbol inCode (symbol_of_operator _ (by decide)) accepted
    have single : jqOperatorLen (ascii '?' :: ascii '/' :: ascii '/' :: tail) = 1 := if_neg (by
      change [ascii '?', ascii '/'] ∉ jqOperators
      decide)
    rw [single] at accepted
    obtain ⟨fits, accepted⟩ :=
      run_symbol (inCode.counting _) (symbol_of_operator _ (by decide)) accepted
    have pair : jqOperatorLen (ascii '/' :: ascii '/' :: tail) = 2 := if_pos (by
      change [ascii '/', ascii '/'] ∈ jqOperators
      decide)
    rw [pair, run_drop] at accepted
    have reads : scan.Reads 2 0 tail := ⟨_, le_rfl, fits, accepted⟩
    exact tracks_of_reads agree .nothing (by omega) reads

theorem operatorLength_eq (bytes : Bytes) :
    operatorLength bytes =
      if bytes.take 3 ∈ longOperators then 3
      else if bytes.take 2 ∈ jqOperators ∨ bytes.take 2 = [ascii '.', ascii '.'] then 2
      else 1 := by
  simp only [operatorLength, exists_eq_right', List.mem_cons, or_comm]

theorem tracks_short (agree : Matches contexts scan) (code : contexts.head? ≠ some .string)
    (enough : seen ≤ scan.syntaxTokens) (operator : byte ∈ operatorSymbols)
    (short : (byte :: rest).take 3 ∉ longOperators) (accepted : run 0 scan (byte :: rest) = .ok ()) :
    Tracks contexts (seen + 1) (rest.drop (operatorLength (byte :: rest) - 1)) := by
  have inCode := agree.inCode code
  have start := symbol_of_operator byte operator
  obtain ⟨room, read⟩ := run_symbol inCode start accepted
  rw [operatorLength_eq, if_neg short]
  by_cases pair : (byte :: rest).take 2 ∈ jqOperators
  · have two : jqOperatorLen (byte :: rest) = 2 := if_pos pair
    rw [two, run_drop] at read
    rw [if_pos (.inl pair)]
    exact tracks_of_reads agree .nothing (Nat.add_le_add_right enough 1) ⟨_, le_rfl, room, read⟩
  · have one : jqOperatorLen (byte :: rest) = 1 := if_neg pair
    rw [one] at read
    by_cases dots : (byte :: rest).take 2 = [ascii '.', ascii '.']
    · rw [if_pos (.inr dots)]
      cases rest with
      | nil => cases dots
      | cons next tail =>
          obtain rfl : next = ascii '.' := (List.cons.inj (List.cons.inj dots).2).1
          obtain ⟨count, grown, fits, later⟩ := run_dot (inCode.counting _) read
          have reads : scan.Reads 2 0 tail := ⟨count, grown, fits, later⟩
          exact tracks_of_reads agree .nothing (by omega) reads
    · rw [if_neg (not_or.mpr ⟨pair, dots⟩)]
      exact tracks_of_reads agree .nothing (Nat.add_le_add_right enough 1) ⟨_, le_rfl, room, read⟩

/-- The check is in the middle of an operator that the lexer starts with. -/
theorem tracks_half (agree : Matches contexts scan) (code : contexts.head? ≠ some .string)
    (enough : seen + 1 ≤ scan.syntaxTokens) (accepted : run 0 scan rest = .ok ()) :
    Tracks contexts (seen + 1) (rest.drop (operatorLength (ascii '=' :: rest) - 1)) := by
  have inCode := agree.inCode code
  have short : (ascii '=' :: rest).take 3 ∉ longOperators := by
    intro long
    simp only [longOperators, List.map_cons, List.map_nil, List.mem_cons, List.not_mem_nil,
      or_false] at long
    rcases long with same | same
    · exact absurd (List.cons.inj same).1 (by decide)
    · exact absurd (List.cons.inj same).1 (by decide)
  have dots : ¬ (ascii '=' :: rest).take 2 = [ascii '.', ascii '.'] := by
    intro same
    exact absurd (List.cons.inj same).1 (by decide)
  rw [operatorLength_eq, if_neg short]
  by_cases pair : (ascii '=' :: rest).take 2 ∈ jqOperators
  · rw [if_pos (.inl pair)]
    cases rest with
    | nil => exact absurd pair (by decide)
    | cons next tail =>
        obtain rfl : next = ascii '=' := by
          by_contra other
          exact equals_not_mem next other pair
        change Tracks contexts (seen + 1) tail
        rcases run_equals inCode accepted with alone | ⟨double, head⟩
        · exact tracks_of_reads agree .nothing (by omega) alone
        · exact tracks_of_reads agree (.equals code head) (by omega) double
  · rw [if_neg (not_or.mpr ⟨pair, dots⟩)]
    exact ⟨scan, 0, 0, .nothing, agree, enough, accepted⟩

theorem other_single : ∀ byte, byte ∉ operatorSymbols → ∀ rest, jqOperatorLen (byte :: rest) = 1 := by
  have first : ∀ operator ∈ jqOperators, ∃ symbol ∈ operatorSymbols, operator.head? = some symbol := by
    decide
  intro byte other rest
  apply if_neg
  intro pair
  obtain ⟨symbol, member, head⟩ := first _ pair
  obtain rfl := Option.some.inj head
  exact other member

theorem tracks_other (agree : Matches contexts scan) (code : contexts.head? ≠ some .string)
    (enough : seen ≤ scan.syntaxTokens) (symbol : IsSymbol byte) (other : byte ∉ operatorSymbols)
    (accepted : run 0 scan (byte :: rest) = .ok ()) : Tracks contexts seen rest := by
  obtain ⟨room, read⟩ := run_symbol (agree.inCode code) symbol accepted
  rw [other_single byte other] at read
  exact tracks_of_reads agree .nothing (enough.trans (Nat.le_succ _)) ⟨_, le_rfl, room, read⟩

/-- A quote in the code opens a string. -/
theorem tracks_opening_quote (agree : Matches contexts scan)
    (code : contexts.head? ≠ some .string) (enough : seen ≤ scan.syntaxTokens)
    (accepted : run 0 scan (ascii '"' :: rest) = .ok ()) :
    Tracks (.string :: contexts) seen rest := by
  rw [run_cons, byte_of_inCode (agree.inCode code)] at accepted
  change ((do
    let scan ← scan.bumpSyntaxToken
    .ok ({ scan with inString := true }, 0) : Except JqError (FilterScan × Nat)).bind
      fun next => run next.2 next.1 rest) = .ok () at accepted
  cases bumped : scan.bumpSyntaxToken with
  | error error =>
      rw [bumped] at accepted
      cases accepted
  | ok after =>
      obtain ⟨rfl, room⟩ := bumpSyntaxToken_ok bumped
      rw [bumped] at accepted
      refine ⟨_, 0, 0, .nothing, ?_, enough.trans (Nat.le_succ _), accepted⟩
      exact ⟨⟨code, agree.nested⟩, agree.stack, rfl, agree.escaped, agree.inComment, agree.depth, room⟩

theorem opening_ok {delimiter : FilterDelimiter} {after : FilterScan}
    (opened : scan.opening delimiter = .ok after) :
    after = { scan with stack := delimiter :: scan.stack, syntaxTokens := scan.syntaxTokens + 1 } ∧
      scan.stack.length + 1 ≤ maxJqFilterNesting ∧
      scan.syntaxTokens + 1 ≤ maxJqFilterSyntaxTokens := by
  unfold opening pushDelimiter at opened
  split_ifs at opened with deep
  · cases opened
  · obtain ⟨rfl, room⟩ := bumpSyntaxToken_ok opened
    exact ⟨rfl, Nat.le_of_not_lt deep, room⟩

theorem codeByte_opening {delimiter : FilterDelimiter} (opens : delimiterOf byte = some delimiter) :
    delimiter ≠ .interpolation ∧ scan.codeByte byte rest = (do
      let scan ← scan.opening delimiter
      .ok (scan, 0)) := by
  unfold delimiterOf at opens
  split_ifs at opens with paren bracket brace
  · cases opens
    subst paren
    exact ⟨nofun, rfl⟩
  · cases opens
    subst bracket
    exact ⟨nofun, rfl⟩
  · cases opens
    subst brace
    exact ⟨nofun, rfl⟩

theorem tracks_opening (agree : Matches contexts scan) (code : contexts.head? ≠ some .string)
    (enough : seen ≤ scan.syntaxTokens) {delimiter : FilterDelimiter}
    (opens : delimiterOf byte = some delimiter) (accepted : run 0 scan (byte :: rest) = .ok ()) :
    Tracks (.inside delimiter :: contexts) (seen + 1) rest := by
  obtain ⟨plain, opening⟩ := @codeByte_opening scan byte rest delimiter opens
  rw [run_cons, byte_of_inCode (agree.inCode code), opening] at accepted
  cases opened : scan.opening delimiter with
  | error error =>
      rw [opened] at accepted
      cases accepted
  | ok after =>
      obtain ⟨rfl, depth, room⟩ := opening_ok opened
      rw [opened] at accepted
      refine ⟨_, 0, 0, .nothing, ?_, Nat.add_le_add_right enough 1, accepted⟩
      refine ⟨⟨iff_of_false plain code, agree.nested⟩, ?_, ?_, agree.escaped, agree.inComment, ?_, room⟩
      · change delimiter :: scan.stack = delimiter :: openDelimiters contexts
        rw [agree.stack]
      · exact (agree.inCode code).inString
      · exact depth

/-- The check goes back into a string exactly when it leaves an interpolation. -/
theorem tracks_closing {delimiter : FilterDelimiter}
    (agree : Matches (.inside delimiter :: contexts) scan) (enough : seen ≤ scan.syntaxTokens)
    (ends : byte = ascii ')' ∧ (delimiter = .paren ∨ delimiter = .interpolation) ∨
      byte = ascii ']' ∧ delimiter = .bracket ∨ byte = ascii '}' ∧ delimiter = .brace)
    (accepted : run 0 scan (byte :: rest) = .ok ()) : Tracks contexts (seen + 1) rest := by
  have code : (FilterContext.inside delimiter :: contexts).head? ≠ some .string := nofun
  obtain ⟨inner, nested⟩ := agree.nested
  have stack : scan.stack = delimiter :: openDelimiters contexts := agree.stack
  obtain ⟨fallback, closes, paren⟩ : ∃ fallback, scan.codeByte byte rest = (do
      let scan ← scan.closing fallback
      .ok (scan, 0)) ∧ (delimiter = .interpolation → fallback = .paren) := by
    rcases ends with ⟨rfl, -⟩ | ⟨rfl, rfl⟩ | ⟨rfl, rfl⟩
    · exact ⟨.paren, rfl, fun _ => rfl⟩
    · exact ⟨.bracket, rfl, nofun⟩
    · exact ⟨.brace, rfl, nofun⟩
  rw [run_cons, byte_of_inCode (agree.inCode code), closes] at accepted
  unfold FilterScan.closing at accepted
  cases bumped : scan.bumpSyntaxToken with
  | error error =>
      rw [bumped] at accepted
      cases accepted
  | ok after =>
      obtain ⟨rfl, room⟩ := bumpSyntaxToken_ok bumped
      rw [bumped] at accepted
      refine ⟨_, 0, 0, .nothing, ?_, Nat.add_le_add_right enough 1, accepted⟩
      have popped : (scan.stack.headD fallback = .interpolation) ↔ delimiter = .interpolation := by
        rw [stack]
        rfl
      refine ⟨nested, ?_, ?_, agree.escaped, agree.inComment, ?_, room⟩
      · change scan.stack.tail = _
        rw [stack, List.tail_cons]
      · change (if fallback = .paren ∧ decide (scan.stack.headD fallback = .interpolation) = true then
          true else scan.inString) = _
        rw [(agree.inCode code).inString]
        by_cases interpolation : delimiter = .interpolation
        · rw [if_pos ⟨paren interpolation, decide_eq_true (popped.mpr interpolation)⟩]
          exact (decide_eq_true (inner.mp interpolation)).symm
        · rw [if_neg fun both => interpolation (popped.mp (of_decide_eq_true both.2))]
          exact (decide_eq_false (mt inner.mpr interpolation)).symm
      · change scan.stack.tail.length ≤ _
        have depth := agree.depth
        rw [List.length_tail]
        omega

/-- A token of the code moves the check on, with the half name or the half operator it is in. -/
theorem tracks_codeToken (agree : Matches contexts scan) (code : contexts.head? ≠ some .string)
    (enough : seen ≤ scan.syntaxTokens) {next : NextToken}
    (lexed : codeToken contexts byte rest = some next) (stops : next.token ≠ .comment true)
    (accepted : run 0 scan (byte :: rest) = .ok ()) :
    Tracks next.contexts (seen + if next.token.counts then 1 else 0) (rest.drop next.more) ∧
      (openDelimiters next.contexts).length =
        next.token.depth (openDelimiters contexts).length := by
  unfold codeToken at lexed
  by_cases blank : isAsciiWhitespace byte = true
  · rw [if_pos blank] at lexed
    cases lexed
    exact ⟨tracks_blank agree code enough blank accepted, rfl⟩
  rw [if_neg blank] at lexed
  by_cases comment : byte = ascii '#'
  · rw [if_pos comment] at lexed
    cases lexed
    subst comment
    have ends : commentContinues false rest = false := by
      cases continues : commentContinues false rest with
      | false => rfl
      | true => exact absurd (by rw [continues]) stops
    exact ⟨tracks_comment agree code enough ends accepted, rfl⟩
  rw [if_neg comment] at lexed
  by_cases quote : byte = ascii '"'
  · rw [if_pos quote] at lexed
    cases lexed
    subst quote
    exact ⟨tracks_opening_quote agree code enough accepted, rfl⟩
  rw [if_neg quote] at lexed
  by_cases closing : isClosing byte = true
  · rw [if_pos closing] at lexed
    unfold closingToken at lexed
    cases contexts with
    | nil => cases lexed
    | cons context contexts =>
        cases context with
        | string => cases lexed
        | inside delimiter =>
            dsimp only at lexed
            split_ifs at lexed with ends
            cases lexed
            exact ⟨tracks_closing agree enough ends accepted, rfl⟩
  rw [if_neg closing] at lexed
  cases opens : delimiterOf byte with
  | some delimiter =>
      rw [opens] at lexed
      cases lexed
      exact ⟨tracks_opening agree code enough opens accepted, rfl⟩
  | none =>
      rw [opens] at lexed
      dsimp only at lexed
      have plain : IsPlain byte :=
        ⟨by simpa using blank, comment, quote, by simpa using closing, opens⟩
      by_cases start : isJqIdentStart byte = true
      · rw [if_pos start] at lexed
        cases lexed
        exact ⟨tracks_word agree code enough start accepted, rfl⟩
      rw [if_neg start] at lexed
      by_cases digit : isAsciiDigit byte = true
      · rw [if_pos digit] at lexed
        cases lexed
        exact ⟨tracks_number agree code enough digit accepted, rfl⟩
      rw [if_neg digit] at lexed
      by_cases operator : byte ∈ operatorSymbols
      · rw [if_pos operator] at lexed
        cases lexed
        apply And.intro _ rfl
        by_cases long : (byte :: rest).take 3 ∈ longOperators
        · have three : operatorLength (byte :: rest) = 3 := by rw [operatorLength_eq, if_pos long]
          change Tracks contexts (seen + 1) (rest.drop (operatorLength (byte :: rest) - 1))
          rw [three]
          exact tracks_long agree code enough long accepted
        · exact tracks_short agree code enough operator long accepted
      · rw [if_neg operator] at lexed
        cases lexed
        have symbol : IsSymbol byte := ⟨plain, by simpa using start, by simpa using digit⟩
        exact ⟨tracks_other agree code enough symbol operator accepted, rfl⟩

theorem Matches.outside {below : List FilterContext} (agree : Matches (.string :: below) scan) :
    Matches below { scan with inString := false } where
  nested := agree.nested.2
  stack := agree.stack
  inString := (decide_eq_false agree.nested.1).symm
  escaped := agree.escaped
  inComment := agree.inComment
  depth := agree.depth
  room := agree.room

theorem run_string (inString : scan.inString = true) (inComment : scan.inComment = false) :
    run 0 scan (byte :: rest) = (scan.stringByte byte).bind fun next => run 0 next rest := by
  rw [run_cons]
  unfold FilterScan.byte
  rw [inComment, inString]
  cases scan.stringByte byte with
  | error error => rfl
  | ok next => rfl

theorem run_escape (inString : scan.inString = true) (escaped : scan.escaped = false)
    (inComment : scan.inComment = false) :
    run 0 scan (ascii '\\' :: rest) = run 0 { scan with escaped := true } rest := by
  rw [run_string inString inComment]
  unfold stringByte
  rw [escaped]
  rfl

theorem run_quote (inString : scan.inString = true) (escaped : scan.escaped = false)
    (inComment : scan.inComment = false) :
    run 0 scan (ascii '"' :: rest) = run 0 { scan with inString := false } rest := by
  rw [run_string inString inComment]
  have closes : scan.stringByte (ascii '"') = .ok { scan with inString := false } := by
    unfold stringByte
    rw [escaped]
    rfl
  rw [closes]
  rfl

/-- An escaped byte other than the parenthesis is text. -/
theorem run_escaped (inString : scan.inString = true) (escaped : scan.escaped = false)
    (inComment : scan.inComment = false) (paren : byte ≠ ascii '(') :
    run 0 { scan with escaped := true } (byte :: rest) = run 0 scan rest := by
  rw [@run_string { scan with escaped := true } byte rest inString inComment]
  unfold stringByte
  rw [if_pos rfl, if_neg paren]
  have same : { scan with escaped := false } = scan := by rw [← escaped]
  change run 0 { scan with escaped := false } rest = _
  rw [same]

/-- An escaped parenthesis opens an interpolation. -/
theorem tracks_interpolation {below : List FilterContext} (agree : Matches (.string :: below) scan)
    (enough : seen ≤ scan.syntaxTokens)
    (accepted : run 0 { scan with escaped := true } (ascii '(' :: rest) = .ok ()) :
    Tracks (.inside .interpolation :: .string :: below) (seen + 1) rest := by
  have inString : scan.inString = true := agree.inString
  rw [@run_string { scan with escaped := true } _ rest inString agree.inComment] at accepted
  change ((do
    let after ← ({ scan with escaped := false }.opening .interpolation)
    .ok { after with inString := false } : Except JqError FilterScan).bind
      fun next => run 0 next rest) = .ok () at accepted
  cases opened : ({ scan with escaped := false }.opening .interpolation) with
  | error error =>
      rw [opened] at accepted
      cases accepted
  | ok after =>
      obtain ⟨rfl, depth, room⟩ := opening_ok opened
      rw [opened] at accepted
      refine ⟨_, 0, 0, .nothing, ?_, Nat.add_le_add_right enough 1, accepted⟩
      refine ⟨⟨Iff.intro (fun _ => rfl) (fun _ => rfl), agree.nested⟩, ?_, rfl, rfl, agree.inComment,
        depth, room⟩
      change _ :: scan.stack = _ :: openDelimiters below
      rw [agree.stack]
      rfl

theorem tracks_stringToken {below : List FilterContext} (agree : Matches (.string :: below) scan)
    (enough : seen ≤ scan.syntaxTokens) {next : NextToken}
    (lexed : stringToken below byte rest = some next)
    (accepted : run 0 scan (byte :: rest) = .ok ()) :
    Tracks next.contexts (seen + if next.token.counts then 1 else 0) (rest.drop next.more) ∧
      (openDelimiters next.contexts).length =
        next.token.depth (openDelimiters (.string :: below)).length := by
  have inString : scan.inString = true := agree.inString
  unfold stringToken at lexed
  by_cases quote : byte = ascii '"'
  · rw [if_pos quote] at lexed
    cases lexed
    subst quote
    rw [run_quote inString agree.escaped agree.inComment] at accepted
    exact ⟨⟨{ scan with inString := false }, 0, 0, .nothing, agree.outside, enough, accepted⟩, rfl⟩
  rw [if_neg quote] at lexed
  by_cases backslash : byte = ascii '\\'
  · rw [if_pos backslash] at lexed
    subst backslash
    rw [run_escape inString agree.escaped agree.inComment] at accepted
    cases rest with
    | nil => cases lexed
    | cons escaped rest =>
        dsimp only at lexed
        by_cases paren : escaped = ascii '('
        · rw [if_pos paren] at lexed
          cases lexed
          subst paren
          exact ⟨tracks_interpolation agree enough accepted, rfl⟩
        · rw [if_neg paren] at lexed
          cases lexed
          rw [run_escaped inString agree.escaped agree.inComment paren] at accepted
          exact ⟨⟨scan, 0, 0, .nothing, agree, enough, accepted⟩, rfl⟩
  rw [if_neg backslash] at lexed
  cases lexed
  have text : isStringText byte = true := by simp [isStringText, quote, backslash]
  rw [run_text inString agree.escaped agree.inComment, List.takeWhile_cons_of_pos text,
    List.length_cons, List.drop_succ_cons] at accepted
  exact ⟨⟨scan, 0, 0, .nothing, agree, enough, accepted⟩, rfl⟩

/-- The token that starts with a letter is a name. -/
theorem codeToken_word (start : isJqIdentStart byte = true) :
    codeToken contexts byte rest =
      some ⟨.word, contexts, (rest.takeWhile isJqIdentContinue).length⟩ := by
  obtain ⟨⟨blank, comment, quote, closing, opens⟩, -, -⟩ := plain_of_start byte start
  unfold codeToken
  rw [blank, closing, if_neg (by decide), if_neg comment, if_neg quote, if_neg (by decide), opens]
  dsimp only
  rw [if_pos start]

theorem nextToken_code (code : contexts.head? ≠ some .string) :
    nextToken contexts byte rest = codeToken contexts byte rest := by
  cases contexts with
  | nil => rfl
  | cons context contexts =>
      cases context with
      | string => exact absurd rfl code
      | inside delimiter => rfl

/-- One token. -/
theorem Tracks.next {next : NextToken} (tracks : Tracks contexts seen (byte :: rest))
    (lexed : nextToken contexts byte rest = some next) (stops : next.token ≠ .comment true) :
    Tracks next.contexts (seen + if next.token.counts then 1 else 0) (rest.drop next.more) ∧
      (openDelimiters next.contexts).length =
        next.token.depth (openDelimiters contexts).length := by
  obtain ⟨scan, more, ahead, lag, agree, enough, accepted⟩ := tracks
  have level {seen : Nat} (enough : seen ≤ scan.syntaxTokens)
      (accepted : run 0 scan (byte :: rest) = .ok ()) :
      Tracks next.contexts (seen + if next.token.counts then 1 else 0) (rest.drop next.more) ∧
        (openDelimiters next.contexts).length =
          next.token.depth (openDelimiters contexts).length := by
    by_cases code : contexts.head? = some .string
    · obtain ⟨below, rfl⟩ := List.head?_eq_some_iff.mp code
      exact tracks_stringToken agree enough lexed accepted
    · rw [nextToken_code code] at lexed
      exact tracks_codeToken agree code enough lexed stops accepted
  cases lag with
  | nothing => exact level enough accepted
  | word code inside =>
      obtain ⟨noDigit, rfl⟩ := inside
      by_cases goes : isJqIdentContinue byte = true
      · have start := start_of_continue byte goes (noDigit byte rfl)
        rw [nextToken_code code, codeToken_word start] at lexed
        cases lexed
        rw [List.takeWhile_cons_of_pos goes, List.length_cons, run_drop, List.drop_succ_cons] at accepted
        exact ⟨⟨scan, 0, 0, .nothing, agree, enough, accepted⟩, rfl⟩
      · rw [List.takeWhile_cons_of_neg goes] at accepted
        exact level enough accepted
  | equals code head =>
      obtain rfl := Option.some.inj head
      rw [nextToken_code code] at lexed
      have operator : codeToken contexts (ascii '=') rest =
          some ⟨.operator, contexts, operatorLength (ascii '=' :: rest) - 1⟩ := rfl
      rw [operator] at lexed
      cases lexed
      rw [run_drop] at accepted
      exact ⟨tracks_half agree code enough accepted, rfl⟩

end Tokens

theorem lexFilter_drop (more : Nat) (contexts : List FilterContext) (bytes : Bytes) :
    lexFilter more contexts bytes = lexFilter 0 contexts (bytes.drop more) := by
  induction more generalizing bytes with
  | zero => rw [List.drop_zero]
  | succ more ih =>
      cases bytes with
      | nil =>
          rw [List.drop_nil]
          cases contexts <;> rfl
      | cons byte rest =>
          rw [List.drop_succ_cons, ← ih rest]
          cases contexts <;> rfl

theorem lexFilter_cons {contexts : List FilterContext} {byte : UInt8} {rest : Bytes}
    {tokens : List FilterToken} (lexed : lexFilter 0 contexts (byte :: rest) = some tokens) :
    ∃ next later, nextToken contexts byte rest = some next ∧
      lexFilter 0 next.contexts (rest.drop next.more) = some later ∧ tokens = next.token :: later := by
  have step : lexFilter 0 contexts (byte :: rest) =
      (nextToken contexts byte rest).bind fun next =>
        (lexFilter next.more next.contexts rest).bind fun tokens => some (next.token :: tokens) := by
    cases contexts <;> rfl
  rw [step] at lexed
  obtain ⟨next, found, lexed⟩ := Option.bind_eq_some_iff.mp lexed
  obtain ⟨later, rest, same⟩ := Option.bind_eq_some_iff.mp lexed
  rw [lexFilter_drop] at rest
  exact ⟨next, later, found, rest, (Option.some.inj same).symm⟩

theorem Tracks.room {contexts : List FilterContext} {seen : Nat} {bytes : Bytes}
    (tracks : Tracks contexts seen bytes) : seen ≤ maxJqFilterSyntaxTokens ∧
      (openDelimiters contexts).length ≤ maxJqFilterNesting := by
  obtain ⟨scan, more, ahead, -, agree, enough, -⟩ := tracks
  have depth := agree.depth
  rw [agree.stack] at depth
  exact ⟨by have := agree.room; omega, depth⟩

/-- The induction is on the tokens of the lexer. -/
theorem Tracks.tokens {tokens : List FilterToken} :
    ∀ {bytes : Bytes} {contexts : List FilterContext} {seen : Nat},
      lexFilter 0 contexts bytes = some tokens → FilterToken.comment true ∉ tokens →
      Tracks contexts seen bytes →
      seen + syntaxTokens tokens ≤ maxJqFilterSyntaxTokens ∧
        nesting (openDelimiters contexts).length tokens ≤ maxJqFilterNesting := by
  induction tokens with
  | nil =>
      intro bytes contexts seen _ _ tracks
      exact tracks.room
  | cons token later ih =>
      intro bytes contexts seen lexed ends tracks
      cases bytes with
      | nil => cases contexts <;> cases lexed
      | cons byte rest =>
          obtain ⟨next, _, found, lexed, same⟩ := lexFilter_cons lexed
          obtain ⟨rfl, rfl⟩ := List.cons.inj same
          have stops : next.token ≠ .comment true := by
            intro same
            exact ends (same ▸ List.mem_cons_self)
          obtain ⟨moved, depth⟩ := tracks.next found stops
          obtain ⟨count, deep⟩ := ih lexed (mt (List.mem_cons_of_mem _) ends) moved
          rw [depth] at deep
          constructor
          · have counted : syntaxTokens (next.token :: later) =
                syntaxTokens later + if next.token.counts then 1 else 0 := List.countP_cons ..
            omega
          · exact max_le tracks.room.2 deep

end TinySandbox.Jq
