/-
This file shows that a scan needs its input only for the positions of its errors.
Two scans of one rest agree for any two inputs, and they leave a shorter rest.
-/

import TinySandbox.Construction.Shell.Lexer
import TinySandbox.Proof.Shell.Cursor
import TinySandbox.Specification.Continuations

namespace TinySandbox.Shell

/-- Two scans agree when both fail with one kind of error or both return related values. -/
inductive Agrees {α β : Type} (related : α → β → Prop) : Scan α → Scan β → Prop where
  | returns (first : α) (second : β) (same : related first second) :
      Agrees related (pure first) (pure second)
  | fails (first second : Nat) (kind : ParseErrorKind) :
      Agrees related (Scan.fail first kind) (Scan.fail second kind)

section Rules
variable {α β γ δ : Type} {related : α → β → Prop} {after : γ → δ → Prop}
variable {first : Scan α} {second : Scan β}

theorem Agrees.bind {next : α → Scan γ} {later : β → Scan δ} (agrees : Agrees related first second)
    (rest : ∀ left right, related left right → Agrees after (next left) (later right)) :
    Agrees after (first >>= next) (second >>= later) := by
  cases agrees with
  | returns left right same =>
      rw [pure_bind, pure_bind]
      exact rest left right same
  | fails left right kind => exact .fails left right kind

theorem Agrees.mono {weaker : α → β → Prop} (agrees : Agrees related first second)
    (implies : ∀ left right, related left right → weaker left right) :
    Agrees weaker first second := by
  cases agrees with
  | returns left right same => exact .returns left right (implies left right same)
  | fails left right kind => exact .fails left right kind

theorem Agrees.ite {condition : Prop} [Decidable condition] {other : Scan α} {another : Scan β}
    (holds : condition → Agrees related first second)
    (fails : ¬ condition → Agrees related other another) :
    Agrees related (if condition then first else other) (if condition then second else another) := by
  by_cases known : condition
  · rw [if_pos known, if_pos known]
    exact holds known
  · rw [if_neg known, if_neg known]
    exact fails known

/-- A check that refuses the input keeps the agreement. -/
theorem Agrees.refuse {condition : Prop} [Decidable condition] {left right : Nat}
    {kind : ParseErrorKind} (passes : ¬ condition → Agrees related first second) :
    Agrees related (if condition then Scan.fail left kind else first)
      (if condition then Scan.fail right kind else second) :=
  .ite (fun _ => .fails left right kind) passes

end Rules

/-- The scans agree, and fewer characters than the bound are left. -/
def Advances {α : Type} (bound : Nat) (first second : Scan (α × Text)) : Prop :=
  Agrees (fun left right => left = right ∧ left.2.length < bound) first second

theorem Advances.pure {α : Type} {bound : Nat} {value : α} {rest : Text}
    (shorter : rest.length < bound) :
    Advances bound (Pure.pure (value, rest)) (Pure.pure (value, rest)) :=
  .returns _ _ ⟨rfl, shorter⟩

theorem Advances.mono {α : Type} {bound more : Nat} {first second : Scan (α × Text)}
    (advances : Advances bound first second) (less : bound ≤ more) : Advances more first second := by
  apply Agrees.mono advances
  intro left right same
  exact ⟨same.1, by omega⟩

variable {input other : Text}

section Redirects

theorem parseFd_agrees (rest behind digits : Text) :
    Agrees Eq (parseFd input rest digits) (parseFd other behind digits) := by
  unfold parseFd
  dsimp only
  apply Agrees.ite
  · intro fits
    exact .returns _ _ rfl
  · intro large
    exact .fails _ _ _

/-- The scans find the same operator, and none only when there is none. -/
theorem scanRedirectOp_agrees (rest : Text) :
    Agrees (fun left right => left = right ∧
        (∀ found, left = some found → found.2.length < rest.length) ∧
        (left = none → rest.head? ≠ some '<' ∧ rest.head? ≠ some '>'))
      (scanRedirectOp input rest) (scanRedirectOp other rest) := by
  unfold scanRedirectOp
  split
  · exact .fails _ _ _
  · refine .returns _ _ ⟨rfl, ?_, nofun⟩
    intro found same
    cases same
    simp
  · refine .returns _ _ ⟨rfl, ?_, nofun⟩
    intro found same
    cases same
    simp
  · refine .returns _ _ ⟨rfl, ?_, nofun⟩
    intro found same
    cases same
    simp
  · rename_i read append write
    refine .returns _ _ ⟨rfl, nofun, ?_⟩
    intro absent
    cases rest with
    | nil => exact ⟨nofun, nofun⟩
    | cons symbol rest =>
        constructor
        · intro same
          cases same
          exact read rest rfl
        · intro same
          cases same
          exact write rest rfl

theorem scanRedirectOp_read {next : Text} (single : next.head? ≠ some '<') :
    scanRedirectOp input ('<' :: next) = pure (some (.read, next)) := by
  cases next with
  | nil => rfl
  | cons second next =>
      have different : second ≠ '<' := fun same => single (congrArg some same)
      unfold scanRedirectOp
      split
      all_goals simp_all

theorem scanRedirectOp_write {next : Text} (single : next.head? ≠ some '>') :
    scanRedirectOp input ('>' :: next) = pure (some (.write, next)) := by
  cases next with
  | nil => rfl
  | cons second next =>
      have different : second ≠ '>' := fun same => single (congrArg some same)
      unfold scanRedirectOp
      split
      all_goals simp_all

theorem scanTargetFd_advances (operator behind : Text) (op : RedirectOp) (next : Text) :
    Advances (next.length + 1) (scanTargetFd input operator op next)
      (scanTargetFd other behind op next) := by
  unfold scanTargetFd
  split
  · rename_i start
    apply Agrees.refuse
    intro writes
    apply Agrees.refuse
    intro digits
    apply Agrees.refuse
    intro ends
    apply Agrees.bind (parseFd_agrees start start _)
    intro fd same equal
    obtain rfl := equal
    have shorter := (List.dropWhile_suffix Char.isDigit (l := start)).length_le
    exact Advances.pure (by simp only [List.length_cons]; omega)
  · exact Advances.pure (Nat.lt_succ_self _)

/-- This is the scan of a redirect behind its number. -/
def redirectBehind (input operator : Text) (fd : Option Nat) :
    Scan (Option (RedirectToken × Text)) := do
  let scanned ← scanRedirectOp input operator
  match scanned with
  | none => pure none
  | some (op, next) => do
      let target ← scanTargetFd input operator op next
      pure (some ({ fd, op, targetFd := target.1 }, target.2))

/-- Characters with a property in front of another character are taken off together. -/
theorem while_stops {keep : Char → Bool} {text rest : Text}
    (kept : ∀ symbol ∈ text, keep symbol = true)
    (stops : ∀ symbol, rest.head? = some symbol → keep symbol = false) :
    (text ++ rest).takeWhile keep = text ∧ (text ++ rest).dropWhile keep = rest := by
  rw [List.takeWhile_append_of_pos kept, List.dropWhile_append_of_pos kept]
  cases rest with
  | nil => simp
  | cons symbol rest => simp [stops symbol rfl]

theorem digits_cut {digits : Text} {symbol : Char} (rest : Text)
    (numeric : ∀ digit ∈ digits, digit.isDigit = true) (ends : symbol.isDigit = false) :
    (digits ++ symbol :: rest).takeWhile Char.isDigit = digits ∧
      (digits ++ symbol :: rest).dropWhile Char.isDigit = symbol :: rest := by
  apply while_stops numeric
  intro first found
  cases found
  exact ends

theorem redirects_not_digit {symbol : Char} (redirects : symbol = '<' ∨ symbol = '>') :
    symbol.isDigit = false := by
  rcases redirects with rfl | rfl
  · decide
  · decide

theorem scanRedirect_numbered {digits : Text} {symbol : Char} (rest : Text) (some' : digits ≠ [])
    (numeric : ∀ digit ∈ digits, digit.isDigit = true) (redirects : symbol = '<' ∨ symbol = '>') :
    scanRedirect input (digits ++ symbol :: rest) =
      parseFd input (digits ++ symbol :: rest) digits >>= fun fd =>
        redirectBehind input (symbol :: rest) (some fd) := by
  obtain ⟨taken, dropped⟩ := digits_cut rest numeric (redirects_not_digit redirects)
  have numbered : digits ≠ [] ∧ ((symbol :: rest).head? = some '<' ∨
      (symbol :: rest).head? = some '>') := by
    refine ⟨some', ?_⟩
    rcases redirects with rfl | rfl
    · exact .inl rfl
    · exact .inr rfl
  unfold scanRedirect
  simp only [taken, dropped]
  rw [if_pos numbered, if_pos numbered, bind_map_left]
  rfl

theorem scanRedirect_unnumbered {rest : Text} (free : ¬ Numbered rest) :
    scanRedirect input rest = redirectBehind input rest none := by
  have unnumbered : ¬ (rest.takeWhile Char.isDigit ≠ [] ∧
      ((rest.dropWhile Char.isDigit).head? = some '<' ∨
        (rest.dropWhile Char.isDigit).head? = some '>')) := by
    intro numbered
    apply free
    have whole := List.takeWhile_append_dropWhile (p := Char.isDigit) (l := rest)
    have numeric : ∀ digit ∈ rest.takeWhile Char.isDigit, digit.isDigit = true :=
      List.all_eq_true.mp List.all_takeWhile
    rcases numbered.2 with read | write
    · obtain ⟨behind, cut⟩ := List.head?_eq_some_iff.mp read
      rw [cut] at whole
      exact ⟨_, '<', behind, whole.symm, numbered.1, numeric, .inl rfl⟩
    · obtain ⟨behind, cut⟩ := List.head?_eq_some_iff.mp write
      rw [cut] at whole
      exact ⟨_, '>', behind, whole.symm, numbered.1, numeric, .inr rfl⟩
  unfold scanRedirect
  dsimp only
  rw [if_neg unnumbered, if_neg unnumbered, pure_bind]
  rfl

/-- What is left is shorter, and only a rest without `<` and `>` has no redirect. -/
def ShortensOrStays {α : Type} (rest : Text) (left right : Option (α × Text)) : Prop :=
  left = right ∧ (∀ found, left = some found → found.2.length < rest.length) ∧
    (left = none → rest.head? ≠ some '<' ∧ rest.head? ≠ some '>')

theorem redirectBehind_agrees (rest : Text) (fd : Option Nat) :
    Agrees (ShortensOrStays rest) (redirectBehind input rest fd) (redirectBehind other rest fd) := by
  apply Agrees.bind (scanRedirectOp_agrees rest)
  intro found same related
  obtain ⟨rfl, shorter, free⟩ := related
  cases found with
  | none => exact .returns _ _ ⟨rfl, nofun, fun _ => free rfl⟩
  | some found =>
      obtain ⟨op, next⟩ := found
      apply Agrees.bind (scanTargetFd_advances rest rest op next)
      intro target same related
      obtain ⟨rfl, less⟩ := related
      refine .returns _ _ ⟨rfl, ?_, nofun⟩
      intro token same
      cases same
      have bound := shorter _ rfl
      dsimp only at bound ⊢
      omega

theorem scanRedirect_agrees (rest : Text) :
    Agrees (ShortensOrStays rest) (scanRedirect input rest) (scanRedirect other rest) := by
  by_cases numbered : Numbered rest
  · obtain ⟨digits, symbol, behind, rfl, some', numeric, redirects⟩ := numbered
    rw [scanRedirect_numbered behind some' numeric redirects,
      scanRedirect_numbered behind some' numeric redirects]
    apply Agrees.bind (parseFd_agrees _ _ _)
    intro fd same equal
    obtain rfl := equal
    apply Agrees.mono (redirectBehind_agrees _ _)
    intro left right related
    obtain ⟨rfl, shorter, free⟩ := related
    refine ⟨rfl, ?_, ?_⟩
    · intro found same
      have less := shorter found same
      rw [List.length_append]
      omega
    · intro absent
      have impossible := free absent
      rcases redirects with rfl | rfl
      · exact absurd rfl impossible.1
      · exact absurd rfl impossible.2
  · rw [scanRedirect_unnumbered numbered, scanRedirect_unnumbered numbered]
    exact redirectBehind_agrees rest none

end Redirects

section Quotes

theorem untilSingleQuote_shorter {text : Text} {found : Text × Text}
    (until' : untilSingleQuote text = some found) : found.2.length < text.length := by
  induction text generalizing found with
  | nil => cases until'
  | cons symbol text ih =>
      unfold untilSingleQuote at until'
      split at until'
      · cases until'
        exact Nat.lt_succ_self _
      · obtain ⟨later, behind, rfl⟩ := Option.map_eq_some_iff.mp until'
        have shorter := ih behind
        exact Nat.lt_succ_of_lt shorter

theorem scanSingleQuoted_advances (rest : Text) (segments : List Segment) :
    Advances rest.length (scanSingleQuoted input rest segments)
      (scanSingleQuoted other rest segments) := by
  unfold scanSingleQuoted
  cases until' : untilSingleQuote rest.tail with
  | none => exact .fails _ _ _
  | some found =>
      have shorter := untilSingleQuote_shorter until'
      rw [List.length_tail] at shorter
      exact Advances.pure (by omega)

theorem scanDoubleQuotedEscape_advances (rest literal : Text) :
    Advances rest.length (scanDoubleQuotedEscape input rest literal)
      (scanDoubleQuotedEscape other rest literal) := by
  unfold scanDoubleQuotedEscape
  split
  · exact .fails _ _ _
  · rename_i next tail
    have shorter := congrArg List.length tail
    rw [List.length_tail, List.length_cons] at shorter
    exact Advances.pure (by omega)
  · rename_i symbol next newline tail
    have shorter := congrArg List.length tail
    rw [List.length_tail, List.length_cons] at shorter
    apply Agrees.ite
    · intro escaped
      exact Advances.pure (by omega)
    · intro plain
      exact Advances.pure (by omega)

end Quotes

section Expansions

theorem scanBracedExpansion_advances (rest : Text) (quoted : Bool) (before : Literals) :
    Advances rest.length (scanBracedExpansion input rest quoted before)
      (scanBracedExpansion other rest quoted before) := by
  unfold scanBracedExpansion
  cases behind : rest.drop 2 with
  | nil => exact .fails _ _ _
  | cons first behind' =>
      have shorter := congrArg List.length behind
      rw [List.length_drop, List.length_cons] at shorter
      dsimp only
      apply Agrees.ite
      · intro status
        split
        · exact Advances.pure (by simp only [List.length_cons] at shorter; omega)
        · exact .fails _ _ _
      · intro name
        apply Agrees.refuse
        intro free
        apply Agrees.refuse
        intro starts
        have dropped := (List.dropWhile_suffix isNameContinue (l := behind')).length_le
        split
        · rename_i next cut
          rw [cut, List.length_cons] at dropped
          apply Agrees.refuse
          intro valid
          exact Advances.pure (by omega)
        · exact .fails _ _ _
        · exact .fails _ _ _

theorem scanExpansion_advances {rest : Text} (some' : rest ≠ []) (quoted : Bool)
    (before : Literals) :
    Advances rest.length (scanExpansion input rest quoted before)
      (scanExpansion other rest quoted before) := by
  have positive := List.length_pos_of_ne_nil some'
  unfold scanExpansion
  cases behind : rest.tail with
  | nil => exact Advances.pure positive
  | cons next behind' =>
      have shorter := congrArg List.length behind
      rw [List.length_tail, List.length_cons] at shorter
      apply Agrees.refuse
      intro command
      apply Agrees.refuse
      intro ansi
      apply Agrees.refuse
      intro locale
      apply Agrees.ite
      · intro braced
        exact scanBracedExpansion_advances rest quoted before
      · intro bare
        apply Agrees.ite
        · intro status
          exact Advances.pure (by omega)
        · intro name
          have dropped := (List.dropWhile_suffix isNameContinue (l := behind')).length_le
          apply Agrees.ite
          · intro starts
            apply Agrees.refuse
            intro valid
            exact Advances.pure (by omega)
          · intro other
            apply Agrees.refuse
            intro free
            exact Advances.pure (by simp only [List.length_cons]; omega)

end Expansions

section Loops

theorem doubleQuotedStep_advances (symbol : Char) (next : Text) (scan : DoubleQuoted) :
    Advances (next.length + 1) (doubleQuotedStep input (symbol :: next) symbol next scan)
      (doubleQuotedStep other (symbol :: next) symbol next scan) := by
  unfold doubleQuotedStep
  apply Agrees.ite
  · intro escape
    apply Agrees.bind (scanDoubleQuotedEscape_advances _ _)
    intro escaped same related
    obtain ⟨rfl, shorter⟩ := related
    exact Advances.pure shorter
  · intro unescaped
    apply Agrees.ite
    · intro dollar
      apply Agrees.bind (scanExpansion_advances (List.cons_ne_nil _ _) true _)
      intro expanded same related
      obtain ⟨rfl, shorter⟩ := related
      exact Advances.pure shorter
    · intro literal
      apply Agrees.refuse
      intro plain
      exact Advances.pure (Nat.lt_succ_self _)

/-- The fuels may differ when both are enough. -/
theorem doubleQuotedLoop_advances (quote behind : Text) {fuel more : Nat} (rest : Text)
    (scan : DoubleQuoted) (enough : rest.length < fuel) (plenty : rest.length < more) :
    Advances (rest.length + 1) (doubleQuotedLoop input quote fuel rest scan)
      (doubleQuotedLoop other behind more rest scan) := by
  induction fuel generalizing more rest scan with
  | zero => omega
  | succ fuel ih =>
      obtain ⟨more, rfl⟩ := Nat.exists_eq_add_one.mpr (Nat.zero_lt_of_lt plenty)
      cases rest with
      | nil => exact .fails _ _ _
      | cons symbol next =>
          rw [List.length_cons] at enough plenty ⊢
          rw [doubleQuotedLoop, doubleQuotedLoop]
          apply Agrees.ite
          · intro closes
            apply Agrees.ite
            · intro pushed
              exact Advances.pure (by omega)
            · intro kept
              exact Advances.pure (by omega)
          · intro inside
            apply Agrees.bind (doubleQuotedStep_advances symbol next scan)
            intro stepped same related
            obtain ⟨rfl, shorter⟩ := related
            exact (ih stepped.2 stepped.1 (by omega) (by omega)).mono (by omega)

theorem scanDoubleQuoted_advances (symbol : Char) (next : Text) (segments : List Segment) :
    Advances (next.length + 1) (scanDoubleQuoted input (symbol :: next) segments)
      (scanDoubleQuoted other (symbol :: next) segments) :=
  doubleQuotedLoop_advances _ _ next _ (Nat.lt_succ_self _) (Nat.lt_succ_self _)

theorem scanUnquotedEscape_shorter (symbol : Char) (next : Text) :
    (scanUnquotedEscape (symbol :: next)).1.length < next.length + 1 := by
  unfold scanUnquotedEscape
  rw [List.tail_cons]
  split
  · exact Nat.zero_lt_succ _
  · simp only [List.length_cons]
    omega
  · simp only [List.length_cons]
    omega

theorem wordStep_advances (symbol : Char) (next : Text) (scan : WordScan) :
    Advances (next.length + 1) (wordStep input (symbol :: next) symbol next scan)
      (wordStep other (symbol :: next) symbol next scan) := by
  unfold wordStep
  apply Agrees.ite
  · intro single
    apply Agrees.bind (scanSingleQuoted_advances _ _)
    intro quoted same related
    obtain ⟨rfl, shorter⟩ := related
    exact Advances.pure shorter
  · intro unquoted
    apply Agrees.ite
    · intro double
      apply Agrees.bind (scanDoubleQuoted_advances _ _ _)
      intro quoted same related
      obtain ⟨rfl, shorter⟩ := related
      exact Advances.pure shorter
    · intro bare
      apply Agrees.ite
      · intro escape
        have shorter := scanUnquotedEscape_shorter symbol next
        generalize scanUnquotedEscape (symbol :: next) = scanned at shorter ⊢
        obtain ⟨behind, escaped⟩ := scanned
        cases escaped with
        | none => exact Advances.pure shorter
        | some escaped => exact Advances.pure shorter
      · intro unescaped
        apply Agrees.ite
        · intro dollar
          apply Agrees.bind (scanExpansion_advances (List.cons_ne_nil _ _) false _)
          intro expanded same related
          obtain ⟨rfl, shorter⟩ := related
          exact Advances.pure shorter
        · intro literal
          apply Agrees.refuse
          intro pattern
          apply Agrees.refuse
          intro bracket
          apply Agrees.refuse
          intro backtick
          apply Agrees.refuse
          intro subshell
          apply Agrees.refuse
          intro brace
          apply Agrees.refuse
          intro tilde
          exact Advances.pure (Nat.lt_succ_self _)

theorem wordLoop_advances {fuel more : Nat} (rest : Text) (scan : WordScan)
    (enough : rest.length < fuel) (plenty : rest.length < more) :
    Advances (rest.length + 1) (wordLoop input fuel rest scan) (wordLoop other more rest scan) := by
  induction fuel generalizing more rest scan with
  | zero => omega
  | succ fuel ih =>
      obtain ⟨more, rfl⟩ := Nat.exists_eq_add_one.mpr (Nat.zero_lt_of_lt plenty)
      cases rest with
      | nil => exact Advances.pure (Nat.lt_succ_self _)
      | cons symbol next =>
          rw [List.length_cons] at enough plenty ⊢
          rw [wordLoop, wordLoop]
          apply Agrees.ite
          · intro ends
            exact Advances.pure (Nat.lt_succ_self _)
          · intro inside
            apply Agrees.bind (wordStep_advances symbol next scan)
            intro stepped same related
            obtain ⟨rfl, shorter⟩ := related
            exact (ih stepped.2 stepped.1 (by omega) (by omega)).mono (by omega)

end Loops

section Tokens

/-- The token of a word, unless the word is only continuations. -/
def WordScan.token (scan : WordScan) : Option TokenKind :=
  if scan.hadContent then some (.word { segments := scan.flushed }) else none

theorem scanWord_eq (rest : Text) :
    scanWord input rest = wordLoop input (rest.length + 1) rest {} >>= fun scanned =>
      pure (if scanned.1.hadContent then some { segments := scanned.1.flushed } else none,
        scanned.2) := by
  unfold scanWord
  congr 1
  funext scanned
  split
  · rfl
  · rfl

/-- A text that starts a word is not empty, and a break does not stop it at once. -/
def StartsWord (rest : Text) : Prop :=
  ∃ symbol next, rest = symbol :: next ∧ isWordBreak symbol = false ∧ symbol ≠ '#'

theorem scanToken_word {rest : Text} (starts : StartsWord rest) :
    scanToken input rest = wordLoop input (rest.length + 1) rest {} >>= fun scanned =>
      pure (scanned.1.token, scanned.2) := by
  obtain ⟨symbol, next, rfl, ends, other⟩ := starts
  have word : scanToken input (symbol :: next) = scanWord input (symbol :: next) >>= fun scanned =>
      pure (scanned.1.map TokenKind.word, scanned.2) := by
    unfold scanToken
    split
    all_goals first | rfl | simp_all [isWordBreak]
  rw [word, scanWord_eq, bind_assoc]
  congr 1
  funext scanned
  unfold WordScan.token
  rw [pure_bind]
  split
  · rfl
  · rfl

theorem redirectBehind_word {rest : Text} (starts : StartsWord rest) (fd : Option Nat) :
    redirectBehind input rest fd = pure none := by
  obtain ⟨symbol, next, rfl, ends, other⟩ := starts
  have absent : scanRedirectOp input (symbol :: next) = pure none := by
    unfold scanRedirectOp
    split
    all_goals first | rfl | simp_all [isWordBreak]
  unfold redirectBehind
  rw [absent]
  rfl

theorem scanKind_word {rest : Text} (starts : StartsWord rest) (free : ¬ Numbered rest) :
    scanKind input rest = wordLoop input (rest.length + 1) rest {} >>= fun scanned =>
      pure (scanned.1.token, scanned.2) := by
  unfold scanKind
  rw [scanRedirect_unnumbered free, redirectBehind_word starts, pure_bind]
  exact scanToken_word starts

/-- A word takes at least its first character. -/
theorem wordLoop_starts {rest : Text} (starts : StartsWord rest) {fuel more : Nat} (scan : WordScan)
    (enough : rest.length < fuel) (plenty : rest.length < more) :
    Advances rest.length (wordLoop input fuel rest scan) (wordLoop other more rest scan) := by
  obtain ⟨symbol, next, rfl, ends, comment⟩ := starts
  obtain ⟨fuel, rfl⟩ := Nat.exists_eq_add_one.mpr (Nat.zero_lt_of_lt enough)
  obtain ⟨more, rfl⟩ := Nat.exists_eq_add_one.mpr (Nat.zero_lt_of_lt plenty)
  rw [List.length_cons] at enough plenty ⊢
  rw [wordLoop, wordLoop, if_neg (by rw [ends]; decide), if_neg (by rw [ends]; decide)]
  apply Agrees.bind (wordStep_advances symbol next scan)
  intro stepped same related
  obtain ⟨rfl, shorter⟩ := related
  exact (wordLoop_advances stepped.2 stepped.1 (by omega) (by omega)).mono (by omega)

theorem scanToken_word_advances {rest : Text} (starts : StartsWord rest) :
    Advances rest.length (scanToken input rest) (scanToken other rest) := by
  rw [scanToken_word starts, scanToken_word starts]
  apply Agrees.bind (wordLoop_starts starts {} (Nat.lt_succ_self _) (Nat.lt_succ_self _))
  intro scanned same related
  obtain ⟨rfl, fewer⟩ := related
  exact Advances.pure fewer

/-- The break of a word is a blank, a redirect or one of four symbols. -/
theorem wordBreak_cases {symbol : Char} (ends : isWordBreak symbol = true) :
    isBlank symbol = true ∨ (symbol = '<' ∨ symbol = '>') ∨
      symbol = '\n' ∨ symbol = ';' ∨ symbol = '|' ∨ symbol = '&' := by
  unfold isWordBreak at ends
  unfold isBlank
  simp only [decide_eq_true_eq, List.mem_cons, List.not_mem_nil, or_false] at ends
  simp only [Bool.or_eq_true, decide_eq_true_eq]
  grind

theorem scanToken_pipe {next : Text} (single : next.head? ≠ some '|') :
    scanToken input ('|' :: next) = pure (some .pipe, next) := by
  cases next with
  | nil => rfl
  | cons second next =>
      have other : second ≠ '|' := fun same => single (congrArg some same)
      unfold scanToken
      split
      all_goals simp_all

theorem scanToken_background {next : Text} (single : next.head? ≠ some '&') :
    scanToken input ('&' :: next) =
      Scan.fail (position input ('&' :: next)) (.unsupported .background) := by
  cases next with
  | nil => rfl
  | cons second next =>
      have other : second ≠ '&' := fun same => single (congrArg some same)
      unfold scanToken
      split
      all_goals simp_all

theorem scanToken_advances {symbol : Char} (next : Text) (blank : isBlank symbol = false)
    (comment : symbol ≠ '#') (plain : symbol ≠ '<' ∧ symbol ≠ '>') :
    Advances (next.length + 1) (scanToken input (symbol :: next)) (scanToken other (symbol :: next)) := by
  by_cases ends : isWordBreak symbol = true
  · rcases wordBreak_cases ends with blanks | (rfl | rfl) | rfl | rfl | rfl | rfl
    · rw [blank] at blanks
      cases blanks
    · exact absurd rfl plain.1
    · exact absurd rfl plain.2
    · exact Advances.pure (Nat.lt_succ_self _)
    · exact Advances.pure (Nat.lt_succ_self _)
    · by_cases double : next.head? = some '|'
      · obtain ⟨rest, rfl⟩ := List.head?_eq_some_iff.mp double
        exact Advances.pure (by simp only [List.length_cons]; omega)
      · rw [scanToken_pipe double, scanToken_pipe double]
        exact Advances.pure (Nat.lt_succ_self _)
    · by_cases double : next.head? = some '&'
      · obtain ⟨rest, rfl⟩ := List.head?_eq_some_iff.mp double
        exact Advances.pure (by simp only [List.length_cons]; omega)
      · rw [scanToken_background double, scanToken_background double]
        exact .fails _ _ _
  · exact scanToken_word_advances ⟨symbol, next, rfl, Bool.not_eq_true _ ▸ ends, comment⟩

theorem scanKind_advances {symbol : Char} (next : Text) (blank : isBlank symbol = false)
    (comment : symbol ≠ '#') :
    Advances (next.length + 1) (scanKind input (symbol :: next)) (scanKind other (symbol :: next)) := by
  unfold scanKind
  apply Agrees.bind (scanRedirect_agrees (symbol :: next))
  intro found same related
  obtain ⟨rfl, shorter, plain⟩ := related
  cases found with
  | some found => exact Advances.pure (shorter found rfl)
  | none =>
      apply scanToken_advances next blank comment
      have heads := plain rfl
      exact ⟨fun same => heads.1 (congrArg some same), fun same => heads.2 (congrArg some same)⟩

end Tokens

section Lexer
variable {tokens others : List Token} {fuel more : Nat}

/-- The tokens have the same kinds. -/
def SameKinds (first second : List Token) : Prop := kinds first = kinds second

/-- The loop adds the token that was scanned. -/
def lexBehind (input : Text) (fuel : Nat) (tokens : List Token) (place : Nat)
    (scanned : Option TokenKind × Text) : Scan (List Token) :=
  lexLoop input fuel scanned.2
    (tokens ++ (scanned.1.map fun kind => { kind, position := place : Token }).toList)

theorem lexLoop_blank {symbol : Char} (rest : Text) (blank : isBlank symbol = true) :
    lexLoop input (fuel + 1) (symbol :: rest) tokens = lexLoop input (fuel + 1) rest tokens := by
  have skipped : skipBlanks (symbol :: rest) = skipBlanks rest := List.dropWhile_cons_of_pos blank
  rw [lexLoop, lexLoop, skipped]

theorem lexLoop_comment (rest : Text) :
    lexLoop input (fuel + 1) ('#' :: rest) tokens =
      lexLoop input fuel (skipComment ('#' :: rest)) tokens := rfl

theorem lexLoop_kind {symbol : Char} (next : Text) (blank : isBlank symbol = false)
    (comment : symbol ≠ '#') :
    lexLoop input (fuel + 1) (symbol :: next) tokens =
      scanKind input (symbol :: next) >>=
        lexBehind input fuel tokens (position input (symbol :: next)) := by
  have skipped : skipBlanks (symbol :: next) = symbol :: next :=
    List.dropWhile_cons_of_neg (by rw [blank]; decide)
  rw [lexLoop, skipped]
  split
  · rename_i empty
    cases empty
  · rename_i found
    exact absurd (List.cons.inj found).1 comment
  · rfl

theorem skipComment_shorter (rest : Text) : (skipComment ('#' :: rest)).length < rest.length + 1 :=
  Nat.lt_succ_of_le (List.dropWhile_suffix _ (l := rest)).length_le

theorem SameKinds.append (same : SameKinds tokens others) (kind : Option TokenKind)
    (place another : Nat) :
    SameKinds (tokens ++ (kind.map fun kind => { kind, position := place : Token }).toList)
      (others ++ (kind.map fun kind => { kind, position := another : Token }).toList) := by
  unfold SameKinds at same ⊢
  rw [kinds_append, kinds_append, same]
  cases kind with
  | none => rfl
  | some kind => rfl

/-- The lexer never panics, and it needs its input only for positions. -/
theorem lexLoop_agrees {tokens others : List Token} {fuel more : Nat} (rest : Text)
    (enough : rest.length < fuel) (plenty : rest.length < more) (same : SameKinds tokens others) :
    Agrees SameKinds (lexLoop input fuel rest tokens) (lexLoop other more rest others) := by
  obtain ⟨fuel, rfl⟩ := Nat.exists_eq_add_one.mpr (Nat.zero_lt_of_lt enough)
  obtain ⟨more, rfl⟩ := Nat.exists_eq_add_one.mpr (Nat.zero_lt_of_lt plenty)
  cases rest with
  | nil => exact .returns _ _ same
  | cons symbol next =>
      rw [List.length_cons] at enough plenty
      cases blank : isBlank symbol with
      | true =>
          rw [lexLoop_blank next blank, lexLoop_blank next blank]
          exact lexLoop_agrees next (by omega) (by omega) same
      | false =>
          by_cases comment : symbol = '#'
          · subst comment
            have shorter := skipComment_shorter next
            rw [lexLoop_comment, lexLoop_comment]
            exact lexLoop_agrees _ (by omega) (by omega) same
          · rw [lexLoop_kind next blank comment, lexLoop_kind next blank comment]
            apply Agrees.bind (scanKind_advances next blank comment)
            intro scanned found related
            obtain ⟨rfl, shorter⟩ := related
            exact lexLoop_agrees scanned.2 (by omega) (by omega) (same.append _ _ _)
termination_by rest.length

end Lexer

end TinySandbox.Shell
