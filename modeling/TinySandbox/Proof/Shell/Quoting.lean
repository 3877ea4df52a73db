/-
This file shows that the lexer reads quoted words back.
Every fragment adds its text as a quoted literal, and a word is the literals of its fragments.
-/

import TinySandbox.Construction.Shell.Lexer
import TinySandbox.Proof.Shell.Costs
import TinySandbox.Proof.Shell.Cursor
import TinySandbox.Specification.ShellWords

namespace TinySandbox.Shell

variable {input tail : Text}

/-- The segments are quoted literals that give the text. -/
def Quotes (segments : List Segment) (text : Text) : Prop :=
  ∃ parts : List Text, segments = parts.map (.literal · true) ∧ parts.flatten = text

theorem quotes_nil : Quotes [] [] := ⟨[], rfl, rfl⟩

/-- A quoted literal adds its text, and the segments are not empty afterwards. -/
theorem Quotes.push {segments : List Segment} {text : Text} (quotes : Quotes segments text)
    (literal : Text) :
    Quotes (pushLiteral segments literal true) (text ++ literal) ∧
      pushLiteral segments literal true ≠ [] := by
  obtain ⟨parts, rfl, rfl⟩ := quotes
  have fresh : Quotes (parts.map (.literal · true) ++ [.literal literal true])
      (parts.flatten ++ literal) := ⟨parts ++ [literal], by simp, by simp⟩
  unfold pushLiteral
  rw [if_neg (by simp)]
  cases parts using List.reverseRecOn with
  | nil => exact ⟨fresh, List.cons_ne_nil _ _⟩
  | append_singleton parts last =>
      simp only [List.map_append, List.map_singleton, List.getLast?_concat, List.dropLast_concat]
      split
      · exact ⟨⟨parts ++ [last ++ literal], by simp, by simp⟩, by simp⟩
      · rw [List.map_append, List.map_singleton] at fresh
        exact ⟨fresh, by simp⟩

theorem pushLiteral_nil (segments : List Segment) : pushLiteral segments [] false = segments :=
  if_pos ⟨rfl, Bool.false_ne_true⟩

/-- The text without a quote is read up to the quote. -/
theorem untilSingleQuote_append {text : Text} (free : '\'' ∉ text) :
    untilSingleQuote (text ++ '\'' :: tail) = some (text, tail) := by
  induction text with
  | nil => rfl
  | cons symbol text ih =>
      have other : symbol ≠ '\'' := by
        intro same
        exact free (same ▸ List.mem_cons_self)
      rw [List.cons_append, untilSingleQuote, if_neg other,
        ih fun found => free (List.mem_cons_of_mem _ found)]
      rfl

theorem scanSingleQuoted_render {text : Text} (free : '\'' ∉ text) (segments : List Segment) :
    scanSingleQuoted input ('\'' :: (text ++ '\'' :: tail)) segments =
      pure (pushLiteral segments text true, tail) := by
  unfold scanSingleQuoted
  rw [List.tail_cons, untilSingleQuote_append free]

theorem utf8Len_snoc (text : Text) (symbol : Char) :
    utf8Len (text ++ [symbol]) ≠ utf8Len text := by
  have positive := symbol.utf8Size_pos
  rw [utf8Len_append]
  simp only [utf8Len, List.map_singleton, List.sum_singleton]
  omega

theorem needsEscape_iff {symbol : Char} :
    needsEscape symbol = true ↔ symbol ∈ ['$', '\x60', '"', '\\'] := decide_eq_true_iff

theorem scanDoubleQuotedEscape_symbol {symbol : Char} (escaped : needsEscape symbol = true)
    (literal : Text) :
    scanDoubleQuotedEscape input ('\\' :: symbol :: tail) literal =
      pure (literal ++ [symbol], tail) := by
  have known := needsEscape_iff.mp escaped
  unfold scanDoubleQuotedEscape
  rw [List.tail_cons]
  split
  · rename_i none
    cases none
  · rename_i newline
    obtain ⟨rfl, -⟩ := List.cons.inj newline
    exact absurd known (by decide)
  · rename_i same
    obtain ⟨rfl, rfl⟩ := List.cons.inj same
    exact if_pos known

/-- One round between double quotes reads one character of the text. -/
theorem doubleQuotedLoop_symbol {quote : Text} {fuel : Nat} {symbol : Char} {scan : DoubleQuoted} :
    doubleQuotedLoop input quote (fuel + 1) (escapeInDouble symbol ++ tail) scan =
      doubleQuotedLoop input quote fuel tail
        { scan with literal := scan.literal ++ [symbol], hadContent := true } := by
  unfold escapeInDouble
  by_cases escaped : needsEscape symbol = true
  · have grown : (scan.hadContent || decide (utf8Len (scan.literal ++ [symbol]) ≠
        utf8Len scan.literal)) = true := by
      rw [decide_eq_true (utf8Len_snoc _ _), Bool.or_true]
    rw [if_pos escaped, List.cons_append, List.singleton_append, doubleQuotedLoop,
      if_neg (by decide)]
    unfold doubleQuotedStep
    rw [if_pos rfl, scanDoubleQuotedEscape_symbol escaped]
    simp only [pure_bind, grown]
  · have plain := mt needsEscape_iff.mpr escaped
    simp only [List.mem_cons, List.not_mem_nil, or_false, not_or] at plain
    obtain ⟨dollar, backtick, double, backslash⟩ := plain
    rw [if_neg escaped, List.singleton_append, doubleQuotedLoop, if_neg double]
    unfold doubleQuotedStep
    rw [if_neg backslash, if_neg dollar, if_neg backtick]
    rfl

theorem doubleQuotedLoop_render {quote text : Text} {fuel : Nat} {scan : DoubleQuoted}
    (enough : text.length < fuel) (known : scan.literal = [] → scan.hadContent = false) :
    doubleQuotedLoop input quote fuel (text.flatMap escapeInDouble ++ '"' :: tail) scan =
      pure (pushLiteral scan.segments (scan.literal ++ text) true, tail) := by
  induction text generalizing fuel scan with
  | nil =>
      obtain ⟨fuel, rfl⟩ := Nat.exists_eq_succ_of_ne_zero (Nat.ne_zero_of_lt enough)
      have closes : scan.literal ≠ [] ∨ ¬ scan.hadContent := by
        by_cases empty : scan.literal = []
        · right
          rw [known empty]
          decide
        · exact .inl empty
      rw [List.flatMap_nil, List.nil_append, doubleQuotedLoop, if_pos rfl, if_pos closes,
        List.append_nil]
  | cons symbol text ih =>
      obtain ⟨fuel, rfl⟩ := Nat.exists_eq_succ_of_ne_zero (Nat.ne_zero_of_lt enough)
      rw [List.flatMap_cons, List.append_assoc, doubleQuotedLoop_symbol,
        ih (Nat.lt_of_succ_lt_succ enough) (by simp)]
      simp

theorem escapeInDouble_length (symbol : Char) : 1 ≤ (escapeInDouble symbol).length := by
  unfold escapeInDouble
  split
  · exact Nat.le_succ 1
  · exact Nat.le_refl 1

theorem length_le_flatMap (text : Text) : text.length ≤ (text.flatMap escapeInDouble).length := by
  induction text with
  | nil => exact Nat.le_refl _
  | cons symbol text ih =>
      have one := escapeInDouble_length symbol
      rw [List.flatMap_cons, List.length_append, List.length_cons]
      omega

theorem scanDoubleQuoted_render (text : Text) (segments : List Segment) :
    scanDoubleQuoted input ('"' :: (text.flatMap escapeInDouble ++ '"' :: tail)) segments =
      pure (pushLiteral segments text true, tail) := by
  unfold scanDoubleQuoted
  have shorter := length_le_flatMap text
  rw [List.tail_cons, doubleQuotedLoop_render _ (fun _ => rfl)]
  · rfl
  · rw [List.length_cons, List.length_append]
    omega

/-- Every fragment is read in one round and adds its text as a quoted literal. -/
theorem wordLoop_fragment (fragment : Fragment) {fuel : Nat} {scan : WordScan}
    (flushed : scan.literal = []) :
    wordLoop input (fuel + 1) (fragment.render ++ tail) scan =
      wordLoop input fuel tail (scan.quote (pushLiteral scan.segments fragment.text true)) := by
  have pushed : scan.flushed = scan.segments := by
    unfold WordScan.flushed
    rw [flushed, pushLiteral_nil]
  cases fragment with
  | single text free =>
      have shape : (Fragment.single text free).render ++ tail = '\'' :: (text ++ '\'' :: tail) := by
        simp [Fragment.render]
      rw [shape, wordLoop, if_neg (by decide)]
      unfold wordStep
      rw [if_pos rfl, scanSingleQuoted_render free, pushed]
      rfl
  | double text =>
      have shape : (Fragment.double text).render ++ tail =
          '"' :: (text.flatMap escapeInDouble ++ '"' :: tail) := by
        simp [Fragment.render]
      rw [shape, wordLoop, if_neg (by decide)]
      unfold wordStep
      rw [if_neg (by decide), if_pos rfl, scanDoubleQuoted_render, pushed]
      rfl
  | escaped symbol plain =>
      have escape : scanUnquotedEscape ('\\' :: symbol :: tail) = (tail, some symbol) := by
        unfold scanUnquotedEscape
        rw [List.tail_cons]
        split
        · rename_i none
          cases none
        · rename_i newline
          exact absurd (List.cons.inj newline).1 plain
        · rename_i same
          obtain ⟨rfl, rfl⟩ := List.cons.inj same
          rfl
      change wordLoop input (fuel + 1) ('\\' :: symbol :: tail) scan = _
      rw [wordLoop, if_neg (by decide)]
      unfold wordStep
      rw [if_neg (by decide), if_neg (by decide), if_pos rfl, escape, pushed]
      rfl

/-- These are the segments after some fragments of a word. -/
def pushFragments (segments : List Segment) (fragments : List Fragment) : List Segment :=
  fragments.foldl (fun segments fragment => pushLiteral segments fragment.text true) segments

def QuotedWord.word (word : QuotedWord) : Word where
  segments := pushFragments [] word.fragments

/-- A word ends at the end of the input or at a character that breaks words. -/
def Stops (tail : Text) : Prop := ∀ symbol, tail.head? = some symbol → isWordBreak symbol = true

theorem wordLoop_stops {fuel : Nat} {scan : WordScan} (stops : Stops tail) (enough : 0 < fuel) :
    wordLoop input fuel tail scan = pure (scan, tail) := by
  obtain ⟨fuel, rfl⟩ := Nat.exists_eq_succ_of_ne_zero (Nat.ne_of_gt enough)
  cases tail with
  | nil => rfl
  | cons symbol tail => rw [wordLoop, if_pos (stops symbol rfl)]

theorem Fragment.render_length (fragment : Fragment) : 1 < fragment.render.length := by
  cases fragment with
  | single text free => simp [render]
  | double text => simp [render]
  | escaped symbol plain => exact Nat.lt_succ_self 1

theorem wordLoop_fragments (input : Text) (fragments : List Fragment) {fuel : Nat} (scan : WordScan)
    (flushed : scan.literal = []) (content : fragments = [] → scan.hadContent = true)
    (stops : Stops tail) (enough : (fragments.flatMap Fragment.render).length < fuel) :
    ∃ last : WordScan, wordLoop input fuel (fragments.flatMap Fragment.render ++ tail) scan =
        pure (last, tail) ∧
      last.flushed = pushFragments scan.segments fragments ∧ last.hadContent = true := by
  induction fragments generalizing fuel scan with
  | nil =>
      refine ⟨scan, wordLoop_stops stops enough, ?_, content rfl⟩
      unfold WordScan.flushed
      rw [flushed, pushLiteral_nil]
      rfl
  | cons fragment fragments ih =>
      obtain ⟨fuel, rfl⟩ := Nat.exists_eq_succ_of_ne_zero (Nat.ne_zero_of_lt enough)
      rw [List.flatMap_cons, List.length_append] at enough
      have longer := fragment.render_length
      rw [List.flatMap_cons, List.append_assoc, wordLoop_fragment fragment flushed]
      exact ih _ rfl (fun _ => rfl) (by omega)

theorem scanWord_render (input : Text) (word : QuotedWord) (stops : Stops tail) :
    scanWord input (word.render ++ tail) = pure (some word.word, tail) := by
  have enough : word.render.length < (word.render ++ tail).length + 1 := by
    rw [List.length_append]
    omega
  obtain ⟨last, scanned, flushed, content⟩ :=
    wordLoop_fragments input word.fragments {} rfl nofun stops enough
  unfold scanWord
  have read : wordLoop input ((word.render ++ tail).length + 1) (word.render ++ tail) {} =
      pure (last, tail) := scanned
  rw [read, pure_bind, if_pos content, flushed]
  rfl

/-- A quoted word starts with a quote or a backslash. -/
theorem QuotedWord.render_starts (word : QuotedWord) :
    ∃ symbol rest, word.render = symbol :: rest ∧ symbol ∈ ['\'', '"', '\\'] := by
  obtain ⟨first, rest⟩ := word
  cases first with
  | single text free => exact ⟨'\'', _, rfl, by decide⟩
  | double text => exact ⟨'"', _, rfl, by decide⟩
  | escaped symbol plain => exact ⟨'\\', _, rfl, by decide⟩

theorem scanKind_render (input : Text) (word : QuotedWord) (stops : Stops tail) :
    scanKind input (word.render ++ tail) = pure (some (.word word.word), tail) := by
  have scanned := scanWord_render input word stops
  obtain ⟨symbol, rest, shape, starts⟩ := word.render_starts
  rw [shape, List.cons_append] at scanned ⊢
  have none : scanRedirect input (symbol :: (rest ++ tail)) = pure none := by
    simp only [List.mem_cons, List.not_mem_nil, or_false] at starts
    rcases starts with rfl | rfl | rfl <;> rfl
  unfold scanKind
  rw [none, pure_bind]
  have token : scanToken input (symbol :: (rest ++ tail)) = (do
      let scanned ← scanWord input (symbol :: (rest ++ tail))
      pure (scanned.1.map .word, scanned.2)) := by
    simp only [List.mem_cons, List.not_mem_nil, or_false] at starts
    rcases starts with rfl | rfl | rfl <;> rfl
  rw [token, scanned]
  rfl

/-- One round of the lexer skips blanks and reads a word. -/
theorem lexLoop_word (input : Text) (fuel : Nat) (tokens : List Token) {blanks : Text}
    (word : QuotedWord) (blank : ∀ symbol ∈ blanks, isBlank symbol = true) (stops : Stops tail) :
    ∃ place, lexLoop input (fuel + 1) (blanks ++ (word.render ++ tail)) tokens =
      lexLoop input fuel tail (tokens ++ [{ kind := .word word.word, position := place }]) := by
  have scanned := scanKind_render input word stops
  obtain ⟨symbol, rest, shape, starts⟩ := word.render_starts
  refine ⟨position input (word.render ++ tail), ?_⟩
  have skipped : skipBlanks (blanks ++ (word.render ++ tail)) = word.render ++ tail := by
    unfold skipBlanks
    rw [List.dropWhile_append_of_pos blank, shape, List.cons_append, List.dropWhile_cons_of_neg]
    revert starts
    simp only [List.mem_cons, List.not_mem_nil, or_false]
    rintro (rfl | rfl | rfl) <;> decide
  rw [lexLoop, skipped]
  rw [shape, List.cons_append] at scanned ⊢
  split
  · rename_i none
    cases none
  · rename_i comment
    obtain ⟨rfl, -⟩ := List.cons.inj comment
    exact absurd starts (by decide)
  · rw [scanned, pure_bind]
    rfl

theorem Blanks.isBlank (blanks : Blanks) : ∀ symbol ∈ blanks.text, isBlank symbol = true := by
  intro symbol found
  rcases blanks.blank symbol found with rfl | rfl <;> rfl

/-- Blanks stand in front of every word but the first. -/
theorem QuotedLine.stops_rest (rest : List (Blanks × QuotedWord)) : Stops (renderRest rest) := by
  cases rest with
  | nil => exact nofun
  | cons next rest =>
      obtain ⟨⟨text, filled, blank⟩, word⟩ := next
      cases text with
      | nil => exact absurd rfl filled
      | cons symbol text =>
          intro other found
          obtain rfl := Option.some.inj found
          rcases blank symbol List.mem_cons_self with rfl | rfl <;> rfl

theorem lexLoop_rest (input : Text) (rest : List (Blanks × QuotedWord)) {fuel : Nat}
    (tokens : List Token)
    (enough : (QuotedLine.renderRest rest).length < fuel) :
    ∃ found, lexLoop input fuel (QuotedLine.renderRest rest) tokens = pure (tokens ++ found) ∧
      kinds found = rest.map fun next => .word next.2.word := by
  induction rest generalizing fuel tokens with
  | nil =>
      obtain ⟨fuel, rfl⟩ := Nat.exists_eq_succ_of_ne_zero (Nat.ne_zero_of_lt enough)
      exact ⟨[], by rw [List.append_nil]; rfl, rfl⟩
  | cons next rest ih =>
      obtain ⟨fuel, rfl⟩ := Nat.exists_eq_succ_of_ne_zero (Nat.ne_zero_of_lt enough)
      have shape : QuotedLine.renderRest (next :: rest) =
          next.1.text ++ (next.2.render ++ QuotedLine.renderRest rest) := by
        simp [QuotedLine.renderRest]
      rw [shape] at enough ⊢
      obtain ⟨place, read⟩ := lexLoop_word input fuel tokens next.2 next.1.isBlank
        (QuotedLine.stops_rest rest)
      have longer := List.length_pos_of_ne_nil next.1.filled
      have enough' : (QuotedLine.renderRest rest).length < fuel := by
        rw [List.length_append, List.length_append] at enough
        omega
      obtain ⟨found, later, same⟩ := ih
        (tokens ++ [{ kind := .word next.2.word, position := place }]) enough'
      refine ⟨{ kind := .word next.2.word, position := place } :: found, ?_, ?_⟩
      · rw [read, later, List.append_assoc, List.singleton_append]
      · rw [kinds_cons, same, List.map_cons]

theorem lex_render (line : QuotedLine) :
    ∃ tokens, lex line.render = pure tokens ∧
      kinds tokens = line.words.map fun word => .word word.word := by
  have unblank : ∀ symbol ∈ ([] : Text), isBlank symbol = true := nofun
  obtain ⟨place, read⟩ := lexLoop_word line.render line.render.length [] line.first unblank
    (QuotedLine.stops_rest line.rest)
  have shorter : (QuotedLine.renderRest line.rest).length < line.render.length := by
    obtain ⟨symbol, rest, shape, -⟩ := line.first.render_starts
    unfold QuotedLine.render
    rw [shape, List.length_append, List.length_cons]
    omega
  obtain ⟨found, later, same⟩ := lexLoop_rest line.render line.rest
    [{ kind := .word line.first.word, position := place }] shorter
  refine ⟨{ kind := .word line.first.word, position := place } :: found, read.trans later, ?_⟩
  rw [kinds_cons, same]
  simp [QuotedLine.words]

end TinySandbox.Shell
