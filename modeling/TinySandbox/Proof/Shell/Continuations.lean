/-
This file shows that a line continuation can be taken out of the input at a seam.
The units lead from place to place, and the lexer finds the same tokens from every place on.
-/

import TinySandbox.Proof.Shell.Quoting
import TinySandbox.Proof.Shell.Units

namespace TinySandbox.Shell

variable {post input other : Text}

section Places

/-- This is what the lexer keeps while it reads one token. -/
structure Resume where
  input : Text
  fuel : Nat
  start : Nat
  tokens : List Token

theorem not_blank {symbol : Char} (ends : isWordBreak symbol = false) : isBlank symbol = false := by
  cases blank : isBlank symbol with
  | false => rfl
  | true =>
      unfold isBlank at blank
      simp only [Bool.or_eq_true, decide_eq_true_eq] at blank
      rcases blank with rfl | rfl
      all_goals cases ends

namespace Resume

def gap (resume : Resume) (rest : Text) : Scan (List Token) :=
  lexLoop resume.input resume.fuel rest resume.tokens

def word (resume : Resume) (fuel : Nat) (rest : Text) (scan : WordScan) : Scan (List Token) :=
  wordLoop resume.input fuel rest scan >>= fun scanned =>
    lexBehind resume.input resume.fuel resume.tokens resume.start (scanned.1.token, scanned.2)

def double (resume : Resume) (quote : Text) (fuel wordFuel : Nat) (outer : WordScan) (rest : Text)
    (scan : DoubleQuoted) : Scan (List Token) :=
  doubleQuotedLoop resume.input quote fuel rest scan >>= fun quoted =>
    resume.word wordFuel quoted.2 (outer.quote quoted.1)

/-- The fuel is enough for the rest of the word and for what follows it. -/
def Fits (resume : Resume) (fuel : Nat) (rest : Text) : Prop :=
  rest.length < fuel ∧
    (rest.length < resume.fuel ∨ rest.length = resume.fuel ∧ StartsWord rest)

/-- There is fuel for more than the rest. -/
def Room (resume : Resume) (fuel : Nat) (rest : Text) : Prop :=
  rest.length < fuel ∧ rest.length < resume.fuel

variable {resume : Resume} {fuel more : Nat} {symbol : Char} {rest next : Text}

theorem Room.fits (room : resume.Room fuel rest) : resume.Fits fuel rest := ⟨room.1, .inl room.2⟩

theorem Room.shorter (room : resume.Room fuel rest) (less : next.length ≤ rest.length) :
    resume.Room fuel next :=
  ⟨lt_of_le_of_lt less room.1, lt_of_le_of_lt less room.2⟩

theorem Fits.behind (fits : resume.Fits fuel rest) : rest.length ≤ resume.fuel := by
  rcases fits.2 with less | ⟨same, -⟩
  · exact less.le
  · exact same.le

theorem Fits.room (fits : resume.Fits fuel rest) (less : next.length < rest.length)
    (enough : next.length < more) : resume.Room more next :=
  ⟨enough, lt_of_lt_of_le less fits.behind⟩

theorem Fits.stops (fits : resume.Fits fuel (symbol :: next)) (ends : isWordBreak symbol = true) :
    (symbol :: next).length < resume.fuel := by
  rcases fits.2 with less | ⟨-, first, rest, same, inside, -⟩
  · exact less
  · obtain ⟨rfl, -⟩ := List.cons.inj same
    rw [ends] at inside
    cases inside

theorem word_cons (ends : isWordBreak symbol = false) (scan : WordScan) :
    resume.word (fuel + 1) (symbol :: next) scan =
      wordStep resume.input (symbol :: next) symbol next scan >>= fun stepped =>
        resume.word fuel stepped.2 stepped.1 := by
  unfold word
  rw [wordLoop, if_neg (by rw [ends]; decide), bind_assoc]

theorem word_stop (ends : isWordBreak symbol = true) (scan : WordScan) :
    resume.word (fuel + 1) (symbol :: next) scan =
      gap { resume with
        tokens := resume.tokens ++ (scan.token.map fun kind =>
          { kind, position := resume.start : Token }).toList } (symbol :: next) := by
  unfold word
  rw [wordLoop, if_pos ends, pure_bind]
  rfl

theorem word_openDouble (scan : WordScan) :
    resume.word (fuel + 1) ('"' :: next) scan =
      resume.double ('"' :: next) (next.length + 1) fuel scan next { segments := scan.flushed } := by
  rw [word_cons (by decide)]
  change (scanDoubleQuoted _ _ _ >>= fun quoted => pure (scan.quote quoted.1, quoted.2)) >>= _ = _
  rw [bind_assoc]
  rfl

theorem double_close (quote : Text) (wordFuel : Nat) (outer : WordScan) (scan : DoubleQuoted) :
    resume.double quote (fuel + 1) wordFuel outer ('"' :: next) scan =
      resume.word wordFuel next (outer.quote
        (if scan.literal ≠ [] ∨ ¬ scan.hadContent then pushLiteral scan.segments scan.literal true
          else scan.segments)) := by
  unfold double
  rw [doubleQuotedLoop, if_pos rfl]
  split
  · rfl
  · rfl

theorem double_cons (quote : Text) (wordFuel : Nat) (outer : WordScan) (scan : DoubleQuoted)
    (inside : symbol ≠ '"') :
    resume.double quote (fuel + 1) wordFuel outer (symbol :: next) scan =
      doubleQuotedStep resume.input (symbol :: next) symbol next scan >>= fun stepped =>
        resume.double quote fuel wordFuel outer stepped.2 stepped.1 := by
  unfold double
  rw [doubleQuotedLoop, if_neg inside, bind_assoc]

theorem gap_start (starts : StartsWord next) (free : ¬ Numbered next)
    (resume : Resume) (more : resume.fuel = fuel + 1) :
    resume.gap next =
      word { resume with fuel, start := position resume.input next } (next.length + 1) next {} := by
  obtain ⟨symbol, rest, rfl, ends, comment⟩ := id starts
  unfold gap word
  rw [more, lexLoop_kind rest (not_blank ends) comment, scanKind_word starts free, bind_assoc]
  rfl

end Resume

/-- The spelling is what the scan of the word has seen. -/
structure Matches (spelling : Spelling) (scan : WordScan) : Prop where
  hadContent : scan.hadContent = spelling.hadContent
  lastUnquotedChar : scan.lastUnquotedChar = spelling.lastUnquotedChar
  hasUnquotedEquals : scan.hasUnquotedEquals = spelling.hasUnquotedEquals
  fresh : scan.hadContent = false → scan.segments = [] ∧ scan.literal = []

/-- From the place on the lexer finds the same tokens with the continuation and without it. -/
def Alike (post : Text) : Place → Text → Prop
  | .gap, text => ∀ left right : Resume, SameKinds left.tokens right.tokens →
      (continued post text).length < left.fuel → (text ++ post).length < right.fuel →
      Agrees SameKinds (left.gap (continued post text)) (right.gap (text ++ post))
  | .word spelling, text => ∀ left right : Resume, SameKinds left.tokens right.tokens →
      ∀ fuel more scan, Matches spelling scan → left.Fits fuel (continued post text) →
      right.Fits more (text ++ post) →
      Agrees SameKinds (left.word fuel (continued post text) scan)
        (right.word more (text ++ post) scan)
  | .double spelling, text => ∀ left right : Resume, SameKinds left.tokens right.tokens →
      ∀ quote behind fuel more wordFuel wordMore outer scan,
      outer.hasUnquotedEquals = spelling.hasUnquotedEquals →
      left.Room wordFuel (continued post text) → right.Room wordMore (text ++ post) →
      (continued post text).length < fuel → (text ++ post).length < more →
      Agrees SameKinds (left.double quote fuel wordFuel outer (continued post text) scan)
        (right.double behind more wordMore outer (text ++ post) scan)

theorem Matches.quote {spelling : Spelling} {scan : WordScan} (spelled : Matches spelling scan)
    (segments : List Segment) : Matches spelling.quote (scan.quote segments) where
  hadContent := rfl
  lastUnquotedChar := rfl
  hasUnquotedEquals := spelled.hasUnquotedEquals
  fresh := nofun

/-- The scan after a character that stands for itself. -/
def WordScan.plain (scan : WordScan) (symbol : Char) : WordScan := { scan with
  literal := scan.literal ++ [symbol]
  hadContent := true
  lastUnquotedChar := some symbol
  hasUnquotedEquals := scan.hasUnquotedEquals || symbol = '=' }

theorem Matches.plain {spelling : Spelling} {scan : WordScan} (spelled : Matches spelling scan)
    (symbol : Char) : Matches (spelling.plain symbol) (scan.plain symbol) where
  hadContent := rfl
  lastUnquotedChar := rfl
  hasUnquotedEquals := by
    unfold WordScan.plain Spelling.plain
    rw [spelled.hasUnquotedEquals]
  fresh := nofun

theorem Matches.tilde {spelling : Spelling} {scan : WordScan} (spelled : Matches spelling scan) :
    scan.TildeExpands ↔ spelling.TildeExpands := by
  unfold WordScan.TildeExpands Spelling.TildeExpands
  rw [spelled.lastUnquotedChar, spelled.hasUnquotedEquals]
  apply or_congr_left
  rw [← spelled.hadContent]
  exact ⟨And.left, fun fresh => ⟨fresh, spelled.fresh fresh⟩⟩

theorem continued_length (post text : Text) :
    (continued post text).length = text.length + (continuation ++ post).length :=
  List.length_append

section Words
variable {left right : Resume} {spelling : Spelling}

/-- A step of a word that is the same with the continuation leads on. -/
theorem alike_word {symbol : Char} {behind : Text} (rest : Option Text) (after : Spelling)
    (ends : isWordBreak symbol = false)
    (alike : ∀ text, rest = some text → Alike post (.word after) text)
    (shorter : ∀ text, rest = some text → text.length ≤ behind.length)
    (steps : ∀ input other scan, Matches spelling scan →
      Agrees (fun stepped other => Parted post rest stepped other ∧ Matches after stepped.1)
        (wordStep input (symbol :: continued post behind) symbol (continued post behind) scan)
        (wordStep other (symbol :: (behind ++ post)) symbol (behind ++ post) scan)) :
    Alike post (.word spelling) (symbol :: behind) := by
  intro left right same fuel more scan spelled fits holds
  obtain ⟨fuel, rfl⟩ := Nat.exists_eq_add_one.mpr (Nat.zero_lt_of_lt fits.1)
  obtain ⟨more, rfl⟩ := Nat.exists_eq_add_one.mpr (Nat.zero_lt_of_lt holds.1)
  have enough := fits.1
  have plenty := holds.1
  simp only [continued_cons, List.cons_append] at fits holds enough plenty ⊢
  rw [Resume.word_cons ends, Resume.word_cons ends]
  apply Agrees.bind (steps left.input right.input scan spelled)
  intro stepped other related
  obtain ⟨⟨next, text, found, rfl, rfl⟩, matched⟩ := related
  have less := shorter text found
  simp only [List.length_cons, continued_length, List.length_append] at enough plenty
  apply alike text found left right same fuel more next matched
  · apply (fits.room _ _).fits
    · simp only [List.length_cons, continued_length, List.length_append]
      omega
    · simp only [continued_length, List.length_append]
      omega
  · apply (holds.room _ _).fits
    · simp only [List.length_cons, List.length_append]
      omega
    · simp only [List.length_append]
      omega

/-- A step between double quotes that is the same with the continuation leads on. -/
theorem alike_double {symbol : Char} {behind : Text} (rest : Option Text) (inside : symbol ≠ '"')
    (alike : ∀ text, rest = some text → Alike post (.double spelling) text)
    (shorter : ∀ text, rest = some text → text.length ≤ behind.length)
    (steps : ∀ input other scan, Agrees (Parted post rest)
      (doubleQuotedStep input (symbol :: continued post behind) symbol (continued post behind) scan)
      (doubleQuotedStep other (symbol :: (behind ++ post)) symbol (behind ++ post) scan)) :
    Alike post (.double spelling) (symbol :: behind) := by
  intro left right same quote another fuel more wordFuel wordMore outer scan equals fits holds enough
    plenty
  obtain ⟨fuel, rfl⟩ := Nat.exists_eq_add_one.mpr (Nat.zero_lt_of_lt enough)
  obtain ⟨more, rfl⟩ := Nat.exists_eq_add_one.mpr (Nat.zero_lt_of_lt plenty)
  have first := fits.1
  have second := holds.1
  simp only [continued_cons, List.cons_append] at fits holds enough plenty first second ⊢
  rw [Resume.double_cons _ _ _ _ inside, Resume.double_cons _ _ _ _ inside]
  apply Agrees.bind (steps left.input right.input scan)
  intro stepped other related
  obtain ⟨next, text, found, rfl, rfl⟩ := related
  have less := shorter text found
  simp only [List.length_cons, continued_length, List.length_append] at enough plenty first second
  apply alike text found left right same quote another fuel more wordFuel wordMore outer next equals
  · apply fits.shorter
    simp only [List.length_cons, continued_length]
    omega
  · apply holds.shorter
    simp only [List.length_cons, List.length_append]
    omega
  · simp only [continued_length, List.length_append]
    omega
  · simp only [List.length_append]
    omega

end Words

section Units
variable {spelling : Spelling} {symbol : Char}

theorem wordStep_plain {rest next : Text} (other : symbol ∉ specialInWord) (scan : WordScan) :
    wordStep input rest symbol next scan = pure (scan.plain symbol, next) := by
  unfold specialInWord refusedInWord at other
  simp only [List.mem_append, List.mem_cons, List.not_mem_nil, or_false, not_or] at other
  unfold wordStep
  simp only [other, if_false, false_and, or_self]
  rfl

theorem refusedInWord_agrees
    {related : WordScan × Text → WordScan × Text → Prop} (refuses : symbol ∈ refusedInWord)
    (scan : WordScan) (first second : Text) :
    Agrees related (wordStep input (symbol :: first) symbol first scan)
      (wordStep other (symbol :: second) symbol second scan) := by
  unfold refusedInWord at refuses
  simp only [List.mem_cons, List.not_mem_nil, or_false] at refuses
  rcases refuses with rfl | rfl | rfl | rfl | rfl | rfl | rfl
  all_goals exact .fails _ _ _

theorem wordStep_escape (escaped : symbol ≠ '\n') (next : Text) (scan : WordScan) :
    wordStep input ('\\' :: symbol :: next) '\\' (symbol :: next) scan =
      pure (scan.quote (pushLiteral scan.flushed [symbol] true), next) := by
  have found : scanUnquotedEscape ('\\' :: symbol :: next) = (next, some symbol) := by
    unfold scanUnquotedEscape
    rw [List.tail_cons]
    split
    · rename_i empty
      cases empty
    · rename_i same
      exact absurd (List.cons.inj same).1 escaped
    · rename_i same
      obtain ⟨rfl, rfl⟩ := List.cons.inj same
      rfl
  unfold wordStep
  rw [if_neg (by decide), if_neg (by decide), if_pos rfl, found]

theorem wordStep_continuation (next : Text) (scan : WordScan) :
    wordStep input ('\\' :: '\n' :: next) '\\' ('\n' :: next) scan = pure (scan, next) := rfl

theorem wordStep_single {text : Text} (free : '\'' ∉ text) (next : Text) (scan : WordScan) :
    wordStep input ('\'' :: (text ++ '\'' :: next)) '\'' (text ++ '\'' :: next) scan =
      pure (scan.quote (pushLiteral scan.flushed text true), next) := by
  unfold wordStep
  rw [if_pos rfl, scanSingleQuoted_render free, pure_bind]

theorem wordStep_expansion (next : Text) (scan : WordScan) :
    wordStep input ('$' :: next) '$' next scan =
      scanExpansion input ('$' :: next) false scan.toLiterals >>= fun expanded =>
        pure ({ scan with
          toLiterals := expanded.1
          hadContent := true
          lastUnquotedChar := none }, expanded.2) := rfl

theorem wordStep_bracket {next : Text} (scan : WordScan) :
    wordStep input ('[' :: next) '[' next scan =
      if hasClosingBracketBeforeWordEnd next = true then
        Scan.fail (position input ('[' :: next)) (.unsupported .glob)
      else pure (scan.plain '[', next) := by
  cases closes : hasClosingBracketBeforeWordEnd next with
  | true =>
      unfold wordStep
      simp [closes]
  | false =>
      unfold wordStep WordScan.plain
      simp [closes]

theorem wordStep_tilde {next : Text} (scan : WordScan) :
    wordStep input ('~' :: next) '~' next scan =
      if scan.TildeExpands then
        Scan.fail (position input ('~' :: next)) (.unsupported .tildeExpansion)
      else pure (scan.plain '~', next) := by
  by_cases expands : scan.TildeExpands
  · unfold wordStep
    simp [expands]
  · unfold wordStep WordScan.plain
    simp [expands]

theorem doubleQuotedStep_plain {rest next : Text} (other : symbol ∉ specialInDouble)
    (scan : DoubleQuoted) :
    doubleQuotedStep input rest symbol next scan =
      pure ({ scan with literal := scan.literal ++ [symbol], hadContent := true }, next) := by
  unfold specialInDouble at other
  simp only [List.mem_cons, List.not_mem_nil, or_false, not_or] at other
  unfold doubleQuotedStep
  simp only [other, if_false]

theorem doubleQuotedStep_expansion (next : Text) (scan : DoubleQuoted) :
    doubleQuotedStep input ('$' :: next) '$' next scan =
      scanExpansion input ('$' :: next) true scan.toLiterals >>= fun expanded =>
        pure ({ toLiterals := expanded.1, hadContent := true }, expanded.2) := rfl

/-- What an escape gives does not depend on what follows it. -/
theorem scanDoubleQuotedEscape_behind (symbol : Char) (literal : Text) :
    ∃ value, ∀ input next, scanDoubleQuotedEscape input ('\\' :: symbol :: next) literal =
      pure (value, next) := by
  by_cases newline : symbol = '\n'
  · subst newline
    exact ⟨literal, fun _ _ => rfl⟩
  · refine ⟨if symbol ∈ ['$', '\x60', '"', '\\'] then literal ++ [symbol]
      else literal ++ ['\\', symbol], ?_⟩
    intro input next
    unfold scanDoubleQuotedEscape
    rw [List.tail_cons]
    split
    · rename_i empty
      cases empty
    · rename_i same
      exact absurd (List.cons.inj same).1 newline
    · rename_i same
      obtain ⟨rfl, rfl⟩ := List.cons.inj same
      split
      · rfl
      · rfl

theorem doubleQuotedStep_continuation (next : Text) (scan : DoubleQuoted) :
    doubleQuotedStep input ('\\' :: '\n' :: next) '\\' ('\n' :: next) scan = pure (scan, next) := by
  have kept : ({ scan with
      literal := scan.literal
      hadContent := scan.hadContent || decide (utf8Len scan.literal ≠ utf8Len scan.literal) } :
      DoubleQuoted) = scan := by simp
  exact congrArg (fun found => (pure (found, next) : Scan (DoubleQuoted × Text))) kept

theorem expansion_shorter {quoted : Bool} {text next : Text}
    (reads : Expansion post quoted text (some next)) : next.length ≤ text.length := by
  cases reads with
  | literal rest next => exact le_rfl
  | _ =>
      simp only [List.length_append, List.length_cons]
      omega

end Units

section Steps
variable {spelling : Spelling} {symbol : Char} {text : Text} {rest : Option Text}

theorem alike_expansion (reads : Expansion post false text rest)
    (alike : ∀ next, rest = some next → Alike post (.word spelling.quote) next) :
    Alike post (.word spelling) ('$' :: text) := by
  apply alike_word _ spelling.quote (by decide) alike
  · intro next found
    subst found
    exact expansion_shorter reads
  · intro input other scan spelled
    rw [wordStep_expansion, wordStep_expansion]
    apply Agrees.bind (expansion_agrees reads scan.toLiterals)
    intro expanded found parted
    obtain ⟨literals, next, found, rfl, rfl⟩ := parted
    exact .returns _ _ ⟨⟨_, next, found, rfl, rfl⟩, rfl, rfl, spelled.hasUnquotedEquals, nofun⟩

theorem alike_expansionDouble (reads : Expansion post true text rest)
    (alike : ∀ next, rest = some next → Alike post (.double spelling) next) :
    Alike post (.double spelling) ('$' :: text) := by
  apply alike_double _ (by decide) alike
  · intro next found
    subst found
    exact expansion_shorter reads
  · intro input other scan
    rw [doubleQuotedStep_expansion, doubleQuotedStep_expansion]
    apply Agrees.bind (expansion_agrees reads scan.toLiterals)
    intro expanded found parted
    obtain ⟨literals, next, found, rfl, rfl⟩ := parted
    exact .returns _ _ ⟨_, next, found, rfl, rfl⟩

/-- A step that gives the same scan and leaves the rest leads on. -/
theorem alike_pure {behind : Text} (after : Spelling) (ends : isWordBreak symbol = false)
    (next : WordScan → WordScan) (alike : Alike post (.word after) text)
    (shorter : text.length ≤ behind.length)
    (matches' : ∀ scan, Matches spelling scan → Matches after (next scan))
    (left : ∀ input scan, Matches spelling scan →
      wordStep input (symbol :: continued post behind) symbol (continued post behind) scan =
        pure (next scan, continued post text))
    (right : ∀ input scan, Matches spelling scan →
      wordStep input (symbol :: (behind ++ post)) symbol (behind ++ post) scan =
        pure (next scan, text ++ post)) :
    Alike post (.word spelling) (symbol :: behind) := by
  apply alike_word (some text) after ends
  · intro next found
    cases found
    exact alike
  · intro next found
    cases found
    exact shorter
  · intro input other scan spelled
    rw [left input scan spelled, right other scan spelled]
    exact .returns _ _ ⟨⟨_, text, rfl, rfl, rfl⟩, matches' scan spelled⟩

/-- A step that is refused needs nothing of what follows. -/
theorem alike_refused {behind : Text} (ends : isWordBreak symbol = false)
    (refuses : ∀ input other scan, Matches spelling scan →
      Agrees (fun _ _ => False)
        (wordStep input (symbol :: continued post behind) symbol (continued post behind) scan)
        (wordStep other (symbol :: (behind ++ post)) symbol (behind ++ post) scan)) :
    Alike post (.word spelling) (symbol :: behind) := by
  apply alike_word none spelling ends nofun nofun
  intro input other scan spelled
  apply (refuses input other scan spelled).mono
  intro left right impossible
  exact impossible.elim

theorem hasClosing_append {first second : Text}
    (closes : hasClosingBracketBeforeWordEnd first = true) :
    hasClosingBracketBeforeWordEnd (first ++ second) = true := by
  induction first with
  | nil => cases closes
  | cons symbol first ih =>
      rw [List.cons_append]
      unfold hasClosingBracketBeforeWordEnd at closes ⊢
      split
      · rfl
      · rename_i other
        rw [if_neg other] at closes
        split
        · rename_i ends
          rw [if_pos ends] at closes
          cases closes
        · rename_i inside
          rw [if_neg inside] at closes
          exact ih closes

/-- The newline of the continuation ends the search for the bracket. -/
theorem hasClosing_continued {rest : Text}
    (free : hasClosingBracketBeforeWordEnd (rest ++ post) = false) :
    hasClosingBracketBeforeWordEnd (continued post rest) = false := by
  induction rest with
  | nil => rfl
  | cons symbol rest ih =>
      rw [List.cons_append] at free
      rw [continued_cons]
      unfold hasClosingBracketBeforeWordEnd at free ⊢
      split
      · rename_i closes
        rw [if_pos closes] at free
        cases free
      · rename_i other
        rw [if_neg other] at free
        split
        · rfl
        · rename_i inside
          rw [if_neg inside] at free
          exact ih free

theorem alike_escape {spelling : Spelling} (escaped : symbol ≠ '\n')
    (alike : Alike post (.word spelling.quote) text) :
    Alike post (.word spelling) ('\\' :: symbol :: text) := by
  apply alike_pure spelling.quote (by decide)
    (fun scan => scan.quote (pushLiteral scan.flushed [symbol] true)) alike
  · simp
  · exact fun scan spelled => spelled.quote _
  · exact fun input scan _ => wordStep_escape escaped _ scan
  · exact fun input scan _ => wordStep_escape escaped _ scan

theorem alike_continued (alike : Alike post (.word spelling) text) :
    Alike post (.word spelling) ('\\' :: '\n' :: text) := by
  apply alike_pure spelling (by decide) id alike
  · exact Nat.le_succ _
  · exact fun scan spelled => spelled
  · exact fun input scan _ => wordStep_continuation _ scan
  · exact fun input scan _ => wordStep_continuation _ scan

theorem alike_refusedInWord (refuses : symbol ∈ refusedInWord) :
    Alike post (.word spelling) (symbol :: text) := by
  have ends : isWordBreak symbol = false := by
    unfold refusedInWord at refuses
    simp only [List.mem_cons, List.not_mem_nil, or_false] at refuses
    rcases refuses with rfl | rfl | rfl | rfl | rfl | rfl | rfl
    all_goals decide
  exact alike_refused ends fun input other scan spelled => refusedInWord_agrees refuses scan _ _

theorem alike_single {spelling : Spelling} {quoted : Text} (free : '\'' ∉ quoted)
    (alike : Alike post (.word spelling.quote) text) :
    Alike post (.word spelling) ('\'' :: (quoted ++ '\'' :: text)) := by
  apply alike_pure spelling.quote (by decide)
    (fun scan => scan.quote (pushLiteral scan.flushed quoted true)) alike
  · rw [List.length_append, List.length_cons]
    omega
  · exact fun scan spelled => spelled.quote _
  · intro input scan spelled
    rw [continued_append, continued_cons]
    exact wordStep_single free _ scan
  · intro input scan spelled
    rw [List.append_assoc, List.cons_append]
    exact wordStep_single free _ scan

theorem alike_plain (ends : isWordBreak symbol = false) (plain : symbol ∉ specialInWord)
    (alike : Alike post (.word (spelling.plain symbol)) text) :
    Alike post (.word spelling) (symbol :: text) := by
  apply alike_pure (spelling.plain symbol) ends (fun scan => scan.plain symbol) alike le_rfl
  · exact fun scan spelled => spelled.plain symbol
  · exact fun input scan _ => wordStep_plain plain scan
  · exact fun input scan _ => wordStep_plain plain scan

theorem alike_bracket (free : hasClosingBracketBeforeWordEnd (text ++ post) = false)
    (alike : Alike post (.word (spelling.plain '[')) text) :
    Alike post (.word spelling) ('[' :: text) := by
  apply alike_pure (spelling.plain '[') (by decide) (fun scan => scan.plain '[') alike le_rfl
  · exact fun scan spelled => spelled.plain '['
  · intro input scan spelled
    rw [wordStep_bracket, if_neg (by rw [hasClosing_continued free]; decide)]
  · intro input scan spelled
    rw [wordStep_bracket, if_neg (by rw [free]; decide)]

theorem alike_glob (closes : hasClosingBracketBeforeWordEnd text = true) :
    Alike post (.word spelling) ('[' :: text) := by
  apply alike_refused (by decide)
  intro input other scan spelled
  have left : hasClosingBracketBeforeWordEnd (continued post text) = true :=
    hasClosing_append closes
  rw [wordStep_bracket, wordStep_bracket, if_pos left, if_pos (hasClosing_append closes)]
  exact .fails _ _ _

theorem alike_tilde (plain : ¬ spelling.TildeExpands)
    (alike : Alike post (.word (spelling.plain '~')) text) :
    Alike post (.word spelling) ('~' :: text) := by
  apply alike_pure (spelling.plain '~') (by decide) (fun scan => scan.plain '~') alike le_rfl
  · exact fun scan spelled => spelled.plain '~'
  · intro input scan spelled
    rw [wordStep_tilde, if_neg (mt spelled.tilde.mp plain)]
  · intro input scan spelled
    rw [wordStep_tilde, if_neg (mt spelled.tilde.mp plain)]

theorem alike_home (expands : spelling.TildeExpands) :
    Alike post (.word spelling) ('~' :: text) := by
  apply alike_refused (by decide)
  intro input other scan spelled
  rw [wordStep_tilde, wordStep_tilde, if_pos (spelled.tilde.mpr expands),
    if_pos (spelled.tilde.mpr expands)]
  exact .fails _ _ _

theorem alike_openDouble (alike : Alike post (.double spelling) text) :
    Alike post (.word spelling) ('"' :: text) := by
  intro left right same fuel more scan spelled fits holds
  obtain ⟨fuel, rfl⟩ := Nat.exists_eq_add_one.mpr (Nat.zero_lt_of_lt fits.1)
  obtain ⟨more, rfl⟩ := Nat.exists_eq_add_one.mpr (Nat.zero_lt_of_lt holds.1)
  rw [continued_cons] at fits ⊢
  rw [List.cons_append] at holds ⊢
  rw [Resume.word_openDouble, Resume.word_openDouble]
  exact alike left right same _ _ _ _ fuel more scan _ spelled.hasUnquotedEquals
    (fits.room (Nat.lt_succ_self _) (Nat.lt_of_succ_lt_succ fits.1))
    (holds.room (Nat.lt_succ_self _) (Nat.lt_of_succ_lt_succ holds.1))
    (Nat.lt_succ_self _) (Nat.lt_succ_self _)

theorem alike_closeDouble (alike : Alike post (.word spelling.quote) text) :
    Alike post (.double spelling) ('"' :: text) := by
  intro left right same quote another fuel more wordFuel wordMore outer scan equals fits holds enough
    plenty
  obtain ⟨fuel, rfl⟩ := Nat.exists_eq_add_one.mpr (Nat.zero_lt_of_lt enough)
  obtain ⟨more, rfl⟩ := Nat.exists_eq_add_one.mpr (Nat.zero_lt_of_lt plenty)
  rw [continued_cons] at fits ⊢
  rw [List.cons_append] at holds ⊢
  rw [Resume.double_close, Resume.double_close]
  exact alike left right same wordFuel wordMore _ ⟨rfl, rfl, equals, nofun⟩
    (fits.shorter (Nat.le_succ _)).fits (holds.shorter (Nat.le_succ _)).fits

theorem alike_escapeDouble (alike : Alike post (.double spelling) text) :
    Alike post (.double spelling) ('\\' :: symbol :: text) := by
  apply alike_double (some text) (by decide)
  · intro next found
    cases found
    exact alike
  · intro next found
    cases found
    exact Nat.le_succ _
  · intro input other scan
    obtain ⟨value, escape⟩ := scanDoubleQuotedEscape_behind symbol scan.literal
    change Agrees _ (scanDoubleQuotedEscape _ _ _ >>= _) (scanDoubleQuotedEscape _ _ _ >>= _)
    rw [continued_cons, List.cons_append, escape, escape]
    exact Parted.pure

theorem alike_plainDouble (plain : symbol ∉ specialInDouble)
    (alike : Alike post (.double spelling) text) :
    Alike post (.double spelling) (symbol :: text) := by
  have inside : symbol ≠ '"' := by
    rintro rfl
    exact plain (by decide)
  apply alike_double (some text) inside
  · intro next found
    cases found
    exact alike
  · intro next found
    cases found
    exact le_rfl
  · intro input other scan
    rw [doubleQuotedStep_plain plain, doubleQuotedStep_plain plain]
    exact Parted.pure

theorem alike_backtick : Alike post (.double spelling) ('\x60' :: text) := by
  apply alike_double none (by decide) nofun nofun
  intro input other scan
  exact .fails _ _ _

end Steps

section Gaps
variable {symbol : Char} {text behind : Text} {rest : Option Text}

/-- A token that is the same with the continuation leads on. -/
theorem alike_kind (blank : isBlank symbol = false) (comment : symbol ≠ '#')
    (alike : ∀ next, rest = some next → Alike post .gap next)
    (shorter : ∀ next, rest = some next → next.length ≤ behind.length)
    (steps : ∀ input other, Agrees (Parted post rest)
      (scanKind input (continued post (symbol :: behind)))
      (scanKind other (symbol :: behind ++ post))) : Alike post .gap (symbol :: behind) := by
  intro left right same enough plenty
  obtain ⟨leftInput, fuel, leftStart, leftTokens⟩ := left
  obtain ⟨rightInput, more, rightStart, rightTokens⟩ := right
  obtain ⟨fuel, rfl⟩ := Nat.exists_eq_add_one.mpr (Nat.zero_lt_of_lt enough)
  obtain ⟨more, rfl⟩ := Nat.exists_eq_add_one.mpr (Nat.zero_lt_of_lt plenty)
  unfold Resume.gap
  dsimp only at same enough plenty ⊢
  have scanned := steps leftInput rightInput
  rw [continued_cons] at scanned enough ⊢
  rw [List.cons_append] at scanned plenty ⊢
  rw [lexLoop_kind _ blank comment, lexLoop_kind _ blank comment]
  apply Agrees.bind scanned
  intro found other parted
  obtain ⟨kind, next, found, rfl, rfl⟩ := parted
  have less := shorter next found
  simp only [List.length_cons, continued_length, List.length_append] at enough plenty
  apply alike next found ⟨leftInput, fuel, leftStart, _⟩ ⟨rightInput, more, rightStart, _⟩
  · exact same.append kind _ _
  · simp only [continued_length, List.length_append]
    omega
  · simp only [List.length_append]
    omega

theorem alike_operator (reads : Operator post text rest)
    (alike : ∀ next, rest = some next → Alike post .gap next) : Alike post .gap text := by
  have starts : ∃ symbol behind, text = symbol :: behind ∧ isBlank symbol = false ∧ symbol ≠ '#' ∧
      ∀ next, rest = some next → next.length ≤ behind.length := by
    cases reads
    all_goals
      refine ⟨_, _, rfl, by decide, by decide, ?_⟩
      intro next found
      cases found <;> simp
  obtain ⟨symbol, behind, rfl, blank, comment, shorter⟩ := starts
  exact alike_kind blank comment alike shorter fun input other => operator_agrees reads

/-- Neither a digit nor the operator of a redirect is a blank or starts a comment. -/
theorem redirect_starts {digits : Text} (numeric : ∀ digit ∈ digits, digit.isDigit = true)
    (redirects : symbol = '<' ∨ symbol = '>') (behind : Text) :
    ∃ first tail, digits ++ symbol :: behind = first :: tail ∧ isBlank first = false ∧ first ≠ '#' ∧
      behind.length ≤ tail.length := by
  cases digits with
  | nil =>
      rcases redirects with rfl | rfl
      · exact ⟨_, _, rfl, by decide, by decide, le_rfl⟩
      · exact ⟨_, _, rfl, by decide, by decide, le_rfl⟩
  | cons digit digits =>
      have digital := numeric digit List.mem_cons_self
      refine ⟨digit, _, rfl, ?_, ?_, ?_⟩
      · cases blank : isBlank digit with
        | false => rfl
        | true =>
            unfold isBlank at blank
            simp only [Bool.or_eq_true, decide_eq_true_eq] at blank
            rcases blank with rfl | rfl
            all_goals exact absurd digital (by decide)
      · rintro rfl
        exact absurd digital (by decide)
      · change behind.length ≤ (digits ++ symbol :: behind).length
        rw [List.length_append, List.length_cons]
        omega

theorem redirection_shorter (reads : Redirection post (symbol :: behind) rest) :
    ∀ next, rest = some next → next.length ≤ behind.length := by
  intro next found
  subst found
  cases reads with
  | read rest next => exact le_rfl
  | write rest next => exact le_rfl
  | append rest next => exact Nat.le_succ _
  | fd digits symbol rest some' numeric ends fits =>
      simp only [List.length_append, List.length_cons]
      omega

theorem alike_redirect {digits : Text} (numeric : ∀ digit ∈ digits, digit.isDigit = true)
    (fits : decimal digits < 2 ^ 32) (reads : Redirection post text rest)
    (alike : ∀ next, rest = some next → Alike post .gap next) :
    Alike post .gap (digits ++ text) := by
  obtain ⟨symbol, behind, rfl, redirects⟩ := reads.starts
  obtain ⟨first, tail, same, blank, comment, longer⟩ := redirect_starts numeric redirects behind
  have steps := fun input other => @redirect_agrees post input other _ _ _ numeric fits reads
  rw [same] at steps ⊢
  apply alike_kind blank comment alike _ steps
  intro next found
  exact le_trans (redirection_shorter reads next found) longer

theorem alike_largeFd {digits : Text} (numeric : ∀ digit ∈ digits, digit.isDigit = true)
    (large : ¬ decimal digits < 2 ^ 32) (redirects : symbol = '<' ∨ symbol = '>') :
    Alike post .gap (digits ++ symbol :: behind) := by
  obtain ⟨first, tail, same, blank, comment, -⟩ := redirect_starts numeric redirects behind
  have steps (input other : Text) : Agrees (Parted post none)
      (scanKind input (continued post (digits ++ symbol :: behind)))
      (scanKind other (digits ++ symbol :: behind ++ post)) := by
    rw [continued_append, continued_cons, List.append_assoc, List.cons_append]
    exact largeFd_agrees numeric large redirects
  rw [same] at steps ⊢
  apply alike_kind blank comment _ _ steps
  · intro next found
    cases found
  · intro next found
    cases found

theorem alike_blank (blank : isBlank symbol = true) (alike : Alike post .gap text) :
    Alike post .gap (symbol :: text) := by
  intro left right same enough plenty
  obtain ⟨leftInput, fuel, leftStart, leftTokens⟩ := left
  obtain ⟨rightInput, more, rightStart, rightTokens⟩ := right
  obtain ⟨fuel, rfl⟩ := Nat.exists_eq_add_one.mpr (Nat.zero_lt_of_lt enough)
  obtain ⟨more, rfl⟩ := Nat.exists_eq_add_one.mpr (Nat.zero_lt_of_lt plenty)
  have agrees := alike ⟨leftInput, fuel + 1, leftStart, leftTokens⟩
    ⟨rightInput, more + 1, rightStart, rightTokens⟩ same (Nat.lt_of_succ_lt enough)
    (Nat.lt_of_succ_lt plenty)
  unfold Resume.gap at agrees ⊢
  dsimp only at agrees ⊢
  rw [continued_cons, List.cons_append, lexLoop_blank _ blank, lexLoop_blank _ blank]
  exact agrees

theorem skipComment_newline {comment : Text} (free : '\n' ∉ comment) (rest : Text) :
    skipComment ('#' :: (comment ++ '\n' :: rest)) = '\n' :: rest := by
  have kept : ∀ symbol ∈ '#' :: comment, decide (symbol ≠ '\n') = true := by
    intro symbol member
    rw [decide_eq_true_eq]
    rintro rfl
    rcases List.mem_cons.mp member with same | member
    · cases same
    · exact free member
  exact (while_stops kept (by simp)).2

theorem alike_comment {comment : Text} (free : '\n' ∉ comment)
    (alike : Alike post .gap ('\n' :: text)) :
    Alike post .gap ('#' :: (comment ++ '\n' :: text)) := by
  intro left right same enough plenty
  obtain ⟨leftInput, fuel, leftStart, leftTokens⟩ := left
  obtain ⟨rightInput, more, rightStart, rightTokens⟩ := right
  obtain ⟨fuel, rfl⟩ := Nat.exists_eq_add_one.mpr (Nat.zero_lt_of_lt enough)
  obtain ⟨more, rfl⟩ := Nat.exists_eq_add_one.mpr (Nat.zero_lt_of_lt plenty)
  simp only [List.length_cons, continued_length, List.length_append] at enough plenty
  have agrees := alike ⟨leftInput, fuel, leftStart, leftTokens⟩
    ⟨rightInput, more, rightStart, rightTokens⟩ same
    (by simp only [continued_length, List.length_cons, List.length_append]; omega)
    (by simp only [List.length_cons, List.length_append]; omega)
  unfold Resume.gap at agrees ⊢
  dsimp only at agrees ⊢
  rw [continued_cons, continued_append, continued_cons, List.cons_append, List.append_assoc,
    List.cons_append, lexLoop_comment, lexLoop_comment, skipComment_newline free,
    skipComment_newline free]
  exact agrees

/-- Digits in front of the continuation belong to no redirect behind it. -/
theorem numbered_continued (numbered : Numbered (continued post text)) : Numbered (text ++ post) := by
  obtain ⟨digits, symbol, rest, same, some', numeric, redirects⟩ := numbered
  have backslash : '\\' ≠ symbol := by
    rintro rfl
    rcases redirects with same | same
    all_goals cases same
  rcases List.append_eq_append_iff.mp same with ⟨more, rfl, cut⟩ | ⟨more, rfl, cut⟩
  · cases more with
    | nil => exact absurd (List.cons.inj cut).1 backslash
    | cons first more =>
        have digital := numeric first (List.mem_append_right _ List.mem_cons_self)
        rw [← (List.cons.inj cut).1] at digital
        cases digital
  · cases more with
    | nil => exact absurd (List.cons.inj cut).1.symm backslash
    | cons first more =>
        obtain ⟨rfl, -⟩ := List.cons.inj cut
        exact ⟨digits, symbol, more ++ post, by simp, some', numeric, redirects⟩

theorem alike_start (ends : isWordBreak symbol = false) (comment : symbol ≠ '#')
    (free : ¬ Numbered (symbol :: text ++ post)) (alike : Alike post (.word {}) (symbol :: text)) :
    Alike post .gap (symbol :: text) := by
  intro left right same enough plenty
  obtain ⟨fuel, more⟩ := Nat.exists_eq_add_one.mpr (Nat.zero_lt_of_lt enough)
  obtain ⟨fuel', more'⟩ := Nat.exists_eq_add_one.mpr (Nat.zero_lt_of_lt plenty)
  have starts (rest : Text) : StartsWord (symbol :: rest) := ⟨symbol, rest, rfl, ends, comment⟩
  have continues : StartsWord (continued post (symbol :: text)) := starts _
  have unnumbered : ¬ Numbered (continued post (symbol :: text)) := mt numbered_continued free
  have plain : StartsWord (symbol :: text ++ post) := starts _
  rw [Resume.gap_start continues unnumbered left more, Resume.gap_start plain free right more']
  rw [more] at enough
  rw [more'] at plenty
  apply alike { left with fuel, start := _ } { right with fuel := fuel', start := _ } same _ _ {}
    ⟨rfl, rfl, rfl, fun _ => ⟨rfl, rfl⟩⟩
  · exact ⟨Nat.lt_succ_self _, (Nat.lt_succ_iff_lt_or_eq.mp enough).imp id fun equal =>
      ⟨equal, starts _⟩⟩
  · exact ⟨Nat.lt_succ_self _, (Nat.lt_succ_iff_lt_or_eq.mp plenty).imp id fun equal =>
      ⟨equal, starts _⟩⟩

theorem alike_stop {spelling : Spelling} (ends : isWordBreak symbol = true)
    (alike : Alike post .gap (symbol :: text)) : Alike post (.word spelling) (symbol :: text) := by
  intro left right same fuel more scan spelled fits holds
  obtain ⟨fuel, rfl⟩ := Nat.exists_eq_add_one.mpr (Nat.zero_lt_of_lt fits.1)
  obtain ⟨more, rfl⟩ := Nat.exists_eq_add_one.mpr (Nat.zero_lt_of_lt holds.1)
  have left' : left.word (fuel + 1) (continued post (symbol :: text)) scan = _ :=
    Resume.word_stop ends scan
  have right' : right.word (more + 1) (symbol :: text ++ post) scan = _ :=
    Resume.word_stop ends scan
  rw [left', right']
  exact alike _ _ (same.append _ _ _) (fits.stops ends) (holds.stops ends)

end Gaps

section Shared
variable {left right : Resume} {fuel more : Nat} {rest : Text}

/-- Both scans of one rest of a word find the same tokens. -/
theorem word_shared (same : SameKinds left.tokens right.tokens) (scan : WordScan)
    (fits : left.Fits fuel rest) (holds : right.Fits more rest) :
    Agrees SameKinds (left.word fuel rest scan) (right.word more rest scan) := by
  have scanned : Agrees (fun found other => found = other ∧ found.2.length < left.fuel ∧
      found.2.length < right.fuel) (wordLoop left.input fuel rest scan)
      (wordLoop right.input more rest scan) := by
    by_cases starts : StartsWord rest
    · apply Agrees.mono (wordLoop_starts starts scan fits.1 holds.1)
      intro found other related
      obtain ⟨rfl, shorter⟩ := related
      have first := fits.behind
      have second := holds.behind
      exact ⟨rfl, by omega, by omega⟩
    · apply Agrees.mono (wordLoop_advances rest scan fits.1 holds.1)
      intro found other related
      obtain ⟨rfl, shorter⟩ := related
      have first := fits.2.resolve_right fun equal => starts equal.2
      have second := holds.2.resolve_right fun equal => starts equal.2
      exact ⟨rfl, by omega, by omega⟩
  apply Agrees.bind scanned
  intro found other related
  obtain ⟨rfl, first, second⟩ := related
  exact lexLoop_agrees found.2 first second (same.append _ _ _)

theorem double_shared (same : SameKinds left.tokens right.tokens) (quote behind : Text)
    {wordFuel wordMore : Nat} (outer : WordScan) (scan : DoubleQuoted)
    (room : left.Room wordFuel rest) (roomy : right.Room wordMore rest) (enough : rest.length < fuel)
    (plenty : rest.length < more) :
    Agrees SameKinds (left.double quote fuel wordFuel outer rest scan)
      (right.double behind more wordMore outer rest scan) := by
  apply Agrees.bind (doubleQuotedLoop_advances quote behind rest scan enough plenty)
  intro found other related
  obtain ⟨rfl, shorter⟩ := related
  have less := Nat.le_of_lt_succ shorter
  exact word_shared same _ (room.shorter less).fits (roomy.shorter less).fits

/-- A continuation between two tokens starts a word, which joins what is behind it. -/
theorem alike_fresh (comment : NextIs post (· ≠ '#') []) (free : ¬ Numbered post) :
    Alike post .gap [] := by
  intro left right same enough plenty
  obtain ⟨fuel, more⟩ := Nat.exists_eq_add_one.mpr (Nat.zero_lt_of_lt enough)
  have starts : StartsWord (continued post []) := ⟨'\\', '\n' :: post, rfl, by decide, by decide⟩
  have unnumbered : ¬ Numbered (continued post []) := mt numbered_continued free
  rw [Resume.gap_start starts unnumbered left more]
  have cut : Resume.word { left with fuel, start := position left.input (continued post []) }
      ((continued post []).length + 1) (continued post []) {} = Resume.word { left with
        fuel, start := position left.input (continued post []) } (post.length + 2) post {} := by
    change Resume.word _ (post.length + 2 + 1) ('\\' :: '\n' :: post) {} = _
    rw [Resume.word_cons (by decide), wordStep_continuation, pure_bind]
  rw [cut]
  have less : post.length < fuel := by
    rw [more] at enough
    exact Nat.lt_of_succ_lt (Nat.lt_of_succ_lt_succ enough)
  by_cases stops : Stops post
  · unfold Resume.word
    rw [wordLoop_stops stops (Nat.zero_lt_succ _), pure_bind]
    apply lexLoop_agrees post less plenty
    unfold SameKinds at same ⊢
    rw [kinds_append, same]
    exact List.append_nil _
  · unfold Stops at stops
    push Not at stops
    obtain ⟨symbol, found, inside⟩ := stops
    obtain ⟨rest, rfl⟩ := List.head?_eq_some_iff.mp found
    have word : StartsWord (symbol :: rest) :=
      ⟨symbol, rest, rfl, Bool.not_eq_true _ ▸ inside, comment symbol rfl⟩
    obtain ⟨fuel', more'⟩ := Nat.exists_eq_add_one.mpr (Nat.zero_lt_of_lt plenty)
    have right' : right.gap ([] ++ symbol :: rest) = _ := Resume.gap_start word free right more'
    rw [right']
    rw [more'] at plenty
    have room : Resume.Room
        { left with fuel, start := position left.input (continued (symbol :: rest) []) }
        ((symbol :: rest).length + 2) (symbol :: rest) := ⟨by omega, less⟩
    have fits : Resume.Fits { right with fuel := fuel', start := position right.input (symbol :: rest) }
        ((symbol :: rest).length + 1) (symbol :: rest) :=
      ⟨Nat.lt_succ_self _, (Nat.lt_succ_iff_lt_or_eq.mp plenty).imp id fun equal => ⟨equal, word⟩⟩
    apply word_shared _ {} room.fits fits
    exact same

/-- The places join what is behind the continuation. -/
theorem alike_here {place : Place} (joins : Joins post place) : Alike post place [] := by
  cases place with
  | gap => exact alike_fresh joins.1 joins.2
  | word spelling =>
      intro left right same fuel more scan spelled fits holds
      obtain ⟨fuel, rfl⟩ := Nat.exists_eq_add_one.mpr (Nat.zero_lt_of_lt fits.1)
      have less : post.length < fuel := Nat.lt_of_succ_lt (Nat.lt_of_succ_lt_succ fits.1)
      change Agrees SameKinds (left.word (fuel + 1) ('\\' :: '\n' :: post) scan) _
      rw [Resume.word_cons (by decide), wordStep_continuation, pure_bind]
      have room : left.Room fuel post := fits.room (Nat.lt_succ_of_lt (Nat.lt_succ_self _)) less
      exact word_shared same scan room.fits holds
  | double spelling =>
      intro left right same quote another fuel more wordFuel wordMore outer scan equals room roomy
        enough plenty
      obtain ⟨fuel, rfl⟩ := Nat.exists_eq_add_one.mpr (Nat.zero_lt_of_lt enough)
      have less : post.length < fuel := Nat.lt_of_succ_lt (Nat.lt_of_succ_lt_succ enough)
      change Agrees SameKinds (left.double quote (fuel + 1) wordFuel outer ('\\' :: '\n' :: post) scan) _
      rw [Resume.double_cons _ _ _ _ (by decide), doubleQuotedStep_continuation, pure_bind]
      exact double_shared same _ _ outer scan (room.shorter (Nat.le_add_right _ 2)) roomy less
        plenty

end Shared

/-- What one unit leads to decides what is in front of it. -/
theorem alike_reads {place : Place} {text : Text} {reached : Option (Place × Text)}
    (reads : ReadsUnit post place text reached)
    (alike : ∀ next rest, reached = some (next, rest) → Alike post next rest) :
    Alike post place text := by
  cases reads with
  | blank symbol rest blank => exact alike_blank blank (alike _ _ rfl)
  | comment text rest free => exact alike_comment free (alike _ _ rfl)
  | operator text rest reads =>
      apply alike_operator reads
      intro next found
      subst found
      exact alike _ _ rfl
  | redirect digits text rest numeric fits reads =>
      apply alike_redirect numeric fits reads
      intro next found
      subst found
      exact alike _ _ rfl
  | largeFd digits symbol rest numeric large redirects => exact alike_largeFd numeric large redirects
  | start symbol rest ends other free => exact alike_start ends other free (alike _ _ rfl)
  | stop spelling symbol rest ends => exact alike_stop ends (alike _ _ rfl)
  | single spelling text rest free => exact alike_single free (alike _ _ rfl)
  | openDouble spelling rest => exact alike_openDouble (alike _ _ rfl)
  | escape spelling symbol rest other => exact alike_escape other (alike _ _ rfl)
  | continued spelling rest => exact alike_continued (alike _ _ rfl)
  | expansion spelling text rest reads =>
      apply alike_expansion reads
      intro next found
      subst found
      exact alike _ _ rfl
  | refused spelling symbol rest refuses => exact alike_refusedInWord refuses
  | bracket spelling rest free => exact alike_bracket free (alike _ _ rfl)
  | glob spelling rest closes => exact alike_glob closes
  | tilde spelling rest plain => exact alike_tilde plain (alike _ _ rfl)
  | home spelling rest expands => exact alike_home expands
  | plain spelling symbol rest ends other => exact alike_plain ends other (alike _ _ rfl)
  | closeDouble spelling rest => exact alike_closeDouble (alike _ _ rfl)
  | escapeDouble spelling symbol rest => exact alike_escapeDouble (alike _ _ rfl)
  | expansionDouble spelling text rest reads =>
      apply alike_expansionDouble reads
      intro next found
      subst found
      exact alike _ _ rfl
  | backtick spelling rest => exact alike_backtick
  | plainDouble spelling symbol rest other => exact alike_plainDouble other (alike _ _ rfl)

theorem Seam.alike {place : Place} {text : Text} (seam : Seam post place text) :
    Alike post place text := by
  induction seam with
  | here place joins => exact alike_here joins
  | reads place next text rest reads seam ih =>
      apply alike_reads reads
      intro other found same
      cases same
      exact ih
  | refused place text refuses =>
      apply alike_reads refuses
      intro next rest found
      cases found

end Places

theorem Agrees.sameTokens {first second : Scan (List Token)} (agrees : Agrees SameKinds first second) :
    SameTokens first second := by
  cases agrees with
  | returns left right same => exact .inr ⟨left, right, rfl, rfl, same⟩
  | fails left right kind => exact .inl ⟨_, _, rfl, rfl, rfl⟩

/-- A line continuation at a seam can be taken out. -/
theorem lex_continuation (pre post : Text) (seam : Seam post .gap pre) :
    SameTokens (lex (pre ++ (continuation ++ post))) (lex (pre ++ post)) := by
  apply Agrees.sameTokens
  exact seam.alike ⟨pre ++ (continuation ++ post), _, 0, []⟩ ⟨pre ++ post, _, 0, []⟩ rfl
    (Nat.lt_succ_self _) (Nat.lt_succ_self _)

theorem lex_continuation_inside_word : SameTokens (lex "ec\\\nho".toList) (lex "echo".toList) := by
  have seam : Seam ['h', 'o'] (.word ((Spelling.plain {} 'e').plain 'c')) [] := .here _ trivial
  have second := Seam.reads _ _ _ _ (.plain _ 'c' [] (by decide) (by decide)) seam
  have first := Seam.reads _ _ _ _ (.plain _ 'e' ['c'] (by decide) (by decide)) second
  exact lex_continuation ['e', 'c'] ['h', 'o'] (.reads _ _ _ _
    (.start 'e' ['c'] (by decide) (by decide) (not_numbered (by decide) _)) first)

/-- A continuation behind the number of a redirect makes the number a word, so that the redirect
moves another descriptor. No quote, comment or escape comes before it. -/
theorem lex_continuation_moves_redirect :
    ∃ pre post : Text, (∀ symbol ∈ pre, symbol ∉ ['\'', '"', '#', '\\']) ∧
      ¬ SameTokens (lex (pre ++ (continuation ++ post))) (lex (pre ++ post)) := by
  refine ⟨"echo 2".toList, ">f".toList, by simp, ?_⟩
  rintro (⟨left, right, failed, -⟩ | ⟨left, right, first, second, same⟩)
  · cases failed
  · have apart : (lex "echo 2\\\n>f".toList).outcome = some (.ok [
        ⟨.word ⟨[.literal "echo".toList false]⟩, 0⟩, ⟨.word ⟨[.literal "2".toList false]⟩, 5⟩,
        ⟨.redirect ⟨none, .write, none⟩, 8⟩, ⟨.word ⟨[.literal "f".toList false]⟩, 9⟩]) := rfl
    have joined : (lex "echo 2>f".toList).outcome = some (.ok [
        ⟨.word ⟨[.literal "echo".toList false]⟩, 0⟩, ⟨.redirect ⟨some 2, .write, none⟩, 5⟩,
        ⟨.word ⟨[.literal "f".toList false]⟩, 7⟩]) := rfl
    cases first.symm.trans apart
    cases second.symm.trans joined
    cases same

end TinySandbox.Shell
