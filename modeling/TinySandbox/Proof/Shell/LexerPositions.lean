/-
This file shows that the lexer ends without a panic, that its tokens and the errors of the lexer and
the parser stand on boundaries of characters, and it collects what holds of the positions.
-/

import TinySandbox.Proof.Shell.Positions
import TinySandbox.Proof.Shell.Programs

namespace TinySandbox.Shell

variable {input rest next : Text} {place : Nat} {symbol : Char}

section Tokens

/-- An ampersand and a vertical bar may stand twice. -/
theorem scanToken_bar (next : Text) :
    scanToken input ('|' :: next) =
      if next.head? = some '|' then pure (some .orIf, next.tail) else pure (some .pipe, next) := by
  by_cases double : next.head? = some '|'
  · obtain ⟨behind, rfl⟩ := List.head?_eq_some_iff.mp double
    rfl
  · rw [if_neg double, scanToken_pipe double]

theorem scanToken_ampersand (next : Text) :
    scanToken input ('&' :: next) =
      if next.head? = some '&' then pure (some .andIf, next.tail)
      else Scan.fail (position input ('&' :: next)) (.unsupported .background) := by
  by_cases double : next.head? = some '&'
  · obtain ⟨behind, rfl⟩ := List.head?_eq_some_iff.mp double
    rfl
  · rw [if_neg double, scanToken_background double]

theorem scanToken_tracks (stands : Stands input place (symbol :: next))
    (plain : symbol ≠ '<' ∧ symbol ≠ '>') :
    Tracks input (Moved input) (Bytes.scanToken input place)
      (scanToken input (symbol :: next)) := by
  unfold Bytes.scanToken
  rw [stands.peek, List.head?_cons]
  dsimp only
  by_cases newline : symbol = '\n'
  · subst newline
    exact .pure (stands.one rfl)
  · rw [if_neg newline]
    by_cases semi : symbol = ';'
    · subst semi
      exact .pure (stands.one rfl)
    · rw [if_neg semi]
      by_cases bar : symbol = '|'
      · subst bar
        rw [if_pos rfl, stands.doubled, pure_bind, scanToken_bar]
        simp only [decide_eq_true_eq]
        apply Tracks.ite
        · intro double
          obtain ⟨behind, rfl⟩ := List.head?_eq_some_iff.mp double
          exact .pure ((stands.one rfl).one rfl)
        · intro single
          exact .pure (stands.one rfl)
      · rw [if_neg bar]
        by_cases ampersand : symbol = '&'
        · subst ampersand
          rw [if_pos rfl, stands.doubled, pure_bind, scanToken_ampersand]
          simp only [decide_eq_true_eq]
          apply Tracks.ite
          · intro double
            obtain ⟨behind, rfl⟩ := List.head?_eq_some_iff.mp double
            exact .pure ((stands.one rfl).one rfl)
          · intro single
            exact .fail stands _
        · rw [if_neg ampersand, if_neg plain.1, if_neg plain.2]
          have word : scanToken input (symbol :: next) = scanWord input (symbol :: next) >>=
              fun scanned => pure (scanned.1.map TokenKind.word, scanned.2) := by
            unfold scanToken
            split
            all_goals first | rfl | simp_all
          rw [word]
          apply Tracks.bind (scanWord_tracks stands)
          intro left right returned moved
          obtain ⟨same, further⟩ := moved
          rw [same]
          exact .pure further

/-- Only a place in front of a redirect has one. -/
theorem scanKind_tracks (stands : Stands input place (symbol :: next)) :
    Tracks input (Moved input) (Bytes.scanKind input place) (scanKind input (symbol :: next)) := by
  unfold Bytes.scanKind scanKind
  apply Tracks.bind (scanRedirect_tracks stands)
  intro left right returned found
  cases left with
  | none =>
      cases right with
      | none =>
          obtain ⟨absent, rfl, -, plain⟩ := Agrees.returned (scanRedirect_agrees _) returned
          have heads := plain rfl
          apply scanToken_tracks stands
          exact ⟨fun same => heads.1 (congrArg some same), fun same => heads.2 (congrArg some same)⟩
      | some right => cases found
  | some left =>
      cases right with
      | none => cases found
      | some right =>
          obtain ⟨same, further⟩ := found
          refine .returns _ _ ⟨?_, further⟩
          rw [same]

end Tokens

section Rounds
variable {tokens : List Token}

/-- This is one round of the lexer on texts. -/
def textRound (input rest : Text) : Scan (Option (Option Token × Text)) :=
  if skipBlanks rest = [] then pure none
  else if (skipBlanks rest).head? = some '#' then pure (some (none, skipComment (skipBlanks rest)))
  else do
    let scanned ← scanKind input (skipBlanks rest)
    pure (some (scanned.1.map fun kind => { kind, position := position input (skipBlanks rest) },
      scanned.2))

/-- This is the loop behind a round. -/
def roundBehind (input : Text) (fuel : Nat) (tokens : List Token) :
    Option (Option Token × Text) → Scan (List Token)
  | some (token, next) => lexLoop input fuel next (tokens ++ token.toList)
  | none => pure tokens

theorem lexLoop_round (fuel : Nat) (rest : Text) :
    lexLoop input (fuel + 1) rest tokens =
      textRound input rest >>= roundBehind input fuel tokens := by
  unfold lexLoop textRound
  cases skipped : skipBlanks rest with
  | nil => rfl
  | cons symbol next =>
      rw [if_neg (List.cons_ne_nil _ _)]
      by_cases comment : symbol = '#'
      · subst comment
        rw [List.head?_cons, if_pos rfl, pure_bind, roundBehind, Option.toList_none,
          List.append_nil]
        rfl
      · have other : ¬ (symbol :: next).head? = some '#' := fun same =>
          comment (Option.some.inj same)
        rw [if_neg other]
        split
        · rename_i empty
          cases empty
        · rename_i found
          exact absurd (List.cons.inj found).1 comment
        · rw [bind_assoc]
          rfl

/-- A round moves the cursor, and its token starts in what it moved over. -/
structure Advanced (input rest : Text) (place : Nat) (left : Option Token × Nat)
    (right : Option Token × Text) : Prop where
  token : left.1 = right.1
  stands : Stands input left.2 right.2
  shorter : right.2.length < rest.length
  starts : ∀ token, left.1 = some token →
    token.Starts input ∧ place ≤ token.position ∧ token.position < left.2

/-- A round that ends the loop has no relation to hold. -/
def Rounded (input rest : Text) (place : Nat) :
    Option (Option Token × Nat) → Option (Option Token × Text) → Prop
  | none, none => True
  | some left, some right => Advanced input rest place left right
  | _, _ => False

theorem isBlank_dropWhile {symbol : Char} (skipped : skipBlanks rest = symbol :: next) :
    isBlank symbol = false := by
  have found := List.head?_dropWhile_not isBlank rest
  unfold skipBlanks at skipped
  rw [skipped] at found
  exact found

theorem lexRound_tracks (stands : Stands input place rest) :
    Tracks input (Rounded input rest place) (Bytes.lexRound input place)
      (textRound input rest) := by
  have blanks : Stands input (behindWhile isBlank place rest) (skipBlanks rest) :=
    stands.while isBlank
  have less : (skipBlanks rest).length ≤ rest.length :=
    (List.dropWhile_suffix isBlank (l := rest)).length_le
  have later : place ≤ behindWhile isBlank place rest := Nat.le_add_right _ _
  unfold Bytes.lexRound textRound
  rw [skipBlanks_eq stands, pure_bind, blanks.peek]
  generalize behindWhile isBlank place rest = front at blanks later ⊢
  by_cases ended : skipBlanks rest = []
  · rw [ended] at blanks
    rw [if_pos blanks.at_end.ge, if_pos ended]
    exact .returns _ _ trivial
  · obtain ⟨symbol, next, skipped⟩ := List.exists_cons_of_ne_nil ended
    rw [skipped] at blanks less
    rw [List.length_cons] at less
    rw [if_neg blanks.before_end.not_ge, if_neg ended, skipped]
    by_cases comment : symbol = '#'
    · subst comment
      have shorter := skipComment_shorter next
      rw [List.head?_cons, if_pos rfl, if_pos rfl, skipComment_eq blanks, pure_bind]
      refine .returns _ _ ⟨rfl, blanks.while _, Nat.lt_of_lt_of_le shorter less, ?_⟩
      intro token found
      cases found
    · have other : ¬ (symbol :: next).head? = some '#' := fun same =>
        comment (Option.some.inj same)
      rw [if_neg other, if_neg other, blanks.position_eq]
      apply Tracks.bind (scanKind_tracks blanks)
      intro left right returned moved
      obtain ⟨same, further⟩ := moved
      have shorter := (scanKind_advances next (isBlank_dropWhile skipped) comment).shorter returned
      refine .returns _ _ ⟨by rw [same], further, Nat.lt_of_lt_of_le shorter less, ?_⟩
      intro token found
      obtain ⟨kind, -, rfl⟩ := Option.map_eq_some_iff.mp found
      exact ⟨⟨blanks.boundary, blanks.before_end⟩, later, blanks.lt further shorter⟩

/-- The tokens so far are in order, and they start in front of the cursor. -/
structure TokensBefore (input : Text) (place : Nat) (tokens : List Token) : Prop where
  ordered : Ordered tokens
  starts : ∀ token ∈ tokens, token.Starts input
  before : ∀ token ∈ tokens, token.position < place

theorem TokensBefore.add {left : Option Token × Nat} {right : Option Token × Text}
    (found : TokensBefore input place tokens) (advanced : Advanced input rest place left right)
    (ahead : place < left.2) : TokensBefore input left.2 (tokens ++ left.1.toList) := by
  obtain ⟨token, further⟩ := left
  cases token with
  | none =>
      rw [Option.toList_none, List.append_nil]
      exact ⟨found.ordered, found.starts,
        fun token inside => (found.before token inside).trans ahead⟩
  | some token =>
      obtain ⟨starts, later, earlier⟩ := advanced.starts token rfl
      refine ⟨?_, ?_, ?_⟩
      · refine List.pairwise_append.mpr ⟨found.ordered, List.pairwise_singleton _ _, ?_⟩
        intro one inside other same
        obtain rfl := List.mem_singleton.mp same
        exact Nat.lt_of_lt_of_le (found.before one inside) later
      · intro one inside
        rcases List.mem_append.mp inside with old | new
        · exact found.starts one old
        · obtain rfl := List.mem_singleton.mp new
          exact starts
      · intro one inside
        rcases List.mem_append.mp inside with old | new
        · exact (found.before one old).trans ahead
        · obtain rfl := List.mem_singleton.mp new
          exact earlier

/-- The rest gets shorter in each round, so the fuel is enough. -/
theorem lexLoop_tracks {fuel more : Nat} (stands : Stands input place rest)
    (enough : rest.length < fuel) (plenty : rest.length < more)
    (found : TokensBefore input place tokens) :
    Tracks input
      (fun left right => left = right ∧ Ordered left ∧ ∀ token ∈ left, token.Starts input)
      (Bytes.lexLoop input fuel place tokens) (lexLoop input more rest tokens) := by
  induction fuel generalizing more place rest tokens with
  | zero => omega
  | succ fuel ih =>
      obtain ⟨more, rfl⟩ := Nat.exists_eq_add_one.mpr (Nat.zero_lt_of_lt plenty)
      rw [lexLoop_round]
      unfold Bytes.lexLoop
      cases rest with
      | nil =>
          rw [if_neg stands.at_end.not_lt]
          exact .returns _ _ ⟨rfl, found.ordered, found.starts⟩
      | cons symbol next =>
          rw [if_pos stands.before_end]
          apply Tracks.bind (lexRound_tracks stands)
          intro left right returned rounded
          cases left with
          | none =>
              cases right with
              | none => exact .returns _ _ ⟨rfl, found.ordered, found.starts⟩
              | some right => cases rounded
          | some left =>
              cases right with
              | none => cases rounded
              | some right =>
                  obtain ⟨token, further⟩ := left
                  obtain ⟨token', behind⟩ := right
                  have advanced : Advanced input (symbol :: next) place (token, further)
                    (token', behind) := rounded
                  obtain rfl : token = token' := advanced.token
                  have shorter : behind.length < (symbol :: next).length := advanced.shorter
                  have ahead := stands.lt advanced.stands shorter
                  exact ih advanced.stands (by omega) (by omega) (found.add advanced ahead)

theorem lex_tracks (input : Text) :
    Tracks input
      (fun left right => left = right ∧ Ordered left ∧ ∀ token ∈ left, token.Starts input)
      (Bytes.lex input) (lex input) := by
  have start := Stands.start input
  refine lexLoop_tracks start start.length (Nat.lt_succ_self _) ⟨List.Pairwise.nil, ?_, ?_⟩
  · intro token inside
    exact absurd inside List.not_mem_nil
  · intro token inside
    exact absurd inside List.not_mem_nil

end Rounds

section Sources

/-- Each round moves over one character, or over a continued line. -/
theorem sourceLoop_stands {target literalByte fuel : Nat} (stands : Stands input place rest)
    (plenty : rest.length < fuel) :
    Bytes.sourceLoop input target fuel place literalByte =
        pure (place + sourceOffset target literalByte rest) ∧
      ∃ behind, Stands input (place + sourceOffset target literalByte rest) behind := by
  induction fuel generalizing place rest literalByte with
  | zero => omega
  | succ fuel ih =>
      unfold Bytes.sourceLoop
      rw [stands.peek]
      cases rest with
      | nil => exact ⟨rfl, [], stands⟩
      | cons symbol next =>
          rw [List.length_cons] at plenty
          rw [List.head?_cons]
          dsimp only
          by_cases here : literalByte = target ∨ isWordBreak symbol = true
          · have none : sourceOffset target literalByte (symbol :: next) = 0 := by
              unfold sourceOffset
              rw [if_pos here]
            rw [if_pos here, none]
            exact ⟨rfl, _, stands⟩
          · rw [if_neg here, stands.behind.peek]
            by_cases continued : symbol = '\\' ∧ next.head? = some '\n'
            · obtain ⟨rfl, newline⟩ := continued
              obtain ⟨behind, rfl⟩ := List.head?_eq_some_iff.mp newline
              have moves : sourceOffset target literalByte ('\\' :: '\n' :: behind) =
                  2 + sourceOffset target literalByte behind := by
                rw [sourceOffset, if_neg here]
              rw [if_pos ⟨rfl, rfl⟩, moves, ← Nat.add_assoc]
              rw [List.length_cons] at plenty
              exact ih ((stands.one rfl).one rfl) (by omega)
            · have moves : sourceOffset target literalByte (symbol :: next) = symbol.utf8Size +
                  sourceOffset target (literalByte + symbol.utf8Size) next := by
                rw [sourceOffset, if_neg here]
                intro behind backslash newline
                subst newline
                exact continued ⟨backslash, rfl⟩
              rw [if_neg continued, moves, ← Nat.add_assoc]
              exact ih stands.behind (by omega)

theorem textAt_append (before rest : Text) : textAt (utf8Len before) (before ++ rest) = rest := by
  induction before with
  | nil => cases rest <;> rfl
  | cons symbol before ih =>
      obtain ⟨more, size⟩ := Nat.exists_eq_add_one.mpr symbol.utf8Size_pos
      rw [utf8Len_cons, List.cons_append, size, Nat.add_right_comm, textAt,
        size, Nat.add_right_comm more, Nat.add_sub_cancel_left]
      · exact ih
      · exact Nat.succ_ne_zero _

theorem Stands.textAt (stands : Stands input place rest) : textAt place input = rest := by
  obtain ⟨⟨before, rfl⟩, total⟩ := stands
  rw [utf8Len_append] at total
  have same : place = utf8Len before := by omega
  rw [same]
  exact textAt_append before rest

theorem sourcePosition_stands (stands : Stands input place rest) (target : Nat) :
    Bytes.sourcePositionForUnquotedLiteralByte input place target =
        pure (sourcePositionForUnquotedLiteralByte input place target) ∧
      Boundary input (sourcePositionForUnquotedLiteralByte input place target) := by
  obtain ⟨found, behind, further⟩ := @sourceLoop_stands input rest place target 0 _ stands
    stands.length
  unfold sourcePositionForUnquotedLiteralByte
  rw [stands.textAt]
  exact ⟨found, further.boundary⟩

end Sources

end TinySandbox.Shell

namespace TinySandbox.Shell
open Library Library.Call

variable {input : Text} {α β : Type}

/-- Every token around the cursor starts in the input. -/
def Parser.Marked (input : Text) (parser : Parser) : Prop :=
  (∀ token ∈ parser.consumed, token.Starts input) ∧ ∀ token ∈ parser.rest, token.Starts input

/-- The parse keeps the tokens marked, its errors are at boundaries, and its values are as given. -/
def Places (input : Text) (parse : Parse α) (gives : α → Prop) : Prop :=
  ∀ before result after, before.Marked input → outcome parse before = some (result, after) →
    after.Marked input ∧ (∀ value, result = .ok value → gives value) ∧
      ∀ error, result = .error error → Boundary input error.position

/-- This gives nothing about a value. -/
def anything {α : Type} (_ : α) : Prop := True

section Rules
variable {parse : Parse α} {gives : α → Prop} {later : β → Prop}

theorem Places.bind {next : α → Parse β} (places : Places input parse gives)
    (goes : ∀ value, gives value → Places input (next value) later) :
    Places input (parse >>= next) later := by
  intro before result after marked ran
  rw [outcome_bind, Option.bind_eq_some_iff] at ran
  obtain ⟨⟨found, middle⟩, first, second⟩ := ran
  obtain ⟨kept, values, errors⟩ := places before found middle marked first
  cases found with
  | ok value => exact goes value (values value rfl) middle result after kept second
  | error error =>
      obtain ⟨rfl, rfl⟩ := Prod.mk.inj (Option.some.inj second)
      refine ⟨kept, ?_, ?_⟩
      · intro value same
        cases same
      · intro other same
        cases same
        exact errors error rfl

theorem places_pure {value : α} (holds : gives value) : Places input (pure value) gives := by
  intro before result after marked ran
  obtain ⟨rfl, rfl⟩ := Prod.mk.inj (Option.some.inj ran)
  refine ⟨marked, ?_, ?_⟩
  · intro other same
    cases same
    exact holds
  · intro error same
    cases same

theorem places_done (value : α) : Places input (pure value) anything := places_pure trivial

theorem places_throw {error : ParseError} (boundary : Boundary input error.position) :
    Places input (throw error : Parse α) gives := by
  intro before result after marked ran
  obtain ⟨rfl, rfl⟩ := Prod.mk.inj (Option.some.inj ran)
  refine ⟨marked, ?_, ?_⟩
  · intro value same
    cases same
  · intro other same
    cases same
    exact boundary

theorem places_get : Places input (get : Parse Parser) (Parser.Marked input) := by
  intro before result after marked ran
  obtain ⟨rfl, rfl⟩ := Prod.mk.inj (Option.some.inj ran)
  refine ⟨marked, ?_, ?_⟩
  · intro value same
    cases same
    exact marked
  · intro error same
    cases same

theorem places_set {parser : Parser} (marked : parser.Marked input) :
    Places input (set parser : Parse PUnit) anything := by
  intro before result after _ ran
  obtain ⟨rfl, rfl⟩ := Prod.mk.inj (Option.some.inj ran)
  refine ⟨marked, fun _ _ => trivial, ?_⟩
  intro error same
  cases same

theorem places_stuck : Places input (Call.orPanic none : Parse α) gives := by
  intro before result after marked ran
  cases ran

theorem places_lift {result : Except ParseError α}
    (errors : ∀ error, result = .error error → Boundary input error.position) :
    Places input (Call.lift result) anything := by
  intro before found after marked ran
  obtain ⟨rfl, rfl⟩ := Prod.mk.inj (Option.some.inj ran)
  exact ⟨marked, fun _ _ => trivial, errors⟩

theorem places_refuse {condition : Prop} [Decidable condition] {error : ParseError}
    (boundary : Boundary input error.position) :
    Places input (Call.refuse condition error) anything := by
  unfold Call.refuse
  split
  · exact places_throw boundary
  · exact places_done _

end Rules

theorem boundary_end (input : Text) : Boundary input (utf8Len input) :=
  ⟨input, [], List.append_nil input, rfl⟩

namespace Parser

theorem places_peek :
    Places input peek (fun token => ∀ found, token = some found → found.Starts input) := by
  apply Places.bind places_get
  intro parser marked
  apply places_pure
  intro token found
  exact marked.2 token (List.mem_of_mem_head? found)

theorem places_advance : Places input advance anything := by
  apply Places.bind places_get
  intro parser marked
  cases ahead : parser.rest with
  | nil => exact places_done _
  | cons token rest =>
      obtain ⟨consumed, coming⟩ := marked
      rw [ahead] at coming
      apply places_set
      refine ⟨?_, fun other inside => coming other (List.mem_cons_of_mem _ inside)⟩
      intro other inside
      rcases List.mem_cons.mp inside with rfl | old
      · exact coming other List.mem_cons_self
      · exact consumed other old

theorem places_isEof : Places input isEof anything := by
  apply Places.bind places_get
  intro parser marked
  exact places_done _

theorem places_consumeIf (wanted : TokenKind → Bool) :
    Places input (consumeIf wanted) anything := by
  apply Places.bind places_peek
  intro token starts
  cases token with
  | none => exact places_done _
  | some token =>
      dsimp only
      split
      · apply Places.bind places_advance
        intro _ _
        exact places_done _
      · exact places_done _

theorem places_consumeNewlinesLoop (fuel : Nat) :
    Places input (consumeNewlinesLoop fuel) anything := by
  induction fuel with
  | zero => exact places_stuck
  | succ fuel ih =>
      apply Places.bind (places_consumeIf _)
      intro consumed _
      split
      · exact ih
      · exact places_done _

theorem places_consumeNewlines : Places input consumeNewlines anything := by
  apply Places.bind places_get
  intro parser _
  exact places_consumeNewlinesLoop _

theorem places_unexpected {gives : α → Prop} (expected : String) :
    Places input (unexpected input expected) gives := by
  apply Places.bind places_peek
  intro token starts
  cases token with
  | none => exact places_throw (boundary_end input)
  | some token => exact places_throw (starts token rfl).1

theorem places_previousPosition : Places input (previousPosition input) (Boundary input) := by
  apply Places.bind places_get
  intro parser marked
  apply places_pure
  cases consumed : parser.consumed with
  | cons token tokens => exact (marked.1 token (consumed ▸ List.mem_cons_self)).1
  | nil =>
      cases coming : parser.rest with
      | cons token tokens => exact (marked.2 token (coming ▸ List.mem_cons_self)).1
      | nil => exact boundary_end input

theorem places_startsCommand : Places input startsCommand anything := by
  apply Places.bind places_peek
  intro token _
  split
  · exact places_done _
  · exact places_done _
  · exact places_done _

theorem places_consumeAndOr : Places input consumeAndOr anything := by
  apply Places.bind places_peek
  intro token _
  split
  · apply Places.bind places_advance
    intro _ _
    exact places_done _
  · apply Places.bind places_advance
    intro _ _
    exact places_done _
  · exact places_done _

theorem places_parseRedirect (redirect : RedirectToken) :
    Places input (parseRedirect input redirect) anything := by
  unfold parseRedirect
  split
  · exact places_done _
  · apply Places.bind places_peek
    intro token _
    split
    · apply Places.bind places_advance
      intro _ _
      exact places_done _
    · apply Places.bind places_previousPosition
      intro position boundary
      exact places_throw boundary

/-- The only error about a word is an append to a variable, at the plus sign in the source. -/
theorem assignmentFromWord_error {word : Word} {position : Nat} {error : ParseError}
    (boundary : Boundary input position)
    (failed : assignmentFromWord input word position = .error error) :
    Boundary input error.position := by
  have plain : ∀ value more, assignmentFromWord.assignmentAtEquals value more ≠ .error error := by
    intro value more
    unfold assignmentFromWord.assignmentAtEquals
    split
    · exact fun same => by cases same
    · split
      · exact fun same => by cases same
      · exact fun same => by cases same
  unfold assignmentFromWord at failed
  split at failed
  · split at failed
    · split at failed
      · obtain ⟨rest, stands⟩ := boundary.stands
        cases failed
        exact (sourcePosition_stands stands _).2
      · exact absurd failed (plain _ _)
    · exact absurd failed (plain _ _)
  · cases failed

theorem addWord_error {command : SimpleCommand} {word : Word} {position : Nat} {error : ParseError}
    (boundary : Boundary input position)
    (failed : addWord input command word position = .error error) :
    Boundary input error.position := by
  unfold addWord at failed
  split at failed
  · cases found : assignmentFromWord input word position with
    | error other =>
        rw [found] at failed
        cases failed
        exact assignmentFromWord_error boundary found
    | ok assignment =>
        rw [found] at failed
        cases assignment with
        | none => cases failed
        | some assignment => cases failed
  · cases failed

theorem places_commandLoop (fuel : Nat) (command : SimpleCommand) :
    Places input (commandLoop input fuel command) anything := by
  induction fuel generalizing command with
  | zero => exact places_stuck
  | succ fuel ih =>
      unfold commandLoop
      apply Places.bind places_peek
      intro token starts
      split
      · apply Places.bind places_advance
        intro _ _
        apply Places.bind (places_lift fun error failed => addWord_error (starts _ rfl).1 failed)
        intro command _
        exact ih command
      · apply Places.bind places_advance
        intro _ _
        apply Places.bind (places_parseRedirect _)
        intro redirect _
        exact ih _
      · exact places_done _

theorem places_refuseNegation : Places input refuseNegation anything := by
  apply Places.bind places_peek
  intro token starts
  cases token with
  | none => exact places_done _
  | some token => exact places_refuse (starts token rfl).1

theorem places_parseCommand (expected : String) :
    Places input (parseCommand input expected) anything := by
  apply Places.bind places_startsCommand
  intro starts _
  split
  · apply Places.bind places_refuseNegation
    intro _ _
    apply Places.bind places_get
    intro parser _
    apply Places.bind (places_commandLoop _ _)
    intro command _
    exact places_done _
  · exact places_unexpected expected

theorem places_repeatLoop {step : Parse (Option α)} (places : Places input step anything)
    (fuel : Nat) (found : List α) : Places input (repeatLoop step fuel found) anything := by
  induction fuel generalizing found with
  | zero => exact places_stuck
  | succ fuel ih =>
      apply Places.bind places
      intro next _
      cases next with
      | none => exact places_done _
      | some value => exact ih _

theorem places_pipedCommand : Places input (pipedCommand input) anything := by
  apply Places.bind (places_consumeIf _)
  intro piped _
  split
  · apply Places.bind places_consumeNewlines
    intro _ _
    apply Places.bind (places_parseCommand _)
    intro command _
    exact places_done _
  · exact places_done _

theorem places_parsePipeline (expected : String) :
    Places input (parsePipeline input expected) anything := by
  apply Places.bind (places_parseCommand expected)
  intro first _
  apply Places.bind places_get
  intro parser _
  apply Places.bind (places_repeatLoop places_pipedCommand _ _)
  intro commands _
  exact places_done _

theorem places_conditionalPipeline : Places input (conditionalPipeline input) anything := by
  apply Places.bind places_consumeAndOr
  intro op _
  cases op with
  | none => exact places_done _
  | some op =>
      apply Places.bind places_consumeNewlines
      intro _ _
      apply Places.bind (places_parsePipeline _)
      intro pipeline _
      exact places_done _

theorem places_parseAndOrList : Places input (parseAndOrList input) anything := by
  apply Places.bind (places_parsePipeline _)
  intro first _
  apply Places.bind places_get
  intro parser _
  apply Places.bind (places_repeatLoop places_conditionalPipeline _ _)
  intro rest _
  exact places_done _

theorem places_endList : Places input (endList input) anything := by
  apply Places.bind (places_consumeIf _)
  intro semi _
  split
  · exact places_consumeNewlines
  · apply Places.bind (places_consumeIf _)
    intro newline _
    split
    · exact places_consumeNewlines
    · apply Places.bind places_isEof
      intro eof _
      split
      · exact places_done _
      · exact places_unexpected _

theorem places_programLoop (fuel : Nat) (lists : List AndOrList) :
    Places input (programLoop input fuel lists) anything := by
  induction fuel generalizing lists with
  | zero => exact places_stuck
  | succ fuel ih =>
      apply Places.bind places_isEof
      intro eof _
      split
      · exact places_done _
      · apply Places.bind places_parseAndOrList
        intro list _
        apply Places.bind places_endList
        intro _ _
        exact ih _

theorem places_parseProgram : Places input (parseProgram input) anything := by
  apply Places.bind places_consumeNewlines
  intro _ _
  apply Places.bind places_get
  intro parser _
  exact places_programLoop _ _

end Parser

theorem parseTokens_error {tokens : List Token} {error : ParseError}
    (starts : ∀ token ∈ tokens, token.Starts input)
    (failed : (parseTokens input tokens).outcome = some (.error error)) :
    Boundary input error.position := by
  unfold parseTokens Scan.outcome at failed
  rw [ExceptT.run_mk, Option.map_eq_some_iff] at failed
  obtain ⟨⟨result, after⟩, ran, rfl⟩ := failed
  have marked : ({ consumed := [], rest := tokens } : Parser).Marked input := by
    refine ⟨?_, starts⟩
    intro token inside
    exact absurd inside List.not_mem_nil
  exact (Parser.places_parseProgram _ _ _ marked ran).2.2 error rfl

section Outcomes

/-- A scan that tracks another one ends, and its errors are at boundaries. -/
theorem Tracks.outcome {related : α → β → Prop} {first : Scan α} {second : Scan β}
    (tracks : Tracks input related first second) :
    (∃ left right, first.outcome = some (.ok left) ∧ related left right) ∨
      ∃ error, first.outcome = some (.error error) ∧ Boundary input error.position := by
  cases tracks with
  | returns left right same => exact .inl ⟨left, right, rfl, same⟩
  | fails place kind boundary => exact .inr ⟨{ position := place, kind }, rfl, boundary⟩

theorem Tracks.eq {given : α → Prop} {first second : Scan α}
    (tracks : Tracks input (fun left right => left = right ∧ given left) first second) :
    first = second := by
  cases tracks with
  | returns left right same => exact congrArg Pure.pure same.1
  | fails place kind boundary => rfl

/-- A round moves the cursor to a later boundary. -/
theorem lexRound_advances {place : Nat} (boundary : Boundary input place) :
    ∃ result, (Bytes.lexRound input place).outcome = some result ∧
      (∀ token next, result = .ok (some (token, next)) → place < next ∧ Boundary input next) ∧
      ∀ error, result = .error error → Boundary input error.position := by
  obtain ⟨rest, stands⟩ := boundary.stands
  rcases (lexRound_tracks stands).outcome with ⟨left, right, ran, rounded⟩ | ⟨error, ran, place'⟩
  · refine ⟨_, ran, ?_, ?_⟩
    · intro token next same
      cases same
      cases right with
      | none => cases rounded
      | some right =>
          obtain ⟨-, further, shorter, -⟩ := rounded
          exact ⟨stands.lt further shorter, further.boundary⟩
    · intro error same
      cases same
  · refine ⟨_, ran, ?_, ?_⟩
    · intro token next same
      cases same
    · intro other same
      cases same
      exact place'

theorem lex_places (input : Text) :
    ∃ result, (Bytes.lex input).outcome = some result ∧
      (∀ tokens, result = .ok tokens → Ordered tokens ∧ ∀ token ∈ tokens, token.Starts input) ∧
      ∀ error, result = .error error → Boundary input error.position := by
  rcases (lex_tracks input).outcome with ⟨left, right, ran, rfl, placed⟩ | ⟨error, ran, boundary⟩
  · refine ⟨_, ran, ?_, ?_⟩
    · intro tokens same
      cases same
      exact placed
    · intro error same
      cases same
  · refine ⟨_, ran, ?_, ?_⟩
    · intro tokens same
      cases same
    · intro other same
      cases same
      exact boundary

theorem parse_places (input : Text) :
    ∃ result, (Bytes.parse input).outcome = some result ∧
      ∀ error, result = .error error → Boundary input error.position := by
  obtain ⟨result, lexed, tokens, errors⟩ := lex_places input
  cases result with
  | error error =>
      refine ⟨.error error, ?_, ?_⟩
      · change (Bytes.lex input).outcome.bind _ = _
        rw [lexed]
        rfl
      · intro other same
        cases same
        exact errors error rfl
  | ok found =>
      have parsed : (Bytes.parse input).outcome = (parseTokens input found).outcome := by
        change (Bytes.lex input).outcome.bind _ = _
        rw [lexed]
        rfl
      obtain ⟨result, ran⟩ := Option.ne_none_iff_exists'.mp
        (@parseTokens_total input found)
      refine ⟨result, parsed.trans ran, ?_⟩
      intro error same
      subst same
      exact parseTokens_error (tokens found rfl).2 ran

end Outcomes

/-- The lexer on bytes ends without a panic, and its rounds, tokens and errors, as
well as the errors of the parser, stand on boundaries of characters. -/
theorem lexer_positions (input : Text) :
    (∀ place, Boundary input place →
      ∃ result, (Bytes.lexRound input place).outcome = some result ∧
        (∀ token next, result = .ok (some (token, next)) → place < next ∧ Boundary input next) ∧
        ∀ error, result = .error error → Boundary input error.position) ∧
    Bytes.lex input = lex input ∧
    (∃ result, (Bytes.lex input).outcome = some result ∧
      (∀ tokens, result = .ok tokens → Ordered tokens ∧ ∀ token ∈ tokens, token.Starts input) ∧
      ∀ error, result = .error error →
        Boundary input error.position ∧ error.position ≤ utf8Len input) ∧
    (∀ place target, Boundary input place →
      Bytes.sourcePositionForUnquotedLiteralByte input place target =
          pure (sourcePositionForUnquotedLiteralByte input place target) ∧
        Boundary input (sourcePositionForUnquotedLiteralByte input place target)) ∧
    ∃ result, (Bytes.parse input).outcome = some result ∧
      ∀ error, result = .error error →
        Boundary input error.position ∧ error.position ≤ utf8Len input := by
  refine ⟨fun place boundary => lexRound_advances boundary, (lex_tracks input).eq, ?_, ?_, ?_⟩
  · obtain ⟨result, ran, tokens, errors⟩ := lex_places input
    refine ⟨result, ran, tokens, ?_⟩
    intro error same
    exact ⟨errors error same, (errors error same).le⟩
  · intro place target boundary
    obtain ⟨rest, stands⟩ := boundary.stands
    exact sourcePosition_stands stands target
  · obtain ⟨result, ran, errors⟩ := parse_places input
    refine ⟨result, ran, ?_⟩
    intro error same
    exact ⟨errors error same, (errors error same).le⟩

/-- The plus sign of an append stands behind a continued line. -/
example : (Bytes.parse "é;A\\\nB+=x".toList).outcome =
    some (.error { position := 7, kind := .unsupported .appendAssignment }) := by decide +kernel

end TinySandbox.Shell
