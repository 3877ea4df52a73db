/-
This file shows that the parser accepts the programs of the grammar and no others.
Each function returns exactly the derivations that nothing in front of the cursor continues.
-/

import TinySandbox.Proof.Shell.Commands

namespace TinySandbox.Shell
open Library Library.Call
open TinySandbox.Shell.Parser

variable {input : Text} {expected : String} {before after : Parser}

def isKind (kind : TokenKind) : TokenKind → Bool := (· = kind)

theorem newlines_nil : Newlines [] := ⟨0, rfl⟩

theorem newlines_cons {kinds : List TokenKind} (newlines : Newlines kinds) :
    Newlines (.newline :: kinds) := by
  obtain ⟨count, rfl⟩ := newlines
  exact ⟨count + 1, rfl⟩

theorem newlines_tail {kind : TokenKind} {kinds : List TokenKind}
    (newlines : Newlines (kind :: kinds)) : kind = .newline ∧ Newlines kinds := by
  obtain ⟨count, same⟩ := newlines
  cases count with
  | zero => cases same
  | succ count =>
      obtain ⟨rfl, rfl⟩ := List.cons.inj same
      exact ⟨rfl, count, rfl⟩

theorem consumeNewlinesLoop_sound {fuel : Nat}
    (ran : Returns (consumeNewlinesLoop fuel) before () after) :
    ∃ used, Moves before used after ∧ Newlines (kinds used) ∧
      Before (isKind .newline) after.rest := by
  induction fuel generalizing before with
  | zero => cases ran
  | succ fuel ih =>
      unfold consumeNewlinesLoop at ran
      obtain ⟨consumed, middle, tried, later⟩ := returns_bind_iff.mp ran
      rcases returns_consumeIf_iff.mp tried with ⟨rfl, token, newline, moved⟩ | ⟨rfl, ended, rfl⟩
      · obtain ⟨used, moves, newlines, ends⟩ := ih later
        refine ⟨token :: used, moved.trans moves, ?_, ends⟩
        rw [kinds_cons, of_decide_eq_true newline]
        exact newlines_cons newlines
      · obtain ⟨-, rfl⟩ := returns_pure_iff.mp later
        exact ⟨[], Moves.refl _, newlines_nil, ended⟩

theorem consumeNewlinesLoop_complete {fuel : Nat} {used : List Token}
    (moves : Moves before used after) (newlines : Newlines (kinds used))
    (ends : Before (isKind .newline) after.rest) (enough : used.length < fuel) :
    Returns (consumeNewlinesLoop fuel) before () after := by
  induction fuel generalizing before used with
  | zero => exact absurd enough (Nat.not_lt_zero _)
  | succ fuel ih =>
      unfold consumeNewlinesLoop
      rw [returns_bind_iff]
      cases used with
      | nil =>
          obtain rfl := moves.eq_of_nil
          exact ⟨false, after, returns_consumeIf_iff.mpr (.inr ⟨rfl, ends, rfl⟩),
            returns_pure_iff.mpr ⟨rfl, rfl⟩⟩
      | cons token used =>
          obtain ⟨newline, others⟩ := newlines_tail newlines
          obtain ⟨ahead, moved⟩ := moves.behind
          have first := moves_one ahead
          refine ⟨true, _, returns_consumeIf_iff.mpr (.inl ⟨rfl, token, ?_, first⟩), ?_⟩
          · exact decide_eq_true newline
          · exact ih moved others (Nat.lt_of_succ_lt_succ enough)

theorem returns_consumeNewlines_iff {value : Unit} :
    Returns consumeNewlines before value after ↔
      ∃ used, Moves before used after ∧ Newlines (kinds used) ∧
        Before (isKind .newline) after.rest := by
  unfold consumeNewlines
  rw [returns_get_bind_iff]
  constructor
  · exact consumeNewlinesLoop_sound
  · intro derived
    obtain ⟨used, moves, newlines, ends⟩ := derived
    apply consumeNewlinesLoop_complete moves newlines ends
    rw [moves.length]
    omega

theorem total_consumeNewlines : Total consumeNewlines before := by
  have loop : ∀ fuel before, before.rest.length < fuel → Total (consumeNewlinesLoop fuel) before := by
    intro fuel
    induction fuel with
    | zero => exact fun _ enough => absurd enough (Nat.not_lt_zero _)
    | succ fuel ih =>
        intro before enough
        unfold consumeNewlinesLoop
        apply total_bind (total_consumeIf _)
        intro consumed middle tried
        rcases returns_consumeIf_iff.mp tried with ⟨rfl, token, -, moved⟩ | ⟨rfl, -, -⟩
        · apply ih
          have length := moved.length
          rw [List.length_singleton] at length
          omega
        · exact total_pure ()
  apply total_bind total_get
  intro parser middle got
  obtain ⟨rfl, rfl⟩ := returns_get_iff.mp got
  exact loop _ _ (Nat.lt_succ_self _)

section Repeat
variable {α : Type} {step : Parse (Option α)} {piece : List TokenKind → α → Prop}
  {starts continues : TokenKind → Bool}

/-- A step reads one piece, or nothing when no piece starts. -/
structure Steps (step : Parse (Option α)) (piece : List TokenKind → α → Prop)
    (starts continues : TokenKind → Bool) : Prop where
  reads : ∀ {before after value}, Returns step before (some value) after ↔
    ∃ used, Moves before used after ∧ piece (kinds used) value ∧ Before continues after.rest
  stops : ∀ {before after}, Returns step before none after ↔
    after = before ∧ Before starts before.rest
  opens : ∀ {kinds value}, piece kinds value → ∃ kind rest, kinds = kind :: rest ∧
    starts kind = true
  apart : ∀ {kind}, starts kind = true → continues kind = false
  total : ∀ {before}, Total step before

/-- Nothing continues what a repetition of pieces and an end follow. -/
theorem Steps.free (steps : Steps step piece starts continues) {symbols : List TokenKind}
    {values : List α} (repeated : Repeated piece symbols values) {used rest : List Token}
    (shape : kinds used = symbols) (ends : Before continues rest) :
    Before continues (used ++ rest) := by
  cases repeated with
  | nil =>
      obtain rfl := List.map_eq_nil_iff.mp shape
      exact ends
  | cons here later =>
      obtain ⟨kind, others, rfl, begins⟩ := steps.opens here
      obtain ⟨token, tokens, rfl, rfl, -⟩ := exists_of_kinds_cons shape
      exact before_cons_iff.mpr (steps.apart begins)

theorem Steps.sound (steps : Steps step piece starts continues) {fuel : Nat}
    {found values : List α} (here : Before continues before.rest)
    (ran : Returns (repeatLoop step fuel found) before values after) :
    ∃ used more, Moves before used after ∧ Repeated piece (kinds used) more ∧
      values = found ++ more ∧ Before continues after.rest ∧ Before starts after.rest := by
  induction fuel generalizing before found with
  | zero => cases ran
  | succ fuel ih =>
      unfold repeatLoop at ran
      obtain ⟨next, middle, stepped, later⟩ := returns_bind_iff.mp ran
      cases next with
      | none =>
          obtain ⟨rfl, ended⟩ := steps.stops.mp stepped
          obtain ⟨rfl, rfl⟩ := returns_pure_iff.mp later
          exact ⟨[], [], Moves.refl _, .nil, (List.append_nil _).symm, here, ended⟩
      | some value =>
          obtain ⟨used, moves, derives, free⟩ := steps.reads.mp stepped
          obtain ⟨others, more, moved, repeated, rfl, ends⟩ := ih free later
          refine ⟨used ++ others, value :: more, moves.trans moved, ?_, by simp, ends⟩
          rw [kinds_append]
          exact .cons derives repeated

theorem Steps.complete (steps : Steps step piece starts continues) {fuel : Nat}
    {found more : List α} {used : List Token} (moves : Moves before used after)
    (repeated : Repeated piece (kinds used) more) (ends : Before continues after.rest)
    (stops : Before starts after.rest) (enough : used.length < fuel) :
    Returns (repeatLoop step fuel found) before (found ++ more) after := by
  generalize shape : kinds used = symbols at repeated
  induction repeated generalizing before used fuel found with
  | nil =>
      obtain rfl := List.map_eq_nil_iff.mp shape
      obtain rfl := moves.eq_of_nil
      obtain ⟨fuel, rfl⟩ := Nat.exists_eq_succ_of_ne_zero (Nat.ne_of_gt enough)
      unfold repeatLoop
      rw [returns_bind_iff]
      exact ⟨none, after, steps.stops.mpr ⟨rfl, stops⟩,
        returns_pure_iff.mpr ⟨List.append_nil _, rfl⟩⟩
  | cons derives later ih =>
      obtain ⟨first, others, rfl, rfl, remaining⟩ := exists_of_kinds_append shape
      obtain ⟨middle, moved, moves⟩ := moves.split
      obtain ⟨fuel, rfl⟩ := Nat.exists_eq_succ_of_ne_zero (Nat.ne_zero_of_lt enough)
      have free : Before continues middle.rest := by
        rw [moves.rest]
        exact steps.free later remaining ends
      have filled : first ≠ [] := by
        rintro rfl
        obtain ⟨kind, rest, impossible, -⟩ := steps.opens derives
        cases impossible
      have shorter := List.length_pos_of_ne_nil filled
      rw [List.length_append] at enough
      unfold repeatLoop
      rw [returns_bind_iff]
      refine ⟨some _, middle, steps.reads.mpr ⟨first, moved, derives, free⟩, ?_⟩
      rw [← List.singleton_append, ← List.append_assoc]
      exact ih moves (by omega) remaining

theorem Steps.total_loop (steps : Steps step piece starts continues) {fuel : Nat} {found : List α}
    (enough : before.rest.length < fuel) : Total (repeatLoop step fuel found) before := by
  induction fuel generalizing before found with
  | zero => exact absurd enough (Nat.not_lt_zero _)
  | succ fuel ih =>
      unfold repeatLoop
      apply total_bind steps.total
      intro next middle stepped
      cases next with
      | none => exact total_pure _
      | some value =>
          obtain ⟨used, moves, derives, -⟩ := steps.reads.mp stepped
          obtain ⟨kind, rest, shape, -⟩ := steps.opens derives
          obtain ⟨token, later, rfl, -, -⟩ := exists_of_kinds_cons shape
          apply ih
          have length := moves.length
          rw [List.length_cons] at length
          omega

end Repeat

section Sequence
variable {α β γ : Type} {parse : Parse α} {piece : List TokenKind → α → Prop}
  {step : Parse (Option β)} {others : List TokenKind → β → Prop}
  {starts continues : TokenKind → Bool}

/-- The function reads one piece, which starts with an element of a command. -/
structure Reads (parse : Parse α) (piece : List TokenKind → α → Prop)
    (continues : TokenKind → Bool) : Prop where
  returns : ∀ {before after value}, Returns parse before value after ↔
    ∃ used, Moves before used after ∧ piece (kinds used) value ∧ Before continues after.rest
  opens : ∀ {kinds value}, piece kinds value → ∃ kind rest, kinds = kind :: rest ∧
    isElement kind = true
  total : ∀ {before}, Total parse before

/-- Newlines in front of a piece are skipped. -/
theorem Reads.returns_after_newlines (reads : Reads parse piece continues) {value : α} :
    Returns (consumeNewlines >>= fun _ => parse) before value after ↔
      ∃ used newlines rest, Moves before used after ∧ kinds used = newlines ++ rest ∧
        Newlines newlines ∧ piece rest value ∧ Before continues after.rest := by
  rw [returns_bind_iff]
  constructor
  · intro ran
    obtain ⟨_, middle, skipped, read⟩ := ran
    obtain ⟨newlines, moved, blank, -⟩ := returns_consumeNewlines_iff.mp skipped
    obtain ⟨used, moves, derives, ends⟩ := reads.returns.mp read
    exact ⟨newlines ++ used, kinds newlines, kinds used, moved.trans moves, kinds_append _ _,
      blank, derives, ends⟩
  · intro derived
    obtain ⟨used, newlines, rest, moves, shape, blank, derives, ends⟩ := derived
    obtain ⟨first, last, rfl, rfl, rfl⟩ := exists_of_kinds_append shape
    obtain ⟨middle, moved, moves⟩ := moves.split
    have stops : Before (isKind .newline) middle.rest := by
      obtain ⟨kind, rest, shape, element⟩ := reads.opens derives
      obtain ⟨token, later, rfl, rfl, -⟩ := exists_of_kinds_cons shape
      rw [moves.rest]
      apply before_cons_iff.mpr
      apply decide_eq_false
      intro newline
      rw [newline] at element
      cases element
    exact ⟨(), middle, returns_consumeNewlines_iff.mpr ⟨first, moved, blank, stops⟩,
      reads.returns.mpr ⟨last, moves, derives, ends⟩⟩

/-- A sequence is one piece with the pieces that a repetition adds. -/
theorem Reads.returns_sequence_iff (reads : Reads parse piece continues)
    (steps : Steps step others starts continues) (seed : α → List β) {finish : α → List β → γ}
    {value : γ} :
    Returns (parse >>= fun first => get >>= fun parser =>
        repeatLoop step (parser.rest.length + 1) (seed first) >>= fun found =>
          pure (finish first found)) before value after ↔
      ∃ used left right first more, Moves before used after ∧ kinds used = left ++ right ∧
        piece left first ∧ Repeated others right more ∧
        value = finish first (seed first ++ more) ∧
        Before continues after.rest ∧ Before starts after.rest := by
  rw [returns_bind_iff]
  constructor
  · intro ran
    obtain ⟨first, middle, read, looped⟩ := ran
    obtain ⟨left, moved, derives, free⟩ := reads.returns.mp read
    rw [returns_get_bind_iff] at looped
    obtain ⟨found, last, repeating, ended⟩ := returns_bind_iff.mp looped
    obtain ⟨rfl, rfl⟩ := returns_pure_iff.mp ended
    obtain ⟨right, more, moves, repeated, rfl, ends, stops⟩ := steps.sound free repeating
    exact ⟨left ++ right, kinds left, kinds right, first, more, moved.trans moves,
      kinds_append _ _, derives, repeated, rfl, ends, stops⟩
  · intro derived
    obtain ⟨used, left, right, first, more, moves, shape, derives, repeated, rfl, ends, stops⟩ :=
      derived
    obtain ⟨former, latter, rfl, rfl, rfl⟩ := exists_of_kinds_append shape
    obtain ⟨middle, moved, moves⟩ := moves.split
    have free : Before continues middle.rest := by
      rw [moves.rest]
      exact steps.free repeated rfl ends
    refine ⟨first, middle, reads.returns.mpr ⟨former, moved, derives, free⟩, ?_⟩
    rw [returns_get_bind_iff, returns_bind_iff]
    have enough : latter.length < middle.rest.length + 1 := by
      rw [moves.length]
      omega
    exact ⟨_, after, steps.complete moves repeated ends stops enough, returns_pure_iff.mpr ⟨rfl, rfl⟩⟩

theorem Reads.total_sequence (reads : Reads parse piece continues)
    (steps : Steps step others starts continues) {seed : α → List β} {finish : α → List β → γ} :
    Total (parse >>= fun first => get >>= fun parser =>
      repeatLoop step (parser.rest.length + 1) (seed first) >>= fun found =>
        pure (finish first found)) before := by
  apply total_bind reads.total
  intro first middle _
  apply total_bind total_get
  intro parser read got
  obtain ⟨rfl, rfl⟩ := returns_get_iff.mp got
  apply total_bind (steps.total_loop (Nat.lt_succ_self _))
  intro found last _
  exact total_pure _

end Sequence

/-- Every command starts with a word or a redirect. -/
theorem CommandOf.opens {symbols : List TokenKind} {command : Command}
    (derives : CommandOf symbols command) :
    ∃ kind rest, symbols = kind :: rest ∧ isElement kind = true := by
  obtain ⟨command⟩ := command
  obtain ⟨filled, -, elements⟩ := derives
  cases symbols with
  | nil => exact absurd rfl filled
  | cons kind rest =>
      refine ⟨kind, rest, rfl, ?_⟩
      cases elements <;> rfl

theorem PipelineOf.opens {symbols : List TokenKind} {pipeline : Pipeline}
    (derives : PipelineOf symbols pipeline) :
    ∃ kind rest, symbols = kind :: rest ∧ isElement kind = true := by
  obtain ⟨left, right, first, more, rfl, derives, -⟩ := derives
  obtain ⟨kind, rest, rfl, element⟩ := derives.opens
  exact ⟨kind, rest ++ right, rfl, element⟩

theorem AndOrListOf.opens {symbols : List TokenKind} {list : AndOrList}
    (derives : AndOrListOf symbols list) :
    ∃ kind rest, symbols = kind :: rest ∧ isElement kind = true := by
  obtain ⟨left, right, rfl, derives, -⟩ := derives
  obtain ⟨kind, rest, rfl, element⟩ := derives.opens
  exact ⟨kind, rest ++ right, rfl, element⟩

theorem reads_command : Reads (parseCommand input expected) CommandOf isElement where
  returns := returns_parseCommand_iff
  total := total_parseCommand
  opens := CommandOf.opens

theorem steps_pipedCommand : Steps (pipedCommand input) Piped (isKind .pipe) isElement where
  reads := by
    intro before after value
    unfold pipedCommand
    rw [returns_bind_iff]
    constructor
    · intro ran
      obtain ⟨piped, middle, tried, later⟩ := ran
      rcases returns_consumeIf_iff.mp tried with ⟨rfl, token, pipe, moved⟩ | ⟨rfl, -, -⟩
      · rw [if_pos rfl, ← bind_assoc] at later
        obtain ⟨command, last, read, ended⟩ := returns_bind_iff.mp later
        obtain ⟨same, rfl⟩ := returns_pure_iff.mp ended
        obtain rfl := Option.some.inj same
        obtain ⟨used, newlines, rest, moves, shape, blank, derives, ends⟩ :=
          reads_command.returns_after_newlines.mp read
        refine ⟨token :: used, moved.trans moves, ⟨newlines, rest, ?_, blank, derives⟩, ends⟩
        rw [kinds_cons, shape, of_decide_eq_true pipe]
      · cases (returns_pure_iff.mp later).1
    · intro derived
      obtain ⟨used, moves, ⟨newlines, rest, shape, blank, derives⟩, ends⟩ := derived
      obtain ⟨token, later, rfl, pipe, shape⟩ := exists_of_kinds_cons shape
      obtain ⟨ahead, moves⟩ := moves.behind
      refine ⟨true, _, returns_consumeIf_iff.mpr
        (.inl ⟨rfl, token, decide_eq_true pipe, moves_one ahead⟩), ?_⟩
      rw [if_pos rfl, ← bind_assoc, returns_bind_iff]
      exact ⟨value, after, reads_command.returns_after_newlines.mpr
        ⟨later, newlines, rest, moves, shape, blank, derives, ends⟩, returns_pure_iff.mpr ⟨rfl, rfl⟩⟩
  stops := by
    intro before after
    unfold pipedCommand
    rw [returns_bind_iff]
    constructor
    · intro ran
      obtain ⟨piped, middle, tried, later⟩ := ran
      rcases returns_consumeIf_iff.mp tried with ⟨rfl, token, pipe, moved⟩ | ⟨rfl, ended, rfl⟩
      · obtain ⟨_, skipped, -, later⟩ := returns_bind_iff.mp later
        obtain ⟨command, last, -, ended⟩ := returns_bind_iff.mp later
        cases (returns_pure_iff.mp ended).1
      · exact ⟨(returns_pure_iff.mp later).2, ended⟩
    · intro derived
      obtain ⟨rfl, ended⟩ := derived
      exact ⟨false, after, returns_consumeIf_iff.mpr (.inr ⟨rfl, ended, rfl⟩),
        returns_pure_iff.mpr ⟨rfl, rfl⟩⟩
  opens := by
    intro symbols value derives
    obtain ⟨newlines, rest, rfl, -, -⟩ := derives
    exact ⟨.pipe, _, rfl, rfl⟩
  apart := by
    intro kind pipe
    rw [of_decide_eq_true pipe]
    rfl
  total := by
    intro before
    apply total_bind (total_consumeIf _)
    intro piped middle _
    cases piped with
    | false => exact total_pure _
    | true =>
        apply total_bind total_consumeNewlines
        intro _ skipped _
        apply total_bind total_parseCommand
        intro command last _
        exact total_pure _

/-- A pipe continues a pipeline. -/
def continuesPipeline (kind : TokenKind) : Bool := isElement kind || isKind .pipe kind

/-- Nothing of two kinds is ahead when neither kind is ahead. -/
theorem before_or_iff {first second : TokenKind → Bool} {rest : List Token} :
    Before (fun kind => first kind || second kind) rest ↔ Before first rest ∧ Before second rest := by
  simp only [Before, Bool.or_eq_false_iff]
  constructor
  · intro free
    exact ⟨fun token ahead => (free token ahead).1, fun token ahead => (free token ahead).2⟩
  · intro free token ahead
    exact ⟨free.1 token ahead, free.2 token ahead⟩

theorem reads_pipeline : Reads (parsePipeline input expected) PipelineOf continuesPipeline where
  returns := by
    intro before after value
    unfold parsePipeline continuesPipeline
    rw [reads_command.returns_sequence_iff steps_pipedCommand fun first => [first]]
    simp only [before_or_iff]
    constructor
    · intro derived
      obtain ⟨used, left, right, first, more, moves, shape, derives, repeated, rfl, ends⟩ := derived
      exact ⟨used, moves, ⟨left, right, first, more, shape, derives, repeated, rfl⟩, ends⟩
    · intro derived
      obtain ⟨used, moves, ⟨left, right, first, more, shape, derives, repeated, same⟩, ends⟩ := derived
      refine ⟨used, left, right, first, more, moves, shape, derives, repeated, ?_, ends⟩
      cases value
      exact congrArg _ same
  opens := PipelineOf.opens
  total := reads_command.total_sequence steps_pipedCommand

def isOperator : TokenKind → Bool
  | .andIf => true
  | .orIf => true
  | _ => false

theorem isOperator_iff {kind : TokenKind} : isOperator kind = true ↔ ∃ op, kind = operator op := by
  constructor
  · intro known
    cases kind with
    | andIf => exact ⟨.and, rfl⟩
    | orIf => exact ⟨.or, rfl⟩
    | _ => cases known
  · intro known
    obtain ⟨op, rfl⟩ := known
    cases op <;> rfl

theorem returns_consumeAndOr_iff {value : Option AndOrOp} :
    Returns consumeAndOr before value after ↔
      (∃ op token, value = some op ∧ token.kind = operator op ∧ Moves before [token] after) ∨
        (value = none ∧ Before isOperator before.rest ∧ after = before) := by
  unfold consumeAndOr
  rw [returns_peek_bind_iff]
  constructor
  · intro ran
    split at ran
    · rename_i position ahead
      obtain ⟨rest, ahead⟩ := List.head?_eq_some_iff.mp ahead
      rw [returns_advance_bind_iff ahead, returns_pure_iff] at ran
      obtain ⟨rfl, rfl⟩ := ran
      exact .inl ⟨.and, _, rfl, rfl, moves_one ahead⟩
    · rename_i position ahead
      obtain ⟨rest, ahead⟩ := List.head?_eq_some_iff.mp ahead
      rw [returns_advance_bind_iff ahead, returns_pure_iff] at ran
      obtain ⟨rfl, rfl⟩ := ran
      exact .inl ⟨.or, _, rfl, rfl, moves_one ahead⟩
    · rename_i unlike unlike'
      obtain ⟨rfl, rfl⟩ := returns_pure_iff.mp ran
      refine .inr ⟨rfl, ?_, rfl⟩
      intro token ahead
      obtain ⟨kind, position⟩ := token
      cases kind with
      | andIf => exact absurd ahead (unlike position)
      | orIf => exact absurd ahead (unlike' position)
      | _ => rfl
  · intro derived
    rcases derived with ⟨op, token, rfl, kind, moves⟩ | ⟨rfl, ended, rfl⟩
    · obtain ⟨ahead, moved⟩ := moves.behind
      obtain ⟨known, position⟩ := token
      obtain rfl : known = operator op := kind
      have behind := moved.eq_of_nil
      rw [ahead]
      cases op with
      | and => exact (returns_advance_bind_iff ahead).mpr (returns_pure_iff.mpr ⟨rfl, behind⟩)
      | or => exact (returns_advance_bind_iff ahead).mpr (returns_pure_iff.mpr ⟨rfl, behind⟩)
    · split
      · rename_i ahead
        cases ended _ ahead
      · rename_i ahead
        cases ended _ ahead
      · exact returns_pure_iff.mpr ⟨rfl, rfl⟩

theorem total_consumeAndOr : Total consumeAndOr before := by
  apply total_bind total_peek
  intro token middle _
  split
  · apply total_bind total_advance
    intro _ _ _
    exact total_pure _
  · apply total_bind total_advance
    intro _ _ _
    exact total_pure _
  · exact total_pure _

theorem steps_conditionalPipeline :
    Steps (conditionalPipeline input) Conditional isOperator continuesPipeline where
  reads := by
    intro before after value
    unfold conditionalPipeline
    rw [returns_bind_iff]
    constructor
    · intro ran
      obtain ⟨op, middle, tried, later⟩ := ran
      rcases returns_consumeAndOr_iff.mp tried with ⟨op, token, rfl, kind, moved⟩ | ⟨rfl, -, -⟩
      · dsimp only at later
        rw [← bind_assoc] at later
        obtain ⟨pipeline, last, read, ended⟩ := returns_bind_iff.mp later
        obtain ⟨same, rfl⟩ := returns_pure_iff.mp ended
        obtain rfl := Option.some.inj same
        obtain ⟨used, newlines, rest, moves, shape, blank, derives, ends⟩ :=
          reads_pipeline.returns_after_newlines.mp read
        refine ⟨token :: used, moved.trans moves, ⟨newlines, rest, ?_, blank, derives⟩, ends⟩
        rw [kinds_cons, shape, kind]
      · cases (returns_pure_iff.mp later).1
    · intro derived
      obtain ⟨used, moves, ⟨newlines, rest, shape, blank, derives⟩, ends⟩ := derived
      obtain ⟨token, later, rfl, kind, shape⟩ := exists_of_kinds_cons shape
      obtain ⟨ahead, moves⟩ := moves.behind
      refine ⟨some value.op, _, returns_consumeAndOr_iff.mpr
        (.inl ⟨value.op, token, rfl, kind, moves_one ahead⟩), ?_⟩
      dsimp only
      rw [← bind_assoc, returns_bind_iff]
      exact ⟨value.pipeline, after, reads_pipeline.returns_after_newlines.mpr
        ⟨later, newlines, rest, moves, shape, blank, derives, ends⟩, returns_pure_iff.mpr ⟨rfl, rfl⟩⟩
  stops := by
    intro before after
    unfold conditionalPipeline
    rw [returns_bind_iff]
    constructor
    · intro ran
      obtain ⟨op, middle, tried, later⟩ := ran
      rcases returns_consumeAndOr_iff.mp tried with ⟨op, token, rfl, kind, moved⟩ | ⟨rfl, ended, rfl⟩
      · obtain ⟨_, skipped, -, later⟩ := returns_bind_iff.mp later
        obtain ⟨pipeline, last, -, ended⟩ := returns_bind_iff.mp later
        cases (returns_pure_iff.mp ended).1
      · exact ⟨(returns_pure_iff.mp later).2, ended⟩
    · intro derived
      obtain ⟨rfl, ended⟩ := derived
      exact ⟨none, after, returns_consumeAndOr_iff.mpr (.inr ⟨rfl, ended, rfl⟩),
        returns_pure_iff.mpr ⟨rfl, rfl⟩⟩
  opens := by
    intro symbols value derives
    obtain ⟨newlines, rest, rfl, -, -⟩ := derives
    exact ⟨operator value.op, _, rfl, isOperator_iff.mpr ⟨_, rfl⟩⟩
  apart := by
    intro kind known
    obtain ⟨op, rfl⟩ := isOperator_iff.mp known
    cases op <;> rfl
  total := by
    intro before
    apply total_bind total_consumeAndOr
    intro op middle _
    cases op with
    | none => exact total_pure _
    | some op =>
        apply total_bind total_consumeNewlines
        intro _ skipped _
        apply total_bind reads_pipeline.total
        intro pipeline last _
        exact total_pure _

/-- An operator continues a list. -/
def continuesList (kind : TokenKind) : Bool := continuesPipeline kind || isOperator kind

theorem reads_list : Reads (parseAndOrList input) AndOrListOf continuesList where
  returns := by
    intro before after value
    unfold parseAndOrList continuesList
    rw [reads_pipeline.returns_sequence_iff steps_conditionalPipeline fun _ => []]
    simp only [before_or_iff]
    constructor
    · intro derived
      obtain ⟨used, left, right, first, more, moves, shape, derives, repeated, rfl, ends⟩ := derived
      exact ⟨used, moves, ⟨left, right, shape, derives, repeated⟩, ends⟩
    · intro derived
      obtain ⟨used, moves, ⟨left, right, shape, derives, repeated⟩, ends⟩ := derived
      exact ⟨used, left, right, value.first, value.rest, moves, shape, derives, repeated, rfl, ends⟩
  opens := AndOrListOf.opens
  total := reads_pipeline.total_sequence steps_conditionalPipeline

theorem returns_isEof_iff {value : Bool} :
    Returns isEof before value after ↔ after = before ∧ (value = true ↔ before.rest = []) := by
  unfold isEof
  rw [returns_get_bind_iff, returns_pure_iff, and_comm]
  apply and_congr_right
  intro _
  cases before.rest <;> cases value <;> simp

/-- After a list comes a separator with newlines, or nothing at all. -/
theorem returns_endList_iff {value : Unit} :
    Returns (endList input) before value after ↔
      (∃ used, Moves before used after ∧ Separator (kinds used) ∧
        Before (isKind .newline) after.rest) ∨ (after = before ∧ before.rest = []) := by
  unfold endList
  rw [returns_bind_iff]
  constructor
  · intro ran
    obtain ⟨semi, middle, tried, later⟩ := ran
    rcases returns_consumeIf_iff.mp tried with ⟨rfl, token, known, moved⟩ | ⟨rfl, -, rfl⟩
    · obtain ⟨used, moves, blank, ends⟩ := returns_consumeNewlines_iff.mp later
      refine .inl ⟨token :: used, moved.trans moves, ⟨kinds used, blank, .inl ?_⟩, ends⟩
      rw [kinds_cons, of_decide_eq_true known]
    · obtain ⟨newline, last, again, checked⟩ := returns_bind_iff.mp later
      rcases returns_consumeIf_iff.mp again with ⟨rfl, token, known, moved⟩ | ⟨rfl, -, rfl⟩
      · obtain ⟨used, moves, blank, ends⟩ := returns_consumeNewlines_iff.mp checked
        refine .inl ⟨token :: used, moved.trans moves, ⟨kinds used, blank, .inr ?_⟩, ends⟩
        rw [kinds_cons, of_decide_eq_true known]
      · obtain ⟨eof, stopped, looked, ended⟩ := returns_bind_iff.mp checked
        obtain ⟨rfl, known⟩ := returns_isEof_iff.mp looked
        cases eof with
        | false => exact absurd ended not_returns_unexpected
        | true => exact .inr ⟨(returns_pure_iff.mp ended).2, known.mp rfl⟩
  · intro derived
    rcases derived with ⟨used, moves, ⟨newlines, blank, shape⟩, ends⟩ | ⟨rfl, ended⟩
    · rcases shape with shape | shape
      · obtain ⟨token, rest, rfl, known, rfl⟩ := exists_of_kinds_cons shape
        obtain ⟨ahead, moves⟩ := moves.behind
        exact ⟨true, _, returns_consumeIf_iff.mpr
          (.inl ⟨rfl, token, decide_eq_true known, moves_one ahead⟩),
          returns_consumeNewlines_iff.mpr ⟨rest, moves, blank, ends⟩⟩
      · obtain ⟨token, rest, rfl, known, rfl⟩ := exists_of_kinds_cons shape
        obtain ⟨ahead, moves⟩ := moves.behind
        have other : Before (fun kind => decide (kind = .semi)) before.rest := by
          rw [ahead, before_cons_iff, known]
          rfl
        refine ⟨false, before, returns_consumeIf_iff.mpr (.inr ⟨rfl, other, rfl⟩), ?_⟩
        rw [if_neg Bool.false_ne_true, returns_bind_iff]
        exact ⟨true, _, returns_consumeIf_iff.mpr
          (.inl ⟨rfl, token, decide_eq_true known, moves_one ahead⟩),
          returns_consumeNewlines_iff.mpr ⟨rest, moves, blank, ends⟩⟩
    · have nothing : ∀ wanted, Returns (consumeIf wanted) after false after := by
        intro wanted
        apply returns_consumeIf_iff.mpr
        rw [ended]
        exact .inr ⟨rfl, before_nil _, rfl⟩
      refine ⟨false, after, nothing _, ?_⟩
      rw [if_neg Bool.false_ne_true, returns_bind_iff]
      refine ⟨false, after, nothing _, ?_⟩
      rw [if_neg Bool.false_ne_true, returns_bind_iff]
      refine ⟨true, after, returns_isEof_iff.mpr ⟨rfl, ?_⟩, returns_pure_iff.mpr ⟨rfl, rfl⟩⟩
      simp [ended]

theorem total_endList : Total (endList input) before := by
  apply total_bind (total_consumeIf _)
  intro semi middle _
  cases semi with
  | true => exact total_consumeNewlines
  | false =>
      apply total_bind (total_consumeIf _)
      intro newline middle _
      cases newline with
      | true => exact total_consumeNewlines
      | false =>
          apply total_bind (total_bind total_get fun _ _ _ => total_pure _)
          intro eof last _
          cases eof with
          | true => exact total_pure ()
          | false => exact total_unexpected

end TinySandbox.Shell
