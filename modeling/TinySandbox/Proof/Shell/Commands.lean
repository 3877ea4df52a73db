/-
This file shows that the parser reads the commands of the grammar.
-/

import TinySandbox.Proof.Shell.Cursor

namespace TinySandbox.Shell
open Library Library.Call

theorem isAssignmentName_iff {name : Text} : isAssignmentName name = true ↔ IsName name := by
  unfold IsName isNameFirst isNameRest
  cases name with
  | nil => simp [isAssignmentName]
  | cons first rest =>
      simp only [isAssignmentName, isNameStart, isNameContinue, Bool.and_eq_true, Bool.or_eq_true,
        decide_eq_true_iff, List.all_eq_true]
      constructor
      · intro named
        exact ⟨first, rest, rfl, named.1, named.2⟩
      · intro named
        obtain ⟨other, others, same, start, continues⟩ := named
        obtain ⟨rfl, rfl⟩ := List.cons.inj same
        exact ⟨start, continues⟩

/-- A name has none of the characters of the assignment operators. -/
theorem IsName.free {name : Text} (named : IsName name) : '+' ∉ name ∧ '=' ∉ name := by
  obtain ⟨first, rest, rfl, start, continues⟩ := named
  have apart : ∀ symbol ∈ first :: rest, symbol ≠ '+' ∧ symbol ≠ '=' := by
    intro symbol member
    rcases List.mem_cons.mp member with rfl | later
    · constructor
      · rintro rfl
        exact absurd start (by unfold isNameFirst; decide)
      · rintro rfl
        exact absurd start (by unfold isNameFirst; decide)
    · have found := continues symbol later
      constructor
      · rintro rfl
        exact absurd found (by unfold isNameRest; decide)
      · rintro rfl
        exact absurd found (by unfold isNameRest; decide)
  exact ⟨fun member => (apart _ member).1 rfl, fun member => (apart _ member).2 rfl⟩

/-- A pattern is found where its first character stands first. -/
theorem findText_of_free {symbol : Char} {pattern before after : Text}
    (free : symbol ∉ before) :
    findText (symbol :: pattern) (before ++ symbol :: pattern ++ after) = some (before, after) := by
  induction before with
  | nil => simp [findText]
  | cons first rest ih =>
      rw [List.mem_cons, not_or] at free
      have apart : ¬ symbol :: pattern <+: first :: (rest ++ symbol :: pattern ++ after) := by
        intro found
        exact free.1 (List.cons_prefix_cons.mp found).1
      rw [List.cons_append, List.cons_append, findText, if_neg apart, ih free.2]
      rfl

theorem eq_of_findText {pattern text before after : Text}
    (found : findText pattern text = some (before, after)) :
    text = before ++ pattern ++ after := by
  induction text generalizing before with
  | nil => cases found
  | cons symbol rest ih =>
      unfold findText at found
      split_ifs at found with here
      · obtain ⟨rfl, rfl⟩ := Prod.mk.inj (Option.some.inj found)
        obtain ⟨tail, same⟩ := here
        rw [← same, List.drop_left, List.nil_append]
      · obtain ⟨⟨later, behind⟩, inner, same⟩ := Option.map_eq_some_iff.mp found
        obtain ⟨rfl, rfl⟩ := Prod.mk.inj same
        rw [ih inner, List.cons_append, List.cons_append]

section Assignments
variable {input : Text} {word : Word} {position : Nat}

/-- The code looks for the first `+=`, and only a name in front of it matters. -/
theorem appends_iff {value : Text} {more : List Segment}
    (shape : word.segments = .literal value false :: more) :
    Appends word ↔ ∃ found, findText ['+', '='] value = some found ∧
      isAssignmentName found.1 = true := by
  unfold Appends
  rw [shape]
  constructor
  · intro appends
    obtain ⟨name, tail, others, named, same⟩ := appends
    obtain ⟨literal, rfl⟩ := List.cons.inj same
    obtain ⟨rfl, -⟩ := Segment.literal.inj literal
    have found : findText ['+', '='] (name ++ ['+', '='] ++ tail) = some (name, tail) :=
      findText_of_free named.free.1
    rw [List.append_assoc] at found
    exact ⟨(name, tail), found, isAssignmentName_iff.mpr named⟩
  · intro located
    obtain ⟨⟨name, tail⟩, found, named⟩ := located
    refine ⟨name, tail, more, isAssignmentName_iff.mp named, ?_⟩
    rw [eq_of_findText found, List.append_assoc]
    rfl

theorem assigns_iff {value : Text} {more : List Segment} {assignment : Assignment}
    (shape : word.segments = .literal value false :: more) :
    Assigns word assignment ↔
      assignmentFromWord.assignmentAtEquals value more = .ok (some assignment) := by
  unfold Assigns assignmentFromWord.assignmentAtEquals
  rw [shape]
  constructor
  · intro assigns
    obtain ⟨tail, others, named, same, valued⟩ := assigns
    obtain ⟨literal, rfl⟩ := List.cons.inj same
    obtain ⟨rfl, -⟩ := Segment.literal.inj literal
    have found : findText ['='] (assignment.name ++ ['='] ++ tail) = some (assignment.name, tail) :=
      findText_of_free named.free.2
    rw [List.append_assoc, List.singleton_append] at found
    rw [found]
    dsimp only
    rw [if_neg (by simp [isAssignmentName_iff.mpr named]), ← valued]
  · intro located
    cases found : findText ['='] value with
    | none =>
        rw [found] at located
        cases Except.ok.inj located
    | some pair =>
        obtain ⟨name, tail⟩ := pair
        rw [found] at located
        dsimp only at located
        by_cases named : isAssignmentName name = true
        · rw [if_neg (by simp [named])] at located
          obtain rfl := Option.some.inj (Except.ok.inj located)
          refine ⟨tail, more, isAssignmentName_iff.mp named, ?_, rfl⟩
          rw [eq_of_findText found, List.append_assoc]
          rfl
        · rw [if_pos (by simp [named])] at located
          cases Except.ok.inj located

theorem assignmentAtEquals_ok (value : Text) (more : List Segment) :
    ∃ found, assignmentFromWord.assignmentAtEquals value more = .ok found := by
  unfold assignmentFromWord.assignmentAtEquals
  split
  · exact ⟨none, rfl⟩
  · split
    · exact ⟨none, rfl⟩
    · exact ⟨_, rfl⟩

/-- A word whose first segment is not an unquoted literal is neither kind of assignment. -/
theorem unassigned_of_shape (shape : ∀ value more, word.segments ≠ .literal value false :: more) :
    ¬ Appends word ∧ (∀ assignment, ¬ Assigns word assignment) ∧
      ∀ input position, assignmentFromWord input word position = .ok none := by
  refine ⟨?_, ?_, ?_⟩
  · intro appends
    obtain ⟨name, tail, more, -, same⟩ := appends
    exact shape _ _ same
  · intro assignment assigns
    obtain ⟨tail, more, -, same, -⟩ := assigns
    exact shape _ _ same
  · intro input position
    unfold assignmentFromWord
    split
    · exact absurd ‹word.segments = _› (shape _ _)
    · rfl

/-- The code recognizes the assignments of the grammar. -/
theorem assignmentFromWord_ok_iff {found : Option Assignment} :
    assignmentFromWord input word position = .ok found ↔
      ¬ Appends word ∧ ∀ assignment, found = some assignment ↔ Assigns word assignment := by
  by_cases literal : ∃ value more, word.segments = .literal value false :: more
  · obtain ⟨value, more, shape⟩ := literal
    have same : assignmentFromWord input word position = .ok found ↔
        ¬ Appends word ∧
          assignmentFromWord.assignmentAtEquals value more = .ok found := by
      rw [appends_iff shape]
      unfold assignmentFromWord
      rw [shape]
      dsimp only
      cases search : findText ['+', '='] value with
      | none => simp
      | some pair =>
          by_cases named : isAssignmentName pair.1 = true
          · simp [named]
          · simp [named]
    rw [same]
    apply and_congr_right
    intro _
    obtain ⟨known, equal⟩ := assignmentAtEquals_ok value more
    rw [equal, Except.ok.injEq]
    constructor
    · rintro rfl assignment
      rw [assigns_iff shape, equal, Except.ok.injEq]
    · intro all
      cases known with
      | none =>
          cases found with
          | none => rfl
          | some assignment =>
              have impossible := (assigns_iff shape).mp ((all assignment).mp rfl)
              rw [equal] at impossible
              exact Except.ok.inj impossible
      | some assignment => exact ((all assignment).mpr ((assigns_iff shape).mpr equal)).symm
  · have apart : ∀ value more, word.segments ≠ .literal value false :: more :=
      fun value more same => literal ⟨value, more, same⟩
    obtain ⟨plain, unassigned, missing⟩ := unassigned_of_shape apart
    rw [missing, Except.ok.injEq]
    constructor
    · rintro rfl
      refine ⟨plain, fun assignment => ⟨fun impossible => (by cases impossible), ?_⟩⟩
      exact fun assigns => absurd assigns (unassigned assignment)
    · intro all
      cases found with
      | none => rfl
      | some assignment => exact absurd ((all.2 assignment).mp rfl) (unassigned assignment)

/-- Every other word is recognized one way or the other. -/
theorem exists_assignmentFromWord (plain : ¬ Appends word) :
    ∃ found, assignmentFromWord input word position = .ok found := by
  unfold assignmentFromWord
  split
  · rename_i value more shape
    rw [appends_iff shape] at plain
    split
    · rename_i name behind search
      rw [if_neg fun named => plain ⟨_, search, named⟩]
      exact assignmentAtEquals_ok value more
    · exact assignmentAtEquals_ok value more
  · exact ⟨none, rfl⟩

end Assignments

/-- The elements of the second command follow those of the first. -/
def SimpleCommand.append (first second : SimpleCommand) : SimpleCommand where
  assignments := first.assignments ++ second.assignments
  words := first.words ++ second.words
  redirects := first.redirects ++ second.redirects

/-- Words and redirects are the elements of a command. -/
def isElement : TokenKind → Bool
  | .word _ => true
  | .redirect _ => true
  | _ => false

/-- The words so far decide which elements may follow. -/
def SimpleCommand.seen (command : SimpleCommand) : Bool := decide (command.words ≠ [])

theorem addWord_argument {input : Text} {command : SimpleCommand} {word : Word} {position : Nat}
    (seen : command.seen = true) :
    Parser.addWord input command word position =
      .ok { command with words := command.words ++ [word] } :=
  if_neg (of_decide_eq_true seen)

theorem addWord_first_iff {input : Text} {command next : SimpleCommand} {word : Word}
    {position : Nat} (unseen : command.seen = false) :
    Parser.addWord input command word position = .ok next ↔ ¬ Appends word ∧
      ((∃ assignment, Assigns word assignment ∧
          next = { command with assignments := command.assignments ++ [assignment] }) ∨
        ((∀ assignment, ¬ Assigns word assignment) ∧
          next = { command with words := command.words ++ [word] })) := by
  have empty : command.words = [] := not_not.mp (of_decide_eq_false unseen)
  unfold Parser.addWord
  rw [if_pos empty, Call.bind_eq_ok_iff]
  constructor
  · intro added
    obtain ⟨found, recognized, same⟩ := added
    obtain ⟨plain, known⟩ := assignmentFromWord_ok_iff.mp recognized
    refine ⟨plain, ?_⟩
    cases found with
    | some assignment =>
        exact .inl ⟨assignment, (known assignment).mp rfl, (Except.ok.inj same).symm⟩
    | none =>
        right
        refine ⟨fun assignment assigns => ?_, (Except.ok.inj same).symm⟩
        cases (known assignment).mpr assigns
  · intro parts
    obtain ⟨plain, added⟩ := parts
    obtain ⟨found, recognized⟩ := exists_assignmentFromWord plain
    obtain ⟨-, known⟩ := assignmentFromWord_ok_iff.mp recognized
    refine ⟨found, recognized, ?_⟩
    rcases added with ⟨assignment, assigns, rfl⟩ | ⟨unassigned, rfl⟩
    · rw [(known assignment).mpr assigns]
    · cases found with
      | none => rfl
      | some assignment => exact absurd ((known assignment).mp rfl) (unassigned assignment)

namespace Parser

variable {input : Text} {before after : Parser} {command result : SimpleCommand} {fuel : Nat}
  {token : Token} {rest : List Token}

theorem returns_commandLoop_stop (stops : Before isElement before.rest) :
    Returns (commandLoop input (fuel + 1) command) before result after ↔
      result = command ∧ after = before := by
  unfold commandLoop
  rw [returns_peek_bind_iff]
  cases ahead : before.rest.head? with
  | none => exact returns_pure_iff
  | some token =>
      have free := stops token ahead
      obtain ⟨kind, position⟩ := token
      cases kind with
      | word word => cases free
      | redirect redirect => cases free
      | pipe => exact returns_pure_iff
      | andIf => exact returns_pure_iff
      | orIf => exact returns_pure_iff
      | semi => exact returns_pure_iff
      | newline => exact returns_pure_iff

theorem returns_commandLoop_word {word : Word} (ahead : before.rest = token :: rest)
    (kind : token.kind = .word word) :
    Returns (commandLoop input (fuel + 1) command) before result after ↔
      ∃ next, addWord input command word token.position = .ok next ∧
        Returns (commandLoop input fuel next)
          { consumed := token :: before.consumed, rest } result after := by
  obtain ⟨_, position⟩ := token
  obtain rfl := kind
  rw [commandLoop, returns_peek_bind_iff, ahead, List.head?_cons]
  dsimp only
  rw [returns_advance_bind_iff ahead, returns_bind_iff]
  constructor
  · intro ran
    obtain ⟨next, middle, lifted, later⟩ := ran
    obtain ⟨added, rfl⟩ := returns_lift_iff.mp lifted
    exact ⟨next, added, later⟩
  · intro ran
    obtain ⟨next, added, later⟩ := ran
    exact ⟨next, _, returns_lift_iff.mpr ⟨added, rfl⟩, later⟩

theorem returns_commandLoop_duplicate {redirect : RedirectToken} {fd : Nat}
    (ahead : before.rest = token :: rest) (kind : token.kind = .redirect redirect)
    (directed : redirect.targetFd = some fd) :
    Returns (commandLoop input (fuel + 1) command) before result after ↔
      Returns (commandLoop input fuel { command with
          redirects := command.redirects ++ [⟨redirect.fd, redirect.op, .fd fd⟩] })
        { consumed := token :: before.consumed, rest } result after := by
  obtain ⟨_, position⟩ := token
  obtain rfl := kind
  rw [commandLoop, returns_peek_bind_iff, ahead, List.head?_cons]
  dsimp only
  rw [returns_advance_bind_iff ahead, parseRedirect, directed]
  exact Iff.rfl

theorem returns_commandLoop_target {redirect : RedirectToken}
    (ahead : before.rest = token :: rest) (kind : token.kind = .redirect redirect)
    (undirected : redirect.targetFd = none) :
    Returns (commandLoop input (fuel + 1) command) before result after ↔
      ∃ target behind word, rest = target :: behind ∧ target.kind = .word word ∧
        Returns (commandLoop input fuel { command with
            redirects := command.redirects ++ [⟨redirect.fd, redirect.op, .word word⟩] })
          { consumed := target :: token :: before.consumed, rest := behind } result after := by
  obtain ⟨_, position⟩ := token
  obtain rfl := kind
  rw [commandLoop, returns_peek_bind_iff, ahead, List.head?_cons]
  dsimp only
  rw [returns_advance_bind_iff ahead, parseRedirect, undirected]
  dsimp only
  rw [bind_assoc, returns_peek_bind_iff]
  have missing : ∀ {next : Redirect → Parse SimpleCommand} {parser : Parser},
      ¬ Returns ((do
        let position ← previousPosition input
        throw { position, kind := .missingRedirectTarget }) >>= next) parser result after := by
    intro next parser ran
    obtain ⟨found, middle, failed, -⟩ := returns_bind_iff.mp ran
    obtain ⟨position, _, -, thrown⟩ := returns_bind_iff.mp failed
    exact returns_throw_iff.mp thrown
  cases rest with
  | nil =>
      constructor
      · intro ran
        exact absurd ran missing
      · intro found
        obtain ⟨target, behind, word, impossible, -⟩ := found
        cases impossible
  | cons target behind =>
      obtain ⟨kind, place⟩ := target
      dsimp only [List.head?_cons]
      cases kind with
      | word word =>
          dsimp only
          rw [bind_assoc, returns_advance_bind_iff rfl]
          constructor
          · intro ran
            exact ⟨_, behind, word, rfl, rfl, ran⟩
          · intro found
            obtain ⟨other, others, same, ahead, kind, ran⟩ := found
            obtain ⟨rfl, rfl⟩ := List.cons.inj ahead
            obtain rfl := TokenKind.word.inj kind
            exact ran
      | _ =>
          constructor
          · intro ran
            exact absurd ran missing
          · intro found
            obtain ⟨other, others, same, ahead, kind, -⟩ := found
            obtain ⟨rfl, -⟩ := List.cons.inj ahead
            cases kind

end Parser

@[simp] theorem SimpleCommand.append_empty (command : SimpleCommand) :
    command.append {} = command := by
  simp [append]

/-- An element may be added at the end of the first part or at the start of the second. -/
theorem SimpleCommand.append_word (first second : SimpleCommand) (word : Word) :
    ({ first with words := first.words ++ [word] } : SimpleCommand).append second =
      first.append { second with words := word :: second.words } := by
  simp [append]

theorem SimpleCommand.append_assignment (first second : SimpleCommand) (assignment : Assignment) :
    ({ first with assignments := first.assignments ++ [assignment] } : SimpleCommand).append
        second =
      first.append { second with assignments := assignment :: second.assignments } := by
  simp [append]

theorem SimpleCommand.append_redirect (first second : SimpleCommand) (redirect : Redirect) :
    ({ first with redirects := first.redirects ++ [redirect] } : SimpleCommand).append second =
      first.append { second with redirects := redirect :: second.redirects } := by
  simp [append]

theorem SimpleCommand.seen_word (command : SimpleCommand) (word : Word) :
    ({ command with words := command.words ++ [word] } : SimpleCommand).seen = true := by
  simp [seen]

section Loop
variable {input : Text} {before after : Parser} {command result : SimpleCommand} {fuel : Nat}

/-- What the loop adds to a command is derived from the tokens that it consumes. -/
theorem commandLoop_sound
    (ran : Returns (Parser.commandLoop input fuel command) before result after) :
    ∃ used more, Moves before used after ∧ Elements command.seen (kinds used) more ∧
      result = command.append more ∧ Before isElement after.rest := by
  induction fuel generalizing before command with
  | zero => cases ran
  | succ fuel ih =>
      by_cases stops : Before isElement before.rest
      · obtain ⟨rfl, rfl⟩ := (Parser.returns_commandLoop_stop stops).mp ran
        exact ⟨[], {}, Moves.refl _, .done _, (SimpleCommand.append_empty _).symm, stops⟩
      · obtain ⟨token, rest, ahead⟩ : ∃ token rest, before.rest = token :: rest := by
          apply List.exists_cons_of_ne_nil
          intro empty
          exact stops (empty ▸ before_nil _)
        rw [ahead, before_cons_iff, Bool.not_eq_false] at stops
        have moves := Parser.moves_one ahead
        cases kind : token.kind with
        | word word =>
            obtain ⟨next, added, later⟩ := (Parser.returns_commandLoop_word ahead kind).mp ran
            obtain ⟨used, more, moved, elements, rfl, ended⟩ := ih later
            refine ⟨token :: used, ?_⟩
            rw [kinds_cons, kind]
            cases seen : command.seen with
            | true =>
                rw [addWord_argument seen] at added
                obtain rfl := Except.ok.inj added
                rw [SimpleCommand.seen_word] at elements
                exact ⟨_, moves.trans moved, .argument elements,
                  SimpleCommand.append_word _ _ _, ended⟩
            | false =>
                obtain ⟨plain, ⟨assignment, assigns, rfl⟩ | ⟨unassigned, rfl⟩⟩ :=
                  (addWord_first_iff seen).mp added
                · have still : ({ command with
                      assignments := command.assignments ++ [assignment] } : SimpleCommand).seen =
                      false := seen
                  rw [still] at elements
                  exact ⟨_, moves.trans moved, .assignment plain assigns elements,
                    SimpleCommand.append_assignment _ _ _, ended⟩
                · rw [SimpleCommand.seen_word] at elements
                  exact ⟨_, moves.trans moved, .command plain unassigned elements,
                    SimpleCommand.append_word _ _ _, ended⟩
        | redirect redirect =>
            cases target : redirect.targetFd with
            | some fd =>
                have later := (Parser.returns_commandLoop_duplicate ahead kind target).mp ran
                obtain ⟨used, more, moved, elements, rfl, ended⟩ := ih later
                refine ⟨token :: used, _, moves.trans moved, ?_,
                  SimpleCommand.append_redirect _ _ _, ended⟩
                rw [kinds_cons, kind]
                exact .duplicate target elements
            | none =>
                obtain ⟨other, behind, word, rfl, named, later⟩ :=
                  (Parser.returns_commandLoop_target ahead kind target).mp ran
                obtain ⟨used, more, moved, elements, rfl, ended⟩ := ih later
                have second : Moves { consumed := token :: before.consumed, rest := other :: behind }
                    [other] { consumed := other :: token :: before.consumed, rest := behind } :=
                  Parser.moves_one rfl
                refine ⟨token :: other :: used, _, moves.trans (second.trans moved), ?_,
                  SimpleCommand.append_redirect _ _ _, ended⟩
                rw [kinds_cons, kinds_cons, kind, named]
                exact .target target elements
        | pipe => rw [kind] at stops; cases stops
        | andIf => rw [kind] at stops; cases stops
        | orIf => rw [kind] at stops; cases stops
        | semi => rw [kind] at stops; cases stops
        | newline => rw [kind] at stops; cases stops

/-- A cursor that moves over a token and more stands behind the token first. -/
theorem Moves.behind {token : Token} {used : List Token} (moves : Moves before (token :: used) after) :
    before.rest = token :: (used ++ after.rest) ∧
      Moves { consumed := token :: before.consumed, rest := used ++ after.rest } used after := by
  refine ⟨moves.rest, rfl, ?_⟩
  rw [moves.consumed, List.reverse_cons, List.append_assoc, List.singleton_append]

/-- The loop reads every derivation that nothing continues. -/
theorem commandLoop_complete {used : List Token} {more : SimpleCommand}
    (moves : Moves before used after) (elements : Elements command.seen (kinds used) more)
    (ends : Before isElement after.rest) (enough : used.length < fuel) :
    Returns (Parser.commandLoop input fuel command) before (command.append more) after := by
  generalize flag : command.seen = seen at elements
  generalize shape : kinds used = symbols at elements
  induction elements generalizing before command used fuel with
  | done seen =>
      obtain rfl := List.map_eq_nil_iff.mp shape
      obtain rfl := moves.eq_of_nil
      obtain ⟨fuel, rfl⟩ := Nat.exists_eq_succ_of_ne_zero (Nat.ne_of_gt enough)
      exact (Parser.returns_commandLoop_stop ends).mpr ⟨SimpleCommand.append_empty _, rfl⟩
  | assignment plain assigns later ih =>
      obtain ⟨token, rest, rfl, kind, shape⟩ := exists_of_kinds_cons shape
      obtain ⟨ahead, moved⟩ := moves.behind
      obtain ⟨fuel, rfl⟩ := Nat.exists_eq_succ_of_ne_zero (Nat.ne_zero_of_lt enough)
      rw [List.length_cons, Nat.succ_lt_succ_iff] at enough
      rw [← SimpleCommand.append_assignment]
      refine (Parser.returns_commandLoop_word ahead kind).mpr ⟨_, ?_, ih moved enough flag shape⟩
      exact (addWord_first_iff flag).mpr ⟨plain, .inl ⟨_, assigns, rfl⟩⟩
  | command plain unassigned later ih =>
      obtain ⟨token, rest, rfl, kind, shape⟩ := exists_of_kinds_cons shape
      obtain ⟨ahead, moved⟩ := moves.behind
      obtain ⟨fuel, rfl⟩ := Nat.exists_eq_succ_of_ne_zero (Nat.ne_zero_of_lt enough)
      rw [List.length_cons, Nat.succ_lt_succ_iff] at enough
      rw [← SimpleCommand.append_word]
      refine (Parser.returns_commandLoop_word ahead kind).mpr
        ⟨_, ?_, ih moved enough (SimpleCommand.seen_word _ _) shape⟩
      exact (addWord_first_iff flag).mpr ⟨plain, .inr ⟨unassigned, rfl⟩⟩
  | argument later ih =>
      obtain ⟨token, rest, rfl, kind, shape⟩ := exists_of_kinds_cons shape
      obtain ⟨ahead, moved⟩ := moves.behind
      obtain ⟨fuel, rfl⟩ := Nat.exists_eq_succ_of_ne_zero (Nat.ne_zero_of_lt enough)
      rw [List.length_cons, Nat.succ_lt_succ_iff] at enough
      rw [← SimpleCommand.append_word]
      exact (Parser.returns_commandLoop_word ahead kind).mpr
        ⟨_, addWord_argument flag, ih moved enough (SimpleCommand.seen_word _ _) shape⟩
  | target undirected later ih =>
      obtain ⟨token, rest, rfl, kind, shape⟩ := exists_of_kinds_cons shape
      obtain ⟨other, rest, rfl, named, shape⟩ := exists_of_kinds_cons shape
      obtain ⟨ahead, moved⟩ := moves.behind
      obtain ⟨-, moved⟩ := moved.behind
      obtain ⟨fuel, rfl⟩ := Nat.exists_eq_succ_of_ne_zero (Nat.ne_zero_of_lt enough)
      rw [List.length_cons, List.length_cons, Nat.succ_lt_succ_iff] at enough
      rw [← SimpleCommand.append_redirect]
      exact (Parser.returns_commandLoop_target ahead kind undirected).mpr
        ⟨other, _, _, rfl, named, ih moved (Nat.lt_of_succ_lt enough) flag shape⟩
  | duplicate directed later ih =>
      obtain ⟨token, rest, rfl, kind, shape⟩ := exists_of_kinds_cons shape
      obtain ⟨ahead, moved⟩ := moves.behind
      obtain ⟨fuel, rfl⟩ := Nat.exists_eq_succ_of_ne_zero (Nat.ne_zero_of_lt enough)
      rw [List.length_cons, Nat.succ_lt_succ_iff] at enough
      rw [← SimpleCommand.append_redirect]
      exact (Parser.returns_commandLoop_duplicate ahead kind directed).mpr
        (ih moved enough flag shape)

end Loop

section Command
variable {input : Text} {expected : String} {before after : Parser}

theorem isPipelineNegationWord_iff {kind : TokenKind} :
    isPipelineNegationWord kind = true ↔ kind = negation := by
  unfold isPipelineNegationWord negation
  constructor
  · intro negates
    split at negates
    · rfl
    · cases negates
  · rintro rfl
    rfl

theorem not_returns_unexpected {α : Type} {value : α} :
    ¬ Returns (Parser.unexpected input expected : Parse α) before value after := by
  unfold Parser.unexpected
  rw [Parser.returns_peek_bind_iff]
  cases before.rest.head? with
  | none => exact fun thrown => returns_throw_iff.mp thrown
  | some token => exact fun thrown => returns_throw_iff.mp thrown

theorem returns_startsCommand_iff {value : Bool} :
    Returns Parser.startsCommand before value after ↔
      after = before ∧ (value = true ↔ ¬ Before isElement before.rest) := by
  unfold Parser.startsCommand
  rw [Parser.returns_peek_bind_iff]
  obtain ⟨consumed, rest⟩ := before
  cases rest with
  | nil =>
      rw [List.head?_nil, returns_pure_iff]
      simp [before_nil, and_comm]
  | cons token rest =>
      obtain ⟨kind, position⟩ := token
      simp only [List.head?_cons, before_cons_iff, Bool.not_eq_false]
      cases kind <;> simp [isElement, and_comm]

theorem returns_refuseNegation_iff {value : Unit} :
    Returns Parser.refuseNegation before value after ↔
      after = before ∧ (kinds before.rest).head? ≠ some negation := by
  unfold Parser.refuseNegation
  rw [Parser.returns_peek_bind_iff]
  obtain ⟨consumed, rest⟩ := before
  cases rest with
  | nil =>
      rw [List.head?_nil, returns_pure_iff]
      simp
  | cons token rest =>
      rw [List.head?_cons, returns_refuse_iff, isPipelineNegationWord_iff]
      simp [and_comm]

theorem returns_parseCommand_iff {value : Command} :
    Returns (Parser.parseCommand input expected) before value after ↔
      ∃ used, Moves before used after ∧ CommandOf (kinds used) value ∧
        Before isElement after.rest := by
  unfold Parser.parseCommand
  rw [returns_bind_iff]
  constructor
  · intro ran
    obtain ⟨starts, middle, began, ran⟩ := ran
    obtain ⟨rfl, known⟩ := returns_startsCommand_iff.mp began
    cases starts with
    | false => exact absurd ran not_returns_unexpected
    | true =>
        obtain ⟨_, checked, refused, read⟩ := returns_bind_iff.mp ran
        obtain ⟨rfl, plain⟩ := returns_refuseNegation_iff.mp refused
        rw [returns_get_bind_iff] at read
        obtain ⟨command, last, looped, ended⟩ := returns_bind_iff.mp read
        obtain ⟨rfl, rfl⟩ := returns_pure_iff.mp ended
        obtain ⟨used, more, moves, elements, rfl, ends⟩ := commandLoop_sound looped
        have same : SimpleCommand.append {} more = more := by simp [SimpleCommand.append]
        rw [same]
        refine ⟨used, moves, ⟨?_, ?_, elements⟩, ends⟩
        · intro none
          obtain rfl := List.map_eq_nil_iff.mp none
          obtain rfl := moves.eq_of_nil
          exact known.mp rfl ends
        · intro bang
          rw [moves.rest] at plain
          apply plain
          cases used with
          | nil => cases bang
          | cons token used => exact bang
  · intro derived
    obtain ⟨used, moves, derives, ends⟩ := derived
    obtain ⟨command⟩ := value
    obtain ⟨filled, plain, elements⟩ := derives
    cases used with
    | nil => exact absurd rfl filled
    | cons token used =>
        have first : isElement token.kind = true := by
          rw [kinds_cons] at elements
          generalize token.kind = kind, kinds used = symbols at elements
          cases elements <;> rfl
        have starts : ¬ Before isElement before.rest := by
          rw [moves.rest, List.cons_append, before_cons_iff, first]
          decide
        have free : (kinds before.rest).head? ≠ some negation := by
          rw [moves.rest]
          exact plain
        have enough : (token :: used).length < before.rest.length + 1 := by
          rw [moves.length]
          omega
        have looped : Returns (Parser.commandLoop input (before.rest.length + 1) {}) before
            (SimpleCommand.append {} command) after :=
          commandLoop_complete moves elements ends enough
        refine ⟨true, before, returns_startsCommand_iff.mpr ⟨rfl, by simp [starts]⟩, ?_⟩
        rw [if_pos rfl, returns_bind_iff]
        refine ⟨(), before, returns_refuseNegation_iff.mpr ⟨rfl, free⟩, ?_⟩
        rw [returns_get_bind_iff, returns_bind_iff]
        exact ⟨_, after, looped, returns_pure_iff.mpr ⟨by simp [SimpleCommand.append], rfl⟩⟩

theorem total_unexpected {α : Type} :
    Total (Parser.unexpected input expected : Parse α) before := by
  apply total_bind Parser.total_peek
  intro token middle _
  cases token with
  | none => exact total_throw _
  | some token => exact total_throw _

theorem total_parseRedirect (redirect : RedirectToken) :
    Total (Parser.parseRedirect input redirect) before := by
  unfold Parser.parseRedirect
  split
  · exact total_pure _
  · apply total_bind Parser.total_peek
    intro token middle _
    split
    · apply total_bind Parser.total_advance
      intro _ _ _
      exact total_pure _
    · apply total_bind
      · apply total_bind total_get
        intro _ _ _
        exact total_pure _
      · intro _ _ _
        exact total_throw _

/-- A target is the token that follows, so the rest does not grow. -/
theorem parseRedirect_length {redirect : RedirectToken} {found : Redirect}
    (ran : Returns (Parser.parseRedirect input redirect) before found after) :
    after.rest.length ≤ before.rest.length := by
  unfold Parser.parseRedirect at ran
  split at ran
  · rw [(returns_pure_iff.mp ran).2]
  · rw [Parser.returns_peek_bind_iff] at ran
    split at ran
    · rename_i ahead
      obtain ⟨rest, ahead⟩ := List.head?_eq_some_iff.mp ahead
      rw [Parser.returns_advance_bind_iff ahead, returns_pure_iff] at ran
      rw [ran.2, ahead]
      exact Nat.le_succ _
    · obtain ⟨position, middle, -, thrown⟩ := returns_bind_iff.mp ran
      exact (returns_throw_iff.mp thrown).elim

theorem total_commandLoop {fuel : Nat} {command : SimpleCommand}
    (enough : before.rest.length < fuel) : Total (Parser.commandLoop input fuel command) before := by
  induction fuel generalizing before command with
  | zero => exact absurd enough (Nat.not_lt_zero _)
  | succ fuel ih =>
      unfold Parser.commandLoop
      apply total_bind Parser.total_peek
      intro token peeked looked
      obtain ⟨rfl, rfl⟩ := Parser.returns_peek_iff.mp looked
      split
      · rename_i ahead
        obtain ⟨rest, ahead⟩ := List.head?_eq_some_iff.mp ahead
        apply total_bind Parser.total_advance
        intro _ middle advanced
        apply total_bind (by simp [Total])
        intro next last lifted
        obtain ⟨-, rfl⟩ := returns_lift_iff.mp lifted
        apply ih
        obtain ⟨-, rfl⟩ := Prod.mk.inj (Option.some.inj
          (advanced.symm.trans (Parser.returns_advance ahead)))
        rw [ahead, List.length_cons] at enough
        exact Nat.lt_of_succ_lt_succ enough
      · rename_i ahead
        obtain ⟨rest, ahead⟩ := List.head?_eq_some_iff.mp ahead
        apply total_bind Parser.total_advance
        intro _ middle advanced
        apply total_bind (total_parseRedirect _)
        intro redirect last parsed
        apply ih
        have shorter := parseRedirect_length parsed
        obtain ⟨-, rfl⟩ := Prod.mk.inj (Option.some.inj
          (advanced.symm.trans (Parser.returns_advance ahead)))
        rw [ahead, List.length_cons] at enough
        exact lt_of_le_of_lt shorter (Nat.lt_of_succ_lt_succ enough)
      · exact total_pure _

theorem total_parseCommand : Total (Parser.parseCommand input expected) before := by
  unfold Parser.parseCommand
  apply total_bind
  · apply total_bind Parser.total_peek
    intro token middle _
    split <;> exact total_pure _
  · intro starts middle _
    split
    · apply total_bind
      · apply total_bind Parser.total_peek
        intro token middle _
        cases token with
        | none => exact total_pure _
        | some token => simp [Total]
      · intro _ checked _
        apply total_bind total_get
        intro parser read got
        obtain ⟨rfl, rfl⟩ := returns_get_iff.mp got
        apply total_bind (total_commandLoop (Nat.lt_succ_self _))
        intro command last _
        exact total_pure _
    · exact total_unexpected

end Command

end TinySandbox.Shell
