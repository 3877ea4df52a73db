/-
This file compares the syntax tree with the tokens in their order.
A traversal of the tree meets the words in order and the redirects in order, but it cannot tell how
the two are mixed within a command.
-/

import TinySandbox.Proof.Shell.Programs

namespace TinySandbox.Shell
open Library Library.Call

@[simp] theorem operandItems_append (first second : List Item) :
    operandItems (first ++ second) = operandItems first ++ operandItems second :=
  List.filter_append _ _

@[simp] theorem redirectItems_append (first second : List Item) :
    redirectItems (first ++ second) = redirectItems first ++ redirectItems second :=
  List.filter_append _ _

/-- The tokens of a part in front of any rest give these operands and redirects. The part may
start only under some flags. -/
def Spells (starts : Bool → Prop) (kinds : List TokenKind) (operands redirects : List Item) : Prop :=
  ∀ rest others, (∀ seen, InOrder seen rest others) →
    ∃ items, (∀ seen, starts seen → InOrder seen (kinds ++ rest) (items ++ others)) ∧
      operandItems items = operands ∧ redirectItems items = redirects

/-- The part may start anywhere. -/
def anywhere : Bool → Prop := fun _ => True

/-- The part starts a command. -/
def atStart : Bool → Prop := (· = false)

section Spells
variable {starts : Bool → Prop} {first second : List TokenKind}
  {operands operands' redirects redirects' : List Item}

theorem Spells.nil : Spells starts [] [] [] := by
  intro rest others later
  exact ⟨[], fun seen _ => later seen, rfl, rfl⟩

theorem Spells.weaken (spells : Spells anywhere first operands redirects) :
    Spells starts first operands redirects := by
  intro rest others later
  obtain ⟨items, ordered, same⟩ := spells rest others later
  exact ⟨items, fun seen _ => ordered seen trivial, same⟩

theorem Spells.append (left : Spells starts first operands redirects)
    (right : Spells anywhere second operands' redirects') :
    Spells starts (first ++ second) (operands ++ operands') (redirects ++ redirects') := by
  intro rest others later
  obtain ⟨items', ordered', rfl, rfl⟩ := right rest others later
  obtain ⟨items, ordered, rfl, rfl⟩ :=
    left (second ++ rest) (items' ++ others) fun seen => ordered' seen trivial
  refine ⟨items ++ items', ?_, operandItems_append _ _, redirectItems_append _ _⟩
  simpa only [List.append_assoc] using ordered

/-- A token in front of a part starts anywhere when it ends what was seen. -/
theorem Spells.cons {kind : TokenKind} (items : List Item)
    (spells : Spells atStart first operands redirects)
    (ends : ∀ seen rest others, InOrder false rest others →
      InOrder seen (kind :: rest) (items ++ others)) :
    Spells anywhere (kind :: first) (operandItems items ++ operands)
      (redirectItems items ++ redirects) := by
  intro rest others later
  obtain ⟨items', ordered, rfl, rfl⟩ := spells rest others later
  refine ⟨items ++ items', ?_, operandItems_append _ _, redirectItems_append _ _⟩
  intro seen _
  rw [List.append_assoc]
  exact ends seen _ _ (ordered false rfl)

theorem Spells.newline (spells : Spells atStart first operands redirects) :
    Spells anywhere (.newline :: first) operands redirects :=
  spells.cons [] fun _ _ _ => .newline

theorem Spells.semi (spells : Spells atStart first operands redirects) :
    Spells anywhere (.semi :: first) operands redirects :=
  spells.cons [] fun _ _ _ => .semi

theorem Spells.newlines {newlines : List TokenKind} (blank : Newlines newlines)
    (spells : Spells atStart first operands redirects) :
    Spells atStart (newlines ++ first) operands redirects := by
  obtain ⟨count, rfl⟩ := blank
  induction count with
  | zero => exact spells
  | succ count ih => exact ih.newline.weaken

theorem Spells.separator {separator : List TokenKind} (separates : Separator separator)
    (spells : Spells atStart first operands redirects) :
    Spells anywhere (separator ++ first) operands redirects := by
  obtain ⟨newlines, blank, rfl | rfl⟩ := separates
  · exact (spells.newlines blank).semi
  · exact (spells.newlines blank).newline

/-- Parts that repeat spell their values one after the other. -/
theorem Spells.repeated {α : Type} {piece : List TokenKind → α → Prop} {symbols : List TokenKind}
    {values : List α} {left right : α → List Item} (repeated : Repeated piece symbols values)
    (spells : ∀ kinds value, piece kinds value → Spells anywhere kinds (left value) (right value)) :
    Spells anywhere symbols (values.flatMap left) (values.flatMap right) := by
  induction repeated with
  | nil => exact .nil
  | cons here later ih =>
      rw [List.flatMap_cons, List.flatMap_cons]
      exact (spells _ _ here).append ih

end Spells

/-- The elements of a command give its operands and redirects, and nothing in front of the rest is
lost. -/
theorem Elements.inOrder {seen : Bool} {kinds rest : List TokenKind} {command : SimpleCommand}
    {others : List Item} (elements : Elements seen kinds command)
    (later : ∀ seen, InOrder seen rest others) :
    ∃ items, InOrder seen (kinds ++ rest) (items ++ others) ∧
      operandItems items = command.operands ∧ redirectItems items = command.redirections ∧
      (seen = true → command.assignments = []) := by
  induction elements with
  | done seen => exact ⟨[], later seen, rfl, rfl, fun _ => rfl⟩
  | @assignment word assignment _ _ plain assigns _ ih =>
      obtain ⟨items, ordered, operands, redirects, -⟩ := ih
      refine ⟨.assignment assignment :: items, .assignment assigns ordered, ?_, redirects, nofun⟩
      exact congrArg (Item.assignment assignment :: ·) operands
  | @command word _ _ plain unassigned _ ih =>
      obtain ⟨items, ordered, operands, redirects, none⟩ := ih
      refine ⟨.word word :: items, .command unassigned ordered, ?_, redirects, nofun⟩
      change Item.word word :: operandItems items = _
      rw [operands]
      simp [SimpleCommand.operands, none rfl]
  | @argument word _ _ _ ih =>
      obtain ⟨items, ordered, operands, redirects, none⟩ := ih
      refine ⟨.word word :: items, .argument ordered, ?_, redirects, none⟩
      change Item.word word :: operandItems items = _
      rw [operands]
      simp [SimpleCommand.operands, none rfl]
  | target undirected _ ih =>
      obtain ⟨items, ordered, operands, redirects, none⟩ := ih
      exact ⟨_ :: items, .target undirected ordered, operands, congrArg (_ :: ·) redirects, none⟩
  | duplicate directed _ ih =>
      obtain ⟨items, ordered, operands, redirects, none⟩ := ih
      exact ⟨_ :: items, .duplicate directed ordered, operands, congrArg (_ :: ·) redirects, none⟩

theorem CommandOf.spells {kinds : List TokenKind} {command : Command}
    (derives : CommandOf kinds command) :
    Spells atStart kinds (command.traverse SimpleCommand.operands)
      (command.traverse SimpleCommand.redirections) := by
  obtain ⟨command⟩ := command
  obtain ⟨-, -, elements⟩ := derives
  intro rest others later
  obtain ⟨items, ordered, operands, redirects, -⟩ := elements.inOrder later
  refine ⟨items, ?_, operands, redirects⟩
  intro seen fresh
  rw [fresh]
  exact ordered

theorem Piped.spells {kinds : List TokenKind} {command : Command} (derives : Piped kinds command) :
    Spells anywhere kinds (.pipe :: command.traverse SimpleCommand.operands)
      (.pipe :: command.traverse SimpleCommand.redirections) := by
  obtain ⟨newlines, rest, rfl, blank, derives⟩ := derives
  exact (derives.spells.newlines blank).cons [.pipe] fun _ _ _ => .pipe

/-- A pipe stands in front of every command but the first. -/
theorem Pipeline.traverse_cons (visit : SimpleCommand → List Item) (command : Command)
    (commands : List Command) :
    Pipeline.traverse visit { commands := command :: commands } =
      command.traverse visit ++ commands.flatMap fun other => .pipe :: other.traverse visit := by
  unfold Pipeline.traverse
  induction commands generalizing command with
  | nil => simp [List.intercalate]
  | cons next commands ih =>
      simp only [List.map_cons, List.intercalate_cons_cons, List.flatMap_cons] at ih ⊢
      rw [ih]
      simp

theorem PipelineOf.spells {kinds : List TokenKind} {pipeline : Pipeline}
    (derives : PipelineOf kinds pipeline) :
    Spells atStart kinds (pipeline.traverse SimpleCommand.operands)
      (pipeline.traverse SimpleCommand.redirections) := by
  obtain ⟨first, rest, command, commands, rfl, derives, repeated, same⟩ := derives
  obtain ⟨found⟩ := pipeline
  obtain rfl : found = command :: commands := same
  rw [Pipeline.traverse_cons, Pipeline.traverse_cons]
  exact derives.spells.append (.repeated repeated fun _ _ => Piped.spells)

theorem Conditional.spells {kinds : List TokenKind} {andOr : AndOr}
    (derives : Conditional kinds andOr) :
    Spells anywhere kinds
      (.conditional andOr.op :: andOr.pipeline.traverse SimpleCommand.operands)
      (.conditional andOr.op :: andOr.pipeline.traverse SimpleCommand.redirections) := by
  obtain ⟨newlines, rest, rfl, blank, derives⟩ := derives
  exact (derives.spells.newlines blank).cons [.conditional andOr.op]
    fun _ _ _ => .conditional andOr.op

theorem AndOrListOf.spells {kinds : List TokenKind} {list : AndOrList}
    (derives : AndOrListOf kinds list) :
    Spells atStart kinds (list.traverse SimpleCommand.operands)
      (list.traverse SimpleCommand.redirections) := by
  obtain ⟨first, rest, rfl, derives, repeated⟩ := derives
  exact derives.spells.append (.repeated repeated fun _ _ => Conditional.spells)

theorem Separated.spells {kinds : List TokenKind} {list : AndOrList}
    (derives : Separated kinds list) :
    Spells anywhere kinds (list.traverse SimpleCommand.operands)
      (list.traverse SimpleCommand.redirections) := by
  obtain ⟨separator, rest, rfl, separates, derives⟩ := derives
  exact derives.spells.separator separates

theorem ProgramOf.spells {kinds : List TokenKind} {program : Program}
    (derives : ProgramOf kinds program) :
    Spells atStart kinds (program.traverse SimpleCommand.operands)
      (program.traverse SimpleCommand.redirections) := by
  obtain ⟨newlines, rest, rfl, blank, lists⟩ := derives
  apply Spells.newlines blank
  rcases lists with ⟨rfl, none⟩ | ⟨first, others, last, list, lists, rfl, derives, repeated, ends, same⟩
  · unfold Program.traverse
    rw [none]
    exact .nil
  · have closes : Spells anywhere last [] [] := by
      rcases ends with rfl | separates
      · exact .nil
      · rw [← List.append_nil last]
        exact Spells.separator separates .nil
    have rest := (Spells.repeated repeated fun _ _ => Separated.spells).append closes
    rw [List.append_nil, List.append_nil] at rest
    unfold Program.traverse
    rw [same, List.flatMap_cons, List.flatMap_cons]
    exact derives.spells.append rest

/-- The tokens of a program read in order give the words and the redirects of its tree. -/
theorem ProgramOf.inOrder {kinds : List TokenKind} {program : Program}
    (derives : ProgramOf kinds program) :
    ∃ items, InOrder false kinds items ∧
      operandItems items = program.traverse SimpleCommand.operands ∧
      redirectItems items = program.traverse SimpleCommand.redirections := by
  obtain ⟨items, ordered, same⟩ := derives.spells [] [] fun seen => .done seen
  rw [List.append_nil, List.append_nil] at ordered
  exact ⟨items, ordered false rfl, same⟩

/-- A word is an assignment in one way only. -/
theorem Assigns.unique {word : Word} {first second : Assignment} (left : Assigns word first)
    (right : Assigns word second) : first = second := by
  obtain ⟨tail, more, -, shape, -⟩ := id left
  have same := ((assigns_iff shape).mp left).symm.trans ((assigns_iff shape).mp right)
  exact Option.some.inj (Except.ok.inj same)

/-- The tokens can be read in one way only. -/
theorem InOrder.unique {seen : Bool} {kinds : List TokenKind} {first second : List Item}
    (left : InOrder seen kinds first) (right : InOrder seen kinds second) : first = second := by
  induction left generalizing second with
  | done seen =>
      cases right
      rfl
  | semi _ ih =>
      generalize shape : TokenKind.semi :: _ = symbols at right
      cases right with
      | semi later => exact ih (by cases shape; exact later)
      | conditional op => cases op <;> cases shape
      | _ => cases shape
  | newline _ ih =>
      generalize shape : TokenKind.newline :: _ = symbols at right
      cases right with
      | newline later => exact ih (by cases shape; exact later)
      | conditional op => cases op <;> cases shape
      | _ => cases shape
  | pipe _ ih =>
      generalize shape : TokenKind.pipe :: _ = symbols at right
      cases right with
      | pipe later => exact congrArg (Item.pipe :: ·) (ih (by cases shape; exact later))
      | conditional op => cases op <;> cases shape
      | _ => cases shape
  | conditional op _ ih =>
      generalize shape : operator op :: _ = symbols at right
      cases right with
      | conditional other later =>
          obtain ⟨same, rfl⟩ := List.cons.inj shape
          obtain rfl : op = other := by
            cases op <;> cases other <;> first | rfl | cases same
          exact congrArg (Item.conditional op :: ·) (ih later)
      | _ => cases op <;> cases shape
  | assignment assigns _ ih =>
      generalize shape : TokenKind.word _ :: _ = symbols at right
      cases right with
      | assignment assigns' later =>
          cases shape
          rw [assigns.unique assigns', ih later]
      | command unassigned =>
          cases shape
          exact absurd assigns (unassigned _)
      | conditional op => cases op <;> cases shape
      | _ => cases shape
  | command unassigned _ ih =>
      generalize shape : TokenKind.word _ :: _ = symbols at right
      cases right with
      | assignment assigns =>
          cases shape
          exact absurd assigns (unassigned _)
      | command _ later =>
          cases shape
          rw [ih later]
      | conditional op => cases op <;> cases shape
      | _ => cases shape
  | argument _ ih =>
      generalize shape : TokenKind.word _ :: _ = symbols at right
      cases right with
      | argument later =>
          cases shape
          rw [ih later]
      | conditional op => cases op <;> cases shape
      | _ => cases shape
  | target undirected _ ih =>
      generalize shape : TokenKind.redirect _ :: _ = symbols at right
      cases right with
      | target _ later =>
          cases shape
          rw [ih later]
      | duplicate directed =>
          cases shape
          rw [undirected] at directed
          cases directed
      | conditional op => cases op <;> cases shape
      | _ => cases shape
  | duplicate directed _ ih =>
      generalize shape : TokenKind.redirect _ :: _ = symbols at right
      cases right with
      | target undirected =>
          cases shape
          rw [undirected] at directed
          cases directed
      | duplicate directed' later =>
          cases shape
          obtain rfl := Option.some.inj (directed.symm.trans directed')
          rw [ih later]
      | conditional op => cases op <;> cases shape
      | _ => cases shape

/-- The parser returns exactly the programs of the grammar and consumes every token. The tokens have
one reading in order, and the tree keeps its operands and its redirects. -/
theorem parser_accepts_grammar (input : Text) (tokens : List Token) :
    (parseTokens input tokens).outcome ≠ none ∧
      (∀ program, (parseTokens input tokens).outcome = some (.ok program) ↔
        ProgramOf (kinds tokens) program) ∧
      ∀ program, (parseTokens input tokens).outcome = some (.ok program) →
        Returns (Parser.parseProgram input) { consumed := [], rest := tokens } program
          { consumed := tokens.reverse, rest := [] } ∧
        ∃ items, (∀ other, InOrder false (kinds tokens) other ↔ other = items) ∧
          operandItems items = program.traverse SimpleCommand.operands ∧
          redirectItems items = program.traverse SimpleCommand.redirections := by
  have accepts : ∀ program, (parseTokens input tokens).outcome = some (.ok program) ↔
      ProgramOf (kinds tokens) program := by
    intro program
    rw [parseTokens_ok_iff]
    constructor
    · intro ran
      obtain ⟨after, returned⟩ := ran
      exact (returns_parseProgram_iff.mp returned).1
    · intro derives
      exact ⟨_, returns_parseProgram_iff.mpr ⟨derives, rfl⟩⟩
  refine ⟨parseTokens_total, accepts, ?_⟩
  intro program accepted
  have derives := (accepts program).mp accepted
  refine ⟨returns_parseProgram_iff.mpr ⟨derives, rfl⟩, ?_⟩
  obtain ⟨items, ordered, same⟩ := derives.inOrder
  refine ⟨items, ?_, same⟩
  intro other
  constructor
  · intro again
    exact again.unique ordered
  · intro equal
    rw [equal]
    exact ordered

theorem InOrder.of_redirect {seen : Bool} {redirect : RedirectToken} {rest : List TokenKind}
    {items : List Item} (ordered : InOrder seen (.redirect redirect :: rest) items) :
    ∃ found more, items = .redirect found :: more := by
  generalize shape : TokenKind.redirect redirect :: rest = symbols at ordered
  cases ordered with
  | target => exact ⟨_, _, rfl⟩
  | duplicate => exact ⟨_, _, rfl⟩
  | conditional op => cases op <;> cases shape
  | _ => cases shape

theorem InOrder.of_word {seen : Bool} {word : Word} {rest : List TokenKind} {items : List Item}
    (ordered : InOrder seen (.word word :: rest) items) (redirect : Redirect) (more : List Item) :
    items ≠ .redirect redirect :: more := by
  generalize shape : TokenKind.word word :: rest = symbols at ordered
  cases ordered with
  | semi => cases shape
  | newline => cases shape
  | target => cases shape
  | duplicate => cases shape
  | _ => exact nofun

/-- A redirect in front of a word and the same redirect behind it give one tree, so no traversal
of the tree meets the tokens in their order. -/
theorem tree_forgets_redirect_places :
    ¬ ∃ traverse : Program → List Item, ∀ input tokens program,
      (parseTokens input tokens).outcome = some (.ok program) →
        InOrder false (kinds tokens) (traverse program) := by
  intro claimed
  obtain ⟨traverse, ordered⟩ := claimed
  let name : Word := { segments := [.literal ['w'] false] }
  let file : Word := { segments := [.literal ['f'] false] }
  let write : RedirectToken := { fd := none, op := .write, targetFd := none }
  let command : SimpleCommand := { words := [name], redirects := [⟨none, .write, .word file⟩] }
  let program : Program :=
    { lists := [{ first := { commands := [.simple command] }, rest := [] }] }
  have early : InOrder false [.redirect write, .word file, .word name] (traverse program) :=
    ordered [] [⟨.redirect write, 0⟩, ⟨.word file, 1⟩, ⟨.word name, 2⟩] program rfl
  have late : InOrder false [.word name, .redirect write, .word file] (traverse program) :=
    ordered [] [⟨.word name, 0⟩, ⟨.redirect write, 1⟩, ⟨.word file, 2⟩] program rfl
  generalize traverse program = items at early late
  obtain ⟨redirect, more, rfl⟩ := early.of_redirect
  exact late.of_word redirect more rfl

end TinySandbox.Shell
