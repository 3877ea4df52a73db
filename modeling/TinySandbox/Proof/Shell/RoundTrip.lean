/-
This file shows that quoted words come back from the lexer, the parser and the expander.
The cost of the expansion is known exactly, so a budget is enough when it covers the cost.
-/

import TinySandbox.Construction.Shell.Expansion
import TinySandbox.Proof.Shell.Costs
import TinySandbox.Proof.Shell.Programs
import TinySandbox.Proof.Shell.Quoting

namespace TinySandbox.Shell
open Library

variable {env : Env} {status : Int}

/-- Literals add their text to the current field, which is kept. -/
theorem costs_literals (env : Env) (status : Int) (parts : List Text) (state : Budget.Fields) :
    Costs ((parts.map (Segment.literal · true)).foldlM (Budget.expandSegment env status true) state)
      (utf8Len parts.flatten)
      { state with
        current := state.current ++ parts.flatten
        keep := state.keep || ! parts.isEmpty } := by
  induction parts generalizing state with
  | nil =>
      rw [List.flatten_nil, List.append_nil, List.isEmpty_nil, Bool.not_true, Bool.or_false]
      exact Costs.pure state
  | cons part parts ih =>
      let grown : Budget.Fields := { state with current := state.current ++ part, keep := true }
      have here : Costs (Budget.expandSegment env status true state (.literal part true))
          (utf8Len part) grown := (Costs.charge (utf8Len part)).map fun _ => grown
      rw [List.map_cons, List.foldlM_cons, List.flatten_cons, utf8Len_append]
      apply here.bind
      have later := ih grown
      simpa [grown] using later

/-- Quoted literals expand to one field, also when the field is empty. -/
theorem costs_word {word : Word} {text : Text} (quotes : Quotes word.segments text)
    (filled : word.segments ≠ []) :
    Costs (Budget.word word env status true) (utf8Len text + sizeOfString) [text] := by
  obtain ⟨parts, shape, rfl⟩ := quotes
  have kept : (! parts.isEmpty) = true := by
    cases parts with
    | nil => exact absurd shape filled
    | cons part parts => rfl
  have literals := costs_literals env status parts { keep := ! true }
  unfold Budget.word
  rw [shape]
  apply literals.bind
  rw [if_pos (by simp [kept])]
  have pushed : Costs (Budget.pushField { fields := [], current := parts.flatten, keep := true })
      sizeOfString { fields := [parts.flatten], current := [], keep := false } :=
    (Costs.charge _).map _
  simp only [kept, Bool.or_true, List.nil_append]
  exact pushed.map _

/-- The bytes that the words take. -/
def wordsCost (texts : List Text) : Nat := (texts.map fun text => utf8Len text + sizeOfString).sum

namespace QuotedLine

/-- The only command of the line has neither assignments nor redirects. -/
def command (line : QuotedLine) : SimpleCommand where
  words := line.words.map QuotedWord.word

def program (line : QuotedLine) : Program where
  lists := [{ first := { commands := [.simple line.command] }, rest := [] }]

end QuotedLine

/-- A word is made of quoted literals that give its text. -/
theorem QuotedWord.quotes (word : QuotedWord) :
    Quotes word.word.segments word.text ∧ word.word.segments ≠ [] := by
  have pushed : ∀ (fragments : List Fragment) (segments : List Segment) (text : Text),
      Quotes segments text → segments ≠ [] →
        Quotes (pushFragments segments fragments) (text ++ fragments.flatMap Fragment.text) ∧
          pushFragments segments fragments ≠ [] := by
    intro fragments
    induction fragments with
    | nil =>
        intro segments text quotes filled
        rw [List.flatMap_nil, List.append_nil]
        exact ⟨quotes, filled⟩
    | cons fragment fragments ih =>
        intro segments text quotes filled
        obtain ⟨grown, kept⟩ := quotes.push fragment.text
        rw [List.flatMap_cons, ← List.append_assoc]
        exact ih _ _ grown kept
  obtain ⟨grown, kept⟩ := quotes_nil.push word.first.text
  exact pushed word.rest _ _ grown kept

/-- A word in quotes is no assignment and no negation, because its first literal is quoted. -/
theorem QuotedWord.starts_quoted (word : QuotedWord) (value : Text) (more : List Segment) :
    word.word.segments ≠ .literal value false :: more := by
  obtain ⟨⟨parts, shape, -⟩, -⟩ := word.quotes
  rw [shape]
  cases parts with
  | nil => exact nofun
  | cons part parts => exact nofun

theorem costs_expand (line : QuotedLine) (base : Env) (status : Int) :
    Costs (Budget.expand line.command base status)
      (sizeOfExpandedCommand + (envCost base.entries + wordsCost line.texts))
      { syntaxTree := line.command, env := base, words := line.texts, targets := [] } := by
  have words : Costs (line.command.words.mapM fun argument => Budget.word argument base status true)
      (wordsCost line.texts) (line.texts.map fun text => [text]) := by
    have each : ∀ word ∈ line.words, Costs (Budget.word word.word base status true)
        (utf8Len word.text + sizeOfString) [word.text] :=
      fun word _ => costs_word word.quotes.1 word.quotes.2
    have all := Costs.mapM each
    simpa [wordsCost, QuotedLine.command, QuotedLine.texts, List.mapM_map, Function.comp_def]
      using all
  have flat : (line.texts.map fun text => [text]).flatten = line.texts := by
    induction line.texts with
    | nil => rfl
    | cons text texts ih => simpa using ih
  unfold Budget.expand
  apply (Costs.charge _).bind
  apply (costs_chargeEnv _).bind
  rw [← Nat.zero_add (wordsCost _)]
  apply (Costs.pure base).bind
  rw [← Nat.add_zero (wordsCost _)]
  apply words.bind
  rw [← Nat.zero_add 0]
  apply (Costs.pure []).bind
  rw [flat]
  exact Costs.pure _

/-- The words after the first are arguments whatever they are. -/
theorem elements_arguments (words : List Word) :
    Elements true (words.map .word) { words } := by
  induction words with
  | nil => exact .done true
  | cons word words ih => exact .argument ih

theorem QuotedLine.programOf (line : QuotedLine) :
    ProgramOf (line.words.map fun word => .word word.word) line.program := by
  have arguments := elements_arguments (line.rest.map fun next => next.2.word)
  have plain : ¬ Appends line.first.word := by
    intro appends
    obtain ⟨name, tail, more, -, shape⟩ := appends
    exact line.first.starts_quoted _ _ shape
  have unassigned : ∀ assignment, ¬ Assigns line.first.word assignment := by
    intro assignment assigns
    obtain ⟨tail, more, -, shape, -⟩ := assigns
    exact line.first.starts_quoted _ _ shape
  have elements := Elements.command plain unassigned arguments
  have command : CommandOf (line.words.map fun word => .word word.word) (.simple line.command) := by
    refine ⟨List.cons_ne_nil _ _, ?_, ?_⟩
    · intro negated
      have same := TokenKind.word.inj (Option.some.inj negated)
      exact line.first.starts_quoted _ _ (congrArg Word.segments same)
    · simpa [QuotedLine.words, QuotedLine.command, Function.comp_def] using elements
  have pipeline : PipelineOf (line.words.map fun word => .word word.word)
      { commands := [.simple line.command] } :=
    ⟨_, [], _, [], (List.append_nil _).symm, command, .nil, rfl⟩
  have list : AndOrListOf (line.words.map fun word => .word word.word)
      { first := { commands := [.simple line.command] }, rest := [] } :=
    ⟨_, [], (List.append_nil _).symm, pipeline, .nil⟩
  refine ⟨[], _, rfl, newlines_nil, .inr ⟨_, [], [], _, [], ?_, list, .nil, .inl rfl, rfl⟩⟩
  exact (List.append_nil _).symm

theorem parse_render (line : QuotedLine) :
    (parse line.render).outcome = some (.ok line.program) := by
  obtain ⟨tokens, lexed, shape⟩ := lex_render line
  unfold parse
  rw [lexed, pure_bind, parseTokens_ok_iff]
  refine ⟨_, returns_parseProgram_iff.mpr ⟨?_, rfl⟩⟩
  rw [shape]
  exact line.programOf

/-- Every list of strings comes back from its quoted line, whatever the environment and the status
are, once the budget covers the cost. -/
theorem quoted_line_round_trip (line : QuotedLine) :
    ∃ command : SimpleCommand, command.assignments = [] ∧ command.redirects = [] ∧
      (parse line.render).outcome = some (.ok
        { lists := [{ first := { commands := [.simple command] }, rest := [] }] }) ∧
      ∀ (base : Env) (status : Int),
        ∃ cost, ∀ budget, cost ≤ budget →
          ((Budget.expand command base status).run budget).map (fun done => done.1.words) =
            some line.texts := by
  refine ⟨line.command, rfl, rfl, parse_render line, ?_⟩
  intro base status
  refine ⟨sizeOfExpandedCommand + (envCost base.entries + wordsCost line.texts), ?_⟩
  intro budget enough
  rw [costs_expand line base status budget, if_pos enough]
  rfl

end TinySandbox.Shell
