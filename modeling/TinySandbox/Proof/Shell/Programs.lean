/-
This file shows that the parser accepts the grammar and keeps what the tokens say.
The syntax tree keeps the order of the words and the order of the redirects, but not how the two
are mixed within a command.
-/

import TinySandbox.Proof.Shell.Parsing

namespace TinySandbox.Shell
open Library Library.Call
open TinySandbox.Shell.Parser

variable {input : Text} {before after : Parser}

/-- These are the lists of a program without the newlines in front. -/
def ListsOf (kinds : List TokenKind) (lists : List AndOrList) : Prop :=
  (kinds = [] ∧ lists = []) ∨
    ∃ first others last list more, kinds = first ++ (others ++ last) ∧ AndOrListOf first list ∧
      Repeated Separated others more ∧ (last = [] ∨ Separator last) ∧ lists = list :: more

/-- The lists that follow a separator continue those in front of it. -/
theorem ListsOf.cons {first separator rest : List TokenKind} {list : AndOrList}
    {more : List AndOrList} (derives : AndOrListOf first list) (separates : Separator separator)
    (later : ListsOf rest more) : ListsOf (first ++ (separator ++ rest)) (list :: more) := by
  right
  rcases later with ⟨rfl, rfl⟩ | ⟨second, others, last, next, others', rfl, derives', repeated, ends, rfl⟩
  · exact ⟨first, [], separator, list, [], by simp, derives, .nil, .inr separates, rfl⟩
  · refine ⟨first, separator ++ second ++ others, last, list, next :: others', ?_, derives, ?_,
      ends, rfl⟩
    · simp only [List.append_assoc]
    · exact .cons ⟨separator, second, rfl, separates, derives'⟩ repeated

theorem programLoop_sound {fuel : Nat} {found : List AndOrList} {program : Program}
    (ran : Returns (programLoop input fuel found) before program after) :
    ∃ used more, Moves before used after ∧ after.rest = [] ∧ ListsOf (kinds used) more ∧
      program.lists = found ++ more := by
  induction fuel generalizing before found with
  | zero => cases ran
  | succ fuel ih =>
      unfold programLoop at ran
      obtain ⟨eof, looked, known, later⟩ := returns_bind_iff.mp ran
      obtain ⟨rfl, ended⟩ := returns_isEof_iff.mp known
      cases eof with
      | true =>
          obtain ⟨rfl, rfl⟩ := returns_pure_iff.mp later
          exact ⟨[], [], Moves.refl _, ended.mp rfl, .inl ⟨rfl, rfl⟩, (List.append_nil _).symm⟩
      | false =>
          rw [if_neg Bool.false_ne_true] at later
          obtain ⟨list, middle, read, closed⟩ := returns_bind_iff.mp later
          obtain ⟨_, last, separated, looped⟩ := returns_bind_iff.mp closed
          obtain ⟨first, moved, derives, -⟩ := reads_list.returns.mp read
          obtain ⟨rest, more, moves, stops, lists, same⟩ := ih looped
          rw [List.append_assoc, List.singleton_append] at same
          rcases returns_endList_iff.mp separated with ⟨separator, between, shape, -⟩ | ⟨rfl, none⟩
          · refine ⟨first ++ (separator ++ rest), list :: more,
              moved.trans (between.trans moves), stops, ?_, same⟩
            rw [kinds_append, kinds_append]
            exact ListsOf.cons derives shape lists
          · obtain rfl : rest = [] := by
              have empty := moves.rest
              rw [none] at empty
              exact (List.append_eq_nil_iff.mp empty.symm).1
            rcases lists with ⟨-, rfl⟩ | ⟨second, others, ends, next, more, empty, derives', -⟩
            · refine ⟨first ++ [], [list], moved.trans moves, stops, .inr ?_, same⟩
              exact ⟨kinds first, [], [], list, [], by simp, derives, .nil, .inl rfl, rfl⟩
            · obtain ⟨kind, later, rfl, -⟩ := derives'.opens
              cases empty

/-- A separator starts with a token that ends every list. -/
theorem Separator.ends_list {used : List Token} (separates : Separator (kinds used))
    (rest : List Token) : Before continuesList (used ++ rest) := by
  obtain ⟨newlines, -, shape | shape⟩ := separates
  · obtain ⟨token, later, rfl, kind, -⟩ := exists_of_kinds_cons shape
    rw [List.cons_append, before_cons_iff, kind]
    rfl
  · obtain ⟨token, later, rfl, kind, -⟩ := exists_of_kinds_cons shape
    rw [List.cons_append, before_cons_iff, kind]
    rfl

/-- The loop reads the first list and what separates it from the rest. -/
theorem returns_programLoop_step {fuel : Nat} {found : List AndOrList} {list : AndOrList}
    {program : Program} {first separator : List Token} {middle last : Parser}
    (derives : AndOrListOf (kinds first) list) (read : Moves before first middle)
    (separated : Moves middle separator last)
    (shape : Separator (kinds separator) ∨ (separator = [] ∧ last.rest = []))
    (free : Before (isKind .newline) last.rest)
    (later : Returns (programLoop input fuel (found ++ [list])) last program after) :
    Returns (programLoop input (fuel + 1) found) before program after := by
  unfold programLoop
  rw [returns_bind_iff]
  refine ⟨false, before, returns_isEof_iff.mpr ⟨rfl, ?_⟩, ?_⟩
  · obtain ⟨kind, rest, opened, -⟩ := derives.opens
    obtain ⟨token, tokens, rfl, -, -⟩ := exists_of_kinds_cons opened
    rw [read.rest]
    exact iff_of_false Bool.false_ne_true (List.cons_ne_nil _ _)
  · have ends : Before continuesList middle.rest := by
      rw [separated.rest]
      rcases shape with separates | ⟨rfl, none⟩
      · exact Separator.ends_list separates _
      · rw [none]
        exact before_nil _
    rw [if_neg Bool.false_ne_true, returns_bind_iff]
    refine ⟨list, middle, reads_list.returns.mpr ⟨first, read, derives, ends⟩, ?_⟩
    rw [returns_bind_iff]
    refine ⟨(), last, returns_endList_iff.mpr ?_, later⟩
    rcases shape with separates | ⟨rfl, none⟩
    · exact .inl ⟨separator, separated, separates, free⟩
    · obtain rfl := separated.eq_of_nil
      exact .inr ⟨rfl, none⟩

theorem programLoop_complete {fuel : Nat} {found lists : List AndOrList} {used : List Token}
    (moves : Moves before used after) (derives : ListsOf (kinds used) lists)
    (stops : after.rest = []) (enough : used.length < fuel) :
    Returns (programLoop input fuel found) before { lists := found ++ lists } after := by
  have finish : ∀ fuel found, 0 < fuel →
      Returns (programLoop input fuel found) after { lists := found } after := by
    intro fuel found positive
    obtain ⟨fuel, rfl⟩ := Nat.exists_eq_succ_of_ne_zero (Nat.ne_of_gt positive)
    unfold programLoop
    rw [returns_bind_iff]
    refine ⟨true, after, returns_isEof_iff.mpr ⟨rfl, ?_⟩, returns_pure_iff.mpr ⟨rfl, rfl⟩⟩
    simp [stops]
  rcases derives with ⟨none, rfl⟩ | ⟨first, others, last, list, more, shape, derives, repeated, ends, rfl⟩
  · obtain rfl := List.map_eq_nil_iff.mp none
    obtain rfl := moves.eq_of_nil
    rw [List.append_nil]
    exact finish _ _ (Nat.zero_lt_of_lt enough)
  · induction repeated generalizing before used fuel found first list with
    | nil =>
        obtain ⟨here, rest, rfl, rfl, rfl⟩ := exists_of_kinds_append shape
        obtain ⟨middle, read, separated⟩ := moves.split
        obtain ⟨fuel, rfl⟩ := Nat.exists_eq_succ_of_ne_zero (Nat.ne_zero_of_lt enough)
        apply returns_programLoop_step derives read separated
        · rcases ends with none | separates
          · exact .inr ⟨List.map_eq_nil_iff.mp none, stops⟩
          · exact .inl separates
        · rw [stops]
          exact before_nil _
        · apply finish
          obtain ⟨kind, more, opened, -⟩ := derives.opens
          obtain ⟨token, tokens, rfl, -, -⟩ := exists_of_kinds_cons opened
          rw [List.length_append, List.length_cons] at enough
          omega
    | cons separated repeated ih =>
        obtain ⟨separator, next, rfl, separates, derives'⟩ := separated
        obtain ⟨here, behind, rfl, rfl, cut⟩ := exists_of_kinds_append shape
        rw [List.append_assoc, List.append_assoc] at cut
        obtain ⟨between, tokens, rfl, rfl, remaining⟩ := exists_of_kinds_append cut
        obtain ⟨middle, read, moves⟩ := moves.split
        obtain ⟨beyond, separated, moves⟩ := moves.split
        obtain ⟨fuel, rfl⟩ := Nat.exists_eq_succ_of_ne_zero (Nat.ne_zero_of_lt enough)
        apply returns_programLoop_step derives read separated (.inl separates)
        · obtain ⟨kind, tail, rfl, element⟩ := derives'.opens
          rw [moves.rest]
          have free : isKind .newline kind = false := by
            apply decide_eq_false
            intro newline
            rw [newline] at element
            cases element
          obtain ⟨token, later, rfl, rfl, -⟩ := exists_of_kinds_cons remaining
          exact before_cons_iff.mpr free
        · rw [List.append_cons found list (_ :: _)]
          apply ih moves _ _ _ remaining derives'
          obtain ⟨kind, tail, opened, -⟩ := derives.opens
          obtain ⟨token, later, rfl, -, -⟩ := exists_of_kinds_cons opened
          simp only [List.length_append, List.length_cons] at enough
          omega

theorem total_programLoop {fuel : Nat} {found : List AndOrList}
    (enough : before.rest.length < fuel) : Total (programLoop input fuel found) before := by
  induction fuel generalizing before found with
  | zero => exact absurd enough (Nat.not_lt_zero _)
  | succ fuel ih =>
      unfold programLoop
      apply total_bind (total_bind total_get fun _ _ _ => total_pure _)
      intro eof looked known
      obtain ⟨rfl, -⟩ := returns_isEof_iff.mp known
      cases eof with
      | true => exact total_pure _
      | false =>
          apply total_bind reads_list.total
          intro list middle read
          apply total_bind total_endList
          intro _ last separated
          apply ih
          obtain ⟨first, moves, derives, -⟩ := reads_list.returns.mp read
          obtain ⟨kind, rest, opened, -⟩ := derives.opens
          obtain ⟨token, tokens, rfl, -, -⟩ := exists_of_kinds_cons opened
          have length := moves.length
          rw [List.length_cons] at length
          rcases returns_endList_iff.mp separated with ⟨separator, moved, -⟩ | ⟨rfl, -⟩
          · have length' := moved.length
            omega
          · omega

theorem returns_parseProgram_iff {tokens : List Token} {program : Program} :
    Returns (parseProgram input) { consumed := [], rest := tokens } program after ↔
      ProgramOf (kinds tokens) program ∧ after = { consumed := tokens.reverse, rest := [] } := by
  have whole : ∀ {used}, Moves { consumed := [], rest := tokens } used after → after.rest = [] →
      used = tokens ∧ after = { consumed := tokens.reverse, rest := [] } := by
    intro used moves stops
    have rests := moves.rest
    have consumes := moves.consumed
    rw [stops, List.append_nil] at rests
    rw [List.append_nil, ← rests] at consumes
    refine ⟨rests.symm, ?_⟩
    cases after
    exact congrArg₂ Parser.mk consumes stops
  unfold parseProgram
  rw [returns_bind_iff]
  constructor
  · intro ran
    obtain ⟨_, middle, skipped, looped⟩ := ran
    rw [returns_get_bind_iff] at looped
    obtain ⟨newlines, moved, blank, -⟩ := returns_consumeNewlines_iff.mp skipped
    obtain ⟨used, more, moves, stops, lists, same⟩ := programLoop_sound looped
    obtain ⟨rfl, ended⟩ := whole (moved.trans moves) stops
    obtain rfl : program.lists = more := same
    refine ⟨⟨kinds newlines, kinds used, kinds_append _ _, blank, ?_⟩, ended⟩
    exact lists
  · intro derived
    obtain ⟨⟨newlines, rest, shape, blank, lists⟩, rfl⟩ := derived
    obtain ⟨first, used, rfl, rfl, rfl⟩ := exists_of_kinds_append shape
    have moves : Moves { consumed := [], rest := first ++ used } (first ++ used)
        { consumed := (first ++ used).reverse, rest := [] } :=
      ⟨(List.append_nil _).symm, (List.append_nil _).symm⟩
    obtain ⟨middle, moved, moves⟩ := moves.split
    have derives : ListsOf (kinds used) program.lists := lists
    have free : Before (isKind .newline) middle.rest := by
      rw [moves.rest]
      rcases derives with ⟨none, -⟩ | ⟨left, others, last, list, more, cut, derives, -⟩
      · obtain rfl := List.map_eq_nil_iff.mp none
        exact before_nil _
      · obtain ⟨kind, tail, rfl, element⟩ := derives.opens
        obtain ⟨token, tokens, rfl, rfl, -⟩ := exists_of_kinds_cons cut
        apply before_cons_iff.mpr
        apply decide_eq_false
        intro newline
        rw [newline] at element
        cases element
    refine ⟨(), middle, returns_consumeNewlines_iff.mpr ⟨first, moved, blank, free⟩, ?_⟩
    rw [returns_get_bind_iff]
    have enough : used.length < middle.rest.length + 1 := by
      rw [moves.length]
      omega
    exact programLoop_complete moves derives rfl enough

theorem total_parseProgram : Total (parseProgram input) before := by
  apply total_bind total_consumeNewlines
  intro _ middle _
  apply total_bind total_get
  intro parser read got
  obtain ⟨rfl, rfl⟩ := returns_get_iff.mp got
  exact total_programLoop (Nat.lt_succ_self _)

theorem parseTokens_ok_iff {tokens : List Token} {program : Program} :
    (parseTokens input tokens).outcome = some (.ok program) ↔
      ∃ after, Returns (parseProgram input) { consumed := [], rest := tokens } program after := by
  unfold parseTokens Scan.outcome Returns
  rw [ExceptT.run_mk, Option.map_eq_some_iff]
  constructor
  · intro ran
    obtain ⟨⟨result, after⟩, returned, rfl⟩ := ran
    exact ⟨after, returned⟩
  · intro ran
    obtain ⟨after, returned⟩ := ran
    exact ⟨_, returned, rfl⟩

theorem parseTokens_total {tokens : List Token} : (parseTokens input tokens).outcome ≠ none := by
  unfold parseTokens Scan.outcome
  rw [ExceptT.run_mk, Ne, Option.map_eq_none_iff]
  exact total_parseProgram

end TinySandbox.Shell
