/-
This file shows that the expander cuts words into the fields of their marks.
The loop over segments and parts is one scan over the marks of the whole word.
-/

import TinySandbox.Library.SplitAfter
import TinySandbox.Proof.Shell.Costs
import TinySandbox.Specification.ShellWords

namespace TinySandbox.Shell
open Library Budget

/-- What one mark does to the fields. -/
def scanMark (state : Fields) : Mark → Fields
  | .anchor => { state with keep := true }
  | .text symbol => { state with current := state.current ++ [symbol], keep := true }
  | .separator =>
      if state.keep then { fields := state.fields ++ [state.current], current := [], keep := false }
      else state

def scanMarks (state : Fields) (marks : List Mark) : Fields := marks.foldl scanMark state

/-- The number of the fields that the marks end. -/
def ended (state : Fields) : List Mark → Nat
  | [] => 0
  | mark :: marks =>
      (if mark = .separator ∧ state.keep then 1 else 0) + ended (scanMark state mark) marks

def finish (state : Fields) : List Text :=
  if state.keep then state.fields ++ [state.current] else state.fields

section Scan
variable {state : Fields}

theorem scanMarks_append (state : Fields) (first second : List Mark) :
    scanMarks state (first ++ second) = scanMarks (scanMarks state first) second :=
  List.foldl_append

theorem ended_append (state : Fields) (first second : List Mark) :
    ended state (first ++ second) = ended state first + ended (scanMarks state first) second := by
  induction first generalizing state with
  | nil => exact (Nat.zero_add _).symm
  | cons mark first ih =>
      rw [List.cons_append, ended, ended, ih, Nat.add_assoc]
      rfl

/-- Text only makes the current field longer. -/
theorem scanMarks_text (state : Fields) (text : Text) :
    scanMarks state (text.map .text) =
        { state with current := state.current ++ text, keep := state.keep || text ≠ [] } ∧
      ended state (text.map .text) = 0 := by
  induction text generalizing state with
  | nil => simp [scanMarks, ended]
  | cons symbol text ih =>
      obtain ⟨scanned, none⟩ := ih (scanMark state (.text symbol))
      constructor
      · rw [List.map_cons]
        change scanMarks (scanMark state (.text symbol)) _ = _
        rw [scanned]
        simp [scanMark]
      · rw [List.map_cons, ended, none]
        simp

theorem length_scanMarks (state : Fields) (marks : List Mark) :
    (scanMarks state marks).fields.length = state.fields.length + ended state marks := by
  induction marks generalizing state with
  | nil => rfl
  | cons mark marks ih =>
      change (scanMarks (scanMark state mark) marks).fields.length = _
      rw [ih, ended, ← Nat.add_assoc]
      congr 1
      cases mark with
      | anchor => rfl
      | text symbol => rfl
      | separator =>
          rw [scanMark]
          split_ifs with keep
          all_goals simp_all

theorem textOf_append (first second : List Mark) :
    textOf (first ++ second) = textOf first ++ textOf second :=
  List.filterMap_append

theorem piecesOf_separator (marks : List Mark) :
    piecesOf (.separator :: marks) = [] :: piecesOf marks := by
  unfold piecesOf
  rw [List.splitOnP_cons_eq_if_modifyHead, if_pos (decide_eq_true rfl)]

theorem piecesOf_other {mark : Mark} (other : mark ≠ .separator) (marks : List Mark) :
    piecesOf (mark :: marks) = (piecesOf marks).modifyHead (mark :: ·) := by
  unfold piecesOf
  rw [List.splitOnP_cons_eq_if_modifyHead, if_neg (by simpa using other)]

/-- A mark that is no separator belongs to the open piece, which it keeps. -/
theorem scanMark_other {mark : Mark} {opened : List Mark} (other : mark ≠ .separator)
    (current : state.current = textOf opened) :
    (scanMark state mark).fields = state.fields ∧
      (scanMark state mark).current = textOf (opened ++ [mark]) ∧
      (scanMark state mark).keep = kept (opened ++ [mark]) := by
  rw [textOf_append, ← current]
  cases mark with
  | anchor => simp [scanMark, textOf, kept]
  | text symbol => simp [scanMark, textOf, kept]
  | separator => exact absurd rfl other

/-- The fields of a scan are the pieces of its marks, and the first piece goes on with the one that
is open. -/
theorem finish_scanMarks (opened marks : List Mark) (current : state.current = textOf opened)
    (keep : state.keep = kept opened) :
    finish (scanMarks state marks) = state.fields ++
      (((piecesOf marks).modifyHead (opened ++ ·)).filter kept).map textOf := by
  induction marks generalizing state opened with
  | nil =>
      change finish state = _
      rw [piecesOf, List.splitOnP_nil, List.modifyHead_cons, List.append_nil, finish, keep]
      split_ifs with kept_opened
      · rw [List.filter_cons_of_pos kept_opened, current]
        rfl
      · rw [List.filter_cons_of_neg kept_opened]
        simp
  | cons mark marks ih =>
      change finish (scanMarks (scanMark state mark) marks) = _
      by_cases separates : mark = .separator
      · subst separates
        rw [piecesOf_separator, List.modifyHead_cons, List.append_nil]
        have same : (piecesOf marks).modifyHead (([] : List Mark) ++ ·) = piecesOf marks := by
          cases piecesOf marks <;> rfl
        cases ends : state.keep with
        | true =>
            have next : scanMark state .separator =
                { fields := state.fields ++ [state.current], current := [], keep := false } :=
              if_pos ends
            rw [ends] at keep
            rw [next, ih [] rfl rfl, same, List.filter_cons_of_pos keep.symm, List.map_cons,
              List.append_assoc, current]
            rfl
        | false =>
            have next : scanMark state .separator = state := if_neg (Bool.eq_false_iff.mp ends)
            rw [ends] at keep
            have nothing : textOf opened = [] := by
              by_contra text
              have kept_opened : kept opened = true := decide_eq_true (.inl text)
              rw [kept_opened] at keep
              cases keep
            rw [next, ih [] (current.trans nothing) ends, same, List.filter_cons_of_neg (by
              rw [← keep]
              exact Bool.false_ne_true)]
      · obtain ⟨fields, text, keeps⟩ := scanMark_other separates current
        rw [ih (opened ++ [mark]) text keeps, fields, piecesOf_other separates,
          List.modifyHead_modifyHead]
        simp only [Function.comp_def, List.append_assoc, List.singleton_append]

end Scan

section Parts
variable {state : Fields}

theorem splitInclusive_eq (value : Text) :
    splitInclusive value = splitAfter isFieldSeparator value := by
  induction value with
  | nil => rfl
  | cons symbol rest ih =>
      rw [splitInclusive, splitAfter, ih]
      cases splitAfter isFieldSeparator rest <;> rfl

theorem map_markOf_free {body : Text} (free : Free isFieldSeparator body) :
    body.map markOf = body.map .text := by
  apply List.map_congr_left
  intro symbol member
  rw [markOf, free symbol member, if_neg Bool.false_ne_true]

/-- A part without a separator at its end goes into the current field. -/
theorem splitPart_free {body : Text} (free : Free isFieldSeparator body) :
    Costs (splitPart state body) 0 (scanMarks state (body.map markOf)) := by
  have last : (body.getLast?.map isFieldSeparator).getD false = false := by
    cases found : body.getLast? with
    | none => rfl
    | some symbol => exact free symbol (List.mem_of_getLast? found)
  rw [map_markOf_free free, (scanMarks_text state body).1]
  unfold splitPart
  rw [last]
  exact Costs.pure _

/-- The separator at the end of a part ends a field that is kept. -/
theorem splitPart_stopped {body : Text} {symbol : Char} (free : Free isFieldSeparator body)
    (stops : isFieldSeparator symbol = true) :
    Costs (splitPart state (body ++ [symbol]))
      (sizeOfString * ended state ((body ++ [symbol]).map markOf))
      (scanMarks state ((body ++ [symbol]).map markOf)) := by
  have separator : markOf symbol = .separator := if_pos stops
  have step : splitPart state (body ++ [symbol]) =
      if state.keep || decide (body ≠ []) then
        pushField { state with
          current := state.current ++ body, keep := state.keep || decide (body ≠ []) }
      else pure { state with
        current := state.current ++ body, keep := state.keep || decide (body ≠ []) } := by
    simp [splitPart, stops]
  obtain ⟨scanned, none⟩ := scanMarks_text state body
  rw [List.map_append, List.map_singleton, separator, map_markOf_free free, scanMarks_append,
    ended_append, scanned, none, Nat.zero_add, step]
  cases state.keep || decide (body ≠ []) with
  | true =>
      have pushed : Costs (pushField { state with current := state.current ++ body, keep := true })
          sizeOfString
          { fields := state.fields ++ [state.current ++ body], current := [], keep := false } :=
        (Costs.charge _).map _
      exact pushed
  | false => exact Costs.pure _

/-- The loop over the parts of a value is a scan over its marks. -/
theorem costs_parts (state : Fields) (value : Text) :
    Costs ((splitInclusive value).foldlM splitPart state)
      (sizeOfString * ended state (value.map markOf)) (scanMarks state (value.map markOf)) := by
  rw [splitInclusive_eq]
  induction value using parts_induction isFieldSeparator generalizing state with
  | nil => exact Costs.pure state
  | free body free more =>
      have none : ended state (body.map markOf) = 0 := by
        rw [map_markOf_free free]
        exact (scanMarks_text state body).2
      rw [splitAfter_free free more, none]
      exact (splitPart_free free).bind (Costs.pure _)
  | cut body symbol tail free stops ih =>
      have cut : body ++ symbol :: tail = (body ++ [symbol]) ++ tail := by simp
      rw [splitAfter_cut free stops, List.foldlM_cons, cut, List.map_append, scanMarks_append,
        ended_append, Nat.mul_add]
      apply (splitPart_stopped free stops).bind
      exact ih _

end Parts

section Words
variable {env : Env} {status : Int}

theorem segmentValue_eq (split : Bool) (segment : Segment) :
    segmentValue env status split segment =
      (segmentText env status segment, split && splittable segment) := by
  cases segment with
  | literal value quoted => simp [segmentValue, segmentText, splittable]
  | expansion name quoted => rfl

/-- A segment is charged for its value and for the fields that it ends. -/
theorem costs_splitSegment (env : Env) (status : Int) (state : Fields) (segment : Segment) :
    Costs (expandSegment env status true state segment)
      (utf8Len (segmentText env status segment) +
        sizeOfString * ended state (marksOf env status segment))
      (scanMarks state (marksOf env status segment)) := by
  unfold expandSegment marksOf
  rw [segmentValue_eq, Bool.true_and]
  apply Costs.charged
  cases splittable segment with
  | true => exact costs_parts state _
  | false =>
      obtain ⟨scanned, none⟩ := scanMarks_text (scanMark state .anchor) (segmentText env status segment)
      rw [if_neg Bool.false_ne_true, if_neg Bool.false_ne_true]
      change Costs _ (sizeOfString * (0 + ended (scanMark state .anchor) _))
        (scanMarks (scanMark state .anchor) _)
      rw [scanned, none]
      exact Costs.pure _

theorem costs_plainSegment (env : Env) (status : Int) (state : Fields) (segment : Segment) :
    Costs (expandSegment env status false state segment) (utf8Len (segmentText env status segment))
      { state with
        current := state.current ++ segmentText env status segment
        keep := true } := by
  unfold expandSegment
  rw [segmentValue_eq, Bool.false_and]
  exact (Costs.charge _).map _

/-- The loop over the segments is a scan over the marks of the word. -/
theorem costs_splitSegments (env : Env) (status : Int) (segments : List Segment) (state : Fields) :
    Costs (segments.foldlM (expandSegment env status true) state)
      (utf8Len (segments.flatMap (segmentText env status)) +
        sizeOfString * ended state (segments.flatMap (marksOf env status)))
      (scanMarks state (segments.flatMap (marksOf env status))) := by
  induction segments generalizing state with
  | nil => exact Costs.pure state
  | cons segment segments ih =>
      have sum : utf8Len ((segment :: segments).flatMap (segmentText env status)) +
            sizeOfString * ended state ((segment :: segments).flatMap (marksOf env status)) =
          (utf8Len (segmentText env status segment) +
              sizeOfString * ended state (marksOf env status segment)) +
            (utf8Len (segments.flatMap (segmentText env status)) +
              sizeOfString * ended (scanMarks state (marksOf env status segment))
                (segments.flatMap (marksOf env status))) := by
        rw [List.flatMap_cons, List.flatMap_cons, utf8Len_append, ended_append]
        ring
      rw [sum, List.foldlM_cons, List.flatMap_cons, scanMarks_append]
      apply (costs_splitSegment env status state segment).bind
      exact ih _

theorem costs_plainSegments (env : Env) (status : Int) (segments : List Segment) (state : Fields) :
    Costs (segments.foldlM (expandSegment env status false) state)
      (utf8Len (segments.flatMap (segmentText env status)))
      { state with
        current := state.current ++ segments.flatMap (segmentText env status)
        keep := state.keep || ! segments.isEmpty } := by
  induction segments generalizing state with
  | nil =>
      rw [List.flatMap_nil, List.append_nil, List.isEmpty_nil, Bool.not_true, Bool.or_false]
      exact Costs.pure state
  | cons segment segments ih =>
      rw [List.foldlM_cons, List.flatMap_cons, utf8Len_append]
      apply (costs_plainSegment env status state segment).bind
      have later := ih { state with
        current := state.current ++ segmentText env status segment, keep := true }
      simpa using later

/-- A word that is split is charged for its values and for its fields. -/
def wordCost (env : Env) (status : Int) (word : Word) : Nat :=
  utf8Len (plainText env status word) + sizeOfString * (fieldsOf env status word).length

theorem costs_splitWord (env : Env) (status : Int) (word : Word) :
    Costs (Budget.word word env status true) (wordCost env status word) (fieldsOf env status word) := by
  let marks := word.segments.flatMap (marksOf env status)
  let start : Fields := { keep := ! true }
  have same : (piecesOf marks).modifyHead (([] : List Mark) ++ ·) = piecesOf marks := by
    cases piecesOf marks <;> rfl
  have fields : finish (scanMarks start marks) = fieldsOf env status word := by
    have scanned := @finish_scanMarks start [] marks rfl rfl
    rw [same] at scanned
    exact scanned
  have length : (scanMarks start marks).fields.length = ended start marks := by
    rw [length_scanMarks]
    exact Nat.zero_add _
  have segments := costs_splitSegments env status word.segments start
  unfold Budget.word wordCost
  cases keep : (scanMarks start marks).keep with
  | true =>
      rw [finish, if_pos keep] at fields
      have cost : utf8Len (plainText env status word) +
            sizeOfString * (fieldsOf env status word).length =
          utf8Len (plainText env status word) + sizeOfString * ended start marks +
            sizeOfString := by
        rw [← fields, List.length_append, length, List.length_singleton]
        ring
      rw [cost]
      apply segments.bind
      rw [if_pos keep, ← fields]
      have pushed : Costs (pushField (scanMarks start marks)) sizeOfString _ := (Costs.charge _).map _
      exact pushed.map _
  | false =>
      rw [finish, if_neg (Bool.eq_false_iff.mp keep)] at fields
      rw [← fields, length, ← Nat.add_zero (_ + _)]
      apply segments.bind
      rw [if_neg (Bool.eq_false_iff.mp keep)]
      exact Costs.pure _

theorem costs_plainWord (env : Env) (status : Int) (word : Word) :
    Costs (Budget.word word env status false)
      (utf8Len (plainText env status word) + sizeOfString) [plainText env status word] := by
  unfold Budget.word
  apply (costs_plainSegments env status word.segments { keep := ! false }).bind
  have pushed : Costs (pushField {
        fields := []
        current := [] ++ plainText env status word
        keep := true || ! word.segments.isEmpty }) sizeOfString
      { fields := [plainText env status word], current := [], keep := false } :=
    (Costs.charge _).map _
  exact pushed.map _

end Words

section Commands
variable {status : Int}

/-- An assignment is charged for its name, its value and the field of the value. -/
def assignCost (status : Int) (env : Env) (assignment : Assignment) : Nat :=
  sizeOfString + (utf8Len assignment.name +
    (utf8Len (plainText env status assignment.value) + sizeOfString))

theorem costs_assign (status : Int) (env : Env) (assignment : Assignment) :
    Costs (Budget.assign status env assignment) (assignCost status env assignment)
      (assigned status env assignment) := by
  unfold Budget.assign
  apply Costs.charged
  apply Costs.charged
  rw [← Nat.add_zero (_ + _)]
  apply (costs_plainWord env status assignment.value).bind
  exact Costs.pure (assigned status env assignment)

def targetCost (env : Env) (status : Int) (redirect : Redirect) : Nat :=
  sizeOfString + match redirect.target with
    | .word target => wordCost env status target
    | .fd _ => 0

theorem costs_expandTarget (env : Env) (status : Int) (redirect : Redirect) :
    Costs (Budget.expandTarget env status redirect) (targetCost env status redirect)
      (targetOf env status redirect) := by
  unfold Budget.expandTarget targetCost targetOf
  apply Costs.charged
  cases redirect.target with
  | word target => exact costs_splitWord env status target
  | fd fd => exact Costs.pure _

/-- The cost of a command under the budget of its pipeline. -/
def expandCost (command : SimpleCommand) (base : Env) (status : Int) : Nat :=
  sizeOfExpandedCommand + (envCost base.entries +
    (foldCost (assignCost status) (assigned status) base command.assignments +
      ((command.words.map (wordCost base status)).sum +
        (command.redirects.map (targetCost
          (if (expansionOf command base status).words = [] then (expansionOf command base status).env
            else base) status)).sum)))

theorem costs_expandCommand (command : SimpleCommand) (base : Env) (status : Int) :
    Costs (Budget.expand command base status) (expandCost command base status)
      (expansionOf command base status) := by
  unfold Budget.expand
  apply Costs.charged
  apply (costs_chargeEnv base.entries).bind
  apply (Costs.foldlM (costs_assign status) command.assignments base).bind
  apply (Costs.mapM fun word _ => costs_splitWord base status word).bind
  exact (Costs.mapM fun redirect _ => costs_expandTarget _ status redirect).map _

/-- A sufficient budget is one that covers the cost. A split word gives the pieces of its marks that
are kept, and a word that is not split gives one field. -/
theorem word_expansion (word : Word) (env : Env) (status : Int) (command : SimpleCommand)
    (base : Env) :
    (∃ cost, Costs (Budget.word word env status true) cost (fieldsOf env status word)) ∧
    (∃ cost, Costs (Budget.word word env status false) cost [plainText env status word]) ∧
    ∃ cost, Costs (Budget.expand command base status) cost (expansionOf command base status) :=
  ⟨⟨_, costs_splitWord env status word⟩, ⟨_, costs_plainWord env status word⟩,
    ⟨_, costs_expandCommand command base status⟩⟩

end Commands
end TinySandbox.Shell
