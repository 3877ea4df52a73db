/-
This file gives calls that share one cursor. A call reads the cursor when it is issued and moves it
when it settles, and other calls may settle in between.
-/

import Mathlib.Tactic

namespace TinySandbox.Library.Cursor

/-- A call covers so many places from its offset on. -/
structure Range where
  offset : Nat
  count : Nat
  deriving DecidableEq

def Range.Holds (range : Range) (place : Nat) : Prop :=
  range.offset ≤ place ∧ place < range.offset + range.count

/-- No place is in two of the ranges, and together they are the places from start to stop. -/
structure Tiles (start stop : Nat) (ranges : List Range) : Prop where
  disjoint : ranges.Pairwise fun first second => ∀ place, first.Holds place → ¬ second.Holds place
  covers : ∀ place, (∃ range ∈ ranges, range.Holds place) ↔ start ≤ place ∧ place < stop

/-- A call is issued at an offset, and it settles with a count. -/
inductive Mark (ι : Type) where
  | issue (call : ι) (offset : Nat)
  | settle (call : ι) (count : Nat)
  deriving DecidableEq

/-- These are the offsets of the issued calls and the ranges of the settled ones. -/
structure Calls (ι : Type) where
  offsets : ι → Option Nat
  ranges : List Range

section Marks
variable {ι : Type}

def Mark.count : Mark ι → Nat
  | .issue _ _ => 0
  | .settle _ count => count

/-- The cursor moves by the counts of the settled calls. -/
def moved (marks : List (Mark ι)) : Nat := (marks.map Mark.count).sum

/-- Some call settles with a count while a call waits that settles with a count itself. -/
def Overtaken (marks : List (Mark ι)) : Prop :=
  ∃ before between after call offset count other passed,
    marks = before ++ .issue call offset :: (between ++ .settle call count :: after) ∧
      0 < count ∧ Mark.settle other passed ∈ between ∧ 0 < passed

@[simp] theorem moved_nil : moved ([] : List (Mark ι)) = 0 := rfl

@[simp] theorem moved_append (first second : List (Mark ι)) :
    moved (first ++ second) = moved first + moved second := by
  simp [moved]

@[simp] theorem moved_cons (mark : Mark ι) (marks : List (Mark ι)) :
    moved (mark :: marks) = mark.count + moved marks := by
  simp [moved]

/-- The cursor stays when no call settles with a count. -/
theorem exists_settle_of_moved {marks : List (Mark ι)} (moves : 0 < moved marks) :
    ∃ other passed, Mark.settle other passed ∈ marks ∧ 0 < passed := by
  induction marks with
  | nil => cases moves
  | cons mark marks ih =>
      rw [moved_cons] at moves
      by_cases here : 0 < mark.count
      · cases mark with
        | issue call offset => cases here
        | settle call count => exact ⟨call, count, List.mem_cons_self, here⟩
      · obtain ⟨other, passed, inside, positive⟩ := ih (by omega)
        exact ⟨other, passed, List.mem_cons_of_mem _ inside, positive⟩

theorem moved_pos {marks : List (Mark ι)} {other : ι} {passed : Nat}
    (inside : Mark.settle other passed ∈ marks) (positive : 0 < passed) : 0 < moved marks := by
  obtain ⟨before, after, rfl⟩ := List.append_of_mem inside
  rw [moved_append, moved_cons]
  have counted : (Mark.settle other passed).count = passed := rfl
  omega

/-- A mark in a longer list is the last one, or it is in the shorter list. -/
theorem snoc_eq_append_cons {marks before after : List (Mark ι)} {mark found : Mark ι}
    (same : marks ++ [mark] = before ++ found :: after) :
    (after = [] ∧ marks = before ∧ mark = found) ∨
      ∃ rest, after = rest ++ [mark] ∧ marks = before ++ found :: rest := by
  rcases List.eq_nil_or_concat after with rfl | ⟨rest, last, rfl⟩
  · obtain ⟨rfl, last⟩ := List.append_inj' same rfl
    exact .inl ⟨rfl, rfl, (List.cons.inj last).1⟩
  · rw [List.concat_eq_append, ← List.cons_append, ← List.append_assoc] at same
    obtain ⟨rfl, last'⟩ := List.append_inj' same rfl
    obtain rfl := (List.cons.inj last').1
    exact .inr ⟨rest, List.concat_eq_append, rfl⟩

theorem Overtaken.snoc {marks : List (Mark ι)} (overtaken : Overtaken marks) (mark : Mark ι) :
    Overtaken (marks ++ [mark]) := by
  obtain ⟨before, between, after, call, offset, count, other, passed, rfl, rest⟩ := overtaken
  refine ⟨before, between, after ++ [mark], call, offset, count, other, passed, ?_, rest⟩
  simp

theorem overtaken_issue_iff {marks : List (Mark ι)} {call : ι} {offset : Nat} :
    Overtaken (marks ++ [.issue call offset]) ↔ Overtaken marks := by
  constructor
  · intro overtaken
    obtain ⟨before, between, after, waiting, offset', count, other, passed, same, rest⟩ := overtaken
    rw [← List.cons_append, ← List.append_assoc] at same
    rcases snoc_eq_append_cons same with ⟨-, -, impossible⟩ | ⟨behind, rfl, earlier⟩
    · cases impossible
    · refine ⟨before, between, behind, waiting, offset', count, other, passed, ?_, rest⟩
      rw [earlier]
      simp
  · intro overtaken
    exact overtaken.snoc _

end Marks

section Shared
variable {ι : Type} [DecidableEq ι]

namespace Calls

def mark (calls : Calls ι) : Mark ι → Calls ι
  | .issue call offset =>
      { calls with offsets := Function.update calls.offsets call (some offset) }
  | .settle call count =>
      { calls with
        ranges := calls.ranges ++ (calls.offsets call).toList.map fun offset => ⟨offset, count⟩ }

end Calls

/-- The calls behind the marks. -/
def callsOf (marks : List (Mark ι)) : Calls ι :=
  marks.foldl Calls.mark { offsets := fun _ => none, ranges := [] }

/-- The ranges of the calls in the order in which they settle. -/
def rangesOf (marks : List (Mark ι)) : List Range := (callsOf marks).ranges

/-- Each call reads the cursor once, when it is issued. -/
inductive Shared (start : Nat) : List (Mark ι) → Prop where
  | nothing : Shared start []
  | issue {marks : List (Mark ι)} {call : ι} (sofar : Shared start marks)
      (fresh : (callsOf marks).offsets call = none) :
      Shared start (marks ++ [.issue call (start + moved marks)])
  | settle {marks : List (Mark ι)} {call : ι} {offset : Nat} (sofar : Shared start marks)
      (issued : (callsOf marks).offsets call = some offset) (count : Nat) :
      Shared start (marks ++ [.settle call count])

variable {start offset count : Nat} {marks before after : List (Mark ι)} {call : ι}

theorem callsOf_snoc (marks : List (Mark ι)) (mark : Mark ι) :
    callsOf (marks ++ [mark]) = (callsOf marks).mark mark := by
  unfold callsOf
  rw [List.foldl_append]
  rfl

theorem rangesOf_issue (marks : List (Mark ι)) (call : ι) (offset : Nat) :
    rangesOf (marks ++ [.issue call offset]) = rangesOf marks := by
  unfold rangesOf
  rw [callsOf_snoc]
  rfl

theorem rangesOf_settle (issued : (callsOf marks).offsets call = some offset) (count : Nat) :
    rangesOf (marks ++ [.settle call count]) = rangesOf marks ++ [⟨offset, count⟩] := by
  unfold rangesOf
  rw [callsOf_snoc, Calls.mark, issued]
  rfl

theorem offsets_issue (marks : List (Mark ι)) (call other : ι) (offset : Nat) :
    (callsOf (marks ++ [.issue call offset])).offsets other =
      if other = call then some offset else (callsOf marks).offsets other := by
  rw [callsOf_snoc]
  exact Function.update_apply _ _ _ _

theorem offsets_settle (marks : List (Mark ι)) (call : ι) (count : Nat) :
    (callsOf (marks ++ [.settle call count])).offsets = (callsOf marks).offsets := by
  rw [callsOf_snoc]
  rfl

/-- A call that has an offset was issued when the cursor was there. -/
theorem Shared.issued (shared : Shared start marks)
    (issued : (callsOf marks).offsets call = some offset) :
    ∃ before after, marks = before ++ .issue call offset :: after ∧
      offset = start + moved before := by
  induction shared with
  | nothing => cases issued
  | @issue marks other sofar fresh ih =>
      rw [offsets_issue] at issued
      by_cases same : call = other
      · subst same
        rw [if_pos rfl] at issued
        cases issued
        exact ⟨marks, [], rfl, rfl⟩
      · rw [if_neg same] at issued
        obtain ⟨before, after, rfl, placed⟩ := ih issued
        exact ⟨before, _, List.append_assoc _ _ _, placed⟩
  | @settle marks other offset' sofar known count ih =>
      rw [offsets_settle] at issued
      obtain ⟨before, after, rfl, placed⟩ := ih issued
      exact ⟨before, _, List.append_assoc _ _ _, placed⟩

/-- A call is issued only once, when the cursor is at its offset. -/
theorem Shared.offsets (shared : Shared start marks)
    (issued : marks = before ++ .issue call offset :: after) :
    (callsOf marks).offsets call = some offset ∧ offset = start + moved before := by
  induction shared generalizing after with
  | nothing => exact absurd issued.symm (by simp)
  | @issue marks other sofar fresh ih =>
      rw [offsets_issue]
      rcases snoc_eq_append_cons issued with ⟨rfl, rfl, same⟩ | ⟨rest, rfl, earlier⟩
      · cases same
        exact ⟨if_pos rfl, rfl⟩
      · obtain ⟨known, placed⟩ := ih earlier
        have different : call ≠ other := by
          intro same
          subst same
          rw [known] at fresh
          cases fresh
        exact ⟨(if_neg different).trans known, placed⟩
  | @settle marks other offset' sofar known count ih =>
      rw [offsets_settle]
      rcases snoc_eq_append_cons issued with ⟨rfl, rfl, same⟩ | ⟨rest, rfl, earlier⟩
      · cases same
      · exact ih earlier

/-- A call that settles is overtaken when the cursor has moved since it was issued. -/
theorem Shared.overtaken_settle_iff (shared : Shared start marks)
    (issued : (callsOf marks).offsets call = some offset) :
    Overtaken (marks ++ [.settle call count]) ↔
      Overtaken marks ∨ (0 < count ∧ offset < start + moved marks) := by
  constructor
  · intro overtaken
    obtain ⟨before, between, after, waiting, offset', count', other, passed, same, positive,
      inside, passes⟩ := overtaken
    rw [← List.cons_append, ← List.append_assoc] at same
    rcases snoc_eq_append_cons same with ⟨-, whole, settles⟩ | ⟨behind, rfl, earlier⟩
    · cases settles
      obtain ⟨known, placed⟩ := shared.offsets whole
      obtain rfl := Option.some.inj (issued.symm.trans known)
      have further := moved_pos inside passes
      rw [whole, moved_append, moved_cons]
      exact .inr ⟨positive, by omega⟩
    · refine .inl ⟨before, between, behind, waiting, offset', count', other, passed, ?_, positive,
        inside, passes⟩
      rw [earlier]
      simp
  · intro cases'
    rcases cases' with overtaken | ⟨positive, behind⟩
    · exact overtaken.snoc _
    · obtain ⟨before, after, rfl, placed⟩ := shared.issued issued
      have moves : 0 < moved after := by
        rw [moved_append, moved_cons] at behind
        have counted : (Mark.issue call offset).count = 0 := rfl
        omega
      obtain ⟨other, passed, inside, passes⟩ := exists_settle_of_moved moves
      exact ⟨before, after, [], call, offset, count, other, passed, by simp, positive, inside,
        passes⟩

theorem Tiles.nothing (start : Nat) : Tiles start start [] := by
  refine ⟨List.Pairwise.nil, ?_⟩
  intro place
  constructor
  · intro held
    obtain ⟨range, inside, -⟩ := held
    exact absurd inside List.not_mem_nil
  · intro between
    omega

/-- A range at the end of a tiling, or an empty range, keeps the tiling. -/
theorem Tiles.add {stop : Nat} {ranges : List Range} (tiles : Tiles start stop ranges)
    (above : start ≤ stop) (fits : count = 0 ∨ offset = stop) :
    Tiles start (stop + count) (ranges ++ [⟨offset, count⟩]) := by
  constructor
  · refine List.pairwise_append.mpr ⟨tiles.disjoint, List.pairwise_singleton _ _, ?_⟩
    intro range inside last same place held further
    obtain rfl := List.mem_singleton.mp same
    have bounds := (tiles.covers place).mp ⟨range, inside, held⟩
    unfold Range.Holds at further
    dsimp only at further
    omega
  · intro place
    constructor
    · intro held
      obtain ⟨range, inside, held⟩ := held
      rcases List.mem_append.mp inside with old | new
      · have bounds := (tiles.covers place).mp ⟨range, old, held⟩
        omega
      · obtain rfl := List.mem_singleton.mp new
        unfold Range.Holds at held
        dsimp only at held
        omega
    · intro bounds
      by_cases old : place < stop
      · obtain ⟨range, inside, held⟩ := (tiles.covers place).mpr ⟨bounds.1, old⟩
        exact ⟨range, List.mem_append_left _ inside, held⟩
      · refine ⟨_, List.mem_append_right _ List.mem_cons_self, ?_⟩
        unfold Range.Holds
        dsimp only
        omega

/-- The ranges of calls that are not overtaken tile what the cursor moves over. -/
theorem Shared.tiles (shared : Shared start marks) (quiet : ¬ Overtaken marks) :
    Tiles start (start + moved marks) (rangesOf marks) := by
  induction shared with
  | nothing => exact Tiles.nothing start
  | issue sofar fresh ih =>
      rw [overtaken_issue_iff] at quiet
      rw [rangesOf_issue, moved_append]
      exact ih quiet
  | @settle marks call offset sofar issued count ih =>
      rw [sofar.overtaken_settle_iff issued, not_or] at quiet
      obtain ⟨before, after, whole, placed⟩ := sofar.issued issued
      have inside : moved before ≤ moved marks := by
        rw [whole, moved_append]
        exact Nat.le_add_right _ _
      have ends : moved [Mark.settle call count] = count := Nat.add_zero count
      rw [rangesOf_settle issued, moved_append, ends, ← Nat.add_assoc]
      exact (ih quiet.1).add (Nat.le_add_right _ _) (by omega)

/-- Calls whose ranges are disjoint are not overtaken. -/
theorem Shared.quiet (shared : Shared start marks)
    (disjoint : (rangesOf marks).Pairwise fun first second =>
      ∀ place, first.Holds place → ¬ second.Holds place) : ¬ Overtaken marks := by
  induction shared with
  | nothing =>
      intro overtaken
      obtain ⟨before, between, after, call, offset, count, other, passed, same, -⟩ := overtaken
      exact absurd same.symm (by simp)
  | issue sofar fresh ih =>
      rw [overtaken_issue_iff]
      rw [rangesOf_issue] at disjoint
      exact ih disjoint
  | @settle marks call offset sofar issued count ih =>
      rw [rangesOf_settle issued, List.pairwise_append] at disjoint
      have quiet := ih disjoint.1
      rw [sofar.overtaken_settle_iff issued]
      intro overtaken
      rcases overtaken with earlier | ⟨positive, behind⟩
      · exact quiet earlier
      · obtain ⟨before, after, whole, placed⟩ := sofar.issued issued
        -- The first place of the late call belongs to a call that overtook it.
        obtain ⟨range, inside, held⟩ := ((sofar.tiles quiet).covers offset).mpr
          ⟨by omega, behind⟩
        refine disjoint.2.2 range inside _ List.mem_cons_self offset held ?_
        exact ⟨Nat.le_refl _, Nat.lt_add_of_pos_right positive⟩

theorem Shared.tiles_iff (shared : Shared start marks) :
    Tiles start (start + moved marks) (rangesOf marks) ↔ ¬ Overtaken marks :=
  ⟨fun tiles => shared.quiet tiles.disjoint, shared.tiles⟩

end Shared

end TinySandbox.Library.Cursor
