/-
This file shows what the captured output keeps: everything up to the cap, and beyond it both
ends around the marker. The split of the output into writes does not matter.
-/

import Mathlib.Data.List.DropRight
import Mathlib.Tactic
import TinySandbox.Construction.Sandbox.CappedOutput

namespace TinySandbox.Sandbox
namespace CappedOutput

section Windows
variable {α : Type}

theorem length_rtake (symbols : List α) (count : Nat) :
    (symbols.rtake count).length = min count symbols.length := by
  rw [List.rtake, List.length_drop]
  omega

/-- A window of the last elements needs the earlier ones only as far as its own length. -/
theorem rtake_append_window (before after : List α) (count : Nat) :
    (before.rtake count ++ after).rtake count = (before ++ after).rtake count := by
  simp only [List.rtake, List.length_append, List.length_drop, List.drop_append, List.drop_drop]
  congr 1
  · congr 1
    omega
  · congr 1
    omega

/-- A window does not reach into a prefix that it leaves enough elements beside. -/
theorem rtake_drop (symbols : List α) {dropped count : Nat}
    (room : dropped + count ≤ symbols.length) :
    (symbols.drop dropped).rtake count = symbols.rtake count := by
  rw [List.rtake, List.rtake, List.length_drop, List.drop_drop]
  congr 1
  omega

end Windows

section Tails
variable {output : CappedOutput} {data : Bytes} {limit : Nat}

theorem pushTail_tail (small : output.tail.length ≤ limit) :
    (output.pushTail data limit).tail = (output.tail ++ data).rtake limit := by
  unfold pushTail
  split_ifs with none long
  · subst none
    rw [List.rtake_zero]
    exact List.length_eq_zero_iff.mp (Nat.le_zero.mp small)
  · have passed : output.tail.length ≤ output.tail.length + data.length - limit := by omega
    rw [List.rtake, List.length_append, List.drop_append, List.drop_of_length_le passed,
      List.nil_append]
    have same : output.tail.length + data.length - limit - output.tail.length =
        data.length - limit := by omega
    rw [same]
  · rw [List.rtake, List.length_append, List.drop_append_of_le_length (by omega)]

theorem pushTail_eq : output.pushTail data limit =
    { output with tail := (output.pushTail data limit).tail } := by
  unfold pushTail
  split_ifs <;> rfl

end Tails

/-- The number of bytes that the head and the tail have together. -/
def keep (cap : Nat) : Nat := cap - truncationMarker.length

/-- What the writer holds after the bytes of `written`. -/
inductive Holds (cap : Nat) (written : Bytes) : CappedOutput → Prop where
  | whole (fits : written.length ≤ cap) :
      Holds cap written {
        cap
        total := written.length
        preTruncation := written
        head := []
        tail := []
        truncated := false }
  | marker (exceeds : cap < written.length) (small : cap ≤ truncationMarker.length)
      (total : Nat) :
      Holds cap written {
        cap, total
        preTruncation := []
        head := []
        tail := []
        truncated := true }
  | ends (exceeds : cap < written.length) (large : truncationMarker.length < cap)
      (total : Nat) :
      Holds cap written {
        cap, total
        preTruncation := []
        head := written.take (keep cap / 2)
        tail := written.rtake (keep cap - keep cap / 2)
        truncated := true }

section Writes
variable {cap : Nat} {written data : Bytes} {output : CappedOutput}

theorem keep_lt (large : truncationMarker.length < cap) : keep cap < cap := by
  have positive : 0 < truncationMarker.length := by decide
  unfold keep
  omega

/-- A truncated output keeps the ends of everything that is written. -/
theorem Holds.writeTruncated (holds : Holds cap written output) (truncated : output.truncated) :
    Holds cap (written ++ data) (output.writeTruncated data) := by
  cases holds with
  | whole fits => cases truncated
  | marker exceeds small total =>
      unfold CappedOutput.writeTruncated
      rw [if_neg (by simpa using small)]
      apply Holds.marker _ small
      rw [List.length_append]
      omega
  | ends exceeds large total =>
      unfold CappedOutput.writeTruncated
      rw [if_pos (by simpa using large), pushTail_eq, pushTail_tail]
      · have below := keep_lt large
        have longer : cap < (written ++ data).length := by
          rw [List.length_append]
          omega
        have ends := Holds.ends longer large (total + data.length)
        rw [← rtake_append_window, List.take_append_of_le_length (by omega)] at ends
        exact ends
      · change (written.rtake _).length ≤ _
        rw [length_rtake]
        exact Nat.min_le_left _ _

/-- At the cap the bytes so far become the first ends, although none of them is lost yet. -/
theorem truncate_whole (written : Bytes) (full : written.length = cap) :
    CappedOutput.truncate {
        cap
        total := written.length
        preTruncation := written
        head := []
        tail := []
        truncated := false } =
      { cap
        total := written.length
        preTruncation := []
        head := if truncationMarker.length < cap then written.take (keep cap / 2) else []
        tail :=
          if truncationMarker.length < cap then written.rtake (keep cap - keep cap / 2) else []
        truncated := true } := by
  unfold CappedOutput.truncate
  by_cases large : truncationMarker.length < cap
  · have below := keep_lt large
    have room : keep cap / 2 ≤ written.length := by omega
    simp only [if_pos large]
    rw [pushTail_eq, pushTail_tail (Nat.zero_le _)]
    simp only [List.nil_append]
    change CappedOutput.mk _ _ _ (written.take (min (keep cap / 2) written.length))
      ((written.drop (min (keep cap / 2) written.length)).rtake (keep cap - keep cap / 2)) _ = _
    rw [min_eq_left room, rtake_drop _ (by omega)]
  · simp only [if_neg large]

/-- The first byte beyond the cap is written to an output that is already cut. -/
theorem writeTruncated_full (full : written.length = cap) (more : data ≠ []) :
    Holds cap (written ++ data) (CappedOutput.writeTruncated {
      cap
      total := written.length
      preTruncation := []
      head := if truncationMarker.length < cap then written.take (keep cap / 2) else []
      tail := if truncationMarker.length < cap then written.rtake (keep cap - keep cap / 2) else []
      truncated := true } data) := by
  have positive := List.length_pos_iff.mpr more
  have exceeds : cap < (written ++ data).length := by
    rw [List.length_append]
    omega
  unfold CappedOutput.writeTruncated
  by_cases large : truncationMarker.length < cap
  · have below := keep_lt large
    simp only [if_pos large]
    rw [pushTail_eq, pushTail_tail (by
      change (written.rtake _).length ≤ _
      rw [length_rtake]
      exact Nat.min_le_left _ _)]
    have ends := Holds.ends exceeds large (written.length + data.length)
    rw [← rtake_append_window, List.take_append_of_le_length (by omega)] at ends
    exact ends
  · simp only [if_neg large]
    exact Holds.marker exceeds (Nat.le_of_not_lt large) _

theorem Holds.writeWhole (holds : Holds cap written output) (whole : output.truncated = false)
    (data : Bytes) : Holds cap (written ++ data) (output.writeWhole data) := by
  cases holds with
  | marker => cases whole
  | ends => cases whole
  | whole fits =>
      unfold CappedOutput.writeWhole
      dsimp only
      split_ifs with room
      · have appended := @Holds.whole cap (written ++ data) (by
          rw [List.length_append]
          omega)
        rw [List.length_append] at appended
        exact appended
      · have full : (written ++ data.take (cap - written.length)).length = cap := by
          rw [List.length_append, List.length_take]
          omega
        have more : data.drop (cap - written.length) ≠ [] := by
          intro none
          have short := List.drop_eq_nil_iff.mp none
          omega
        have cut := writeTruncated_full full more
        rw [List.append_assoc, List.take_append_drop, ← truncate_whole _ full] at cut
        have sum : (written ++ data.take (cap - written.length)).length =
            written.length + (cap - written.length) := by omega
        rw [sum] at cut
        exact cut

/-- The step of the invariant: a write appends its data to what is written. -/
theorem Holds.write (holds : Holds cap written output) (data : Bytes) :
    Holds cap (written ++ data) (output.write data) := by
  unfold CappedOutput.write
  split_ifs with empty truncated
  · rw [empty, List.append_nil]
    exact holds
  · exact holds.writeTruncated truncated
  · exact holds.writeWhole (Bool.not_eq_true _ ▸ truncated) data

theorem Holds.writeAll (holds : Holds cap written output) (writes : List Bytes) :
    Holds cap (written ++ writes.flatten) (output.writeAll writes) := by
  induction writes generalizing written output with
  | nil =>
      rw [List.flatten_nil, List.append_nil]
      exact holds
  | cons data rest ih =>
      rw [List.flatten_cons, ← List.append_assoc]
      exact ih (holds.write data)

theorem holds_new (cap : Nat) : Holds cap [] (new cap) :=
  Holds.whole (Nat.zero_le cap)

theorem holds_writeAll (cap : Nat) (writes : List Bytes) :
    Holds cap writes.flatten ((new cap).writeAll writes) :=
  (holds_new cap).writeAll writes

end Writes

/-- What an execution shows of its output. -/
def captured (cap : Nat) (written : Bytes) : Bytes × Bool :=
  if written.length ≤ cap then (written, false)
  else if cap ≤ truncationMarker.length then (truncationMarker, true)
  else
    (written.take (keep cap / 2) ++ truncationMarker ++ written.rtake ((keep cap + 1) / 2), true)

theorem Holds.finish {cap : Nat} {written : Bytes} {output : CappedOutput}
    (holds : Holds cap written output) : output.finish = captured cap written := by
  cases holds with
  | whole fits =>
      unfold CappedOutput.finish captured
      rw [if_pos fits]
      rfl
  | marker exceeds small total =>
      unfold CappedOutput.finish captured
      rw [if_neg (Nat.not_le_of_lt exceeds), if_pos small]
      simp [small]
  | ends exceeds large total =>
      have half : keep cap - keep cap / 2 = (keep cap + 1) / 2 := by omega
      unfold CappedOutput.finish captured
      rw [if_neg (Nat.not_le_of_lt exceeds), if_neg (Nat.not_le_of_lt large), half]
      simp [Nat.not_le_of_lt large]

theorem length_captured {cap : Nat} {written : Bytes} (exceeds : cap < written.length)
    (large : truncationMarker.length < cap) : (captured cap written).1.length = cap := by
  unfold captured
  rw [if_neg (Nat.not_le_of_lt exceeds), if_neg (Nat.not_le_of_lt large)]
  have below := keep_lt large
  have sum : keep cap + truncationMarker.length = cap := Nat.sub_add_cancel large.le
  simp only [List.length_append, List.length_take, length_rtake]
  omega

/-- The captured output is whole up to the cap. Beyond it the output is the two ends around the
marker with exactly the bytes of the cap, or the marker alone when the cap has no room for more. -/
theorem finish_writes (cap : Nat) (writes : List Bytes) :
    (writes.flatten.length ≤ cap →
      ((new cap).writeAll writes).finish = (writes.flatten, false)) ∧
    (cap < writes.flatten.length → truncationMarker.length < cap →
      ((new cap).writeAll writes).finish =
        (writes.flatten.take ((cap - truncationMarker.length) / 2) ++ truncationMarker ++
          writes.flatten.rtake ((cap - truncationMarker.length + 1) / 2), true) ∧
      ((new cap).writeAll writes).finish.1.length = cap) ∧
    (cap < writes.flatten.length → cap ≤ truncationMarker.length →
      ((new cap).writeAll writes).finish = (truncationMarker, true)) ∧
    ∀ others : List Bytes, others.flatten = writes.flatten →
      ((new cap).writeAll others).finish = ((new cap).writeAll writes).finish := by
  have shown := fun writes => (holds_writeAll cap writes).finish
  refine ⟨?_, ?_, ?_, ?_⟩
  · intro fits
    rw [shown, captured, if_pos fits]
  · intro exceeds large
    rw [shown]
    constructor
    · rw [captured, if_neg (Nat.not_le_of_lt exceeds), if_neg (Nat.not_le_of_lt large), keep]
    · exact length_captured exceeds large
  · intro exceeds small
    rw [shown, captured, if_neg (Nat.not_le_of_lt exceeds), if_pos small]
  · intro others same
    rw [shown, shown, same]

end CappedOutput
end TinySandbox.Sandbox
