/-
This file gives facts about text that is cut at a separator, and about the bytes of a character.
-/

import Mathlib.Tactic

namespace TinySandbox.Library

universe u

variable {α : Type u} [DecidableEq α]

/-- A part of a split list holds no separator and only elements of the list. -/
theorem mem_splitOn_part {separator : α} {text part : List α}
    (member : part ∈ text.splitOn separator) :
    separator ∉ part ∧ ∀ symbol ∈ part, symbol ∈ text := by
  induction text generalizing part with
  | nil =>
      obtain rfl : part = [] := by simpa using member
      simp
  | cons first rest ih =>
      rw [List.splitOn_cons_eq_if_modifyHead] at member
      by_cases cut : first = separator
      · rw [if_pos (by simpa using cut)] at member
        rcases List.mem_cons.mp member with rfl | later
        · simp
        · obtain ⟨free, inside⟩ := ih later
          exact ⟨free, fun symbol found => List.mem_cons_of_mem _ (inside symbol found)⟩
      · rw [if_neg (by simpa using cut)] at member
        obtain ⟨head, tail, parts⟩ := List.exists_cons_of_ne_nil (List.splitOn_ne_nil separator rest)
        rw [parts, List.modifyHead_cons] at member
        rcases List.mem_cons.mp member with rfl | later
        · obtain ⟨free, inside⟩ := ih (parts ▸ List.mem_cons_self : head ∈ _)
          constructor
          · simpa [List.mem_cons, Ne.symm cut] using free
          · intro symbol found
            rcases List.mem_cons.mp found with rfl | old
            · exact List.mem_cons_self
            · exact List.mem_cons_of_mem _ (inside symbol old)
        · obtain ⟨free, inside⟩ := ih (parts ▸ List.mem_cons_of_mem _ later : part ∈ _)
          exact ⟨free, fun symbol found => List.mem_cons_of_mem _ (inside symbol found)⟩

omit [DecidableEq α] in
/-- An element of a joined list comes from the separator or from a part. -/
theorem mem_intercalate {separator : List α} {parts : List (List α)} {symbol : α}
    (member : symbol ∈ separator.intercalate parts) :
    symbol ∈ separator ∨ ∃ part ∈ parts, symbol ∈ part := by
  induction parts with
  | nil => simp at member
  | cons part rest ih =>
      cases rest with
      | nil => exact .inr ⟨part, by simpa using member⟩
      | cons other rest =>
          rw [List.intercalate_cons_cons, List.mem_append, List.mem_append] at member
          rcases member with (here | between) | later
          · exact .inr ⟨part, List.mem_cons_self, here⟩
          · exact .inl between
          · rcases ih later with between | ⟨found, present, inside⟩
            · exact .inl between
            · exact .inr ⟨found, List.mem_cons_of_mem _ present, inside⟩

omit [DecidableEq α] in
/-- A joined list ends where its last part ends. -/
theorem getLast?_intercalate (separator : List α) {parts : List (List α)} {last : List α}
    (ends : parts.getLast? = some last) (filled : last ≠ []) :
    (separator.intercalate parts).getLast? = last.getLast? := by
  induction parts with
  | nil => cases ends
  | cons part rest ih =>
      cases rest with
      | nil =>
          obtain rfl : part = last := by simpa using ends
          rw [List.intercalate_singleton]
      | cons other rest =>
          have later := ih (by simpa using ends)
          have known : last.getLast? ≠ none := mt List.getLast?_eq_none_iff.mp filled
          rw [List.intercalate_cons_cons, List.getLast?_append, later]
          obtain ⟨symbol, same⟩ := Option.ne_none_iff_exists'.mp known
          rw [same, Option.some_or]

omit [DecidableEq α] in
theorem intercalate_concat (separator : List α) {parts : List (List α)} (filled : parts ≠ [])
    (last : List α) :
    separator.intercalate (parts ++ [last]) = separator.intercalate parts ++ separator ++ last := by
  induction parts with
  | nil => exact absurd rfl filled
  | cons part parts ih =>
      rw [List.cons_append, List.intercalate_cons_of_ne_nil (by simp)]
      by_cases alone : parts = []
      · subst alone
        simp
      · rw [ih alone, List.intercalate_cons_of_ne_nil alone]
        simp only [List.append_assoc]

/-- A byte below 128 is the whole of its character. -/
theorem toNat_eq_of_mem_utf8EncodeChar {symbol : Char} {byte : UInt8}
    (inside : byte ∈ String.utf8EncodeChar symbol) (small : byte.toNat < 128) :
    symbol.toNat = byte.toNat := by
  unfold String.utf8EncodeChar at inside
  change byte ∈ (if symbol.toNat ≤ 127 then _ else _) at inside
  split_ifs at inside with one two three <;>
    simp only [List.mem_cons, List.not_mem_nil, or_false] at inside
  · rw [inside, UInt8.toNat_ofNat']
    change symbol.toNat = symbol.toNat % _
    omega
  · rcases inside with rfl | rfl <;> rw [UInt8.toNat_ofNat'] at small <;> omega
  · rcases inside with rfl | rfl | rfl <;> rw [UInt8.toNat_ofNat'] at small <;> omega
  · rcases inside with rfl | rfl | rfl | rfl <;> rw [UInt8.toNat_ofNat'] at small <;> omega

end TinySandbox.Library
