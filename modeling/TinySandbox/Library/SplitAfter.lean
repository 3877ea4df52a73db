/-
This file gives the parts of a list that is cut behind every element that stops a part.
-/

import Mathlib.Tactic

namespace TinySandbox.Library

universe u

variable {α : Type u}

/-- Every part but the last ends with an element that stops it. -/
def splitAfter (stops : α → Bool) : List α → List (List α)
  | [] => []
  | symbol :: rest =>
      if stops symbol then [symbol] :: splitAfter stops rest
      else
        match splitAfter stops rest with
        | [] => [[symbol]]
        | part :: parts => (symbol :: part) :: parts

/-- No element of a free list stops a part. -/
def Free (stops : α → Bool) (symbols : List α) : Prop := ∀ symbol ∈ symbols, stops symbol = false

section SplitAfter
variable {stops : α → Bool} {symbol : α} {body tail symbols part : List α}

theorem splitAfter_stop (ends : stops symbol = true) (rest : List α) :
    splitAfter stops (symbol :: rest) = [symbol] :: splitAfter stops rest := by
  rw [splitAfter, if_pos ends]

/-- The first part of a free prefix goes on in what follows. -/
theorem splitAfter_free_append (free : Free stops body) (more : body ≠ []) (tail : List α) :
    splitAfter stops (body ++ tail) =
      match splitAfter stops tail with
      | [] => [body]
      | part :: parts => (body ++ part) :: parts := by
  induction body with
  | nil => exact absurd rfl more
  | cons symbol rest ih =>
      have open_symbol : ¬ stops symbol = true := by
        rw [free symbol List.mem_cons_self]
        exact Bool.false_ne_true
      rw [List.cons_append, splitAfter, if_neg open_symbol]
      by_cases last : rest = []
      · subst last
        rfl
      · rw [ih (fun other member => free other (List.mem_cons_of_mem _ member)) last]
        cases splitAfter stops tail <;> rfl

theorem splitAfter_free (free : Free stops body) (more : body ≠ []) :
    splitAfter stops body = [body] := by
  have whole := splitAfter_free_append free more []
  rw [List.append_nil] at whole
  exact whole

theorem splitAfter_cut (free : Free stops body) (ends : stops symbol = true) (tail : List α) :
    splitAfter stops (body ++ symbol :: tail) = (body ++ [symbol]) :: splitAfter stops tail := by
  cases body with
  | nil => exact splitAfter_stop ends tail
  | cons first rest =>
      rw [splitAfter_free_append free (List.cons_ne_nil first rest), splitAfter_stop ends]

theorem flatten_splitAfter (stops : α → Bool) (symbols : List α) :
    (splitAfter stops symbols).flatten = symbols := by
  induction symbols with
  | nil => rfl
  | cons symbol rest ih =>
      rw [splitAfter]
      split_ifs with ends
      · rw [List.flatten_cons, ih]
        rfl
      · cases parts : splitAfter stops rest with
        | nil =>
            rw [parts] at ih
            rw [← ih]
            rfl
        | cons part later =>
            rw [parts, List.flatten_cons] at ih
            rw [List.flatten_cons, List.cons_append, ih]

/-- A list is a free part alone, or its first part is cut from it. -/
theorem splitAfter_cases (stops : α → Bool) (symbols : List α) :
    symbols = [] ∨ (Free stops symbols ∧ symbols ≠ []) ∨
      ∃ body symbol tail, symbols = body ++ symbol :: tail ∧ Free stops body ∧
        stops symbol = true := by
  induction symbols with
  | nil => exact .inl rfl
  | cons symbol rest ih =>
      right
      cases ends : stops symbol with
      | true =>
          right
          exact ⟨[], symbol, rest, rfl, fun _ member => absurd member List.not_mem_nil, ends⟩
      | false =>
          have extend : ∀ body, Free stops body → Free stops (symbol :: body) := by
            intro body free other member
            rcases List.mem_cons.mp member with rfl | inside
            · exact ends
            · exact free other inside
          rcases ih with rfl | ⟨free, -⟩ | ⟨body, last, tail, rfl, free, stopped⟩
          · left
            exact ⟨extend [] fun _ member => absurd member List.not_mem_nil, List.cons_ne_nil _ _⟩
          · left
            exact ⟨extend rest free, List.cons_ne_nil _ _⟩
          · right
            exact ⟨symbol :: body, last, tail, rfl, extend body free, stopped⟩

/-- The induction follows the parts: the list is empty, one free part, or a cut part before the
rest. -/
theorem parts_induction (stops : α → Bool) {motive : List α → Prop} (nil : motive [])
    (free : ∀ body, Free stops body → body ≠ [] → motive body)
    (cut : ∀ body symbol tail, Free stops body → stops symbol = true → motive tail →
      motive (body ++ symbol :: tail))
    (symbols : List α) : motive symbols := by
  rcases splitAfter_cases stops symbols with
    empty | ⟨alone, more⟩ | ⟨body, symbol, tail, split, alone, ends⟩
  · exact empty ▸ nil
  · exact free symbols alone more
  · rw [split]
    exact cut body symbol tail alone ends (parts_induction stops nil free cut tail)
termination_by symbols.length
decreasing_by
  rw [split, List.length_append, List.length_cons]
  omega

/-- The parts behind the first one are the parts of what follows it. -/
theorem splitAfter_later {later : List (List α)} (split : splitAfter stops symbols = part :: later) :
    splitAfter stops later.flatten = later := by
  rcases splitAfter_cases stops symbols with
    rfl | ⟨free, more⟩ | ⟨body, symbol, tail, rfl, free, ends⟩
  · cases split
  · rw [splitAfter_free free more] at split
    cases split
    rfl
  · rw [splitAfter_cut free ends] at split
    obtain ⟨-, rfl⟩ := List.cons.inj split
    rw [flatten_splitAfter]

/-- A part goes on up to its last element. -/
theorem free_dropLast_of_mem (member : part ∈ splitAfter stops symbols) :
    part ≠ [] ∧ Free stops part.dropLast := by
  induction symbols using parts_induction stops with
  | nil => cases member
  | free body free more =>
      rw [splitAfter_free free more, List.mem_singleton] at member
      subst member
      exact ⟨more, fun symbol inside => free symbol (List.mem_of_mem_dropLast inside)⟩
  | cut body symbol tail free ends ih =>
      rw [splitAfter_cut free ends] at member
      rcases List.mem_cons.mp member with rfl | later
      · constructor
        · exact List.append_ne_nil_of_right_ne_nil _ (List.cons_ne_nil _ _)
        · rw [List.dropLast_concat]
          exact free
      · exact ih later

/-- Every part but the last is stopped. -/
theorem stopped_of_mem_dropLast (member : part ∈ (splitAfter stops symbols).dropLast) :
    ∃ body symbol, part = body ++ [symbol] ∧ Free stops body ∧ stops symbol = true := by
  induction symbols using parts_induction stops with
  | nil => cases member
  | free body free more =>
      rw [splitAfter_free free more] at member
      cases member
  | cut body symbol tail free ends ih =>
      rw [splitAfter_cut free ends] at member
      cases later : splitAfter stops tail with
      | nil =>
          rw [later] at member
          cases member
      | cons next rest =>
          rw [later, List.dropLast_cons_cons, ← later] at member
          rcases List.mem_cons.mp member with rfl | inside
          · exact ⟨body, symbol, rfl, free, ends⟩
          · exact ih inside

theorem splitAfter_ne_nil (filled : symbols ≠ []) : splitAfter stops symbols ≠ [] := by
  intro none
  have whole := flatten_splitAfter stops symbols
  rw [none] at whole
  exact filled whole.symm

theorem splitAfter_append_stopped (front : List α) (ends : stops symbol) (tail : List α) :
    splitAfter stops (front ++ symbol :: tail) =
      splitAfter stops (front ++ [symbol]) ++ splitAfter stops tail := by
  induction front with
  | nil => rw [List.nil_append, List.nil_append, splitAfter_stop ends, splitAfter_stop ends]; rfl
  | cons first front ih =>
      rw [List.cons_append, List.cons_append, splitAfter, splitAfter, ih]
      split_ifs
      · rfl
      · cases parts : splitAfter stops (front ++ [symbol]) with
        | nil => exact absurd parts (splitAfter_ne_nil (by simp))
        | cons part parts => rfl

/-- A part that is not stopped goes on in what follows. -/
theorem length_splitAfter_append (front : List α) (goes : stops symbol = false) (filled : tail ≠ []) :
    (splitAfter stops (front ++ symbol :: tail)).length + 1 =
      (splitAfter stops (front ++ [symbol])).length + (splitAfter stops tail).length := by
  induction front with
  | nil =>
      have go : ¬ stops symbol = true := by
        rw [goes]
        exact Bool.false_ne_true
      rw [List.nil_append, List.nil_append, splitAfter, splitAfter, if_neg go, if_neg go]
      cases parts : splitAfter stops tail with
      | nil => exact absurd parts (splitAfter_ne_nil filled)
      | cons part parts => exact Nat.add_comm _ _
  | cons first front ih =>
      rw [List.cons_append, List.cons_append, splitAfter, splitAfter]
      split_ifs
      · rw [List.length_cons, List.length_cons]
        omega
      · cases parts : splitAfter stops (front ++ [symbol]) with
        | nil => exact absurd parts (splitAfter_ne_nil (by simp))
        | cons part parts =>
            cases others : splitAfter stops (front ++ symbol :: tail) with
            | nil => exact absurd others (splitAfter_ne_nil (by simp))
            | cons other others' =>
                rw [parts, others] at ih
                exact ih

end SplitAfter

end TinySandbox.Library
