/-
This file resolves a path string to its list of names.
-/

import TinySandbox.Construction.Types
import TinySandbox.Library.Text

namespace TinySandbox
open Library

def maxPathDepth : Nat := 256

/-- One component keeps, removes, or adds a name. -/
def normalizeStep (components : Path) (component : Text) : VfsResult Path :=
  if component = [] ∨ component = ['.'] then .ok components
  else if component = ['.', '.'] then .ok components.dropLast
  else if maxPathDepth ≤ components.length then .error .EINVAL
  else .ok (components ++ [component])

def normalizePath (path : Text) : VfsResult Path :=
  if path = [] ∨ path.head? ≠ some '/' ∨ '\x00' ∈ path then .error .EINVAL
  else (path.splitOn '/').foldlM normalizeStep []

/-- This is an absolute path with one slash before every name. -/
def joinAbsolute (components : Path) : Text := '/' :: ['/'].intercalate components

/-- A valid name can stand between two slashes of a normalized path. -/
def ValidName (name : Name) : Prop :=
  name ≠ [] ∧ name ≠ ['.'] ∧ name ≠ ['.', '.'] ∧ '/' ∉ name ∧ '\x00' ∉ name

instance (name : Name) : Decidable (ValidName name) :=
  inferInstanceAs (Decidable (_ ∧ _ ∧ _ ∧ _ ∧ _))

/-- Every component list that a path resolves to is short and has valid names. -/
structure NormalPath (path : Path) : Prop where
  depth : path.length ≤ maxPathDepth
  valid : ∀ name ∈ path, ValidName name

theorem normalizeStep_normal {components next : Path} {component : Text}
    (normal : NormalPath components) (slash : '/' ∉ component) (nul : '\x00' ∉ component)
    (step : normalizeStep components component = .ok next) : NormalPath next := by
  unfold normalizeStep at step
  split_ifs at step with skipped parent deep
  · obtain rfl := Except.ok.inj step
    exact normal
  · obtain rfl := Except.ok.inj step
    constructor
    · have := normal.depth
      simp only [List.length_dropLast]
      omega
    · exact fun name member => normal.valid name (List.dropLast_subset _ member)
  · obtain rfl := Except.ok.inj step
    rw [not_or] at skipped
    constructor
    · simp only [List.length_append, List.length_singleton]
      omega
    · intro name member
      rcases List.mem_append.mp member with old | new
      · exact normal.valid name old
      · obtain rfl := List.mem_singleton.mp new
        exact ⟨skipped.1, skipped.2, parent, slash, nul⟩

theorem foldlM_normalizeStep_normal {parts : List Text} {components next : Path}
    (normal : NormalPath components) (clean : ∀ part ∈ parts, '/' ∉ part ∧ '\x00' ∉ part)
    (fold : parts.foldlM normalizeStep components = .ok next) : NormalPath next := by
  induction parts generalizing components with
  | nil =>
      obtain rfl := Except.ok.inj fold
      exact normal
  | cons part rest ih =>
      rw [List.foldlM_cons] at fold
      cases step : normalizeStep components part with
      | error error => simp [step, bind, Except.bind] at fold
      | ok reached =>
          have here := clean part List.mem_cons_self
          have kept := normalizeStep_normal normal here.1 here.2 step
          apply ih kept (fun other member => clean other (List.mem_cons_of_mem _ member))
          simpa [step, bind, Except.bind] using fold

theorem normalizePath_normal {path : Text} {components : Path}
    (resolved : normalizePath path = .ok components) : NormalPath components := by
  unfold normalizePath at resolved
  split_ifs at resolved with rejected
  simp only [not_or, not_not] at rejected
  refine foldlM_normalizeStep_normal ⟨by simp, by simp⟩ ?_ resolved
  intro part member
  obtain ⟨free, inside⟩ := mem_splitOn_part member
  exact ⟨free, fun nul => rejected.2.2 (inside _ nul)⟩

theorem splitOn_joinAbsolute {components : Path} (free : ∀ name ∈ components, '/' ∉ name)
    (filled : components ≠ []) : (joinAbsolute components).splitOn '/' = [] :: components := by
  have cut : (['/'].intercalate components).splitOn '/' = components :=
    List.splitOn_intercalate '/' free filled
  rw [joinAbsolute, List.splitOn_cons_eq_if_modifyHead, if_pos (by simp), cut]

theorem foldlM_normalizeStep_names {components names : Path} (valid : ∀ name ∈ names, ValidName name)
    (fits : components.length + names.length ≤ maxPathDepth) :
    names.foldlM normalizeStep components = .ok (components ++ names) := by
  induction names generalizing components with
  | nil => simp [pure, Except.pure]
  | cons name rest ih =>
      obtain ⟨filled, dot, dots, -, -⟩ := valid name List.mem_cons_self
      rw [List.length_cons] at fits
      have step : normalizeStep components name = .ok (components ++ [name]) := by
        rw [normalizeStep, if_neg (by simp [filled, dot]), if_neg dots, if_neg (by omega)]
      have later := ih (fun other member => valid other (List.mem_cons_of_mem _ member))
        (show (components ++ [name]).length + rest.length ≤ maxPathDepth by
          simp only [List.length_append, List.length_singleton]
          omega)
      rw [List.foldlM_cons, step]
      simpa [bind, Except.bind] using later

/-- A path that is written from its names resolves to them. -/
theorem normalizePath_joinAbsolute {components : Path} (normal : NormalPath components) :
    normalizePath (joinAbsolute components) = .ok components := by
  have clean : '\x00' ∉ joinAbsolute components := by
    intro member
    rcases List.mem_cons.mp member with slash | inside
    · exact absurd slash (by decide)
    · rcases mem_intercalate inside with slash | ⟨name, present, found⟩
      · exact absurd slash (by decide)
      · exact (normal.valid name present).2.2.2.2 found
  have accepted : ¬ (joinAbsolute components = [] ∨ (joinAbsolute components).head? ≠ some '/' ∨
      '\x00' ∈ joinAbsolute components) := by
    rw [not_or, not_or]
    exact ⟨List.cons_ne_nil _ _, not_not.mpr rfl, clean⟩
  rw [normalizePath, if_neg accepted]
  by_cases filled : components = []
  · subst filled
    decide
  · rw [splitOn_joinAbsolute (fun name member => (normal.valid name member).2.2.2.1) filled]
    have depth := normal.depth
    have fold : components.foldlM normalizeStep [] = .ok ([] ++ components) :=
      foldlM_normalizeStep_names normal.valid (by simpa using depth)
    simpa [normalizeStep, bind, Except.bind] using fold

/-- A name behind a slash is added to the path. -/
theorem normalizePath_child {path : Text} {components : Path} {name : Name}
    (resolved : normalizePath path = .ok components) (valid : ValidName name)
    (fits : components.length < maxPathDepth) :
    normalizePath (path ++ '/' :: name) = .ok (components ++ [name]) := by
  unfold normalizePath at resolved ⊢
  split_ifs at resolved with rejected
  obtain ⟨filled, slash, clean⟩ := not_or.mp rejected |>.imp id not_or.mp
  have accepted : ¬ (path ++ '/' :: name = [] ∨ (path ++ '/' :: name).head? ≠ some '/' ∨
      '\x00' ∈ path ++ '/' :: name) := by
    rw [List.head?_append_of_ne_nil _ filled, List.mem_append, List.mem_cons]
    simp only [not_or]
    exact ⟨by simp, slash, clean, by decide, valid.2.2.2.2⟩
  rw [if_neg accepted, List.splitOn_append_cons_self, List.splitOn_eq_singleton valid.2.2.2.1,
    List.foldlM_append, resolved]
  have step := @foldlM_normalizeStep_names components [name]
    (fun other member => List.mem_singleton.mp member ▸ valid) fits
  exact step

end TinySandbox
