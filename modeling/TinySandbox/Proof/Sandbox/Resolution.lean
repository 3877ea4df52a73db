/-
This file shows how the sandbox resolves a path, and that it agrees with the backends.
-/

import TinySandbox.Construction.Sandbox.Fs

namespace TinySandbox.Sandbox
open Library Mem

/-- A clean name is neither empty nor a step to another directory. -/
def CleanName (name : Name) : Prop :=
  name ≠ [] ∧ name ≠ ['.'] ∧ name ≠ ['.', '.'] ∧ '/' ∉ name

/-- These are the names that `normalizeAbsolute` keeps. -/
def absoluteNames (path : Text) : Path :=
  (path.splitOn '/').foldl normalizeAbsoluteStep []

theorem normalizeAbsoluteStep_clean {parts : Path} {part : Text}
    (clean : ∀ name ∈ parts, CleanName name) (slash : '/' ∉ part) :
    ∀ name ∈ normalizeAbsoluteStep parts part, CleanName name := by
  unfold normalizeAbsoluteStep
  intro name member
  split_ifs at member with skipped parent
  · exact clean name member
  · exact clean name (List.dropLast_subset _ member)
  · rcases List.mem_append.mp member with old | new
    · exact clean name old
    · obtain rfl := List.mem_singleton.mp new
      rw [not_or] at skipped
      exact ⟨skipped.1, skipped.2, parent, slash⟩

theorem absoluteNames_clean (path : Text) : ∀ name ∈ absoluteNames path, CleanName name := by
  have fold : ∀ (texts : List Text) (parts : Path), (∀ text ∈ texts, '/' ∉ text) →
      (∀ name ∈ parts, CleanName name) →
      ∀ name ∈ texts.foldl normalizeAbsoluteStep parts, CleanName name := by
    intro texts
    induction texts with
    | nil => exact fun parts _ clean => clean
    | cons text rest ih =>
        intro parts free clean
        apply ih _ (fun other member => free other (List.mem_cons_of_mem _ member))
        exact normalizeAbsoluteStep_clean clean (free text List.mem_cons_self)
  exact fold _ [] (fun text member => (mem_splitOn_part member).1) (by simp)

/-- A path below another is read on from the names of the other. -/
theorem absoluteNames_below (path rest : Text) :
    absoluteNames (path ++ '/' :: rest) =
      (rest.splitOn '/').foldl normalizeAbsoluteStep (absoluteNames path) := by
  unfold absoluteNames
  rw [List.splitOn_append_cons_self, List.foldl_append]

theorem normalizeAbsolute_eq (path : Text) :
    normalizeAbsolute path = joinAbsolute (absoluteNames path) := by
  unfold normalizeAbsolute joinAbsolute
  change (if absoluteNames path = [] then _ else _) = _
  split_ifs with empty
  · rw [empty]
    rfl
  · rfl

section Clean
variable {names : Path} (clean : ∀ name ∈ names, CleanName name)
include clean

theorem foldl_normalizeAbsoluteStep_clean (parts : Path) :
    names.foldl normalizeAbsoluteStep parts = parts ++ names := by
  induction names generalizing parts with
  | nil => simp
  | cons name rest ih =>
      obtain ⟨filled, dot, dots, -⟩ := clean name List.mem_cons_self
      have step : normalizeAbsoluteStep parts name = parts ++ [name] := by
        rw [normalizeAbsoluteStep, if_neg (by simp [filled, dot]), if_neg dots]
      rw [List.foldl_cons, step, ih fun other member => clean other (List.mem_cons_of_mem _ member),
        List.append_assoc, List.singleton_append]

theorem absoluteNames_joinAbsolute : absoluteNames (joinAbsolute names) = names := by
  by_cases filled : names = []
  · subst filled
    decide
  · rw [absoluteNames, splitOn_joinAbsolute (fun name member => (clean name member).2.2.2) filled,
      List.foldl_cons]
    exact foldl_normalizeAbsoluteStep_clean clean []

/-- The parts between the slashes of a joined path are its names. -/
theorem filter_splitOn_joinAbsolute :
    ((joinAbsolute names).splitOn '/').filter (· ≠ []) = names := by
  by_cases filled : names = []
  · subst filled
    decide
  · rw [splitOn_joinAbsolute (fun name member => (clean name member).2.2.2) filled,
      List.filter_cons_of_neg (by simp), List.filter_eq_self]
    intro name member
    simpa using (clean name member).1

/-- A joined path is the directory of commands, or below it, when its first name says so. -/
theorem isBinPath_joinAbsolute :
    isBinPath (joinAbsolute names) = true ↔ names.head? = some ['b', 'i', 'n'] := by
  unfold isBinPath binDirectory binPrefix joinAbsolute
  rw [decide_eq_true_iff]
  cases names with
  | nil => decide
  | cons first rest =>
      have free : '/' ∉ first := (clean first List.mem_cons_self).2.2.2
      cases rest with
      | nil =>
          simp only [List.intercalate_singleton, List.head?_cons, Option.some.injEq]
          constructor
          · rintro (same | ⟨tail, same⟩)
            · exact (List.cons.inj same).2
            · rw [← (List.cons.inj same).2] at free
              simp at free
          · intro same
            exact .inl (by rw [same])
      | cons second rest =>
          simp only [List.intercalate_cons_cons, List.head?_cons, Option.some.injEq]
          constructor
          · rintro (same | ⟨tail, same⟩)
            · have slash : '/' ∈ ['b', 'i', 'n'] := by
                rw [← (List.cons.inj same).2]
                simp
              exact absurd slash (by decide)
            · have inside := (List.cons.inj same).2
              -- The first slash behind the root ends the first name on both sides.
              have cut := congrArg (List.takeWhile (· ≠ '/')) inside
              rw [List.append_assoc, List.takeWhile_append_of_pos (by
                intro symbol member
                simpa using fun slash : symbol = '/' => free (slash ▸ member))] at cut
              simpa using cut.symm
          · intro same
            exact .inr ⟨_, by rw [same]; rfl⟩

end Clean

/-- The two normalizers agree where the backends accept the path. -/
theorem absoluteNames_of_normalizePath {path : Text} {components : Path}
    (resolved : normalizePath path = .ok components) : absoluteNames path = components := by
  have fold : ∀ (texts : List Text) (parts : Path),
      texts.foldlM normalizeStep parts = .ok components →
      texts.foldl normalizeAbsoluteStep parts = components := by
    intro texts
    induction texts with
    | nil => exact fun parts same => Except.ok.inj same
    | cons text rest ih =>
        intro parts folded
        rw [List.foldlM_cons] at folded
        cases step : normalizeStep parts text with
        | error error => simp [step, bind, Except.bind] at folded
        | ok next =>
            have here : normalizeAbsoluteStep parts text = next := by
              unfold normalizeStep at step
              unfold normalizeAbsoluteStep
              split_ifs at step ⊢ <;> simpa using step
            rw [List.foldl_cons, here]
            exact ih next (by simpa [step, bind, Except.bind] using folded)
  unfold normalizePath at resolved
  split_ifs at resolved
  exact fold _ [] resolved

/-- A canonical path starts at the root and has only clean names. -/
def Canonical (path : Text) : Prop :=
  path = ['/'] ∨ ∃ rest, path = '/' :: rest ∧
    ∀ part ∈ rest.splitOn '/', part ≠ [] ∧ part ≠ ['.'] ∧ part ≠ ['.', '.']

theorem joinAbsolute_canonical {names : Path} (clean : ∀ name ∈ names, CleanName name) :
    Canonical (joinAbsolute names) := by
  by_cases filled : names = []
  · subst filled
    exact .inl rfl
  · refine .inr ⟨_, rfl, ?_⟩
    rw [List.splitOn_intercalate '/' (fun name member => (clean name member).2.2.2) filled]
    intro part member
    obtain ⟨named, dot, dots, -⟩ := clean part member
    exact ⟨named, dot, dots⟩

namespace Fs

variable {fs : Fs}

theorem resolve_eq (fs : Fs) (path : Text) :
    fs.resolve path = joinAbsolute (absoluteNames (fs.absolute path)) :=
  normalizeAbsolute_eq _

theorem resolve_canonical (fs : Fs) (path : Text) : Canonical (fs.resolve path) := by
  rw [resolve_eq]
  exact joinAbsolute_canonical (absoluteNames_clean _)

/-- A resolved path is absolute, so the current directory is not read again. -/
theorem resolve_resolve (fs : Fs) (path : Text) :
    fs.resolve (fs.resolve path) = fs.resolve path := by
  have rooted : (fs.resolve path).head? = some '/' := by
    rw [resolve_eq]
    rfl
  have same : fs.absolute (fs.resolve path) = fs.resolve path := if_pos rooted
  rw [resolve_eq fs (fs.resolve path), same, resolve_eq,
    absoluteNames_joinAbsolute (absoluteNames_clean _)]

/-- The backend reads a resolved path as the names of the unresolved path, and none is virtual. -/
def Confined (fs : Fs) (path : Text) : Prop :=
  ∃ components, normalizePath (fs.resolve path) = .ok components ∧
    components.length ≤ min fs.limits.maxPathDepth 256 ∧
    (∀ unresolved, normalizePath (fs.absolute path) = .ok unresolved → unresolved = components) ∧
    components.head? ≠ some ['b', 'i', 'n']

/-- The backends accept clean names that pass the check. -/
theorem normal_of_passes {names : Path} (clean : ∀ name ∈ names, CleanName name)
    (passes : fs.PathPasses (joinAbsolute names)) :
    NormalPath names ∧ names.length ≤ min fs.limits.maxPathDepth 256 := by
  obtain ⟨nul, depth⟩ := not_or.mp passes
  rw [filter_splitOn_joinAbsolute clean, not_lt] at depth
  apply And.intro _ depth
  constructor
  · exact depth.trans (min_le_right _ _)
  · intro name member
    obtain ⟨named, dot, dots, slash⟩ := clean name member
    have part : name ∈ (joinAbsolute names).splitOn '/' := by
      rw [splitOn_joinAbsolute (fun other found => (clean other found).2.2.2)
        (List.ne_nil_of_mem member)]
      exact List.mem_cons_of_mem _ member
    exact ⟨named, dot, dots, slash, fun inside => nul ((mem_splitOn_part part).2 _ inside)⟩

theorem confined_of_passes {path : Text} (passes : fs.PathPasses (fs.resolve path))
    (outside : isBinPath (fs.resolve path) = false) : fs.Confined path := by
  rw [resolve_eq] at passes outside
  have clean := absoluteNames_clean (fs.absolute path)
  obtain ⟨normal, depth⟩ := normal_of_passes clean passes
  refine ⟨_, ?_, depth, ?_, ?_⟩
  · rw [resolve_eq]
    exact normalizePath_joinAbsolute normal
  · intro unresolved resolved
    exact (absoluteNames_of_normalizePath resolved).symm
  · rw [Ne, ← isBinPath_joinAbsolute clean, outside]
    decide

end Fs

end TinySandbox.Sandbox
