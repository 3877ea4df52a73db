/-
This file relates the walks of the in-memory filesystem to the view of its tree.
-/

import TinySandbox.Construction.Mem.Operations

namespace TinySandbox.Mem
open Library DirectoryTree

/-- Some component before the end of the path names a file. -/
def BelowFile (root : Node) (path : Path) : Prop :=
  ∃ start inode, start <+: path ∧ root.view start = some (.file inode)

theorem getNode_of_at? {root node : Node} {path : Path} (found : root.at? path = some node) :
    getNode root path = .ok node := by
  induction path generalizing root with
  | nil =>
      obtain rfl : root = node := by simpa using found
      cases root <;> rfl
  | cons name path ih =>
      cases root with
      | file inode => simp at found
      | directory entries =>
          rw [at?_directory_cons] at found
          obtain ⟨child, present, below⟩ := Option.bind_eq_some_iff.mp found
          simp only [getNode, present]
          exact ih below

/-- A failed walk stopped at a file or at a missing name. -/
theorem getNode_of_none {root : Node} {path : Path} (missing : root.at? path = none) :
    (BelowFile root path → getNode root path = .error .ENOTDIR) ∧
      (¬ BelowFile root path → getNode root path = .error .ENOENT) := by
  induction path generalizing root with
  | nil => simp at missing
  | cons name path ih =>
      cases root with
      | file inode =>
          have blocked : BelowFile (.file inode) (name :: path) :=
            ⟨[], inode, List.nil_prefix, by simp [entry]⟩
          exact ⟨fun _ => rfl, fun free => absurd blocked free⟩
      | directory entries =>
          rw [at?_directory_cons] at missing
          cases present : Entries.get name entries with
          | none =>
              have free : ¬ BelowFile (.directory entries) (name :: path) := by
                rintro ⟨start, inode, inside, named⟩
                cases start with
                | nil => simp [entry] at named
                | cons other start =>
                    obtain ⟨rfl, -⟩ := List.cons_prefix_cons.mp inside
                    simp [view, at?_directory_cons, present] at named
              refine ⟨fun blocked => absurd blocked free, fun _ => ?_⟩
              simp only [getNode, present]
          | some child =>
              rw [present, Option.bind_some] at missing
              have step : BelowFile (.directory entries) (name :: path) ↔ BelowFile child path := by
                constructor
                · rintro ⟨start, inode, inside, named⟩
                  cases start with
                  | nil => simp [entry] at named
                  | cons other start =>
                      obtain ⟨rfl, tail⟩ := List.cons_prefix_cons.mp inside
                      refine ⟨start, inode, tail, ?_⟩
                      simpa [view, at?_directory_cons, present] using named
                · rintro ⟨start, inode, inside, named⟩
                  refine ⟨name :: start, inode, List.cons_prefix_cons.mpr ⟨rfl, inside⟩, ?_⟩
                  simpa [view, at?_directory_cons, present] using named
              simp only [getNode, present, step]
              exact ih missing

theorem getNode_eq_ok_iff {root node : Node} {path : Path} :
    getNode root path = .ok node ↔ root.at? path = some node := by
  constructor
  · intro reached
    cases found : root.at? path with
    | some other =>
        rw [getNode_of_at? found] at reached
        exact congrArg some (Except.ok.inj reached)
    | none =>
        by_cases blocked : BelowFile root path
        · rw [(getNode_of_none found).1 blocked] at reached
          cases reached
        · rw [(getNode_of_none found).2 blocked] at reached
          cases reached
  · exact getNode_of_at?

/-- A walk to a longer path continues from the node of the shorter one. -/
theorem getNode_append (root : Node) (first second : Path) :
    getNode root (first ++ second) = getNode root first >>= fun node => getNode node second := by
  induction first generalizing root with
  | nil => cases root <;> rfl
  | cons name first ih =>
      cases root with
      | file inode => rfl
      | directory entries =>
          simp only [List.cons_append, getNode]
          cases Entries.get name entries with
          | none => rfl
          | some child => exact ih child

/-- A mutable walk reaches the same node and writes back one subtree. -/
theorem getNodeMut_eq {root : Node} {path : Path} :
    getNodeMut root path = (getNode root path).map fun node => (node, root.replace path) := by
  induction path generalizing root with
  | nil =>
      cases root with
      | file inode =>
          simp only [getNodeMut, getNode, Except.map]
          rfl
      | directory entries =>
          simp only [getNodeMut, getNode, Except.map]
          rfl
  | cons name path ih =>
      cases root with
      | file inode => rfl
      | directory entries =>
          cases present : Entries.get name entries with
          | none => simp only [getNodeMut, getNode, present, Except.map]
          | some child =>
              simp only [getNodeMut, getNode, present, ih]
              cases getNode child path with
              | error error => rfl
              | ok node =>
                  simp only [Except.map]
                  congr 2
                  funext new
                  simp only [replace, present]

theorem parentDirMut_snoc {root : Node} {parent : Path} {name : Name} {entries : Directory}
    (found : root.at? parent = some (.directory entries)) :
    parentDirMut root (parent ++ [name]) =
      .ok (entries, name, fun changed => root.replace parent (.directory changed)) := by
  simp only [parentDirMut, List.getLast?_append, List.getLast?_singleton, Option.some_or,
    List.dropLast_concat, getNodeMut_eq, getNode_of_at? found, Except.map]

/-- The parent check succeeds exactly on the paths whose parent is a directory. -/
theorem ensureParentIsDir_ok {root : Node} {path : Path}
    (checked : ensureParentIsDir root path = .ok ()) :
    ∃ parent name entries, path = parent ++ [name] ∧
      root.at? parent = some (.directory entries) := by
  rcases List.eq_nil_or_concat' path with rfl | ⟨parent, name, rfl⟩
  · simp [ensureParentIsDir] at checked
  · simp only [ensureParentIsDir, List.getLast?_append, List.getLast?_singleton, Option.some_or,
      List.dropLast_concat] at checked
    cases walk : getNode root parent with
    | error error => simp [walk] at checked
    | ok node =>
        cases node with
        | file inode => simp [walk] at checked
        | directory entries => exact ⟨parent, name, entries, rfl, getNode_eq_ok_iff.mp walk⟩

/-- The borrow of a parent fails as the check of the parent fails. -/
theorem parentDirMut_error {root : Node} {path : Path} {error : Errno}
    (failed : ensureParentIsDir root path = .error error) :
    parentDirMut root path = .error error := by
  rcases List.eq_nil_or_concat' path with rfl | ⟨parent, name, rfl⟩
  · simpa [ensureParentIsDir, parentDirMut] using failed
  · simp only [ensureParentIsDir, parentDirMut, List.getLast?_append, List.getLast?_singleton,
      Option.some_or, List.dropLast_concat, getNodeMut_eq] at failed ⊢
    cases walk : getNode root parent with
    | error other =>
        simp only [walk, Except.map] at failed ⊢
        exact congrArg Except.error (Except.error.inj failed)
    | ok node =>
        cases node with
        | file inode =>
            simp only [walk, Except.map] at failed ⊢
            exact congrArg Except.error (Except.error.inj failed)
        | directory entries => simp [walk] at failed

/-- Below a directory the walk ends with the entry of the last name. -/
theorem getNode_snoc {root : Node} {parent : Path} {name : Name} {entries : Directory}
    (found : root.at? parent = some (.directory entries)) :
    getNode root (parent ++ [name]) = Call.okOr .ENOENT (Entries.get name entries) := by
  rw [getNode_append, getNode_of_at? found]
  change getNode (.directory entries) [name] = _
  cases present : Entries.get name entries with
  | none => simp only [getNode, present, Call.okOr_none]
  | some child =>
      simp only [getNode, present, Call.okOr_some]

/-- A walk fails as the check of its parent fails. -/
theorem getNode_error {root : Node} {path : Path} {error : Errno} (below : path ≠ [])
    (failed : ensureParentIsDir root path = .error error) : getNode root path = .error error := by
  obtain ⟨parent, name, rfl⟩ := (List.eq_nil_or_concat' path).resolve_left below
  simp only [ensureParentIsDir, List.getLast?_append, List.getLast?_singleton, Option.some_or,
    List.dropLast_concat] at failed
  rw [getNode_append]
  cases walk : getNode root parent with
  | error other =>
      simp only [walk] at failed
      exact congrArg Except.error (Except.error.inj failed)
  | ok node =>
      cases node with
      | file inode =>
          simp only [walk] at failed
          exact congrArg Except.error (Except.error.inj failed)
      | directory entries => simp [walk] at failed

theorem hasPrefix_iff {path start : Path} : hasPrefix path start = true ↔ start <+: path := by
  simp only [hasPrefix, Bool.and_eq_true, decide_eq_true_eq]
  constructor
  · rintro ⟨-, same⟩
    exact same ▸ List.take_prefix _ _
  · rintro ⟨rest, rfl⟩
    simp

/-- Every child that an iterator still holds lies within the allowance. -/
def LevelsFit (allowance : Nat) : List Directory → Prop
  | [] => True
  | entries :: stack =>
      (∀ entry ∈ entries, ∀ path, entry.2.view path ≠ none →
        stack.length + 1 + path.length ≤ allowance) ∧ LevelsFit allowance stack

theorem subtreeFitsLoop_iff (allowance : Nat) (stack : List Directory)
    (sorted : ∀ entries ∈ stack, ∀ entry ∈ entries, entry.2.SortedTree) :
    subtreeFitsLoop allowance stack = true ↔ LevelsFit allowance stack := by
  fun_induction subtreeFitsLoop allowance stack with
  | case1 => simp [LevelsFit]
  | case2 stack ih =>
      have rest := ih fun entries member => sorted entries (List.mem_cons_of_mem _ member)
      simpa [LevelsFit] using rest
  | case3 name child rest stack deep =>
      have unfit : ¬ LevelsFit allowance (((name, child) :: rest) :: stack) := by
        intro fits
        have bound := fits.1 (name, child) List.mem_cons_self [] (by simp)
        simp only [List.length_nil] at bound
        omega
      simpa using unfit
  | case4 name rest stack shallow children ih =>
      have here : (DirectoryTree.directory children : Node).SortedTree :=
        sorted _ List.mem_cons_self _ List.mem_cons_self
      obtain ⟨order, below⟩ := sortedTree_directory_iff.mp here
      rw [ih (by
        intro entries member entry stored
        rcases List.mem_cons.mp member with rfl | later
        · exact below entry.1 entry.2 (Entries.get_of_mem order stored)
        · rcases List.mem_cons.mp later with rfl | later
          · exact sorted _ List.mem_cons_self _ (List.mem_cons_of_mem _ stored)
          · exact sorted _ (List.mem_cons_of_mem _ later) _ stored)]
      simp only [LevelsFit, List.length_cons, List.forall_mem_cons]
      constructor
      · rintro ⟨deeper, siblings, outer⟩
        refine ⟨⟨?_, siblings⟩, outer⟩
        intro path named
        cases path with
        | nil =>
            simp only [List.length_nil]
            omega
        | cons child path =>
            rw [view, at?_directory_cons] at named
            cases present : Entries.get child children with
            | none => simp [present] at named
            | some subtree =>
                have bound := deeper (child, subtree) (Entries.mem_of_get present) path
                  (by simpa [present, view] using named)
                simp only [List.length_cons]
                omega
      · rintro ⟨⟨head, siblings⟩, outer⟩
        refine ⟨?_, siblings, outer⟩
        rintro ⟨child, subtree⟩ stored path named
        have present := Entries.get_of_mem order stored
        have bound := head (child :: path) (by
          simpa [view, at?_directory_cons, present] using named)
        simp only [List.length_cons] at bound
        omega
  | case5 name rest stack shallow inode ih =>
      rw [ih (by
        intro entries member entry stored
        rcases List.mem_cons.mp member with rfl | later
        · exact sorted _ List.mem_cons_self _ (List.mem_cons_of_mem _ stored)
        · exact sorted _ (List.mem_cons_of_mem _ later) _ stored)]
      simp only [LevelsFit, List.forall_mem_cons]
      constructor
      · rintro ⟨siblings, outer⟩
        refine ⟨⟨?_, siblings⟩, outer⟩
        intro path named
        cases path with
        | nil =>
            simp only [List.length_nil]
            omega
        | cons child path => simp [view] at named
      · rintro ⟨⟨-, siblings⟩, outer⟩
        exact ⟨siblings, outer⟩

/-- The walk accepts a subtree exactly when every descendant lies within the allowance. -/
theorem subtreeFits_iff {node : Node} (sorted : node.SortedTree) (allowance : Nat) :
    subtreeFits node allowance = true ↔
      ∀ path, node.view path ≠ none → path.length ≤ allowance := by
  cases node with
  | file inode =>
      simp only [subtreeFits, true_iff]
      intro path named
      cases path with
      | nil => simp
      | cons name path => simp [view] at named
  | directory entries =>
      obtain ⟨order, children⟩ := sortedTree_directory_iff.mp sorted
      have loop := subtreeFitsLoop_iff allowance [entries] (by
        intro level member entry stored
        obtain rfl := List.mem_singleton.mp member
        exact children entry.1 entry.2 (Entries.get_of_mem order stored))
      simp only [subtreeFits, loop, LevelsFit, List.length_nil, and_true]
      constructor
      · intro fits path named
        cases path with
        | nil => simp
        | cons name path =>
            rw [view, at?_directory_cons] at named
            cases present : Entries.get name entries with
            | none => simp [present] at named
            | some child =>
                have bound := fits (name, child) (Entries.mem_of_get present) path
                  (by simpa [present, view] using named)
                simp only [List.length_cons]
                omega
      · rintro fits ⟨name, child⟩ stored path named
        have present := Entries.get_of_mem order stored
        have bound := fits (name :: path) (by
          simpa [view, at?_directory_cons, present] using named)
        simp only [List.length_cons] at bound
        omega

end TinySandbox.Mem
