/-
This file gives finite trees whose inner nodes are key-sorted directories.
A path reads one subtree, and a write replaces one subtree.
The view of a tree forgets its shape and keeps what each path names.
-/

import Mathlib.Algebra.Order.Group.Multiset
import TinySandbox.Library.OrderedMap

namespace TinySandbox.Library

universe u v

/-- A tree is one leaf value or one directory of named trees. -/
inductive DirectoryTree (κ : Type u) (ν : Type v) where
  | file (value : ν)
  | directory (entries : List (κ × DirectoryTree κ ν))

/-- An entry says what one path names. -/
inductive Entry (ν : Type v) where
  | file (value : ν)
  | directory
  deriving DecidableEq

namespace DirectoryTree

variable {κ : Type u} {ν : Type v}

/-- The structural induction gives the hypothesis for every child of a directory. -/
theorem induct {motive : DirectoryTree κ ν → Prop}
    (file : ∀ value, motive (.file value))
    (directory : ∀ entries, (∀ entry ∈ entries, motive entry.2) → motive (.directory entries))
    (tree : DirectoryTree κ ν) : motive tree :=
  @DirectoryTree.rec κ ν motive (fun entries => ∀ entry ∈ entries, motive entry.2)
    (fun entry => motive entry.2) file directory (by simp)
    (fun _ _ head tail => List.forall_mem_cons.mpr ⟨head, tail⟩)
    (fun _ _ child => child) tree

def entry : DirectoryTree κ ν → Entry ν
  | .file value => .file value
  | .directory _ => .directory

mutual
/-- This count includes the tree itself when it is a directory. -/
def directories : DirectoryTree κ ν → Nat
  | .file _ => 0
  | .directory entries => directoriesIn entries + 1
def directoriesIn : List (κ × DirectoryTree κ ν) → Nat
  | [] => 0
  | (_, child) :: rest => directories child + directoriesIn rest
end

mutual
/-- The leaf values stand in the order of a depth-first walk. -/
def leaves : DirectoryTree κ ν → List ν
  | .file value => [value]
  | .directory entries => leavesIn entries
def leavesIn : List (κ × DirectoryTree κ ν) → List ν
  | [] => []
  | (_, child) :: rest => leaves child ++ leavesIn rest
end

theorem directoriesIn_eq_total (entries : List (κ × DirectoryTree κ ν)) :
    directoriesIn entries = Entries.total (fun entry => entry.2.directories) entries := by
  induction entries with
  | nil => rfl
  | cons entry rest ih =>
      simp only [directoriesIn, ih, Entries.total, List.map_cons, List.sum_cons]

theorem leavesIn_eq_flatMap (entries : List (κ × DirectoryTree κ ν)) :
    leavesIn entries = entries.flatMap fun entry => entry.2.leaves := by
  induction entries with
  | nil => rfl
  | cons entry rest ih => simp only [leavesIn, ih, List.flatMap_cons]

theorem leavesIn_eq_total (entries : List (κ × DirectoryTree κ ν)) :
    (leavesIn entries : Multiset ν) =
      Entries.total (fun entry => (entry.2.leaves : Multiset ν)) entries := by
  induction entries with
  | nil => rfl
  | cons entry rest ih =>
      rw [leavesIn, ← Multiset.coe_add, ih, Entries.total, Entries.total, List.map_cons,
        List.sum_cons]

section Paths
variable [LinearOrder κ]

/-- A path reads the subtree below its components. -/
def at? : DirectoryTree κ ν → List κ → Option (DirectoryTree κ ν)
  | tree, [] => some tree
  | .file _, _ :: _ => none
  | .directory entries, name :: path =>
      (Entries.get name entries).bind fun child => child.at? path

/-- A write replaces the subtree at a path that exists. -/
def replace : DirectoryTree κ ν → List κ → DirectoryTree κ ν → DirectoryTree κ ν
  | _, [], new => new
  | .file value, _ :: _, _ => .file value
  | .directory entries, name :: path, new =>
      match Entries.get name entries with
      | none => .directory entries
      | some child => .directory (Entries.insert name (child.replace path new) entries)

/-- The view says what each path names. -/
def view (tree : DirectoryTree κ ν) (path : List κ) : Option (Entry ν) :=
  (tree.at? path).map entry

/-- Every directory below the tree stores its entries in key order. -/
def SortedTree (tree : DirectoryTree κ ν) : Prop :=
  ∀ path entries, tree.at? path = some (.directory entries) → Entries.Sorted entries

@[simp] theorem at?_nil (tree : DirectoryTree κ ν) : tree.at? [] = some tree := by
  cases tree <;> rfl

@[simp] theorem at?_file_cons (value : ν) (name : κ) (path : List κ) :
    (DirectoryTree.file value : DirectoryTree κ ν).at? (name :: path) = none := rfl

theorem at?_directory_cons (entries : List (κ × DirectoryTree κ ν)) (name : κ) (path : List κ) :
    (DirectoryTree.directory entries).at? (name :: path) =
      (Entries.get name entries).bind fun child => child.at? path := rfl

theorem at?_append (tree : DirectoryTree κ ν) (first second : List κ) :
    tree.at? (first ++ second) = (tree.at? first).bind fun child => child.at? second := by
  induction first generalizing tree with
  | nil => simp
  | cons name first ih =>
      cases tree with
      | file value => rfl
      | directory entries =>
          simp only [List.cons_append, at?_directory_cons, Option.bind_assoc]
          exact congrArg _ (funext fun child => ih child)

@[simp] theorem view_nil (tree : DirectoryTree κ ν) : tree.view [] = some tree.entry := by
  simp [view]

theorem view_append (tree : DirectoryTree κ ν) (first second : List κ) :
    tree.view (first ++ second) = (tree.at? first).bind fun child => child.view second := by
  simp only [view, at?_append, Option.map_bind]
  rfl

theorem view_eq_directory_iff {tree : DirectoryTree κ ν} {path : List κ} :
    tree.view path = some .directory ↔ ∃ entries, tree.at? path = some (.directory entries) := by
  constructor
  · intro named
    obtain ⟨child, found, kind⟩ := Option.map_eq_some_iff.mp named
    cases child with
    | file value => cases kind
    | directory entries => exact ⟨entries, found⟩
  · rintro ⟨entries, found⟩
    simp [view, found, entry]

theorem view_eq_file_iff {tree : DirectoryTree κ ν} {path : List κ} {value : ν} :
    tree.view path = some (.file value) ↔ tree.at? path = some (.file value) := by
  constructor
  · intro named
    obtain ⟨child, found, kind⟩ := Option.map_eq_some_iff.mp named
    cases child with
    | file other =>
        cases kind
        exact found
    | directory entries => cases kind
  · intro found
    simp [view, found, entry]

theorem view_eq_none_iff {tree : DirectoryTree κ ν} {path : List κ} :
    tree.view path = none ↔ tree.at? path = none :=
  Option.map_eq_none_iff

/-- Every proper prefix of a named path is a directory. -/
theorem view_of_longer {tree : DirectoryTree κ ν} {path rest : List κ}
    (named : tree.view (path ++ rest) ≠ none) (proper : rest ≠ []) :
    tree.view path = some .directory := by
  rw [view_append] at named
  cases found : tree.at? path with
  | none => simp [found] at named
  | some child =>
      cases child with
      | directory entries => simp [view, found, entry]
      | file value =>
          obtain ⟨name, rest, rfl⟩ := List.exists_cons_of_ne_nil proper
          simp [found, view] at named

/-- A write changes the view exactly below its path. -/
theorem view_replace {tree old : DirectoryTree κ ν} {path : List κ}
    (found : tree.at? path = some old) (new : DirectoryTree κ ν) (query : List κ) :
    (tree.replace path new).view query =
      if path <+: query then new.view (query.drop path.length) else tree.view query := by
  induction path generalizing tree query with
  | nil => cases tree <;> simp [replace]
  | cons name path ih =>
      cases tree with
      | file value => simp at found
      | directory entries =>
          rw [at?_directory_cons] at found
          obtain ⟨child, present, inside⟩ := Option.bind_eq_some_iff.mp found
          simp only [replace, present]
          cases query with
          | nil => simp [entry]
          | cons other query =>
              by_cases same : other = name
              · subst same
                have below := ih inside query
                simp only [view, at?_directory_cons, Entries.get_insert, if_true, present,
                  Option.bind_some, List.prefix_cons_inj, List.length_cons,
                  List.drop_succ_cons] at below ⊢
                exact below
              · have apart : ¬ (name :: path) <+: (other :: query) := by
                  intro inside
                  exact same (List.cons_prefix_cons.mp inside).1.symm
                simp only [view, at?_directory_cons, Entries.get_insert, if_neg same, if_neg apart]

theorem directory_at?_single (entries : List (κ × DirectoryTree κ ν)) (name : κ) :
    (DirectoryTree.directory entries).at? [name] = Entries.get name entries := by
  simp [at?_directory_cons]

omit [LinearOrder κ] in
/-- No path starts with one of its own children. -/
theorem not_snoc_prefix_self (path : List κ) (name : κ) : ¬ path ++ [name] <+: path := by
  intro inside
  simpa using inside.length_le

omit [LinearOrder κ] in
/-- A sibling's path does not start with the child. -/
theorem not_snoc_prefix_sibling (path rest : List κ) {name other : κ} (different : other ≠ name) :
    ¬ path ++ [name] <+: path ++ other :: rest := by
  rw [List.prefix_append_right_inj]
  intro inside
  exact different (List.cons_prefix_cons.mp inside).1.symm

/-- Storing a child in an existing directory grafts the view of the child. -/
theorem view_store {tree : DirectoryTree κ ν} {path : List κ}
    {entries : List (κ × DirectoryTree κ ν)} (found : tree.at? path = some (.directory entries))
    (name : κ) (child : DirectoryTree κ ν) (query : List κ) :
    (tree.replace path (.directory (Entries.insert name child entries))).view query =
      if path ++ [name] <+: query then child.view (query.drop (path.length + 1))
      else tree.view query := by
  rw [view_replace found]
  by_cases inside : path <+: query
  · obtain ⟨rest, rfl⟩ := inside
    rw [if_pos (List.prefix_append path rest), List.drop_left]
    cases rest with
    | nil => simp [entry, view, found, not_snoc_prefix_self]
    | cons other rest =>
        by_cases same : other = name
        · subst same
          have tail : (path ++ other :: rest).drop (path.length + 1) = rest := by
            rw [← List.drop_drop, List.drop_left, List.drop_one, List.tail_cons]
          rw [if_pos (by simp), tail]
          simp [view, at?_directory_cons, Entries.get_insert]
        · rw [if_neg (not_snoc_prefix_sibling path rest same), view_append, found]
          simp [view, at?_directory_cons, Entries.get_insert, same]
  · have outside : ¬ path ++ [name] <+: query := fun start =>
      inside ((List.prefix_append path [name]).trans start)
    rw [if_neg inside, if_neg outside]

/-- Erasing a child of an existing directory cuts the view below the child. -/
theorem view_discard {tree : DirectoryTree κ ν} {path : List κ}
    {entries : List (κ × DirectoryTree κ ν)} (found : tree.at? path = some (.directory entries))
    (name : κ) (query : List κ) :
    (tree.replace path (.directory (Entries.erase name entries))).view query =
      if path ++ [name] <+: query then none else tree.view query := by
  rw [view_replace found]
  by_cases inside : path <+: query
  · obtain ⟨rest, rfl⟩ := inside
    rw [if_pos (List.prefix_append path rest), List.drop_left]
    cases rest with
    | nil => simp [entry, view, found, not_snoc_prefix_self]
    | cons other rest =>
        by_cases same : other = name
        · subst same
          rw [if_pos (by simp)]
          simp [view, at?_directory_cons, Entries.get_erase]
        · rw [if_neg (not_snoc_prefix_sibling path rest same), view_append, found]
          simp [view, at?_directory_cons, Entries.get_erase, same]
  · have outside : ¬ path ++ [name] <+: query := fun start =>
      inside ((List.prefix_append path [name]).trans start)
    rw [if_neg inside, if_neg outside]

theorem sortedTree_file (value : ν) : (DirectoryTree.file value : DirectoryTree κ ν).SortedTree := by
  intro path entries found
  cases path <;> simp at found

theorem sortedTree_directory_iff {entries : List (κ × DirectoryTree κ ν)} :
    (DirectoryTree.directory entries).SortedTree ↔
      Entries.Sorted entries ∧ ∀ name child, Entries.get name entries = some child →
        child.SortedTree := by
  constructor
  · intro sorted
    refine ⟨sorted [] entries (by simp), ?_⟩
    intro name child present path below found
    exact sorted (name :: path) below (by simp [at?_directory_cons, present, found])
  · rintro ⟨sorted, children⟩ path below found
    cases path with
    | nil =>
        simp only [at?_nil, Option.some.injEq, directory.injEq] at found
        exact found ▸ sorted
    | cons name path =>
        rw [at?_directory_cons] at found
        obtain ⟨child, present, found⟩ := Option.bind_eq_some_iff.mp found
        exact children name child present path below found

theorem SortedTree.at? {tree child : DirectoryTree κ ν} (sorted : tree.SortedTree) {path : List κ}
    (found : tree.at? path = some child) : child.SortedTree := by
  intro below entries inside
  exact sorted (path ++ below) entries (by simp [at?_append, found, inside])

theorem SortedTree.replace {tree : DirectoryTree κ ν} (sorted : tree.SortedTree) (path : List κ)
    {new : DirectoryTree κ ν} (fresh : new.SortedTree) : (tree.replace path new).SortedTree := by
  induction path generalizing tree with
  | nil => cases tree <;> exact fresh
  | cons name path ih =>
      cases tree with
      | file value => exact sorted
      | directory entries =>
          obtain ⟨order, children⟩ := sortedTree_directory_iff.mp sorted
          simp only [DirectoryTree.replace]
          split
          · exact sorted
          · rename_i child present
            refine sortedTree_directory_iff.mpr ⟨order.insert _ _, ?_⟩
            intro other found stored
            rw [Entries.get_insert] at stored
            split at stored
            · obtain rfl := Option.some.inj stored
              exact ih (children name child present)
            · exact children other found stored

theorem SortedTree.store {entries : List (κ × DirectoryTree κ ν)} {child : DirectoryTree κ ν}
    (sorted : (DirectoryTree.directory entries).SortedTree) (fresh : child.SortedTree) (name : κ) :
    (DirectoryTree.directory (Entries.insert name child entries)).SortedTree := by
  obtain ⟨order, children⟩ := sortedTree_directory_iff.mp sorted
  refine sortedTree_directory_iff.mpr ⟨order.insert _ _, ?_⟩
  intro other found stored
  rw [Entries.get_insert] at stored
  split at stored
  · exact Option.some.inj stored ▸ fresh
  · exact children other found stored

theorem SortedTree.discard {entries : List (κ × DirectoryTree κ ν)}
    (sorted : (DirectoryTree.directory entries).SortedTree) (name : κ) :
    (DirectoryTree.directory (Entries.erase name entries)).SortedTree := by
  obtain ⟨order, children⟩ := sortedTree_directory_iff.mp sorted
  refine sortedTree_directory_iff.mpr ⟨order.erase _, ?_⟩
  intro other found stored
  rw [Entries.get_erase] at stored
  split at stored
  · cases stored
  · exact children other found stored

/-- A write trades the directories of the old subtree for those of the new one. -/
theorem directories_replace {tree old : DirectoryTree κ ν} (sorted : tree.SortedTree)
    {path : List κ} (found : tree.at? path = some old) (new : DirectoryTree κ ν) :
    (tree.replace path new).directories + old.directories =
      tree.directories + new.directories := by
  induction path generalizing tree with
  | nil =>
      obtain rfl : tree = old := by simpa using found
      cases tree <;> simp [replace, Nat.add_comm]
  | cons name path ih =>
      cases tree with
      | file value => simp at found
      | directory entries =>
          obtain ⟨order, children⟩ := sortedTree_directory_iff.mp sorted
          rw [at?_directory_cons] at found
          obtain ⟨child, present, found⟩ := Option.bind_eq_some_iff.mp found
          have below := ih (children name child present) found
          have balance := Entries.total_insert (fun entry => entry.2.directories) order name
            (child.replace path new)
          simp only [present, Option.map_some, Option.getD_some] at balance
          simp only [replace, present, directories, directoriesIn_eq_total]
          omega

/-- Storing a child adds its directories and drops those of the child it replaces. -/
theorem directories_store {entries : List (κ × DirectoryTree κ ν)} (sorted : Entries.Sorted entries)
    (name : κ) (child : DirectoryTree κ ν) :
    (DirectoryTree.directory (Entries.insert name child entries)).directories +
        ((Entries.get name entries).map directories).getD 0 =
      (DirectoryTree.directory entries).directories + child.directories := by
  have balance := Entries.total_insert (fun entry => entry.2.directories) sorted name child
  simp only [directories, directoriesIn_eq_total]
  cases found : Entries.get name entries with
  | none =>
      simp only [found, Option.map_none, Option.getD_none] at balance ⊢
      omega
  | some old =>
      simp only [found, Option.map_some, Option.getD_some] at balance ⊢
      omega

theorem directories_discard {entries : List (κ × DirectoryTree κ ν)}
    (sorted : Entries.Sorted entries) (name : κ) :
    (DirectoryTree.directory (Entries.erase name entries)).directories +
        ((Entries.get name entries).map directories).getD 0 =
      (DirectoryTree.directory entries).directories := by
  have balance := Entries.total_erase (fun entry => entry.2.directories) sorted name
  simp only [directories, directoriesIn_eq_total]
  cases found : Entries.get name entries with
  | none =>
      simp only [found, Option.map_none, Option.getD_none] at balance ⊢
      omega
  | some old =>
      simp only [found, Option.map_some, Option.getD_some] at balance ⊢
      omega

/-- The leaves of a sorted tree are the values its paths name. -/
theorem mem_leaves_iff {tree : DirectoryTree κ ν} (sorted : tree.SortedTree) {value : ν} :
    value ∈ tree.leaves ↔ ∃ path, tree.view path = some (.file value) := by
  induction tree using DirectoryTree.induct with
  | file other =>
      constructor
      · intro member
        obtain rfl : value = other := by simpa [leaves] using member
        exact ⟨[], by simp [entry]⟩
      · rintro ⟨path, named⟩
        cases path with
        | nil =>
            obtain rfl : other = value := by simpa [entry] using named
            simp [leaves]
        | cons name path => simp [view] at named
  | directory entries ih =>
      obtain ⟨order, children⟩ := sortedTree_directory_iff.mp sorted
      simp only [leaves, leavesIn_eq_flatMap, List.mem_flatMap]
      constructor
      · rintro ⟨⟨name, child⟩, stored, member⟩
        have present := Entries.get_of_mem order stored
        obtain ⟨path, named⟩ := (ih _ stored (children name child present)).mp member
        exact ⟨name :: path, by simpa [view, at?_directory_cons, present] using named⟩
      · rintro ⟨path, named⟩
        cases path with
        | nil => simp [entry] at named
        | cons name path =>
            rw [view_eq_file_iff, at?_directory_cons] at named
            obtain ⟨child, present, found⟩ := Option.bind_eq_some_iff.mp named
            have stored := Entries.mem_of_get present
            exact ⟨_, stored, (ih _ stored (children name child present)).mpr
              ⟨path, view_eq_file_iff.mpr found⟩⟩

/-- A value that stands at one path only stands once among the leaves. -/
theorem leaves_nodup {tree : DirectoryTree κ ν} (sorted : tree.SortedTree)
    (unique : ∀ first second value, tree.view first = some (.file value) →
      tree.view second = some (.file value) → first = second) : tree.leaves.Nodup := by
  induction tree using DirectoryTree.induct with
  | file value => simp [leaves]
  | directory entries ih =>
      obtain ⟨order, children⟩ := sortedTree_directory_iff.mp sorted
      have below {name : κ} {child : DirectoryTree κ ν} (present : Entries.get name entries = some child)
          (path : List κ) : (DirectoryTree.directory entries).view (name :: path) = child.view path := by
        simp [view, at?_directory_cons, present]
      rw [leaves, leavesIn_eq_flatMap, List.nodup_flatMap]
      constructor
      · rintro ⟨name, child⟩ stored
        have present := Entries.get_of_mem order stored
        apply ih _ stored (children name child present)
        intro first second value left right
        have same := unique (name :: first) (name :: second) value
          ((below present first).trans left) ((below present second).trans right)
        exact List.cons_injective same
      · have apart := List.Pairwise.and_mem.mp order
        refine apart.imp ?_
        rintro ⟨name, child⟩ ⟨other, sibling⟩ ⟨stored, placed, less⟩
        have present := Entries.get_of_mem order stored
        have beside := Entries.get_of_mem order placed
        intro value left right
        obtain ⟨first, named⟩ := (mem_leaves_iff (children name child present)).mp left
        obtain ⟨second, shared⟩ := (mem_leaves_iff (children other sibling beside)).mp right
        have same := unique (name :: first) (other :: second) value
          ((below present first).trans named) ((below beside second).trans shared)
        exact absurd (List.cons.inj same).1 (ne_of_lt less)

/-- Only finitely many paths of a tree name something. -/
theorem view_finite (tree : DirectoryTree κ ν) : {path | tree.view path ≠ none}.Finite := by
  induction tree using DirectoryTree.induct with
  | file value =>
      refine (Set.finite_singleton ([] : List κ)).subset ?_
      intro path named
      cases path with
      | nil => rfl
      | cons name path => simp [view] at named
  | directory entries ih =>
      have children : (⋃ entry ∈ {entry | entry ∈ entries},
          (fun path => entry.1 :: path) '' {path | entry.2.view path ≠ none}).Finite :=
        (List.finite_toSet entries).biUnion fun entry stored => (ih entry stored).image _
      refine (children.insert []).subset ?_
      intro path named
      cases path with
      | nil => exact Set.mem_insert _ _
      | cons name path =>
          refine Set.mem_insert_of_mem _ ?_
          cases present : Entries.get name entries with
          | none => simp [view, at?_directory_cons, present] at named
          | some child =>
              simp only [Set.mem_iUnion]
              refine ⟨(name, child), Entries.mem_of_get present, path, ?_, rfl⟩
              simpa [view, at?_directory_cons, present] using named

/-- These paths name the directories below the entries of one directory. -/
def childDirectories (entries : List (κ × DirectoryTree κ ν)) : Set (List κ) :=
  {path | ∃ entry ∈ entries, ∃ tail, path = entry.1 :: tail ∧ entry.2.view tail = some .directory}

theorem childDirectories_cons (entry : κ × DirectoryTree κ ν)
    (rest : List (κ × DirectoryTree κ ν)) :
    childDirectories (entry :: rest) =
      (List.cons entry.1) '' {path | entry.2.view path = some .directory} ∪
        childDirectories rest := by
  ext path
  simp only [childDirectories, List.mem_cons, exists_eq_or_imp, Set.mem_ofPred_eq, Set.mem_union,
    Set.mem_image]
  constructor
  · rintro (⟨tail, rfl, named⟩ | other)
    · exact .inl ⟨tail, named, rfl⟩
    · exact .inr other
  · rintro (⟨tail, named, rfl⟩ | other)
    · exact .inl ⟨tail, rfl, named⟩
    · exact .inr other

theorem childDirectories_finite (entries : List (κ × DirectoryTree κ ν)) :
    (childDirectories entries).Finite := by
  have all := (List.finite_toSet entries).biUnion fun entry _ =>
    (view_finite entry.2).image (List.cons entry.1)
  refine all.subset ?_
  rintro path ⟨entry, stored, tail, rfl, named⟩
  simp only [Set.mem_iUnion]
  exact ⟨entry, stored, tail, by simp [named], rfl⟩

theorem ncard_childDirectories {entries : List (κ × DirectoryTree κ ν)}
    (order : Entries.Sorted entries)
    (count : ∀ entry ∈ entries,
      {path | entry.2.view path = some .directory}.ncard = entry.2.directories) :
    (childDirectories entries).ncard = directoriesIn entries := by
  induction entries with
  | nil => simp [childDirectories, directoriesIn]
  | cons entry rest ih =>
      obtain ⟨above, tail⟩ := List.pairwise_cons.mp order
      have finite : {path | entry.2.view path = some .directory}.Finite :=
        (view_finite entry.2).subset fun path named => by simp [show _ = _ from named]
      have apart : Disjoint ((List.cons entry.1) '' {path | entry.2.view path = some .directory})
          (childDirectories rest) := by
        rw [Set.disjoint_left]
        rintro path ⟨suffix, -, rfl⟩ ⟨other, stored, tail, same, -⟩
        exact absurd (List.cons.inj same).1 (ne_of_lt (above other stored))
      have later := ih tail fun other stored => count other (List.mem_cons_of_mem _ stored)
      rw [childDirectories_cons, Set.ncard_union_eq apart (finite.image _)
        (childDirectories_finite rest), later,
        Set.ncard_image_of_injective _ List.cons_injective, count entry List.mem_cons_self]
      rcases entry with ⟨name, child⟩
      rfl

theorem view_directory_eq {entries : List (κ × DirectoryTree κ ν)} (order : Entries.Sorted entries) :
    {path | (DirectoryTree.directory entries).view path = some .directory} =
      insert [] (childDirectories entries) := by
  ext path
  cases path with
  | nil => simp [entry]
  | cons name path =>
      simp only [childDirectories, Set.mem_ofPred_eq, Set.mem_insert_iff, reduceCtorEq, false_or]
      constructor
      · intro named
        rw [view, at?_directory_cons] at named
        cases present : Entries.get name entries with
        | none => simp [present] at named
        | some child =>
            exact ⟨(name, child), Entries.mem_of_get present, path, rfl, by
              simpa [present, view] using named⟩
      · rintro ⟨⟨other, child⟩, stored, tail, same, named⟩
        obtain ⟨rfl, rfl⟩ := List.cons.inj same
        simpa [view, at?_directory_cons, Entries.get_of_mem order stored] using named

/-- The directories of a sorted tree are counted by the paths that name them. -/
theorem ncard_directories {tree : DirectoryTree κ ν} (sorted : tree.SortedTree) :
    {path | tree.view path = some .directory}.ncard = tree.directories := by
  induction tree using DirectoryTree.induct with
  | file value =>
      have none : {path | (DirectoryTree.file value : DirectoryTree κ ν).view path =
          some .directory} = ∅ := by
        ext path
        cases path <;> simp [view, entry]
      rw [none, Set.ncard_empty]
      rfl
  | directory entries ih =>
      obtain ⟨order, children⟩ := sortedTree_directory_iff.mp sorted
      have count := ncard_childDirectories order fun entry stored =>
        ih entry stored (children entry.1 entry.2 (Entries.get_of_mem order stored))
      rw [view_directory_eq order, Set.ncard_insert_of_notMem (by simp [childDirectories])
        (childDirectories_finite entries), count]
      rfl

/-- A childless tree stored under a free name adds one path to the view. -/
theorem view_store_single [DecidableEq (List κ)] {tree child : DirectoryTree κ ν} {path : List κ}
    {entries : List (κ × DirectoryTree κ ν)} (found : tree.at? path = some (.directory entries))
    {name : κ} (absent : Entries.get name entries = none)
    (single : ∀ first rest, child.view (first :: rest) = none) :
    (tree.replace path (.directory (Entries.insert name child entries))).view =
      Function.update tree.view (path ++ [name]) (some child.entry) := by
  funext query
  rw [view_store found]
  by_cases same : query = path ++ [name]
  · subst same
    rw [if_pos (List.prefix_refl _), Function.update_self, List.drop_eq_nil_of_le (by simp)]
    exact view_nil child
  · rw [Function.update_of_ne same]
    by_cases inside : path ++ [name] <+: query
    · obtain ⟨rest, rfl⟩ := inside
      obtain ⟨first, rest, rfl⟩ := List.exists_cons_of_ne_nil (by simpa using same : rest ≠ [])
      have tail : (path ++ [name] ++ first :: rest).drop (path.length + 1) = first :: rest :=
        List.drop_left' (by simp)
      have missing : tree.view (path ++ [name] ++ first :: rest) = none := by
        rw [List.append_assoc, view_append, found]
        simp [view, at?_directory_cons, absent]
      rw [if_pos (List.prefix_append _ _), tail, single, missing]
    · rw [if_neg inside]

/-- A childless tree that is erased removes one path from the view. -/
theorem view_discard_single [DecidableEq (List κ)] {tree child : DirectoryTree κ ν} {path : List κ}
    {entries : List (κ × DirectoryTree κ ν)} (found : tree.at? path = some (.directory entries))
    {name : κ} (present : Entries.get name entries = some child)
    (single : ∀ first rest, child.view (first :: rest) = none) :
    (tree.replace path (.directory (Entries.erase name entries))).view =
      Function.update tree.view (path ++ [name]) none := by
  funext query
  rw [view_discard found]
  by_cases same : query = path ++ [name]
  · subst same
    rw [if_pos (List.prefix_refl _), Function.update_self]
  · rw [Function.update_of_ne same]
    by_cases inside : path ++ [name] <+: query
    · obtain ⟨rest, rfl⟩ := inside
      obtain ⟨first, rest, rfl⟩ := List.exists_cons_of_ne_nil (by simpa using same : rest ≠ [])
      have missing : tree.view (path ++ [name] ++ first :: rest) = none := by
        rw [List.append_assoc, view_append, found]
        simpa [view, at?_directory_cons, present] using single first rest
      rw [if_pos (List.prefix_append _ _), missing]
    · rw [if_neg inside]

theorem single_file (value : ν) (first : κ) (rest : List κ) :
    (DirectoryTree.file value : DirectoryTree κ ν).view (first :: rest) = none := rfl

theorem single_empty (first : κ) (rest : List κ) :
    (DirectoryTree.directory [] : DirectoryTree κ ν).view (first :: rest) = none := rfl

end Paths

section Leaves
variable [LinearOrder κ] {tree old child : DirectoryTree κ ν} {path : List κ} {name : κ}
  {entries : List (κ × DirectoryTree κ ν)}

/-- A write trades the leaves of the old subtree for those of the new one. -/
theorem leaves_replace (sorted : tree.SortedTree) (found : tree.at? path = some old)
    (new : DirectoryTree κ ν) :
    ((tree.replace path new).leaves : Multiset ν) + old.leaves = tree.leaves + new.leaves := by
  induction path generalizing tree with
  | nil =>
      obtain rfl : tree = old := by simpa using found
      cases tree <;> simp [replace, add_comm]
  | cons name path ih =>
      cases tree with
      | file value => simp at found
      | directory entries =>
          obtain ⟨order, children⟩ := sortedTree_directory_iff.mp sorted
          rw [at?_directory_cons] at found
          obtain ⟨child, present, found⟩ := Option.bind_eq_some_iff.mp found
          have below := ih (children name child present) found
          have balance := Entries.total_insert (fun entry => (entry.2.leaves : Multiset ν)) order
            name (child.replace path new)
          simp only [present, Option.map_some, Option.getD_some] at balance
          simp only [replace, present, leaves, leavesIn_eq_total]
          apply add_right_cancel (b := (child.leaves : Multiset ν))
          rw [add_right_comm, balance, add_assoc, below, ← add_assoc, add_right_comm]

/-- Storing a child adds its leaves and drops those of the child it replaces. -/
theorem leaves_stored (sorted : tree.SortedTree) (found : tree.at? path = some (.directory entries))
    (name : κ) (child : DirectoryTree κ ν) :
    ((tree.replace path (.directory (Entries.insert name child entries))).leaves : Multiset ν) +
        ((Entries.get name entries).map fun old => (old.leaves : Multiset ν)).getD 0 =
      tree.leaves + child.leaves := by
  have order := sorted path entries found
  have outer := leaves_replace sorted found (.directory (Entries.insert name child entries))
  have inner := Entries.total_insert (fun entry => (entry.2.leaves : Multiset ν)) order name child
  simp only [leaves, leavesIn_eq_total] at outer
  apply add_right_cancel (b := Entries.total (fun entry => (entry.2.leaves : Multiset ν)) entries)
  rw [add_right_comm, outer, add_assoc, inner, add_comm (Entries.total _ entries), ← add_assoc]

theorem leaves_discarded (sorted : tree.SortedTree)
    (found : tree.at? path = some (.directory entries)) (name : κ) :
    ((tree.replace path (.directory (Entries.erase name entries))).leaves : Multiset ν) +
        ((Entries.get name entries).map fun old => (old.leaves : Multiset ν)).getD 0 =
      tree.leaves := by
  have order := sorted path entries found
  have outer := leaves_replace sorted found (.directory (Entries.erase name entries))
  have inner := Entries.total_erase (fun entry => (entry.2.leaves : Multiset ν)) order name
  simp only [leaves, leavesIn_eq_total] at outer
  apply add_right_cancel (b := Entries.total (fun entry => (entry.2.leaves : Multiset ν)) entries)
  rw [add_right_comm, outer, add_assoc, inner]

/-- A value that stands at two paths is twice among the leaves. -/
theorem leaves_twice (sorted : tree.SortedTree) {first second : List κ} {value : ν}
    (left : tree.view first = some (.file value)) (right : tree.view second = some (.file value))
    (different : first ≠ second) :
    ∃ rest : Multiset ν, (tree.leaves : Multiset ν) = value ::ₘ value ::ₘ rest := by
  have found := view_eq_file_iff.mp left
  have apart : ¬ first <+: second := by
    rintro ⟨rest, rfl⟩
    have proper : rest ≠ [] := fun empty => different (by rw [empty, List.append_nil])
    have above := view_of_longer (by rw [right]; exact Option.some_ne_none _) proper
    rw [left] at above
    cases above
  have stays : (tree.replace first (.directory [])).view second = some (.file value) := by
    rw [view_replace found, if_neg apart, right]
  have empty : (DirectoryTree.directory [] : DirectoryTree κ ν).SortedTree :=
    sortedTree_directory_iff.mpr ⟨List.Pairwise.nil, by simp⟩
  have member := (mem_leaves_iff (sorted.replace first empty)).mpr ⟨second, stays⟩
  have balance := leaves_replace sorted found (.directory [])
  obtain ⟨rest, split⟩ := Multiset.exists_cons_of_mem (Multiset.mem_coe.mpr member)
  refine ⟨rest, ?_⟩
  rw [split] at balance
  calc (tree.leaves : Multiset ν) = value ::ₘ rest + {value} := by
        rw [← Multiset.coe_singleton]
        exact (balance.trans (add_zero _)).symm
    _ = value ::ₘ value ::ₘ rest := by
        rw [Multiset.add_comm, Multiset.singleton_add]

/-- The store and the removal of a child, counted in the whole tree. -/
theorem directories_stored (sorted : tree.SortedTree)
    (found : tree.at? path = some (.directory entries)) (name : κ) (child : DirectoryTree κ ν) :
    (tree.replace path (.directory (Entries.insert name child entries))).directories +
        ((Entries.get name entries).map directories).getD 0 =
      tree.directories + child.directories := by
  have outer := directories_replace sorted found (.directory (Entries.insert name child entries))
  have inner := directories_store (sorted path entries found) name child
  omega

theorem directories_discarded (sorted : tree.SortedTree)
    (found : tree.at? path = some (.directory entries)) (name : κ) :
    (tree.replace path (.directory (Entries.erase name entries))).directories +
        ((Entries.get name entries).map directories).getD 0 = tree.directories := by
  have outer := directories_replace sorted found (.directory (Entries.erase name entries))
  have inner := directories_discard (sorted path entries found) name
  omega

end Leaves

end DirectoryTree

end TinySandbox.Library
