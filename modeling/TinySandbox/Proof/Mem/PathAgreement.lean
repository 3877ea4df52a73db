/-
This file shows that the path operations agree with the flat filesystem.
-/

import TinySandbox.Proof.Mem.Release

namespace TinySandbox.Mem
open Library Library.Call DirectoryTree

variable {quota : VfsQuota} {arcs : Arcs} {state : State}

/-- Every node of the tree has its metadata. -/
theorem Invariant.metadataForNode (invariant : Invariant quota state) {path : Path} {node : Node}
    (found : state.root.at? path = some node) :
    metadataForNode state node = .ok (state.flat.metadata node.entry) := by
  cases node with
  | directory entries => rfl
  | file inode =>
      obtain ⟨file, stored, -⟩ := invariant.linked inode ⟨path, view_eq_file_iff.mpr found⟩
      simp [Mem.metadataForNode, FlatFs.metadata, entry, State.flat, stored]

theorem stat_agrees (invariant : Invariant quota state) (path : Text) :
    Agrees quota arcs state False (outcome (stat path) state) (state.flat.stat path) := by
  refine agrees_lift rfl fun path _ => agrees_get ?_
  refine agrees_lift_map entry (resolve_flat state path) fun node walk => ?_
  rw [outcome_lift, invariant.metadataForNode (getNode_eq_ok_iff.mp walk)]
  exact agrees_pure invariant _

theorem dirEntries_eq {entries : Directory}
    (described : ∀ entry ∈ entries,
      metadataForNode state entry.2 = .ok (state.flat.metadata entry.2.entry)) :
    dirEntries state entries =
      .ok (entries.map fun entry => ⟨entry.1, state.flat.metadata entry.2.entry⟩) := by
  induction entries with
  | nil => rfl
  | cons entry rest ih =>
      obtain ⟨here, below⟩ := List.forall_mem_cons.mp described
      obtain ⟨name, node⟩ := entry
      simp only [dirEntries, here, ih below, List.map_cons]

/-- The stored names of a directory are its children in the flat filesystem. -/
theorem mem_children_flat {path : Path} {entries : Directory}
    (found : state.root.at? path = some (.directory entries)) (name : Name) :
    name ∈ state.flat.children path ↔ Entries.get name entries ≠ none := by
  change state.root.view (path ++ [name]) ≠ none ↔ _
  rw [Ne, view_eq_none_iff, at?_append, found, Option.bind_some, directory_at?_single]

theorem children_flat_eq_empty_iff (sorted : state.root.SortedTree) {path : Path}
    {entries : Directory} (found : state.root.at? path = some (.directory entries)) :
    state.flat.children path = ∅ ↔ entries = [] := by
  have order := sorted path entries found
  rw [Set.eq_empty_iff_forall_notMem]
  constructor
  · intro empty
    apply List.eq_nil_iff_forall_not_mem.mpr
    rintro ⟨name, child⟩ member
    apply empty name
    rw [mem_children_flat found, Entries.get_of_mem order member]
    exact Option.some_ne_none child
  · rintro rfl name
    simp [mem_children_flat found]

/-- The stored order of a directory is the order of its sorted children. -/
theorem sortedChildren_flat (sorted : state.root.SortedTree) {path : Path} {entries : Directory}
    (found : state.root.at? path = some (.directory entries)) :
    state.flat.sortedChildren path = entries.map Prod.fst := by
  have order := sorted path entries found
  have names : (entries.map Prod.fst).Pairwise (· < ·) := List.pairwise_map.mpr order
  have same : state.flat.children path = ((entries.map Prod.fst).toFinset : Set Name) := by
    ext name
    rw [mem_children_flat found]
    simp only [List.coe_toFinset, List.mem_map, Set.mem_ofPred_eq]
    constructor
    · intro stored
      obtain ⟨child, present⟩ := Option.ne_none_iff_exists'.mp stored
      exact ⟨(name, child), Entries.mem_of_get present, rfl⟩
    · rintro ⟨⟨name, child⟩, member, rfl⟩
      rw [Entries.get_of_mem order member]
      exact Option.some_ne_none child
  have finite : (state.flat.children path).Finite := same ▸ Finset.finite_toSet _
  have listed : finite.toFinset = (entries.map Prod.fst).toFinset := by
    rw [← Finset.coe_inj, Set.Finite.coe_toFinset, same]
  rw [FlatFs.sortedChildren, dif_pos finite, listed]
  exact (List.toFinset_sort _ (names.imp ne_of_lt)).mpr (names.imp le_of_lt)

theorem readdir_agrees (invariant : Invariant quota state) (path : Text) :
    Agrees quota arcs state False (outcome (readdir path) state) (state.flat.readdir path) := by
  refine agrees_lift rfl fun path _ => agrees_get ?_
  refine agrees_lift_map entry (resolve_flat state path) fun node walk => ?_
  have found := getNode_eq_ok_iff.mp walk
  cases node with
  | file inode => exact agrees_error .ENOTDIR
  | directory entries =>
      have order := invariant.sortedRoot path entries found
      have below (child : Name × Node) (member : child ∈ entries) :
          state.root.at? (path ++ [child.1]) = some child.2 := by
        rw [at?_append, found, Option.bind_some, directory_at?_single]
        exact Entries.get_of_mem order member
      have listed : entries.map (fun child => (⟨child.1, state.flat.metadata child.2.entry⟩ : DirEntry)) =
          (state.flat.sortedChildren path).map (state.flat.dirEntry path) := by
        rw [sortedChildren_flat invariant.sortedRoot found, List.map_map]
        refine List.map_congr_left fun child member => ?_
        have named : state.flat.entries (path ++ [child.1]) = some child.2.entry := by
          simp [State.flat, view, below child member]
        simp [FlatFs.dirEntry, named]
      simp only [outcome_lift]
      rw [dirEntries_eq fun child member => invariant.metadataForNode (below child member), listed]
      exact agrees_pure invariant _

theorem expectMissing_flat (state : State) (path : Path) :
    state.flat.expectMissing path = expectMissing (getNode state.root path) := by
  unfold FlatFs.expectMissing
  rw [resolve_flat]
  cases getNode state.root path with
  | ok node => rfl
  | error error => cases error <;> rfl

theorem Invariant.entrySlot_flat (invariant : Invariant quota state) :
    state.flat.entrySlot quota = ensureEntrySlot quota state := by
  simp only [FlatFs.entrySlot, ensureEntrySlot, invariant.entryCount]

theorem expectMissing_ok {root : Node} {path : Path}
    (checked : expectMissing (getNode root path) = .ok ()) : root.at? path = none := by
  cases found : root.at? path with
  | none => rfl
  | some node => simp [getNode_of_at? found, expectMissing] at checked

theorem ensureEntrySlot_ok (checked : ensureEntrySlot quota state = .ok ()) :
    state.fileCount < quota.maxFiles.toNat := by
  unfold ensureEntrySlot at checked
  split at checked
  · cases checked
  · omega

/-- The entry count of a free slot cannot overflow. -/
theorem addU64_fileCount (checked : ensureEntrySlot quota state = .ok ()) :
    addU64 state.fileCount 1 = some (state.fileCount + 1) := by
  have room := ensureEntrySlot_ok checked
  have bound := uint64_le_u64Max quota.maxFiles
  exact if_pos (by omega)

section Single
variable {root child : Node} {parent : Path} {name : Name} {entries : Directory}

/-- A new file or empty directory keeps the tree well formed. -/
theorem WellRooted.storeSingle (wellRooted : WellRooted root)
    (found : root.at? parent = some (.directory entries))
    (absent : Entries.get name entries = none)
    (single : ∀ first rest, child.view (first :: rest) = none) (sorted : child.SortedTree)
    (shallow : parent.length + 1 ≤ maxPathDepth)
    (fresh : ∀ inode, child.entry = .file inode → ∀ path, root.view path ≠ some (.file inode)) :
    WellRooted (root.replace parent (.directory (Entries.insert name child entries))) := by
  have views := view_store_single found absent single
  have order := wellRooted.sortedRoot.at? found
  constructor
  · have rooted : root.view [] = some .directory := by rw [view_nil, wellRooted.rootDirectory]
    have named : (root.replace parent (.directory (Entries.insert name child entries))).view [] =
        some .directory := by
      rw [views, Function.update_of_ne (by simp), rooted]
    rw [view_nil] at named
    exact Option.some.inj named
  · exact wellRooted.sortedRoot.replace parent (order.store sorted name)
  · intro path named
    rw [views] at named
    by_cases here : path = parent ++ [name]
    · simp only [here, List.length_append, List.length_singleton]
      exact shallow
    · rw [Function.update_of_ne here] at named
      exact wellRooted.depth path named
  · intro first second inode left right
    rw [views] at left right
    by_cases here : first = parent ++ [name] <;> by_cases there : second = parent ++ [name]
    · exact here.trans there.symm
    · rw [here, Function.update_self] at left
      rw [Function.update_of_ne there] at right
      exact absurd right (fresh inode (Option.some.inj left) second)
    · rw [there, Function.update_self] at right
      rw [Function.update_of_ne here] at left
      exact absurd left (fresh inode (Option.some.inj right) first)
    · rw [Function.update_of_ne here] at left
      rw [Function.update_of_ne there] at right
      exact wellRooted.onePath first second inode left right

/-- A single node that leaves the tree keeps it well formed. -/
theorem WellRooted.discardSingle (wellRooted : WellRooted root)
    (found : root.at? parent = some (.directory entries))
    (present : Entries.get name entries = some child)
    (single : ∀ first rest, child.view (first :: rest) = none) :
    WellRooted (root.replace parent (.directory (Entries.erase name entries))) := by
  have views := view_discard_single found present single
  have order := wellRooted.sortedRoot.at? found
  have kept {path : Path} {value : Entry Inode}
      (named : Function.update root.view (parent ++ [name]) none path = some value) :
      root.view path = some value := by
    by_cases here : path = parent ++ [name]
    · rw [here, Function.update_self] at named
      cases named
    · rwa [Function.update_of_ne here] at named
  constructor
  · have named : (root.replace parent (.directory (Entries.erase name entries))).view [] =
        some .directory := by
      rw [views, Function.update_of_ne (by simp), view_nil, wellRooted.rootDirectory]
    rw [view_nil] at named
    exact Option.some.inj named
  · exact wellRooted.sortedRoot.replace parent (order.discard name)
  · intro path named
    rw [views] at named
    obtain ⟨value, stored⟩ := Option.ne_none_iff_exists'.mp named
    exact wellRooted.depth path (by simp [kept stored])
  · intro first second inode left right
    rw [views] at left right
    exact wellRooted.onePath first second inode (kept left) (kept right)

theorem directories_storeSingle (sorted : root.SortedTree)
    (found : root.at? parent = some (.directory entries))
    (absent : Entries.get name entries = none) (child : Node) :
    (root.replace parent (.directory (Entries.insert name child entries))).directories =
      root.directories + child.directories := by
  have outer := directories_replace sorted found
    (.directory (Entries.insert name child entries))
  have inner := directories_store (sorted parent entries found) name child
  simp only [absent, Option.map_none, Option.getD_none] at inner
  omega

theorem directories_discardSingle (sorted : root.SortedTree)
    (found : root.at? parent = some (.directory entries))
    (present : Entries.get name entries = some child) :
    (root.replace parent (.directory (Entries.erase name entries))).directories +
      child.directories = root.directories := by
  have outer := directories_replace sorted found (.directory (Entries.erase name entries))
  have inner := directories_discard (sorted parent entries found) name
  simp only [present, Option.map_some, Option.getD_some] at inner
  omega

end Single

theorem mkdir_agrees (invariant : Invariant quota state) (path : Text) :
    Agrees quota arcs state False (outcome (mkdir quota path) state)
      (state.flat.mkdir quota path) := by
  refine agrees_lift rfl fun path resolved => ?_
  refine agrees_refuse Iff.rfl .EEXIST fun below => agrees_get ?_
  refine agrees_lift (expectMissing_flat state path) fun _ checked => ?_
  refine agrees_lift (parentDirectory_flat state below) fun _ directory => ?_
  refine agrees_lift invariant.entrySlot_flat fun _ slot => ?_
  have normal := normalizePath_normal resolved
  obtain ⟨parent, name, entries, rfl, found⟩ := ensureParentIsDir_ok directory
  have absent : Entries.get name entries = none := by
    have missing := expectMissing_ok checked
    rwa [at?_append, found, Option.bind_some, directory_at?_single] at missing
  rw [parentDirMut_snoc found, outcome_lift_bind_ok]
  simp only [outcome_bind, outcome_orPanic, addU64_fileCount slot, Option.map_some,
    Option.bind_some, outcome_set]
  have views := view_store_single found absent (single_empty (κ := Name) (ν := Inode))
  have empty : (.directory [] : Node).SortedTree :=
    sortedTree_directory_iff.mpr ⟨List.Pairwise.nil, by simp⟩
  have wellRooted := invariant.toWellRooted.storeSingle found absent single_empty empty
    (by simpa using normal.depth) (fun inode named => by cases named)
  have directories := directories_storeSingle invariant.sortedRoot found absent (.directory [])
  refine ⟨?_, invariant.reroot wellRooted ?_ (ensureEntrySlot_ok slot) ?_, .refl arcs _⟩
  · refine congrArg Except.ok (Prod.ext rfl (FlatFs.ext ?_ rfl rfl rfl rfl))
    exact views.symm
  · have count := invariant.fileCount
    simp only [DirectoryTree.directories, DirectoryTree.directoriesIn] at directories
    omega
  · intro inode
    refine exists_congr fun path => ?_
    rw [views]
    by_cases here : path = parent ++ [name]
    · have gone : state.root.view (parent ++ [name]) = none :=
        view_eq_none_iff.mpr (expectMissing_ok checked)
      simp [here, entry, gone]
    · rw [Function.update_of_ne here]

/-- A settled call agrees with the collected filesystem. -/
theorem Settles.agrees {next : State} {reached : Option (VfsResult Unit × State)}
    (settles : Settles quota next reached) (state : State) (arcs : Arcs) (panics : Prop)
    (same : next.files = state.files) :
    Agrees quota arcs state panics reached (.ok ((), next.flat.collect)) := by
  obtain ⟨after, rfl, flat, invariant, kept⟩ := settles
  refine ⟨by rw [flat], invariant, .same arcs ?_⟩
  rw [← same]
  exact kept

section Remove
variable {parent : Path} {name : Name} {entries : Directory}

/-- A file that leaves its directory is collected when nothing else holds it. -/
theorem removeFile_agrees (invariant : Invariant quota state)
    (found : state.root.at? parent = some (.directory entries)) {inode : Inode}
    (present : Entries.get name entries = some (.file inode)) {panics : Prop} :
    Agrees quota arcs state panics
      (outcome (removeTree (.file inode))
        { state with root := state.root.replace parent (.directory (Entries.erase name entries)) })
      (.ok ((), (state.flat.forget (parent ++ [name])).collect)) := by
  have views := view_discard_single found present (single_file inode)
  have named : state.root.view (parent ++ [name]) = some (.file inode) := by
    rw [view_append, found, Option.bind_some, view, directory_at?_single, present]
    rfl
  have remaining (other : Inode) :
      (∃ path, (state.root.replace parent (.directory (Entries.erase name entries))).view path =
        some (.file other)) ↔ Reachable state other ∧ other ≠ inode := by
    rw [views]
    constructor
    · rintro ⟨path, later⟩
      by_cases here : path = parent ++ [name]
      · rw [here, Function.update_self] at later
        cases later
      · rw [Function.update_of_ne here] at later
        refine ⟨⟨path, later⟩, ?_⟩
        rintro rfl
        exact here (invariant.onePath path _ other later named)
    · rintro ⟨⟨path, before⟩, different⟩
      refine ⟨path, ?_⟩
      have elsewhere : path ≠ parent ++ [name] := by
        rintro rfl
        rw [named] at before
        exact different (Entry.file.inj (Option.some.inj before)).symm
      rw [Function.update_of_ne elsewhere, before]
  have settles := removeTree_file_settles invariant
    (invariant.toWellRooted.discardSingle found present (single_file inode))
    (directories_discardSingle invariant.sortedRoot found present) ⟨_, named⟩ remaining
  have agreed := settles.agrees state arcs panics rfl
  have flat : ({ state with
      root := state.root.replace parent (.directory (Entries.erase name entries)) } : State).flat =
      state.flat.forget (parent ++ [name]) :=
    FlatFs.ext views rfl rfl rfl rfl
  rwa [flat] at agreed

/-- An empty directory that leaves its parent changes nothing else. -/
theorem removeEmpty_agrees (invariant : Invariant quota state)
    (found : state.root.at? parent = some (.directory entries))
    (present : Entries.get name entries = some (.directory [])) {panics : Prop} :
    Agrees quota arcs state panics
      (outcome (removeTree (.directory []))
        { state with root := state.root.replace parent (.directory (Entries.erase name entries)) })
      (.ok ((), state.flat.forget (parent ++ [name]))) := by
  have views := view_discard_single found present single_empty
  have named : state.root.view (parent ++ [name]) = some .directory := by
    rw [view_append, found, Option.bind_some, view, directory_at?_single, present]
    rfl
  have same (inode : Inode) :
      (∃ path, (state.root.replace parent (.directory (Entries.erase name entries))).view path =
        some (.file inode)) ↔ Reachable state inode := by
    rw [views]
    refine exists_congr fun path => ?_
    by_cases here : path = parent ++ [name]
    · simp [here, named]
    · rw [Function.update_of_ne here]
  obtain ⟨reached, settled⟩ := removeTree_empty invariant
    (invariant.toWellRooted.discardSingle found present single_empty)
    (directories_discardSingle invariant.sortedRoot found present) same
  rw [reached]
  refine ⟨congrArg Except.ok (Prod.ext rfl (FlatFs.ext ?_ rfl rfl rfl rfl)), settled, .refl arcs _⟩
  exact views.symm

end Remove

theorem unlink_agrees (invariant : Invariant quota state) (path : Text) :
    Agrees quota arcs state False (outcome (unlink path) state) (state.flat.unlink path) := by
  refine agrees_lift rfl fun path _ => ?_
  refine agrees_refuse Iff.rfl .EISDIR fun below => agrees_get ?_
  rw [resolve_flat]
  cases checked : ensureParentIsDir state.root path with
  | error error =>
      rw [parentDirMut_error checked, getNode_error below checked]
      exact agrees_error error
  | ok _ =>
      obtain ⟨parent, name, entries, rfl, found⟩ := ensureParentIsDir_ok checked
      rw [parentDirMut_snoc found, outcome_lift_bind_ok, getNode_snoc found]
      cases present : Entries.get name entries with
      | none =>
          simp only [present]
          exact agrees_error .ENOENT
      | some child =>
          simp only [present, okOr_some]
          cases child with
          | directory children => exact agrees_error .EISDIR
          | file inode => exact removeFile_agrees invariant found present

theorem rmdir_agrees (invariant : Invariant quota state) (path : Text) :
    Agrees quota arcs state False (outcome (rmdir path) state) (state.flat.rmdir path) := by
  refine agrees_lift rfl fun path _ => ?_
  refine agrees_refuse Iff.rfl .EBUSY fun below => agrees_get ?_
  rw [resolve_flat]
  cases checked : ensureParentIsDir state.root path with
  | error error =>
      rw [parentDirMut_error checked, getNode_error below checked]
      exact agrees_error error
  | ok _ =>
      obtain ⟨parent, name, entries, rfl, found⟩ := ensureParentIsDir_ok checked
      rw [parentDirMut_snoc found, outcome_lift_bind_ok, getNode_snoc found]
      cases present : Entries.get name entries with
      | none =>
          simp only [present]
          exact agrees_error .ENOENT
      | some child =>
          simp only [present, okOr_some]
          cases child with
          | file inode => exact agrees_error .ENOTDIR
          | directory children =>
              have here : state.root.at? (parent ++ [name]) = some (.directory children) := by
                rw [at?_append, found, Option.bind_some, directory_at?_single, present]
              have empty := children_flat_eq_empty_iff invariant.sortedRoot here
              change Agrees _ _ _ _ _ (if state.flat.children (parent ++ [name]) = ∅ then _ else _)
              cases children with
              | cons first rest =>
                  rw [if_neg (by simp [empty])]
                  exact agrees_error .ENOTEMPTY
              | nil =>
                  rw [if_pos (empty.mpr rfl)]
                  exact removeEmpty_agrees invariant found present

end TinySandbox.Mem
