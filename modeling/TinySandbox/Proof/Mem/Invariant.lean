/-
This file gives the representation invariant of the in-memory filesystem.
Under the invariant the stored counters are the counts of the flat filesystem.
-/

import TinySandbox.Proof.Mem.Tree
import TinySandbox.Specification.FlatFs

namespace TinySandbox.Mem
open Library DirectoryTree

/-- The inode stands somewhere in the tree. -/
def Reachable (state : State) (inode : Inode) : Prop :=
  ∃ path, state.root.view path = some (.file inode)

/-- This counts the handles that name the inode. -/
def handleCount (handles : OrderedMap Nat Handle) (inode : Inode) : Nat :=
  handles.total fun handle => if handle.inode = inode then 1 else 0

/-- The tree starts at a directory, keeps its order, and names no inode twice. -/
structure WellRooted (root : Node) : Prop where
  rootDirectory : root.entry = .directory
  sortedRoot : root.SortedTree
  depth : ∀ path, root.view path ≠ none → path.length ≤ maxPathDepth
  onePath : ∀ first second inode, root.view first = some (.file inode) →
    root.view second = some (.file inode) → first = second

/-- The counters, links, and open counts describe the tree and the tables exactly. -/
structure Accounted (quota : VfsQuota) (state : State) : Prop extends WellRooted state.root where
  usedBytes : state.usedBytes = state.files.total fun file => file.data.bytes.length
  fileCount : state.fileCount + 1 = state.root.directories + state.files.size
  linked : ∀ inode, Reachable state inode →
    ∃ file, state.files.get inode = some file ∧ file.links = 1
  unlinked : ∀ inode file, state.files.get inode = some file → ¬ Reachable state inode →
    file.links = 0
  openHandles : ∀ inode file, state.files.get inode = some file →
    file.openHandles = handleCount state.handles inode
  handleFile : ∀ number handle, state.handles.get number = some handle →
    ∃ file, state.files.get handle.inode = some file
  inodeBelow : ∀ inode file, state.files.get inode = some file → inode < state.nextInode
  handleBelow : ∀ number handle, state.handles.get number = some handle →
    number < state.nextHandle
  maxBytes : state.usedBytes ≤ quota.maxBytes.toNat
  maxFiles : state.fileCount ≤ quota.maxFiles.toNat
  maxFileSize : ∀ inode file, state.files.get inode = some file →
    file.data.bytes.length ≤ quota.maxFileSize.toNat

/-- Between two calls every stored file is reachable or open. -/
structure Invariant (quota : VfsQuota) (state : State) : Prop extends Accounted quota state where
  held : ∀ inode file, state.files.get inode = some file → ¬ Reachable state inode →
    1 ≤ file.openHandles

theorem uint64_le_u64Max (value : UInt64) : value.toNat ≤ u64Max := by
  have below := value.toNat_lt
  unfold u64Max
  omega

theorem Invariant.default (quota : VfsQuota) : Invariant quota State.default := by
  have views (path : Path) (named : State.default.root.view path ≠ none) : path = [] := by
    cases path with
    | nil => rfl
    | cons name path => simp [State.default, view, at?_directory_cons] at named
  have noFile (path : Path) (inode : Inode) :
      State.default.root.view path ≠ some (.file inode) := by
    intro named
    have root := views path (by simp [named])
    subst root
    simp [State.default, entry] at named
  have noEntry (inode : Inode) (file : FileNode) : State.default.files.get inode ≠ some file := by
    simp [State.default]
  have noHandle (number : Nat) (handle : Handle) :
      State.default.handles.get number ≠ some handle := by
    simp [State.default]
  exact
    { rootDirectory := rfl
      sortedRoot := sortedTree_directory_iff.mpr ⟨List.Pairwise.nil, by simp⟩
      depth := fun path named => by simp [views path named]
      usedBytes := rfl
      fileCount := rfl
      onePath := fun first _ inode named _ => absurd named (noFile first inode)
      linked := fun inode reachable => absurd reachable.choose_spec (noFile _ inode)
      unlinked := fun inode file found => absurd found (noEntry inode file)
      openHandles := fun inode file found => absurd found (noEntry inode file)
      handleFile := fun number handle found => absurd found (noHandle number handle)
      inodeBelow := fun inode file found => absurd found (noEntry inode file)
      handleBelow := fun number handle found => absurd found (noHandle number handle)
      maxBytes := Nat.zero_le _
      maxFiles := Nat.zero_le _
      maxFileSize := fun inode file found => absurd found (noEntry inode file)
      held := fun inode file found => absurd found (noEntry inode file) }

/-- The flat filesystem of a state forgets the tree and the counters. -/
def State.flat (state : State) : FlatFs where
  entries := state.root.view
  contents := fun inode => (state.files.get inode).map fun file => file.data.bytes
  handles := state.handles.get
  nextId := state.nextInode
  nextHandle := state.nextHandle

/-- The walk and the flat filesystem agree on what a path names and on why it fails. -/
theorem resolve_flat (state : State) (path : Path) :
    state.flat.resolve path = (getNode state.root path).map entry := by
  unfold FlatFs.resolve
  cases found : state.root.at? path with
  | some node =>
      have named : state.flat.entries path = some node.entry := by
        simp [State.flat, view, found]
      rw [named, getNode_of_at? found]
      rfl
  | none =>
      have named : state.flat.entries path = none := by
        simp [State.flat, view, found]
      rw [named]
      by_cases blocked : BelowFile state.root path
      · rw [(getNode_of_none found).1 blocked]
        exact if_pos blocked
      · rw [(getNode_of_none found).2 blocked]
        exact if_neg blocked

/-- The parent check is the parent check of the flat filesystem. -/
theorem parentDirectory_flat (state : State) {path : Path} (below : path ≠ []) :
    state.flat.parentDirectory path = ensureParentIsDir state.root path := by
  obtain ⟨name, last⟩ := Option.ne_none_iff_exists'.mp
    (mt List.getLast?_eq_none_iff.mp below)
  simp only [FlatFs.parentDirectory, ensureParentIsDir, last, resolve_flat]
  cases getNode state.root path.dropLast with
  | error error => rfl
  | ok node => cases node <;> rfl

/-- The stored entry count is the entry count of the flat filesystem. -/
theorem Accounted.entryCount {quota : VfsQuota} {state : State} (accounted : Accounted quota state) :
    state.flat.entryCount = state.fileCount := by
  have rooted : state.root.view [] = some .directory := by
    rw [view_nil, accounted.rootDirectory]
  have split : {path | state.root.view path = some .directory} =
      insert [] {path | path ≠ [] ∧ state.root.view path = some .directory} := by
    ext path
    by_cases root : path = []
    · simp [root, rooted]
    · simp [root]
  have finite : {path | path ≠ [] ∧ state.root.view path = some .directory}.Finite :=
    (view_finite state.root).subset fun path named => by simp [named.2]
  have directories := ncard_directories accounted.sortedRoot
  rw [split, Set.ncard_insert_of_notMem (by simp) finite] at directories
  have files : {inode | state.flat.contents inode ≠ none}.ncard = state.files.size := by
    rw [← OrderedMap.ncard_keys]
    congr 1
    ext inode
    simp [State.flat]
  have count := accounted.fileCount
  unfold FlatFs.entryCount
  rw [files]
  change Set.ncard {path | path ≠ [] ∧ state.root.view path = some .directory} + _ = _
  omega

/-- The bytes of the flat filesystem are the bytes of the file table. -/
theorem flat_byteCount (state : State) :
    state.flat.byteCount = state.files.total fun file => file.data.bytes.length := by
  rw [← OrderedMap.finsum_total]
  unfold FlatFs.byteCount
  apply finsum_congr
  intro inode
  simp only [State.flat, Option.map_map]
  rfl

end TinySandbox.Mem
