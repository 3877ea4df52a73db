/-
This file shows what a snapshot collects and what a restore brings back.
-/

import TinySandbox.Proof.Mem.Release

namespace TinySandbox.Mem
open Library Library.Call DirectoryTree

variable {quota : VfsQuota} {state : State}

/-- A snapshot keeps the data of a file with one link and no open handle. -/
def FileNode.stored (file : FileNode) : FileNode :=
  { data := file.data, links := 1, openHandles := 0 }

/-- The bytes below a list of inodes. -/
def leafBytes (files : OrderedMap Inode FileNode) (leaves : List Inode) : Nat :=
  (leaves.map fun inode => ((files.get inode).map fun file => file.data.bytes.length).getD 0).sum

/-- The walk added exactly the listed leaves, their bytes, and the given entries. -/
structure Gathers (files : OrderedMap Inode FileNode) (leaves : List Inode) (entries : Nat)
    (before after : Collected) : Prop where
  usedBytes : after.usedBytes = before.usedBytes + leafBytes files leaves
  fileCount : after.fileCount = before.fileCount + entries
  inside : ∀ inode ∈ leaves, after.files.get inode = (files.get inode).map FileNode.stored
  outside : ∀ inode, inode ∉ leaves → after.files.get inode = before.files.get inode

theorem leafBytes_append (files : OrderedMap Inode FileNode) (first second : List Inode) :
    leafBytes files (first ++ second) = leafBytes files first + leafBytes files second := by
  simp [leafBytes]

/-- The walk below a directory counts every entry except the directory itself. -/
def entriesBelow : Node → Nat
  | .file _ => 1
  | .directory entries => directoriesIn entries + (leavesIn entries).length

/-- A directory counts as one entry of its parent, and a file counts below itself. -/
def ownEntry (node : Node) : Nat := if nodeKind node = .directory then 1 else 0

theorem ownEntry_add (node : Node) :
    ownEntry node + entriesBelow node = node.directories + node.leaves.length := by
  cases node with
  | file inode => simp [ownEntry, nodeKind, entriesBelow, directories, leaves]
  | directory entries =>
      simp only [ownEntry, nodeKind, entriesBelow, directories, leaves, if_pos]
      omega

theorem Gathers.trans {files : OrderedMap Inode FileNode} {first second : List Inode}
    {counted more : Nat} {before middle after : Collected}
    (left : Gathers files first counted before middle)
    (right : Gathers files second more middle after) :
    Gathers files (first ++ second) (counted + more) before after where
  usedBytes := by rw [right.usedBytes, left.usedBytes, leafBytes_append]; omega
  fileCount := by rw [right.fileCount, left.fileCount]; omega
  inside := fun inode member => by
    by_cases later : inode ∈ second
    · exact right.inside inode later
    · rw [right.outside inode later]
      exact left.inside inode ((List.mem_append.mp member).resolve_right later)
  outside := fun inode absent => by
    rw [List.mem_append, not_or] at absent
    rw [right.outside inode absent.2, left.outside inode absent.1]

/-- The walk succeeds when every leaf is stored and the counters do not overflow. -/
theorem collectSnapshotEntries_spec (files : OrderedMap Inode FileNode) (node : Node) :
    ∀ collected : Collected, (∀ inode ∈ node.leaves, files.get inode ≠ none) →
      collected.usedBytes + leafBytes files node.leaves ≤ u64Max →
      collected.fileCount + entriesBelow node ≤ u64Max →
      ∃ reached, collectSnapshotEntries files node collected = .ok reached ∧
        Gathers files node.leaves (entriesBelow node) collected reached := by
  induction node using DirectoryTree.induct with
  | file inode =>
      intro collected stored bytes entries
      obtain ⟨file, found⟩ := Option.ne_none_iff_exists'.mp (stored inode (by simp [leaves]))
      have size : leafBytes files (leaves (.file inode : Node)) = file.data.bytes.length := by
        simp [leafBytes, leaves, found]
      rw [size] at bytes
      have used : checkedAdd collected.usedBytes file.data.bytes.length =
          some (collected.usedBytes + file.data.bytes.length) := if_pos bytes
      have count : checkedAdd collected.fileCount 1 = some (collected.fileCount + 1) :=
        if_pos entries
      refine ⟨{ files := collected.files.insert inode file.stored
                usedBytes := collected.usedBytes + file.data.bytes.length
                fileCount := collected.fileCount + 1 }, ?_, ?_⟩
      · simp only [collectSnapshotEntries, found, okOr_some, used, count, bind, Except.bind]
        rfl
      · exact
          { usedBytes := by rw [size]
            fileCount := rfl
            inside := fun other member => by
              obtain rfl : other = inode := by simpa [leaves] using member
              simp [found, FileNode.stored]
            outside := fun other absent => by
              have different : other ≠ inode := by simpa [leaves] using absent
              simp [different] }
  | directory entries ih =>
      have children (rest : Directory) (covered : ∀ entry ∈ rest, entry ∈ entries) :
          ∀ collected : Collected, (∀ inode ∈ leavesIn rest, files.get inode ≠ none) →
            collected.usedBytes + leafBytes files (leavesIn rest) ≤ u64Max →
            collected.fileCount + (directoriesIn rest + (leavesIn rest).length) ≤ u64Max →
            ∃ reached, collectSnapshotChildren files rest collected = .ok reached ∧
              Gathers files (leavesIn rest) (directoriesIn rest + (leavesIn rest).length)
                collected reached := by
        induction rest with
        | nil =>
            intro collected _ _ _
            exact ⟨collected, rfl, ⟨by simp [leafBytes, leavesIn], by simp [directoriesIn, leavesIn],
              by simp [leavesIn], fun _ _ => rfl⟩⟩
        | cons entry rest tail =>
            obtain ⟨name, child⟩ := entry
            intro collected stored bytes counted
            obtain ⟨here, below⟩ := List.forall_mem_cons.mp covered
            have entry := ownEntry_add child
            simp only [leavesIn, directoriesIn, List.length_append, leafBytes_append]
              at stored bytes counted ⊢
            have count : checkedAdd collected.fileCount (ownEntry child) =
                some (collected.fileCount + ownEntry child) := if_pos (by omega)
            obtain ⟨middle, walked, gathered⟩ := ih (name, child) here
              { collected with fileCount := collected.fileCount + ownEntry child }
              (fun inode member => stored inode (List.mem_append_left _ member))
              (by simp only; omega) (by simp only; omega)
            obtain ⟨reached, listed, rest⟩ := tail below middle
              (fun inode member => stored inode (List.mem_append_right _ member))
              (by rw [gathered.usedBytes]; simp only; omega)
              (by rw [gathered.fileCount]; simp only; omega)
            refine ⟨reached, ?_, ?_⟩
            · simp only [collectSnapshotChildren, bind, Except.bind]
              rw [ownEntry] at count walked
              simp only [count, okOr_some, walked, listed]
            · have own : Gathers files [] (ownEntry child) collected
                  { collected with fileCount := collected.fileCount + ownEntry child } :=
                ⟨by simp [leafBytes], rfl, by simp, fun _ _ => rfl⟩
              have all := (own.trans gathered).trans rest
              rw [List.nil_append] at all
              convert all using 1
              simp only
              omega
      intro collected stored bytes counted
      exact children entries (fun _ member => member) collected stored bytes counted

/-- A snapshot holds the tree and exactly the reachable files. -/
structure Captures (state : State) (snapshot : SnapshotState) : Prop where
  root : snapshot.root = state.root
  nextInode : snapshot.nextInode = state.nextInode
  reachable : ∀ inode, Reachable state inode →
    snapshot.files.get inode = (state.files.get inode).map FileNode.stored
  unreachable : ∀ inode, ¬ Reachable state inode → snapshot.files.get inode = none
  usedBytes : snapshot.usedBytes = snapshot.files.total fun file => file.data.bytes.length
  fileCount : snapshot.fileCount + 1 = snapshot.root.directories + snapshot.files.size

/-- A snapshot of a state that meets the invariant never fails. -/
theorem SnapshotState.fromState_captures (invariant : Invariant quota state) :
    ∃ snapshot, SnapshotState.fromState state = .ok snapshot ∧ Captures state snapshot ∧
      snapshot.usedBytes ≤ state.usedBytes ∧ snapshot.fileCount ≤ state.fileCount := by
  have reached (inode : Inode) : inode ∈ state.root.leaves ↔ Reachable state inode :=
    mem_leaves_iff invariant.sortedRoot
  have distinct : state.root.leaves.Nodup := leaves_nodup invariant.sortedRoot invariant.onePath
  have stored (inode : Inode) (member : inode ∈ state.root.leaves) :
      ∃ file, state.files.get inode = some file := by
    obtain ⟨file, found, -⟩ := invariant.linked inode ((reached inode).mp member)
    exact ⟨file, found⟩
  have bytes : leafBytes state.files state.root.leaves ≤ state.usedBytes := by
    rw [invariant.usedBytes]
    exact state.files.sum_keys_le_total (fun file => file.data.bytes.length) distinct
  have size : state.root.leaves.length ≤ state.files.size := by
    have weighed := state.files.sum_keys_le_total (fun _ => 1) distinct
    rw [← OrderedMap.size_eq_total] at weighed
    have ones : (state.root.leaves.map fun inode =>
        ((state.files.get inode).map fun _ => 1).getD 0) = state.root.leaves.map fun _ => 1 := by
      refine List.map_congr_left fun inode member => ?_
      obtain ⟨file, found⟩ := stored inode member
      simp [found]
    rw [ones] at weighed
    simpa using weighed
  have below : entriesBelow state.root + 1 = state.root.directories + state.root.leaves.length := by
    have own := ownEntry_add state.root
    have directory : ownEntry state.root = 1 := by
      have rooted := invariant.rootDirectory
      cases root : state.root with
      | file inode => simp [root, entry] at rooted
      | directory entries => rfl
    omega
  have count := invariant.fileCount
  have maxFiles := invariant.maxFiles
  have maxBytes := invariant.maxBytes
  have fileBound := uint64_le_u64Max quota.maxFiles
  have byteBound := uint64_le_u64Max quota.maxBytes
  obtain ⟨collected, walked, gathered⟩ := collectSnapshotEntries_spec state.files state.root
    { files := ∅, usedBytes := 0, fileCount := 0 }
    (fun inode member => by
      obtain ⟨file, found⟩ := stored inode member
      simp [found])
    (by simp only; omega) (by simp only; omega)
  have keys (inode : Inode) : collected.files.get inode ≠ none ↔ inode ∈ state.root.leaves := by
    by_cases member : inode ∈ state.root.leaves
    · obtain ⟨file, found⟩ := stored inode member
      simp [gathered.inside inode member, found, member]
    · simp [gathered.outside inode member, member]
  have total (weight : FileNode → Nat) (data : ∀ file, weight (FileNode.stored file) = weight file) :
      collected.files.total weight = (state.root.leaves.map fun inode =>
        ((state.files.get inode).map weight).getD 0).sum := by
    rw [← collected.files.sum_keys_eq_total weight distinct keys]
    refine congrArg List.sum (List.map_congr_left fun inode member => ?_)
    rw [gathered.inside inode member, Option.map_map]
    congr 2
    funext file
    exact data file
  have usedBytes : collected.usedBytes = collected.files.total fun file => file.data.bytes.length := by
    rw [total _ fun _ => rfl, gathered.usedBytes]
    simp [leafBytes]
  have fileCount : collected.fileCount + 1 = state.root.directories + collected.files.size := by
    have members : collected.files.size = state.root.leaves.length := by
      rw [← collected.files.ncard_keys]
      have same : {inode | collected.files.get inode ≠ none} =
          (state.root.leaves.toFinset : Set Inode) := by
        ext inode
        simp [keys]
      rw [same, Set.ncard_coe_finset, List.toFinset_card_of_nodup distinct]
    rw [gathered.fileCount]
    simp only
    omega
  refine ⟨{ root := state.root, files := collected.files, nextInode := state.nextInode,
            usedBytes := collected.usedBytes, fileCount := collected.fileCount }, ?_, ?_, ?_, ?_⟩
  · simp only [SnapshotState.fromState, walked, bind, Except.bind]
  · exact
      { root := rfl
        nextInode := rfl
        reachable := fun inode reachable => gathered.inside inode ((reached inode).mpr reachable)
        unreachable := fun inode unreachable =>
          gathered.outside inode (mt (reached inode).mp unreachable)
        usedBytes
        fileCount }
  · rw [gathered.usedBytes]
    simp only
    omega
  · rw [gathered.fileCount]
    simp only
    omega

/-- A captured state meets the invariant of every quota that it fits. -/
theorem Captures.invariant {other : VfsQuota} {snapshot : SnapshotState}
    (captures : Captures state snapshot) (invariant : Invariant other state)
    (fits : ensureSnapshotFitsQuota snapshot quota = .ok ()) (nextHandle : Nat) :
    Invariant quota (State.fromSnapshot snapshot nextHandle) := by
  unfold ensureSnapshotFitsQuota at fits
  rw [ite_error_eq_ok_iff, ite_error_eq_ok_iff] at fits
  obtain ⟨counters, sizes, -⟩ := fits
  have named (inode : Inode) :
      Reachable (State.fromSnapshot snapshot nextHandle) inode ↔ Reachable state inode := by
    simp only [Reachable, State.fromSnapshot, captures.root]
  have stored {inode : Inode} {file : FileNode} (found : snapshot.files.get inode = some file) :
      Reachable state inode ∧ ∃ old, state.files.get inode = some old ∧ old.stored = file := by
    by_cases reachable : Reachable state inode
    · rw [captures.reachable inode reachable] at found
      exact ⟨reachable, Option.map_eq_some_iff.mp found⟩
    · rw [captures.unreachable inode reachable] at found
      cases found
  exact
    { rootDirectory := by
        rw [State.fromSnapshot, captures.root]
        exact invariant.rootDirectory
      sortedRoot := by
        rw [State.fromSnapshot, captures.root]
        exact invariant.sortedRoot
      depth := by
        rw [State.fromSnapshot, captures.root]
        exact invariant.depth
      onePath := by
        rw [State.fromSnapshot, captures.root]
        exact invariant.onePath
      usedBytes := captures.usedBytes
      fileCount := captures.fileCount
      linked := fun inode reachable => by
        have before := (named inode).mp reachable
        obtain ⟨old, found, -⟩ := invariant.linked inode before
        refine ⟨old.stored, ?_, rfl⟩
        rw [State.fromSnapshot, captures.reachable inode before, found]
        rfl
      unlinked := fun inode file found unreachable =>
        absurd ((named inode).mpr (stored found).1) unreachable
      openHandles := fun inode file found => by
        obtain ⟨-, old, -, rfl⟩ := stored found
        rfl
      handleFile := fun number handle opened => by cases opened
      inodeBelow := fun inode file found => by
        obtain ⟨-, old, present, -⟩ := stored found
        rw [State.fromSnapshot, captures.nextInode]
        exact invariant.inodeBelow inode old present
      handleBelow := fun number handle opened => by cases opened
      maxBytes := by
        simp only [State.fromSnapshot]
        omega
      maxFiles := by
        simp only [State.fromSnapshot]
        omega
      maxFileSize := fun inode file found => by
        by_contra large
        exact sizes ⟨(inode, file), (snapshot.files.mem_iff_get inode file).mpr found,
          Nat.lt_of_not_le large⟩
      held := fun inode file found unreachable =>
        absurd ((named inode).mpr (stored found).1) unreachable }

/-- A snapshot fits the quota of the filesystem that it captured. -/
theorem Captures.fits {snapshot : SnapshotState} (captures : Captures state snapshot)
    (invariant : Invariant quota state) (bytes : snapshot.usedBytes ≤ state.usedBytes)
    (entries : snapshot.fileCount ≤ state.fileCount) :
    ensureSnapshotFitsQuota snapshot quota = .ok () := by
  have maxBytes := invariant.maxBytes
  have maxFiles := invariant.maxFiles
  unfold ensureSnapshotFitsQuota
  rw [if_neg (by omega), if_neg]
  rintro ⟨⟨inode, file⟩, member, large⟩
  have found := (snapshot.files.mem_iff_get inode file).mp member
  by_cases reachable : Reachable state inode
  · rw [captures.reachable inode reachable] at found
    obtain ⟨old, present, rfl⟩ := Option.map_eq_some_iff.mp found
    exact absurd (invariant.maxFileSize inode old present) (Nat.not_le_of_lt large)
  · rw [captures.unreachable inode reachable] at found
    cases found

/-- This is what a caller can see at a path: a directory, or a file with its bytes. -/
def State.visible (state : State) (path : Path) : Option (Entry Bytes) :=
  (state.root.view path).bind fun
    | .directory => some .directory
    | .file inode => (state.files.get inode).map fun file => .file file.data.bytes

/-- A restored state shows what the captured state showed. -/
theorem Captures.visible {snapshot : SnapshotState} (captures : Captures state snapshot)
    (nextHandle : Nat) : (State.fromSnapshot snapshot nextHandle).visible = state.visible := by
  funext path
  simp only [State.visible, State.fromSnapshot, captures.root]
  cases named : state.root.view path with
  | none => rfl
  | some entry =>
      cases entry with
      | directory => rfl
      | file inode =>
          simp only [Option.bind_some]
          rw [captures.reachable inode ⟨path, named⟩, Option.map_map]
          rfl

theorem Invariant.visible_eq_none_iff (invariant : Invariant quota state) (path : Path) :
    state.visible path = none ↔ state.root.view path = none := by
  unfold State.visible
  cases named : state.root.view path with
  | none => simp
  | some entry =>
      cases entry with
      | directory => simp
      | file inode =>
          obtain ⟨file, found, -⟩ := invariant.linked inode ⟨path, named⟩
          simp [found]

/-- The bytes of a visible file. -/
def visibleLength : Option (Entry Bytes) → Nat
  | some (.file bytes) => bytes.length
  | _ => 0

/-- Without handles every stored file is visible at exactly one path. -/
theorem Invariant.paths_bijOn (invariant : Invariant quota state) (closed : state.handles = ∅) :
    ∃ inodeAt : Path → Inode,
      Set.BijOn inodeAt {path | ∃ inode, state.root.view path = some (.file inode)}
        {inode | state.files.get inode ≠ none} ∧
      ∀ path inode, state.root.view path = some (.file inode) → inodeAt path = inode := by
  have every (path : Path) :
      ∃ inode, ∀ other, state.root.view path = some (.file other) → inode = other := by
    by_cases file : ∃ inode, state.root.view path = some (.file inode)
    · obtain ⟨inode, named⟩ := file
      refine ⟨inode, fun other same => ?_⟩
      exact Entry.file.inj (Option.some.inj (named.symm.trans same))
    · exact ⟨0, fun other named => absurd ⟨other, named⟩ file⟩
  choose inodeAt names using every
  refine ⟨inodeAt, ⟨?_, ?_, ?_⟩, names⟩
  · rintro path ⟨inode, named⟩
    obtain ⟨file, found, -⟩ := invariant.linked inode ⟨path, named⟩
    change state.files.get (inodeAt path) ≠ none
    rw [names path inode named, found]
    exact Option.some_ne_none file
  · rintro first ⟨inode, left⟩ second ⟨other, right⟩ same
    rw [names first inode left, names second other right] at same
    subst same
    exact invariant.onePath first second inode left right
  · intro inode stored
    obtain ⟨file, found⟩ := Option.ne_none_iff_exists'.mp stored
    have reachable : Reachable state inode := by
      by_contra unreachable
      have opened := invariant.held inode file found unreachable
      rw [invariant.openHandles inode file found, closed] at opened
      have none : handleCount (∅ : OrderedMap Nat Handle) inode = 0 := rfl
      omega
    obtain ⟨path, named⟩ := reachable
    exact ⟨path, ⟨inode, named⟩, names path inode named⟩

/-- A sum over all points is a sum over a set that holds every nonzero point. -/
theorem finsum_eq_finsum_mem {α : Type} (weight : α → Nat) (points : Set α)
    (covered : ∀ point, point ∉ points → weight point = 0) :
    ∑ᶠ point, weight point = ∑ᶠ point ∈ points, weight point := by
  refine finsum_congr fun point => ?_
  by_cases inside : point ∈ points
  · simp [inside]
  · simp [inside, covered point inside]

/-- Without handles the counters count exactly the visible entries. -/
theorem Invariant.counts_visible (invariant : Invariant quota state) (closed : state.handles = ∅) :
    state.fileCount = {path | path ≠ [] ∧ state.visible path ≠ none}.ncard ∧
      state.usedBytes = ∑ᶠ path, visibleLength (state.visible path) := by
  obtain ⟨inodeAt, bijection, names⟩ := invariant.paths_bijOn closed
  constructor
  · have split : {path | path ≠ [] ∧ state.visible path ≠ none} =
        {path | path ≠ [] ∧ state.root.view path = some .directory} ∪
          {path | ∃ inode, state.root.view path = some (.file inode)} := by
      ext path
      have rooted : state.root.view [] = some .directory := by
        rw [view_nil, invariant.rootDirectory]
      simp only [Set.mem_ofPred_eq, Set.mem_union, ne_eq, invariant.visible_eq_none_iff]
      cases named : state.root.view path with
      | none => simp
      | some entry =>
          cases entry with
          | directory => simp
          | file inode =>
              have below : path ≠ [] := by
                rintro rfl
                rw [rooted] at named
                cases named
              simp [below]
    have apart : Disjoint {path | path ≠ [] ∧ state.root.view path = some .directory}
        {path | ∃ inode, state.root.view path = some (.file inode)} := by
      rw [Set.disjoint_left]
      rintro path ⟨-, directory⟩ ⟨inode, file⟩
      rw [directory] at file
      cases file
    have finite := view_finite state.root
    have count := invariant.entryCount
    unfold FlatFs.entryCount at count
    have files : {inode | state.flat.contents inode ≠ none} = {inode | state.files.get inode ≠ none} := by
      ext inode
      simp [State.flat]
    rw [files] at count
    rw [split, Set.ncard_union_eq apart
      (finite.subset fun path named => by simp [named.2])
      (finite.subset fun path named => by
        obtain ⟨inode, file⟩ := named
        simp [file]), bijection.ncard_eq]
    exact count.symm
  · rw [invariant.usedBytes, ← OrderedMap.finsum_total]
    rw [finsum_eq_finsum_mem _ {inode | state.files.get inode ≠ none} fun inode absent => by
        have missing : state.files.get inode = none := by simpa using absent
        simp [missing],
      finsum_eq_finsum_mem (fun path => visibleLength (state.visible path))
        {path | ∃ inode, state.root.view path = some (.file inode)} fun path absent => by
          simp only [State.visible]
          cases named : state.root.view path with
          | none => rfl
          | some entry =>
              cases entry with
              | directory => rfl
              | file inode => exact absurd ⟨inode, named⟩ absent]
    refine (finsum_mem_eq_of_bijOn inodeAt bijection ?_).symm
    rintro path ⟨inode, named⟩
    obtain ⟨file, found, -⟩ := invariant.linked inode ⟨path, named⟩
    simp [State.visible, named, names path inode named, found, visibleLength]

end TinySandbox.Mem
