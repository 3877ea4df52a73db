/-
This file shows that the filesystem gives up a file exactly when no path and no handle needs it.
-/

import TinySandbox.Proof.Mem.Agreement

namespace TinySandbox.Mem
open Library Library.Call DirectoryTree

variable {quota : VfsQuota} {state : State}

theorem handleCount_pos_iff (handles : OrderedMap Nat Handle) (inode : Inode) :
    0 < handleCount handles inode ↔
      ∃ number handle, handles.get number = some handle ∧ handle.inode = inode := by
  rw [handleCount, OrderedMap.total_pos_iff]
  refine exists_congr fun number => exists_congr fun handle => and_congr_right fun _ => ?_
  split <;> simp_all

open scoped Classical in
/-- A stored file that no collection drops is reachable or open. -/
theorem collect_contents (accounted : Accounted quota state) (inode : Inode) :
    state.flat.collect.contents inode =
      ((state.files.get inode).bind fun file =>
        if Reachable state inode ∨ 0 < file.openHandles then some file.data.bytes else none) := by
  unfold FlatFs.collect
  cases found : state.files.get inode with
  | none =>
      have absent : state.flat.contents inode = none := by simp [State.flat, found]
      simp only [absent, ite_self, Option.bind_none]
  | some file =>
      have present : state.flat.contents inode = some file.data.bytes := by
        simp [State.flat, found]
      have opened : 0 < file.openHandles ↔
          ∃ number handle, state.flat.handles number = some handle ∧ handle.inode = inode := by
        rw [accounted.openHandles inode file found, handleCount_pos_iff]
        rfl
      simp only [present, opened, Option.bind_some]
      rfl

/-- A collection changes nothing when every stored file is held. -/
theorem Invariant.collect_flat (invariant : Invariant quota state) :
    state.flat.collect = state.flat := by
  have same : state.flat.collect.contents = state.flat.contents := by
    funext inode
    rw [collect_contents invariant.toAccounted]
    simp only [State.flat]
    cases found : state.files.get inode with
    | none => rfl
    | some file =>
        have kept : Reachable state inode ∨ 0 < file.openHandles :=
          or_iff_not_imp_left.mpr fun unreachable => invariant.held inode file found unreachable
        simp only [Option.bind_some, if_pos kept, Option.map_some]
  exact FlatFs.ext rfl same rfl rfl rfl

theorem WellRooted.directories_pos {root : Node} (wellRooted : WellRooted root) :
    0 < root.directories := by
  have rooted := wellRooted.rootDirectory
  cases root with
  | file inode => cases rooted
  | directory entries => simp [DirectoryTree.directories]

/-- A file that is neither reachable nor open leaves the table with its bytes. -/
theorem Accounted.erase (accounted : Accounted quota state) {inode : Inode} {file : FileNode}
    (found : state.files.get inode = some file) (unreachable : ¬ Reachable state inode)
    (closed : file.openHandles = 0) :
    Accounted quota
      { state with
        files := state.files.erase inode
        usedBytes := state.usedBytes - file.data.bytes.length
        fileCount := state.fileCount - 1 } := by
  have remains {other : Inode} {stored : FileNode}
      (later : (state.files.erase inode).get other = some stored) :
      other ≠ inode ∧ state.files.get other = some stored := by
    rw [OrderedMap.get_erase] at later
    split at later
    · cases later
    · exact ⟨‹_›, later⟩
  have bytes := state.files.total_erase (fun file => file.data.bytes.length) inode
  have size := state.files.size_erase inode
  have directories := accounted.toWellRooted.directories_pos
  simp only [found, Option.map_some, Option.getD_some] at bytes size
  have used := accounted.usedBytes
  have count := accounted.fileCount
  exact
    { accounted.toWellRooted with
      usedBytes := by simp only; omega
      fileCount := by simp only; omega
      linked := fun other reachable => by
        obtain ⟨stored, present, one⟩ := accounted.linked other reachable
        refine ⟨stored, ?_, one⟩
        have different : other ≠ inode := fun same => unreachable (same ▸ reachable)
        simpa [different] using present
      unlinked := fun other stored later => accounted.unlinked other stored (remains later).2
      openHandles := fun other stored later => accounted.openHandles other stored (remains later).2
      handleFile := fun number handle opened => by
        obtain ⟨stored, present⟩ := accounted.handleFile number handle opened
        refine ⟨stored, ?_⟩
        have different : handle.inode ≠ inode := by
          intro same
          have positive := (handleCount_pos_iff state.handles inode).mpr ⟨number, handle, opened, same⟩
          rw [← accounted.openHandles inode file found, closed] at positive
          exact lt_irrefl 0 positive
        simpa [different] using present
      inodeBelow := fun other stored later => accounted.inodeBelow other stored (remains later).2
      handleBelow := accounted.handleBelow
      maxBytes := by
        have := accounted.maxBytes
        simp only
        omega
      maxFiles := by
        have := accounted.maxFiles
        simp only
        omega
      maxFileSize := fun other stored later =>
        accounted.maxFileSize other stored (remains later).2 }

/-- A call settles when it succeeds, collects what nothing holds, and keeps every other file. -/
def Settles (quota : VfsQuota) (state : State) (reached : Option (VfsResult Unit × State)) : Prop :=
  ∃ after, reached = some (.ok (), after) ∧ after.flat = state.flat.collect ∧
    Invariant quota after ∧
    ∀ inode file, after.files.get inode = some file →
      ∃ old, state.files.get inode = some old ∧ old.data = file.data

/-- A state that meets the invariant is settled. -/
theorem Settles.done (invariant : Invariant quota state) :
    Settles quota state (some (.ok (), state)) :=
  ⟨state, rfl, invariant.collect_flat.symm, invariant, fun _ file found => ⟨file, found, rfl⟩⟩

/-- Releasing the only file that may be unheld settles the state. -/
theorem releaseFileIfUnreferenced_settles (accounted : Accounted quota state) (inode : Inode)
    (others : ∀ other file, other ≠ inode → state.files.get other = some file →
      ¬ Reachable state other → 1 ≤ file.openHandles) :
    Settles quota state (outcome (releaseFileIfUnreferenced inode) state) := by
  have settled (held : ∀ file, state.files.get inode = some file → ¬ Reachable state inode →
      1 ≤ file.openHandles) : Invariant quota state :=
    { accounted with
      held := fun other file found unreachable => by
        by_cases same : other = inode
        · subst same
          exact held file found unreachable
        · exact others other file same found unreachable }
  unfold releaseFileIfUnreferenced
  rw [outcome_bind, outcome_get, Option.bind_some]
  simp only
  cases found : state.files.get inode with
  | none =>
      simp only [outcome_pure]
      exact .done (settled fun file present => by rw [found] at present; cases present)
  | some file =>
      simp only [outcome_ite, outcome_pure]
      have links : Reachable state inode ↔ 0 < file.links := by
        constructor
        · intro reachable
          obtain ⟨stored, present, one⟩ := accounted.linked inode reachable
          obtain rfl : file = stored := Option.some.inj (found.symm.trans present)
          omega
        · intro positive
          by_contra unreachable
          have := accounted.unlinked inode file found unreachable
          omega
      split
      · rename_i referenced
        refine .done (settled fun stored present unreachable => ?_)
        obtain rfl : file = stored := Option.some.inj (found.symm.trans present)
        rcases referenced with linked | opened
        · exact absurd (links.mpr linked) unreachable
        · exact opened
      · rename_i unreferenced
        rw [not_or, ← links] at unreferenced
        obtain ⟨unreachable, unopened⟩ := unreferenced
        have closed : file.openHandles = 0 := by omega
        have used := accounted.usedBytes
        have within := state.files.weight_le_total (fun file => file.data.bytes.length) found
        have stored := state.files.weight_le_total (fun _ => 1) found
        rw [← OrderedMap.size_eq_total] at stored
        have count := accounted.fileCount
        have directories := accounted.toWellRooted.directories_pos
        have bytes : subU64 state.usedBytes file.data.bytes.length =
            some (state.usedBytes - file.data.bytes.length) := if_pos (by omega)
        have entries : subU64 state.fileCount 1 = some (state.fileCount - 1) := if_pos (by omega)
        simp only [outcome_bind, outcome_orPanic, bytes, entries, Option.map_some, Option.bind_some,
          outcome_set]
        have erased := accounted.erase found unreachable closed
        refine ⟨_, rfl, ?_, { erased with held := ?_ }, ?_⟩
        · have same : (fun other => ((state.files.erase inode).get other).map
              fun file => file.data.bytes) = state.flat.collect.contents := by
            funext other
            rw [collect_contents accounted, OrderedMap.get_erase]
            by_cases equal : other = inode
            · subst equal
              simp [found, unreachable, closed]
            · rw [if_neg equal]
              cases present : state.files.get other with
              | none => rfl
              | some stored =>
                  have kept : Reachable state other ∨ 0 < stored.openHandles :=
                    or_iff_not_imp_left.mpr fun free => others other stored equal present free
                  simp only [Option.bind_some, if_pos kept, Option.map_some]
          exact FlatFs.ext rfl same rfl rfl rfl
        · intro other stored later free
          simp only [OrderedMap.get_erase] at later
          split at later
          · cases later
          · exact others other stored ‹_› later free
        · intro other stored later
          simp only [OrderedMap.get_erase] at later
          split at later
          · cases later
          · exact ⟨stored, later, rfl⟩

/-- The last link of a file is gone from the tree before its count drops. -/
theorem removeTree_file_settles (invariant : Invariant quota state) {root : Node} {inode : Inode}
    (wellRooted : WellRooted root) (directories : root.directories = state.root.directories)
    (reachable : Reachable state inode)
    (remaining : ∀ other, (∃ path, root.view path = some (.file other)) ↔
      Reachable state other ∧ other ≠ inode) :
    Settles quota { state with root } (outcome (removeTree (.file inode)) { state with root }) := by
  obtain ⟨file, found, one⟩ := invariant.linked inode reachable
  let unlinked : State :=
    { state with root, files := state.files.insert inode { file with links := 0 } }
  have step : outcome (removeTree (.file inode)) { state with root } =
      outcome (releaseFileIfUnreferenced inode) unlinked := by
    have links : subU64 file.links 1 = some 0 := by simp [subU64, one]
    simp only [removeTree, outcome_bind, outcome_get, outcome_lift, outcome_orPanic, outcome_set,
      Option.bind_some, Option.map_some, found, okOr_some, links]
    rfl
  have stored (other : Inode) (later : FileNode) (present : unlinked.files.get other = some later) :
      (other = inode ∧ later = { file with links := 0 }) ∨
        (other ≠ inode ∧ state.files.get other = some later) := by
    simp only [unlinked, OrderedMap.get_insert] at present
    split at present
    · exact .inl ⟨‹_›, (Option.some.inj present).symm⟩
    · exact .inr ⟨‹_›, present⟩
  have bytes := state.files.total_insert (fun file => file.data.bytes.length) inode
    { file with links := 0 }
  have size := state.files.size_insert inode { file with links := 0 }
  simp only [found, Option.map_some, Option.getD_some] at bytes size
  have accounted : Accounted quota unlinked :=
    { wellRooted with
      usedBytes := by
        have := invariant.usedBytes
        simp only [unlinked]
        omega
      fileCount := by
        have := invariant.fileCount
        simp only [unlinked]
        omega
      linked := fun other later => by
        obtain ⟨before, different⟩ := (remaining other).mp later
        obtain ⟨old, present, links⟩ := invariant.linked other before
        exact ⟨old, by simpa [unlinked, different] using present, links⟩
      unlinked := fun other later present unreachable => by
        rcases stored other later present with ⟨rfl, rfl⟩ | ⟨different, old⟩
        · rfl
        · exact invariant.unlinked other later old fun before =>
            unreachable ((remaining other).mpr ⟨before, different⟩)
      openHandles := fun other later present => by
        rcases stored other later present with ⟨rfl, rfl⟩ | ⟨different, old⟩
        · exact invariant.openHandles other file found
        · exact invariant.openHandles other later old
      handleFile := fun number handle opened => by
        obtain ⟨old, present⟩ := invariant.handleFile number handle opened
        simp only [unlinked, OrderedMap.get_insert]
        split
        · exact ⟨_, rfl⟩
        · exact ⟨old, present⟩
      inodeBelow := fun other later present => by
        rcases stored other later present with ⟨rfl, rfl⟩ | ⟨different, old⟩
        · exact invariant.inodeBelow other file found
        · exact invariant.inodeBelow other later old
      handleBelow := invariant.handleBelow
      maxBytes := invariant.maxBytes
      maxFiles := invariant.maxFiles
      maxFileSize := fun other later present => by
        rcases stored other later present with ⟨rfl, rfl⟩ | ⟨different, old⟩
        · exact invariant.maxFileSize other file found
        · exact invariant.maxFileSize other later old }
  obtain ⟨after, reached, flat, settled, kept⟩ :=
    releaseFileIfUnreferenced_settles accounted inode fun other later different present free => by
      rcases stored other later present with ⟨rfl, rfl⟩ | ⟨-, old⟩
      · exact absurd rfl different
      · exact invariant.held other later old fun before => free ((remaining other).mpr ⟨before, different⟩)
  have same : unlinked.flat = { state with root }.flat := by
    refine FlatFs.ext rfl (funext fun other => ?_) rfl rfl rfl
    by_cases equal : other = inode
    · subst equal
      simp [State.flat, unlinked, found]
    · simp [State.flat, unlinked, equal]
  refine ⟨after, step.trans reached, flat.trans (by rw [same]), settled, ?_⟩
  intro other later present
  obtain ⟨old, between, data⟩ := kept other later present
  rcases stored other old between with ⟨rfl, rfl⟩ | ⟨-, before⟩
  · exact ⟨file, found, data⟩
  · exact ⟨old, before, data⟩

/-- An empty directory that left the tree gives back its entry. -/
theorem removeTree_empty (invariant : Invariant quota state) {root : Node}
    (wellRooted : WellRooted root) (directories : root.directories + 1 = state.root.directories)
    (same : ∀ inode, (∃ path, root.view path = some (.file inode)) ↔ Reachable state inode) :
    outcome (removeTree (.directory [])) { state with root } =
        some (.ok (), { state with root, fileCount := state.fileCount - 1 }) ∧
      Invariant quota { state with root, fileCount := state.fileCount - 1 } := by
  have count := invariant.fileCount
  have rooted := wellRooted.directories_pos
  have maxFiles := invariant.maxFiles
  constructor
  · have entries : subU64 state.fileCount 1 = some (state.fileCount - 1) := if_pos (by omega)
    simp only [removeTree, removeTrees, outcome_bind, outcome_pure, outcome_get, outcome_orPanic,
      outcome_set, Option.bind_some, Option.map_some, entries]
  · exact invariant.reroot wellRooted (by omega) (by omega) same

end TinySandbox.Mem
