/-
This file shows that opening and closing a handle agree with the flat filesystem.
-/

import TinySandbox.Proof.Mem.HandleAgreement

namespace TinySandbox.Mem
open Library Library.Call DirectoryTree

variable {quota : VfsQuota} {arcs : Arcs} {state : State} {inode : Inode} {file : FileNode}

/-- The state after the handle table and one open count change. -/
def State.withHandles (state : State) (inode : Inode) (file : FileNode) (openHandles : Nat)
    (handles : OrderedMap Nat Handle) (nextHandle : Nat) : State :=
  { state with
    files := state.files.insert inode { file with openHandles }
    handles
    nextHandle }

theorem withHandles_data (found : state.files.get inode = some file) {openHandles nextHandle : Nat}
    {handles : OrderedMap Nat Handle} {other : Inode} {later : FileNode}
    (present : (state.withHandles inode file openHandles handles nextHandle).files.get other =
      some later) :
    ∃ old, state.files.get other = some old ∧ old.data = later.data ∧ old.links = later.links ∧
      (other ≠ inode → old = later) ∧ (other = inode → later.openHandles = openHandles) := by
  simp only [State.withHandles, OrderedMap.get_insert] at present
  split at present
  · rename_i same
    subst same
    obtain rfl := Option.some.inj present
    exact ⟨file, found, rfl, rfl, fun different => absurd rfl different, fun _ => rfl⟩
  · rename_i different
    exact ⟨later, present, rfl, rfl, fun _ => rfl, fun same => absurd same different⟩

/-- A handle change with the right count leaves only its own file to be released. -/
theorem Invariant.withHandles (invariant : Invariant quota state)
    (found : state.files.get inode = some file) (handles : OrderedMap Nat Handle)
    (nextHandle : Nat)
    (others : ∀ other, other ≠ inode → handleCount handles other = handleCount state.handles other)
    (below : ∀ number handle, handles.get number = some handle → number < nextHandle)
    (stored : ∀ number handle, handles.get number = some handle →
      ∃ file, state.files.get handle.inode = some file) :
    Accounted quota
        (state.withHandles inode file (handleCount handles inode) handles nextHandle) ∧
      ∀ other later, other ≠ inode →
        (state.withHandles inode file (handleCount handles inode) handles nextHandle).files.get other =
          some later →
        ¬ Reachable state other → 1 ≤ later.openHandles := by
  have bytes := state.files.total_insert (fun file => file.data.bytes.length) inode
    { file with openHandles := handleCount handles inode }
  have size := state.files.size_insert inode { file with openHandles := handleCount handles inode }
  simp only [found, Option.map_some, Option.getD_some] at bytes size
  have remains {other : Inode} {old : FileNode} (present : state.files.get other = some old) :
      ∃ later, (state.withHandles inode file (handleCount handles inode) handles
        nextHandle).files.get other = some later ∧ later.links = old.links := by
    simp only [State.withHandles, OrderedMap.get_insert]
    split
    · rename_i same
      subst same
      obtain rfl := Option.some.inj (found.symm.trans present)
      exact ⟨_, rfl, rfl⟩
    · exact ⟨old, present, rfl⟩
  constructor
  · exact
      { invariant.toWellRooted with
        usedBytes := by
          have used := invariant.usedBytes
          simp only [State.withHandles]
          omega
        fileCount := by
          have count := invariant.fileCount
          simp only [State.withHandles]
          omega
        linked := fun other reachable => by
          obtain ⟨old, present, links⟩ := invariant.linked other reachable
          obtain ⟨later, after, same⟩ := remains present
          exact ⟨later, after, same.trans links⟩
        unlinked := fun other later present unreachable => by
          obtain ⟨old, before, -, links, -⟩ := withHandles_data found present
          rw [← links]
          exact invariant.unlinked other old before unreachable
        openHandles := fun other later present => by
          obtain ⟨old, before, -, -, same, counted⟩ := withHandles_data found present
          by_cases equal : other = inode
          · rw [counted equal, equal]
            rfl
          · rw [← same equal, invariant.openHandles other old before, ← others other equal]
            rfl
        handleFile := fun number handle opened => by
          obtain ⟨old, present⟩ := stored number handle opened
          obtain ⟨later, after, -⟩ := remains present
          exact ⟨later, after⟩
        inodeBelow := fun other later present => by
          obtain ⟨old, before, -⟩ := withHandles_data found present
          exact invariant.inodeBelow other old before
        handleBelow := below
        maxBytes := invariant.maxBytes
        maxFiles := invariant.maxFiles
        maxFileSize := fun other later present => by
          obtain ⟨old, before, data, -⟩ := withHandles_data found present
          rw [← data]
          exact invariant.maxFileSize other old before }
  · intro other later different present unreachable
    obtain ⟨old, before, -, -, same, -⟩ := withHandles_data found present
    rw [← same different]
    exact invariant.held other old before unreachable

theorem flat_withHandles (found : state.files.get inode = some file) (openHandles nextHandle : Nat)
    (handles : OrderedMap Nat Handle) :
    (state.withHandles inode file openHandles handles nextHandle).flat =
      { state.flat with handles := handles.get, nextHandle } := by
  refine FlatFs.ext rfl (funext fun other => ?_) rfl rfl rfl
  by_cases same : other = inode
  · subst same
    simp [State.flat, State.withHandles, found]
  · simp [State.flat, State.withHandles, same]

theorem close_agrees (invariant : Invariant quota state) (number : Nat) :
    Agrees quota arcs state False (outcome (close number) state) (state.flat.close number) := by
  refine agrees_get (agrees_lift (flat_handle state number) fun handle opened => ?_)
  have present := okOr_eq_ok opened
  obtain ⟨file, found⟩ := invariant.handleFile number handle present
  have counts (other : Inode) : handleCount (state.handles.erase number) other +
      (if handle.inode = other then 1 else 0) = handleCount state.handles other := by
    have balance := state.handles.total_erase
      (fun handle => if handle.inode = other then 1 else 0) number
    simp only [present, Option.map_some, Option.getD_some] at balance
    exact balance
  have closed : subU64 file.openHandles 1 =
      some (handleCount (state.handles.erase number) handle.inode) := by
    have here := counts handle.inode
    rw [if_pos rfl] at here
    rw [invariant.openHandles handle.inode file found, ← here, subU64, if_pos (by omega)]
    rfl
  have kept (other : Nat) (later : Handle)
      (remains : (state.handles.erase number).get other = some later) :
      state.handles.get other = some later := by
    rw [OrderedMap.get_erase] at remains
    split at remains
    · cases remains
    · exact remains
  obtain ⟨accounted, held⟩ := invariant.withHandles found (state.handles.erase number)
    state.nextHandle
    (fun other different => by
      have balance := counts other
      rw [if_neg (Ne.symm different)] at balance
      omega)
    (fun other later remains => invariant.handleBelow other later (kept other later remains))
    (fun other later remains => invariant.handleFile other later (kept other later remains))
  have settles := releaseFileIfUnreferenced_settles accounted handle.inode held
  have reached : outcome (do
      let state ← get
      let file ← lift (okOr .ENOENT (state.files.get handle.inode))
      let openHandles ← orPanic (subU64 file.openHandles 1)
      set { state with files := state.files.insert handle.inode { file with openHandles } }
      releaseFileIfUnreferenced handle.inode) { state with handles := state.handles.erase number } =
      outcome (releaseFileIfUnreferenced handle.inode)
        (state.withHandles handle.inode file
          (handleCount (state.handles.erase number) handle.inode)
          (state.handles.erase number) state.nextHandle) := by
    simp only [outcome_bind, outcome_get, outcome_lift, outcome_orPanic, outcome_set,
      Option.bind_some, Option.map_some, found, okOr_some, closed]
    rfl
  rw [outcome_set_bind, reached]
  obtain ⟨after, final, flat, settled, same⟩ := settles
  rw [final]
  refine ⟨?_, settled, .same arcs fun other later there => ?_⟩
  · rw [flat, flat_withHandles found]
    have erased : (state.handles.erase number).get =
        Function.update state.flat.handles number none := by
      funext other
      rw [OrderedMap.get_erase, Function.update_apply]
      rfl
    rw [erased]
    rfl
  · obtain ⟨middle, between, data⟩ := same other later there
    obtain ⟨old, before, equal, -⟩ := withHandles_data found between
    exact ⟨old, before, equal.trans data⟩

/-- The minted handle is new, so exactly one open count grows. -/
theorem insertHandle_spec (invariant : Invariant quota state)
    (found : state.files.get inode = some file) (mode : OpenMode)
    (room : state.nextHandle < u64Max) :
    ∃ after, outcome (insertHandle inode mode) state = some (.ok state.nextHandle, after) ∧
      (state.nextHandle, after.flat) = state.flat.mint inode mode ∧ Invariant quota after ∧
      ∀ other later, after.files.get other = some later →
        ∃ old, state.files.get other = some old ∧ old.data = later.data := by
  let opened : Handle :=
    { inode, readable := mode.read, writable := mode.write, append := mode.append }
  have fresh : state.handles.get state.nextHandle = none := by
    by_contra taken
    obtain ⟨handle, present⟩ := Option.ne_none_iff_exists'.mp taken
    exact lt_irrefl _ (invariant.handleBelow _ handle present)
  have counts (other : Inode) : handleCount (state.handles.insert state.nextHandle opened) other =
      handleCount state.handles other + if inode = other then 1 else 0 := by
    have balance := state.handles.total_insert
      (fun handle => if handle.inode = other then 1 else 0) state.nextHandle opened
    simp only [fresh, Option.map_none, Option.getD_none, Nat.add_zero] at balance
    exact balance
  have here := counts inode
  rw [if_pos rfl, ← invariant.openHandles inode file found] at here
  have small : file.openHandles ≤ state.nextHandle := by
    rw [invariant.openHandles inode file found]
    exact (state.handles.total_le_size fun handle => by split <;> omega).trans
      (state.handles.size_le_of_keys_below invariant.handleBelow)
  have nextHandle : addU64 state.nextHandle 1 = some (state.nextHandle + 1) := if_pos (by omega)
  have openHandles : addU64 file.openHandles 1 = some (file.openHandles + 1) := if_pos (by omega)
  have kept (number : Nat) (handle : Handle)
      (present : (state.handles.insert state.nextHandle opened).get number = some handle) :
      (number = state.nextHandle ∧ handle = opened) ∨ state.handles.get number = some handle := by
    rw [OrderedMap.get_insert] at present
    split at present
    · exact .inl ⟨‹_›, (Option.some.inj present).symm⟩
    · exact .inr present
  obtain ⟨accounted, held⟩ := invariant.withHandles found
    (state.handles.insert state.nextHandle opened) (state.nextHandle + 1)
    (fun other different => by rw [counts, if_neg (Ne.symm different), Nat.add_zero])
    (fun number handle present => by
      rcases kept number handle present with ⟨rfl, -⟩ | old
      · exact Nat.lt_succ_self _
      · exact Nat.lt_succ_of_lt (invariant.handleBelow number handle old))
    (fun number handle present => by
      rcases kept number handle present with ⟨-, rfl⟩ | old
      · exact ⟨file, found⟩
      · exact invariant.handleFile number handle old)
  rw [here] at accounted held
  refine ⟨state.withHandles inode file (file.openHandles + 1)
    (state.handles.insert state.nextHandle opened) (state.nextHandle + 1), ?_, ?_,
    { accounted with held := ?_ }, ?_⟩
  · simp only [insertHandle, outcome_bind, outcome_get, outcome_lift, outcome_orPanic, outcome_set,
      outcome_pure, Option.bind_some, Option.map_some, nextHandle, openHandles, found, okOr_some]
    rfl
  · rw [flat_withHandles found]
    have inserted : (state.handles.insert state.nextHandle opened).get =
        Function.update state.flat.handles state.nextHandle (some opened) := by
      funext other
      rw [OrderedMap.get_insert, Function.update_apply]
      rfl
    rw [inserted]
    rfl
  · intro other later present unreachable
    by_cases same : other = inode
    · obtain ⟨-, -, -, -, -, counted⟩ := withHandles_data found present
      rw [counted same]
      omega
    · exact held other later same present unreachable
  · intro other later present
    obtain ⟨old, before, data, -⟩ := withHandles_data found present
    exact ⟨old, before, data⟩

/-- The panic of a full handle counter is the only way that minting fails. -/
theorem insertHandle_exhausted (inode : Inode) (mode : OpenMode) (full : u64Max ≤ state.nextHandle) :
    outcome (insertHandle inode mode) state = none := by
  have overflow : addU64 state.nextHandle 1 = none := if_neg (by omega)
  simp only [insertHandle, outcome_bind, outcome_get, outcome_orPanic, Option.bind_some, overflow,
    Option.map_none, Option.bind_none]

section Create
variable {parent : Path} {name : Name} {entries : Directory}

theorem Invariant.fresh_inode (invariant : Invariant quota state) :
    state.files.get state.nextInode = none := by
  by_contra taken
  obtain ⟨file, present⟩ := Option.ne_none_iff_exists'.mp taken
  exact lt_irrefl _ (invariant.inodeBelow _ file present)

/-- The state after an empty file is stored under a free name. -/
def State.withFile (state : State) (parent : Path) (name : Name) (entries : Directory) (data : Arc) :
    State :=
  { state with
    root := state.root.replace parent
      (.directory (Entries.insert name (.file state.nextInode) entries))
    files := state.files.insert state.nextInode { data, links := 1, openHandles := 0 }
    nextInode := state.nextInode + 1
    fileCount := state.fileCount + 1 }

theorem Invariant.withFile (invariant : Invariant quota state)
    (found : state.root.at? parent = some (.directory entries))
    (absent : Entries.get name entries = none) (shallow : parent.length + 1 ≤ maxPathDepth)
    (slot : state.fileCount < quota.maxFiles.toNat) (data : Arc) (empty : data.bytes = []) :
    Invariant quota (state.withFile parent name entries data) := by
  have fresh := invariant.fresh_inode
  have unnamed (path : Path) : state.root.view path ≠ some (.file state.nextInode) := by
    intro named
    obtain ⟨file, present, -⟩ := invariant.linked _ ⟨path, named⟩
    rw [fresh] at present
    cases present
  have views := view_store_single found absent (single_file state.nextInode)
  have gone : state.root.view (parent ++ [name]) = none := by
    rw [view_eq_none_iff, at?_append, found, Option.bind_some, directory_at?_single, absent]
  have reachable (other : Inode) : Reachable (state.withFile parent name entries data) other ↔
      other = state.nextInode ∨ Reachable state other := by
    constructor
    · rintro ⟨path, named⟩
      rw [State.withFile, views] at named
      by_cases here : path = parent ++ [name]
      · rw [here, Function.update_self] at named
        exact .inl (Entry.file.inj (Option.some.inj named)).symm
      · rw [Function.update_of_ne here] at named
        exact .inr ⟨path, named⟩
    · rintro (rfl | ⟨path, named⟩)
      · refine ⟨parent ++ [name], ?_⟩
        rw [State.withFile, views, Function.update_self]
        rfl
      · refine ⟨path, ?_⟩
        have elsewhere : path ≠ parent ++ [name] := by
          rintro rfl
          rw [gone] at named
          cases named
        rw [State.withFile, views, Function.update_of_ne elsewhere, named]
  have stored {other : Inode} {later : FileNode}
      (present : (state.withFile parent name entries data).files.get other = some later) :
      (other = state.nextInode ∧ later = { data, links := 1, openHandles := 0 }) ∨
        (other ≠ state.nextInode ∧ state.files.get other = some later) := by
    simp only [State.withFile, OrderedMap.get_insert] at present
    split at present
    · exact .inl ⟨‹_›, (Option.some.inj present).symm⟩
    · exact .inr ⟨‹_›, present⟩
  have remains {other : Inode} {old : FileNode} (present : state.files.get other = some old) :
      (state.withFile parent name entries data).files.get other = some old := by
    have different : other ≠ state.nextInode := by
      rintro rfl
      rw [fresh] at present
      cases present
    simpa [State.withFile, different] using present
  have unopened : handleCount state.handles state.nextInode = 0 := by
    by_contra positive
    obtain ⟨number, handle, opened, same⟩ :=
      (handleCount_pos_iff _ _).mp (Nat.pos_of_ne_zero positive)
    obtain ⟨file, present⟩ := invariant.handleFile number handle opened
    rw [same, fresh] at present
    cases present
  have bytes := state.files.total_insert (fun file => file.data.bytes.length) state.nextInode
    { data, links := 1, openHandles := 0 }
  have size := state.files.size_insert state.nextInode { data, links := 1, openHandles := 0 }
  simp only [fresh, Option.map_none, Option.getD_none, empty, List.length_nil] at bytes size
  have directories := directories_storeSingle invariant.sortedRoot found absent
    (.file state.nextInode)
  exact
    { invariant.toWellRooted.storeSingle found absent (single_file state.nextInode)
        (sortedTree_file _) shallow (fun inode same path named => by
          obtain rfl := Entry.file.inj same
          exact unnamed path named) with
      usedBytes := by
        have used := invariant.usedBytes
        simp only [State.withFile]
        omega
      fileCount := by
        have count := invariant.fileCount
        simp only [DirectoryTree.directories] at directories
        simp only [State.withFile]
        omega
      linked := fun other named => by
        rcases (reachable other).mp named with rfl | before
        · exact ⟨{ data, links := 1, openHandles := 0 }, by simp [State.withFile], rfl⟩
        · obtain ⟨old, present, links⟩ := invariant.linked other before
          exact ⟨old, remains present, links⟩
      unlinked := fun other later present unreachable => by
        rw [reachable, not_or] at unreachable
        rcases stored present with ⟨rfl, -⟩ | ⟨-, old⟩
        · exact absurd rfl unreachable.1
        · exact invariant.unlinked other later old unreachable.2
      openHandles := fun other later present => by
        rcases stored present with ⟨rfl, rfl⟩ | ⟨-, old⟩
        · exact unopened.symm
        · exact invariant.openHandles other later old
      handleFile := fun number handle opened => by
        obtain ⟨old, present⟩ := invariant.handleFile number handle opened
        exact ⟨old, remains present⟩
      inodeBelow := fun other later present => by
        rcases stored present with ⟨rfl, -⟩ | ⟨-, old⟩
        · exact Nat.lt_succ_self _
        · exact Nat.lt_succ_of_lt (invariant.inodeBelow other later old)
      handleBelow := invariant.handleBelow
      maxBytes := invariant.maxBytes
      maxFiles := slot
      maxFileSize := fun other later present => by
        rcases stored present with ⟨-, rfl⟩ | ⟨-, old⟩
        · simp [empty]
        · exact invariant.maxFileSize other later old
      held := fun other later present unreachable => by
        rw [reachable, not_or] at unreachable
        rcases stored present with ⟨rfl, -⟩ | ⟨-, old⟩
        · exact absurd rfl unreachable.1
        · exact invariant.held other later old unreachable.2 }

/-- A new inode is stored under a free name. -/
theorem createFile_agrees (invariant : Invariant quota state) {path : Path} (below : path ≠ [])
    (normal : NormalPath path) (missing : state.root.at? path = none) :
    Agrees quota arcs state (u64Max ≤ state.nextInode)
      (outcome (createFile quota arcs path) state) (state.flat.create quota path) := by
  refine agrees_get (agrees_lift (parentDirectory_flat state below) fun _ directory => ?_)
  refine agrees_lift invariant.entrySlot_flat fun _ slot => ?_
  obtain ⟨parent, name, entries, rfl, found⟩ := ensureParentIsDir_ok directory
  have absent : Entries.get name entries = none := by
    rwa [at?_append, found, Option.bind_some, directory_at?_single] at missing
  by_cases full : u64Max ≤ state.nextInode
  · have overflow : addU64 state.nextInode 1 = none := if_neg (by omega)
    simp only [outcome_bind, outcome_orPanic, overflow, Option.map_none, Option.bind_none]
    exact full
  · have next : addU64 state.nextInode 1 = some (state.nextInode + 1) := if_pos (by omega)
    simp only [outcome_bind, outcome_orPanic, next, Option.map_some, Option.bind_some, outcome_set,
      outcome_get, outcome_lift, parentDirMut_snoc found, addU64_fileCount slot, outcome_pure]
    have settled := invariant.withFile found absent (by simpa using normal.depth)
      (ensureEntrySlot_ok slot) { addr := arcs.fresh, bytes := [] } rfl
    refine ⟨?_, settled, some state.nextInode, ?_, ?_⟩
    · refine congrArg Except.ok (Prod.ext rfl (FlatFs.ext ?_ (funext fun other => ?_) rfl rfl rfl))
      · exact (view_store_single found absent (single_file state.nextInode)).symm
      · by_cases same : other = state.nextInode
        · subst same
          simp [State.flat]
        · simp [State.flat, same]
    · intro other later present different
      have apart : other ≠ state.nextInode := fun same => different (congrArg some same.symm)
      rw [OrderedMap.get_insert, if_neg apart] at present
      exact ⟨later, present, rfl⟩
    · intro other later present same
      obtain rfl := Option.some.inj same
      rw [OrderedMap.get_insert, if_pos rfl] at present
      obtain rfl := Option.some.inj present
      exact .inl ⟨le_rfl, Nat.lt_add_of_pos_right (by decide)⟩

end Create

/-- The open fails as a lookup fails, or it finds, truncates, or creates a file. -/
theorem openInode_agrees (invariant : Invariant quota state) {path : Path} (normal : NormalPath path)
    (mode : OpenMode) :
    Agrees quota arcs state (u64Max ≤ state.nextInode)
      (outcome (openInode quota arcs path mode) state) (state.flat.openId quota path mode) := by
  refine agrees_get ?_
  unfold FlatFs.openId
  rw [resolve_flat]
  cases walk : getNode state.root path with
  | error error =>
      simp only [Except.map, outcome_ite]
      by_cases creates : error = .ENOENT ∧ (mode.create ∨ mode.createNew)
      · rw [if_pos creates, if_pos creates]
        have missing : state.root.at? path = none := by
          cases found : state.root.at? path with
          | none => rfl
          | some node =>
              rw [getNode_of_at? found] at walk
              cases walk
        have below : path ≠ [] := by
          rintro rfl
          simp at missing
        exact createFile_agrees invariant below normal missing
      · rw [if_neg creates, if_neg creates]
        exact agrees_error error
  | ok node =>
      have found := getNode_eq_ok_iff.mp walk
      cases node with
      | directory entries => exact agrees_error .EISDIR
      | file inode =>
          simp only [Except.map, entry, outcome_ite]
          split
          · exact agrees_error .EEXIST
          · split
            · obtain ⟨file, stored, -⟩ := invariant.linked inode ⟨path, view_eq_file_iff.mpr found⟩
              have empty : FlatFs.resized file.data.bytes 0 = [] := by simp [FlatFs.resized]
              have agreed := resizeFile_agrees arcs invariant stored 0
              rw [empty] at agreed
              have never : isizeMax < 0 → u64Max ≤ state.nextInode := fun huge =>
                absurd huge (Nat.not_lt_zero _)
              have stays := agrees_map (agreed.mono never) fun _ => inode
              cases kept : state.flat.store quota inode [] with
              | error error =>
                  rw [kept] at stays
                  exact stays
              | ok next =>
                  rw [kept] at stays
                  exact stays
            · exact agrees_pure invariant inode

/-- The opened identity is stored, and no handle was minted yet. -/
theorem openId_stored (invariant : Invariant quota state) {path : Path} {mode : OpenMode} {id : Nat}
    {next : FlatFs} (opened : state.flat.openId quota path mode = .ok (id, next)) :
    next.contents id ≠ none ∧ next.nextHandle = state.nextHandle := by
  unfold FlatFs.openId at opened
  rw [resolve_flat] at opened
  cases walk : getNode state.root path with
  | error error =>
      simp only [walk, Except.map] at opened
      split at opened
      · unfold FlatFs.create at opened
        cases parent : state.flat.parentDirectory path with
        | error error => simp [parent, bind, Except.bind] at opened
        | ok _ =>
            cases slot : state.flat.entrySlot quota with
            | error error => simp [parent, slot, bind, Except.bind] at opened
            | ok _ =>
                simp only [parent, slot, bind, Except.bind, Except.ok.injEq, Prod.mk.injEq] at opened
                obtain ⟨rfl, rfl⟩ := opened
                exact ⟨by simp, rfl⟩
      · cases opened
  | ok node =>
      cases node with
      | directory entries => simp [walk, Except.map, entry] at opened
      | file inode =>
          simp only [walk, Except.map, entry] at opened
          split at opened
          · cases opened
          · split at opened
            · unfold FlatFs.store at opened
              simp only at opened
              split_ifs at opened
              simp only [Except.ok.injEq, Prod.mk.injEq] at opened
              obtain ⟨rfl, rfl⟩ := opened
              exact ⟨by simp, rfl⟩
            · simp only [Except.ok.injEq, Prod.mk.injEq] at opened
              obtain ⟨rfl, rfl⟩ := opened
              obtain ⟨file, stored, -⟩ := invariant.linked inode
                ⟨path, view_eq_file_iff.mpr (getNode_eq_ok_iff.mp walk)⟩
              exact ⟨by simp [State.flat, stored], rfl⟩

theorem open_agrees (invariant : Invariant quota state) (path : Text) (mode : OpenMode) :
    Agrees quota arcs state (u64Max ≤ state.nextInode ∨ u64Max ≤ state.nextHandle)
      (outcome (Mem.open quota arcs path mode) state) (state.flat.open quota path mode) := by
  refine agrees_lift rfl fun _ _ => ?_
  refine agrees_lift rfl fun path resolved => ?_
  refine agrees_bind ((openInode_agrees invariant (normalizePath_normal resolved) mode).mono .inl)
    fun inode after opened settled => ?_
  obtain ⟨present, same⟩ := openId_stored invariant opened
  obtain ⟨bytes, stored⟩ := Option.ne_none_iff_exists'.mp present
  obtain ⟨file, found, -⟩ := Option.map_eq_some_iff.mp stored
  by_cases full : u64Max ≤ after.nextHandle
  · refine .inl ⟨insertHandle_exhausted inode mode full, .inr ?_⟩
    rwa [← same]
  · obtain ⟨final, reached, flat, invariant', kept⟩ :=
      insertHandle_spec settled found mode (by omega)
    exact .inr ⟨after.nextHandle, final, reached, congrArg Except.ok flat.symm, invariant', kept⟩

end TinySandbox.Mem
