/-
This file shows that the handle operations agree with the flat filesystem.
-/

import TinySandbox.Proof.Mem.PathAgreement

namespace TinySandbox.Mem
open Library Library.Call DirectoryTree

variable {quota : VfsQuota} {arcs : Arcs} {state : State} {inode : Inode} {file : FileNode}

/-- The state after one file gets new data. -/
def State.withData (state : State) (inode : Inode) (file : FileNode) (data : Arc) : State :=
  { state with
    files := state.files.insert inode { file with data }
    usedBytes := state.usedBytes + data.bytes.length - file.data.bytes.length }

theorem flat_withData (state : State) (inode : Inode) (file : FileNode) (data : Arc) :
    (state.withData inode file data).flat =
      { state.flat with contents := Function.update state.flat.contents inode (some data.bytes) } := by
  refine FlatFs.ext rfl (funext fun other => ?_) rfl rfl rfl
  by_cases same : other = inode
  · subst same
    simp [State.flat, State.withData]
  · simp [State.flat, State.withData, same]

theorem total_withData (found : state.files.get inode = some file) (data : Arc) :
    ((state.withData inode file data).files.total fun file => file.data.bytes.length) +
        file.data.bytes.length =
      (state.files.total fun file => file.data.bytes.length) + data.bytes.length := by
  have balance := state.files.total_insert (fun file => file.data.bytes.length) inode
    { file with data }
  simpa only [State.withData, found, Option.map_some, Option.getD_some] using balance

/-- New data within the quota keeps the invariant. -/
theorem Invariant.withData (invariant : Invariant quota state)
    (found : state.files.get inode = some file) {data : Arc}
    (fileFits : data.bytes.length ≤ quota.maxFileSize.toNat)
    (fits : state.usedBytes + data.bytes.length - file.data.bytes.length ≤ quota.maxBytes.toNat) :
    Invariant quota (state.withData inode file data) := by
  have stored {other : Inode} {later : FileNode}
      (present : (state.withData inode file data).files.get other = some later) :
      (other = inode ∧ later = { file with data }) ∨ state.files.get other = some later := by
    simp only [State.withData, OrderedMap.get_insert] at present
    split at present
    · exact .inl ⟨‹_›, (Option.some.inj present).symm⟩
    · exact .inr present
  have remains {other : Inode} {old : FileNode} (present : state.files.get other = some old) :
      ∃ later, (state.withData inode file data).files.get other = some later ∧
        later.links = old.links := by
    simp only [State.withData, OrderedMap.get_insert]
    split
    · rename_i same
      subst same
      obtain rfl := Option.some.inj (found.symm.trans present)
      exact ⟨_, rfl, rfl⟩
    · exact ⟨old, present, rfl⟩
  have size := state.files.size_insert inode { file with data }
  simp only [found, Option.map_some, Option.getD_some] at size
  exact
    { invariant.toWellRooted with
      usedBytes := by
        have balance := total_withData found data
        have used := invariant.usedBytes
        have within := state.files.weight_le_total (fun file => file.data.bytes.length) found
        simp only [State.withData] at balance ⊢
        omega
      fileCount := by
        have count := invariant.fileCount
        simp only [State.withData]
        omega
      linked := fun other reachable => by
        obtain ⟨old, present, links⟩ := invariant.linked other reachable
        obtain ⟨later, after, same⟩ := remains present
        exact ⟨later, after, same.trans links⟩
      unlinked := fun other later present unreachable => by
        rcases stored present with ⟨rfl, rfl⟩ | old
        · exact invariant.unlinked other file found unreachable
        · exact invariant.unlinked other later old unreachable
      openHandles := fun other later present => by
        rcases stored present with ⟨rfl, rfl⟩ | old
        · exact invariant.openHandles other file found
        · exact invariant.openHandles other later old
      handleFile := fun number handle opened => by
        obtain ⟨old, present⟩ := invariant.handleFile number handle opened
        obtain ⟨later, after, -⟩ := remains present
        exact ⟨later, after⟩
      inodeBelow := fun other later present => by
        rcases stored present with ⟨rfl, rfl⟩ | old
        · exact invariant.inodeBelow other file found
        · exact invariant.inodeBelow other later old
      handleBelow := invariant.handleBelow
      maxBytes := fits
      maxFiles := invariant.maxFiles
      maxFileSize := fun other later present => by
        rcases stored present with ⟨rfl, rfl⟩ | old
        · exact fileFits
        · exact invariant.maxFileSize other later old
      held := fun other later present unreachable => by
        rcases stored present with ⟨rfl, rfl⟩ | old
        · exact invariant.held other file found unreachable
        · exact invariant.held other later old unreachable }

/-- A new buffer is free, or no other `Arc` holds it. -/
def OwnBuffer (arcs : Arcs) (old new : Arc) : Prop :=
  (arcs.fresh ≤ new.addr ∧ new.addr < arcs.fresh + 2) ∨
    (old.addr = new.addr ∧ arcs.strongCount old.addr ≤ 1)

/-- The second `make_mut` of a write keeps the buffer or takes the next free one. -/
theorem OwnBuffer.makeMut {old : Arc} {addr : Nat} (bytes : Bytes)
    (own : addr = arcs.fresh ∨ (old.addr = addr ∧ arcs.strongCount old.addr ≤ 1)) :
    OwnBuffer arcs old { addr := arcs.next.makeMut addr, bytes } := by
  have cases : arcs.next.makeMut addr = arcs.fresh + 1 ∧ 1 < arcs.strongCount addr ∨
      arcs.next.makeMut addr = addr := by
    by_cases shared : 1 < arcs.strongCount addr
    · exact .inl ⟨if_pos shared, shared⟩
    · exact .inr (if_neg shared)
  unfold OwnBuffer
  simp only
  rcases own with fresh | ⟨equal, alone⟩ <;> rcases cases with ⟨moved, shared⟩ | kept
  · exact .inl (by omega)
  · exact .inl (by omega)
  · exact .inl (by omega)
  · exact .inr ⟨by omega, alone⟩

theorem ArcStep.withData (found : state.files.get inode = some file) {data : Arc}
    (own : OwnBuffer arcs file.data data) :
    ArcStep arcs state.files (state.withData inode file data).files := by
  refine ⟨some inode, ?_, ?_⟩
  · intro other later present different
    have apart : other ≠ inode := fun same => different (congrArg some same.symm)
    simp only [State.withData, OrderedMap.get_insert, if_neg apart] at present
    exact ⟨later, present, rfl⟩
  · intro other later present same
    obtain rfl := Option.some.inj same
    simp only [State.withData, OrderedMap.get_insert, if_pos] at present
    obtain rfl := Option.some.inj present
    rcases own with fresh | ⟨equal, alone⟩
    · exact .inl fresh
    · exact .inr ⟨file, found, equal, alone⟩

/-- The flat check of new bytes looks at the file size and the byte count of the state. -/
theorem Invariant.store_flat (invariant : Invariant quota state)
    (found : state.files.get inode = some file) (data : Arc) :
    state.flat.store quota inode data.bytes =
      if quota.maxFileSize.toNat < data.bytes.length then .error .ENOSPC
      else if quota.maxBytes.toNat <
          state.usedBytes + data.bytes.length - file.data.bytes.length then .error .ENOSPC
      else .ok (state.withData inode file data).flat := by
  have balance := total_withData found data
  have count : FlatFs.byteCount { state.flat with
      contents := Function.update state.flat.contents inode (some data.bytes) } =
      state.usedBytes + data.bytes.length - file.data.bytes.length := by
    rw [← flat_withData state inode file data, flat_byteCount, invariant.usedBytes]
    omega
  simp only [FlatFs.store, count, flat_withData]

theorem FlatFs.length_resized (bytes : Bytes) (len : Nat) : (FlatFs.resized bytes len).length = len := by
  simp only [FlatFs.resized, List.length_append, List.length_take, List.length_replicate]
  omega

theorem adjustedUsedBytes_eq {usedBytes oldLen : Nat} (within : oldLen ≤ usedBytes)
    (small : usedBytes ≤ u64Max) (newLen : Nat) :
    adjustedUsedBytes usedBytes oldLen newLen =
      some (if usedBytes + newLen - oldLen ≤ u64Max then .ok (usedBytes + newLen - oldLen)
        else .error .ENOSPC) := by
  unfold adjustedUsedBytes
  split
  · have same : usedBytes + (newLen - oldLen) = usedBytes + newLen - oldLen := by omega
    rw [checkedAdd, same]
    split <;> rfl
  · have same : usedBytes - (oldLen - newLen) = usedBytes + newLen - oldLen := by omega
    rw [subU64, if_pos (by omega), if_pos (by omega), same]
    rfl

/-- The resized buffer is the free one, or it stays where no other `Arc` holds it. -/
theorem resizeData_cases (arcs : Arcs) (old : Arc) (newLen : Nat) :
    (resizeData arcs old newLen = none ∧ isizeMax < newLen) ∨
      ∃ data, resizeData arcs old newLen = some data ∧
        data.bytes = FlatFs.resized old.bytes newLen ∧
        (data.addr = arcs.fresh ∨ (old.addr = data.addr ∧ arcs.strongCount old.addr ≤ 1)) := by
  unfold resizeData
  split
  · rename_i shrinks
    refine .inr ⟨_, rfl, ?_, .inl rfl⟩
    have none : newLen - old.bytes.length = 0 := by omega
    simp [FlatFs.resized, none]
  · unfold vecResize
    split
    · refine .inr ⟨_, rfl, rfl, ?_⟩
      unfold Arcs.makeMut
      split
      · exact .inl rfl
      · exact .inr ⟨rfl, by omega⟩
    · exact .inl ⟨rfl, by omega⟩

/-- A resize is refused by the quota, exhausts the address space, or changes one file. -/
theorem resizeFile_cases (invariant : Invariant quota state) (arcs : Arcs)
    (found : state.files.get inode = some file) (newLen : Nat) :
    (outcome (resizeFile quota arcs inode newLen) state = some (.error .ENOSPC, state) ∧
      (quota.maxFileSize.toNat < newLen ∨
        quota.maxBytes.toNat < state.usedBytes + newLen - file.data.bytes.length)) ∨
    (outcome (resizeFile quota arcs inode newLen) state = none ∧ isizeMax < newLen ∧
      newLen ≤ quota.maxFileSize.toNat ∧
      state.usedBytes + newLen - file.data.bytes.length ≤ quota.maxBytes.toNat) ∨
    (newLen ≤ quota.maxFileSize.toNat ∧
      state.usedBytes + newLen - file.data.bytes.length ≤ quota.maxBytes.toNat ∧
      ∃ data, outcome (resizeFile quota arcs inode newLen) state =
          some (.ok (), state.withData inode file data) ∧
        data.bytes = FlatFs.resized file.data.bytes newLen ∧
        (data.addr = arcs.fresh ∨
          (file.data.addr = data.addr ∧ arcs.strongCount file.data.addr ≤ 1))) := by
  have used := invariant.usedBytes
  have within := state.files.weight_le_total (fun file => file.data.bytes.length) found
  have maxBytes := invariant.maxBytes
  have bound := uint64_le_u64Max quota.maxBytes
  have adjusted := adjustedUsedBytes_eq (by omega : file.data.bytes.length ≤ state.usedBytes)
    (by omega) newLen
  have unfolded : outcome (resizeFile quota arcs inode newLen) state =
      if quota.maxFileSize.toNat < newLen then some (.error .ENOSPC, state)
      else if quota.maxBytes.toNat < state.usedBytes + newLen - file.data.bytes.length then
        some (.error .ENOSPC, state)
      else (resizeData arcs file.data newLen).map fun data =>
        (.ok (), { state with
          files := state.files.insert inode { file with data }
          usedBytes := state.usedBytes + newLen - file.data.bytes.length }) := by
    unfold resizeFile
    simp only [outcome_bind, outcome_get, Option.bind_some, found, okOr_some, outcome_lift,
      outcome_refuse, outcome_orPanic, adjusted, Option.map_some, outcome_set]
    by_cases large : quota.maxFileSize.toNat < newLen
    · simp only [if_pos large]
    · simp only [if_neg large]
      by_cases full : quota.maxBytes.toNat < state.usedBytes + newLen - file.data.bytes.length
      · simp only [if_pos full]
        by_cases wide : state.usedBytes + newLen - file.data.bytes.length ≤ u64Max
        · simp only [if_pos wide, if_pos full]
        · simp only [if_neg wide]
      · have wide : state.usedBytes + newLen - file.data.bytes.length ≤ u64Max := by omega
        simp only [if_neg full, if_pos wide]
        cases resizeData arcs file.data newLen <;> rfl
  rw [unfolded]
  split
  · rename_i large
    exact .inl ⟨rfl, .inl large⟩
  · split
    · rename_i full
      exact .inl ⟨rfl, .inr full⟩
    · rcases resizeData_cases arcs file.data newLen with ⟨failed, huge⟩ | ⟨data, reached, bytes, addr⟩
      · rw [failed]
        exact .inr (.inl ⟨rfl, huge, by omega, by omega⟩)
      · rw [reached]
        refine .inr (.inr ⟨by omega, by omega, data, ?_, bytes, addr⟩)
        simp only [Option.map_some, State.withData, bytes, FlatFs.length_resized]

/-- A resize stores the cut or zero-filled bytes when the quota allows it. -/
theorem resizeFile_agrees (arcs : Arcs) (invariant : Invariant quota state)
    (found : state.files.get inode = some file) (newLen : Nat) :
    Agrees quota arcs state (isizeMax < newLen) (outcome (resizeFile quota arcs inode newLen) state)
      ((state.flat.store quota inode (FlatFs.resized file.data.bytes newLen)).map
        fun next => ((), next)) := by
  rcases resizeFile_cases invariant arcs found newLen with
    ⟨reached, refused⟩ | ⟨reached, huge, -⟩ | ⟨fileFits, fits, data, reached, bytes, addr⟩
  · rw [reached]
    have refusal := invariant.store_flat found
      { addr := 0, bytes := FlatFs.resized file.data.bytes newLen }
    simp only [FlatFs.length_resized] at refusal
    rw [refusal]
    rcases refused with large | full
    · rw [if_pos large]
      exact ⟨rfl, rfl⟩
    · rw [if_pos full, ite_self]
      exact ⟨rfl, rfl⟩
  · rw [reached]
    exact huge
  · rw [reached, ← bytes, invariant.store_flat found data]
    have length : data.bytes.length = newLen := by rw [bytes, FlatFs.length_resized]
    rw [length, if_neg (by omega), if_neg (by omega)]
    refine ⟨rfl, invariant.withData found (by omega) (by rw [length]; omega), .withData found ?_⟩
    rcases addr with fresh | alone
    · exact .inl (by omega)
    · exact .inr alone

theorem flat_handle (state : State) (number : Nat) :
    state.flat.handle number = okOr .EBADF (state.handles.get number) := rfl

/-- A handle reads the bytes of the file it names. -/
theorem flat_bytes {handle : Handle} (found : state.files.get handle.inode = some file) :
    state.flat.bytes handle = file.data.bytes := by
  simp [FlatFs.bytes, State.flat, found]

theorem okOr_eq_ok {α : Type} {error : Errno} {value : Option α} {found : α}
    (success : okOr error value = .ok found) : value = some found := by
  cases value with
  | none => cases success
  | some other => exact congrArg some (Except.ok.inj success)

theorem readAt_agrees (invariant : Invariant quota state) (number offset bufLen : Nat) :
    Agrees quota arcs state False (outcome (readAt number offset bufLen) state)
      (state.flat.readAt number offset bufLen) := by
  refine agrees_lift rfl fun offset _ => agrees_get ?_
  refine agrees_lift (flat_handle state number) fun handle opened => ?_
  refine agrees_refuse Iff.rfl .EBADF fun _ => ?_
  obtain ⟨file, found⟩ := invariant.handleFile number handle (okOr_eq_ok opened)
  rw [found, okOr_some, outcome_lift_bind_ok, flat_bytes found]
  simp only
  rw [outcome_ite]
  split
  · rename_i past
    rw [List.drop_eq_nil_of_le past, List.take_nil]
    exact agrees_pure invariant []
  · have same : ((file.data.bytes.drop offset).take
        (min (file.data.bytes.length - offset) bufLen)) = (file.data.bytes.drop offset).take bufLen := by
      rw [List.take_eq_take_iff, List.length_drop]
      omega
    rw [same]
    exact agrees_pure invariant _

/-- A truncation needs more memory than one allocation can have. -/
def TruncateExhausts (state : State) (number len : Nat) : Prop :=
  state.handles.get number ≠ none ∧ isizeMax < len

theorem truncate_agrees (invariant : Invariant quota state) (number len : Nat) :
    Agrees quota arcs state (TruncateExhausts state number len) (outcome (truncate quota arcs number len) state)
      (state.flat.truncate quota number len) := by
  refine agrees_lift rfl fun wanted fits => agrees_get ?_
  obtain rfl := eq_of_usizeTryFrom (okOr_eq_ok fits)
  refine agrees_lift (flat_handle state number) fun handle opened => ?_
  refine agrees_refuse Iff.rfl .EINVAL fun _ => ?_
  have present := okOr_eq_ok opened
  obtain ⟨file, found⟩ := invariant.handleFile number handle present
  rw [flat_bytes found]
  have exhausts : isizeMax < len → TruncateExhausts state number len := fun huge =>
    ⟨by simp [present], huge⟩
  have agreed := (resizeFile_agrees arcs invariant found len).mono exhausts
  cases stored : state.flat.store quota handle.inode (FlatFs.resized file.data.bytes len) with
  | error error => rwa [stored] at agreed
  | ok next => rwa [stored] at agreed

/-- Copying into the resized bytes overwrites the old ones and zero-fills a gap. -/
theorem copyFromSlice_resized (bytes data : Bytes) (start : Nat) :
    copyFromSlice (FlatFs.resized bytes (max bytes.length (start + data.length))) start data =
      FlatFs.overwritten bytes start data := by
  have before : (FlatFs.resized bytes (max bytes.length (start + data.length))).take start =
      FlatFs.resized bytes start := by
    simp only [FlatFs.resized, List.take_append, List.take_replicate, List.take_take,
      List.length_take]
    congr 2
    · omega
    · omega
  have after : (FlatFs.resized bytes (max bytes.length (start + data.length))).drop
      (start + data.length) = bytes.drop (start + data.length) := by
    by_cases inside : start + data.length ≤ bytes.length
    · have same : FlatFs.resized bytes bytes.length = bytes := by simp [FlatFs.resized]
      rw [Nat.max_eq_left inside, same]
    · rw [List.drop_eq_nil_of_le (by rw [FlatFs.length_resized]; omega),
        List.drop_eq_nil_of_le (by omega)]
  rw [copyFromSlice, before, after]
  rfl

theorem length_overwritten (bytes data : Bytes) (start : Nat) :
    (FlatFs.overwritten bytes start data).length = max bytes.length (start + data.length) := by
  simp only [FlatFs.overwritten, List.length_append, FlatFs.length_resized, List.length_drop]
  omega

/-- The second buffer change of a write replaces the first. -/
theorem withData_withData (state : State) (inode : Inode) (file : FileNode) (first second : Arc)
    (same : second.bytes.length = first.bytes.length) :
    ({ state.withData inode file first with
        files := (state.withData inode file first).files.insert inode
          { ({ file with data := first } : FileNode) with data := second } } : State) =
      state.withData inode file second := by
  simp only [State.withData, OrderedMap.insert_insert, same]

/-- The write copies the data into the resized file. -/
theorem writeResized_agrees (arcs : Arcs) (invariant : Invariant quota state)
    (found : state.files.get inode = some file) (start : Nat) (data : Bytes) :
    Agrees quota arcs state (isizeMax < max file.data.bytes.length (start + data.length))
      (outcome (do
        resizeFile quota arcs inode (max file.data.bytes.length (start + data.length))
        let state ← get
        let file ← lift (okOr .ENOENT (state.files.get inode))
        let written : Arc :=
          { addr := arcs.next.makeMut file.data.addr
            bytes := copyFromSlice file.data.bytes start data }
        set { state with files := state.files.insert inode { file with data := written } }
        pure data.length) state)
      ((state.flat.store quota inode (FlatFs.overwritten file.data.bytes start data)).map
        fun next => (data.length, next)) := by
  rw [outcome_bind]
  have length := length_overwritten file.data.bytes data start
  rcases resizeFile_cases invariant arcs found (max file.data.bytes.length (start + data.length)) with
    ⟨reached, refused⟩ | ⟨reached, huge, -⟩ | ⟨fileFits, fits, grown, reached, bytes, addr⟩
  · rw [reached]
    have refusal := invariant.store_flat found
      { addr := 0, bytes := FlatFs.overwritten file.data.bytes start data }
    simp only [length] at refusal
    rw [refusal]
    rcases refused with large | full
    · rw [if_pos large]
      exact ⟨rfl, rfl⟩
    · rw [if_pos full, ite_self]
      exact ⟨rfl, rfl⟩
  · rw [reached]
    exact huge
  · rw [reached]
    let written : Arc :=
      { addr := arcs.next.makeMut grown.addr
        bytes := FlatFs.overwritten file.data.bytes start data }
    have here : (state.withData inode file grown).files.get inode = some { file with data := grown } := by
      simp [State.withData]
    have copied : copyFromSlice grown.bytes start data = written.bytes := by
      rw [bytes, copyFromSlice_resized]
    have same : written.bytes.length = grown.bytes.length := by
      rw [length, bytes, FlatFs.length_resized]
    have final := withData_withData state inode file grown written same
    simp only [Option.bind_some, outcome_bind, outcome_get, here, okOr_some, outcome_lift,
      outcome_set, outcome_pure, copied]
    change Agrees _ _ _ _ (some (.ok data.length, { state.withData inode file grown with
      files := (state.withData inode file grown).files.insert inode
        { ({ file with data := grown } : FileNode) with data := written } })) _
    rw [final]
    have stored := invariant.store_flat found written
    rw [length, if_neg (by omega), if_neg (by omega)] at stored
    change Agrees _ _ _ _ _ ((state.flat.store quota inode written.bytes).map _)
    rw [stored]
    refine ⟨rfl, invariant.withData found (by rw [length]; omega) (by rw [length]; omega),
      .withData found (.makeMut _ addr)⟩

/-- A write needs more memory than one allocation can have. -/
def WriteExhausts (state : State) (number offset : Nat) (data : Bytes) : Prop :=
  ∃ handle file, state.handles.get number = some handle ∧
    state.files.get handle.inode = some file ∧
    isizeMax < max file.data.bytes.length
      ((if handle.append then file.data.bytes.length else offset) + data.length)

theorem writeAt_agrees (invariant : Invariant quota state) (number offset : Nat) (data : Bytes) :
    Agrees quota arcs state (WriteExhausts state number offset data)
      (outcome (writeAt quota arcs number offset data) state)
      (state.flat.writeAt quota number offset data) := by
  refine agrees_get (agrees_lift (flat_handle state number) fun handle opened => ?_)
  refine agrees_refuse Iff.rfl .EBADF fun _ => ?_
  rw [outcome_ite]
  split
  · exact agrees_pure invariant 0
  · refine agrees_lift rfl fun wanted fits => ?_
    obtain rfl := eq_of_usizeTryFrom (okOr_eq_ok fits)
    have present := okOr_eq_ok opened
    obtain ⟨file, found⟩ := invariant.handleFile number handle present
    rw [found, okOr_some, outcome_lift_bind_ok, flat_bytes found]
    refine agrees_lift rfl fun writeEnd ends => ?_
    obtain rfl := eq_of_checkedAdd (okOr_eq_ok ends)
    have agreed := writeResized_agrees arcs invariant found
      (if handle.append then file.data.bytes.length else offset) data
    have exhausts : isizeMax < max file.data.bytes.length
        ((if handle.append then file.data.bytes.length else offset) + data.length) →
        WriteExhausts state number offset data := fun huge => ⟨handle, file, present, found, huge⟩
    cases stored : state.flat.store quota handle.inode (FlatFs.overwritten file.data.bytes
        (if handle.append then file.data.bytes.length else offset) data) with
    | error error =>
        rw [stored] at agreed
        exact agreed.mono exhausts
    | ok next =>
        rw [stored] at agreed
        exact agreed.mono exhausts

end TinySandbox.Mem
