/-
This file shows when a write or a truncation asks for an impossible allocation.
The stored files are always allocated, so only a length that the quota admits can be too large.
-/

import TinySandbox.Library.Endings
import TinySandbox.Proof.Mem.Runs
import TinySandbox.Specification.Allocations

namespace TinySandbox.Mem
open Library Library.Call

/-- Every stored file fits into one allocation. -/
def Allocated (files : OrderedMap Inode FileNode) : Prop :=
  ∀ inode file, files.get inode = some file → file.data.bytes.length ≤ isizeMax

def State.IsAllocated (state : State) : Prop := Allocated state.files

theorem Allocated.insert {files : OrderedMap Inode FileNode} (allocated : Allocated files)
    (inode : Inode) {file : FileNode} (fits : file.data.bytes.length ≤ isizeMax) :
    Allocated (files.insert inode file) := by
  intro other found present
  rw [OrderedMap.get_insert] at present
  split at present
  · exact Option.some.inj present ▸ fits
  · exact allocated other found present

theorem Allocated.erase {files : OrderedMap Inode FileNode} (allocated : Allocated files)
    (inode : Inode) : Allocated (files.erase inode) := by
  intro other found present
  rw [OrderedMap.get_erase] at present
  split at present
  · cases present
  · exact allocated other found present

section Calls
variable {quota : VfsQuota} {arcs : Arcs} {state : State}

theorem length_resizeData {data resized : Arc} {newLen : Nat} (fits : data.bytes.length ≤ isizeMax)
    (reached : resizeData arcs data newLen = some resized) :
    resized.bytes.length ≤ isizeMax ∧ newLen ≤ isizeMax := by
  unfold resizeData at reached
  split at reached
  · obtain rfl := Option.some.inj reached
    simp only [List.length_take]
    omega
  · obtain ⟨bytes, grown, rfl⟩ := Option.map_eq_some_iff.mp reached
    unfold vecResize at grown
    split at grown
    · obtain rfl := Option.some.inj grown
      simp only [List.length_append, List.length_take, List.length_replicate]
      omega
    · cases grown

/-- A resize that succeeds asks for a possible length. -/
theorem resizeFile_ends (allocated : state.IsAllocated) (inode : Inode) (newLen : Nat) :
    EndsAt (fun _ after => after.IsAllocated ∧ newLen ≤ isizeMax) (fun _ => State.IsAllocated)
      (resizeFile quota arcs inode newLen) state := by
  apply endsAt_get_bind
  apply endsAt_lift_bind (fun _ _ => allocated)
  intro file found
  apply endsAt_refuse_bind (fun _ => allocated)
  intro _
  apply endsAt_orPanic_bind
  intro adjusted _
  apply endsAt_lift_bind (fun _ _ => allocated)
  intro usedBytes _
  apply endsAt_refuse_bind (fun _ => allocated)
  intro _
  apply endsAt_orPanic_bind
  intro data reached
  have fits := allocated inode file (okOr_eq_ok found)
  obtain ⟨length, possible⟩ := length_resizeData fits reached
  exact endsAt_set ⟨Allocated.insert allocated inode length, possible⟩

theorem keeps_resizeFile (inode : Inode) (newLen : Nat) :
    Keeps State.IsAllocated (resizeFile quota arcs inode newLen) := by
  intro state allocated
  apply (resizeFile_ends allocated inode newLen).mono
  · intro _ after ends
    exact ends.1
  · intro error after kept
    exact kept

theorem keeps_releaseFileIfUnreferenced (inode : Inode) :
    Keeps State.IsAllocated (releaseFileIfUnreferenced inode) := by
  intro state allocated
  apply endsAt_get_bind
  cases state.files.get inode with
  | none => exact endsAt_pure allocated
  | some file =>
      apply endsAt_ite
      · intro _
        exact endsAt_pure allocated
      · intro _
        apply endsAt_orPanic_bind
        intro usedBytes _
        apply endsAt_orPanic_bind
        intro fileCount _
        exact endsAt_set (Allocated.erase allocated inode)

mutual
theorem keeps_removeTree (node : Node) : Keeps State.IsAllocated (removeTree node) := by
  intro state allocated
  cases node with
  | file inode =>
      rw [removeTree]
      apply endsAt_get_bind
      apply endsAt_lift_bind (fun _ _ => allocated)
      intro file found
      apply endsAt_orPanic_bind
      intro links _
      apply endsAt_set_bind
      apply keeps_releaseFileIfUnreferenced
      exact Allocated.insert allocated inode (allocated inode file (okOr_eq_ok found))
  | directory entries =>
      rw [removeTree]
      apply (keeps_removeTrees entries state allocated).bind
      intro _ middle kept
      apply endsAt_get_bind
      apply endsAt_orPanic_bind
      intro fileCount _
      exact endsAt_set kept
theorem keeps_removeTrees (entries : Directory) : Keeps State.IsAllocated (removeTrees entries) := by
  intro state allocated
  cases entries with
  | nil => exact endsAt_pure allocated
  | cons entry rest =>
      rw [removeTrees]
      apply (keeps_removeTree entry.2 state allocated).bind
      intro _
      exact keeps_removeTrees rest
end

theorem keeps_mkdir (path : Text) : Keeps State.IsAllocated (mkdir quota path) := by
  intro state allocated
  apply endsAt_lift_bind (fun _ _ => allocated)
  intro path _
  apply endsAt_refuse_bind (fun _ => allocated)
  intro _
  apply endsAt_get_bind
  apply endsAt_lift_bind (fun _ _ => allocated)
  intro _ _
  apply endsAt_lift_bind (fun _ _ => allocated)
  intro _ _
  apply endsAt_lift_bind (fun _ _ => allocated)
  intro _ _
  apply endsAt_lift_bind (fun _ _ => allocated)
  intro parent _
  apply endsAt_orPanic_bind
  intro fileCount _
  exact endsAt_set allocated

theorem keeps_moveNode (source target : Path) : Keeps State.IsAllocated (moveNode source target) := by
  intro state allocated
  apply endsAt_get_bind
  apply endsAt_lift_bind (fun _ _ => allocated)
  intro parent _
  apply endsAt_lift_bind (fun _ _ => allocated)
  intro removed _
  apply endsAt_set_bind
  have kept : State.IsAllocated { state with
    root := parent.2.2 (Entries.erase parent.2.1 parent.1) } := allocated
  apply endsAt_get_bind
  apply endsAt_lift_bind (fun _ _ => kept)
  intro parent _
  apply endsAt_set_bind
  have stays : State.IsAllocated { state with
    root := parent.2.2 (Entries.insert parent.2.1 removed parent.1) } := allocated
  dsimp only
  cases Entries.get parent.2.1 parent.1 with
  | none => exact endsAt_pure stays
  | some replaced => exact keeps_removeTree replaced _ stays

theorem keeps_rename (source target : Text) : Keeps State.IsAllocated (rename source target) := by
  intro state allocated
  apply endsAt_lift_bind (fun _ _ => allocated)
  intro source _
  apply endsAt_lift_bind (fun _ _ => allocated)
  intro target _
  apply endsAt_refuse_bind (fun _ => allocated)
  intro _
  apply endsAt_get_bind
  apply endsAt_lift_bind (fun _ _ => allocated)
  intro node _
  apply endsAt_ite
  · intro _
    exact endsAt_pure allocated
  · intro _
    apply endsAt_refuse_bind (fun _ => allocated)
    intro _
    apply endsAt_lift_bind (fun _ _ => allocated)
    intro _ _
    apply endsAt_lift_bind (fun _ _ => allocated)
    intro _ _
    apply endsAt_lift_bind (fun _ _ => allocated)
    intro _ _
    exact keeps_moveNode source target state allocated

theorem keeps_removeEntry (check : Option Node → VfsResult Unit) (path : Path) :
    Keeps State.IsAllocated (removeEntry check path) := by
  intro state allocated
  apply endsAt_get_bind
  apply endsAt_lift_bind (fun _ _ => allocated)
  intro parent _
  apply endsAt_lift_bind (fun _ _ => allocated)
  intro _ _
  apply endsAt_lift_bind (fun _ _ => allocated)
  intro removed _
  apply endsAt_set_bind
  exact keeps_removeTree removed _ allocated

theorem keeps_createFile (path : Path) : Keeps State.IsAllocated (createFile quota arcs path) := by
  intro state allocated
  apply endsAt_get_bind
  apply endsAt_lift_bind (fun _ _ => allocated)
  intro _ _
  apply endsAt_lift_bind (fun _ _ => allocated)
  intro _ _
  apply endsAt_orPanic_bind
  intro nextInode _
  apply endsAt_set_bind
  have kept : State.IsAllocated { state with
      nextInode
      files := state.files.insert state.nextInode
        { data := { addr := arcs.fresh, bytes := [] }, links := 1, openHandles := 0 } } :=
    Allocated.insert allocated _ (Nat.zero_le _)
  apply endsAt_get_bind
  apply endsAt_lift_bind (fun _ _ => kept)
  intro parent _
  apply endsAt_orPanic_bind
  intro fileCount _
  apply endsAt_set_bind
  apply endsAt_pure
  exact kept

theorem keeps_openInode (path : Path) (mode : OpenMode) :
    Keeps State.IsAllocated (openInode quota arcs path mode) := by
  intro state allocated
  apply endsAt_get_bind
  cases getNode state.root path with
  | ok node =>
      cases node with
      | directory entries => exact endsAt_throw allocated
      | file inode =>
          apply endsAt_ite
          · intro _
            exact endsAt_throw allocated
          · intro _
            apply endsAt_ite
            · intro _
              apply (keeps_resizeFile inode 0 state allocated).bind
              intro _ middle kept
              exact endsAt_pure kept
            · intro _
              exact endsAt_pure allocated
  | error error =>
      apply endsAt_ite
      · intro _
        exact keeps_createFile path state allocated
      · intro _
        exact endsAt_throw allocated

theorem keeps_insertHandle (inode : Inode) (mode : OpenMode) :
    Keeps State.IsAllocated (insertHandle inode mode) := by
  intro state allocated
  apply endsAt_get_bind
  apply endsAt_orPanic_bind
  intro nextHandle _
  apply endsAt_set_bind
  have kept : State.IsAllocated { state with
      nextHandle
      handles := state.handles.insert state.nextHandle
        { inode, readable := mode.read, writable := mode.write, append := mode.append } } := allocated
  apply endsAt_get_bind
  apply endsAt_lift_bind (fun _ _ => kept)
  intro file found
  apply endsAt_orPanic_bind
  intro openHandles _
  apply endsAt_set_bind
  apply endsAt_pure
  exact Allocated.insert allocated inode (allocated inode file (okOr_eq_ok found))

theorem keeps_open (path : Text) (mode : OpenMode) :
    Keeps State.IsAllocated (Mem.open quota arcs path mode) := by
  intro state allocated
  apply endsAt_lift_bind (fun _ _ => allocated)
  intro _ _
  apply endsAt_lift_bind (fun _ _ => allocated)
  intro path _
  apply (keeps_openInode path mode state allocated).bind
  intro inode
  exact keeps_insertHandle inode mode

theorem keeps_writeAt (number offset : Nat) (data : Bytes) :
    Keeps State.IsAllocated (writeAt quota arcs number offset data) := by
  intro state allocated
  apply endsAt_get_bind
  apply endsAt_lift_bind (fun _ _ => allocated)
  intro handle _
  apply endsAt_refuse_bind (fun _ => allocated)
  intro _
  apply endsAt_ite
  · intro _
    exact endsAt_pure allocated
  · intro _
    apply endsAt_lift_bind (fun _ _ => allocated)
    intro offset _
    apply endsAt_lift_bind (fun _ _ => allocated)
    intro file _
    apply endsAt_lift_bind (fun _ _ => allocated)
    intro writeEnd ends
    apply (resizeFile_ends allocated handle.inode _).bind
    rintro _ middle ⟨kept, possible⟩
    have within : (if handle.append then file.data.bytes.length else offset) + data.length ≤
        isizeMax := by
      rw [eq_of_checkedAdd (okOr_eq_ok ends)]
      omega
    apply endsAt_get_bind
    apply endsAt_lift_bind (fun _ _ => kept)
    intro grown found
    apply endsAt_set_bind
    apply endsAt_pure
    apply Allocated.insert kept
    have fits := kept handle.inode grown (okOr_eq_ok found)
    simp only [copyFromSlice, List.length_append, List.length_take, List.length_drop]
    omega

theorem keeps_truncate (number len : Nat) :
    Keeps State.IsAllocated (truncate quota arcs number len) := by
  intro state allocated
  apply endsAt_lift_bind (fun _ _ => allocated)
  intro len _
  apply endsAt_get_bind
  apply endsAt_lift_bind (fun _ _ => allocated)
  intro handle _
  apply endsAt_refuse_bind (fun _ => allocated)
  intro _
  exact keeps_resizeFile handle.inode len state allocated

theorem keeps_close (number : Nat) : Keeps State.IsAllocated (close number) := by
  intro state allocated
  apply endsAt_get_bind
  apply endsAt_lift_bind (fun _ _ => allocated)
  intro closed _
  apply endsAt_set_bind
  have kept : State.IsAllocated { state with handles := state.handles.erase number } := allocated
  apply endsAt_get_bind
  apply endsAt_lift_bind (fun _ _ => kept)
  intro file found
  apply endsAt_orPanic_bind
  intro openHandles _
  apply endsAt_set_bind
  apply keeps_releaseFileIfUnreferenced
  exact Allocated.insert allocated closed.inode (allocated closed.inode file (okOr_eq_ok found))

/-- A result that was computed without the state keeps it. -/
theorem endsAt_lift_allocated {α : Type} (allocated : state.IsAllocated) (result : VfsResult α) :
    EndsAt (fun _ => State.IsAllocated) (fun _ => State.IsAllocated) (lift result : MemCall α)
      state := by
  apply endsAt_lift
  cases result <;> exact allocated

theorem keeps_stat (path : Text) : Keeps State.IsAllocated (stat path) := by
  intro state allocated
  apply endsAt_lift_bind (fun _ _ => allocated)
  intro path _
  apply endsAt_get_bind
  apply endsAt_lift_bind (fun _ _ => allocated)
  intro node _
  exact endsAt_lift_allocated allocated _

theorem keeps_readdir (path : Text) : Keeps State.IsAllocated (readdir path) := by
  intro state allocated
  apply endsAt_lift_bind (fun _ _ => allocated)
  intro path _
  apply endsAt_get_bind
  apply endsAt_lift_bind (fun _ _ => allocated)
  intro node _
  cases node with
  | file inode => exact endsAt_throw allocated
  | directory entries => exact endsAt_lift_allocated allocated _

theorem keeps_readAt (number offset bufLen : Nat) :
    Keeps State.IsAllocated (readAt number offset bufLen) := by
  intro state allocated
  apply endsAt_lift_bind (fun _ _ => allocated)
  intro offset _
  apply endsAt_get_bind
  apply endsAt_lift_bind (fun _ _ => allocated)
  intro handle _
  apply endsAt_refuse_bind (fun _ => allocated)
  intro _
  apply endsAt_lift_bind (fun _ _ => allocated)
  intro file _
  apply endsAt_ite <;> intro _ <;> exact endsAt_pure allocated

theorem keeps_unlink (path : Text) : Keeps State.IsAllocated (unlink path) := by
  intro state allocated
  apply endsAt_lift_bind (fun _ _ => allocated)
  intro path _
  apply endsAt_refuse_bind (fun _ => allocated)
  intro _
  exact keeps_removeEntry expectFile path state allocated

theorem keeps_rmdir (path : Text) : Keeps State.IsAllocated (rmdir path) := by
  intro state allocated
  apply endsAt_lift_bind (fun _ _ => allocated)
  intro path _
  apply endsAt_refuse_bind (fun _ => allocated)
  intro _
  exact keeps_removeEntry expectEmptyDirectory path state allocated

/-- Every call keeps the stored files allocated. -/
theorem keeps_run (call : VfsCall) : Keeps State.IsAllocated (call.run quota arcs) := by
  cases call with
  | stat path => exact (keeps_stat path).map _
  | readdir path => exact (keeps_readdir path).map _
  | mkdir path => exact (keeps_mkdir path).map _
  | rename source target => exact (keeps_rename source target).map _
  | unlink path => exact (keeps_unlink path).map _
  | rmdir path => exact (keeps_rmdir path).map _
  | «open» path mode => exact (keeps_open path mode).map _
  | readAt number offset bufLen => exact (keeps_readAt number offset bufLen).map _
  | writeAt number offset data => exact (keeps_writeAt number offset data).map _
  | truncate number len => exact (keeps_truncate number len).map _
  | close number => exact (keeps_close number).map _
  | abort number => exact (keeps_close number).map _

end Calls

/-- Every buffer of the world is possible. -/
def World.IsAllocated (world : World) : Prop :=
  ∀ arc, world.Holds arc → arc.bytes.length ≤ isizeMax

theorem World.IsAllocated.filesystem {world : World} {vfs : InMemoryVfs}
    (allocated : world.IsAllocated) (member : vfs ∈ world.filesystems) : vfs.state.IsAllocated := by
  intro inode file found
  exact allocated file.data (.inl ⟨vfs, member, inode, file, found, rfl⟩)

theorem World.IsAllocated.step {world next : World} {action : Action} {reply : VfsResult Reply}
    (sound : world.Sound) (allocated : world.IsAllocated)
    (transition : Transition world action reply next) : next.IsAllocated := by
  intro arc held
  cases transition with
  | idle => exact allocated arc held
  | called named ran =>
      have member := List.mem_of_getElem? named
      rcases held with ⟨holder, present, inode, file, found, rfl⟩ | held
      · rcases List.mem_or_eq_of_mem_set present with before | rfl
        · exact allocated.filesystem before inode file found
        · exact (keeps_run _).after (allocated.filesystem member) ran inode file found
      · exact allocated arc (.inr held)
  | captured named taken =>
      have invariant := sound.filesystems _ (List.mem_of_getElem? named)
      obtain ⟨captured, equal, captures, -⟩ := SnapshotState.fromState_captures invariant
      obtain rfl := Except.ok.inj (taken.symm.trans equal)
      exact allocated arc (World.holds_captured named captures held)
  | refused named error =>
      rcases held with ⟨holder, present, table⟩ | held
      · rcases List.mem_or_eq_of_mem_set present with before | rfl
        · exact allocated arc (.inl ⟨holder, before, table⟩)
        · exact allocated arc (.inl ⟨_, List.mem_of_getElem? named, table⟩)
      · exact allocated arc (.inr held)
  | restored named present fits => exact allocated arc (World.holds_restored present held)
  | branched named present fits => exact allocated arc (World.holds_branched present held)

theorem World.run_allocated {quotas : List VfsQuota} {actions : List Action}
    {replies : List (VfsResult Reply)} {world : World}
    (ran : (World.new quotas).run actions = some (replies, world)) : world.IsAllocated := by
  have start : (World.new quotas).Sound ∧ (World.new quotas).IsAllocated := by
    refine ⟨.new quotas, ?_⟩
    rintro arc (⟨vfs, member, inode, file, found, rfl⟩ | ⟨snapshot, member, -⟩)
    · obtain ⟨quota, -, rfl⟩ := List.mem_map.mp member
      cases found
    · cases member
  have both := World.run_keeps (fun world => world.Sound ∧ world.IsAllocated)
    (fun _ _ _ _ holds transition => ⟨holds.1.step transition, holds.2.step holds.1 transition⟩)
    start ran
  exact both.2

section Wanted
variable {quota : VfsQuota} {arcs : Arcs} {state : State} {file : FileNode} {newLen : Nat}

/-- Only the quota keeps a resize from an impossible length. -/
theorem resizeFile_huge (arcs : Arcs) (invariant : Invariant quota state)
    (allocated : state.IsAllocated)
    {inode : Inode} (found : state.files.get inode = some file) (huge : isizeMax < newLen) :
    (quota.Denies state file newLen ∧
      outcome (resizeFile quota arcs inode newLen) state = some (.error .ENOSPC, state)) ∨
    (¬ quota.Denies state file newLen ∧
      outcome (resizeFile quota arcs inode newLen) state = none) := by
  rcases resizeFile_cases invariant arcs found newLen with
    ⟨reached, denied⟩ | ⟨panics, -, fits, room⟩ | ⟨-, -, data, reached, -⟩
  · exact .inl ⟨denied, reached⟩
  · refine .inr ⟨?_, panics⟩
    unfold VfsQuota.Denies
    omega
  · have ends := resizeFile_ends allocated inode newLen _ _ reached
    exact absurd ends.2 (Nat.not_le_of_lt huge)

/-- A truncation through a writable handle is a resize. -/
theorem truncate_huge (arcs : Arcs) (invariant : Invariant quota state)
    (allocated : state.IsAllocated)
    {number len : Nat} (sized : len ≤ u64Max)
    (wanted : (VfsCall.truncate number len).wanted state = some (file, newLen))
    (huge : isizeMax < newLen) :
    (quota.Denies state file newLen ∧
      outcome (truncate quota arcs number len) state = some (.error .ENOSPC, state)) ∨
    (¬ quota.Denies state file newLen ∧ outcome (truncate quota arcs number len) state = none) := by
  obtain ⟨handle, opened, wanted⟩ := Option.bind_eq_some_iff.mp wanted
  obtain ⟨found, present, wanted⟩ := Option.bind_eq_some_iff.mp wanted
  split at wanted
  · next writable =>
      obtain ⟨rfl, rfl⟩ := Prod.mk.inj (Option.some.inj wanted)
      have same : outcome (truncate quota arcs number len) state =
          outcome (resizeFile quota arcs handle.inode len) state := by
        simp only [truncate, usizeTryFrom, if_pos sized, outcome_bind, outcome_get, outcome_lift,
          outcome_refuse, Option.bind_some, okOr_some, opened, writable, not_true, if_false]
      rw [same]
      exact resizeFile_huge arcs invariant allocated present huge
  · cases wanted

/-- A write through a writable handle is a resize before it copies. -/
theorem writeAt_huge (arcs : Arcs) (invariant : Invariant quota state)
    (allocated : state.IsAllocated)
    {number offset : Nat} {data : Bytes} (sized : offset ≤ u64Max)
    (wanted : (VfsCall.writeAt number offset data).wanted state = some (file, newLen))
    (huge : isizeMax < newLen) :
    (quota.Denies state file newLen ∧ ∃ error, (error = .EINVAL ∨ error = .ENOSPC) ∧
      outcome (writeAt quota arcs number offset data) state = some (.error error, state)) ∨
    (¬ quota.Denies state file newLen ∧
      outcome (writeAt quota arcs number offset data) state = none) := by
  obtain ⟨handle, opened, wanted⟩ := Option.bind_eq_some_iff.mp wanted
  obtain ⟨found, present, wanted⟩ := Option.bind_eq_some_iff.mp wanted
  dsimp only at wanted
  by_cases usable : handle.writable = true ∧ data ≠ []
  · rw [if_pos usable] at wanted
    obtain ⟨rfl, rfl⟩ := Prod.mk.inj (Option.some.inj wanted)
    by_cases ends : (if handle.append then found.data.bytes.length else offset) + data.length ≤
        u64Max
    · rcases resizeFile_huge arcs invariant allocated present huge with
        ⟨denied, reached⟩ | ⟨admitted, reached⟩
      · refine .inl ⟨denied, .ENOSPC, .inr rfl, ?_⟩
        simp only [writeAt, usizeTryFrom, if_pos sized, outcome_bind, outcome_get, outcome_lift,
          outcome_refuse, Option.bind_some, okOr_some, opened, usable.1, not_true,
          if_false, if_neg usable.2, present, checkedAdd, if_pos ends, reached]
      · refine .inr ⟨admitted, ?_⟩
        simp only [writeAt, usizeTryFrom, if_pos sized, outcome_bind, outcome_get, outcome_lift,
          outcome_refuse, Option.bind_some, okOr_some, opened, usable.1, not_true,
          if_false, if_neg usable.2, present, checkedAdd, if_pos ends, reached, Option.bind_none]
    · have bound := uint64_le_u64Max quota.maxFileSize
      refine .inl ⟨.inl (by omega), .EINVAL, .inl rfl, ?_⟩
      simp only [writeAt, usizeTryFrom, if_pos sized, outcome_bind, outcome_get, outcome_lift,
        outcome_refuse, Option.bind_some, okOr_some, okOr_none, opened, usable.1,
        not_true, if_false, if_neg usable.2, present, checkedAdd, if_neg ends]
  · rw [if_neg usable] at wanted
    cases wanted

theorem outcome_map_eq_none_iff {α β : Type} {call : MemCall α} {image : α → β} :
    outcome (image <$> call) state = none ↔ outcome call state = none := by
  rw [outcome_map, Option.map_eq_none_iff]

/-- A write or a truncation without an impossible length returns. -/
theorem returns_of_possible (invariant : Invariant quota state) {call : VfsCall}
    (resizes : call.Resizes)
    (possible : ∀ file newLen, call.wanted state = some (file, newLen) → newLen ≤ isizeMax) :
    outcome (call.run quota arcs) state ≠ none := by
  intro panicked
  have agreed := VfsCall.run_agrees arcs invariant call
  rw [panicked] at agreed
  cases call with
  | truncate number len =>
      obtain ⟨opened, huge⟩ := agreed
      obtain ⟨handle, opened⟩ := Option.ne_none_iff_exists'.mp opened
      obtain ⟨file, present⟩ := invariant.handleFile number handle opened
      have fits : len ≤ u64Max := resizes
      cases writable : handle.writable with
      | true =>
          have wanted := possible file len (by simp [VfsCall.wanted, opened, present, writable])
          omega
      | false =>
          have ran := outcome_map_eq_none_iff.mp panicked
          simp [truncate, usizeTryFrom, fits, outcome_bind, opened, writable] at ran
  | writeAt number offset data =>
      obtain ⟨handle, file, opened, present, huge⟩ := agreed
      by_cases usable : handle.writable = true ∧ data ≠ []
      · have wanted : (VfsCall.writeAt number offset data).wanted state = some (file,
            max file.data.bytes.length
              ((if handle.append then file.data.bytes.length else offset) + data.length)) := by
          simp only [VfsCall.wanted, opened, present, Option.bind_eq_bind, Option.bind_some,
            if_pos usable]
        exact absurd (possible _ _ wanted) (Nat.not_le_of_lt huge)
      · have ran := outcome_map_eq_none_iff.mp panicked
        simp only [writeAt, outcome_bind, outcome_get, outcome_lift, outcome_refuse, outcome_ite,
          outcome_pure, Option.bind_some, okOr_some, opened] at ran
        cases writable : handle.writable with
        | true =>
            have empty : data = [] := by
              by_contra some
              exact usable ⟨writable, some⟩
            simp [writable, empty] at ran
        | false => simp [writable] at ran
  | _ => exact resizes.elim

/-- A call that wants an impossible length is refused when the quota denies it, and it panics
otherwise. -/
theorem run_huge (invariant : Invariant quota state) (allocated : state.IsAllocated) {call : VfsCall}
    (resizes : call.Resizes) (wanted : call.wanted state = some (file, newLen))
    (huge : isizeMax < newLen) :
    (quota.Denies state file newLen ∧ ∃ error, call.refusal error ∧
      outcome (call.run quota arcs) state = some (.error error, state)) ∨
    (¬ quota.Denies state file newLen ∧ outcome (call.run quota arcs) state = none) := by
  cases call with
  | truncate number len =>
      rcases truncate_huge arcs invariant allocated resizes wanted huge with
        ⟨denied, reached⟩ | ⟨admitted, reached⟩
      · refine .inl ⟨denied, .ENOSPC, rfl, ?_⟩
        simp only [VfsCall.run, outcome_map, reached]
        rfl
      · exact .inr ⟨admitted, outcome_map_eq_none_iff.mpr reached⟩
  | writeAt number offset data =>
      rcases writeAt_huge arcs invariant allocated resizes wanted huge with
        ⟨denied, error, refusal, reached⟩ | ⟨admitted, reached⟩
      · refine .inl ⟨denied, error, refusal, ?_⟩
        simp only [VfsCall.run, outcome_map, reached]
        rfl
      · exact .inr ⟨admitted, outcome_map_eq_none_iff.mpr reached⟩
  | _ => exact resizes.elim

end Wanted

/-- In every filesystem of every run, a write or a truncation allocates only what is possible
exactly when the quota denies every impossible length that it wants. -/
theorem allocates_possible_iff (quotas : List VfsQuota) (actions : List Action)
    (replies : List (VfsResult Reply)) (world : World)
    (ran : (World.new quotas).run actions = some (replies, world)) (vfs : InMemoryVfs)
    (member : vfs ∈ world.filesystems) (call : VfsCall) (resizes : call.Resizes) :
    AllocatesPossible vfs.quota world.arcs vfs.state call ↔
      ∀ file newLen, call.wanted vfs.state = some (file, newLen) → isizeMax < newLen →
        vfs.quota.Denies vfs.state file newLen := by
  have invariant := (World.run_sound ran).filesystems vfs member
  have allocated := (World.run_allocated ran).filesystem member
  constructor
  · intro possible file newLen wanted huge
    rcases run_huge invariant allocated resizes wanted huge with ⟨denied, -⟩ | ⟨-, panics⟩
    · exact denied
    · exact absurd panics possible.returns
  · intro denies
    have refuses : ∀ file newLen, call.wanted vfs.state = some (file, newLen) →
        isizeMax < newLen → ∃ error, call.refusal error ∧
          outcome (call.run vfs.quota world.arcs) vfs.state = some (.error error, vfs.state) := by
      intro file newLen wanted huge
      rcases run_huge invariant allocated resizes wanted huge with ⟨-, refused⟩ | ⟨admitted, -⟩
      · exact refused
      · exact absurd (denies file newLen wanted huge) admitted
    refine ⟨?_, refuses⟩
    by_cases possible : ∀ file newLen, call.wanted vfs.state = some (file, newLen) →
        newLen ≤ isizeMax
    · exact returns_of_possible invariant resizes possible
    · push Not at possible
      obtain ⟨file, newLen, wanted, huge⟩ := possible
      obtain ⟨error, -, refused⟩ := refuses file newLen wanted huge
      rw [refused]
      nofun

/-- This is the filesystem after the first open of a new file for writing. -/
def oneFile (quota : VfsQuota) : InMemoryVfs where
  quota := quota
  state := {
    root := .directory [(['f'], .file 1)]
    files := OrderedMap.insert ∅ 1 { data := { addr := 0, bytes := [] }, links := 1, openHandles := 1 }
    nextInode := 2
    nextHandle := 2
    handles := OrderedMap.insert ∅ 1
      { inode := 1, readable := false, writable := true, append := false }
    usedBytes := 0
    fileCount := 1 }

theorem allocates_possible_iff_tiny :
    ∃ replies world vfs,
      (World.new [tinyQuota]).run [.call 0 (.open "/f".toList { write := true, create := true })] =
        some (replies, world) ∧ vfs ∈ world.filesystems ∧
      AllocatesPossible vfs.quota world.arcs vfs.state (.truncate 1 u64Max) := by
  have ran : (World.new [tinyQuota]).run
      [.call 0 (.open "/f".toList { write := true, create := true })] = some ([.ok (.handle 1)],
        { filesystems := [oneFile tinyQuota], snapshots := [], nextAddr := 2 }) := rfl
  have denies : ∀ file newLen, (VfsCall.truncate 1 u64Max).wanted (oneFile tinyQuota).state =
      some (file, newLen) → isizeMax < newLen → tinyQuota.Denies (oneFile tinyQuota).state file
        newLen := by
    intro file newLen _ huge
    have small : tinyQuota.maxFileSize.toNat = 4 := rfl
    unfold isizeMax at huge
    exact .inl (by omega)
  have sized : (VfsCall.truncate 1 u64Max).Resizes := Nat.le_refl _
  exact ⟨_, _, _, ran, List.mem_singleton_self _, (allocates_possible_iff [tinyQuota] _ _ _ ran
    (oneFile tinyQuota) (List.mem_singleton_self _) _ sized).mpr denies⟩

theorem allocates_possible_unlimited :
    ∃ replies world vfs,
      (World.new [.unlimited]).run [.call 0 (.open "/f".toList { write := true, create := true })] =
        some (replies, world) ∧ vfs ∈ world.filesystems ∧
      outcome ((VfsCall.truncate 1 u64Max).run vfs.quota world.arcs) vfs.state = none ∧
      ¬ AllocatesPossible vfs.quota world.arcs vfs.state (.truncate 1 u64Max) := by
  have ran : (World.new [.unlimited]).run
      [.call 0 (.open "/f".toList { write := true, create := true })] = some ([.ok (.handle 1)],
        { filesystems := [oneFile .unlimited], snapshots := [], nextAddr := 2 }) := rfl
  have panics : outcome ((VfsCall.truncate 1 u64Max).run VfsQuota.unlimited
      (World.arcs { filesystems := [oneFile .unlimited], snapshots := [], nextAddr := 2 }))
      (oneFile .unlimited).state = none := rfl
  exact ⟨_, _, _, ran, List.mem_singleton_self _, panics, fun possible => possible.returns panics⟩

end TinySandbox.Mem
