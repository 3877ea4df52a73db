/-
This file shows that every path of an in-memory filesystem has valid names, after every run.
-/

import TinySandbox.Proof.Mem.FlatHandles
import TinySandbox.Proof.Mem.Worlds

namespace TinySandbox.FlatFs
open Library Library.Call Mem

variable {quota : VfsQuota} {fs next : FlatFs}

/-- The names of every path can stand between two slashes. -/
def Named (fs : FlatFs) : Prop :=
  ∀ path, fs.entries path ≠ none → ∀ name ∈ path, ValidName name

theorem Named.of_same (named : fs.Named) (same : next.entries = fs.entries) : next.Named := by
  unfold Named
  rw [same]
  exact named

theorem Named.update (named : fs.Named) {path : Path} {entry : Entry Nat}
    (valid : ∀ name ∈ path, ValidName name)
    (same : next.entries = Function.update fs.entries path (some entry)) : next.Named := by
  intro other present
  rw [same, Function.update_apply] at present
  split at present
  · next here =>
      rw [here]
      exact valid
  · exact named other present

theorem Named.forget (named : fs.Named) (path : Path) : (fs.forget path).Named := by
  intro other present
  unfold FlatFs.forget at present
  dsimp only at present
  rw [Function.update_apply] at present
  split at present
  · exact absurd rfl present
  · exact named other present

/-- The paths below the target of a move were below its source. -/
theorem Named.move (named : fs.Named) (source : Path) {target : Path}
    (valid : ∀ name ∈ target, ValidName name) : (fs.move source target).Named := by
  intro other present
  unfold FlatFs.move at present
  dsimp only at present
  split at present
  · next inside =>
      obtain ⟨rest, rfl⟩ := inside
      rw [List.drop_left] at present
      intro name member
      rcases List.mem_append.mp member with above | below
      · exact valid name above
      · exact named _ present name (List.mem_append_right _ below)
  · split at present
    · exact absurd rfl present
    · exact named other present

theorem store_entries {id : Nat} {bytes : Bytes} (stored : fs.store quota id bytes = .ok next) :
    next.entries = fs.entries := by
  unfold store at stored
  dsimp only at stored
  split_ifs at stored
  rw [← Except.ok.inj stored]

theorem mkdir_named (named : fs.Named) {path : Text} {value : Unit}
    (done : fs.mkdir quota path = .ok (value, next)) : next.Named := by
  unfold mkdir at done
  obtain ⟨path, resolved, done⟩ := bind_eq_ok_iff.mp done
  obtain ⟨-, done⟩ := ite_error_eq_ok_iff.mp done
  obtain ⟨_, -, done⟩ := bind_eq_ok_iff.mp done
  obtain ⟨_, -, done⟩ := bind_eq_ok_iff.mp done
  obtain ⟨_, -, done⟩ := bind_eq_ok_iff.mp done
  obtain ⟨-, rfl⟩ := Prod.mk.inj (Except.ok.inj done)
  exact named.update (normalizePath_normal resolved).valid rfl

theorem rename_named (named : fs.Named) {source target : Text} {value : Unit}
    (done : fs.rename source target = .ok (value, next)) : next.Named := by
  unfold rename at done
  obtain ⟨source, -, done⟩ := bind_eq_ok_iff.mp done
  obtain ⟨target, resolved, done⟩ := bind_eq_ok_iff.mp done
  obtain ⟨-, done⟩ := ite_error_eq_ok_iff.mp done
  obtain ⟨entry, -, done⟩ := bind_eq_ok_iff.mp done
  split at done
  · obtain ⟨-, rfl⟩ := Prod.mk.inj (Except.ok.inj done)
    exact named
  · obtain ⟨-, done⟩ := ite_error_eq_ok_iff.mp done
    obtain ⟨_, -, done⟩ := bind_eq_ok_iff.mp done
    obtain ⟨_, -, done⟩ := bind_eq_ok_iff.mp done
    obtain ⟨-, done⟩ := ite_error_eq_ok_iff.mp done
    obtain ⟨-, rfl⟩ := Prod.mk.inj (Except.ok.inj done)
    exact (named.move source (normalizePath_normal resolved).valid).of_same rfl

theorem unlink_named (named : fs.Named) {path : Text} {value : Unit}
    (done : fs.unlink path = .ok (value, next)) : next.Named := by
  unfold unlink at done
  obtain ⟨path, -, done⟩ := bind_eq_ok_iff.mp done
  obtain ⟨-, done⟩ := ite_error_eq_ok_iff.mp done
  obtain ⟨entry, -, done⟩ := bind_eq_ok_iff.mp done
  cases entry with
  | directory => cases done
  | file id =>
      obtain ⟨-, rfl⟩ := Prod.mk.inj (Except.ok.inj done)
      exact (named.forget path).of_same rfl

theorem rmdir_named (named : fs.Named) {path : Text} {value : Unit}
    (done : fs.rmdir path = .ok (value, next)) : next.Named := by
  unfold rmdir at done
  obtain ⟨path, -, done⟩ := bind_eq_ok_iff.mp done
  obtain ⟨-, done⟩ := ite_error_eq_ok_iff.mp done
  obtain ⟨entry, -, done⟩ := bind_eq_ok_iff.mp done
  cases entry with
  | file id => cases done
  | directory =>
      obtain ⟨-, done⟩ := ite_eq_ok_iff_of_error.mp done
      obtain ⟨-, rfl⟩ := Prod.mk.inj (Except.ok.inj done)
      exact named.forget path

theorem openId_named (named : fs.Named) {path : Path} (valid : ∀ name ∈ path, ValidName name)
    {mode : OpenMode} {id : Nat} (opened : fs.openId quota path mode = .ok (id, next)) :
    next.Named := by
  unfold openId at opened
  split at opened
  · cases opened
  · split_ifs at opened
    · obtain ⟨stored, kept, same⟩ := map_eq_ok_iff.mp opened
      obtain ⟨-, rfl⟩ := Prod.mk.inj same
      exact named.of_same (store_entries kept)
    · obtain ⟨-, rfl⟩ := Prod.mk.inj (Except.ok.inj opened)
      exact named
  · split_ifs at opened
    unfold create at opened
    obtain ⟨_, -, opened⟩ := bind_eq_ok_iff.mp opened
    obtain ⟨_, -, opened⟩ := bind_eq_ok_iff.mp opened
    obtain ⟨-, rfl⟩ := Prod.mk.inj (Except.ok.inj opened)
    exact named.update valid rfl

theorem open_named (named : fs.Named) {path : Text} {mode : OpenMode} {number : Nat}
    (done : fs.open quota path mode = .ok (number, next)) : next.Named := by
  unfold «open» at done
  obtain ⟨_, -, done⟩ := bind_eq_ok_iff.mp done
  obtain ⟨path, resolved, done⟩ := bind_eq_ok_iff.mp done
  obtain ⟨opened, found, done⟩ := bind_eq_ok_iff.mp done
  obtain ⟨-, rfl⟩ := Prod.mk.inj (Except.ok.inj done)
  have valid := (normalizePath_normal resolved).valid
  exact (openId_named named valid found).of_same rfl

theorem writeAt_entries {number offset value : Nat} {data : Bytes}
    (done : fs.writeAt quota number offset data = .ok (value, next)) :
    next.entries = fs.entries := by
  unfold writeAt at done
  obtain ⟨handle, -, done⟩ := bind_eq_ok_iff.mp done
  obtain ⟨-, done⟩ := ite_error_eq_ok_iff.mp done
  split at done
  · obtain ⟨-, rfl⟩ := Prod.mk.inj (Except.ok.inj done)
    rfl
  · obtain ⟨offset, -, done⟩ := bind_eq_ok_iff.mp done
    obtain ⟨_, -, done⟩ := bind_eq_ok_iff.mp done
    obtain ⟨stored, kept, done⟩ := bind_eq_ok_iff.mp done
    obtain ⟨-, rfl⟩ := Prod.mk.inj (Except.ok.inj done)
    exact store_entries kept

theorem truncate_entries {number len : Nat} {value : Unit}
    (done : fs.truncate quota number len = .ok (value, next)) : next.entries = fs.entries := by
  unfold truncate at done
  obtain ⟨len, -, done⟩ := bind_eq_ok_iff.mp done
  obtain ⟨handle, -, done⟩ := bind_eq_ok_iff.mp done
  obtain ⟨-, done⟩ := ite_error_eq_ok_iff.mp done
  obtain ⟨stored, kept, done⟩ := bind_eq_ok_iff.mp done
  obtain ⟨-, rfl⟩ := Prod.mk.inj (Except.ok.inj done)
  exact store_entries kept

theorem close_entries {number : Nat} {value : Unit}
    (done : fs.close number = .ok (value, next)) : next.entries = fs.entries := by
  unfold close at done
  obtain ⟨handle, -, done⟩ := bind_eq_ok_iff.mp done
  obtain ⟨-, rfl⟩ := Prod.mk.inj (Except.ok.inj done)
  rfl

/-- Every call keeps the names of the paths valid. -/
theorem call_named (named : fs.Named) (call : VfsCall) : (fs.call quota call).2.Named := by
  unfold FlatFs.call
  cases done : fs.attempt quota call with
  | error error => exact named
  | ok reached =>
      cases call
      all_goals
        obtain ⟨⟨value, next⟩, found, rfl⟩ := map_eq_ok_iff.mp done
      case stat path =>
        obtain rfl := stat_unchanged found
        exact named
      case readdir path =>
        obtain rfl := readdir_unchanged found
        exact named
      case mkdir path => exact mkdir_named named found
      case rename source target => exact rename_named named found
      case unlink path => exact unlink_named named found
      case rmdir path => exact rmdir_named named found
      case «open» path mode => exact open_named named found
      case readAt number offset bufLen =>
        obtain rfl := readAt_unchanged found
        exact named
      case writeAt number offset data => exact named.of_same (writeAt_entries found)
      case truncate number len => exact named.of_same (truncate_entries found)
      case close number => exact named.of_same (close_entries found)
      case abort number => exact named.of_same (close_entries found)

end TinySandbox.FlatFs

namespace TinySandbox.Mem
open Library Library.Call DirectoryTree

/-- A tree whose paths have valid names. -/
def NamedTree (root : Node) : Prop :=
  ∀ path, root.view path ≠ none → ∀ name ∈ path, ValidName name

/-- Every tree of the world, stored or captured, has valid names. -/
structure World.Named (world : World) : Prop where
  filesystems : ∀ vfs ∈ world.filesystems, NamedTree vfs.state.root
  snapshots : ∀ snapshot ∈ world.snapshots, NamedTree snapshot.root

variable {world next : World} {action : Action} {reply : VfsResult Reply}

theorem World.Named.put (named : world.Named) {index : Nat} {vfs : InMemoryVfs} {state : State}
    (tree : NamedTree state.root) : (world.put index vfs state).Named where
  filesystems := by
    intro other member
    rcases List.mem_or_eq_of_mem_set member with before | rfl
    · exact named.filesystems other before
    · exact tree
  snapshots := named.snapshots

theorem World.Named.step (named : world.Named) (sound : world.Sound)
    (transition : Transition world action reply next) : next.Named := by
  cases transition with
  | idle => exact named
  | @called index vfs call reply after present ran =>
      have member := List.mem_of_getElem? present
      have invariant := sound.filesystems vfs member
      have flat : vfs.state.flat.Named := named.filesystems vfs member
      apply named.put
      have kept := @FlatFs.call_named vfs.quota _ flat call
      rw [(VfsCall.run_call invariant ran).1] at kept
      exact kept
  | @captured index vfs snapshot present taken =>
      constructor
      case filesystems => exact named.filesystems
      case snapshots =>
          intro other member
          rcases List.mem_append.mp member with old | new
          · exact named.snapshots other old
          · rw [List.mem_singleton.mp new]
            obtain ⟨collected, -, same⟩ := bind_eq_ok_iff.mp taken
            rw [← Except.ok.inj same]
            exact named.filesystems vfs (List.mem_of_getElem? present)
  | refused present error =>
      exact named.put (named.filesystems _ (List.mem_of_getElem? present))
  | restored present found fits =>
      exact named.put (named.snapshots _ (List.mem_of_getElem? found))
  | branched present found fits =>
      constructor
      case filesystems =>
          intro other member
          rcases List.mem_append.mp member with old | new
          · exact named.filesystems other old
          · rw [List.mem_singleton.mp new]
            exact named.snapshots _ (List.mem_of_getElem? found)
      case snapshots => exact named.snapshots

theorem World.Named.new (quotas : List VfsQuota) : (World.new quotas).Named where
  filesystems := by
    intro vfs member
    obtain ⟨quota, -, rfl⟩ := List.mem_map.mp member
    intro path present name inside
    cases path with
    | nil => cases inside
    | cons first rest => exact absurd rfl present
  snapshots := by
    intro snapshot member
    cases member

/-- After every run the paths of each filesystem have valid names. -/
theorem World.run_named {quotas : List VfsQuota} {actions : List Action}
    {replies : List (VfsResult Reply)} (ran : (World.new quotas).run actions = some (replies, world)) :
    world.Named :=
  (run_keeps (fun world => world.Sound ∧ world.Named)
    (fun _ _ _ _ kept transition => ⟨kept.1.step transition, kept.2.step kept.1 transition⟩)
    ⟨.new quotas, .new quotas⟩ ran).2

end TinySandbox.Mem
