/-
This file says what each call of the flat filesystem does to the handles.
-/

import TinySandbox.Specification.FlatFs

namespace TinySandbox.FlatFs
open Library Library.Call Mem

variable {quota : VfsQuota} {fs next : FlatFs}

/-- The handle table and its counter stay as they were. -/
def SameHandles (fs next : FlatFs) : Prop :=
  next.handles = fs.handles ∧ next.nextHandle = fs.nextHandle

/-- The handles stay, and each keeps the bytes of the identity it opened. -/
structure KeepsOpen (fs next : FlatFs) : Prop where
  handles : SameHandles fs next
  contents : ∀ number handle, fs.handles number = some handle →
    next.contents handle.inode = fs.contents handle.inode

theorem KeepsOpen.refl (fs : FlatFs) : KeepsOpen fs fs := ⟨⟨rfl, rfl⟩, fun _ _ _ => rfl⟩

/-- A collection never takes the bytes of an open handle. -/
theorem keepsOpen_collect {middle : FlatFs} (handles : SameHandles fs middle)
    (contents : middle.contents = fs.contents) : KeepsOpen fs middle.collect := by
  refine ⟨handles, fun number handle opened => ?_⟩
  rw [← contents]
  unfold collect
  exact if_pos (.inr ⟨number, handle, by rw [handles.1, opened], rfl⟩)

theorem store_sameHandles {id : Nat} {bytes : Bytes} (stored : fs.store quota id bytes = .ok next) :
    SameHandles fs next := by
  unfold store at stored
  simp only at stored
  split_ifs at stored
  obtain rfl := Except.ok.inj stored
  exact ⟨rfl, rfl⟩

theorem openId_sameHandles {path : Path} {mode : OpenMode} {id : Nat}
    (opened : fs.openId quota path mode = .ok (id, next)) : SameHandles fs next := by
  unfold openId at opened
  split at opened
  · cases opened
  · split_ifs at opened
    · obtain ⟨stored, kept, same⟩ := map_eq_ok_iff.mp opened
      obtain ⟨-, rfl⟩ := Prod.mk.inj same
      exact store_sameHandles kept
    · obtain ⟨-, rfl⟩ := Prod.mk.inj (Except.ok.inj opened)
      exact ⟨rfl, rfl⟩
  · split_ifs at opened
    unfold create at opened
    obtain ⟨_, -, opened⟩ := bind_eq_ok_iff.mp opened
    obtain ⟨_, -, opened⟩ := bind_eq_ok_iff.mp opened
    obtain ⟨-, rfl⟩ := Prod.mk.inj (Except.ok.inj opened)
    exact ⟨rfl, rfl⟩

theorem mkdir_keepsOpen {path : Text} {value : Unit}
    (done : fs.mkdir quota path = .ok (value, next)) : KeepsOpen fs next := by
  unfold mkdir at done
  obtain ⟨path, -, done⟩ := bind_eq_ok_iff.mp done
  obtain ⟨-, done⟩ := ite_error_eq_ok_iff.mp done
  obtain ⟨_, -, done⟩ := bind_eq_ok_iff.mp done
  obtain ⟨_, -, done⟩ := bind_eq_ok_iff.mp done
  obtain ⟨_, -, done⟩ := bind_eq_ok_iff.mp done
  obtain ⟨-, rfl⟩ := Prod.mk.inj (Except.ok.inj done)
  exact ⟨⟨rfl, rfl⟩, fun _ _ _ => rfl⟩

theorem rename_keepsOpen {source target : Text} {value : Unit}
    (done : fs.rename source target = .ok (value, next)) : KeepsOpen fs next := by
  unfold rename at done
  obtain ⟨source, -, done⟩ := bind_eq_ok_iff.mp done
  obtain ⟨target, -, done⟩ := bind_eq_ok_iff.mp done
  obtain ⟨-, done⟩ := ite_error_eq_ok_iff.mp done
  obtain ⟨entry, -, done⟩ := bind_eq_ok_iff.mp done
  split at done
  · obtain ⟨-, rfl⟩ := Prod.mk.inj (Except.ok.inj done)
    exact .refl fs
  · obtain ⟨-, done⟩ := ite_error_eq_ok_iff.mp done
    obtain ⟨_, -, done⟩ := bind_eq_ok_iff.mp done
    obtain ⟨_, -, done⟩ := bind_eq_ok_iff.mp done
    obtain ⟨-, done⟩ := ite_error_eq_ok_iff.mp done
    obtain ⟨-, rfl⟩ := Prod.mk.inj (Except.ok.inj done)
    exact keepsOpen_collect ⟨rfl, rfl⟩ rfl

theorem unlink_keepsOpen {path : Text} {value : Unit}
    (done : fs.unlink path = .ok (value, next)) : KeepsOpen fs next := by
  unfold unlink at done
  obtain ⟨path, -, done⟩ := bind_eq_ok_iff.mp done
  obtain ⟨-, done⟩ := ite_error_eq_ok_iff.mp done
  obtain ⟨entry, -, done⟩ := bind_eq_ok_iff.mp done
  cases entry with
  | directory => cases done
  | file id =>
      obtain ⟨-, rfl⟩ := Prod.mk.inj (Except.ok.inj done)
      exact keepsOpen_collect ⟨rfl, rfl⟩ rfl

theorem rmdir_keepsOpen {path : Text} {value : Unit}
    (done : fs.rmdir path = .ok (value, next)) : KeepsOpen fs next := by
  unfold rmdir at done
  obtain ⟨path, -, done⟩ := bind_eq_ok_iff.mp done
  obtain ⟨-, done⟩ := ite_error_eq_ok_iff.mp done
  obtain ⟨entry, -, done⟩ := bind_eq_ok_iff.mp done
  cases entry with
  | file id => cases done
  | directory =>
      obtain ⟨-, done⟩ := ite_eq_ok_iff_of_error.mp done
      obtain ⟨-, rfl⟩ := Prod.mk.inj (Except.ok.inj done)
      exact ⟨⟨rfl, rfl⟩, fun _ _ _ => rfl⟩

theorem stat_unchanged {path : Text} {value : Metadata}
    (done : fs.stat path = .ok (value, next)) : next = fs := by
  unfold stat at done
  obtain ⟨path, -, done⟩ := bind_eq_ok_iff.mp done
  obtain ⟨entry, -, done⟩ := bind_eq_ok_iff.mp done
  exact (Prod.mk.inj (Except.ok.inj done)).2.symm

theorem readdir_unchanged {path : Text} {value : List DirEntry}
    (done : fs.readdir path = .ok (value, next)) : next = fs := by
  unfold readdir at done
  obtain ⟨path, -, done⟩ := bind_eq_ok_iff.mp done
  obtain ⟨entry, -, done⟩ := bind_eq_ok_iff.mp done
  cases entry with
  | file id => cases done
  | directory => exact (Prod.mk.inj (Except.ok.inj done)).2.symm

theorem readAt_unchanged {number offset bufLen : Nat} {value : Bytes}
    (done : fs.readAt number offset bufLen = .ok (value, next)) : next = fs := by
  unfold readAt at done
  obtain ⟨offset, -, done⟩ := bind_eq_ok_iff.mp done
  obtain ⟨handle, -, done⟩ := bind_eq_ok_iff.mp done
  obtain ⟨-, done⟩ := ite_error_eq_ok_iff.mp done
  exact (Prod.mk.inj (Except.ok.inj done)).2.symm

theorem writeAt_sameHandles {number offset value : Nat} {data : Bytes}
    (done : fs.writeAt quota number offset data = .ok (value, next)) : SameHandles fs next := by
  unfold writeAt at done
  obtain ⟨handle, -, done⟩ := bind_eq_ok_iff.mp done
  obtain ⟨-, done⟩ := ite_error_eq_ok_iff.mp done
  split at done
  · obtain ⟨-, rfl⟩ := Prod.mk.inj (Except.ok.inj done)
    exact ⟨rfl, rfl⟩
  · obtain ⟨offset, -, done⟩ := bind_eq_ok_iff.mp done
    obtain ⟨_, -, done⟩ := bind_eq_ok_iff.mp done
    obtain ⟨stored, kept, done⟩ := bind_eq_ok_iff.mp done
    obtain ⟨-, rfl⟩ := Prod.mk.inj (Except.ok.inj done)
    exact store_sameHandles kept

theorem truncate_sameHandles {number len : Nat} {value : Unit}
    (done : fs.truncate quota number len = .ok (value, next)) : SameHandles fs next := by
  unfold truncate at done
  obtain ⟨len, -, done⟩ := bind_eq_ok_iff.mp done
  obtain ⟨handle, -, done⟩ := bind_eq_ok_iff.mp done
  obtain ⟨-, done⟩ := ite_error_eq_ok_iff.mp done
  obtain ⟨stored, kept, done⟩ := bind_eq_ok_iff.mp done
  obtain ⟨-, rfl⟩ := Prod.mk.inj (Except.ok.inj done)
  exact store_sameHandles kept

theorem open_mints {path : Text} {mode : OpenMode} {number : Nat}
    (done : fs.open quota path mode = .ok (number, next)) :
    number = fs.nextHandle ∧ next.nextHandle = fs.nextHandle + 1 ∧
      ∃ handle, next.handles = Function.update fs.handles fs.nextHandle (some handle) := by
  unfold «open» at done
  obtain ⟨_, -, done⟩ := bind_eq_ok_iff.mp done
  obtain ⟨path, -, done⟩ := bind_eq_ok_iff.mp done
  obtain ⟨opened, found, done⟩ := bind_eq_ok_iff.mp done
  obtain ⟨handles, counter⟩ := openId_sameHandles found
  obtain ⟨rfl, rfl⟩ := Prod.mk.inj (Except.ok.inj done)
  refine ⟨counter, congrArg (· + 1) counter,
    ⟨opened.1, mode.read, mode.write, mode.append⟩, ?_⟩
  simp only [handles, counter]

theorem close_handles {number : Nat} {value : Unit}
    (done : fs.close number = .ok (value, next)) :
    next.handles = Function.update fs.handles number none ∧ next.nextHandle = fs.nextHandle := by
  unfold close at done
  obtain ⟨handle, -, done⟩ := bind_eq_ok_iff.mp done
  obtain ⟨-, rfl⟩ := Prod.mk.inj (Except.ok.inj done)
  exact ⟨rfl, rfl⟩

/-- A successful call keeps the handles, mints the next one, or closes one. -/
theorem attempt_handles {call : VfsCall} {reply : Reply}
    (done : fs.attempt quota call = .ok (reply, next)) :
    (SameHandles fs next ∧ ∀ number, reply ≠ .handle number) ∨
      (reply = .handle fs.nextHandle ∧ next.nextHandle = fs.nextHandle + 1 ∧
        ∃ handle, next.handles = Function.update fs.handles fs.nextHandle (some handle)) ∨
      ∃ number, (call = .close number ∨ call = .abort number) ∧ reply = .unit ∧
        next.handles = Function.update fs.handles number none ∧
        next.nextHandle = fs.nextHandle := by
  cases call <;> obtain ⟨⟨value, reached⟩, found, same⟩ := map_eq_ok_iff.mp done <;>
    obtain ⟨rfl, rfl⟩ := Prod.mk.inj same
  case stat path =>
    obtain rfl := stat_unchanged found
    exact .inl ⟨⟨rfl, rfl⟩, by simp⟩
  case readdir path =>
    obtain rfl := readdir_unchanged found
    exact .inl ⟨⟨rfl, rfl⟩, by simp⟩
  case mkdir path => exact .inl ⟨(mkdir_keepsOpen found).handles, by simp⟩
  case rename source target => exact .inl ⟨(rename_keepsOpen found).handles, by simp⟩
  case unlink path => exact .inl ⟨(unlink_keepsOpen found).handles, by simp⟩
  case rmdir path => exact .inl ⟨(rmdir_keepsOpen found).handles, by simp⟩
  case «open» path mode =>
    obtain ⟨rfl, counter, handle⟩ := open_mints found
    exact .inr (.inl ⟨rfl, counter, handle⟩)
  case readAt number offset bufLen =>
    obtain rfl := readAt_unchanged found
    exact .inl ⟨⟨rfl, rfl⟩, by simp⟩
  case writeAt number offset data => exact .inl ⟨writeAt_sameHandles found, by simp⟩
  case truncate number len => exact .inl ⟨truncate_sameHandles found, by simp⟩
  case close number => exact .inr (.inr ⟨number, .inl rfl, rfl, close_handles found⟩)
  case abort number => exact .inr (.inr ⟨number, .inr rfl, rfl, close_handles found⟩)

/-- Every handle after a call was there before or is the next one. -/
theorem call_handles (quota : VfsQuota) (fs : FlatFs) (call : VfsCall) {number : Nat} {handle : Handle}
    (present : (fs.call quota call).2.handles number = some handle) :
    fs.handles number = some handle ∨ number = fs.nextHandle := by
  unfold FlatFs.call at present
  cases done : fs.attempt quota call with
  | error error =>
      rw [done] at present
      exact .inl present
  | ok reached =>
      rw [done] at present
      simp only at present
      rcases attempt_handles done with ⟨⟨same, -⟩, -⟩ | ⟨-, -, minted, same⟩ | ⟨closed, -, -, same, -⟩
      · rw [same] at present
        exact .inl present
      · rw [same, Function.update_apply] at present
        split at present
        · exact .inr ‹_›
        · exact .inl present
      · rw [same, Function.update_apply] at present
        split at present
        · cases present
        · exact .inl present

theorem call_nextHandle (quota : VfsQuota) (fs : FlatFs) (call : VfsCall) : fs.nextHandle ≤ (fs.call quota call).2.nextHandle := by
  unfold FlatFs.call
  cases done : fs.attempt quota call with
  | error error => exact le_rfl
  | ok reached =>
      simp only
      rcases attempt_handles done with ⟨⟨-, same⟩, -⟩ | ⟨-, grown, -⟩ | ⟨-, -, -, -, same⟩ <;> omega

/-- A minted handle is the next one, which is then used up. -/
theorem call_minted (quota : VfsQuota) (fs : FlatFs) {call : VfsCall} {number : Nat}
    (minted : (fs.call quota call).1 = .ok (.handle number)) :
    number = fs.nextHandle ∧ number < (fs.call quota call).2.nextHandle := by
  unfold FlatFs.call at minted ⊢
  cases done : fs.attempt quota call with
  | error error =>
      rw [done] at minted
      cases minted
  | ok reached =>
      rw [done] at minted
      have reply : reached.1 = .handle number := Except.ok.inj minted
      simp only
      rcases attempt_handles done with ⟨-, other⟩ | ⟨named, grown, -⟩ | ⟨-, -, closed, -⟩
      · exact absurd reply (other number)
      · obtain rfl := Reply.handle.inj (named.symm.trans reply)
        exact ⟨rfl, by omega⟩
      · rw [closed] at reply
        cases reply

/-- A call uses a handle when it names its number. -/
def UsesHandle (number : Nat) : VfsCall → Prop
  | .readAt used offset _ => used = number ∧ offset ≤ u64Max
  | .writeAt used _ _ => used = number
  | .truncate used len => used = number ∧ len ≤ u64Max
  | .close used => used = number
  | .abort used => used = number
  | _ => False

/-- A number that no handle has is refused. -/
theorem attempt_dead (quota : VfsQuota) (fs : FlatFs) {call : VfsCall} {number : Nat}
    (dead : fs.handles number = none)
    (uses : UsesHandle number call) : fs.attempt quota call = .error .EBADF := by
  have missing : fs.handle number = .error .EBADF := by simp [handle, dead]
  cases call <;> try exact absurd uses id
  case readAt used offset bufLen =>
    obtain ⟨rfl, fits⟩ := uses
    simp [attempt, readAt, usizeTryFrom, fits, missing, bind, Except.bind, Except.map]
  case writeAt used offset data =>
    obtain rfl := uses
    simp [attempt, writeAt, missing, bind, Except.bind, Except.map]
  case truncate used len =>
    obtain ⟨rfl, fits⟩ := uses
    simp [attempt, truncate, usizeTryFrom, fits, missing, bind, Except.bind, Except.map]
  case close used =>
    obtain rfl := uses
    simp [attempt, close, missing, bind, Except.bind, Except.map]
  case abort used =>
    obtain rfl := uses
    simp [attempt, close, missing, bind, Except.bind, Except.map]

end TinySandbox.FlatFs
