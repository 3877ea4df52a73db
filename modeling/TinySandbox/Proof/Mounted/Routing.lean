/-
This file shows that a call below a mount is the call of its backend.
The root and the mounts themselves are protected, and no backend sees a call on them.
-/

import TinySandbox.Construction.Mounted.Vfs

namespace TinySandbox.Mounted
open Library Library.Task Mem MountedVfs

variable {vfs : MountedVfs}

/-- The path leads below a mount. -/
def Below (vfs : MountedVfs) (path : Text) (mount : Name) (rest : Path) : Prop :=
  normalizePath path = .ok (mount :: rest) ∧ vfs.mounts.get mount ≠ none ∧ rest ≠ []

/-- The path is the root or an entry of the root. -/
def AtTop (path : Text) : Prop :=
  ∃ components, normalizePath path = .ok components ∧ components.length ≤ 1

/-- Each call on a path below a mount is one call of the backend on the rest of the path. -/
def RoutesExactly (vfs : MountedVfs) : Prop :=
  ∀ path mount rest, Below vfs path mount rest → ∃ inner, normalizePath inner = .ok rest ∧
    vfs.call (.stat path) = forward mount (.stat inner) ∧
    vfs.call (.readdir path) = forward mount (.readdir inner) ∧
    vfs.call (.mkdir path) = forward mount (.mkdir inner) ∧
    vfs.call (.unlink path) = forward mount (.unlink inner) ∧
    vfs.call (.rmdir path) = forward mount (.rmdir inner) ∧
    (∀ mode, vfs.call (.open path mode) =
      forward mount (.open inner mode) >>= fun opened => insertHandle mount opened) ∧
    ∀ target others, Below vfs target mount others → ∃ innerTarget,
      normalizePath innerTarget = .ok others ∧
      vfs.call (.rename path target) = forward mount (.rename inner innerTarget)

/-- Calls that would change the root or a mount fail, and so does a rename between mounts.
None of them calls a backend. -/
def ProtectsMounts (vfs : MountedVfs) : Prop :=
  (∀ path, AtTop path →
    (∃ error, vfs.call (.mkdir path) = throw error) ∧
    (∃ error, vfs.call (.unlink path) = throw error) ∧
    (∃ error, vfs.call (.rmdir path) = throw error) ∧
    (∀ mode, ∃ error, vfs.call (.open path mode) = throw error) ∧
    ∀ other, (∃ error, vfs.call (.rename path other) = throw error) ∧
      ∃ error, vfs.call (.rename other path) = throw error) ∧
  ∀ source target first second rest others, Below vfs source first rest →
    Below vfs target second others → first ≠ second →
    vfs.call (.rename source target) = throw .EXDEV

theorem mountedPath_below {path : Text} {mount : Name} {rest : Path}
    (below : Below vfs path mount rest) :
    vfs.mountedPath path = .ok (some { mount, inner := joinAbsolute rest, atMount := false }) := by
  obtain ⟨resolved, mounted, deep⟩ := below
  simp [mountedPath, resolved, mounted, deep, bind, Except.bind]

theorem normalizePath_inner {path : Text} {mount : Name} {rest : Path}
    (below : Below vfs path mount rest) : normalizePath (joinAbsolute rest) = .ok rest := by
  have normal := normalizePath_normal below.1
  apply normalizePath_joinAbsolute
  constructor
  · have depth := normal.depth
    rw [List.length_cons] at depth
    omega
  · exact fun name member => normal.valid name (List.mem_cons_of_mem _ member)

/-- A path at the top is refused, is the root, or is a mount. -/
theorem mountedPath_atTop {path : Text} (top : AtTop path) :
    (∃ error, vfs.mountedPath path = .error error) ∨ vfs.mountedPath path = .ok none ∨
      ∃ mounted, vfs.mountedPath path = .ok (some mounted) ∧ mounted.atMount = true := by
  obtain ⟨components, resolved, short⟩ := top
  rcases components with _ | ⟨name, rest⟩
  · right
    left
    simp [mountedPath, resolved, bind, Except.bind]
  · obtain rfl : rest = [] := by
      rw [List.length_cons] at short
      exact List.eq_nil_of_length_eq_zero (by omega)
    by_cases known : vfs.mounts.get name = none
    · left
      exact ⟨.ENOENT, by simp [mountedPath, resolved, known, bind, Except.bind]⟩
    · right
      right
      exact ⟨{ mount := name, inner := ['/'], atMount := true },
        by simp [mountedPath, resolved, known, bind, Except.bind], rfl⟩

theorem rename_below {source target : Text} {first second : Name} {rest others : Path}
    (left : Below vfs source first rest) (right : Below vfs target second others) :
    vfs.rename source target =
      refuse (first ≠ second) .EXDEV >>= fun _ =>
        forward first (.rename (joinAbsolute rest) (joinAbsolute others)) := by
  unfold MountedVfs.rename
  rw [mountedPath_below left, mountedPath_below right]
  rfl

theorem routesExactly (vfs : MountedVfs) : RoutesExactly vfs := by
  intro path mount rest below
  have found := mountedPath_below below
  refine ⟨joinAbsolute rest, normalizePath_inner below, ?_, ?_, ?_, ?_, ?_, ?_, ?_⟩
  · change vfs.stat path = _
    rw [MountedVfs.stat, found]
    rfl
  · change vfs.readdir path = _
    rw [MountedVfs.readdir, found]
    rfl
  · change vfs.mkdir path = _
    rw [MountedVfs.mkdir, found]
    rfl
  · change vfs.unlink path = _
    rw [MountedVfs.unlink, found]
    rfl
  · change vfs.rmdir path = _
    rw [MountedVfs.rmdir, found]
    rfl
  · intro mode
    change vfs.open path mode = _
    rw [MountedVfs.open, found]
    rfl
  · intro target others other
    refine ⟨joinAbsolute others, normalizePath_inner other, ?_⟩
    exact (rename_below below other).trans (refuse_bind_of_not (not_not.mpr rfl) _ _)

/-- A rename looks at its source first. -/
theorem rename_source_atTop {path : Text} (top : AtTop path) (target : Text) :
    ∃ error, vfs.rename path target = throw error := by
  unfold MountedVfs.rename
  rcases mountedPath_atTop top with ⟨error, failed⟩ | root | ⟨mounted, found, atMount⟩
  · exact ⟨error, by rw [failed, lift_error_bind]⟩
  · exact ⟨.EBUSY, by rw [root]; rfl⟩
  · refine ⟨.EBUSY, ?_⟩
    rw [found, lift_ok_bind, Call.okOr_some, lift_ok_bind, refuse_bind_of atMount]

theorem rename_target_atTop {path : Text} (top : AtTop path) (source : Text) :
    ∃ error, vfs.rename source path = throw error := by
  unfold MountedVfs.rename
  cases known : vfs.mountedPath source with
  | error error => exact ⟨error, lift_error_bind _ _⟩
  | ok mounted =>
      rw [lift_ok_bind]
      cases mounted with
      | none => exact ⟨.EBUSY, lift_error_bind _ _⟩
      | some mounted =>
          rw [Call.okOr_some, lift_ok_bind]
          by_cases atMount : mounted.atMount = true
          · exact ⟨.EBUSY, refuse_bind_of atMount _ _⟩
          · rw [refuse_bind_of_not atMount]
            rcases mountedPath_atTop top with ⟨error, failed⟩ | root | ⟨other, found, atTop⟩
            · exact ⟨createError error, by rw [failed]; rfl⟩
            · exact ⟨.EBUSY, by rw [root]; rfl⟩
            · refine ⟨.EBUSY, ?_⟩
              rw [found]
              change lift (.ok (some other)) >>= _ = _
              rw [lift_ok_bind, Call.okOr_some, lift_ok_bind, refuse_bind_of atTop]

theorem change_atTop {path : Text} (top : AtTop path) (mode : OpenMode) :
    (∃ error, vfs.mkdir path = throw error) ∧ (∃ error, vfs.unlink path = throw error) ∧
      (∃ error, vfs.rmdir path = throw error) ∧ ∃ error, vfs.open path mode = throw error := by
  unfold MountedVfs.mkdir MountedVfs.unlink MountedVfs.rmdir MountedVfs.open
  rcases mountedPath_atTop top with ⟨error, failed⟩ | root | ⟨mounted, found, atMount⟩
  · rw [failed]
    exact ⟨⟨createError error, rfl⟩, ⟨error, rfl⟩, ⟨error, rfl⟩, ⟨error, rfl⟩⟩
  · rw [root]
    exact ⟨⟨.EACCES, rfl⟩, ⟨.EISDIR, rfl⟩, ⟨.EBUSY, rfl⟩, ⟨.EISDIR, rfl⟩⟩
  · rw [found]
    refine ⟨⟨.EEXIST, if_pos atMount⟩, ⟨.EISDIR, if_pos atMount⟩, ⟨.EBUSY, if_pos atMount⟩,
      ⟨.EISDIR, ?_⟩⟩
    rw [lift_ok_bind, Call.okOr_some, lift_ok_bind, refuse_bind_of atMount]

theorem protectsMounts (vfs : MountedVfs) : ProtectsMounts vfs := by
  constructor
  · intro path top
    obtain ⟨created, unlinked, removed, -⟩ := change_atTop top (.readOnly : OpenMode)
    refine ⟨created, unlinked, removed, ?_, ?_⟩
    · intro mode
      exact (change_atTop top mode).2.2.2
    · intro other
      exact ⟨rename_source_atTop top other, rename_target_atTop top other⟩
  · intro source target first second rest others left right different
    exact (rename_below left right).trans (refuse_bind_of different _ _)

end TinySandbox.Mounted
