/-
This file gives what holds of every run of calls, snapshots, restores, and branches.
-/

import TinySandbox.Proof.Mem.FlatHandles
import TinySandbox.Proof.Mem.Worlds

namespace TinySandbox.Mem
open Library Library.Call DirectoryTree

variable {world next : World} {action : Action}

theorem Transition.quotas {reply : VfsResult Reply} {allowed : List VfsQuota}
    (transition : Transition world action reply next)
    (within : ∀ vfs ∈ world.filesystems, vfs.quota ∈ allowed) :
    ∀ vfs ∈ next.filesystems, vfs.quota ∈ allowed := by
  have put {index : Nat} {vfs : InMemoryVfs} {after : State}
      (named : world.filesystems[index]? = some vfs) (other : InMemoryVfs)
      (member : other ∈ (world.put index vfs after).filesystems) : other.quota ∈ allowed := by
    rcases List.mem_or_eq_of_mem_set member with before | rfl
    · exact within other before
    · exact within vfs (List.mem_of_getElem? named)
  cases transition with
  | idle => exact within
  | called named ran => exact put named
  | captured named taken => exact within
  | refused named error => exact put named
  | restored named present fits => exact put named
  | @branched index number vfs snapshot named present fits =>
      intro other member
      rcases List.mem_append.mp member with old | new
      · exact within other old
      · obtain rfl := List.mem_singleton.mp new
        exact within vfs (List.mem_of_getElem? named)

/--
After every run each filesystem meets its invariant and its quota.
A further call panics only when it exhausts an identity counter or the address space,
and a snapshot never fails, so no counter underflows or overflows.
-/
theorem run_accounts (quotas : List VfsQuota) (actions : List Action)
    (replies : List (VfsResult Reply)) (world : World)
    (ran : (World.new quotas).run actions = some (replies, world)) (vfs : InMemoryVfs)
    (member : vfs ∈ world.filesystems) :
    vfs.quota ∈ quotas ∧ Invariant vfs.quota vfs.state ∧
      (∀ (arcs : Arcs) (call : VfsCall),
        outcome (call.run vfs.quota arcs) vfs.state = none → call.Exhausts vfs.state) ∧
      ∃ snapshot, SnapshotState.fromState vfs.state = .ok snapshot := by
  have invariant := (World.run_sound ran).filesystems vfs member
  refine ⟨?_, invariant, ?_, ?_⟩
  · refine World.run_keeps (fun world => ∀ vfs ∈ world.filesystems, vfs.quota ∈ quotas)
      (fun _ _ _ _ within transition => transition.quotas within) ?_ ran vfs member
    intro other start
    obtain ⟨quota, allowed, rfl⟩ := List.mem_map.mp start
    exact allowed
  · intro arcs call panicked
    have agreed := VfsCall.run_agrees arcs invariant call
    rwa [panicked] at agreed
  · obtain ⟨snapshot, taken, -⟩ := SnapshotState.fromState_captures invariant
    exact ⟨snapshot, taken⟩

/-- A small quota for concrete runs. -/
def tinyQuota : VfsQuota where
  maxBytes := 8
  maxFiles := 2
  maxFileSize := 4

theorem run_accounts_mkdir :
    ∃ replies world vfs,
      (World.new [tinyQuota]).run [.call 0 (.mkdir "/a".toList)] = some (replies, world) ∧
        vfs ∈ world.filesystems ∧ Invariant vfs.quota vfs.state := by
  let vfs : InMemoryVfs :=
    { quota := tinyQuota
      state := { State.default with root := .directory [(['a'], .directory [])], fileCount := 1 } }
  have ran : (World.new [tinyQuota]).run [.call 0 (.mkdir "/a".toList)] =
      some ([.ok .unit], { filesystems := [vfs], snapshots := [], nextAddr := 2 }) := rfl
  exact ⟨_, _, vfs, ran, List.mem_singleton_self vfs,
    (run_accounts [tinyQuota] _ _ _ ran vfs (List.mem_singleton_self vfs)).2.1⟩

theorem put_self {index : Nat} {vfs : InMemoryVfs} (named : world.filesystems[index]? = some vfs) :
    (world.put index vfs vfs.state).filesystems = world.filesystems := by
  obtain ⟨bound, same⟩ := List.getElem?_eq_some_iff.mp named
  simp only [World.put]
  rw [← same]
  exact List.set_getElem_self bound

/-- Every action that fails leaves every filesystem and snapshot as they were. -/
theorem failed_action_unchanged (quotas : List VfsQuota) (actions : List Action)
    (replies : List (VfsResult Reply)) (world : World)
    (ran : (World.new quotas).run actions = some (replies, world)) (action : Action)
    (error : Errno) (next : World) (failed : world.step action = some (.error error, next)) :
    next.filesystems = world.filesystems ∧ next.snapshots = world.snapshots := by
  have sound := World.run_sound ran
  generalize answer : (Except.error error : VfsResult Reply) = reply at failed
  cases World.step_transition failed with
  | idle => exact ⟨rfl, rfl⟩
  | @called index vfs call _ after named stepped =>
      have agreed := VfsCall.run_agrees world.arcs
        (sound.filesystems vfs (List.mem_of_getElem? named)) call
      rw [stepped, ← answer] at agreed
      obtain ⟨-, rfl⟩ := agreed
      exact ⟨put_self named, rfl⟩
  | captured named taken => cases answer
  | refused named error => exact ⟨put_self named, rfl⟩
  | restored named present fits => cases answer
  | branched named present fits => cases answer

theorem failed_action_unchanged_rename :
    ∃ replies world next,
      (World.new [tinyQuota]).run [.call 0 (.mkdir "/a".toList)] = some (replies, world) ∧
        world.step (.call 0 (.rename "/a".toList "/a/b".toList)) = some (.error .EINVAL, next) ∧
        next.filesystems = world.filesystems := by
  let vfs : InMemoryVfs :=
    { quota := tinyQuota
      state := { State.default with root := .directory [(['a'], .directory [])], fileCount := 1 } }
  have ran : (World.new [tinyQuota]).run [.call 0 (.mkdir "/a".toList)] =
      some ([.ok .unit], { filesystems := [vfs], snapshots := [], nextAddr := 2 }) := rfl
  have failed : ({ filesystems := [vfs], snapshots := [], nextAddr := 2 } : World).step
      (.call 0 (.rename "/a".toList "/a/b".toList)) =
      some (.error .EINVAL, { filesystems := [vfs], snapshots := [], nextAddr := 4 }) := rfl
  exact ⟨_, _, _, ran, failed, (failed_action_unchanged [tinyQuota] _ _ _ ran _ _ _ failed).1⟩

end TinySandbox.Mem
