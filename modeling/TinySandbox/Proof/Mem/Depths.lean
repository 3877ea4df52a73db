/-
This file shows that no run makes a path of an in-memory filesystem too deep new be resolved.
Only a rename can push an entry down without naming it.
-/

import TinySandbox.Proof.Mem.Names
import TinySandbox.Proof.Mem.Removal
import TinySandbox.Proof.Mem.Runs

namespace TinySandbox.Mem
open Library Library.Call DirectoryTree

/-- All conditions of the rename of a directory hold, but the depth is not checked. -/
structure MovesDirectory (root : Node) (source target : Text) (old new : Path) : Prop where
  source : normalizePath source = .ok old
  target : normalizePath target = .ok new
  below : old ≠ [] ∧ new ≠ []
  directory : ∃ entries, getNode root old = .ok (.directory entries)
  outside : ¬ old <+: new
  parent : ensureParentIsDir root new = .ok ()
  replaces : checkTarget .directory (getNode root new) = .ok ()

section Renames
variable {quota : VfsQuota} {state : State} {source target : Text} {old new : Path}

open scoped Classical in
/-- The depth is the last condition of a rename. -/
theorem rename_flat (invariant : Invariant quota state)
    (moves : MovesDirectory state.root source target old new) :
    state.flat.rename source target =
      if state.flat.TooDeep old new then .error .EINVAL
      else .ok ((), (state.flat.move old new).collect) := by
  obtain ⟨entries, found⟩ := moves.directory
  have resolved : state.flat.resolve old = .ok .directory := by
    rw [resolve_flat, found]
    rfl
  have parent : state.flat.parentDirectory new = .ok () := by
    rw [parentDirectory_flat state moves.below.2]
    exact moves.parent
  have replaces : state.flat.checkTarget .directory new = .ok () :=
    (checkTarget_flat invariant.sortedRoot (.directory entries) new).trans moves.replaces
  have filled : ¬ (old = [] ∨ new = []) := not_or.mpr moves.below
  have apart : old ≠ new := by
    rintro rfl
    exact moves.outside List.prefix_rfl
  unfold FlatFs.rename
  simp only [moves.source, moves.target, bind, Except.bind, if_neg filled, resolved, if_neg apart,
    moves.outside, and_false, if_false, parent, replaces, true_and]

/-- A rename that is fine otherwise is refused exactly when an entry would land too deep. -/
theorem rename_refused_iff (invariant : Invariant quota state)
    (moves : MovesDirectory state.root source target old new) :
    outcome (rename source target) state = some (.error .EINVAL, state) ↔
      ∃ rest, state.root.view (old ++ rest) ≠ none ∧ maxPathDepth < new.length + rest.length := by
  have agreed : Agrees quota ⟨fun _ => 0, 0⟩ state False _ _ := rename_agrees invariant source target
  rw [rename_flat invariant moves] at agreed
  have deep : state.flat.TooDeep old new ↔ ∃ rest, state.root.view (old ++ rest) ≠ none ∧
      maxPathDepth < new.length + rest.length := Iff.rfl
  rw [← deep]
  constructor
  · intro refused
    rw [refused] at agreed
    by_contra fits
    rw [if_neg fits] at agreed
    cases agreed.1
  · intro tooDeep
    rw [if_pos tooDeep] at agreed
    rcases reached : outcome (rename source target) state with _ | ⟨error | value, after⟩
    · rw [reached] at agreed
      exact agreed.elim
    · rw [reached] at agreed
      obtain ⟨same, rfl⟩ := agreed
      rw [Except.error.inj same]
    · rw [reached] at agreed
      cases agreed.1

end Renames

section Listings
variable {quota : VfsQuota} {state : State}

theorem stat_of_entries (invariant : Invariant quota state) {path : Text} {names : Path}
    (resolved : normalizePath path = .ok names) {entry : Entry Nat}
    (found : state.flat.entries names = some entry) :
    outcome (stat path) state = some (.ok (state.flat.metadata entry), state) := by
  obtain ⟨result, ran⟩ := outcome_stat state path
  have agreed : Agrees quota ⟨fun _ => 0, 0⟩ state False _ _ := stat_agrees invariant path
  rw [ran] at agreed
  unfold FlatFs.stat at agreed
  rw [resolved] at agreed
  change Agrees quota _ state False _ (Except.bind (state.flat.resolve names) _) at agreed
  rw [FlatFs.resolve_of_entries found] at agreed
  cases result with
  | error error => cases agreed.1
  | ok metadata =>
      obtain ⟨same, -⟩ := Prod.mk.inj (Except.ok.inj agreed.1)
      rw [ran, same]

/-- A name that is listed can be looked up behind the path of its directory. -/
theorem stat_listed (invariant : Invariant quota state) (named : NamedTree state.root) {path : Text}
    {entries : List DirEntry}
    (listed : outcome (readdir path) state = some (.ok entries, state)) :
    ∀ entry ∈ entries,
      outcome (stat (path ++ '/' :: entry.name)) state = some (.ok entry.metadata, state) := by
  have agreed : Agrees quota ⟨fun _ => 0, 0⟩ state False _ _ := readdir_agrees invariant path
  rw [listed] at agreed
  have walked := agreed.1
  unfold FlatFs.readdir at walked
  obtain ⟨names, resolved, walked⟩ := bind_eq_ok_iff.mp walked
  obtain ⟨kind, here, walked⟩ := bind_eq_ok_iff.mp walked
  cases kind with
  | file id => cases walked
  | directory =>
      obtain ⟨same, -⟩ := Prod.mk.inj (Except.ok.inj walked)
      obtain ⟨children, tree⟩ := view_eq_directory_iff.mp (FlatFs.entries_of_resolve here)
      rw [sortedChildren_flat invariant.sortedRoot tree] at same
      intro entry member
      rw [← same] at member
      obtain ⟨name, inside, rfl⟩ := List.mem_map.mp member
      obtain ⟨child, stored, rfl⟩ := List.mem_map.mp inside
      have present := Entries.get_of_mem (invariant.sortedRoot names children tree) stored
      have shown : state.flat.entries (names ++ [child.1]) = some child.2.entry := by
        change state.root.view _ = _
        rw [view, at?_append, tree, Option.bind_some, directory_at?_single, present]
        rfl
      have known : state.root.view (names ++ [child.1]) ≠ none := by
        change state.flat.entries _ ≠ none
        rw [shown]
        exact Option.some_ne_none _
      have valid := named _ known child.1 (by simp)
      have shallow := invariant.depth _ known
      rw [List.length_append, List.length_singleton] at shallow
      have behind := normalizePath_child resolved valid shallow
      have looked := stat_of_entries invariant behind shown
      unfold FlatFs.dirEntry
      rw [shown]
      exact looked

end Listings

/-- Paths stay addressable: they are short, a listed name can be looked up, and a rename is refused
when it would move an entry too deep. -/
theorem paths_addressable (quotas : List VfsQuota) (actions : List Action)
    (replies : List (VfsResult Reply)) (world : World)
    (ran : (World.new quotas).run actions = some (replies, world)) (vfs : InMemoryVfs)
    (member : vfs ∈ world.filesystems) :
    (∀ path, vfs.state.root.view path ≠ none → path.length ≤ 256) ∧
      (∀ path entries, outcome (readdir path) vfs.state = some (.ok entries, vfs.state) →
        ∀ entry ∈ entries, outcome (stat (path ++ '/' :: entry.name)) vfs.state =
          some (.ok entry.metadata, vfs.state)) ∧
      (∀ source target old new, MovesDirectory vfs.state.root source target old new →
        (outcome (rename source target) vfs.state = some (.error .EINVAL, vfs.state) ↔
          ∃ rest, vfs.state.root.view (old ++ rest) ≠ none ∧ 256 < new.length + rest.length)) ∧
      ∀ path node allowance, vfs.state.root.at? path = some node →
        (subtreeFits node allowance = true ↔
          ∀ rest, node.view rest ≠ none → rest.length ≤ allowance) := by
  have invariant := (World.run_sound ran).filesystems vfs member
  have named := (World.run_named ran).filesystems vfs member
  refine ⟨invariant.depth, fun path entries => stat_listed invariant named, ?_, ?_⟩
  · intro source target old new moves
    exact rename_refused_iff invariant moves
  · intro path node allowance found
    exact subtreeFits_iff (invariant.sortedRoot.at? found) allowance

theorem paths_addressable_mkdir :
    ∃ replies world vfs,
      (World.new [tinyQuota]).run [.call 0 (.mkdir "/a".toList)] = some (replies, world) ∧
        vfs ∈ world.filesystems ∧
        outcome (stat "//a".toList) vfs.state =
          some (.ok { fileType := .directory, len := 0 }, vfs.state) := by
  let vfs : InMemoryVfs :=
    { quota := tinyQuota
      state := { State.default with root := .directory [(['a'], .directory [])], fileCount := 1 } }
  have ran : (World.new [tinyQuota]).run [.call 0 (.mkdir "/a".toList)] =
      some ([.ok .unit], { filesystems := [vfs], snapshots := [], nextAddr := 2 }) := by rfl
  have member : vfs ∈ [vfs] := List.mem_singleton_self vfs
  have listed : outcome (readdir ['/']) vfs.state =
      some (.ok [{ name := ['a'], metadata := { fileType := .directory, len := 0 } }], vfs.state) := by
    rfl
  refine ⟨_, _, vfs, ran, member, ?_⟩
  exact (paths_addressable _ _ _ _ ran vfs member).2.1 ['/'] _ listed _ (List.mem_singleton_self _)

end TinySandbox.Mem
