/-
This file shows what the calls of a recursive removal do to what a filesystem shows.
-/

import TinySandbox.Proof.Mem.PathAgreement

namespace TinySandbox
open Library Library.Call DirectoryTree Mem

/-- A path shows a directory or the bytes of a file. -/
def FlatFs.shown (fs : FlatFs) (path : Path) : Option (Entry Bytes) :=
  (fs.entries path).map fun
    | .file id => .file ((fs.contents id).getD [])
    | .directory => .directory

def kindOf {α : Type} : Entry α → FileType
  | .file _ => .file
  | .directory => .directory

/-- One path with nothing below it showed something, and now it shows nothing. -/
structure Removed {α : Type} (before after : Path → Option α) (path : Path) : Prop where
  present : before path ≠ none
  single : ∀ rest, rest ≠ [] → before (path ++ rest) = none
  gone : after path = none
  others : ∀ other, other ≠ path → after other = before other

theorem FlatFs.entries_of_resolve {fs : FlatFs} {path : Path} {entry : Entry Nat}
    (resolved : fs.resolve path = .ok entry) : fs.entries path = some entry := by
  unfold FlatFs.resolve at resolved
  split at resolved
  · next found => rw [found, Except.ok.inj resolved]
  · split at resolved
    · cases resolved
    · cases resolved

theorem FlatFs.resolve_of_entries {fs : FlatFs} {path : Path} {entry : Entry Nat}
    (found : fs.entries path = some entry) : fs.resolve path = .ok entry := by
  unfold FlatFs.resolve
  rw [found]

theorem FlatFs.shown_forget (fs : FlatFs) (path other : Path) :
    (fs.forget path).shown other = if other = path then none else fs.shown other := by
  unfold FlatFs.shown FlatFs.forget
  dsimp only
  rw [Function.update_apply]
  split
  · rfl
  · rfl

/-- What no path names is collected, so that every path shows what it showed. -/
theorem FlatFs.shown_collect (fs : FlatFs) (path : Path) : fs.collect.shown path = fs.shown path := by
  unfold FlatFs.shown FlatFs.collect
  dsimp only
  cases found : fs.entries path with
  | none => rfl
  | some entry =>
      cases entry with
      | directory => rfl
      | file id =>
          have named : (∃ path, fs.entries path = some (.file id)) ∨
              ∃ number handle, fs.handles number = some handle ∧ handle.inode = id :=
            .inl ⟨path, found⟩
          simp only [Option.map_some, if_pos named]

namespace Mem

section Shown
variable {state : State}

theorem shown_eq_none_iff {path : Path} :
    state.flat.shown path = none ↔ state.root.view path = none := by
  unfold FlatFs.shown
  exact Option.map_eq_none_iff

theorem shown_of_longer {path rest : Path} (named : state.flat.shown (path ++ rest) ≠ none)
    (proper : rest ≠ []) : state.flat.shown path = some .directory := by
  have inside : state.root.view (path ++ rest) ≠ none := fun missing =>
    named (shown_eq_none_iff.mpr missing)
  unfold FlatFs.shown
  change (state.root.view path).map _ = _
  rw [view_of_longer inside proper]
  rfl

end Shown

section Calls
variable {quota : VfsQuota} {arcs : Arcs} {state : State}

/-- A call that only reads leaves the state as it was. -/
theorem outcome_stat (state : State) (path : Text) :
    ∃ result, outcome (Mem.stat path) state = some (result, state) := by
  unfold Mem.stat
  simp only [outcome_bind, outcome_lift, outcome_get, Option.bind_some]
  cases normalizePath path with
  | error error => exact ⟨_, rfl⟩
  | ok names =>
      cases found : getNode state.root names with
      | error error => exact ⟨.error error, by simp only [found]⟩
      | ok node => exact ⟨metadataForNode state node, by simp only [found]⟩

theorem outcome_readdir (state : State) (path : Text) :
    ∃ result, outcome (Mem.readdir path) state = some (result, state) := by
  unfold Mem.readdir
  simp only [outcome_bind, outcome_lift, outcome_get, Option.bind_some]
  cases normalizePath path with
  | error error => exact ⟨_, rfl⟩
  | ok names =>
      cases found : getNode state.root names with
      | error error => exact ⟨.error error, by simp only [found]⟩
      | ok node =>
          cases node with
          | file inode => exact ⟨.error .ENOTDIR, by simp only [found]; rfl⟩
          | directory entries => exact ⟨dirEntries state entries, by simp only [found]; rfl⟩

/-- The metadata of a path has the kind of what the path shows. -/
theorem stat_shows (invariant : Invariant quota state) {names : Path} (normal : NormalPath names) :
    ∃ result, outcome (Mem.stat (joinAbsolute names)) state = some (result, state) ∧
      (∀ shown, state.flat.shown names = some shown →
        ∃ metadata, result = .ok metadata ∧ metadata.fileType = kindOf shown) ∧
      (state.flat.shown names = none → ∃ error, result = .error error) := by
  obtain ⟨result, ran⟩ := outcome_stat state (joinAbsolute names)
  apply Exists.intro result
  apply And.intro ran
  have agreed : Agrees quota ⟨fun _ => 0, 0⟩ state False _ _ :=
    stat_agrees invariant (joinAbsolute names)
  rw [ran] at agreed
  unfold FlatFs.stat at agreed
  rw [normalizePath_joinAbsolute normal] at agreed
  unfold FlatFs.shown
  constructor
  · intro shown known
    obtain ⟨entry, found, rfl⟩ := Option.map_eq_some_iff.mp known
    change Agrees quota _ state False _ (Except.bind (state.flat.resolve names) _) at agreed
    rw [FlatFs.resolve_of_entries found] at agreed
    cases result with
    | error error => cases agreed.1
    | ok metadata =>
        obtain ⟨same, -⟩ := Prod.mk.inj (Except.ok.inj agreed.1)
        apply Exists.intro metadata
        apply And.intro rfl
        rw [← same]
        cases entry with
        | file id => rfl
        | directory => rfl
  · intro missing
    cases result with
    | error error => exact ⟨error, rfl⟩
    | ok metadata =>
        have walked := agreed.1
        change Except.bind (state.flat.resolve names) _ = _ at walked
        obtain ⟨entry, resolved, -⟩ := bind_eq_ok_iff.mp walked
        rw [FlatFs.entries_of_resolve resolved] at missing
        cases missing

/-- A listing has every name once, with the kind of what the name shows. -/
theorem readdir_shows (invariant : Invariant quota state) {names : Path}
    (normal : NormalPath names) :
    ∃ result, outcome (Mem.readdir (joinAbsolute names)) state = some (result, state) ∧
      ∀ entries, result = .ok entries → state.flat.shown names = some .directory ∧
        (entries.map DirEntry.name).Nodup ∧
        ∀ entry ∈ entries, ∃ shown, state.flat.shown (names ++ [entry.name]) = some shown ∧
          entry.metadata.fileType = kindOf shown := by
  obtain ⟨result, ran⟩ := outcome_readdir state (joinAbsolute names)
  apply Exists.intro result
  apply And.intro ran
  have agreed : Agrees quota ⟨fun _ => 0, 0⟩ state False _ _ :=
    readdir_agrees invariant (joinAbsolute names)
  rw [ran] at agreed
  unfold FlatFs.readdir at agreed
  rw [normalizePath_joinAbsolute normal] at agreed
  intro entries same
  subst same
  have walked := agreed.1
  change Except.bind (state.flat.resolve names) _ = _ at walked
  obtain ⟨entry, resolved, listed⟩ := bind_eq_ok_iff.mp walked
  have found := FlatFs.entries_of_resolve resolved
  cases entry with
  | file id => cases listed
  | directory =>
      obtain ⟨listed, -⟩ := Prod.mk.inj (Except.ok.inj listed)
      obtain ⟨children, tree⟩ := view_eq_directory_iff.mp found
      rw [sortedChildren_flat invariant.sortedRoot tree] at listed
      have order := invariant.sortedRoot names children tree
      refine ⟨by unfold FlatFs.shown; rw [found]; rfl, ?_, ?_⟩
      · rw [← listed, List.map_map, List.map_map]
        have strict : (children.map Prod.fst).Pairwise (· < ·) := List.pairwise_map.mpr order
        exact strict.imp ne_of_lt
      · intro entry member
        rw [← listed] at member
        obtain ⟨name, inside, rfl⟩ := List.mem_map.mp member
        obtain ⟨child, stored, rfl⟩ := List.mem_map.mp inside
        have named : state.flat.entries (names ++ [child.1]) = some child.2.entry := by
          change state.root.view _ = _
          rw [view, at?_append, tree, Option.bind_some, directory_at?_single,
            Entries.get_of_mem order stored]
          rfl
        change ∃ shown, state.flat.shown (names ++ [child.1]) = some shown ∧
          (state.flat.metadata ((state.flat.entries (names ++ [child.1])).getD .directory)).fileType =
            kindOf shown
        unfold FlatFs.shown
        rw [named]
        cases child.2.entry with
        | file id => exact ⟨_, rfl, rfl⟩
        | directory => exact ⟨_, rfl, rfl⟩

/-- A removal leaves the state alone, or it removes the path alone. -/
def Removes (quota : VfsQuota) (state : State) (names : Path)
    (reached : Option (VfsResult Unit × State)) : Prop :=
  ∃ result after, reached = some (result, after) ∧ Invariant quota after ∧
    (∀ error, result = .error error → after = state) ∧
    (result = .ok () → Removed state.flat.shown after.flat.shown names)

theorem removed_forget {names : Path} {entry : Entry Nat} {next : FlatFs}
    (present : state.flat.entries names = some entry)
    (single : ∀ rest, rest ≠ [] → state.flat.entries (names ++ rest) = none)
    (same : ∀ path, next.shown path = (state.flat.forget names).shown path) :
    Removed state.flat.shown next.shown names := by
  constructor
  case present =>
      unfold FlatFs.shown
      rw [present]
      exact nofun
  case single =>
      intro rest proper
      unfold FlatFs.shown
      rw [single rest proper]
      rfl
  case gone =>
      rw [same, FlatFs.shown_forget, if_pos rfl]
  case others =>
      intro other different
      rw [same, FlatFs.shown_forget, if_neg different]

/-- A call that agrees with a flat call removes when the flat call does. -/
theorem removes_of_agrees {call : Option (VfsResult Unit × State)} {names : Path}
    {expected : VfsResult (Unit × FlatFs)} (invariant : Invariant quota state)
    (agreed : Agrees quota ⟨fun _ => 0, 0⟩ state False call expected)
    (removed : ∀ next, expected = .ok ((), next) → Removed state.flat.shown next.shown names) :
    Removes quota state names call := by
  cases call with
  | none => exact agreed.elim
  | some reached =>
      obtain ⟨result, after⟩ := reached
      cases result with
      | error error =>
          obtain ⟨-, rfl⟩ := agreed
          exact ⟨_, after, rfl, invariant, fun _ _ => rfl, nofun⟩
      | ok _ =>
          obtain ⟨same, kept, -⟩ := agreed
          exact ⟨_, after, rfl, kept, nofun, fun _ => removed after.flat same⟩

theorem unlink_removes (invariant : Invariant quota state) {names : Path}
    (normal : NormalPath names) :
    Removes quota state names (outcome (Mem.unlink (joinAbsolute names)) state) := by
  apply removes_of_agrees invariant (unlink_agrees invariant _)
  intro next expected
  unfold FlatFs.unlink at expected
  rw [normalizePath_joinAbsolute normal] at expected
  obtain ⟨entry, resolved, ends⟩ := bind_eq_ok_iff.mp (ite_error_eq_ok_iff.mp expected).2
  have found := FlatFs.entries_of_resolve resolved
  cases entry with
  | directory => cases ends
  | file id =>
      obtain ⟨-, same⟩ := Prod.mk.inj (Except.ok.inj ends)
      apply removed_forget found
      · intro rest proper
        by_contra named
        have above : state.root.view names = some .directory := view_of_longer named proper
        change state.root.view names = _ at found
        rw [found] at above
        cases above
      · intro path
        rw [← same, FlatFs.shown_collect]

theorem rmdir_removes (invariant : Invariant quota state) {names : Path}
    (normal : NormalPath names) :
    Removes quota state names (outcome (Mem.rmdir (joinAbsolute names)) state) := by
  apply removes_of_agrees invariant (rmdir_agrees invariant _)
  intro next expected
  unfold FlatFs.rmdir at expected
  rw [normalizePath_joinAbsolute normal] at expected
  obtain ⟨entry, resolved, ends⟩ := bind_eq_ok_iff.mp (ite_error_eq_ok_iff.mp expected).2
  have found := FlatFs.entries_of_resolve resolved
  cases entry with
  | file id => cases ends
  | directory =>
      obtain ⟨empty, ends⟩ := ite_eq_ok_iff_of_error.mp ends
      obtain ⟨-, same⟩ := Prod.mk.inj (Except.ok.inj ends)
      apply removed_forget found
      · intro rest proper
        obtain ⟨name, rest, rfl⟩ := List.exists_cons_of_ne_nil proper
        have missing : state.root.view (names ++ [name]) = none := by
          by_contra named
          exact Set.eq_empty_iff_forall_notMem.mp empty name named
        by_contra named
        rw [List.append_cons] at named
        by_cases last : rest = []
        · rw [last, List.append_nil] at named
          exact named missing
        · have above : state.root.view (names ++ [name]) = some .directory :=
            view_of_longer named last
          rw [missing] at above
          cases above
      · intro path
        rw [← same]

end Calls

end Mem

end TinySandbox
