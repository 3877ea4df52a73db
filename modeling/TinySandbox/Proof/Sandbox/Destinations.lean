/-
This file shows which targets of `cp` and `mv` stand directly in the directory that was named.
-/

import TinySandbox.Construction.Sandbox.FileTrees
import TinySandbox.Proof.Sandbox.Removal

namespace TinySandbox.Sandbox
open Library Library.Task Mem

/-- The last name of the path is a name of its own. -/
def NamesAnEntry (path : Text) : Prop :=
  basename path ≠ ['.'] ∧ basename path ≠ ['.', '.'] ∧ basename path ≠ ['/']

theorem basename_filled (path : Text) : basename path ≠ [] := by
  unfold basename
  dsimp only
  split_ifs with empty
  · exact List.cons_ne_nil _ _
  · exact empty

theorem basename_slash {path : Text} (other : basename path ≠ ['/']) : '/' ∉ basename path := by
  unfold basename at other ⊢
  dsimp only at other ⊢
  split_ifs at other ⊢ with empty
  · exact absurd rfl other
  · have filled : (path.rdropWhile (· = '/')).splitOn '/' ≠ [] := List.splitOn_ne_nil _ _
    rw [List.getLastD_eq_getLast?, List.getLast?_eq_some_getLast filled]
    exact (mem_splitOn_part (List.getLast_mem filled)).1

theorem basename_clean_iff (path : Text) : CleanName (basename path) ↔ NamesAnEntry path := by
  unfold CleanName NamesAnEntry
  constructor
  · rintro ⟨-, dot, dots, free⟩
    refine ⟨dot, dots, ?_⟩
    intro slash
    rw [slash] at free
    exact free (List.mem_singleton_self _)
  · rintro ⟨dot, dots, slash⟩
    exact ⟨basename_filled path, dot, dots, basename_slash slash⟩

namespace Fs
variable {fs : Fs} {source dest : Text}

/-- The path stands directly in the directory. -/
def ChildOf (fs : Fs) (directory path : Text) : Prop :=
  ∃ name, fs.names path = fs.names directory ++ [name]

theorem foldl_basename (names : Path) (other : ¬ NamesAnEntry source) :
    ((basename source).splitOn '/').foldl normalizeAbsoluteStep names <+: names := by
  unfold NamesAnEntry at other
  simp only [not_and_or, not_not] at other
  rcases other with dot | dots | slash
  · rw [dot]
    exact List.prefix_refl names
  · rw [dots]
    exact List.dropLast_prefix names
  · rw [slash]
    exact List.prefix_refl names

theorem names_target (filled : dest ≠ []) :
    fs.names (joinPath dest (basename source)) =
      ((basename source).splitOn '/').foldl normalizeAbsoluteStep (fs.names dest) :=
  names_joinPath (.inl filled) _

theorem names_target_empty (fs : Fs) (source : Text) :
    fs.names (joinPath [] (basename source)) =
      ((basename source).splitOn '/').foldl normalizeAbsoluteStep [] := by
  have slashes : absoluteNames ([] ++ '/' :: basename source) =
      ((basename source).splitOn '/').foldl normalizeAbsoluteStep [] := by
    rw [absoluteNames_below]
    rfl
  exact slashes

theorem foldl_clean (names : Path) (entry : NamesAnEntry source) :
    ((basename source).splitOn '/').foldl normalizeAbsoluteStep names = names ++ [basename source] := by
  have clean := (basename_clean_iff source).mpr entry
  rw [List.splitOn_eq_singleton clean.2.2.2]
  apply foldl_normalizeAbsoluteStep_clean
  intro name member
  rwa [List.mem_singleton.mp member]

/-- A target is a child unless the source has no name of its own, or the directory is the empty
path and is not the root. -/
theorem childOf_target_iff (fs : Fs) (source dest : Text) :
    fs.ChildOf dest (joinPath dest (basename source)) ↔
      NamesAnEntry source ∧ (dest = [] → fs.names dest = []) := by
  unfold ChildOf
  by_cases entry : NamesAnEntry source
  · rw [and_iff_right entry]
    cases dest with
    | nil =>
        rw [names_target_empty, foldl_clean [] entry, forall_prop_of_true rfl]
        constructor
        · rintro ⟨name, same⟩
          exact (List.append_inj' same rfl).1.symm
        · intro root
          rw [root]
          exact ⟨_, rfl⟩
    | cons first rest =>
        rw [names_target (List.cons_ne_nil _ _), foldl_clean _ entry]
        exact iff_of_true ⟨_, rfl⟩ nofun
  · apply iff_of_false _ fun both => entry both.1
    rintro ⟨name, same⟩
    cases dest with
    | nil =>
        rw [names_target_empty] at same
        have short := (foldl_basename [] entry).length_le
        rw [same, List.length_append] at short
        cases short
    | cons first rest =>
        rw [names_target (List.cons_ne_nil _ _)] at same
        have short := (foldl_basename (fs.names (first :: rest)) entry).length_le
        rw [same, List.length_append] at short
        exact Nat.not_succ_le_self _ short

section Runs
variable {server : Type} {respond : server → (request : FsRequest) → Option (request.Response × server)}
  {before after : server} {metadata : Metadata}

/-- When the destination is a directory, the target stands directly in it exactly when the source
has a name of its own, and the directory is the root or its path is not empty. -/
theorem destinationFor_inside_iff
    (known : settle respond (fs.stat dest) before = some (.ok metadata, after))
    (directory : metadata.fileType = .directory) :
    ∃ target, settle respond (fs.destinationFor source dest) before = some (.ok target, after) ∧
      (fs.ChildOf dest target ↔ NamesAnEntry source ∧ (dest = [] → fs.names dest = [])) := by
  refine ⟨joinPath dest (basename source), ?_, childOf_target_iff fs source dest⟩
  unfold destinationFor
  rw [settle_bind_ok (settle_attempt known)]
  dsimp only
  rw [if_pos directory]
  rfl

end Runs

/-- For the source `/w/f/..` and the directory `/w/d` the target is `/w`. -/
theorem destination_escapes :
    (beside.perform (besideFs.stat "/w/d".toList)).map (fun reached =>
      reached.1.toOption.map Metadata.fileType) = some (some .directory) ∧
    (beside.perform (besideFs.destinationFor "/w/f/..".toList "/w/d".toList)).map (fun reached =>
      reached.1.toOption.map besideFs.resolve) = some (some "/w".toList) ∧
    ¬ besideFs.ChildOf "/w/d".toList "/w".toList := by
  refine ⟨by decide +kernel, by decide +kernel, ?_⟩
  rintro ⟨name, same⟩
  have long := congrArg List.length same
  rw [List.length_append] at long
  have above : (besideFs.names "/w".toList).length = 1 := by decide
  have inside : (besideFs.names "/w/d".toList).length = 2 := by decide
  rw [above, inside] at long
  cases long

theorem destinationFor_inside_beside : ∃ after target,
    settle System.respond (besideFs.destinationFor "/w/f".toList "/w/d".toList) beside =
        some (.ok target, after) ∧
      (besideFs.ChildOf "/w/d".toList target ↔ NamesAnEntry "/w/f".toList ∧
        ("/w/d".toList = [] → besideFs.names "/w/d".toList = [])) := by
  have known : (settle System.respond (besideFs.stat "/w/d".toList) beside).map (fun reached =>
      reached.1.toOption.map Metadata.fileType) = some (some .directory) := by decide +kernel
  obtain ⟨⟨result, after⟩, ran, kind⟩ := Option.map_eq_some_iff.mp known
  cases result with
  | error error => cases kind
  | ok metadata => exact ⟨after, destinationFor_inside_iff ran (Option.some.inj kind)⟩

end Fs

end TinySandbox.Sandbox
