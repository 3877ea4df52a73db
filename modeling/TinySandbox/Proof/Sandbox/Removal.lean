/-
This file shows that a recursive removal stays at or below the path that it is given.
The shell and the host of the scripts follow one derivation, so that they leave the same files.
-/

import TinySandbox.Construction.Sandbox.FileTrees
import TinySandbox.Proof.Sandbox.Systems

namespace TinySandbox.Sandbox
open Library Library.Task Mem Mounted

namespace Fs

/-- Behind such a text the names of a child are read after its own names. -/
def Grounded (fs : Fs) (path : Text) : Prop := path ≠ [] ∨ fs.cwd = ['/']

/-- Every command has a path below the directory of commands. -/
def CommandsBelow (fs : Fs) : Prop :=
  ∀ command ∈ fs.binCommands.entries, binPrefix <+: fs.resolve (joinPath binDirectory command.1)

/-- The commands matter to a removal only at their directory and above it. -/
def Clear (fs : Fs) (path : Text) : Prop := fs.names path <+: [binName] → fs.CommandsBelow

section Children
variable {fs : Fs} {path : Text}

theorem absolute_joinPath (grounded : fs.Grounded path) (name : Name) :
    fs.names (joinPath path name) = absoluteNames (fs.absolute path ++ '/' :: name) := by
  unfold Fs.names joinPath
  by_cases root : path = ['/']
  · subst root
    rw [if_pos rfl]
    have slashes : absoluteNames (['/'] ++ '/' :: name) = absoluteNames ([] ++ '/' :: name) := by
      rw [absoluteNames_below, absoluteNames_below]
      rfl
    exact slashes.symm
  · rw [if_neg root]
    cases path with
    | nil =>
        have top : fs.cwd = ['/'] := grounded.resolve_left (not_not.mpr rfl)
        have here : fs.absolute [] = ['/'] := by
          unfold Fs.absolute
          rw [if_neg (by simp), if_pos top]
        have slashes : absoluteNames (['/'] ++ '/' :: name) = absoluteNames ([] ++ '/' :: name) := by
          rw [absoluteNames_below, absoluteNames_below]
          rfl
        rw [here, slashes]
        rfl
    | cons first rest =>
        congr 1
        unfold Fs.absolute
        rw [List.cons_append, List.head?_cons, List.head?_cons]
        split
        · rfl
        · split
          · rfl
          · rw [List.append_assoc]
            rfl

theorem names_joinPath (grounded : fs.Grounded path) (name : Name) :
    fs.names (joinPath path name) =
      (name.splitOn '/').foldl normalizeAbsoluteStep (fs.names path) := by
  rw [absolute_joinPath grounded, absoluteNames_below]
  rfl

theorem names_joinPath_clean (grounded : fs.Grounded path) {name : Name} (clean : CleanName name) :
    fs.names (joinPath path name) = fs.names path ++ [name] := by
  have whole : name.splitOn '/' = [name] := List.splitOn_eq_singleton clean.2.2.2
  rw [names_joinPath grounded, whole]
  apply foldl_normalizeAbsoluteStep_clean
  intro other member
  rwa [List.mem_singleton.mp member]

theorem grounded_joinPath (fs : Fs) (path : Text) (name : Name) : fs.Grounded (joinPath path name) := by
  apply Or.inl
  unfold joinPath
  split
  · exact List.cons_ne_nil _ _
  · exact List.append_ne_nil_of_right_ne_nil _ (List.cons_ne_nil _ _)

end Children

/-- The names of a listing lead below the path that is listed, each to its own place. -/
structure Listing (fs : Fs) (system : System) (path : Text) (entries : List DirEntry) : Prop where
  kinds : ∀ entry ∈ entries,
    system.kindAt (fs.names (joinPath path entry.name)) = some entry.metadata.fileType
  below : ∀ entry ∈ entries, fs.names path <+: fs.names (joinPath path entry.name)
  deeper : ∀ entry ∈ entries, entry.metadata.fileType = .file ∨
    (fs.names (joinPath path entry.name)).length = (fs.names path).length + 1
  apart : entries.Pairwise fun first second =>
    (fs.names (joinPath path second.name)).head? = some binName ∨
      ¬ fs.names (joinPath path first.name) <+: fs.names (joinPath path second.name)

/-- The entries name children of the path, each once and with its kind. -/
structure Children (system : System) (names : Path) (entries : List DirEntry) : Prop where
  once : (entries.map DirEntry.name).Nodup
  clean : ∀ entry ∈ entries, CleanName entry.name
  kinds : ∀ entry ∈ entries,
    system.kindAt (names ++ [entry.name]) = some entry.metadata.fileType

/-- The commands are listed as files that hold nothing. -/
def commandEntries (fs : Fs) : List DirEntry :=
  fs.binCommands.entries.map fun command =>
    { name := command.1, metadata := { fileType := .file, len := 0 } }

section Listings
variable {fs : Fs} {system : System} {path : Text}

theorem listing_of_children (grounded : fs.Grounded path) {entries : List DirEntry}
    (children : Children system (fs.names path) entries) : fs.Listing system path entries := by
  have named (entry : DirEntry) (member : entry ∈ entries) :
      fs.names (joinPath path entry.name) = fs.names path ++ [entry.name] :=
    names_joinPath_clean grounded (children.clean entry member)
  constructor
  case kinds =>
      intro entry member
      rw [named entry member]
      exact children.kinds entry member
  case below =>
      intro entry member
      rw [named entry member]
      exact List.prefix_append _ _
  case deeper =>
      intro entry member
      rw [named entry member, List.length_append]
      exact .inr rfl
  case apart =>
      apply (List.pairwise_map.mp children.once).imp_of_mem
      intro first second here there different
      apply Or.inr
      rw [named first here, named second there]
      intro same
      have equal := List.append_cancel_left (same.eq_of_length (by simp))
      exact different (List.cons.inj equal).1

theorem listing_commands (commands : fs.CommandsBelow) (grounded : fs.Grounded path)
    (bin : fs.names path = [binName]) :
    fs.Listing system path fs.commandEntries := by
  have inside : ∀ command ∈ fs.binCommands.entries,
      (fs.names (joinPath path command.1)).head? = some binName ∧
        fs.names (joinPath path command.1) ≠ [binName] := by
    intro command member
    have directory : fs.names binDirectory = [binName] := by
      change absoluteNames binDirectory = _
      decide
    rw [names_joinPath grounded, bin, ← directory, ← names_joinPath (.inl (by decide)), directory,
      ← binPrefix_resolve]
    exact commands command member
  constructor
  case kinds =>
      intro entry member
      obtain ⟨command, stored, rfl⟩ := List.mem_map.mp member
      obtain ⟨first, other⟩ := inside command stored
      unfold System.kindAt
      rw [if_pos first, if_neg other]
  case below =>
      intro entry member
      obtain ⟨command, stored, rfl⟩ := List.mem_map.mp member
      obtain ⟨rest, same⟩ := List.head?_eq_some_iff.mp (inside command stored).1
      rw [bin, same]
      exact ⟨rest, rfl⟩
  case deeper =>
      intro entry member
      obtain ⟨command, stored, rfl⟩ := List.mem_map.mp member
      exact .inl rfl
  case apart =>
      apply List.pairwise_of_forall_mem_list
      intro first _ second member
      obtain ⟨command, stored, rfl⟩ := List.mem_map.mp member
      exact .inl (inside command stored).1

/-- What is shown below a path has a clean name, and it is not the directory of commands. -/
theorem children_of_shown (wellFormed : system.WellFormed) {names : Path} {entries : List DirEntry}
    (once : (entries.map DirEntry.name).Nodup)
    (shows : ∀ entry ∈ entries, ∃ shown, system.view (names ++ [entry.name]) = some shown ∧
      entry.metadata.fileType = kindOf shown) : Children system names entries := by
  apply Children.mk once
  · intro entry member
    obtain ⟨shown, found, -⟩ := shows entry member
    obtain ⟨valid, -⟩ := wellFormed.valid_of_view (Option.ne_none_iff_exists'.mpr ⟨_, found⟩)
    obtain ⟨filled, dot, dots, slash, -⟩ := valid entry.name (by simp)
    exact ⟨filled, dot, dots, slash⟩
  · intro entry member
    obtain ⟨shown, found, kind⟩ := shows entry member
    have outside := (wellFormed.valid_of_view (Option.ne_none_iff_exists'.mpr ⟨_, found⟩)).2
    unfold System.kindAt
    rw [if_neg outside, found, kind]
    rfl

/-- The root lists the directory of commands among its mounts. -/
theorem children_root {mounts : List DirEntry} (children : Children system [] mounts)
    (outside : ∀ entry ∈ mounts, entry.name ≠ binName) :
    Children system []
      ((mounts ++ [binEntry]).mergeSort fun first second => first.name ≤ second.name) := by
  have sorted := List.mergeSort_perm (mounts ++ [binEntry])
    fun first second => decide (first.name ≤ second.name)
  have either (entry : DirEntry) (member : entry ∈ (mounts ++ [binEntry]).mergeSort
      fun first second => first.name ≤ second.name) : entry ∈ mounts ∨ entry = binEntry := by
    rcases List.mem_append.mp (sorted.mem_iff.mp member) with mount | bin
    · exact .inl mount
    · exact .inr (List.mem_singleton.mp bin)
  constructor
  case once =>
      apply (sorted.map DirEntry.name).nodup_iff.mpr
      rw [List.map_append]
      apply children.once.append (List.nodup_singleton _)
      intro name member last
      obtain ⟨entry, stored, rfl⟩ := List.mem_map.mp member
      exact outside entry stored (List.mem_singleton.mp last)
  case clean =>
      intro entry member
      rcases either entry member with mount | bin
      · exact children.clean entry mount
      · rw [bin]
        unfold CleanName
        decide
  case kinds =>
      intro entry member
      rcases either entry member with mount | bin
      · exact children.kinds entry mount
      · rw [bin]
        rfl

/-- A listing gives the children of a path that passes the check, or the commands. -/
theorem perform_readdir (wellFormed : system.WellFormed) :
    ∃ result, system.perform (fs.readdir path) = some (result, system) ∧
      ∀ entries, result = .ok entries → (fs.names path).length ≤ maxPathDepth ∧
        (Children system (fs.names path) entries ∨
          fs.names path = [binName] ∧ entries = fs.commandEntries) := by
  unfold Fs.readdir
  dsimp only
  rw [System.perform_checkPath_bind]
  by_cases passes : fs.PathPasses (fs.resolve path)
  · rw [if_pos passes]
    have spelled := passes
    rw [resolve_names] at spelled
    obtain ⟨normal, -⟩ := normal_of_passes (names_clean path) spelled
    have depth := normal.depth
    by_cases root : fs.resolve path = ['/']
    · have top := (resolve_eq_root path).mp root
      rw [if_pos root, top]
      rw [top] at normal
      obtain ⟨result, ran, lists⟩ := System.call_readdir wellFormed normal
      have listed : system.perform (fs.dispatchPath ['/'] (vfs (.readdir ['/']))) =
          some (result, system) := by
        rw [System.perform_dispatchPath, ← root, if_pos passes, System.perform_vfs, root]
        exact ran
      unfold Fs.readdirRoot
      cases result with
      | error error => exact ⟨_, System.perform_bind_error listed, nofun⟩
      | ok found =>
          rw [System.perform_bind_ok listed]
          refine ⟨_, rfl, ?_⟩
          intro entries same
          obtain ⟨-, once, shows⟩ := lists found rfl
          apply And.intro (Nat.zero_le _)
          rw [← Except.ok.inj same]
          apply Or.inl
          apply children_root (children_of_shown wellFormed once shows)
          intro entry member bin
          obtain ⟨shown, named, -⟩ := shows entry member
          exact (wellFormed.valid_of_view (Option.ne_none_iff_exists'.mpr ⟨_, named⟩)).2
            (congrArg some bin)
    · rw [if_neg root]
      by_cases bin : fs.resolve path = binDirectory
      · rw [if_pos bin]
        exact ⟨_, rfl, fun entries same =>
          ⟨depth, .inr ⟨(resolve_eq_binDirectory path).mp bin, (Except.ok.inj same).symm⟩⟩⟩
      · rw [if_neg bin]
        by_cases below : binPrefix <+: fs.resolve path
        · rw [if_pos below]
          exact ⟨_, rfl, nofun⟩
        · rw [if_neg below, System.perform_dispatchPath, if_pos passes, System.perform_vfs,
            resolve_names]
          obtain ⟨result, ran, lists⟩ := System.call_readdir wellFormed normal
          refine ⟨result, ran, ?_⟩
          intro entries same
          obtain ⟨-, once, shows⟩ := lists entries same
          exact ⟨depth, .inl (children_of_shown wellFormed once shows)⟩
  · rw [if_neg passes]
    exact ⟨_, rfl, nofun⟩

end Listings

/-- What is left to remove is one path of a known kind, or the rest of a listing. -/
inductive Work where
  | entry (path : Text) (kind : FileType)
  | entries (path : Text) (rest : List DirEntry)

/-- This is a removal in its own order, from a system to the result and the system it leaves. -/
inductive Walk (fs : Fs) : Work → System → VfsResult Unit → System → Prop
  | file {path system result after}
      (unlinked : system.perform (fs.unlink path) = some (result, after)) :
      Walk fs (.entry path .file) system result after
  | unlisted {path system error}
      (failed : system.perform (fs.readdir path) = some (.error error, system)) :
      Walk fs (.entry path .directory) system (.error error) system
  | stopped {path system entries error after}
      (listed : system.perform (fs.readdir path) = some (.ok entries, system))
      (children : Walk fs (.entries path entries) system (.error error) after) :
      Walk fs (.entry path .directory) system (.error error) after
  | emptied {path system entries middle result after}
      (listed : system.perform (fs.readdir path) = some (.ok entries, system))
      (children : Walk fs (.entries path entries) system (.ok ()) middle)
      (removed : middle.perform (fs.rmdir path) = some (result, after)) :
      Walk fs (.entry path .directory) system result after
  | done {path system} : Walk fs (.entries path []) system (.ok ()) system
  | failed {path entry rest system error after}
      (child : Walk fs (.entry (joinPath path entry.name) entry.metadata.fileType) system
        (.error error) after) :
      Walk fs (.entries path (entry :: rest)) system (.error error) after
  | next {path entry rest system middle result after}
      (child : Walk fs (.entry (joinPath path entry.name) entry.metadata.fileType) system
        (.ok ()) middle)
      (others : Walk fs (.entries path rest) middle result after) :
      Walk fs (.entries path (entry :: rest)) system result after

/-- The listings of the path in this system are as `Listing` says. -/
structure Lists (fs : Fs) (system : System) (path : Text) : Prop where
  clear : fs.Clear path
  listing : ∀ entries, system.perform (fs.readdir path) = some (.ok entries, system) →
    fs.Listing system path entries

/-- Only what stands at or below the names has changed. -/
structure Stays (names : Path) (before after : System) : Prop where
  wellFormed : after.WellFormed
  others : ∀ other, ¬ names <+: other → after.view other = before.view other

section Walks
variable {fs : Fs}

theorem listed_either {system : System} (wellFormed : system.WellFormed) {path : Text}
    {entries : List DirEntry}
    (listed : system.perform (fs.readdir path) = some (.ok entries, system)) :
    Children system (fs.names path) entries ∨
      fs.names path = [binName] ∧ entries = fs.commandEntries := by
  obtain ⟨result, ran, lists⟩ := perform_readdir wellFormed
  exact (lists entries (Prod.mk.inj (Option.some.inj (ran.symm.trans listed))).1).2

theorem lists_of_grounded {system : System} (wellFormed : system.WellFormed) {path : Text}
    (clear : fs.Clear path) (grounded : fs.Grounded path) : fs.Lists system path := by
  apply Lists.mk clear
  intro entries listed
  rcases listed_either wellFormed listed with children | ⟨bin, rfl⟩
  · exact listing_of_children grounded children
  · exact listing_commands (clear (bin ▸ List.prefix_rfl)) grounded bin

/-- A child of a path that is clear is clear itself. -/
theorem lists_joinPath {system : System} (wellFormed : system.WellFormed) {path : Text}
    (clear : fs.Clear path) {name : Name} (below : fs.names path <+: fs.names (joinPath path name)) :
    fs.Lists system (joinPath path name) :=
  lists_of_grounded wellFormed (fun bin => clear (below.trans bin)) (grounded_joinPath fs path name)

theorem Stays.self {names : Path} {system : System} (wellFormed : system.WellFormed) :
    Stays names system system := ⟨wellFormed, fun _ _ => rfl⟩

theorem Stays.trans {names : Path} {before middle after : System} (first : Stays names before middle)
    (second : Stays names middle after) : Stays names before after where
  wellFormed := second.wellFormed
  others := fun other outside => (second.others other outside).trans (first.others other outside)

/-- What stays at or below a path stays at or below every path above it. -/
theorem Stays.above {names below : Path} {before after : System} (stays : Stays below before after)
    (above : names <+: below) : Stays names before after where
  wellFormed := stays.wellFormed
  others := fun other outside => stays.others other fun inside => outside (above.trans inside)

theorem stays_of_removes {names : Path} {before after : System} {result : VfsResult Unit}
    (removes : before.Removes names (some (result, after))) :
    Stays names before after ∧
      (result = .ok () → ∀ other, names <+: other → after.view other = none) := by
  obtain ⟨_, _, same, wellFormed, failed, removed⟩ := removes
  cases same
  cases result with
  | error error =>
      rw [failed error rfl] at wellFormed ⊢
      exact ⟨Stays.self wellFormed, nofun⟩
  | ok _ =>
      have gone := removed rfl
      constructor
      · apply Stays.mk wellFormed
        intro other outside
        exact gone.others other fun same => outside (same ▸ List.prefix_rfl)
      · intro _ other inside
        obtain ⟨rest, rfl⟩ := inside
        by_cases here : rest = []
        · rw [here, List.append_nil]
          exact gone.gone
        · rw [gone.others _ (by simpa using here)]
          exact gone.single rest here

/-- What a removal keeps, for one path and for the rest of a listing. -/
def Keeps (fs : Fs) (before : System) (result : VfsResult Unit) (after : System) : Work → Prop
  | .entry path _ => fs.Lists before path → Stays (fs.names path) before after ∧
      (result = .ok () → ∀ other, fs.names path <+: other → after.view other = none)
  | .entries path rest => fs.Clear path →
      (∀ entry ∈ rest, fs.names path <+: fs.names (joinPath path entry.name)) →
        Stays (fs.names path) before after

/-- A removal changes nothing but what stands at or below its path. -/
theorem Walk.keeps {work : Work} {before after : System} {result : VfsResult Unit}
    (walk : fs.Walk work before result after) (wellFormed : before.WellFormed) :
    fs.Keeps before result after work := by
  induction walk with
  | file unlinked =>
      intro _
      apply stays_of_removes
      rw [← unlinked]
      exact perform_unlink wellFormed
  | unlisted failed =>
      intro _
      exact ⟨Stays.self wellFormed, nofun⟩
  | stopped listed children ih =>
      intro lists
      exact ⟨ih wellFormed lists.clear (lists.listing _ listed).below, nofun⟩
  | emptied listed children removed ih =>
      intro lists
      have emptied := ih wellFormed lists.clear (lists.listing _ listed).below
      have last := stays_of_removes (removed ▸ perform_rmdir emptied.wellFormed)
      exact ⟨emptied.trans last.1, last.2⟩
  | done =>
      intro _ _
      exact Stays.self wellFormed
  | failed child ih =>
      intro clear below
      have here := below _ List.mem_cons_self
      exact (ih wellFormed (lists_joinPath wellFormed clear here)).1.above here
  | next child others ihChild ihOthers =>
      intro clear below
      have here := below _ List.mem_cons_self
      have kept := (ihChild wellFormed (lists_joinPath wellFormed clear here)).1
      have rest := ihOthers kept.wellFormed clear fun entry member =>
        below entry (List.mem_cons_of_mem _ member)
      exact (kept.above here).trans rest

end Walks

section Existence
variable {fs : Fs}

end Existence

section Shell
variable {fs : Fs} {system : System}

theorem removeLoop_pop (fuel : Nat) (path : Text) (stack : List (Text × List DirEntry)) :
    system.perform (fs.removeLoop (fuel + 1) ((path, []) :: stack)) =
      system.perform (fs.rmdir path >>= fun _ => fs.removeLoop fuel stack) :=
  System.perform_bind_ok (system.perform_check fs)

theorem removeLoop_next (fuel : Nat) (path : Text) (entry : DirEntry) (rest : List DirEntry)
    (stack : List (Text × List DirEntry)) :
    system.perform (fs.removeLoop (fuel + 1) ((path, entry :: rest) :: stack)) =
      system.perform (if entry.metadata.fileType = .directory then
        fs.readdir (joinPath path entry.name) >>= fun below =>
          fs.removeLoop fuel ((joinPath path entry.name, below) :: (path, rest) :: stack)
      else fs.unlink (joinPath path entry.name) >>= fun _ =>
        fs.removeLoop fuel ((path, rest) :: stack)) :=
  System.perform_bind_ok (system.perform_check fs)

/-- The loop goes on with what is left of the stack after a piece of work that succeeds. -/
def GoesOn (fs : Fs) (system : System) (fuel : Nat) (stack : List (Text × List DirEntry)) :
    VfsResult Unit → Option (VfsResult Unit × System)
  | .ok _ => system.perform (fs.removeLoop fuel stack)
  | .error error => some (.error error, system)

/-- The loop of the shell follows the removal, for one entry and for the rest of a listing. -/
def Follows (fs : Fs) (before : System) (result : VfsResult Unit) (after : System) : Work → Prop
  | .entry path kind => ∃ steps, ∀ fuel parent entry rest stack,
      path = joinPath parent entry.name → kind = entry.metadata.fileType →
        before.perform (fs.removeLoop (fuel + steps) ((parent, entry :: rest) :: stack)) =
          fs.GoesOn after fuel ((parent, rest) :: stack) result
  | .entries path rest => ∃ steps, ∀ fuel stack,
      before.perform (fs.removeLoop (fuel + steps) ((path, rest) :: stack)) =
        fs.GoesOn after fuel ((path, []) :: stack) result

theorem Walk.shell {work : Work} {before after : System} {result : VfsResult Unit}
    (walk : fs.Walk work before result after) : fs.Follows before result after work := by
  induction walk with
  | @file path system result after unlinked =>
      apply Exists.intro 1
      intro fuel parent entry rest stack same kind
      rw [removeLoop_next, if_neg (by rw [← kind]; decide), ← same]
      cases result with
      | ok _ => exact System.perform_bind_ok unlinked
      | error error => exact System.perform_bind_error unlinked
  | unlisted failed =>
      apply Exists.intro 1
      intro fuel parent entry rest stack same kind
      rw [removeLoop_next, if_pos kind.symm, ← same]
      exact System.perform_bind_error failed
  | stopped listed children ih =>
      obtain ⟨steps, follows⟩ := ih
      apply Exists.intro (steps + 1)
      intro fuel parent entry rest stack same kind
      rw [← Nat.add_assoc, removeLoop_next, if_pos kind.symm, ← same,
        System.perform_bind_ok listed]
      exact follows fuel _
  | @emptied path system entries middle result after listed children removed ih =>
      obtain ⟨steps, follows⟩ := ih
      apply Exists.intro (1 + steps + 1)
      intro fuel parent entry rest stack same kind
      rw [← Nat.add_assoc, removeLoop_next, if_pos kind.symm, ← same,
        System.perform_bind_ok listed, ← Nat.add_assoc, follows (fuel + 1)]
      change middle.perform (fs.removeLoop (fuel + 1) _) = _
      rw [removeLoop_pop]
      cases result with
      | ok _ => exact System.perform_bind_ok removed
      | error error => exact System.perform_bind_error removed
  | done =>
      exact ⟨0, fun _ _ => rfl⟩
  | failed child ih =>
      obtain ⟨steps, follows⟩ := ih
      exact ⟨steps, fun fuel stack => follows fuel _ _ _ stack rfl rfl⟩
  | next child others ihChild ihOthers =>
      obtain ⟨first, followsChild⟩ := ihChild
      obtain ⟨second, followsOthers⟩ := ihOthers
      apply Exists.intro (second + first)
      intro fuel stack
      rw [← Nat.add_assoc, followsChild (fuel + second) _ _ _ stack rfl rfl]
      exact followsOthers fuel stack

end Shell

section Scripts
variable {fs : Fs}

theorem perform_asNode {α : Type} {system after : System} {task : FsTask α} {result : VfsResult α}
    (performed : system.perform task = some (result, after)) (call : String) (path : Text) :
    system.perform (asNode task call path) =
      some (.ok (result.mapError (nodeError call path)), after) := by
  unfold asNode
  rw [System.perform_bind_ok (System.perform_attempt performed)]
  rfl

/-- A removal sees at every path the kind that the listing gave to it. -/
def Known (fs : Fs) (system : System) : Work → Prop
  | .entry path kind => system.kindAt (fs.names path) = some kind ∧ fs.Lists system path
  | .entries path rest => fs.Clear path ∧ fs.Listing system path rest

/-- The host of the scripts follows the removal, and fails when it fails. -/
def Mirrors (fs : Fs) (before : System) (result : VfsResult Unit) (after : System) : Work → Prop
  | .entry path _ => ∃ steps reply, reply.toOption = result.toOption ∧ ∀ fuel,
      before.perform (fs.removePathJs (fuel + steps) path true) = some (.ok reply, after)
  | .entries path rest => ∃ steps reply, reply.toOption = result.toOption ∧ ∀ fuel,
      before.perform (removeEntries (fun child => fs.removePathJs (fuel + steps) child true) path
        rest) = some (.ok reply, after)

/-- A path keeps its kind when nothing at it changes. -/
theorem Listing.rest {system middle : System} {path : Text} {entry : DirEntry}
    {rest : List DirEntry} (listing : fs.Listing system path (entry :: rest))
    (stays : Stays (fs.names (joinPath path entry.name)) system middle) :
    fs.Listing middle path rest := by
  obtain ⟨apart, later⟩ := List.pairwise_cons.mp listing.apart
  constructor
  case kinds =>
      intro other member
      rw [← listing.kinds other (List.mem_cons_of_mem _ member)]
      unfold System.kindAt
      split
      · rfl
      · next outside =>
          rw [stays.others _ ((apart other member).resolve_left outside)]
  case below => exact fun other member => listing.below other (List.mem_cons_of_mem _ member)
  case deeper => exact fun other member => listing.deeper other (List.mem_cons_of_mem _ member)
  case apart => exact later

section Steps
variable {system : System} {path : Text}

theorem removePathJs_failed (fuel : Nat) {error : Errno}
    (failed : system.perform (fs.stat path) = some (.error error, system)) :
    system.perform (fs.removePathJs (fuel + 1) path true) =
      some (.ok (.error (nodeError "rm" path error)), system) := by
  unfold Fs.removePathJs
  rw [System.perform_bind_ok (perform_asNode failed "rm" path)]
  rfl

theorem removePathJs_file (fuel : Nat) {metadata : Metadata}
    (known : system.perform (fs.stat path) = some (.ok metadata, system))
    (file : metadata.fileType = .file) :
    system.perform (fs.removePathJs (fuel + 1) path true) =
      system.perform (asNode (fs.unlink path) "unlink" path) := by
  unfold Fs.removePathJs
  rw [System.perform_bind_ok (perform_asNode known "rm" path)]
  change system.perform (if _ then _ else _) = _
  rw [if_pos file]

/-- The listing and the last step of a directory, around the removal of its children. -/
theorem removePathJs_directory (fuel : Nat) {metadata : Metadata}
    (known : system.perform (fs.stat path) = some (.ok metadata, system))
    (directory : metadata.fileType = .directory) :
    system.perform (fs.removePathJs (fuel + 1) path true) =
      system.perform (asNode (fs.readdir path) "scandir" path >>= fun listed =>
        match listed with
        | .error error => pure (.error error)
        | .ok entries =>
            removeEntries (fun child => fs.removePathJs fuel child true) path entries >>= fun children =>
              match children with
              | .error error => pure (.error error)
              | .ok _ => asNode (fs.rmdir path) "rmdir" path) := by
  conv => lhs; unfold Fs.removePathJs
  rw [System.perform_bind_ok (perform_asNode known "rm" path)]
  change system.perform (if _ then _ else if _ then _ else _) = _
  rw [if_neg (by rw [directory]; decide)]
  exact congrArg system.perform (if_neg (by decide))

end Steps

/-- The kind that is known is the kind of the metadata, or every call refuses the path. -/
theorem stat_known {system : System} (wellFormed : system.WellFormed) {path : Text} {kind : FileType}
    (known : system.kindAt (fs.names path) = some kind) :
    (∃ metadata, system.perform (fs.stat path) = some (.ok metadata, system) ∧
      metadata.fileType = kind) ∨
    (∃ error, system.perform (fs.stat path) = some (.error error, system)) ∧
      fs.Refuses (fs.names path) := by
  obtain ⟨result, ran, kinds, fails⟩ :
      ∃ result, system.perform (fs.stat path) = some (result, system) ∧ _ ∧ _ :=
    perform_stat wellFormed
  cases result with
  | ok metadata =>
      exact .inl ⟨metadata, ran, Option.some.inj ((kinds metadata rfl).symm.trans known)⟩
  | error error =>
      rcases fails error rfl with missing | refused
      · cases missing.symm.trans known
      · exact .inr ⟨⟨error, ran⟩, refused⟩

theorem Walk.refused {system after : System} {path : Text} {kind : FileType}
    {result : VfsResult Unit} (walk : fs.Walk (.entry path kind) system result after)
    (refused : fs.Refuses (fs.names path)) : (∃ error, result = .error error) ∧ after = system := by
  obtain ⟨error, unread⟩ :
      ∃ error, system.perform (fs.readdir path) = some (.error error, system) :=
    perform_readdir_refused refused
  cases walk with
  | file unlinked =>
      obtain ⟨error, kept⟩ :
          ∃ error, system.perform (fs.unlink path) = some (.error error, system) :=
        perform_change_refused refused fun path => vfs (.unlink path)
      cases (show some _ = some _ from kept.symm.trans unlinked)
      exact ⟨⟨_, rfl⟩, rfl⟩
  | unlisted failed => exact ⟨⟨_, rfl⟩, rfl⟩
  | stopped listed children => cases unread.symm.trans listed
  | emptied listed children removed => cases unread.symm.trans listed

theorem toOption_mapError {ε δ α : Type} (change : ε → δ) (result : Except ε α) :
    (result.mapError change).toOption = result.toOption := by
  cases result with
  | ok value => rfl
  | error error => rfl

theorem Walk.mirrors {work : Work} {before after : System} {result : VfsResult Unit}
    (walk : fs.Walk work before result after) (wellFormed : before.WellFormed)
    (known : fs.Known before work) : fs.Mirrors before result after work := by
  induction walk with
  | @file path system result after unlinked =>
      rcases stat_known wellFormed known.1 with ⟨metadata, found, file⟩ | ⟨⟨error, failed⟩, refused⟩
      · refine ⟨1, _, toOption_mapError (nodeError "unlink" path) result, fun fuel => ?_⟩
        rw [removePathJs_file fuel found file]
        exact perform_asNode unlinked _ _
      · obtain ⟨⟨other, rfl⟩, rfl⟩ := (Walk.file unlinked).refused refused
        exact ⟨1, .error _, rfl, fun fuel => removePathJs_failed fuel failed⟩
  | @unlisted path system error unread =>
      rcases stat_known wellFormed known.1 with ⟨metadata, found, directory⟩ | ⟨⟨error, failed⟩, -⟩
      · refine ⟨1, .error (nodeError "scandir" path error), rfl, fun fuel => ?_⟩
        rw [removePathJs_directory fuel found directory,
          System.perform_bind_ok (perform_asNode unread _ _)]
        rfl
      · exact ⟨1, .error _, rfl, fun fuel => removePathJs_failed fuel failed⟩
  | @stopped path system entries error after listed children ih =>
      obtain ⟨steps, reply, same, ran⟩ := ih wellFormed ⟨known.2.clear, known.2.listing _ listed⟩
      rcases stat_known wellFormed known.1 with ⟨metadata, found, directory⟩ | ⟨⟨other, failed⟩, refused⟩
      · cases reply with
        | ok _ => cases same
        | error other =>
            refine ⟨steps + 1, .error other, rfl, fun fuel => ?_⟩
            rw [← Nat.add_assoc, removePathJs_directory _ found directory,
              System.perform_bind_ok (perform_asNode listed _ _)]
            change system.perform (removeEntries _ path entries >>= _) = _
            rw [System.perform_bind_ok (ran fuel)]
            rfl
      · obtain ⟨-, rfl⟩ := (Walk.stopped listed children).refused refused
        exact ⟨1, .error _, rfl, fun fuel => removePathJs_failed fuel failed⟩
  | @emptied path system entries middle result after listed children removed ih =>
      obtain ⟨steps, reply, same, ran⟩ := ih wellFormed ⟨known.2.clear, known.2.listing _ listed⟩
      rcases stat_known wellFormed known.1 with ⟨metadata, found, directory⟩ | ⟨⟨other, failed⟩, refused⟩
      · cases reply with
        | ok _ =>
            refine ⟨steps + 1, _, toOption_mapError (nodeError "rmdir" path) result, fun fuel => ?_⟩
            rw [← Nat.add_assoc, removePathJs_directory _ found directory,
              System.perform_bind_ok (perform_asNode listed _ _)]
            change system.perform (removeEntries _ path entries >>= _) = _
            rw [System.perform_bind_ok (ran fuel)]
            exact perform_asNode removed _ _
        | error other => cases same
      · obtain ⟨⟨error, rfl⟩, rfl⟩ := (Walk.emptied listed children removed).refused refused
        exact ⟨1, .error _, rfl, fun fuel => removePathJs_failed fuel failed⟩
  | done =>
      exact ⟨0, .ok (), rfl, fun _ => rfl⟩
  | failed child ih =>
      obtain ⟨clear, listing⟩ := known
      obtain ⟨steps, reply, same, ran⟩ := ih wellFormed ⟨listing.kinds _ List.mem_cons_self,
        lists_joinPath wellFormed clear (listing.below _ List.mem_cons_self)⟩
      cases reply with
      | ok _ => cases same
      | error other =>
          refine ⟨steps, .error other, rfl, fun fuel => ?_⟩
          unfold removeEntries
          rw [System.perform_bind_ok (ran fuel)]
          rfl
  | @next path entry rest system middle result after child others ihChild ihOthers =>
      obtain ⟨clear, listing⟩ := known
      have lists : fs.Lists system _ :=
        lists_joinPath wellFormed clear (listing.below _ List.mem_cons_self)
      have kept := (child.keeps wellFormed lists).1
      obtain ⟨first, reply, same, ran⟩ := ihChild wellFormed ⟨listing.kinds _ List.mem_cons_self, lists⟩
      obtain ⟨second, last, equal, ended⟩ := ihOthers kept.wellFormed ⟨clear, listing.rest kept⟩
      cases reply with
      | ok _ =>
          refine ⟨first + second, last, equal, fun fuel => ?_⟩
          have here := ran (fuel + second)
          have there := ended (fuel + first)
          rw [Nat.add_assoc, Nat.add_comm second first] at here
          rw [Nat.add_assoc] at there
          unfold removeEntries
          rw [System.perform_bind_ok here]
          exact there
      | error other => cases same

end Scripts

section Fuel
variable {fs : Fs}

end Fuel

section Removal
variable {fs : Fs} {system : System} {path : Text}

/-- The shell starts from the metadata of the path. -/
theorem Walk.removePath {after : System} {metadata : Metadata} {result : VfsResult Unit}
    (walk : fs.Walk (.entry path metadata.fileType) system result after)
    (known : system.perform (fs.stat path) = some (.ok metadata, system)) :
    ∃ steps, ∀ fuel, system.perform (fs.removePath (fuel + steps) path true) =
      some (result, after) := by
  unfold Fs.removePath
  simp only [System.perform_bind_ok known]
  cases kind : metadata.fileType with
  | file =>
      rw [kind] at walk
      cases walk with
      | file unlinked => exact ⟨0, fun _ => unlinked⟩
  | directory =>
      rw [kind] at walk
      -- The listing of the path is the whole stack of the loop.
      have start (fuel : Nat) : system.perform (if FileType.directory ≠ .directory then fs.unlink path
          else refuse (true = false) .EISDIR >>= fun _ =>
            fs.readdir path >>= fun entries => fs.removeLoop fuel [(path, entries)]) =
          system.perform (fs.readdir path >>= fun entries => fs.removeLoop fuel [(path, entries)]) := by
        rw [if_neg (not_not.mpr rfl), System.perform_refuse_bind, if_neg (by decide)]
      cases walk with
      | unlisted unread =>
          exact ⟨0, fun fuel => (start _).trans (System.perform_bind_error unread)⟩
      | stopped listed children =>
          obtain ⟨steps, follows⟩ := children.shell
          apply Exists.intro steps
          intro fuel
          refine (start _).trans ?_
          rw [System.perform_bind_ok listed]
          exact follows fuel []
      | @emptied _ _ _ middle _ _ listed children removed =>
          obtain ⟨steps, follows⟩ := children.shell
          apply Exists.intro (1 + steps)
          intro fuel
          refine (start _).trans ?_
          rw [System.perform_bind_ok listed, ← Nat.add_assoc, follows (fuel + 1) []]
          change middle.perform (fs.removeLoop (fuel + 1) _) = _
          rw [removeLoop_pop]
          cases result with
          | ok _ =>
              rw [System.perform_bind_ok removed]
              cases fuel with
              | zero => rfl
              | succ fuel => rfl
          | error error => exact System.perform_bind_error removed

end Removal

/-- The directory `d` holds a directory with the name of the mount, and `f` stands beside `d`. -/
def besideVfs : InMemoryVfs where
  quota := { maxBytes := 8, maxFiles := 4, maxFileSize := 4 }
  state :=
    { root := .directory [(['d'], .directory [(['w'], .directory [])]), (['f'], .file 1)]
      files := (∅ : OrderedMap Inode FileNode).insert 1
        { data := { addr := 4, bytes := [] }, links := 1, openHandles := 0 }
      nextInode := 2
      nextHandle := 2
      handles := ((∅ : OrderedMap Nat Handle).insert 1
        { inode := 1, readable := false, writable := true, append := false }).erase 1
      usedBytes := 0
      fileCount := 3 }

def beside : System where
  vfs := { mounts := (∅ : OrderedMap Name Unit).insert ['w'] (), valid := by decide }
  mounted := .new
  backends := fun _ => besideVfs
  arcs := { strongCount := fun _ => 0, fresh := 0 }

def besideFs : Fs where
  binCommands := ∅
  cwd := "/w/d".toList
  limits := {}
  controlled := false

theorem beside_wellFormed : beside.WellFormed := by
  apply System.wellFormed_of_runs
  intro mount
  exact ⟨[besideVfs.quota], [.call 0 (.mkdir "/d".toList), .call 0 (.mkdir "/d/w".toList),
    .call 0 (.open "/f".toList { write := true, create := true }), .call 0 (.close 1)], _,
    { filesystems := [besideVfs], snapshots := [], nextAddr := 8 }, rfl, List.mem_singleton_self _⟩

end Fs

end TinySandbox.Sandbox
