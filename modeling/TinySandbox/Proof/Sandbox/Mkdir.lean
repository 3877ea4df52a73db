/-
This file shows that making a directory with every directory above it makes only what is missing.
The shell and the host of the scripts leave the same system.
-/

import TinySandbox.Construction.Sandbox.FileTrees
import TinySandbox.Proof.Sandbox.Removal
import TinySandbox.Specification.FlatFs

namespace TinySandbox
open Library Library.Task Library.Call DirectoryTree Mem Mounted

namespace FlatFs

variable {fs : FlatFs} {paths : Set Path} {path other : Path}

theorem shown_withDirectories (directory : fs.shown path = some .directory) :
    (fs.withDirectories paths).shown path = some .directory := by
  obtain ⟨entry, found, kind⟩ := Option.map_eq_some_iff.mp directory
  cases entry with
  | file id => cases kind
  | directory =>
      unfold shown
      rw [directory_withDirectories found]
      rfl

theorem shown_withDirectories_made (missing : fs.entries path = none) :
    (fs.withDirectories {path}).shown path = some .directory := by
  unfold shown
  rw [entries_withDirectories, if_pos ⟨rfl, missing⟩]
  rfl

theorem shown_withDirectories_other (different : other ≠ path) (missing : fs.shown other = none) :
    (fs.withDirectories {path}).shown other = none := by
  unfold shown at missing ⊢
  rw [entries_withDirectories, if_neg fun both => different both.1]
  exact missing

end FlatFs

namespace Mem

/-- A directory is made where nothing stands, and nothing else changes. -/
theorem mkdir_makes {quota : VfsQuota} {state : State} (invariant : Invariant quota state)
    {names : Path} (normal : NormalPath names) (below : names ≠ []) :
    ∃ result after, outcome (Mem.mkdir quota (joinAbsolute names)) state = some (result, after) ∧
      Invariant quota after ∧ (∀ error, result = .error error → after = state) ∧
      (result = .ok () → state.flat.entries names = none ∧
        after.flat = state.flat.withDirectories {names}) ∧
      (state.flat.entries names ≠ none → result = .error .EEXIST) := by
  have flat : state.flat.mkdir quota (joinAbsolute names) =
      (do
        state.flat.expectMissing names
        state.flat.parentDirectory names
        state.flat.entrySlot quota
        .ok ((), { state.flat with
          entries := Function.update state.flat.entries names (some .directory) })) := by
    unfold FlatFs.mkdir
    rw [normalizePath_joinAbsolute normal]
    exact if_neg below
  have agreed : Agrees quota ⟨fun _ => 0, 0⟩ state False _ _ :=
    mkdir_agrees invariant (joinAbsolute names)
  rw [flat] at agreed
  have present : state.flat.entries names ≠ none →
      state.flat.expectMissing names = .error .EEXIST := by
    intro named
    obtain ⟨entry, found⟩ := Option.ne_none_iff_exists'.mp named
    unfold FlatFs.expectMissing
    rw [FlatFs.resolve_of_entries found]
  cases reached : outcome (Mem.mkdir quota (joinAbsolute names)) state with
  | none =>
      rw [reached] at agreed
      exact agreed.elim
  | some ended =>
      rcases ended with ⟨result, after⟩
      rw [reached] at agreed
      refine ⟨result, after, rfl, ?_⟩
      cases result with
      | error error =>
          obtain ⟨same, rfl⟩ := agreed
          refine ⟨invariant, fun _ _ => rfl, nofun, ?_⟩
          intro named
          rw [present named] at same
          cases same
          rfl
      | ok value =>
          obtain ⟨same, kept, -⟩ := agreed
          obtain ⟨_, missing, same⟩ := bind_eq_ok_iff.mp same
          obtain ⟨_, -, same⟩ := bind_eq_ok_iff.mp same
          obtain ⟨_, -, same⟩ := bind_eq_ok_iff.mp same
          have absent : state.flat.entries names = none := by
            by_contra named
            rw [present named] at missing
            cases missing
          refine ⟨kept, nofun, fun _ => ⟨absent, ?_⟩, fun named => absurd absent named⟩
          rw [FlatFs.withDirectories_singleton absent]
          exact (Prod.mk.inj (Except.ok.inj same)).2.symm

end Mem

namespace Sandbox

/-- The missing ones of some paths became directories, and nothing else changed. -/
structure Made (before after : System) (paths : Set Path) : Prop where
  vfs : after.vfs = before.vfs
  mounted : after.mounted = before.mounted
  arcs : after.arcs = before.arcs
  quota : ∀ mount, (after.backends mount).quota = (before.backends mount).quota
  flat : ∀ mount, (after.backends mount).state.flat =
    (before.backends mount).state.flat.withDirectories {rest | mount :: rest ∈ paths}

section Making
variable {before middle after : System} {paths : Set Path}

theorem Made.trans {first second : Set Path} (left : Made before middle first)
    (right : Made middle after second) : Made before after (first ∪ second) where
  vfs := right.vfs.trans left.vfs
  mounted := right.mounted.trans left.mounted
  arcs := right.arcs.trans left.arcs
  quota := fun mount => (right.quota mount).trans (left.quota mount)
  flat := fun mount => by
    rw [right.flat mount, left.flat mount, FlatFs.withDirectories_withDirectories]
    rfl

/-- The virtual root is there already. -/
theorem Made.congr {other : Set Path} (made : Made before after paths)
    (same : ∀ path, path ≠ [] → (path ∈ paths ↔ path ∈ other)) : Made before after other where
  vfs := made.vfs
  mounted := made.mounted
  arcs := made.arcs
  quota := made.quota
  flat := fun mount => by
    have equal : {rest | mount :: rest ∈ other} = {rest | mount :: rest ∈ paths} := by
      ext rest
      exact (same (mount :: rest) (List.cons_ne_nil _ _)).symm
    rw [equal]
    exact made.flat mount

/-- A directory that is there stays. -/
theorem Made.directory (made : Made before after paths) {path : Path}
    (directory : before.view path = some .directory) : after.view path = some .directory := by
  cases path with
  | nil => rfl
  | cons mount rest =>
      have mounted : before.vfs.mounts.get mount ≠ none := by
        intro missing
        have absent : before.view (mount :: rest) = none := if_pos missing
        rw [absent] at directory
        cases directory
      rw [System.view_mounted mounted] at directory
      rw [System.view_mounted (made.vfs ▸ mounted), made.flat mount]
      exact FlatFs.shown_withDirectories directory

theorem made_single {system : System} {mount : Name} {rest : Path} {state : Mem.State}
    (flat : state.flat = (system.backends mount).state.flat.withDirectories {rest}) :
    Made system (system.put mount state) {mount :: rest} where
  vfs := rfl
  mounted := rfl
  arcs := rfl
  quota := fun other => by
    rw [System.put_backend]
    split
    · next same => rw [same]
    · rfl
  flat := fun other => by
    rw [System.put_backend]
    by_cases same : other = mount
    · have paths : {tail | other :: tail ∈ ({mount :: rest} : Set Path)} = {rest} := by
        ext tail
        simp [same]
      rw [if_pos same, paths, same]
      exact flat
    · rw [if_neg same]
      symm
      apply FlatFs.withDirectories_of_present
      intro tail member
      exact absurd (List.cons.inj member).1 same

end Making

section Calls
variable {system : System} {names : Path}

/-- The path of a directory that was made has valid names. -/
theorem wellFormed_of_made (wellFormed : system.WellFormed) {mount : Name} {rest : Path}
    (normal : NormalPath rest) {state : Mem.State}
    (invariant : Invariant (system.backends mount).quota state)
    (flat : state.flat = (system.backends mount).state.flat.withDirectories {rest}) :
    (system.put mount state).WellFormed := by
  constructor
  case invariant =>
      intro other
      rw [System.put_backend]
      split
      · exact invariant
      · exact wellFormed.invariant other
  case named =>
      intro other path
      rw [System.put_backend]
      split
      · intro present
        by_cases here : path = rest
        · rw [here]
          exact normal.valid
        · apply wellFormed.named mount path
          intro missing
          apply present
          change state.flat.shown path = none
          rw [flat]
          exact FlatFs.shown_withDirectories_other here missing
      · exact wellFormed.named other path

/-- A directory is made where nothing stands, and a path that is there is reported. -/
theorem call_mkdir (wellFormed : system.WellFormed) (normal : NormalPath names)
    (filled : names ≠ []) :
    ∃ result after, system.call (.mkdir (joinAbsolute names)) = some (result, after) ∧
      after.WellFormed ∧ (∀ error, result = .error error → after = system) ∧
      (result = .ok () → Made system after {names} ∧ after.view names = some .directory) ∧
      (system.view names ≠ none → result = .error .EEXIST) := by
  change ∃ result after, system.route (system.vfs.mkdir (joinAbsolute names)) = _ ∧ _
  unfold MountedVfs.mkdir
  cases names with
  | nil => exact absurd rfl filled
  | cons mount rest =>
      rw [System.mountedPath_cons system.vfs normal]
      by_cases missing : system.vfs.mounts.get mount = none
      · rw [if_pos missing]
        refine ⟨.error .EACCES, system, rfl, wellFormed, fun _ _ => rfl, nofun, ?_⟩
        intro present
        exact absurd (if_pos missing) present
      · rw [if_neg missing]
        dsimp only
        by_cases top : rest = []
        · rw [if_pos (by simpa using top)]
          exact ⟨.error .EEXIST, system, rfl, wellFormed, fun _ _ => rfl, nofun, fun _ => rfl⟩
        · rw [if_neg (by simpa using top), System.route_forward]
          obtain ⟨result, after, ran, invariant, failed, made, present⟩ :=
            mkdir_makes (wellFormed.invariant mount) (System.normal_tail normal) top
          change ∃ result after, Option.map _ (outcome (Mem.mkdir _ _) _) = _ ∧ _
          rw [ran]
          refine ⟨result, system.put mount after, rfl, ?_, ?_, ?_, ?_⟩
          · cases result with
            | error error =>
                rw [failed error rfl, System.put_self]
                exact wellFormed
            | ok _ =>
                exact wellFormed_of_made wellFormed (System.normal_tail normal) invariant (made rfl).2
          · intro error failure
            rw [failed error failure, System.put_self]
          · intro succeeded
            obtain ⟨absent, flat⟩ := made succeeded
            apply And.intro (made_single flat)
            rw [@System.view_mounted (system.put mount after) _ missing, System.put_backend,
              if_pos rfl]
            change after.flat.shown rest = _
            rw [flat]
            exact FlatFs.shown_withDirectories_made absent
          · intro named
            apply present
            rw [System.view_mounted missing] at named
            intro absent
            apply named
            unfold FlatFs.shown
            rw [absent]
            rfl

end Calls

namespace Fs

/-- The path is a directory outside the directory of commands, and the check lets it pass. -/
structure Stands (fs : Fs) (system : System) (names : Path) : Prop where
  passes : fs.PathPasses (joinAbsolute names)
  outside : names.head? ≠ some binName
  directory : system.view names = some .directory

/-- Both functions make the missing ones of some directories, and leave those that are there. -/
structure Ensured (fs : Fs) (before : System) (paths : Set Path) (shell : VfsResult Unit)
    (scripts : Except NodeError Unit) (after : System) : Prop where
  wellFormed : after.WellFormed
  same : scripts = .ok () ↔ shell = .ok ()
  made : shell = .ok () →
    Made before after paths ∧ ∀ path ∈ paths, after.view path = some .directory
  present : (∀ path ∈ paths, fs.Stands before path) → shell = .ok () ∧ after = before

section Parts
variable {fs : Fs} {system middle after : System} {names : Path} {paths : Set Path}

theorem names_joinAbsolute (clean : ∀ name ∈ names, CleanName name) :
    fs.names (joinAbsolute names) = names := by
  have rooted : (joinAbsolute names).head? = some '/' := rfl
  have same : fs.absolute (joinAbsolute names) = joinAbsolute names := if_pos rooted
  unfold Fs.names
  rw [same, absoluteNames_joinAbsolute clean]

theorem perform_mkdir (fs : Fs) (wellFormed : system.WellFormed) (clean : ∀ name ∈ names, CleanName name)
    (filled : names ≠ []) :
    ∃ result after, system.perform (fs.mkdir (joinAbsolute names)) = some (result, after) ∧
      after.WellFormed ∧ (∀ error, result = .error error → after = system) ∧
      (result = .ok () → Made system after {names} ∧ after.view names = some .directory) ∧
      (fs.Stands system names → result = .error .EEXIST) ∧
      (result = .error .EEXIST → names.head? ≠ some binName) := by
  have resolved : fs.resolve (joinAbsolute names) = joinAbsolute names := by
    rw [resolve_names, names_joinAbsolute clean]
  have bin : isBinPath (joinAbsolute names) = true ↔ names.head? = some binName := by
    rw [← resolved, resolve_isBinPath, names_joinAbsolute clean]
  unfold Fs.mkdir
  rw [System.perform_change, resolved]
  by_cases passes : fs.PathPasses (joinAbsolute names)
  · rw [if_neg (not_not_intro passes)]
    by_cases inside : isBinPath (joinAbsolute names) = true
    · rw [if_pos inside]
      refine ⟨.error .EACCES, system, rfl, wellFormed, fun _ _ => rfl, nofun, ?_, nofun⟩
      intro stands
      exact absurd (bin.mp inside) stands.outside
    · rw [if_neg inside, System.perform_vfs]
      obtain ⟨result, after, ran, kept, failed, made, present⟩ :=
        call_mkdir wellFormed (normal_of_passes clean passes).1 filled
      refine ⟨result, after, ran, kept, failed, made, ?_, ?_⟩
      · intro stands
        exact present (stands.directory ▸ Option.some_ne_none _)
      · intro _ top
        exact inside (bin.mpr top)
  · rw [if_pos passes]
    refine ⟨.error .EINVAL, system, rfl, wellFormed, fun _ _ => rfl, nofun, ?_, nofun⟩
    intro stands
    exact absurd stands.passes passes

/-- What is outside the commands and has the kind of a directory is a directory. -/
theorem view_of_kindAt (outside : names.head? ≠ some binName)
    (kind : system.kindAt names = some .directory) : system.view names = some .directory := by
  unfold System.kindAt at kind
  rw [if_neg outside] at kind
  obtain ⟨entry, found, same⟩ := Option.map_eq_some_iff.mp kind
  cases entry with
  | file bytes => cases same
  | directory => exact found

/-- A call that fails made nothing, and nothing may stand where it fails. -/
theorem ensured_failed (wellFormed : system.WellFormed) {error : Errno} {failure : NodeError}
    (missing : ¬ ∀ path ∈ paths, fs.Stands system path) :
    fs.Ensured system paths (.error error) (.error failure) system where
  wellFormed := wellFormed
  same := ⟨nofun, nofun⟩
  made := nofun
  present := fun present => absurd present missing

/-- What is there already stays as it is. -/
theorem ensured_kept (wellFormed : system.WellFormed)
    (directories : ∀ path ∈ paths, system.view path = some .directory) :
    fs.Ensured system paths (.ok ()) (.ok ()) system where
  wellFormed := wellFormed
  same := ⟨fun _ => rfl, fun _ => rfl⟩
  made := by
    intro _
    refine ⟨⟨rfl, rfl, rfl, fun _ => rfl, ?_⟩, directories⟩
    intro mount
    symm
    apply FlatFs.withDirectories_of_present
    intro rest member absent
    have directory := directories (mount :: rest) member
    have mounted : system.vfs.mounts.get mount ≠ none := by
      intro missing
      have nothing : system.view (mount :: rest) = none := if_pos missing
      rw [nothing] at directory
      cases directory
    rw [System.view_mounted mounted] at directory
    unfold FlatFs.shown at directory
    rw [absent] at directory
    cases directory
  present := fun _ => ⟨rfl, rfl⟩

/-- One part of the path is made when it is missing, and left when it is a directory. -/
theorem ensured_part (fs : Fs) (wellFormed : system.WellFormed) (clean : ∀ name ∈ names, CleanName name)
    (filled : names ≠ []) (path : Text) :
    ∃ shell scripts after,
      system.perform (fs.ensureDirectory (joinAbsolute names)) = some (shell, after) ∧
      system.perform (fs.mkdirPart path (joinAbsolute names)) = some (.ok scripts, after) ∧
      fs.Ensured system {names} shell scripts after ∧
      ∀ error, shell = .error error → after = system := by
  obtain ⟨result, after, ran, kept, failed, made, stands, outside⟩ :=
    perform_mkdir fs wellFormed clean filled
  have attempted := System.perform_attempt ran
  unfold Fs.ensureDirectory Fs.mkdirPart
  rw [System.perform_bind_ok attempted, System.perform_bind_ok attempted]
  cases result with
  | ok _ =>
      refine ⟨.ok (), .ok (), after, rfl, rfl, ⟨kept, ⟨fun _ => rfl, fun _ => rfl⟩, ?_, ?_⟩, nofun⟩
      · intro _
        obtain ⟨makes, directory⟩ := made rfl
        refine ⟨makes, ?_⟩
        intro other member
        rw [Set.mem_singleton_iff.mp member]
        exact directory
      · intro present
        cases stands (present names rfl)
  | error error =>
      obtain rfl := failed error rfl
      dsimp only
      by_cases exist : error = .EEXIST
      · subst exist
        obtain ⟨found, known, kinds, fails⟩ :
            ∃ found, after.perform (fs.stat (joinAbsolute names)) = some (found, after) ∧ _ ∧ _ :=
          perform_stat wellFormed
        rw [names_joinAbsolute clean] at kinds fails
        rw [if_pos rfl, if_pos rfl, System.perform_bind_ok (System.perform_attempt known)]
        cases found with
        | ok metadata =>
            rw [System.perform_bind_ok known, System.perform_refuse]
            dsimp only
            by_cases directory : metadata.fileType = .directory
            · rw [if_neg (not_not_intro directory), if_pos directory]
              refine ⟨.ok (), .ok (), after, rfl, rfl, ensured_kept wellFormed ?_, nofun⟩
              intro other member
              rw [Set.mem_singleton_iff.mp member]
              exact view_of_kindAt (outside rfl) (directory ▸ kinds metadata rfl)
            · rw [if_pos directory, if_neg directory]
              refine ⟨_, _, after, rfl, rfl, ensured_failed wellFormed ?_, fun _ _ => rfl⟩
              intro present
              have directoryHere := (present names rfl).directory
              have kind := kinds metadata rfl
              unfold System.kindAt at kind
              rw [if_neg (outside rfl), directoryHere] at kind
              exact directory (Option.some.inj kind).symm
        | error error =>
            rw [System.perform_bind_error known]
            refine ⟨_, _, after, rfl, rfl, ensured_failed wellFormed ?_, fun _ _ => rfl⟩
            intro present
            obtain ⟨passes, free, directory⟩ := present names rfl
            rcases fails error rfl with absent | blocked | inside
            · unfold System.kindAt at absent
              rw [if_neg free, directory] at absent
              cases absent
            · exact blocked passes
            · exact free inside.1
      · rw [if_neg exist, if_neg exist]
        refine ⟨_, _, after, rfl, rfl, ensured_failed wellFormed ?_, fun _ _ => rfl⟩
        intro present
        exact exist (Except.error.inj (stands (present names rfl)))

/-- What the first part leaves is what the next parts find. -/
theorem Ensured.trans {first second : Set Path} {shell : VfsResult Unit}
    {scripts : Except NodeError Unit}
    (left : fs.Ensured system first (.ok ()) (.ok ()) middle)
    (right : fs.Ensured middle second shell scripts after) :
    fs.Ensured system (first ∪ second) shell scripts after where
  wellFormed := right.wellFormed
  same := right.same
  made := by
    intro succeeded
    obtain ⟨earlier, here⟩ := left.made rfl
    obtain ⟨later, there⟩ := right.made succeeded
    refine ⟨earlier.trans later, ?_⟩
    rintro path (member | member)
    · exact later.directory (here path member)
    · exact there path member
  present := by
    intro present
    obtain ⟨-, rfl⟩ := left.present fun path member => present path (.inl member)
    exact right.present fun path member => present path (.inr member)

/-- A part that fails ends the whole call. -/
theorem Ensured.stop {first second : Set Path} {error : Errno} {failure : NodeError}
    (left : fs.Ensured system first (.error error) (.error failure) after) :
    fs.Ensured system (first ∪ second) (.error error) (.error failure) after where
  wellFormed := left.wellFormed
  same := left.same
  made := nofun
  present := by
    intro present
    cases (left.present fun path member => present path (.inl member)).1

/-- Every name stands behind a slash. -/
def spelled (names : Path) : Text := names.flatMap fun name => '/' :: name

theorem spelled_concat (names : Path) (name : Name) :
    spelled (names ++ [name]) = spelled names ++ '/' :: name := by
  simp [spelled]

theorem joinAbsolute_eq_spelled (filled : names ≠ []) : joinAbsolute names = spelled names := by
  unfold joinAbsolute
  induction names with
  | nil => exact absurd rfl filled
  | cons name rest ih =>
      cases rest with
      | nil => simp [spelled]
      | cons next rest =>
          rw [List.intercalate_cons_cons]
          have later := ih (List.cons_ne_nil _ _)
          have whole : spelled (name :: next :: rest) = '/' :: name ++ spelled (next :: rest) := rfl
          rw [whole, ← later]
          simp

/-- These are the paths that go down from a directory along some parts. -/
def along (done parts : Path) : Set Path :=
  {path | ∃ above, above ≠ [] ∧ above <+: parts ∧ path = done ++ above}

theorem along_nil (done : Path) : along done [] = ∅ := by
  ext path
  constructor
  · rintro ⟨above, filled, part, -⟩
    exact filled (List.prefix_nil.mp part)
  · exact False.elim

theorem along_cons (done : Path) (part : Name) (parts : Path) :
    along done (part :: parts) = {done ++ [part]} ∪ along (done ++ [part]) parts := by
  ext path
  constructor
  · rintro ⟨above, filled, inside, rfl⟩
    cases above with
    | nil => exact absurd rfl filled
    | cons first rest =>
        obtain ⟨rfl, below⟩ := List.cons_prefix_cons.mp inside
        by_cases last : rest = []
        · exact .inl (by rw [last]; rfl)
        · exact .inr ⟨rest, last, below, by simp⟩
  · rintro (same | ⟨above, filled, inside, rfl⟩)
    · rw [Set.mem_singleton_iff.mp same]
      exact ⟨[part], List.cons_ne_nil _ _, by simp, rfl⟩
    · exact ⟨part :: above, List.cons_ne_nil _ _, List.cons_prefix_cons.mpr ⟨rfl, inside⟩, by simp⟩

/-- The parts are made from the top down. The induction is on the parts that are left. -/
theorem ensured_parts (fs : Fs) (path : Text) (parts : Path) :
    ∀ (system : System) (done : Path), system.WellFormed →
      (∀ name ∈ done ++ parts, CleanName name) →
      ∃ shell scripts after,
        system.perform (fs.ensureEach (spelled done) parts) = some (shell, after) ∧
        system.perform (fs.mkdirParts path (spelled done) parts) = some (.ok scripts, after) ∧
        fs.Ensured system (along done parts) shell scripts after := by
  induction parts with
  | nil =>
      intro system done wellFormed clean
      rw [along_nil]
      exact ⟨.ok (), .ok (), system, rfl, rfl, ensured_kept wellFormed fun _ member => member.elim⟩
  | cons part parts ih =>
      intro system done wellFormed clean
      have filled : done ++ [part] ≠ [] := by simp
      have cleanHere : ∀ name ∈ done ++ [part], CleanName name := by
        intro name member
        apply clean name
        rw [List.append_cons]
        exact List.mem_append_left _ member
      have cleanLater : ∀ name ∈ done ++ [part] ++ parts, CleanName name := by
        rwa [← List.append_cons]
      obtain ⟨shell, scripts, middle, ran, ranScripts, first, -⟩ :=
        ensured_part fs wellFormed cleanHere filled path
      rw [joinAbsolute_eq_spelled filled, spelled_concat] at ran ranScripts
      rw [along_cons]
      unfold Fs.ensureEach Fs.mkdirParts
      dsimp only
      rw [System.perform_bind_ok ranScripts]
      cases shell with
      | ok _ =>
          obtain rfl := first.same.mpr rfl
          obtain ⟨shell, scripts, after, rest, restScripts, second⟩ :=
            ih middle (done ++ [part]) first.wellFormed cleanLater
          rw [spelled_concat] at rest restScripts
          rw [System.perform_bind_ok ran]
          exact ⟨shell, scripts, after, rest, restScripts, first.trans second⟩
      | error error =>
          cases scripts with
          | ok _ => cases first.same.mp rfl
          | error failure =>
              rw [System.perform_bind_error ran]
              exact ⟨_, _, middle, rfl, rfl, first.stop⟩

theorem mem_spelled {symbol : Char} :
    symbol ∈ spelled names ↔ ∃ name ∈ names, symbol = '/' ∨ symbol ∈ name := by
  unfold spelled
  simp [List.mem_flatMap]

/-- A path above one that passes the check passes it too. -/
theorem passes_above {above : Path} (inside : above <+: names) (filled : above ≠ [])
    (clean : ∀ name ∈ names, CleanName name) (passes : fs.PathPasses (joinAbsolute names)) :
    fs.PathPasses (joinAbsolute above) := by
  have cleanAbove : ∀ name ∈ above, CleanName name := fun name member =>
    clean name (inside.subset member)
  have filledNames : names ≠ [] := by
    intro empty
    rw [empty] at inside
    exact filled (List.prefix_nil.mp inside)
  unfold Fs.PathPasses at passes ⊢
  rw [filter_splitOn_joinAbsolute clean, joinAbsolute_eq_spelled filledNames] at passes
  rw [filter_splitOn_joinAbsolute cleanAbove, joinAbsolute_eq_spelled filled]
  obtain ⟨free, shallow⟩ := not_or.mp passes
  apply not_or.mpr
  constructor
  · intro member
    obtain ⟨name, named, symbol⟩ := mem_spelled.mp member
    exact free (mem_spelled.mpr ⟨name, inside.subset named, symbol⟩)
  · have shorter := inside.length_le
    omega

/-- Every directory above a directory stands. -/
theorem Stands.above {above : Path} (inside : above <+: names) (filled : above ≠ [])
    (clean : ∀ name ∈ names, CleanName name) (stands : fs.Stands system names) :
    fs.Stands system above := by
  obtain ⟨rest, rfl⟩ := inside
  refine ⟨passes_above (List.prefix_append _ _) filled clean stands.passes, ?_, ?_⟩
  · cases above with
    | nil => exact absurd rfl filled
    | cons first above => exact stands.outside
  · by_cases last : rest = []
    · rw [last] at stands
      simpa using stands.directory
    · cases above with
      | nil => exact absurd rfl filled
      | cons mount above =>
          have directory := stands.directory
          have mounted : system.vfs.mounts.get mount ≠ none := by
            intro missing
            have absent : system.view (mount :: above ++ rest) = none := if_pos missing
            rw [absent] at directory
            cases directory
          rw [List.cons_append, System.view_mounted mounted] at directory
          rw [System.view_mounted mounted]
          exact shown_of_longer (directory ▸ Option.some_ne_none _) last

theorem stat_passes {path : Text} {metadata : Metadata}
    (known : system.perform (fs.stat path) = some (.ok metadata, system)) :
    fs.PathPasses (fs.resolve path) := by
  by_contra blocked
  unfold Fs.stat at known
  dsimp only at known
  rw [System.perform_checkPath_bind, if_neg blocked] at known
  cases known

/-- A directory that `stat` finds outside the commands stands. -/
theorem stands_of_stat (wellFormed : system.WellFormed) {path : Text} {metadata : Metadata}
    (known : system.perform (fs.stat path) = some (.ok metadata, system))
    (directory : metadata.fileType = .directory) (outside : fs.resolve path ≠ binDirectory) :
    fs.Stands system (fs.names path) := by
  obtain ⟨found, ran, kinds, -⟩ :
      ∃ found, system.perform (fs.stat path) = some (found, system) ∧ _ ∧ _ := perform_stat wellFormed
  obtain rfl := (Prod.mk.inj (Option.some.inj (known.symm.trans ran))).1
  have kind := kinds metadata rfl
  rw [directory] at kind
  have free : (fs.names path).head? ≠ some binName := by
    intro top
    unfold System.kindAt at kind
    rw [if_pos top] at kind
    by_cases whole : fs.names path = [binName]
    · exact outside ((resolve_eq_binDirectory path).mpr whole)
    · rw [if_neg whole] at kind
      cases kind
  have passes := stat_passes known
  rw [resolve_names] at passes
  exact ⟨passes, free, view_of_kindAt free kind⟩

end Parts

variable {fs : Fs} {system : System}

theorem trimStartMatches_slash {text : Text} (free : text.head? ≠ some '/') :
    trimStartMatches ['/'] ('/' :: text) = text := by
  have stops : ¬ (['/'] ≠ [] ∧ ['/'] <+: text) := by
    rintro ⟨-, rest, rfl⟩
    exact free rfl
  have goes : ['/'] ≠ [] ∧ ['/'] <+: '/' :: text := ⟨by decide, text, rfl⟩
  rw [trimStartMatches, if_pos goes]
  change trimStartMatches ['/'] text = text
  rw [trimStartMatches, if_neg stops]

theorem mkdirParts_resolved (path : Text) :
    fs.mkdirRecursive path = fs.mkdirParts path [] (fs.names path) := by
  have clean : ∀ name ∈ fs.names path, CleanName name := names_clean path
  unfold Fs.mkdirRecursive
  dsimp only
  by_cases root : fs.resolve path = ['/']
  · rw [if_pos root, (resolve_eq_root path).mp root]
    rfl
  · have filled := mt (resolve_eq_root path).mpr root
    have free : (['/'].intercalate (fs.names path)).head? ≠ some '/' := by
      cases named : fs.names path with
      | nil => exact absurd named filled
      | cons first rest =>
          obtain ⟨symbols, -, -, slash⟩ := clean first (named ▸ List.mem_cons_self)
          cases first with
          | nil => exact absurd rfl symbols
          | cons symbol first =>
              have other : symbol ≠ '/' := fun same => slash (same ▸ List.mem_cons_self)
              cases rest with
              | nil => simpa using other
              | cons next rest => simpa [List.intercalate_cons_cons] using other
    rw [if_neg root, resolve_names, joinAbsolute, trimStartMatches_slash free,
      List.splitOn_intercalate '/' (fun name member => (clean name member).2.2.2) filled]

/-- The shell and the host of the scripts make the missing directories of a path and nothing else.
They succeed on the same paths, and they change nothing when the path is a directory. -/
theorem mkdirP_minimal (wellFormed : system.WellFormed) (path : Text) :
    ∃ shell scripts after,
      system.perform (fs.mkdirP path) = some (shell, after) ∧
      system.perform (fs.mkdirRecursive path) = some (.ok scripts, after) ∧
      (scripts = .ok () ↔ shell = .ok ()) ∧
      (∀ metadata, system.perform (fs.stat path) = some (.ok metadata, system) →
        metadata.fileType = .directory → fs.resolve path ≠ binDirectory →
          shell = .ok () ∧ after = system) ∧
      (fs.resolve path = binDirectory → shell ≠ .ok () ∧ after = system) ∧
      (shell = .ok () → Made system after {above | above <+: fs.names path} ∧
        ∀ above, above <+: fs.names path → after.view above = some .directory) := by
  have clean : ∀ name ∈ fs.names path, CleanName name := names_clean path
  obtain ⟨shell, scripts, after, ran, ranScripts, ensured⟩ :=
    ensured_parts fs path (fs.names path) system [] wellFormed clean
  have whole : fs.mkdirP path = fs.ensureEach (spelled []) (fs.names path) := by
    unfold Fs.mkdirP
    rw [resolve_names, filter_splitOn_joinAbsolute clean]
    rfl
  rw [whole, mkdirParts_resolved]
  refine ⟨shell, scripts, after, ran, ranScripts, ensured.same, ?_, ?_, ?_⟩
  · intro metadata known directory outside
    have stands := stands_of_stat wellFormed known directory outside
    apply ensured.present
    rintro other ⟨above, filled, inside, rfl⟩
    exact stands.above inside filled clean
  · intro bin
    have names := (resolve_eq_binDirectory path).mp bin
    rw [names] at ran clean
    obtain ⟨shell', scripts', after', part, -, ensured', failed⟩ :=
      ensured_part fs wellFormed clean (List.cons_ne_nil _ _) path
    rw [joinAbsolute_eq_spelled (List.cons_ne_nil _ _)] at part
    have step : fs.ensureEach (spelled []) [binName] =
        fs.ensureDirectory (spelled [binName]) >>= fun _ => pure () := rfl
    rw [step] at ran
    cases shell' with
    | ok _ =>
        have directory := (ensured'.made rfl).2 [binName] rfl
        rw [System.view_bin] at directory
        cases directory
    | error error =>
        rw [System.perform_bind_error part] at ran
        obtain ⟨rfl, rfl⟩ := Prod.mk.inj (Option.some.inj ran)
        exact ⟨nofun, failed error rfl⟩
  · intro succeeded
    obtain ⟨made, directories⟩ := ensured.made succeeded
    constructor
    · apply made.congr
      intro other filled
      constructor
      · rintro ⟨above, _, inside, rfl⟩
        exact inside
      · intro inside
        exact ⟨other, filled, inside, rfl⟩
    · intro above inside
      by_cases filled : above = []
      · rw [filled]
        rfl
      · exact directories above ⟨above, filled, inside, rfl⟩

/-- A directory that is there is left alone. -/
theorem mkdirP_beside : beside.WellFormed ∧ ∃ shell,
    beside.perform (besideFs.mkdirP "/w/d".toList) = some (shell, beside) ∧ shell = .ok () := by
  apply And.intro beside_wellFormed
  obtain ⟨shell, scripts, after, ran, -, -, kept, -⟩ :=
    @mkdirP_minimal besideFs beside beside_wellFormed "/w/d".toList
  obtain ⟨found, known, -, -⟩ :
      ∃ found, beside.perform (besideFs.stat "/w/d".toList) = some (found, beside) ∧ _ ∧ _ :=
    perform_stat beside_wellFormed
  have result : (beside.perform (besideFs.stat "/w/d".toList)).map Prod.fst =
      some (.ok { fileType := .directory, len := 0 }) := by decide +kernel
  rw [known] at result
  obtain rfl := Option.some.inj result
  obtain ⟨succeeded, rfl⟩ := kept _ known rfl (by decide)
  exact ⟨shell, ran, succeeded⟩

/-- The directory of commands is a directory, and making it fails. -/
theorem mkdirP_bin : beside.WellFormed ∧
    beside.perform (besideFs.stat binDirectory) =
      some (.ok { fileType := .directory, len := 0 }, beside) ∧
    beside.perform (besideFs.mkdirP binDirectory) = some (.error .EACCES, beside) :=
  ⟨beside_wellFormed, rfl, rfl⟩

end Fs

end Sandbox

end TinySandbox
