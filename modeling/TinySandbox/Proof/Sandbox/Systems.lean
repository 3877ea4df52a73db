/-
This file shows what the calls of a recursive removal do to a whole system of mounts.
Every call depends on its path only through the names that the path resolves to.
-/

import TinySandbox.Construction.Sandbox.System
import TinySandbox.Proof.Mem.Names
import TinySandbox.Proof.Mem.Removal
import TinySandbox.Proof.Sandbox.Resolution

namespace TinySandbox.Sandbox
open Library Library.Task Library.Call DirectoryTree Mem Mounted

/-- The name of the directory of commands. -/
def binName : Name := ['b', 'i', 'n']

namespace System

/-- The tree that the mounts show together. The directory of commands is not a part of it. -/
def view (system : System) : Path → Option (Entry Bytes)
  | [] => some .directory
  | mount :: rest =>
      if system.vfs.mounts.get mount = none then none
      else (system.backends mount).state.flat.shown rest

/-- Every backend keeps its invariant, and its paths have valid names. -/
structure WellFormed (system : System) : Prop where
  invariant : ∀ mount, Invariant (system.backends mount).quota (system.backends mount).state
  named : ∀ mount path, (system.backends mount).state.flat.shown path ≠ none →
    ∀ name ∈ path, ValidName name

/-- Backends that come from runs make a system that is as it should be. -/
theorem wellFormed_of_runs {system : System} (reached : ∀ mount, ∃ quotas actions replies world,
    (World.new quotas).run actions = some (replies, world) ∧
      system.backends mount ∈ world.filesystems) : system.WellFormed := by
  constructor
  case invariant =>
      intro mount
      obtain ⟨quotas, actions, replies, world, ran, member⟩ := reached mount
      exact (World.run_sound ran).filesystems _ member
  case named =>
      intro mount path present
      obtain ⟨quotas, actions, replies, world, ran, member⟩ := reached mount
      exact (World.run_named ran).filesystems _ member path (mt shown_eq_none_iff.mpr present)

/-- A removal leaves the system alone, or it removes the path alone. -/
def Removes (system : System) (names : Path) (reached : Option (VfsResult Unit × System)) : Prop :=
  ∃ result after, reached = some (result, after) ∧ after.WellFormed ∧
    (∀ error, result = .error error → after = system) ∧
    (result = .ok () → Removed system.view after.view names)

section Calls
variable {system : System} {names : Path}

theorem removes_error (wellFormed : system.WellFormed) (error : Errno) :
    system.Removes names (some (.error error, system)) :=
  ⟨_, system, rfl, wellFormed, fun _ _ => rfl, nofun⟩

theorem mountedPath_root (vfs : MountedVfs) : vfs.mountedPath (joinAbsolute []) = .ok none := rfl

/-- A path with valid names lacks its mount, or leads into it. -/
theorem mountedPath_cons (vfs : MountedVfs) {mount : Name} {rest : Path}
    (normal : NormalPath (mount :: rest)) :
    vfs.mountedPath (joinAbsolute (mount :: rest)) =
      if vfs.mounts.get mount = none then .error .ENOENT
      else .ok (some { mount, inner := joinAbsolute rest, atMount := rest = [] }) := by
  unfold MountedVfs.mountedPath
  rw [normalizePath_joinAbsolute normal]
  have inner : (if rest = [] then ['/'] else joinAbsolute rest) = joinAbsolute rest := by
    split
    · next empty => rw [empty]; rfl
    · rfl
  change (if _ then _ else Except.ok (some (MountedPath.mk mount (if _ then _ else _) _))) = _
  rw [inner]

theorem normal_tail {mount : Name} {rest : Path} (normal : NormalPath (mount :: rest)) :
    NormalPath rest where
  depth := (Nat.le_succ _).trans normal.depth
  valid := fun name member => normal.valid name (List.mem_cons_of_mem _ member)

/-- The system after one backend moved on. -/
def put (system : System) (mount : Name) (state : Mem.State) : System :=
  { system with
    backends := Function.update system.backends mount { system.backends mount with state } }

theorem put_self (system : System) (mount : Name) :
    system.put mount (system.backends mount).state = system := by
  unfold put
  rw [Function.update_eq_self]

theorem put_backend (system : System) (mount other : Name) (state : Mem.State) :
    (system.put mount state).backends other =
      if other = mount then { system.backends mount with state } else system.backends other :=
  Function.update_apply _ _ _ _

/-- A call into a mount is the call of its backend, and the other mounts stay as they were. -/
theorem route_forward (system : System) (mount : Name) (call : VfsCall) :
    system.route (MountedVfs.forward mount call) =
      (outcome (call.perform (system.backends mount).quota system.arcs)
        (system.backends mount).state).map fun reached =>
          (reached.1, system.put mount reached.2) := by
  unfold route MountedVfs.forward
  rw [Task.serve_bind, serve_request]
  unfold callBackend put
  dsimp only
  cases outcome (call.perform (system.backends mount).quota system.arcs)
      (system.backends mount).state with
  | none => rfl
  | some reached => rfl

theorem route_lift_bind {α β : Type} (system : System) (result : VfsResult α)
    (next : α → MountTask β) :
    system.route (lift result >>= next) =
      match result with
      | .ok value => system.route (next value)
      | .error error => some (.error error, system) := by
  cases result with
  | ok value => rfl
  | error error => rfl

theorem WellFormed.put (wellFormed : system.WellFormed) {mount : Name} {state : Mem.State}
    (invariant : Invariant (system.backends mount).quota state)
    (shown : ∀ path, state.flat.shown path ≠ none →
      (system.backends mount).state.flat.shown path ≠ none) :
    (system.put mount state).WellFormed := by
  constructor
  case invariant =>
      intro other
      rw [put_backend]
      split
      · exact invariant
      · exact wellFormed.invariant other
  case named =>
      intro other path
      rw [put_backend]
      split
      · exact fun present => wellFormed.named mount path (shown path present)
      · exact wellFormed.named other path

/-- A removal inside a mount is a removal from the tree of all mounts. -/
theorem removes_put (wellFormed : system.WellFormed) {mount : Name} {rest : Path}
    (mounted : system.vfs.mounts.get mount ≠ none) {call : Option (VfsResult Unit × Mem.State)}
    (removes : Mem.Removes (system.backends mount).quota (system.backends mount).state rest call) :
    system.Removes (mount :: rest)
      (call.map fun reached => (reached.1, system.put mount reached.2)) := by
  obtain ⟨result, after, same, invariant, failed, removed⟩ := removes
  subst same
  refine ⟨result, system.put mount after, rfl, ?_, ?_, ?_⟩
  · cases result with
    | error error =>
        rw [failed error rfl, put_self]
        exact wellFormed
    | ok _ =>
        apply wellFormed.put invariant
        intro path present
        have gone := removed rfl
        by_cases here : path = rest
        · rw [here]
          exact gone.present
        · rwa [← gone.others path here]
  · intro error failure
    rw [failed error failure, put_self]
  · intro succeeded
    have gone := removed succeeded
    have views (other : Name) (path : Path) : (system.put mount after).view (other :: path) =
        if other = mount then after.flat.shown path else system.view (other :: path) := by
      change (if system.vfs.mounts.get other = none then none else
        ((system.put mount after).backends other).state.flat.shown path) = _
      rw [put_backend]
      by_cases here : other = mount
      · rw [here, if_neg mounted, if_pos rfl, if_pos rfl]
      · rw [if_neg here, if_neg here]
        rfl
    have views' (path : Path) : system.view (mount :: path) =
        (system.backends mount).state.flat.shown path := if_neg mounted
    constructor
    case present => rw [views']; exact gone.present
    case single =>
        intro below proper
        rw [List.cons_append, views']
        exact gone.single below proper
    case gone => rw [views, if_pos rfl]; exact gone.gone
    case others =>
        intro other different
        cases other with
        | nil => rfl
        | cons first path =>
            rw [views]
            split
            · next here =>
                rw [here] at different ⊢
                rw [views']
                exact gone.others path fun same => different (congrArg _ same)
            · rfl

theorem call_unlink (wellFormed : system.WellFormed) (normal : NormalPath names) :
    system.Removes names (system.call (.unlink (joinAbsolute names))) := by
  change system.Removes names (system.route (system.vfs.unlink (joinAbsolute names)))
  unfold MountedVfs.unlink
  cases names with
  | nil =>
      rw [mountedPath_root]
      exact removes_error wellFormed .EISDIR
  | cons mount rest =>
      rw [mountedPath_cons system.vfs normal, route_lift_bind]
      by_cases missing : system.vfs.mounts.get mount = none
      · rw [if_pos missing]
        exact removes_error wellFormed .ENOENT
      · rw [if_neg missing]
        dsimp only
        split
        · exact removes_error wellFormed .EISDIR
        · rw [route_forward]
          exact removes_put wellFormed missing
            (unlink_removes (wellFormed.invariant mount) (normal_tail normal))

theorem call_rmdir (wellFormed : system.WellFormed) (normal : NormalPath names) :
    system.Removes names (system.call (.rmdir (joinAbsolute names))) := by
  change system.Removes names (system.route (system.vfs.rmdir (joinAbsolute names)))
  unfold MountedVfs.rmdir
  cases names with
  | nil =>
      rw [mountedPath_root]
      exact removes_error wellFormed .EBUSY
  | cons mount rest =>
      rw [mountedPath_cons system.vfs normal, route_lift_bind]
      by_cases missing : system.vfs.mounts.get mount = none
      · rw [if_pos missing]
        exact removes_error wellFormed .ENOENT
      · rw [if_neg missing]
        dsimp only
        split
        · exact removes_error wellFormed .EBUSY
        · rw [route_forward]
          exact removes_put wellFormed missing
            (rmdir_removes (wellFormed.invariant mount) (normal_tail normal))

theorem view_mounted {mount : Name} (mounted : system.vfs.mounts.get mount ≠ none) (rest : Path) :
    system.view (mount :: rest) = (system.backends mount).state.flat.shown rest := if_neg mounted

theorem WellFormed.shown_root (wellFormed : system.WellFormed) (mount : Name) :
    (system.backends mount).state.flat.shown [] = some .directory := by
  unfold FlatFs.shown
  change ((system.backends mount).state.root.view []).map _ = _
  rw [view_nil, (wellFormed.invariant mount).rootDirectory]
  rfl

/-- A mount has the name of a path, and it is not the directory of commands. -/
theorem mount_valid (vfs : MountedVfs) {mount : Name} (mounted : vfs.mounts.get mount ≠ none) :
    ValidName mount ∧ mount ≠ binName := by
  obtain ⟨value, found⟩ := Option.ne_none_iff_exists'.mp mounted
  have checked := vfs.valid _ (Entries.mem_of_get found)
  unfold validateMountName at checked
  split at checked
  · cases checked
  · next passed =>
      simp only [not_or] at passed
      obtain ⟨filled, dot, dots, bin, slash, nul⟩ := passed
      exact ⟨⟨filled, dot, dots, slash, nul⟩, bin⟩

theorem view_bin (system : System) (rest : Path) : system.view (binName :: rest) = none := by
  change (if _ then _ else _) = _
  split
  · rfl
  · next mounted => exact absurd rfl (mount_valid system.vfs mounted).2

/-- What is shown has a path of valid names outside the directory of commands. -/
theorem WellFormed.valid_of_view (wellFormed : system.WellFormed) (named : system.view names ≠ none) :
    (∀ name ∈ names, ValidName name) ∧ names.head? ≠ some binName := by
  cases names with
  | nil => exact ⟨by simp, by simp⟩
  | cons mount rest =>
      have mounted : system.vfs.mounts.get mount ≠ none := fun missing => named (if_pos missing)
      obtain ⟨valid, outside⟩ := mount_valid system.vfs mounted
      rw [view_mounted mounted] at named
      constructor
      · intro name member
        rcases List.mem_cons.mp member with first | inside
        · rwa [first]
        · exact wellFormed.named mount rest named name inside
      · exact fun same => outside (Option.some.inj same)

/-- The metadata of a path has the kind of what the path shows. -/
theorem call_stat (wellFormed : system.WellFormed) (normal : NormalPath names) :
    ∃ result, system.call (.stat (joinAbsolute names)) = some (result, system) ∧
      (∀ shown, system.view names = some shown →
        ∃ metadata, result = .ok metadata ∧ metadata.fileType = kindOf shown) ∧
      (system.view names = none → ∃ error, result = .error error) := by
  change ∃ result, system.route (system.vfs.stat (joinAbsolute names)) = _ ∧ _
  unfold MountedVfs.stat
  cases names with
  | nil =>
      rw [mountedPath_root]
      apply Exists.intro (.ok directoryMetadata)
      apply And.intro rfl
      apply And.intro
      · intro shown same
        rw [← Option.some.inj same]
        exact ⟨_, rfl, rfl⟩
      · exact nofun
  | cons mount rest =>
      rw [mountedPath_cons system.vfs normal, route_lift_bind]
      by_cases missing : system.vfs.mounts.get mount = none
      · rw [if_pos missing]
        apply Exists.intro (.error .ENOENT)
        apply And.intro rfl
        have empty : system.view (mount :: rest) = none := if_pos missing
        rw [empty]
        exact ⟨nofun, fun _ => ⟨_, rfl⟩⟩
      · rw [if_neg missing, view_mounted missing]
        obtain ⟨result, ran, shows⟩ := stat_shows (wellFormed.invariant mount) (normal_tail normal)
        apply Exists.intro result
        constructor
        · change system.route (MountedVfs.forward mount (.stat (joinAbsolute rest))) = _
          rw [route_forward]
          change Option.map _ (outcome (Mem.stat _) _) = _
          rw [ran]
          change some (result, system.put mount _) = _
          rw [put_self]
        · exact shows

/-- A listing has every name once, with the kind of what the name shows. -/
theorem call_readdir (wellFormed : system.WellFormed) (normal : NormalPath names) :
    ∃ result, system.call (.readdir (joinAbsolute names)) = some (result, system) ∧
      ∀ entries, result = .ok entries → system.view names = some .directory ∧
        (entries.map DirEntry.name).Nodup ∧
        ∀ entry ∈ entries, ∃ shown, system.view (names ++ [entry.name]) = some shown ∧
          entry.metadata.fileType = kindOf shown := by
  change ∃ result, system.route (system.vfs.readdir (joinAbsolute names)) = _ ∧ _
  unfold MountedVfs.readdir
  cases names with
  | nil =>
      rw [mountedPath_root]
      apply Exists.intro
      apply And.intro rfl
      intro entries same
      rw [← Except.ok.inj same, List.map_map]
      refine ⟨rfl, ?_, ?_⟩
      · have strict : (system.vfs.mounts.entries.map Prod.fst).Pairwise (· < ·) :=
          List.pairwise_map.mpr system.vfs.mounts.sorted
        exact strict.imp ne_of_lt
      · intro entry member
        obtain ⟨⟨mount, value⟩, stored, rfl⟩ := List.mem_map.mp member
        have found : system.vfs.mounts.get mount = some value :=
          (system.vfs.mounts.mem_iff_get mount value).mp stored
        apply Exists.intro .directory
        constructor
        · change system.view [mount] = _
          rw [view_mounted (by rw [found]; exact nofun), wellFormed.shown_root]
        · rfl
  | cons mount rest =>
      rw [mountedPath_cons system.vfs normal, route_lift_bind]
      by_cases missing : system.vfs.mounts.get mount = none
      · rw [if_pos missing]
        exact ⟨.error .ENOENT, rfl, nofun⟩
      · rw [if_neg missing, view_mounted missing]
        obtain ⟨result, ran, lists⟩ := readdir_shows (wellFormed.invariant mount) (normal_tail normal)
        apply Exists.intro result
        constructor
        · change system.route (MountedVfs.forward mount (.readdir (joinAbsolute rest))) = _
          rw [route_forward]
          change Option.map _ (outcome (Mem.readdir _) _) = _
          rw [ran]
          change some (result, system.put mount _) = _
          rw [put_self]
        · intro entries same
          obtain ⟨directory, once, kinds⟩ := lists entries same
          apply And.intro directory
          apply And.intro once
          intro entry member
          rw [List.cons_append, view_mounted missing]
          exact kinds entry member

end Calls

/-- A sequence goes on in the system that its first task leaves, up to the first error. -/
theorem perform_bind {α β : Type} (system : System) (task : FsTask α) (next : α → FsTask β) :
    system.perform (task >>= next) =
      (system.perform task).bind fun reached =>
        match reached.1 with
        | .ok value => reached.2.perform (next value)
        | .error error => some (.error error, reached.2) := by
  change settle respond (task >>= next) system = _
  rw [settle_bind]
  change (system.perform task).bind _ = _
  congr 1
  funext reached
  obtain ⟨result, after⟩ := reached
  cases result with
  | ok value => rfl
  | error error => rfl

theorem perform_bind_ok {α β : Type} {system after : System} {task : FsTask α}
    {next : α → FsTask β} {value : α} (performed : system.perform task = some (.ok value, after)) :
    system.perform (task >>= next) = after.perform (next value) := by
  rw [perform_bind, performed]
  rfl

theorem perform_bind_error {α β : Type} {system after : System} {task : FsTask α}
    {next : α → FsTask β} {error : Errno}
    (performed : system.perform task = some (.error error, after)) :
    system.perform (task >>= next) = some (.error error, after) := by
  rw [perform_bind, performed]
  rfl

theorem perform_refuse (system : System) (condition : Prop) [Decidable condition] (error : Errno) :
    system.perform (refuse condition error) =
      some (if condition then .error error else .ok ⟨⟩, system) :=
  settle_refuse condition error

theorem perform_refuse_bind {α : Type} (system : System) (condition : Prop) [Decidable condition]
    (error : Errno) (next : PUnit → FsTask α) :
    system.perform (refuse condition error >>= next) =
      if condition then some (.error error, system) else system.perform (next ⟨⟩) :=
  settle_refuse_bind condition error next

theorem perform_attempt {α : Type} {system after : System} {task : FsTask α}
    {result : VfsResult α} (performed : system.perform task = some (result, after)) :
    system.perform (attempt task) = some (.ok result, after) :=
  settle_attempt performed

theorem perform_vfs (system : System) (call : VfsCall) :
    system.perform (Fs.vfs call) = system.call call := by
  unfold perform Fs.vfs
  rw [serve_bind, serve_request]
  change Option.map _ (((system.call call).map _).bind _) = _
  cases system.call call with
  | none => rfl
  | some reached => rfl

section Operations
variable (system : System) (fs : Fs)

theorem perform_check : system.perform fs.check = some (.ok (), system) := by
  unfold Fs.check Fs.isCancelled
  cases fs.controlled with
  | true => rfl
  | false => rfl

theorem perform_checkPath (path : Text) :
    system.perform (fs.checkPath path) =
      some (if fs.PathPasses path then .ok () else .error .EINVAL, system) := by
  unfold Fs.checkPath
  rw [perform_bind_ok (system.perform_check fs), perform_refuse, ite_not]

theorem perform_checkPath_bind {α : Type} (path : Text) (next : Unit → FsTask α) :
    system.perform (fs.checkPath path >>= next) =
      if fs.PathPasses path then system.perform (next ()) else some (.error .EINVAL, system) := by
  have checked := system.perform_checkPath fs path
  by_cases passes : fs.PathPasses path
  · rw [if_pos passes] at checked ⊢
    exact perform_bind_ok checked
  · rw [if_neg passes] at checked ⊢
    exact perform_bind_error checked

theorem perform_dispatchPath {α : Type} (path : Text) (operation : FsTask α) :
    system.perform (fs.dispatchPath path operation) =
      if fs.PathPasses path then system.perform operation else some (.error .EINVAL, system) := by
  unfold Fs.dispatchPath
  rw [perform_checkPath_bind]
  congr 1
  exact perform_bind_ok (system.perform_check fs)

theorem perform_change (path : Text) (operation : Text → FsTask Unit) :
    system.perform (fs.change path operation) =
      if ¬ fs.PathPasses (fs.resolve path) then some (.error .EINVAL, system)
      else if isBinPath (fs.resolve path) = true then some (.error .EACCES, system)
      else system.perform (operation (fs.resolve path)) := by
  unfold Fs.change
  dsimp only
  rw [perform_checkPath_bind, perform_refuse_bind, perform_dispatchPath, ite_not]
  by_cases passes : fs.PathPasses (fs.resolve path)
  · rw [if_pos passes, if_pos passes, if_pos passes]
  · rw [if_neg passes, if_neg passes]

end Operations

end System

/-- These are the names that a path resolves to. -/
def Fs.names (fs : Fs) (path : Text) : Path := absoluteNames (fs.absolute path)

/-- The kind that a listing gives to a path. Whatever stands among the commands is a file. -/
def System.kindAt (system : System) (names : Path) : Option FileType :=
  if names.head? = some binName then some (if names = [binName] then .directory else .file)
  else (system.view names).map kindOf

namespace Fs
variable {fs : Fs} {system : System} {path : Text}

/-- No call but a listing of the commands looks at such a path. -/
def Refuses (fs : Fs) (names : Path) : Prop :=
  ¬ fs.PathPasses (joinAbsolute names) ∨ names.head? = some binName ∧ names ≠ [binName]

theorem names_clean (path : Text) : ∀ name ∈ fs.names path, CleanName name :=
  absoluteNames_clean _

theorem resolve_names (path : Text) : fs.resolve path = joinAbsolute (fs.names path) :=
  normalizeAbsolute_eq _

theorem resolve_isBinPath (path : Text) :
    isBinPath (fs.resolve path) = true ↔ (fs.names path).head? = some binName := by
  rw [resolve_names, isBinPath_joinAbsolute (names_clean path)]
  rfl

theorem resolve_eq_binDirectory (path : Text) :
    fs.resolve path = binDirectory ↔ fs.names path = [binName] := by
  rw [resolve_names]
  constructor
  · intro same
    rw [← absoluteNames_joinAbsolute (names_clean path), same]
    decide
  · intro same
    rw [same]
    decide

theorem resolve_eq_root (path : Text) : fs.resolve path = ['/'] ↔ fs.names path = [] := by
  rw [resolve_names]
  constructor
  · intro same
    rw [← absoluteNames_joinAbsolute (names_clean path), same]
    decide
  · intro same
    rw [same]
    decide

theorem binPrefix_resolve (path : Text) :
    binPrefix <+: fs.resolve path ↔
      (fs.names path).head? = some binName ∧ fs.names path ≠ [binName] := by
  rw [← resolve_isBinPath, Ne, ← resolve_eq_binDirectory]
  unfold isBinPath
  rw [decide_eq_true_iff]
  constructor
  · intro below
    apply And.intro (.inr below)
    intro same
    rw [same] at below
    exact absurd below (by decide)
  · intro both
    exact both.1.resolve_left both.2

section Calls
variable (wellFormed : system.WellFormed)
include wellFormed

/-- A removal of what the sandbox lets go is a removal by the backend. -/
theorem perform_change_removes {operation : Text → FsTask Unit}
    (removes : NormalPath (fs.names path) →
      system.Removes (fs.names path) (system.perform (operation (fs.resolve path)))) :
    system.Removes (fs.names path) (system.perform (fs.change path operation)) := by
  rw [System.perform_change]
  split
  · exact System.removes_error wellFormed .EINVAL
  · next passes =>
      split
      · exact System.removes_error wellFormed .EACCES
      · rw [resolve_names, not_not] at passes
        exact removes (normal_of_passes (names_clean path) passes).1

theorem perform_unlink : system.Removes (fs.names path) (system.perform (fs.unlink path)) := by
  apply perform_change_removes wellFormed
  intro normal
  rw [System.perform_vfs, resolve_names]
  exact System.call_unlink wellFormed normal

theorem perform_rmdir : system.Removes (fs.names path) (system.perform (fs.rmdir path)) := by
  apply perform_change_removes wellFormed
  intro normal
  rw [System.perform_vfs, resolve_names]
  exact System.call_rmdir wellFormed normal

/-- The metadata of a path has the kind that a listing gives to it. -/
theorem perform_stat :
    ∃ result, system.perform (fs.stat path) = some (result, system) ∧
      (∀ metadata, result = .ok metadata →
        system.kindAt (fs.names path) = some metadata.fileType) ∧
      (∀ error, result = .error error →
        system.kindAt (fs.names path) = none ∨ fs.Refuses (fs.names path)) := by
  unfold Fs.stat Fs.binStat Fs.Refuses System.kindAt
  dsimp only
  rw [System.perform_checkPath_bind, ← resolve_names]
  by_cases passes : fs.PathPasses (fs.resolve path)
  · rw [if_pos passes]
    by_cases bin : fs.resolve path = binDirectory
    · have same := (resolve_eq_binDirectory path).mp bin
      rw [if_pos bin, same]
      exact ⟨_, rfl, fun metadata found => by rw [← Except.ok.inj found]; rfl, nofun⟩
    · rw [if_neg bin]
      by_cases below : binPrefix <+: fs.resolve path
      · have inside := (binPrefix_resolve path).mp below
        rw [if_pos below, if_pos inside.1, if_neg inside.2]
        by_cases registered : '/' ∉ (fs.resolve path).drop binPrefix.length ∧
            (fs.binCommands.get ((fs.resolve path).drop binPrefix.length)).isSome
        · rw [if_pos registered]
          exact ⟨_, rfl, fun metadata found => by rw [← Except.ok.inj found], nofun⟩
        · rw [if_neg registered]
          exact ⟨_, rfl, nofun, fun error _ => .inr (.inr inside)⟩
      · have outside : (fs.names path).head? ≠ some binName := by
          rw [Ne, ← resolve_isBinPath]
          unfold isBinPath
          rw [decide_eq_true_iff, not_or]
          exact ⟨bin, below⟩
        rw [if_neg below, if_neg outside]
        dsimp only
        rw [System.perform_dispatchPath, if_pos passes, System.perform_vfs, resolve_names]
        rw [resolve_names] at passes
        obtain ⟨result, ran, shows, fails⟩ :=
          System.call_stat wellFormed (normal_of_passes (names_clean path) passes).1
        apply Exists.intro result
        apply And.intro ran
        constructor
        · intro metadata same
          cases named : system.view (fs.names path) with
          | none =>
              obtain ⟨error, failed⟩ := fails named
              cases same.symm.trans failed
          | some shown =>
              obtain ⟨found, ok, kind⟩ := shows shown named
              rw [Except.ok.inj (same.symm.trans ok), kind]
              rfl
        · intro error same
          cases named : system.view (fs.names path) with
          | none => exact .inl rfl
          | some shown =>
              obtain ⟨found, ok, -⟩ := shows shown named
              cases same.symm.trans ok
  · rw [if_neg passes]
    exact ⟨_, rfl, nofun, fun error _ => .inr (.inl passes)⟩

end Calls

theorem perform_change_refused (refused : fs.Refuses (fs.names path))
    (operation : Text → FsTask Unit) :
    ∃ error, system.perform (fs.change path operation) = some (.error error, system) := by
  rw [System.perform_change]
  rcases refused with blocked | inside
  · rw [← resolve_names] at blocked
    exact ⟨_, if_pos blocked⟩
  · split
    · exact ⟨_, rfl⟩
    · exact ⟨_, if_pos ((resolve_isBinPath path).mpr inside.1)⟩

theorem perform_readdir_refused (refused : fs.Refuses (fs.names path)) :
    ∃ error, system.perform (fs.readdir path) = some (.error error, system) := by
  unfold Fs.readdir
  dsimp only
  rw [System.perform_checkPath_bind]
  rcases refused with blocked | inside
  · rw [← resolve_names] at blocked
    exact ⟨_, if_neg blocked⟩
  · split
    · have below := (binPrefix_resolve path).mpr inside
      have named : fs.names path ≠ [] := by
        intro empty
        rw [empty] at inside
        cases inside.1
      rw [if_neg (mt (resolve_eq_root path).mp named),
        if_neg (mt (resolve_eq_binDirectory path).mp inside.2), if_pos below]
      exact ⟨_, rfl⟩
    · exact ⟨_, rfl⟩

end Fs

end TinySandbox.Sandbox
