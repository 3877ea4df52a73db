/-
This file shows that a rename moves a whole subtree and agrees with the flat filesystem.
-/

import TinySandbox.Proof.Mem.PathAgreement

namespace TinySandbox.Mem
open Library Library.Call DirectoryTree

/-- A move takes a node out of one directory and stores it in another. -/
structure Move (root : Node) where
  sourceParent : Path
  sourceName : Name
  sourceEntries : Directory
  targetParent : Path
  targetName : Name
  targetEntries : Directory
  removed : Node
  sourceFound : root.at? sourceParent = some (.directory sourceEntries)
  present : Entries.get sourceName sourceEntries = some removed
  outside : ¬ sourceParent ++ [sourceName] <+: targetParent ++ [targetName]
  targetFound : (root.replace sourceParent
      (.directory (Entries.erase sourceName sourceEntries))).at? targetParent =
    some (.directory targetEntries)

namespace Move
variable {root : Node} (move : Move root)

def source : Path := move.sourceParent ++ [move.sourceName]

def target : Path := move.targetParent ++ [move.targetName]

/-- The tree between the two steps has lost the source. -/
def detached : Node :=
  root.replace move.sourceParent (.directory (Entries.erase move.sourceName move.sourceEntries))

def moved : Node :=
  move.detached.replace move.targetParent
    (.directory (Entries.insert move.targetName move.removed move.targetEntries))

theorem view_detached (path : Path) :
    move.detached.view path = if move.source <+: path then none else root.view path := by
  have shown := view_discard move.sourceFound move.sourceName path
  by_cases gone : move.source <+: path
  · rw [if_pos gone]
    exact shown.trans (if_pos gone)
  · rw [if_neg gone]
    exact shown.trans (if_neg gone)

theorem not_source_prefix_target : ¬ move.source <+: move.target := move.outside

theorem at?_source : root.at? move.source = some move.removed := by
  rw [source, at?_append, move.sourceFound, Option.bind_some, directory_at?_single, move.present]

/-- Every path below the target shows what stood below the source. -/
theorem view_below_target (rest : Path) :
    move.moved.view (move.target ++ rest) = root.view (move.source ++ rest) := by
  have shown := view_store move.targetFound move.targetName move.removed (move.target ++ rest)
  have tail : (move.target ++ rest).drop (move.targetParent.length + 1) = rest :=
    List.drop_left' (by simp [target])
  rw [tail] at shown
  rw [view_append root, move.at?_source, Option.bind_some]
  exact shown.trans (if_pos (List.prefix_append _ _))

/-- Every other path shows what it showed without the source. -/
theorem view_not_below_target {path : Path} (apart : ¬ move.target <+: path) :
    move.moved.view path = if move.source <+: path then none else root.view path := by
  have shown := view_store move.targetFound move.targetName move.removed path
  exact (shown.trans (if_neg apart)).trans (move.view_detached path)

theorem view_elsewhere {path : Path} (apart : ¬ move.target <+: path)
    (kept : ¬ move.source <+: path) : move.moved.view path = root.view path := by
  rw [view_not_below_target move apart, if_neg kept]

/-- What a path shows after the move stood at one path before. -/
theorem origin {path : Path} {value : Entry Inode} (named : move.moved.view path = some value) :
    (∃ rest, path = move.target ++ rest ∧ root.view (move.source ++ rest) = some value) ∨
      (¬ move.target <+: path ∧ ¬ move.source <+: path ∧ root.view path = some value) := by
  by_cases below : move.target <+: path
  · obtain ⟨rest, rfl⟩ := below
    rw [view_below_target] at named
    exact .inl ⟨rest, rfl, named⟩
  · by_cases gone : move.source <+: path
    · rw [view_not_below_target move below, if_pos gone] at named
      cases named
    · rw [view_elsewhere move below gone] at named
      exact .inr ⟨below, gone, named⟩

/-- The move changes the number of directories only by the replaced node. -/
theorem directories_moved (sorted : root.SortedTree) :
    move.moved.directories +
        ((Entries.get move.targetName move.targetEntries).map directories).getD 0 =
      root.directories := by
  have taken := directories_discardSingle sorted move.sourceFound move.present
  have order := sorted.replace move.sourceParent
    ((sorted.at? move.sourceFound).discard move.sourceName)
  have outer := directories_replace order move.targetFound
    (.directory (Entries.insert move.targetName move.removed move.targetEntries))
  have inner := directories_store (order _ _ move.targetFound) move.targetName move.removed
  simp only [moved, detached]
  omega

theorem wellRooted (tree : WellRooted root)
    (shallow : ∀ rest, root.view (move.source ++ rest) ≠ none →
      move.target.length + rest.length ≤ maxPathDepth) : WellRooted move.moved := by
  have order := tree.sortedRoot.replace move.sourceParent
    ((tree.sortedRoot.at? move.sourceFound).discard move.sourceName)
  constructor
  · have rooted : root.view [] = some .directory := by rw [view_nil, tree.rootDirectory]
    have named := move.view_elsewhere (by simp [target] : ¬ move.target <+: [])
      (by simp [source])
    rw [rooted, view_nil] at named
    exact Option.some.inj named
  · exact order.replace move.targetParent ((order.at? move.targetFound).store
      (tree.sortedRoot.at? move.at?_source) move.targetName)
  · intro path named
    obtain ⟨value, shown⟩ := Option.ne_none_iff_exists'.mp named
    rcases move.origin shown with ⟨rest, rfl, before⟩ | ⟨-, -, before⟩
    · rw [List.length_append]
      exact shallow rest (by simp [before])
    · exact tree.depth path (by simp [before])
  · intro first second inode left right
    rcases move.origin left with ⟨rest, rfl, before⟩ | ⟨-, kept, before⟩ <;>
      rcases move.origin right with ⟨other, rfl, earlier⟩ | ⟨-, alsoKept, earlier⟩
    · rw [List.append_cancel_left (tree.onePath _ _ inode before earlier)]
    · obtain rfl := tree.onePath _ _ inode before earlier
      exact absurd (List.prefix_append _ _) alsoKept
    · obtain rfl := tree.onePath _ _ inode before earlier
      exact absurd (List.prefix_append _ _) kept
    · exact tree.onePath _ _ inode before earlier

/-- The move loses only the file that the target named. -/
theorem remaining (tree : WellRooted root)
    (single : ∀ first rest, root.view (move.target ++ first :: rest) = none) (inode : Inode) :
    (∃ path, move.moved.view path = some (.file inode)) ↔
      (∃ path, root.view path = some (.file inode)) ∧ root.view move.target ≠ some (.file inode) := by
  constructor
  · rintro ⟨path, later⟩
    rcases move.origin later with ⟨rest, rfl, before⟩ | ⟨apart, -, before⟩
    · refine ⟨⟨_, before⟩, fun named => move.not_source_prefix_target ?_⟩
      rw [← tree.onePath _ _ inode before named]
      exact List.prefix_append _ _
    · refine ⟨⟨_, before⟩, fun named => apart ?_⟩
      rw [tree.onePath _ _ inode before named]
  · rintro ⟨⟨path, before⟩, different⟩
    by_cases below : move.source <+: path
    · obtain ⟨rest, rfl⟩ := below
      exact ⟨move.target ++ rest, by rw [view_below_target, before]⟩
    · refine ⟨path, ?_⟩
      rw [move.view_elsewhere ?_ below, before]
      rintro ⟨rest, rfl⟩
      cases rest with
      | nil =>
          rw [List.append_nil] at before
          exact different before
      | cons first rest =>
          rw [single] at before
          cases before

/-- The replaced node shows what the target named before. -/
theorem replaced_entry :
    (Entries.get move.targetName move.targetEntries).map entry = root.view move.target := by
  have shown := move.view_detached move.target
  rw [if_neg move.not_source_prefix_target] at shown
  rw [← shown, target, view_append, detached, move.targetFound, Option.bind_some, view,
    directory_at?_single]

end Move

variable {quota : VfsQuota} {arcs : Arcs} {state : State}

theorem flat_moved (move : Move state.root) :
    ({ state with root := move.moved } : State).flat =
      state.flat.move move.source move.target := by
  refine FlatFs.ext (funext fun path => ?_) rfl rfl rfl rfl
  change move.moved.view path = _
  simp only [FlatFs.move]
  by_cases below : move.target <+: path
  · obtain ⟨rest, rfl⟩ := below
    rw [if_pos (List.prefix_append _ _), List.drop_left]
    exact move.view_below_target rest
  · rw [if_neg below, move.view_not_below_target below]
    rfl

/-- The move and the removal of what it replaced agree with the flat move. -/
theorem moved_agrees (arcs : Arcs) (panics : Prop) (invariant : Invariant quota state) (move : Move state.root)
    (single : ∀ first rest, state.root.view (move.target ++ first :: rest) = none)
    (shallow : ∀ rest, state.root.view (move.source ++ rest) ≠ none →
      move.target.length + rest.length ≤ maxPathDepth) :
    Agrees quota arcs state panics
      (outcome (match Entries.get move.targetName move.targetEntries with
        | some replaced => removeTree replaced
        | none => pure ()) { state with root := move.moved })
      (.ok ((), (state.flat.move move.source move.target).collect)) := by
  have tree := move.wellRooted invariant.toWellRooted shallow
  have directories := move.directories_moved invariant.sortedRoot
  have remaining := move.remaining invariant.toWellRooted single
  have shown := move.replaced_entry
  have count := invariant.fileCount
  rw [← flat_moved]
  cases replaced : Entries.get move.targetName move.targetEntries with
  | none =>
      simp only [replaced, Option.map_none, Option.getD_none] at shown directories
      have settled : Invariant quota { state with root := move.moved } :=
        invariant.reroot tree (by omega) invariant.maxFiles fun inode => by
          simp [remaining, ← shown, Reachable]
      exact (Settles.done settled).agrees state arcs panics rfl
  | some node =>
      simp only [replaced, Option.map_some, Option.getD_some] at shown directories
      cases node with
      | file inode =>
          have settles := removeTree_file_settles invariant tree directories
            ⟨move.target, shown.symm⟩ fun other => by
              rw [remaining, ← shown]
              simp [entry, Reachable, eq_comm]
          exact settles.agrees state arcs panics rfl
      | directory entries =>
          have empty : entries = [] := by
            have order := (invariant.sortedRoot.replace move.sourceParent
              ((invariant.sortedRoot.at? move.sourceFound).discard move.sourceName)).at?
              move.targetFound
            apply List.eq_nil_iff_forall_not_mem.mpr
            rintro ⟨name, child⟩ member
            have inner := (sortedTree_directory_iff.mp order).2 move.targetName _ replaced
            have stored := Entries.get_of_mem (sortedTree_directory_iff.mp inner).1 member
            have detached := move.view_detached (move.target ++ [name])
            have here : move.detached.view (move.target ++ [name]) = some child.entry := by
              rw [view_append, Move.target, at?_append, Move.detached, move.targetFound,
                Option.bind_some, directory_at?_single, replaced, Option.bind_some, view,
                directory_at?_single, stored]
              rfl
            rw [here, single] at detached
            split at detached <;> cases detached
          subst empty
          obtain ⟨reached, settled⟩ := removeTree_empty invariant tree directories fun inode => by
            simp [remaining, ← shown, entry, Reachable]
          rw [reached]
          have same : ({ state with root := move.moved } : State).flat.collect =
              ({ state with root := move.moved, fileCount := state.fileCount - 1 } : State).flat :=
            settled.collect_flat
          exact ⟨by rw [same], settled, .refl arcs _⟩

theorem nodeKind_eq_directory_iff (node : Node) :
    nodeKind node = .directory ↔ node.entry = .directory := by
  cases node <;> simp [nodeKind, entry]

theorem checkTarget_flat (sorted : state.root.SortedTree) (node : Node) (target : Path) :
    state.flat.checkTarget node.entry target =
      checkTarget (nodeKind node) (getNode state.root target) := by
  unfold FlatFs.checkTarget
  rw [resolve_flat]
  cases walk : getNode state.root target with
  | error error => cases node <;> cases error <;> rfl
  | ok replaced =>
      cases replaced with
      | file inode => cases node <;> rfl
      | directory entries =>
          have empty := children_flat_eq_empty_iff sorted (getNode_eq_ok_iff.mp walk)
          cases node with
          | file inode => rfl
          | directory children =>
              simp only [Except.map, entry, empty, nodeKind, checkTarget]
              cases entries <;> rfl

/-- Nothing stands below a target that passes the check. -/
theorem checkTarget_single {root : Node} {target : Path} {kind : NodeKind}
    (checked : checkTarget kind (getNode root target) = .ok ()) (first : Name) (rest : Path) :
    root.view (target ++ first :: rest) = none := by
  by_contra named
  obtain ⟨entries, found⟩ := view_eq_directory_iff.mp (view_of_longer named (List.cons_ne_nil _ _))
  rw [getNode_of_at? found] at checked
  cases kind with
  | file => cases checked
  | directory =>
      cases entries with
      | cons entry entries => simp [checkTarget] at checked
      | nil =>
          rw [view_append, found] at named
          exact named rfl

theorem tooDeep_iff (state : State) {source target : Path} {node : Node}
    (found : state.root.at? source = some node) :
    state.flat.TooDeep source target ↔
      ∃ rest, node.view rest ≠ none ∧ maxPathDepth < target.length + rest.length := by
  refine exists_congr fun rest => ?_
  change state.root.view (source ++ rest) ≠ none ∧ _ ↔ _
  rw [view_append, found, Option.bind_some]

/-- The depth check fails exactly when some moved path would lie too deep. -/
theorem checkDepth_flat (tree : WellRooted state.root) {source target : Path} {node : Node}
    (found : state.root.at? source = some node) (normal : NormalPath target) :
    checkDepth state.root (nodeKind node) source target = .ok () ↔
      ¬ (node.entry = .directory ∧ state.flat.TooDeep source target) := by
  have limit := normal.depth
  rw [tooDeep_iff state found, ← nodeKind_eq_directory_iff]
  unfold checkDepth
  split
  · rename_i deeper
    have fits := subtreeFits_iff (tree.sortedRoot.at? found) (maxPathDepth - target.length)
    rw [getNode_of_at? found]
    simp only [deeper.1, true_and, not_exists, not_and, not_lt]
    split
    · rename_i accepted
      refine iff_of_true rfl fun rest named => ?_
      have := fits.mp accepted rest named
      omega
    · rename_i rejected
      refine iff_of_false (by simp) fun shallow => rejected (fits.mpr fun rest named => ?_)
      have := shallow rest named
      omega
  · rename_i level
    refine iff_of_true rfl ?_
    rintro ⟨directory, rest, named, deep⟩
    have bound := tree.depth (source ++ rest) (by rwa [view_append, found, Option.bind_some])
    rw [List.length_append] at bound
    exact level ⟨directory, by omega⟩

theorem checkDepth_error {root : Node} {source target : Path} {kind : NodeKind} {node : Node}
    (found : root.at? source = some node) {error : Errno}
    (failed : checkDepth root kind source target = .error error) : error = .EINVAL := by
  unfold checkDepth at failed
  rw [getNode_of_at? found] at failed
  split at failed
  · simp only at failed
    split at failed
    · cases failed
    · exact (Except.error.inj failed).symm
  · cases failed

/-- A path inside the source is refused, so the target parent survives the removal. -/
theorem not_source_prefix_target {root node : Node} {source target : Path} {entries : Directory}
    {name : Name} (found : root.at? source = some node) (different : source ≠ target ++ [name])
    (refused : ¬ (nodeKind node = .directory ∧ hasPrefix (target ++ [name]) source = true))
    (parent : root.at? target = some (.directory entries)) : ¬ source <+: target ++ [name] := by
  intro inside
  cases node with
  | directory children => exact refused ⟨rfl, hasPrefix_iff.mpr inside⟩
  | file inode =>
      rcases List.prefix_concat_iff.mp inside with same | ⟨rest, rfl⟩
      · exact different same
      · rw [at?_append, found, Option.bind_some] at parent
        cases rest <;> simp at parent

/-- Once the checks pass, neither borrow of the move can fail. -/
theorem moveNode_agrees (invariant : Invariant quota state) {source target : Path} {node : Node}
    (below : source ≠ []) (found : state.root.at? source = some node)
    (directory : ensureParentIsDir state.root target = .ok ())
    (outside : ¬ source <+: target)
    (single : ∀ first rest, state.root.view (target ++ first :: rest) = none)
    (shallow : ∀ rest, state.root.view (source ++ rest) ≠ none →
      target.length + rest.length ≤ maxPathDepth) {panics : Prop} :
    Agrees quota arcs state panics (outcome (moveNode source target) state)
      (.ok ((), (state.flat.move source target).collect)) := by
  obtain ⟨sourceParent, sourceName, rfl⟩ := (List.eq_nil_or_concat' source).resolve_left below
  obtain ⟨targetParent, targetName, entries, rfl, targetFound⟩ := ensureParentIsDir_ok directory
  obtain ⟨sourceEntries, sourceFound⟩ := view_eq_directory_iff.mp
    (view_of_longer (by rw [view, found]; simp) (List.cons_ne_nil sourceName []))
  have present : Entries.get sourceName sourceEntries = some node := by
    rwa [at?_append, sourceFound, Option.bind_some, directory_at?_single] at found
  have kept : ¬ sourceParent ++ [sourceName] <+: targetParent := fun inside =>
    outside (inside.trans (List.prefix_append _ _))
  have survives := view_discard sourceFound sourceName targetParent
  rw [if_neg kept] at survives
  obtain ⟨targetEntries, reached⟩ := view_eq_directory_iff.mp
    (survives.trans (view_eq_directory_iff.mpr ⟨entries, targetFound⟩))
  let move : Move state.root :=
    { sourceParent, sourceName, sourceEntries, targetParent, targetName, targetEntries
      removed := node, sourceFound, present, outside, targetFound := reached }
  have agreed := moved_agrees arcs panics invariant move single shallow
  unfold moveNode
  refine agrees_get ?_
  rw [parentDirMut_snoc sourceFound, outcome_lift_bind_ok]
  simp only
  rw [present, okOr_some, outcome_lift_bind_ok, outcome_set_bind]
  change Agrees _ _ _ _ (outcome (lift (parentDirMut
    (state.root.replace sourceParent (.directory (Entries.erase sourceName sourceEntries)))
    (targetParent ++ [targetName])) >>= _) _) _
  rw [parentDirMut_snoc reached, outcome_lift_bind_ok]
  exact agreed

theorem rename_agrees (invariant : Invariant quota state) (source target : Text) :
    Agrees quota arcs state False (outcome (rename source target) state)
      (state.flat.rename source target) := by
  refine agrees_lift rfl fun source _ => ?_
  refine agrees_lift rfl fun target resolved => ?_
  refine agrees_refuse Iff.rfl .EINVAL fun below => agrees_get ?_
  refine agrees_lift_map entry (resolve_flat state source) fun node walk => ?_
  have found := getNode_eq_ok_iff.mp walk
  by_cases same : source = target
  · rw [outcome_ite, if_pos same, if_pos same]
    exact agrees_pure invariant ()
  · rw [outcome_ite, if_neg same, if_neg same]
    have inside : nodeKind node = .directory ∧ hasPrefix target source = true ↔
        node.entry = .directory ∧ source <+: target := by
      rw [nodeKind_eq_directory_iff, hasPrefix_iff]
    refine agrees_refuse inside .EINVAL fun refused => ?_
    refine agrees_lift (parentDirectory_flat state (by tauto)) fun _ directory => ?_
    refine agrees_lift (checkTarget_flat invariant.sortedRoot node target) fun _ checked => ?_
    have depth := checkDepth_flat invariant.toWellRooted found (normalizePath_normal resolved)
    cases deep : checkDepth state.root (nodeKind node) source target with
    | error error =>
        obtain rfl := checkDepth_error found deep
        rw [if_pos (by by_contra shallow; rw [depth.mpr shallow] at deep; cases deep)]
        exact agrees_error .EINVAL
    | ok _ =>
        rw [if_neg (depth.mp deep)]
        obtain ⟨parent, name, entries, rfl, parentFound⟩ := ensureParentIsDir_ok directory
        have outside := not_source_prefix_target found same refused parentFound
        refine moveNode_agrees invariant (by tauto) found directory outside
          (checkTarget_single checked) fun rest named => ?_
        by_contra deeper
        refine depth.mp deep ⟨?_, rest, named, by omega⟩
        cases node with
        | directory children => rfl
        | file inode =>
            rw [view_append, found, Option.bind_some] at named
            have limit := (normalizePath_normal resolved).depth
            cases rest with
            | nil => simp only [List.length_nil] at deeper; omega
            | cons first rest => exact absurd rfl named

end TinySandbox.Mem
