/-
This file shows that the usage of a local filesystem never drifts from its directory.
-/

import TinySandbox.Proof.Local.Books

namespace TinySandbox.Local
open Library Library.Call
open Mem (VfsQuota VfsCall Reply)

/-! ## Paths -/

section Paths
variable {posix : Posix} {host : Host} {dir : Path} {name : Name}

theorem find_usual (usual : name ≠ ['.']) : host.find dir name = host.root.at? (dir ++ [name]) :=
  if_neg usual

theorem openDirectory_ok {child : Path} (usual : name ≠ ['.'])
    (opened : openDirectory posix host dir name = .ok child) :
    child = dir ++ [name] ∧
      ∃ entries, host.root.at? (dir ++ [name]) = some (.directory entries) := by
  unfold openDirectory at opened
  split at opened
  · next reached here =>
      obtain rfl := Except.ok.inj opened
      unfold Host.openDirectoryAt at here
      rw [find_usual usual] at here
      split at here
      · cases here
      · split at here
        · cases here
        · next entries there =>
            obtain rfl := Except.ok.inj here
            exact ⟨if_neg usual, entries, there⟩
        · cases here
        · cases here
  · split at opened
    · split at opened
      · cases opened
      · cases opened
      · cases opened
    · cases opened

theorem foldlM_openDirectory {names : Path} {last : Path} (usual : ∀ name ∈ names, name ≠ ['.'])
    (start : ∃ entries, host.root.at? dir = some (.directory entries))
    (walked : names.foldlM (openDirectory posix host) dir = .ok last) :
    last = dir ++ names ∧ ∃ entries, host.root.at? last = some (.directory entries) := by
  induction names generalizing dir with
  | nil =>
      obtain rfl := Except.ok.inj walked
      exact ⟨(List.append_nil dir).symm, start⟩
  | cons name rest ih =>
      rw [List.foldlM_cons] at walked
      obtain ⟨child, opened, walked⟩ := bind_eq_ok_iff.mp walked
      obtain ⟨rfl, here⟩ := openDirectory_ok (usual name List.mem_cons_self) opened
      have walk := ih (fun name member => usual name (List.mem_cons_of_mem _ member)) here walked
      rw [List.append_assoc] at walk
      exact walk

/-- A resolved path that is not the root names an entry of a directory. -/
structure Resolved.Places (resolved : Resolved) (host : Host) : Prop where
  whole : resolved.parent ++ [resolved.name] = resolved.components
  usual : resolved.name ≠ ['.']
  parent : ∃ entries, host.root.at? resolved.parent = some (.directory entries)
  depth : resolved.parent.length + 1 ≤ maxPathDepth

theorem resolve_ok {path : Text} {resolved : Resolved} (tidy : host.Tidy)
    (reached : resolve posix host path = .ok resolved) (inner : ¬ resolved.isRoot = true) :
    resolved.Places host := by
  obtain ⟨components, normalized, reached⟩ := bind_eq_ok_iff.mp reached
  obtain ⟨parent, walked, reached⟩ := bind_eq_ok_iff.mp reached
  obtain rfl := Except.ok.inj reached
  have normal := normalizePath_normal normalized
  have usual (name : Name) (member : name ∈ components) : name ≠ ['.'] :=
    (normal.valid name member).2.1
  obtain ⟨entries, root⟩ := tidy.directory
  have start : ∃ entries, host.root.at? [] = some (.directory entries) :=
    ⟨entries, by rw [DirectoryTree.at?_nil, root]⟩
  obtain ⟨same, directory⟩ := foldlM_openDirectory
    (fun name member => usual name (List.dropLast_subset _ member)) start walked
  rw [List.nil_append] at same
  have proper : components ≠ [] := fun empty => inner (decide_eq_true empty)
  have last : (components.getLast?.getD ['.']) = components.getLast proper := by
    rw [List.getLast?_eq_some_getLast proper, Option.getD_some]
  have whole : parent ++ [components.getLast?.getD ['.']] = components := by
    rw [last, same]
    exact List.dropLast_append_getLast proper
  constructor
  · exact whole
  · show components.getLast?.getD ['.'] ≠ ['.']
    rw [last]
    exact usual _ (List.getLast_mem proper)
  · exact directory
  · have length := congrArg List.length whole
    rw [List.length_append, List.length_singleton] at length
    have deep := normal.depth
    show parent.length + 1 ≤ maxPathDepth
    omega

theorem lookup_ok {found : Option EntryMetadata} (usual : name ≠ ['.'])
    (looked : lookup posix host dir name = .ok found) :
    found = (host.root.at? (dir ++ [name])).map (describe host) := by
  unfold lookup at looked
  split at looked
  · cases looked
  · rw [find_usual usual] at looked
    obtain rfl := Except.ok.inj looked
    congr 1

theorem view_child {entries : HostDirectory} {child : HostNode}
    (present : Entries.get name entries = some child) (path : Path) :
    (DirectoryTree.directory entries : HostNode).view (name :: path) = child.view path := by
  rw [DirectoryTree.view, DirectoryTree.at?_directory_cons, present]
  rfl

theorem exists_child {entries : HostDirectory} {path : Path} {entry : Entry HostObject}
    (proper : 0 < path.length)
    (named : (DirectoryTree.directory entries : HostNode).view path = some entry) :
    ∃ name rest child, path = name :: rest ∧ Entries.get name entries = some child ∧
      child.view rest = some entry := by
  obtain ⟨name, rest, rfl⟩ := List.exists_cons_of_length_pos proper
  cases present : Entries.get name entries with
  | none =>
      rw [DirectoryTree.view, DirectoryTree.at?_directory_cons, present] at named
      cases named
  | some child =>
      exact ⟨name, rest, child, rfl, present, (view_child present rest).symm.trans named⟩

/-- The walk finds what lies below the allowance and counts. -/
theorem deeperThan_iff {allowance : Nat} {entries : HostDirectory}
    (sorted : (DirectoryTree.directory entries : HostNode).SortedTree) :
    deeperThan allowance entries = true ↔ ∃ path entry,
      (DirectoryTree.directory entries : HostNode).view path = some entry ∧
        entry ≠ .file .special ∧ allowance < path.length := by
  induction allowance generalizing entries with
  | zero =>
      have order := (DirectoryTree.sortedTree_directory_iff.mp sorted).1
      rw [deeperThan, List.any_eq_true]
      constructor
      · rintro ⟨⟨name, child⟩, member, counts⟩
        have present := Entries.get_of_mem order member
        refine ⟨[name], child.entry, ?_, ?_, Nat.one_pos⟩
        · rw [view_child present, DirectoryTree.view_nil]
        · intro special
          cases child with
          | directory inner => cases special
          | file object =>
              obtain rfl := Entry.file.inj special
              cases counts
      · rintro ⟨path, entry, named, visible, proper⟩
        obtain ⟨name, rest, child, rfl, present, named⟩ := exists_child proper named
        refine ⟨(name, child), Entries.mem_of_get present, ?_⟩
        cases child with
        | directory inner => rfl
        | file object =>
            cases object with
            | regular key => rfl
            | special =>
                cases rest with
                | nil => exact absurd (Option.some.inj named).symm visible
                | cons first rest => cases named
  | succ allowance ih =>
      obtain ⟨order, children⟩ := DirectoryTree.sortedTree_directory_iff.mp sorted
      rw [deeperThan, List.any_eq_true]
      constructor
      · rintro ⟨⟨name, child⟩, member, deep⟩
        have present := Entries.get_of_mem order member
        cases child with
        | file object => cases deep
        | directory inner =>
            obtain ⟨path, entry, named, visible, long⟩ := (ih (children name _ present)).mp deep
            refine ⟨name :: path, entry, ?_, visible, Nat.succ_lt_succ long⟩
            rw [view_child present, named]
      · rintro ⟨path, entry, named, visible, long⟩
        obtain ⟨name, rest, child, rfl, present, named⟩ :=
          exists_child (Nat.zero_lt_of_lt long) named
        have long : allowance < rest.length := Nat.lt_of_succ_lt_succ long
        refine ⟨(name, child), Entries.mem_of_get present, ?_⟩
        cases child with
        | file object =>
            obtain ⟨first, rest, rfl⟩ := List.exists_cons_of_length_pos (Nat.zero_lt_of_lt long)
            cases named
        | directory inner =>
            exact (ih (children name _ present)).mpr ⟨rest, entry, named, visible, long⟩

end Paths

/-! ## The calls -/

/-- The usage may grow up to the quota and no further than these numbers, which have 64 bits. -/
structure Limits (quota : VfsQuota) (most : VfsStats) : Prop where
  bytes : quota.maxBytes.toNat ≤ most.usedBytes
  files : quota.maxFiles.toNat ≤ most.fileCount
  bytesFit : most.usedBytes ≤ u64Max
  filesFit : most.fileCount ≤ u64Max

theorem length_setLen (bytes : Bytes) (len : Nat) : (setLen bytes len).length = len := by
  rw [setLen, List.length_append, List.length_take, List.length_replicate]
  omega

theorem length_pwrite_le (bytes : Bytes) (offset : Nat) (data : Bytes) :
    (pwrite bytes offset data).length ≤ max bytes.length (offset + data.length) := by
  unfold pwrite
  split
  · exact le_max_left _ _
  · rw [List.length_append, List.length_append, length_setLen, List.length_drop]
    omega

theorem length_pwrite {data : Bytes} (proper : data ≠ []) (bytes : Bytes) (offset : Nat) :
    (pwrite bytes offset data).length = max bytes.length (offset + data.length) := by
  rw [pwrite, if_neg proper, List.length_append, List.length_append, length_setLen,
    List.length_drop]
  omega

section Calls
variable {most : VfsStats} {posix : Posix} {quota : VfsQuota} {state : State} {key : FileKey}

theorem Accounted.lift_bind {α β : Type} (accounted : Accounted most state) {result : VfsResult β}
    {next : β → LocalCall α}
    (rest : ∀ value, result = .ok value →
      EndsAt (fun _ => Accounted most) (fun _ => Accounted most) (next value) state) :
    EndsAt (fun _ => Accounted most) (fun _ => Accounted most) (lift result >>= next) state :=
  endsAt_lift_bind (fun _ _ => accounted) rest

theorem Accounted.refuse_bind {α : Type} (accounted : Accounted most state) {condition : Prop}
    [Decidable condition] {error : Errno} {next : PUnit → LocalCall α}
    (rest : ¬ condition →
      EndsAt (fun _ => Accounted most) (fun _ => Accounted most) (next ⟨⟩) state) :
    EndsAt (fun _ => Accounted most) (fun _ => Accounted most) (refuse condition error >>= next)
      state :=
  endsAt_refuse_bind (fun _ => accounted) rest

theorem Accounted.onHost (accounted : Accounted most state) (action : Host → Except OsError Host) :
    EndsAt (fun _ after => ∃ host, action state.host = .ok host ∧ after = { state with host })
      (fun _ => Accounted most) (onHost action) state := by
  apply endsAt_get_bind
  apply endsAt_lift_bind
  · intro error _
    exact accounted
  · intro host acted
    exact endsAt_set ⟨host, osResult_ok acted, rfl⟩

theorem ensureEntrySlot_ok (limits : Limits quota most)
    (free : ensureEntrySlot quota state = .ok ()) : state.fileCount + 1 ≤ most.fileCount := by
  have small := limits.files
  unfold ensureEntrySlot at free
  split at free
  · cases free
  · omega

theorem Accounted.len_le (accounted : Accounted most state)
    (known : key ∈ state.host.named + state.detached) : state.host.len key ≤ state.usedBytes := by
  obtain ⟨rest, split⟩ := Multiset.exists_cons_of_mem known
  have sum := accounted.books.sums.bytes
  rw [split, Multiset.map_cons, Multiset.sum_cons] at sum
  omega

theorem mem_named {host : Host} (tidy : host.Tidy) {path : Path}
    (there : host.root.at? path = some (.file (.regular key))) : key ∈ host.named := by
  have member := (DirectoryTree.mem_leaves_iff tidy.sorted).mpr
    ⟨path, DirectoryTree.view_eq_file_iff.mpr there⟩
  exact (Multiset.mem_filterMap fileKey _).mpr ⟨.regular key, member, rfl⟩

theorem eq_of_okOr {α : Type} {error : Errno} {found : Option α} {value : α}
    (present : okOr error found = .ok value) : found = some value := by
  cases found with
  | none => cases present
  | some other => exact congrArg some (Except.ok.inj present)

theorem mapError_ok {α : Type} {result : VfsResult α} {change : Errno → Errno} {value : α}
    (succeeded : result.mapError change = .ok value) : result = .ok value := by
  cases result with
  | ok found => exact congrArg Except.ok (Except.ok.inj succeeded)
  | error error => cases succeeded

/-- An entry that a lookup reports as a file is a file with this key. -/
theorem describe_file {host : Host} {node : Option HostNode} {len : Nat}
    (found : some (.file key len) = node.map (describe host)) :
    node = some (.file (.regular key)) ∧ len = host.len key := by
  cases node with
  | none => cases found
  | some node =>
      cases node with
      | directory children => cases found
      | file object =>
          cases object with
          | special => cases found
          | regular other =>
              obtain ⟨rfl, rfl⟩ := EntryMetadata.file.inj (Option.some.inj found)
              exact ⟨rfl, rfl⟩

theorem accounted_stat (path : Text) : Keeps (Accounted most) (stat posix path) := by
  intro state accounted
  apply endsAt_get_bind
  apply accounted.lift_bind
  intro resolved _
  apply accounted.lift_bind
  intro found _
  cases found with
  | none => exact endsAt_throw accounted
  | some entry => cases entry with
    | file key len => exact endsAt_pure accounted
    | directory => exact endsAt_pure accounted
    | other => exact endsAt_throw accounted

theorem accounted_readdir (path : Text) : Keeps (Accounted most) (readdir posix path) := by
  intro state accounted
  apply endsAt_get_bind
  apply accounted.lift_bind
  intro resolved _
  apply accounted.lift_bind
  intro dir _
  apply accounted.lift_bind
  intro given _
  apply accounted.lift_bind
  intro entries _
  exact endsAt_pure accounted

theorem accounted_readAt (handle offset bufLen : Nat) :
    Keeps (Accounted most) (readAt posix handle offset bufLen) := by
  intro state accounted
  apply endsAt_get_bind
  apply accounted.lift_bind
  intro file _
  apply accounted.refuse_bind
  intro _
  apply endsAt_lift
  cases readLoop posix state.host file.key offset bufLen [] <;> exact accounted

theorem accounted_mkdir (limits : Limits quota most) (path : Text) :
    Keeps (Accounted most) (mkdir posix quota path) := by
  intro state accounted
  apply endsAt_get_bind
  apply accounted.lift_bind
  intro resolved reached
  apply accounted.refuse_bind
  intro inner
  have places := resolve_ok accounted.tidy reached inner
  apply accounted.lift_bind
  intro found _
  apply accounted.refuse_bind
  intro _
  apply accounted.lift_bind
  intro _ free
  apply (accounted.onHost _).bind
  rintro _ _ ⟨host, made, rfl⟩
  apply endsAt_get_bind
  exact endsAt_set (accounted.mkdirat (ensureEntrySlot_ok limits free) places.depth made)

theorem accounted_unlink (path : Text) : Keeps (Accounted most) (unlink posix path) := by
  intro state accounted
  apply endsAt_get_bind
  apply accounted.lift_bind
  intro resolved reached
  apply accounted.refuse_bind
  intro inner
  have places := resolve_ok accounted.tidy reached inner
  apply accounted.lift_bind
  intro found looked
  have found := lookup_ok places.usual looked
  split
  · exact endsAt_throw accounted
  · exact endsAt_throw accounted
  · exact endsAt_throw accounted
  · next key len =>
      obtain ⟨there, rfl⟩ := describe_file found
      apply (accounted.onHost _).bind
      rintro _ _ ⟨host, removed, rfl⟩
      apply endsAt_get_bind
      exact endsAt_set (accounted.unlinkat there removed)

theorem accounted_rmdir (path : Text) : Keeps (Accounted most) (rmdir posix path) := by
  intro state accounted
  apply endsAt_get_bind
  apply accounted.lift_bind
  intro resolved reached
  apply accounted.refuse_bind
  intro inner
  apply accounted.lift_bind
  intro found looked
  cases found with
  | none => exact endsAt_throw accounted
  | some entry =>
      cases entry with
      | file key len => exact endsAt_throw accounted
      | other => exact endsAt_throw accounted
      | directory =>
          apply accounted.lift_bind
          intro host removed
          exact endsAt_set (accounted.rmdirat (osResult_ok (mapError_ok removed)))

theorem checkDepth_ok {source target : Resolved} {kind : FileType} {node : HostNode}
    (accounted : Accounted most state) (places : source.Places state.host)
    (there : state.host.root.at? (source.parent ++ [source.name]) = some node)
    (kinds : sourceKind (some (describe state.host node)) = .ok kind)
    (target_places : target.Places state.host)
    (checked : checkDepth posix state.host kind source target = .ok ()) (rest : Path)
    (entry : Entry HostObject) (named : node.view rest = some entry)
    (visible : entry ≠ .file .special) :
    target.parent.length + 1 + rest.length ≤ maxPathDepth := by
  have from_length := congrArg List.length places.whole
  have to_length := congrArg List.length target_places.whole
  rw [List.length_append, List.length_singleton] at from_length to_length
  have depth := target_places.depth
  cases node with
  | file object =>
      cases rest with
      | nil => exact depth
      | cons first rest => cases named
  | directory children =>
      obtain rfl := Except.ok.inj kinds
      unfold checkDepth at checked
      split at checked
      · next descends =>
          obtain ⟨dir, opened, checked⟩ := bind_eq_ok_iff.mp checked
          obtain ⟨deeper, walked, checked⟩ := bind_eq_ok_iff.mp checked
          obtain ⟨rfl, -⟩ := openDirectory_ok places.usual opened
          have walked := osResult_ok walked
          rw [subtreeDeeperThan, entriesOf_ok.mpr there] at walked
          obtain rfl := Except.ok.inj walked
          split at checked
          · cases checked
          · next within =>
              by_contra long
              apply within
              rw [deeperThan_iff (accounted.tidy.sorted.at? there)]
              exact ⟨rest, entry, named, visible, by omega⟩
      · next descends =>
          have above : target.components.length ≤ source.components.length :=
            not_lt.mp fun less => descends ⟨rfl, less⟩
          have whole : state.host.root.view (source.parent ++ [source.name] ++ rest) =
              some entry := by
            rw [DirectoryTree.view_append, there]
            exact named
          have shallow := accounted.tidy.shallow _ entry whole visible
          rw [List.length_append, List.length_append, List.length_singleton] at shallow
          omega

theorem accounted_rename (source target : Text) :
    Keeps (Accounted most) (rename posix source target) := by
  intro state accounted
  apply endsAt_get_bind
  apply accounted.lift_bind
  intro source sourceReached
  apply accounted.lift_bind
  intro target targetReached
  apply accounted.refuse_bind
  intro inner
  rw [Bool.or_eq_true, not_or] at inner
  have fromPlaces := resolve_ok accounted.tidy sourceReached inner.1
  have toPlaces := resolve_ok accounted.tidy targetReached inner.2
  apply accounted.lift_bind
  intro found looked
  apply accounted.lift_bind
  intro kind kinds
  apply endsAt_ite
  · intro _
    exact endsAt_pure accounted
  · intro different
    apply accounted.refuse_bind
    intro _
    apply accounted.lift_bind
    intro _ checked
    apply accounted.lift_bind
    intro replaced seen
    apply accounted.lift_bind
    intro host renamed
    apply endsAt_set
    have found := lookup_ok fromPlaces.usual looked
    obtain rfl := lookup_ok toPlaces.usual seen
    have apart : source.parent ++ [source.name] ≠ target.parent ++ [target.name] := by
      rw [fromPlaces.whole, toPlaces.whole]
      exact different
    cases there : state.host.root.at? (source.parent ++ [source.name]) with
    | none =>
        rw [there] at found
        subst found
        cases kinds
    | some node =>
        rw [there] at found
        subst found
        exact accounted.renameat there apart
          (checkDepth_ok accounted fromPlaces there kinds toPlaces checked)
          (osResult_ok (mapError_ok renamed))

/-- The root is no file. -/
theorem lookup_root {path : Text} {resolved : Resolved} {found : Option EntryMetadata}
    (tidy : state.host.Tidy) (reached : resolve posix state.host path = .ok resolved)
    (root : resolved.isRoot = true) (looked : resolved.lookup posix state.host = .ok found) :
    found = some .directory := by
  obtain ⟨components, normalized, reached⟩ := bind_eq_ok_iff.mp reached
  obtain ⟨parent, walked, reached⟩ := bind_eq_ok_iff.mp reached
  obtain rfl := Except.ok.inj reached
  obtain rfl : components = [] := of_decide_eq_true root
  obtain rfl := Except.ok.inj walked
  obtain ⟨entries, directory⟩ := tidy.directory
  have looked : lookup posix state.host [] ['.'] = .ok found := looked
  unfold lookup Host.find at looked
  rw [if_neg (not_not.mpr posix.accepts_self), if_pos rfl, DirectoryTree.at?_nil, directory]
    at looked
  exact (Except.ok.inj looked).symm

/-- An opened file has a name, and a new one still has to be counted. -/
theorem accounted_openFile (limits : Limits quota most) {path : Text} {resolved : Resolved}
    (accounted : Accounted most state)
    (reached : resolve posix state.host path = .ok resolved) (mode : OpenMode) :
    EndsAt (fun opened after => opened.1 ∈ after.host.named ∧
        (opened.2 = true ∧ (mode.create || mode.createNew) = true ∨
          opened.2 = false ∧ after = state) ∧
        Accounted most { after with
          fileCount := if opened.2 then after.fileCount + 1 else after.fileCount })
      (fun _ after => after = state) (openFile posix quota resolved mode) state := by
  apply endsAt_get_bind
  apply endsAt_lift_bind
  · intro error _
    exact rfl
  intro found looked
  by_cases root : resolved.isRoot = true
  · obtain rfl := lookup_root accounted.tidy reached root looked
    exact endsAt_throw rfl
  · have places := resolve_ok accounted.tidy reached root
    have found := lookup_ok places.usual looked
    split
    · exact endsAt_throw rfl
    · exact endsAt_throw rfl
    · next key len =>
        obtain ⟨there, rfl⟩ := describe_file found
        apply endsAt_refuse_bind
        · intro _
          exact rfl
        intro _
        apply endsAt_lift_bind
        · intro error _
          exact rfl
        intro opened opens
        have opens := osResult_ok opens
        rw [Host.openat, find_usual places.usual, there] at opens
        obtain rfl := Except.ok.inj opens
        exact endsAt_pure ⟨mem_named accounted.tidy there, .inr ⟨rfl, rfl⟩, accounted⟩
    · apply endsAt_refuse_bind
      · intro _
        exact rfl
      intro makes
      apply endsAt_lift_bind
      · intro error _
        exact rfl
      intro _ free
      apply endsAt_lift_bind
      · intro error _
        exact rfl
      intro created made
      rcases created with ⟨key, host⟩
      apply endsAt_set_bind
      apply endsAt_pure
      obtain ⟨counted, named, -⟩ := accounted.createat (ensureEntrySlot_ok limits free) places.depth
        (osResult_ok made)
      exact ⟨named, .inl ⟨rfl, Bool.or_eq_true_iff.mpr (not_not.mp makes)⟩, counted⟩

theorem Accounted.attach (accounted : Accounted most state) (file : HandleState)
    (known : file.key ∈ state.host.named + state.detached) {old : OpenFileState}
    (was : (state.openFiles.get file.key).getD {} = old) :
    Accounted most
      ((state.record file.key { old with openHandles := old.openHandles + 1 }).attach file) :=
  ⟨accounted.tidy, accounted.books.attach known was⟩

/-- A failed open changes nothing, or it has made a file that it could not cut. -/
theorem Accounted.open (accounted : Accounted most state) (limits : Limits quota most)
    (path : Text) (mode : OpenMode) :
    EndsAt (fun _ => Accounted most)
      (fun _ after => after = state ∨ posix.setLenFails ≠ none ∧ cutsNew (.open path mode) ∧
        Accounted most { after with fileCount := after.fileCount + 1 })
      («open» posix quota path mode) state := by
  apply endsAt_lift_bind
  · intro error _
    exact .inl rfl
  intro _ _
  apply endsAt_get_bind
  apply endsAt_lift_bind
  · intro error _
    exact .inl rfl
  intro resolved reached
  apply ((accounted_openFile limits accounted reached mode).mono (fun _ _ kept => kept)
    fun _ _ same => Or.inl same).bind
  rintro ⟨key, creating⟩ after ⟨named, made, counted⟩
  apply endsAt_get_bind
  have known : key ∈ after.host.named + after.detached := Multiset.mem_add.mpr (.inl named)
  dsimp only
  apply endsAt_ite
  · intro cuts
    unfold Host.setLenAt
    cases failing : posix.setLenFails with
    | some error =>
        apply endsAt_lift_bind
        · intro _ _
          rcases made with ⟨rfl, makes⟩ | ⟨-, same⟩
          · exact .inr ⟨failing ▸ Option.some_ne_none error,
              Bool.and_eq_true_iff.mpr ⟨cuts, makes⟩, counted⟩
          · exact .inl same
        · intro _ failed
          cases failed
    | none =>
        have small := counted.len_le known
        have balance : after.usedBytes - after.host.len key + after.host.len key =
            after.usedBytes + (setLen (after.host.data key) 0).length := by
          rw [length_setLen]
          exact Nat.sub_add_cancel small
        have cut := counted.put known balance ((Nat.sub_le _ _).trans counted.books.sums.bytesFit)
        apply endsAt_lift_bind
        · intro error failed
          cases failed
        intro _ _
        apply endsAt_set_bind
        apply endsAt_get_bind
        apply endsAt_set_bind
        apply endsAt_pure
        exact cut.attach
          { key, readable := mode.read, writable := mode.write, append := mode.append } known rfl
  · intro _
    apply endsAt_get_bind
    apply endsAt_set_bind
    apply endsAt_pure
    exact counted.attach
      { key, readable := mode.read, writable := mode.write, append := mode.append } known rfl

theorem accounted_open (limits : Limits quota most) (path : Text) (mode : OpenMode)
    (resizes : cutsNew (.open path mode) → posix.setLenFails = none) :
    Keeps (Accounted most) («open» posix quota path mode) := by
  intro state accounted
  apply (accounted.open limits path mode).mono (fun _ _ kept => kept)
  rintro _ _ (rfl | ⟨fails, cuts, -⟩)
  · exact accounted
  · exact absurd (resizes cuts) fails

theorem resizedUsage_ok (limits : Limits quota most) {usedBytes oldLen newLen total : Nat}
    (covers : oldLen ≤ usedBytes)
    (admitted : resizedUsage quota usedBytes oldLen newLen = .ok total) :
    total + oldLen = usedBytes + newLen ∧ total ≤ most.usedBytes := by
  have small := limits.bytes
  unfold resizedUsage at admitted
  split at admitted
  · cases admitted
  · split at admitted
    · cases admitted
    · next sum =>
        split at admitted
        · cases admitted
        · obtain rfl := Except.ok.inj admitted
          split at sum
          · have sum := eq_of_checkedAdd sum
            omega
          · have sum := Option.some.inj sum
            omega

theorem Accounted.known (accounted : Accounted most state) {handle : Nat} {file : HandleState}
    (found : state.handles.get handle = some file) :
    file.key ∈ state.host.named + state.detached :=
  accounted.books.tables.held _ (mem_opened.mpr ⟨handle, file, found, rfl⟩)

/-- A write that stops in the middle leaves a part of the data, and the usage is read again. -/
theorem Accounted.putPart (accounted : Accounted most state) (limits : Limits quota most)
    (known : key ∈ state.host.named + state.detached) {start count : Nat} {data : Bytes}
    (fits : state.usedBytes - state.host.len key +
      max (state.host.len key) (start + data.length) ≤ most.usedBytes) :
    Accounted most { state with
      host := state.host.put key (pwrite (state.host.data key) start (data.take count))
      usedBytes := resync state.usedBytes (state.host.len key)
        ((state.host.put key (pwrite (state.host.data key) start (data.take count))).len key)
      } := by
  have covers := accounted.len_le known
  have bound := length_pwrite_le (state.host.data key) start (data.take count)
  have part := List.length_take_le' count data
  have len : (state.host.data key).length = state.host.len key := rfl
  have small : state.usedBytes - state.host.len key +
      (pwrite (state.host.data key) start (data.take count)).length ≤ most.usedBytes := by omega
  rw [len_put, Function.update_self]
  apply accounted.put known
  · rw [resync, min_eq_left (small.trans limits.bytesFit)]
    omega
  · exact (min_le_left _ _).trans small

theorem accounted_writeAt (limits : Limits quota most) (handle offset : Nat) (data : Bytes) :
    Keeps (Accounted most) (writeAt posix quota handle offset data) := by
  intro state accounted
  apply endsAt_get_bind
  apply accounted.lift_bind
  intro file found
  have known := accounted.known (eq_of_okOr found)
  have covers := accounted.len_le known
  apply accounted.refuse_bind
  intro _
  apply endsAt_ite
  · intro _
    exact endsAt_pure accounted
  · intro proper
    apply accounted.lift_bind
    intro writeEnd ends
    apply accounted.lift_bind
    intro usedBytes admitted
    obtain ⟨balance, fits⟩ := resizedUsage_ok limits covers admitted
    have ends := eq_of_checkedAdd (eq_of_okOr ends)
    unfold Host.writeAllAt
    cases posix.writeFails with
    | none =>
        apply endsAt_set_bind
        apply endsAt_pure
        apply accounted.put known _ fits
        rw [length_pwrite proper, ends]
        exact balance
    | some failure =>
        rcases failure with ⟨count, error⟩
        apply endsAt_set_bind
        apply endsAt_throw
        apply accounted.putPart limits known
        omega

theorem accounted_truncate (limits : Limits quota most) (handle len : Nat) :
    Keeps (Accounted most) (truncate posix quota handle len) := by
  intro state accounted
  apply endsAt_get_bind
  apply accounted.lift_bind
  intro file found
  have known := accounted.known (eq_of_okOr found)
  have covers := accounted.len_le known
  apply accounted.refuse_bind
  intro _
  apply accounted.lift_bind
  intro usedBytes admitted
  obtain ⟨balance, fits⟩ := resizedUsage_ok limits covers admitted
  unfold Host.setLenAt
  cases posix.setLenFails with
  | some error =>
      apply endsAt_lift_bind
      · intro _ _
        exact accounted
      · intro _ failed
        cases failed
  | none =>
      apply endsAt_lift_bind
      · intro _ failed
        cases failed
      · intro _ _
        apply endsAt_set
        apply accounted.put known _ fits
        rw [length_setLen]
        exact balance

theorem accounted_close (handle : Nat) : Keeps (Accounted most) (close handle) := by
  intro state accounted
  apply endsAt_get_bind
  apply accounted.lift_bind
  intro file found
  have found := eq_of_okOr found
  obtain ⟨openFile, listed, positive, more, last⟩ := accounted.books.close found
  rw [listed]
  dsimp only
  apply endsAt_orPanic_bind
  intro openHandles less
  rw [subU64, if_pos (Nat.succ_le_of_lt positive)] at less
  obtain rfl := Option.some.inj less
  apply endsAt_ite
  · intro stays
    apply endsAt_set
    exact ⟨accounted.tidy, more (by omega)⟩
  · intro ends
    have one : openFile.openHandles = 1 := by omega
    apply endsAt_ite
    · intro gone
      apply endsAt_set
      exact ⟨accounted.tidy, (last one).1 gone⟩
    · intro linked
      apply endsAt_set
      exact ⟨accounted.tidy, (last one).2 (Bool.eq_false_of_not_eq_true linked)⟩

end Calls

/-! ## The scan -/

/-- Somewhere on the stack an entry lies too deep. -/
def tooDeep : List HostDirectory → Bool
  | [] => false
  | entries :: stack => deeperThan (maxPathDepth - stack.length) entries || tooDeep stack

/-- These are the files that the directories on the stack still have to give. -/
def stackKeys (stack : List HostDirectory) : Multiset FileKey :=
  (stack.map fun entries => keysIn (.directory entries)).sum

def stackDirectories (stack : List HostDirectory) : Nat :=
  (stack.map DirectoryTree.directoriesIn).sum

section Scan
variable {posix : Posix} {host : Host} {entries : HostDirectory}

theorem deeperThan_nil (allowance : Nat) : deeperThan allowance [] = false := by
  cases allowance <;> rfl

theorem deeperThan_special (allowance : Nat) (name : Name) :
    deeperThan allowance ((name, .file .special) :: entries) = deeperThan allowance entries := by
  cases allowance <;> rfl

theorem deeperThan_perm {given : HostDirectory} (allowance : Nat) (perm : given.Perm entries) :
    deeperThan allowance given = deeperThan allowance entries := by
  cases allowance with
  | zero => exact perm.any_eq
  | succ allowance => exact perm.any_eq

theorem keysIn_cons (name : Name) (node : HostNode) :
    keysIn (.directory ((name, node) :: entries)) = keysIn node + keysIn (.directory entries) := by
  unfold keysIn
  rw [DirectoryTree.leaves, DirectoryTree.leavesIn, ← Multiset.coe_add, Multiset.filterMap_add]
  rfl

theorem keysIn_perm {given : HostDirectory} (perm : given.Perm entries) :
    keysIn (.directory given) = keysIn (.directory entries) := by
  induction perm with
  | nil => rfl
  | cons entry _ ih => rw [keysIn_cons, keysIn_cons, ih]
  | swap first second rest =>
      rw [keysIn_cons, keysIn_cons, keysIn_cons, keysIn_cons, add_left_comm]
  | trans _ _ first second => exact first.trans second

theorem directoriesIn_perm {given : HostDirectory} (perm : given.Perm entries) :
    DirectoryTree.directoriesIn given = DirectoryTree.directoriesIn entries := by
  rw [DirectoryTree.directoriesIn_eq_total, DirectoryTree.directoriesIn_eq_total]
  exact (perm.map _).sum_eq

theorem saturatingAdd_assoc (first second third : Nat) :
    saturatingAdd (saturatingAdd first second) third = saturatingAdd first (second + third) := by
  unfold saturatingAdd
  omega

theorem stackKeys_cons (stack : List HostDirectory) :
    stackKeys (entries :: stack) = keysIn (.directory entries) + stackKeys stack := rfl

theorem stackDirectories_cons (stack : List HostDirectory) :
    stackDirectories (entries :: stack) =
      DirectoryTree.directoriesIn entries + stackDirectories stack := rfl

theorem tooDeep_cons (stack : List HostDirectory) :
    tooDeep (entries :: stack) =
      (deeperThan (maxPathDepth - stack.length) entries || tooDeep stack) := rfl

theorem deeperThan_file (allowance : Nat) (name : Name) (object : HostObject) :
    deeperThan (allowance + 1) ((name, .file object) :: entries) =
      deeperThan (allowance + 1) entries := rfl

theorem deeperThan_directory (allowance : Nat) (name : Name) (children : HostDirectory) :
    deeperThan (allowance + 1) ((name, .directory children) :: entries) =
      (deeperThan allowance children || deeperThan (allowance + 1) entries) := rfl

/-- The loop gives the totals of what is on the stack, whatever the order of the entries. -/
theorem scan_eq (stack : List HostDirectory) (usage : VfsStats)
    (room : stack.length ≤ maxPathDepth + 1) (bytes : usage.usedBytes ≤ u64Max)
    (files : usage.fileCount ≤ u64Max) :
    scan posix host stack usage =
      if tooDeep stack then .error .other
      else .ok {
        usedBytes := saturatingAdd usage.usedBytes ((stackKeys stack).map host.len).sum
        fileCount :=
          saturatingAdd usage.fileCount (stackDirectories stack + (stackKeys stack).card) } := by
  induction stack, usage using scan.induct posix host with
  | case1 usage =>
      rw [scan, tooDeep, if_neg Bool.false_ne_true]
      congr 1
      exact congr (congrArg VfsStats.mk (min_eq_left bytes).symm) (min_eq_left files).symm
  | case2 stack usage ih =>
      have room : stack.length ≤ maxPathDepth + 1 := Nat.le_of_succ_le room
      rw [scan, ih room bytes files, tooDeep_cons, deeperThan_nil, Bool.false_or, stackKeys_cons,
        keysIn_empty, zero_add, stackDirectories_cons, DirectoryTree.directoriesIn, zero_add]
  | case3 name rest stack usage ih =>
      rw [scan, ih room bytes files, tooDeep_cons, tooDeep_cons, deeperThan_special, stackKeys_cons,
        stackKeys_cons, keysIn_cons, keysIn_special, zero_add, stackDirectories_cons,
        stackDirectories_cons, DirectoryTree.directoriesIn, DirectoryTree.directories, zero_add]
  | case4 name key rest stack usage deep =>
      have full : maxPathDepth - stack.length = 0 := by omega
      have found : deeperThan 0 ((name, .file (.regular key)) :: rest) = true := rfl
      rw [scan, if_pos deep, tooDeep_cons, full, found, Bool.true_or, if_pos rfl]
  | case5 name key rest stack usage shallow ih =>
      obtain ⟨allowance, left⟩ : ∃ allowance, maxPathDepth - stack.length = allowance + 1 :=
        Nat.exists_eq_succ_of_ne_zero (by omega)
      have bytes := min_le_right (usage.usedBytes + host.len key) u64Max
      have files := min_le_right (usage.fileCount + 1) u64Max
      have keys : stackKeys (((name, .file (.regular key)) :: rest) :: stack) =
          {key} + stackKeys (rest :: stack) := by
        rw [stackKeys_cons, stackKeys_cons, keysIn_cons, keysIn_regular, add_assoc]
      have directories : stackDirectories (((name, .file (.regular key)) :: rest) :: stack) =
          stackDirectories (rest :: stack) := by
        rw [stackDirectories_cons, stackDirectories_cons, DirectoryTree.directoriesIn,
          DirectoryTree.directories, zero_add]
      rw [scan, if_neg shallow, ih room bytes files, tooDeep_cons, tooDeep_cons, left,
        deeperThan_file, keys, directories, Multiset.map_add, Multiset.sum_add,
        Multiset.map_singleton, Multiset.sum_singleton, Multiset.card_add, Multiset.card_singleton,
        saturatingAdd_assoc, saturatingAdd_assoc, Nat.add_left_comm 1]
  | case6 name children rest stack usage deep =>
      have full : maxPathDepth - stack.length = 0 := by omega
      have found : deeperThan 0 ((name, .directory children) :: rest) = true := rfl
      rw [scan, if_pos deep, tooDeep_cons, full, found, Bool.true_or, if_pos rfl]
  | case7 name children rest stack usage shallow ih =>
      obtain ⟨allowance, left⟩ : ∃ allowance, maxPathDepth - stack.length = allowance + 1 :=
        Nat.exists_eq_succ_of_ne_zero (by omega)
      have next : maxPathDepth - (rest :: stack).length = allowance := by
        rw [List.length_cons]
        omega
      have room : (posix.order children :: rest :: stack).length ≤ maxPathDepth + 1 := by
        rw [List.length_cons, List.length_cons]
        omega
      have files := min_le_right (usage.fileCount + 1) u64Max
      have perm := posix.order_perm children
      have keys : stackKeys (((name, .directory children) :: rest) :: stack) =
          stackKeys (posix.order children :: rest :: stack) := by
        rw [stackKeys_cons, stackKeys_cons, stackKeys_cons, keysIn_cons, keysIn_perm perm,
          add_assoc]
      have directories : stackDirectories (((name, .directory children) :: rest) :: stack) =
          1 + stackDirectories (posix.order children :: rest :: stack) := by
        rw [stackDirectories_cons, stackDirectories_cons, stackDirectories_cons,
          directoriesIn_perm perm, DirectoryTree.directoriesIn, DirectoryTree.directories]
        omega
      rw [scan, if_neg shallow, ih room bytes files, tooDeep_cons, tooDeep_cons, tooDeep_cons, next,
        left, deeperThan_directory, deeperThan_perm _ perm, Bool.or_assoc, keys, directories,
        saturatingAdd_assoc, add_assoc]

theorem scanTree_eq (root : host.root = .directory entries) :
    scanTree posix host =
      if deeperThan maxPathDepth entries then .error .other
      else .ok {
        usedBytes := min (host.named.map host.len).sum u64Max
        fileCount := min (host.root.directories - 1 + host.named.card) u64Max } := by
  have found : host.entriesOf [] = .ok entries := by
    rw [entriesOf_ok, DirectoryTree.at?_nil, root]
  have room : [posix.order entries].length ≤ maxPathDepth + 1 := Nat.succ_le_succ (Nat.zero_le _)
  have perm := posix.order_perm entries
  have deep : tooDeep [posix.order entries] = deeperThan maxPathDepth entries := by
    rw [tooDeep_cons, tooDeep, Bool.or_false, List.length_nil, Nat.sub_zero,
      deeperThan_perm _ perm]
  have keys : stackKeys [posix.order entries] = host.named := by
    rw [stackKeys_cons, keysIn_perm perm, Host.named, root]
    exact add_zero _
  have directories : stackDirectories [posix.order entries] = host.root.directories - 1 := by
    rw [stackDirectories_cons, directoriesIn_perm perm, root, DirectoryTree.directories]
    rfl
  unfold scanTree
  rw [found]
  show scan posix host [posix.order entries] _ = _
  rw [scan_eq _ _ room (Nat.zero_le _) (Nat.zero_le _), deep, keys, directories]
  unfold saturatingAdd
  rw [Nat.zero_add, Nat.zero_add]

end Scan

section Refresh
variable {most : VfsStats} {posix : Posix} {quota : VfsQuota} {state : State}

theorem isUnlinked_iff {key : FileKey} : isUnlinked state key = true ↔ key ∈ state.detached := by
  rw [mem_detached, isUnlinked, Option.any_eq_true]

/-- The handles that are left give the detached files that are not counted yet. -/
theorem countUnlinked_eq (handles : List HandleState) (counted : OrderedMap FileKey Unit)
    (usage : VfsStats) (files : Finset FileKey)
    (rest : ∀ key, key ∈ files ↔ key ∈ state.detached ∧ counted.get key = none ∧
      ∃ handle ∈ handles, handle.key = key)
    (fits : usage.usedBytes ≤ u64Max) :
    countUnlinked state handles counted usage =
      { usedBytes := saturatingAdd usage.usedBytes (∑ key ∈ files, state.host.len key)
        fileCount := usage.fileCount + files.card } := by
  induction handles generalizing counted usage files with
  | nil =>
      obtain rfl : files = ∅ := by
        apply Finset.eq_empty_of_forall_notMem
        intro key member
        obtain ⟨-, -, handle, none, -⟩ := (rest key).mp member
        cases none
      rw [countUnlinked, Finset.sum_empty, Finset.card_empty, add_zero, saturatingAdd, add_zero,
        min_eq_left fits]
  | cons handle handles ih =>
      rw [countUnlinked]
      split
      · next counts =>
          have inside : handle.key ∈ files :=
            (rest _).mpr ⟨isUnlinked_iff.mp counts.1, counts.2, handle, List.mem_cons_self, rfl⟩
          rw [ih (counted.insert handle.key ()) _ (files.erase handle.key), saturatingAdd_assoc,
            Finset.add_sum_erase files state.host.len inside]
          · congr 1
            have card := Finset.card_erase_add_one inside
            show usage.fileCount + 1 + (files.erase handle.key).card = _
            omega
          · intro key
            rw [Finset.mem_erase, rest, OrderedMap.get_insert]
            constructor
            · rintro ⟨other, detached, absent, file, member, same⟩
              refine ⟨detached, ?_, file, ?_, same⟩
              · rw [if_neg other]
                exact absent
              · rcases List.mem_cons.mp member with rfl | later
                · exact absurd same.symm other
                · exact later
            · rintro ⟨detached, absent, file, member, same⟩
              split at absent
              · cases absent
              · next other =>
                  exact ⟨other, detached, absent, file, List.mem_cons_of_mem _ member, same⟩
          · exact min_le_right _ _
      · next skips =>
          apply ih counted usage files _ fits
          intro key
          rw [rest]
          constructor
          · rintro ⟨detached, absent, file, member, same⟩
            refine ⟨detached, absent, file, ?_, same⟩
            rcases List.mem_cons.mp member with rfl | later
            · subst same
              exact absurd ⟨isUnlinked_iff.mpr detached, absent⟩ skips
            · exact later
          · rintro ⟨detached, absent, file, member, same⟩
            exact ⟨detached, absent, file, List.mem_cons_of_mem _ member, same⟩

/-- A rescan of the directory finds the usage of the state, whatever is stored in its place. -/
theorem Accounted.refresh (accounted : Accounted most state) (limits : Limits quota most)
    (pushed : VfsStats) : outcome (refresh posix) (setUsage pushed state) =
      some (.ok { usedBytes := state.usedBytes, fileCount := state.fileCount }, state) := by
  obtain ⟨entries, root⟩ := accounted.tidy.directory
  have shallow : ¬ deeperThan maxPathDepth entries = true := by
    have sorted := accounted.tidy.sorted
    rw [root] at sorted
    rw [deeperThan_iff sorted]
    rintro ⟨path, entry, named, visible, long⟩
    have short := accounted.tidy.shallow path entry (root ▸ named) visible
    omega
  have rooted := directories_pos accounted.tidy
  obtain ⟨-, single, usedBytes, fileCount, bytesFit, filesFit⟩ := accounted.books.sums
  have bytesFit := bytesFit.trans limits.bytesFit
  have filesFit := filesFit.trans limits.filesFit
  rw [Multiset.map_add, Multiset.sum_add] at usedBytes
  rw [Multiset.card_add] at fileCount
  have scanned : scanTree posix (setUsage pushed state).host = .ok {
      usedBytes := (state.host.named.map state.host.len).sum
      fileCount := state.host.root.directories - 1 + state.host.named.card } := by
    show scanTree posix state.host = _
    rw [scanTree_eq root, if_neg shallow, min_eq_left (by omega), min_eq_left (by omega)]
  have single := (Multiset.nodup_add.mp single).2.1
  have held : ∀ key, key ∈ (⟨state.detached, single⟩ : Finset FileKey) ↔
      key ∈ state.detached ∧ (OrderedMap.empty : OrderedMap FileKey Unit).get key = none ∧
        ∃ handle ∈ state.handles.entries.map Prod.snd, handle.key = key := by
    intro key
    constructor
    · intro detached
      obtain ⟨handle, file, found, same⟩ :=
        mem_opened.mp (accounted.books.tables.detached_opened detached)
      have member := (state.handles.mem_iff_get _ _).mpr found
      exact ⟨detached, rfl, file, List.mem_map.mpr ⟨_, member, rfl⟩, same⟩
    · rintro ⟨detached, -⟩
      exact detached
  have counted : countUnlinked (setUsage pushed state)
      ((setUsage pushed state).handles.entries.map Prod.snd) .empty
      { usedBytes := (state.host.named.map state.host.len).sum
        fileCount := state.host.root.directories - 1 + state.host.named.card } =
      { usedBytes := state.usedBytes, fileCount := state.fileCount } := by
    refine (@countUnlinked_eq (setUsage pushed state) _ _ _ ⟨state.detached, single⟩ held
      ?_).trans ?_
    · dsimp only
      omega
    congr 1
    · show min ((state.host.named.map state.host.len).sum +
        (state.detached.map state.host.len).sum) u64Max = state.usedBytes
      omega
    · show state.host.root.directories - 1 + state.host.named.card + state.detached.card =
        state.fileCount
      omega
  unfold Local.refresh
  rw [outcome_bind, outcome_get]
  dsimp only [Option.bind_some]
  rw [scanned, osResult, outcome_lift_bind_ok, counted, outcome_set_bind, outcome_pure]
  rfl

end Refresh

/-! ## Runs -/

/-- A directory that a filesystem can be opened on: the names of a directory differ, no file has
two names, and the totals are numbers of 64 bits. -/
structure Host.Plain (host : Host) : Prop where
  sorted : host.root.SortedTree
  single : host.namedKeys.Nodup
  bytesFit : (host.namedKeys.map host.len).sum ≤ u64Max
  filesFit : host.root.directories + host.namedKeys.length ≤ u64Max

section Runs
variable {most : VfsStats} {posix : Posix} {quota : VfsQuota} {host : Host}
  {start state after : State}

theorem accounted_withQuota (plain : host.Plain) (opened : withQuota posix host = .ok start) :
    Accounted { usedBytes := start.usedBytes, fileCount := start.fileCount } start ∧
      start.usedBytes ≤ u64Max ∧ start.fileCount ≤ u64Max := by
  obtain ⟨usage, scanned, opened⟩ := bind_eq_ok_iff.mp opened
  obtain rfl := Except.ok.inj opened
  have reads : ∃ entries, host.root = .directory entries := by
    obtain ⟨entries, found, -⟩ := bind_eq_ok_iff.mp scanned
    have found := entriesOf_ok.mp found
    rw [DirectoryTree.at?_nil] at found
    exact ⟨entries, Option.some.inj found⟩
  obtain ⟨entries, root⟩ := reads
  rw [scanTree_eq root] at scanned
  split at scanned
  · cases scanned
  · next shallow =>
      obtain rfl := Except.ok.inj scanned
      have names := Host.coe_namedKeys host
      have sorted := plain.sorted
      rw [root] at sorted
      have tidy : host.Tidy := by
        refine ⟨⟨entries, root⟩, plain.sorted, ?_⟩
        intro path entry named visible
        by_contra long
        apply shallow
        rw [deeperThan_iff sorted]
        exact ⟨path, entry, root ▸ named, visible, not_le.mp long⟩
      have rooted := directories_pos tidy
      have bytesFit := plain.bytesFit
      have filesFit := plain.filesFit
      rw [← Multiset.sum_coe, ← Multiset.map_coe, names] at bytesFit
      rw [← Multiset.coe_card, names] at filesFit
      rw [min_eq_left bytesFit, min_eq_left (by omega)]
      refine ⟨⟨tidy, ?_⟩, bytesFit, by dsimp only; omega⟩
      constructor
      · constructor
        · intro key openFile found
          cases found
        · intro key _
          exact Multiset.notMem_zero key
        · intro handle file found
          cases found
        · intro key member
          cases Multiset.notMem_zero key member
      constructor
      · exact rooted
      · show (host.named + 0).Nodup
        rw [add_zero, ← names]
        exact plain.single
      · show (host.named.map host.len).sum = ((host.named + 0).map host.len).sum
        rw [add_zero]
      · show host.root.directories - 1 + host.named.card + 1 =
          host.root.directories + (host.named + 0).card
        rw [add_zero]
        omega
      · exact le_rfl
      · exact le_rfl

/-- Every call keeps the usage right, also when it fails. -/
theorem accounted_run (limits : Limits quota most) (call : VfsCall)
    (resizes : cutsNew call → posix.setLenFails = none) :
    Keeps (Accounted most) (run posix quota call) := by
  cases call with
  | stat path => exact (accounted_stat path).map _
  | readdir path => exact (accounted_readdir path).map _
  | mkdir path => exact (accounted_mkdir limits path).map _
  | rename source target => exact (accounted_rename source target).map _
  | unlink path => exact (accounted_unlink path).map _
  | rmdir path => exact (accounted_rmdir path).map _
  | «open» path mode => exact (accounted_open limits path mode resizes).map _
  | readAt handle offset bufLen => exact (accounted_readAt handle offset bufLen).map _
  | writeAt handle offset data => exact (accounted_writeAt limits handle offset data).map _
  | truncate handle len => exact (accounted_truncate limits handle len).map _
  | close handle => exact (accounted_close handle).map _
  | abort handle => exact (accounted_close handle).map _

theorem Accounted.step (accounted : Accounted most state) (limits : Limits quota most)
    (step : Step quota state after) : Accounted most after := by
  cases step with
  | calls resizes ran => exact (accounted_run limits _ resizes).after accounted ran
  | refreshes ran =>
      rw [← show setUsage ⟨state.usedBytes, state.fileCount⟩ state = state from rfl,
        accounted.refresh limits] at ran
      cases ran
      exact accounted

/-- The usage of a run stays below what the directory had at first or the quota. -/
def ceiling (quota : VfsQuota) (start : State) : VfsStats where
  usedBytes := max start.usedBytes quota.maxBytes.toNat
  fileCount := max start.fileCount quota.maxFiles.toNat

theorem accounted_of_run (plain : host.Plain) (opened : withQuota posix host = .ok start)
    (run : Relation.ReflTransGen (Step quota) start state) :
    Accounted (ceiling quota start) state ∧ Limits quota (ceiling quota start) := by
  obtain ⟨first, bytes, files⟩ := accounted_withQuota plain opened
  have limits : Limits quota (ceiling quota start) := by
    constructor
    · exact le_max_right _ _
    · exact le_max_right _ _
    · exact max_le bytes (Nat.le_of_lt_succ quota.maxBytes.toNat_lt)
    · exact max_le files (Nat.le_of_lt_succ quota.maxFiles.toNat_lt)
  refine ⟨?_, limits⟩
  induction run with
  | refl =>
      exact ⟨first.tidy, first.books.tables, { first.books.sums with
        bytesFit := le_max_left _ _
        entriesFit := le_max_left _ _ }⟩
  | tail _ step ih => exact ih.step limits step

/-- The usage never drifts. In every run of calls, each of which may fail or write a part of its
data, a rescan of the directory at any moment finds the usage that the run has kept, also when
other numbers were pushed in the meantime. -/
theorem usage_never_drifts (plain : host.Plain) (opened : withQuota posix host = .ok start)
    (run : Relation.ReflTransGen (Step quota) start state) (scanner : Posix) (pushed : VfsStats) :
    outcome (refresh scanner) (setUsage pushed state) =
      some (.ok { usedBytes := state.usedBytes, fileCount := state.fileCount }, state) := by
  obtain ⟨accounted, limits⟩ := accounted_of_run plain opened run
  exact accounted.refresh limits pushed

/-- An open that fails and still changes the directory has made a file that it could not cut. The
file is not counted before the next rescan. -/
theorem failed_open_uncounted (plain : host.Plain) (opened : withQuota posix host = .ok start)
    (run : Relation.ReflTransGen (Step quota) start state) {choices scanner : Posix}
    {path : Text} {mode : OpenMode} {error : Errno}
    (failed : outcome («open» choices quota path mode) state = some (.error error, after))
    (changed : after.host ≠ state.host) :
    cutsNew (.open path mode) = true ∧ choices.setLenFails ≠ none ∧
      outcome (refresh scanner) after = some (
        .ok { usedBytes := after.usedBytes, fileCount := after.fileCount + 1 },
        { after with fileCount := after.fileCount + 1 }) := by
  obtain ⟨accounted, limits⟩ := accounted_of_run plain opened run
  rcases accounted.open limits path mode _ _ failed with rfl | ⟨fails, cuts, counted⟩
  · exact absurd rfl changed
  · exact ⟨cuts, fails, counted.refresh limits ⟨after.usedBytes, after.fileCount⟩⟩

/-- The quota holds for what is on the disk, and not only for the numbers. No run brings the files
and directories of a filesystem above the quota, unless the directory was above it at first. -/
theorem quota_never_exceeded (plain : host.Plain) (opened : withQuota posix host = .ok start)
    (run : Relation.ReflTransGen (Step quota) start state) :
    (state.host.namedKeys.map state.host.len).sum ≤ max start.usedBytes quota.maxBytes.toNat ∧
      state.host.root.directories + state.host.namedKeys.length ≤
        max start.fileCount quota.maxFiles.toNat + 1 := by
  obtain ⟨accounted, -⟩ := accounted_of_run plain opened run
  have names := Host.coe_namedKeys state.host
  obtain ⟨-, -, usedBytes, fileCount, bytesFit, filesFit⟩ := accounted.books.sums
  have bytesFit : state.usedBytes ≤ max start.usedBytes quota.maxBytes.toNat := bytesFit
  have filesFit : state.fileCount ≤ max start.fileCount quota.maxFiles.toNat := filesFit
  rw [Multiset.map_add, Multiset.sum_add] at usedBytes
  rw [Multiset.card_add] at fileCount
  rw [← Multiset.sum_coe, ← Multiset.map_coe, ← Multiset.coe_card, names]
  omega

end Runs

section OneFile

/-- This directory holds one file of ten bytes. -/
def oneFile : Host := longFileOpen.host

theorem oneFile_plain : oneFile.Plain where
  sorted := DirectoryTree.sortedTree_directory_iff.mpr
    ⟨List.pairwise_singleton _ _, fun name child present => by
      rw [Entries.get_cons] at present
      split at present
      · obtain rfl := Option.some.inj present
        exact DirectoryTree.sortedTree_file _
      · cases present⟩
  single := by decide
  bytesFit := by decide
  filesFit := by decide

def oneFileOpened : State where
  host := oneFile
  handles := .empty
  openFiles := .empty
  nextHandle := 1
  usedBytes := 10
  fileCount := 1

theorem oneFile_opened : withQuota roomyHost oneFile = .ok oneFileOpened := by
  have root : oneFile.root = .directory [("a".toList, .file (.regular (toLex (0, 1))))] := rfl
  rw [withQuota, scanTree_eq root]
  rfl

/-- The file is opened and loses its name, and its bytes still count. -/
theorem usage_never_drifts_unlinked : ∃ state : State, state.host.namedKeys = [] ∧
    state.usedBytes = 10 ∧
    outcome (refresh roomyHost) (setUsage { usedBytes := 0, fileCount := 0 } state) =
      some (.ok { usedBytes := 10, fileCount := 1 }, state) := by
  have opens := @Step.calls .unlimited oneFileOpened _ roomyHost
    (.open "/a".toList { read := true }) _ (fun _ => rfl) rfl
  have run := (Relation.ReflTransGen.single opens).tail
    (@Step.calls .unlimited _ _ roomyHost (.unlink "/a".toList) _ (fun _ => rfl) rfl)
  exact ⟨_, rfl, rfl, usage_never_drifts oneFile_plain oneFile_opened run roomyHost _⟩

/-- The new file is there, and the counter still says one. -/
theorem failed_open_uncounted_one : ∃ after : State, after.fileCount = 1 ∧
    outcome (refresh roomyHost) after =
      some (.ok { usedBytes := 10, fileCount := 2 }, { after with fileCount := 2 }) := by
  have opens := @failed_open_uncounted _ .unlimited _ _ _ _ oneFile_plain oneFile_opened .refl
    { roomyHost with setLenFails := some .other } roomyHost "/b".toList
    { write := true, create := true, truncate := true } _ rfl
  have changed := opens fun same =>
    absurd (congrArg (fun host => host.namedKeys.length) same) (by decide)
  exact ⟨_, rfl, changed.2.2⟩

/-- A second file may not be made when one is allowed. -/
theorem quota_never_exceeded_one : ∃ state : State,
    state.host.namedKeys = [toLex (0, 1)] ∧
      (state.host.namedKeys.map state.host.len).sum ≤ max 10 15 := by
  have refused := @Step.calls { VfsQuota.unlimited with maxBytes := 15, maxFiles := 1 }
    oneFileOpened _ roomyHost (.open "/b".toList { write := true, create := true }) _
    (fun _ => rfl) rfl
  exact ⟨_, rfl, (quota_never_exceeded oneFile_plain oneFile_opened (.single refused)).1⟩

end OneFile

end TinySandbox.Local
