/-
This file keeps the books of a local filesystem.
Its tables and numbers agree with the names of its directory when the directory changes, a file
changes its length, and handles come and go.
-/

import TinySandbox.Proof.Local.Quota

namespace TinySandbox.Local
open Library Library.Call
open Mem (VfsQuota VfsCall Reply)

/-! ## The books -/

/-- These are the files of the handles, once for each handle. -/
def State.opened (state : State) : Multiset FileKey :=
  Entries.total (fun entry => {entry.2.key}) state.handles.entries

def detachedKey (entry : FileKey × OpenFileState) : Multiset FileKey :=
  if entry.2.unlinked then {entry.1} else 0

/-- These files have no name any more, and a handle keeps each of them. -/
def State.detached (state : State) : Multiset FileKey :=
  Entries.total detachedKey state.openFiles.entries

/-- These are the totals of the files and the directories, and they are at most these numbers. -/
structure Sums (most : VfsStats) (files : Multiset FileKey) (len : FileKey → Nat)
    (directories usedBytes fileCount : Nat) : Prop where
  rooted : 0 < directories
  single : files.Nodup
  bytes : usedBytes = (files.map len).sum
  entries : fileCount + 1 = directories + files.card
  bytesFit : usedBytes ≤ most.usedBytes
  entriesFit : fileCount ≤ most.fileCount

/-- Every handle is counted, and it keeps one of these files. -/
structure Tables (files : Multiset FileKey) (state : State) : Prop where
  counted : ∀ key openFile, state.openFiles.get key = some openFile →
    0 < openFile.openHandles ∧ openFile.openHandles = state.opened.count key
  listed : ∀ key, state.openFiles.get key = none → key ∉ state.opened
  recent : ∀ handle file, state.handles.get handle = some file → handle < state.nextHandle
  held : ∀ key ∈ state.opened, key ∈ files

/-- The tables and the numbers of a filesystem agree with the files that have these names and with
the lengths of the files. -/
structure Balanced (most : VfsStats) (named : Multiset FileKey) (len : FileKey → Nat)
    (directories : Nat) (state : State) : Prop where
  tables : Tables (named + state.detached) state
  sums : Sums most (named + state.detached) len directories state.usedBytes state.fileCount

section Books
variable {most : VfsStats} {state : State} {named : Multiset FileKey} {len : FileKey → Nat}
  {directories : Nat} {key : FileKey}

theorem mem_opened : key ∈ state.opened ↔
    ∃ handle file, state.handles.get handle = some file ∧ file.key = key := by
  rw [State.opened, Entries.mem_total]
  constructor
  · rintro ⟨entry, member, same⟩
    exact ⟨entry.1, entry.2, (state.handles.mem_iff_get _ _).mp member,
      (Multiset.mem_singleton.mp same).symm⟩
  · rintro ⟨handle, file, found, same⟩
    exact ⟨(handle, file), (state.handles.mem_iff_get _ _).mpr found,
      Multiset.mem_singleton.mpr same.symm⟩

theorem mem_detachedKey {entry : FileKey × OpenFileState} :
    key ∈ detachedKey entry ↔ entry.1 = key ∧ entry.2.unlinked = true := by
  unfold detachedKey
  cases entry.2.unlinked with
  | true => simp [eq_comm]
  | false => simp

theorem mem_detached : key ∈ state.detached ↔
    ∃ openFile, state.openFiles.get key = some openFile ∧ openFile.unlinked = true := by
  rw [State.detached, Entries.mem_total]
  constructor
  · rintro ⟨⟨other, openFile⟩, member, unlinked⟩
    obtain ⟨rfl, gone⟩ := mem_detachedKey.mp unlinked
    exact ⟨openFile, (state.openFiles.mem_iff_get _ _).mp member, gone⟩
  · rintro ⟨openFile, found, unlinked⟩
    exact ⟨(key, openFile), (state.openFiles.mem_iff_get _ _).mpr found,
      mem_detachedKey.mpr ⟨rfl, unlinked⟩⟩

/-- The table gets a new record of a file. -/
def State.record (state : State) (key : FileKey) (openFile : OpenFileState) : State :=
  { state with openFiles := state.openFiles.insert key openFile }

def State.forget (state : State) (key : FileKey) : State :=
  { state with openFiles := state.openFiles.erase key }

/-- The next handle is given to a file. -/
def State.attach (state : State) (file : HandleState) : State :=
  { state with
    handles := state.handles.insert state.nextHandle file, nextHandle := state.nextHandle + 1 }

def State.drop (state : State) (handle : Nat) : State :=
  { state with handles := state.handles.erase handle }

theorem detached_record (state : State) (key : FileKey) (openFile : OpenFileState) :
    (state.record key openFile).detached +
        ((state.openFiles.get key).map fun old => detachedKey (key, old)).getD 0 =
      state.detached + detachedKey (key, openFile) :=
  Entries.total_insert detachedKey state.openFiles.sorted key openFile

theorem detached_forget (state : State) (key : FileKey) :
    (state.forget key).detached +
        ((state.openFiles.get key).map fun old => detachedKey (key, old)).getD 0 =
      state.detached :=
  Entries.total_erase detachedKey state.openFiles.sorted key

theorem opened_attach (fresh : state.handles.get state.nextHandle = none) (file : HandleState) :
    (state.attach file).opened = state.opened + {file.key} := by
  have balance := Entries.total_insert (fun entry => ({entry.2.key} : Multiset FileKey))
    state.handles.sorted state.nextHandle file
  rw [show Entries.get state.nextHandle state.handles.entries = none from fresh, Option.map_none,
    Option.getD_none, add_zero] at balance
  exact balance

theorem opened_drop {handle : Nat} {file : HandleState}
    (found : state.handles.get handle = some file) :
    (state.drop handle).opened + {file.key} = state.opened := by
  have balance := Entries.total_erase (fun entry => ({entry.2.key} : Multiset FileKey))
    state.handles.sorted handle
  rw [show Entries.get handle state.handles.entries = some file from found] at balance
  exact balance

section Sums
variable {files : Multiset FileKey} {usedBytes fileCount : Nat}

/-- A file that goes takes its length and its entry along. -/
theorem Sums.drop (sums : Sums most (key ::ₘ files) len directories usedBytes fileCount) :
    Sums most files len directories (usedBytes - len key) (fileCount - 1) := by
  have rooted := sums.rooted
  have bytes := sums.bytes
  have entries := sums.entries
  rw [Multiset.map_cons, Multiset.sum_cons] at bytes
  rw [Multiset.card_cons] at entries
  exact { sums with
    single := (Multiset.nodup_cons.mp sums.single).2
    bytes := by omega
    entries := by omega
    bytesFit := (Nat.sub_le _ _).trans sums.bytesFit
    entriesFit := (Nat.sub_le _ _).trans sums.entriesFit }

/-- A new file starts empty. -/
theorem Sums.create (sums : Sums most files len directories usedBytes fileCount)
    (fresh : key ∉ files) (fits : fileCount + 1 ≤ most.fileCount) :
    Sums most (key ::ₘ files) (Function.update len key 0) directories usedBytes
      (fileCount + 1) := by
  have others : files.map (Function.update len key 0) = files.map len := by
    apply Multiset.map_congr rfl
    intro other inside
    apply Function.update_of_ne
    rintro rfl
    exact fresh inside
  exact { sums with
    single := Multiset.nodup_cons.mpr ⟨fresh, sums.single⟩
    bytes := by
      rw [Multiset.map_cons, Multiset.sum_cons, Function.update_self, others, zero_add]
      exact sums.bytes
    entries := by
      rw [Multiset.card_cons, sums.entries, add_assoc]
    entriesFit := fits }

/-- A file that changes its length changes the usage by as much. -/
theorem Sums.resize (sums : Sums most files len directories usedBytes fileCount)
    (known : key ∈ files) {size total : Nat} (balance : total + len key = usedBytes + size)
    (fits : total ≤ most.usedBytes) :
    Sums most files (Function.update len key size) directories total fileCount := by
  obtain ⟨rest, rfl⟩ := Multiset.exists_cons_of_mem known
  have apart := (Multiset.nodup_cons.mp sums.single).1
  have others : rest.map (Function.update len key size) = rest.map len := by
    apply Multiset.map_congr rfl
    intro other inside
    apply Function.update_of_ne
    rintro rfl
    exact apart inside
  have bytes := sums.bytes
  rw [Multiset.map_cons, Multiset.sum_cons] at bytes
  exact { sums with
    bytes := by
      rw [Multiset.map_cons, Multiset.sum_cons, Function.update_self, others]
      omega
    bytesFit := fits }

/-- Only the number of directories and the number of entries change. -/
theorem Sums.recount (sums : Sums most files len directories usedBytes fileCount)
    {more total : Nat} (rooted : 0 < more) (balance : total + directories = fileCount + more)
    (fits : total ≤ most.fileCount) : Sums most files len more usedBytes total := by
  have entries := sums.entries
  exact { sums with
    rooted
    entries := by omega
    entriesFit := fits }

end Sums

/-- A file that loses its name is released, unless a handle keeps it. -/
theorem Balanced.release (books : Balanced most (key ::ₘ named) len directories state) :
    Balanced most named len directories (releaseEntry key (len key) state) := by
  obtain ⟨tables, sums⟩ := books
  rw [Multiset.cons_add] at tables sums
  unfold releaseEntry
  cases found : state.openFiles.get key with
  | none =>
      refine ⟨{ tables with held := ?_ }, sums.drop⟩
      intro other member
      rcases Multiset.mem_cons.mp (tables.held other member) with rfl | kept
      · exact absurd member (tables.listed other found)
      · exact kept
  | some openFile =>
      have linked : openFile.unlinked = false := by
        by_contra gone
        have inside := mem_detached.mpr ⟨openFile, found, Bool.eq_true_of_not_eq_false gone⟩
        exact (Multiset.nodup_cons.mp sums.single).1 (Multiset.mem_add.mpr (.inr inside))
      have moved := detached_record state key
        { openFile with unlinked := true }
      rw [found, Option.map_some, Option.getD_some, detachedKey, linked, if_neg Bool.false_ne_true,
        add_zero, detachedKey, if_pos rfl] at moved
      have whole : key ::ₘ (named + state.detached) =
          named + (state.record key { openFile with unlinked := true }).detached := by
        rw [moved, ← add_assoc, ← Multiset.singleton_add, Multiset.add_comm]
      rw [whole] at tables sums
      refine ⟨{ tables with counted := ?_, listed := ?_ }, sums⟩
      · intro other file present
        rw [OrderedMap.get_insert] at present
        split at present
        · next same =>
            obtain rfl := Option.some.inj present
            exact same ▸ tables.counted key openFile found
        · exact tables.counted other file present
      · intro other absent
        rw [OrderedMap.get_insert] at absent
        split at absent
        · cases absent
        · exact tables.listed other absent

/-- A new handle is counted for its file. -/
theorem Balanced.attach (books : Balanced most named len directories state) {file : HandleState}
    (known : file.key ∈ named + state.detached) {old : OpenFileState}
    (was : (state.openFiles.get file.key).getD {} = old) :
    Balanced most named len directories
      ((state.record file.key { old with openHandles := old.openHandles + 1 }).attach file) := by
  obtain ⟨tables, sums⟩ := books
  have fresh : state.handles.get state.nextHandle = none := by
    by_contra taken
    obtain ⟨other, found⟩ := Option.ne_none_iff_exists'.mp taken
    exact absurd (tables.recent _ other found) (lt_irrefl _)
  have opened : ((state.record file.key
      { old with openHandles := old.openHandles + 1 }).attach file).opened =
        state.opened + {file.key} := opened_attach fresh file
  have moved := detached_record state file.key { old with openHandles := old.openHandles + 1 }
  have both : (state.record file.key
      { old with openHandles := old.openHandles + 1 }).detached = state.detached ∧
        old.openHandles = state.opened.count file.key := by
    cases found : state.openFiles.get file.key with
    | none =>
        rw [found, Option.getD_none] at was
        subst was
        rw [found] at moved
        exact ⟨by simpa [detachedKey] using moved,
          (Multiset.count_eq_zero_of_notMem (tables.listed _ found)).symm⟩
    | some openFile =>
        rw [found, Option.getD_some] at was
        subst was
        rw [found] at moved
        exact ⟨add_right_cancel moved, (tables.counted _ _ found).2⟩
  obtain ⟨detached, count⟩ := both
  rw [← detached] at tables sums known
  refine ⟨⟨?_, ?_, ?_, ?_⟩, sums⟩
  · intro other openFile found
    rw [opened, Multiset.count_add, Multiset.count_singleton]
    rw [State.attach, State.record, OrderedMap.get_insert] at found
    split at found
    · next here =>
        obtain rfl := Option.some.inj found
        rw [if_pos here, here, ← count]
        exact ⟨Nat.succ_pos _, rfl⟩
    · next different =>
        rw [if_neg different]
        exact tables.counted other openFile found
  · intro other absent
    rw [State.attach, State.record, OrderedMap.get_insert] at absent
    split at absent
    · cases absent
    · next different =>
        rw [opened, Multiset.mem_add, Multiset.mem_singleton]
        exact not_or.mpr ⟨tables.listed other absent, different⟩
  · intro handle other found
    rw [State.attach, OrderedMap.get_insert] at found
    show handle < state.nextHandle + 1
    split at found
    · next here => exact here ▸ Nat.lt_succ_self _
    · exact Nat.lt_succ_of_lt (tables.recent handle other found)
  · intro other member
    rw [opened, Multiset.mem_add, Multiset.mem_singleton] at member
    rcases member with before | rfl
    · exact tables.held other before
    · exact known

/-- A handle that is closed is not counted any more, and the last one releases a file without a
name. -/
theorem Balanced.close (books : Balanced most named len directories state) {handle : Nat}
    {file : HandleState} (found : state.handles.get handle = some file) :
    ∃ openFile, state.openFiles.get file.key = some openFile ∧ 0 < openFile.openHandles ∧
      (1 < openFile.openHandles → Balanced most named len directories
        ((state.drop handle).record file.key
          { openFile with openHandles := openFile.openHandles - 1 })) ∧
      (openFile.openHandles = 1 →
        (openFile.unlinked = true → Balanced most named len directories
          (setUsage
            { usedBytes := state.usedBytes - len file.key, fileCount := state.fileCount - 1 }
            ((state.drop handle).forget file.key))) ∧
        (openFile.unlinked = false → Balanced most named len directories
          ((state.drop handle).forget file.key))) := by
  obtain ⟨tables, sums⟩ := books
  have opened : (state.drop handle).opened + {file.key} = state.opened := opened_drop found
  have recent : ∀ other file, (state.drop handle).handles.get other = some file →
      other < state.nextHandle := by
    intro other file stays
    rw [State.drop, OrderedMap.get_erase] at stays
    split at stays
    · cases stays
    · exact tables.recent other file stays
  have count (other : FileKey) : state.opened.count other =
      (state.drop handle).opened.count other + if other = file.key then 1 else 0 := by
    rw [← opened, Multiset.count_add, Multiset.count_singleton]
  have within {key : FileKey} (stays : key ∈ (state.drop handle).opened) : key ∈ state.opened := by
    rw [← opened]
    exact Multiset.mem_add.mpr (.inl stays)
  have held : ∀ key ∈ (state.drop handle).opened, key ∈ named + state.detached :=
    fun key stays => tables.held key (within stays)
  obtain ⟨openFile, listed⟩ : ∃ openFile, state.openFiles.get file.key = some openFile := by
    apply Option.ne_none_iff_exists'.mp
    intro absent
    exact tables.listed _ absent (mem_opened.mpr ⟨handle, file, found, rfl⟩)
  obtain ⟨positive, exact⟩ := tables.counted _ _ listed
  refine ⟨openFile, listed, positive, ?_, ?_⟩
  · intro more
    have moved := detached_record (state.drop handle) file.key
      { openFile with openHandles := openFile.openHandles - 1 }
    rw [show (state.drop handle).openFiles.get file.key = some openFile from listed] at moved
    have detached : ((state.drop handle).record file.key
        { openFile with openHandles := openFile.openHandles - 1 }).detached = state.detached :=
      add_right_cancel moved
    rw [← detached] at held sums
    refine ⟨⟨?_, ?_, recent, held⟩, sums⟩
    · intro other present here
      show 0 < present.openHandles ∧ present.openHandles = (state.drop handle).opened.count other
      have step := count other
      rw [State.record, OrderedMap.get_insert] at here
      split at here
      · next same =>
          obtain rfl := Option.some.inj here
          rw [if_pos same, same, ← exact] at step
          dsimp only
          rw [same]
          omega
      · next different =>
          rw [if_neg different, add_zero] at step
          exact step ▸ tables.counted other present here
    · intro other absent
      rw [State.record, OrderedMap.get_insert] at absent
      split at absent
      · cases absent
      · exact fun stays => tables.listed other absent (within stays)
  · intro last
    have moved := detached_forget (state.drop handle) file.key
    rw [show (state.drop handle).openFiles.get file.key = some openFile from listed,
      Option.map_some, Option.getD_some, detachedKey] at moved
    have gone : file.key ∉ (state.drop handle).opened := by
      have step := count file.key
      rw [if_pos rfl, ← exact, last] at step
      exact Multiset.count_eq_zero.mp (by omega)
    have counted : ∀ other present,
        ((state.drop handle).forget file.key).openFiles.get other = some present →
          0 < present.openHandles ∧
            present.openHandles = (state.drop handle).opened.count other := by
      intro other present here
      rw [State.forget, OrderedMap.get_erase] at here
      split at here
      · cases here
      · next different =>
          have step := count other
          rw [if_neg different, add_zero] at step
          exact step ▸ tables.counted other present here
    have absent : ∀ other, ((state.drop handle).forget file.key).openFiles.get other = none →
        other ∉ (state.drop handle).opened := by
      intro other none
      rw [State.forget, OrderedMap.get_erase] at none
      split at none
      · next same => exact same ▸ gone
      · exact fun stays => tables.listed other none (within stays)
    constructor
    · intro unlinked
      rw [if_pos unlinked] at moved
      have split : named + state.detached =
          file.key ::ₘ (named + ((state.drop handle).forget file.key).detached) := by
        rw [← show _ = state.detached from moved, ← add_assoc, ← Multiset.singleton_add,
          Multiset.add_comm]
      rw [split] at held sums
      refine ⟨⟨counted, absent, recent, ?_⟩, sums.drop⟩
      intro other stays
      rcases Multiset.mem_cons.mp (held other stays) with rfl | kept
      · exact absurd stays gone
      · exact kept
    · intro linked
      rw [linked, if_neg Bool.false_ne_true, add_zero] at moved
      have detached : ((state.drop handle).forget file.key).detached = state.detached := moved
      rw [← detached] at held sums
      exact ⟨⟨counted, absent, recent, held⟩, sums⟩

end Books

/-! ## The tree of the host -/

def fileKey : HostObject → Option FileKey
  | .regular key => some key
  | .special => none

/-- These are the files that the names of a tree use. -/
def keysIn (node : HostNode) : Multiset FileKey := Multiset.filterMap fileKey node.leaves

abbrev Host.named (host : Host) : Multiset FileKey := keysIn host.root

@[simp] theorem keysIn_regular (key : FileKey) : keysIn (.file (.regular key)) = {key} := rfl

@[simp] theorem keysIn_special : keysIn (.file .special) = 0 := rfl

@[simp] theorem keysIn_empty : keysIn (.directory []) = 0 := rfl

theorem Host.coe_namedKeys (host : Host) : (host.namedKeys : Multiset FileKey) = host.named := by
  unfold Host.namedKeys Host.named keysIn
  rw [Multiset.filterMap_coe]
  congr 2

theorem entriesOf_ok {host : Host} {dir : Path} {entries : HostDirectory} :
    host.entriesOf dir = .ok entries ↔ host.root.at? dir = some (.directory entries) := by
  unfold Host.entriesOf
  constructor
  · intro found
    split at found
    · next here => exact Except.ok.inj found ▸ here
    · cases found
    · cases found
  · intro here
    rw [here]

/-- The tree has one root directory, and nothing that counts lies below the depth of a path. -/
structure Host.Tidy (host : Host) : Prop where
  directory : ∃ entries, host.root = .directory entries
  sorted : host.root.SortedTree
  shallow : ∀ path entry, host.root.view path = some entry → entry ≠ .file .special →
    path.length ≤ maxPathDepth

section Tree
variable {posix : Posix} {host after : Host} {dir : Path} {name : Name} {entries : HostDirectory}

theorem replace_isDirectory (tidy : host.Tidy) (dir : Path) (entries : HostDirectory) :
    ∃ inner, host.root.replace dir (.directory entries) = .directory inner := by
  obtain ⟨outer, root⟩ := tidy.directory
  rw [root]
  cases dir with
  | nil => exact ⟨entries, rfl⟩
  | cons name rest =>
      unfold DirectoryTree.replace
      split
      · exact ⟨outer, rfl⟩
      · exact ⟨_, rfl⟩

theorem directories_pos (tidy : host.Tidy) : 0 < host.root.directories := by
  obtain ⟨entries, root⟩ := tidy.directory
  rw [root, DirectoryTree.directories]
  exact Nat.succ_pos _

/-- A node that is stored at a free depth keeps the tree tidy. -/
theorem Host.Tidy.stored (tidy : host.Tidy)
    (found : host.root.at? dir = some (.directory entries)) (name : Name) {child : HostNode}
    (sorted : child.SortedTree)
    (fits : ∀ rest entry, child.view rest = some entry → entry ≠ .file .special →
      dir.length + 1 + rest.length ≤ maxPathDepth) :
    (host.setEntries dir (Entries.insert name child entries)).Tidy := by
  constructor
  · exact replace_isDirectory tidy dir _
  · exact tidy.sorted.replace dir ((tidy.sorted.at? found).store sorted name)
  · intro path entry named visible
    rw [Host.setEntries, DirectoryTree.view_store found] at named
    split at named
    · next inside =>
        have length := fits _ entry named visible
        have long := inside.length_le
        rw [List.length_append, List.length_singleton] at long
        rw [List.length_drop] at length
        omega
    · exact tidy.shallow path entry named visible

theorem Host.Tidy.discarded (tidy : host.Tidy)
    (found : host.root.at? dir = some (.directory entries)) (name : Name) :
    (host.setEntries dir (Entries.erase name entries)).Tidy := by
  constructor
  · exact replace_isDirectory tidy dir _
  · exact tidy.sorted.replace dir ((tidy.sorted.at? found).discard name)
  · intro path entry named visible
    rw [Host.setEntries, DirectoryTree.view_discard found] at named
    split at named
    · cases named
    · exact tidy.shallow path entry named visible

theorem filterMap_getD (old : Option HostNode) :
    Multiset.filterMap fileKey ((old.map fun node => (node.leaves : Multiset HostObject)).getD 0) =
      (old.map keysIn).getD 0 := by
  cases old <;> rfl

theorem named_stored (tidy : host.Tidy)
    (found : host.root.at? dir = some (.directory entries)) (name : Name) (child : HostNode) :
    (host.setEntries dir (Entries.insert name child entries)).named +
        ((Entries.get name entries).map keysIn).getD 0 = host.named + keysIn child := by
  have balance := congrArg (Multiset.filterMap fileKey)
    (DirectoryTree.leaves_stored tidy.sorted found name child)
  rw [Multiset.filterMap_add, Multiset.filterMap_add, filterMap_getD] at balance
  exact balance

theorem named_discarded (tidy : host.Tidy)
    (found : host.root.at? dir = some (.directory entries)) (name : Name) :
    (host.setEntries dir (Entries.erase name entries)).named +
        ((Entries.get name entries).map keysIn).getD 0 = host.named := by
  have balance := congrArg (Multiset.filterMap fileKey)
    (DirectoryTree.leaves_discarded tidy.sorted found name)
  rw [Multiset.filterMap_add, filterMap_getD] at balance
  exact balance

theorem len_put (key : FileKey) (bytes : Bytes) :
    (host.put key bytes).len = Function.update host.len key bytes.length := by
  funext other
  by_cases same : other = key
  · subst same
    simp [Host.len, Host.put]
  · simp [Host.len, Host.put, same]

end Tree

/-! ## The states of a run -/

/-- The usage of this state is the usage of its directory. -/
structure Accounted (most : VfsStats) (state : State) : Prop where
  tidy : state.host.Tidy
  books : Balanced most state.host.named state.host.len state.host.root.directories state

section Moves
variable {most : VfsStats} {posix : Posix} {state : State} {host : Host} {dir : Path}
  {name : Name} {key : FileKey}

/-- The tables do not read the directory and the numbers. -/
theorem Accounted.moved {named : Multiset FileKey} {len : FileKey → Nat}
    {directories usedBytes fileCount : Nat} (tidy : host.Tidy)
    (tables : Tables (named + state.detached) state)
    (sums : Sums most (named + state.detached) len directories usedBytes fileCount)
    (names : host.named = named) (lens : host.len = len)
    (count : host.root.directories = directories) :
    Accounted most { state with host, usedBytes, fileCount } := by
  subst names lens count
  exact ⟨tidy, { tables with }, sums⟩

theorem Accounted.mkdirat (accounted : Accounted most state)
    (slot : state.fileCount + 1 ≤ most.fileCount)
    (depth : dir.length + 1 ≤ maxPathDepth) (made : state.host.mkdirat dir name = .ok host) :
    Accounted most { state with host, fileCount := state.fileCount + 1 } := by
  obtain ⟨entries, found, made⟩ := bind_eq_ok_iff.mp made
  have found := entriesOf_ok.mp found
  cases there : Entries.get name entries with
  | some node =>
      rw [there] at made
      cases made
  | none =>
      rw [there] at made
      obtain rfl := Except.ok.inj made
      have names := named_stored accounted.tidy found name (.directory [])
      have count := DirectoryTree.directories_stored accounted.tidy.sorted found name
        (.directory [])
      rw [there] at names count
      rw [Option.map_none, Option.getD_none, add_zero, keysIn_empty, add_zero] at names
      have sorted : (DirectoryTree.directory [] : HostNode).SortedTree :=
        DirectoryTree.sortedTree_directory_iff.mpr ⟨List.Pairwise.nil, by simp⟩
      have tidy : (state.host.setEntries dir
          (Entries.insert name (.directory []) entries)).Tidy := by
        apply accounted.tidy.stored found name sorted
        intro rest entry named visible
        cases rest with
        | nil => exact depth
        | cons first rest => cases named
      have more : (state.host.setEntries dir
          (Entries.insert name (.directory []) entries)).root.directories =
            state.host.root.directories + 1 := count
      have sums := accounted.books.sums.recount (Nat.succ_pos state.host.root.directories)
        (by omega) slot
      exact .moved tidy accounted.books.tables sums names rfl more

theorem Tables.detached_opened {files : Multiset FileKey} (tables : Tables files state)
    (detached : key ∈ state.detached) : key ∈ state.opened := by
  obtain ⟨openFile, found, -⟩ := mem_detached.mp detached
  obtain ⟨positive, count⟩ := tables.counted key openFile found
  rw [count] at positive
  exact Multiset.count_pos.mp positive

/-- A key that the host hands out belongs to no file yet. -/
theorem Accounted.fresh (accounted : Accounted most state) (posix : Posix) :
    posix.allocate state.usedKeys ∉ state.host.named + state.detached := by
  intro member
  apply posix.allocate_fresh state.usedKeys
  rw [State.usedKeys, List.mem_append]
  rcases Multiset.mem_add.mp member with named | detached
  · left
    rw [← Multiset.mem_coe, Host.coe_namedKeys]
    exact named
  · right
    obtain ⟨handle, file, found, same⟩ :=
      mem_opened.mp (accounted.books.tables.detached_opened detached)
    exact List.mem_map.mpr ⟨(handle, file), (state.handles.mem_iff_get _ _).mpr found, same⟩

theorem Accounted.createat (accounted : Accounted most state)
    (slot : state.fileCount + 1 ≤ most.fileCount)
    (depth : dir.length + 1 ≤ maxPathDepth)
    (made : state.host.createat posix state.usedKeys dir name = .ok (key, host)) :
    Accounted most { state with host, fileCount := state.fileCount + 1 } ∧ key ∈ host.named ∧
      host.len key = 0 := by
  obtain ⟨entries, found, made⟩ := bind_eq_ok_iff.mp made
  have found := entriesOf_ok.mp found
  cases there : Entries.get name entries with
  | some node =>
      rw [there] at made
      cases made
  | none =>
      rw [there] at made
      obtain ⟨rfl, rfl⟩ := Prod.mk.inj (Except.ok.inj made)
      have names := named_stored accounted.tidy found name
        (.file (.regular (posix.allocate state.usedKeys)))
      have count := DirectoryTree.directories_stored accounted.tidy.sorted found name
        (.file (.regular (posix.allocate state.usedKeys)))
      rw [there] at names count
      rw [Option.map_none, Option.getD_none, add_zero, keysIn_regular, Multiset.add_comm,
        Multiset.singleton_add] at names
      have tidy : ((state.host.put (posix.allocate state.usedKeys) []).setEntries dir
          (Entries.insert name (.file (.regular (posix.allocate state.usedKeys)))
            entries)).Tidy := by
        have base := accounted.tidy.stored found name
          (DirectoryTree.sortedTree_file (.regular (posix.allocate state.usedKeys)))
          (by
            intro rest entry named visible
            cases rest with
            | nil => exact depth
            | cons first rest => cases named)
        exact ⟨base.directory, base.sorted, base.shallow⟩
      have lens : ((state.host.put (posix.allocate state.usedKeys) []).setEntries dir
          (Entries.insert name (.file (.regular (posix.allocate state.usedKeys))) entries)).len =
            Function.update state.host.len (posix.allocate state.usedKeys) 0 := len_put _ []
      have listed : posix.allocate state.usedKeys ∈ (state.host.setEntries dir
          (Entries.insert name (.file (.regular (posix.allocate state.usedKeys)))
            entries)).named := by
        rw [names]
        exact Multiset.mem_cons_self _ _
      have tables : Tables (posix.allocate state.usedKeys ::ₘ (state.host.named + state.detached))
          state :=
        { accounted.books.tables with
          held := fun key kept => Multiset.mem_cons_of_mem (accounted.books.tables.held key kept) }
      have sums := accounted.books.sums.create (accounted.fresh posix) slot
      rw [← Multiset.cons_add] at tables sums
      refine ⟨.moved tidy tables sums names lens count, listed, ?_⟩
      rw [lens, Function.update_self]

/-- The bytes of a file change, and the usage follows. -/
theorem Accounted.put (accounted : Accounted most state)
    (known : key ∈ state.host.named + state.detached) {bytes : Bytes} {usedBytes : Nat}
    (balance : usedBytes + state.host.len key = state.usedBytes + bytes.length)
    (fits : usedBytes ≤ most.usedBytes) :
    Accounted most { state with host := state.host.put key bytes, usedBytes } := by
  have tidy : (state.host.put key bytes).Tidy :=
    ⟨accounted.tidy.directory, accounted.tidy.sorted, accounted.tidy.shallow⟩
  have sums := accounted.books.sums.resize known balance fits
  exact .moved tidy accounted.books.tables sums rfl (len_put key bytes) rfl

theorem releaseEntry_withHost (len : Nat) :
    releaseEntry key len { state with host } = { releaseEntry key len state with host } := by
  unfold releaseEntry
  dsimp only
  split <;> rfl

def describe (host : Host) : HostNode → EntryMetadata
  | .directory _ => .directory
  | .file (.regular key) => .file key (host.len key)
  | .file .special => .other

/-- A directory that a node has left, and what has to be released for it. -/
theorem Accounted.leave (accounted : Accounted most state) (old : Option HostNode)
    (tidy : host.Tidy)
    (names : host.named + (old.map keysIn).getD 0 = state.host.named)
    (lens : host.len = state.host.len)
    (count : host.root.directories + (old.map DirectoryTree.directories).getD 0 =
      state.host.root.directories)
    (empty : ∀ children, old = some (.directory children) → children = []) :
    Accounted most (releaseTarget (old.map (describe state.host)) { state with host }) := by
  cases old with
  | none =>
      rw [Option.map_none, Option.getD_none, add_zero] at names
      exact .moved tidy accounted.books.tables accounted.books.sums names lens count
  | some node =>
      rw [Option.map_some, Option.getD_some] at names count
      cases node with
      | file object =>
          cases object with
          | regular key =>
              rw [keysIn_regular, Multiset.add_comm, Multiset.singleton_add] at names
              have books := accounted.books
              rw [← names] at books
              show Accounted most (releaseEntry key (state.host.len key) { state with host })
              rw [releaseEntry_withHost]
              exact .moved tidy books.release.tables books.release.sums rfl lens count
          | special =>
              rw [keysIn_special, add_zero] at names
              exact .moved tidy accounted.books.tables accounted.books.sums names lens count
      | directory children =>
          obtain rfl := empty children rfl
          have one : (DirectoryTree.directory [] : HostNode).directories = 1 := rfl
          rw [keysIn_empty, add_zero] at names
          rw [one] at count
          have rooted := directories_pos tidy
          have before := accounted.books.sums.entries
          have balance : state.fileCount - 1 + state.host.root.directories =
              state.fileCount + host.root.directories := by omega
          have sums := accounted.books.sums.recount rooted balance
            ((Nat.sub_le _ _).trans accounted.books.sums.entriesFit)
          show Accounted most { state with host, fileCount := state.fileCount - 1 }
          exact .moved tidy accounted.books.tables sums names lens rfl

theorem Accounted.erase (accounted : Accounted most state) {entries : HostDirectory}
    {node : HostNode} (found : state.host.root.at? dir = some (.directory entries))
    (there : Entries.get name entries = some node)
    (empty : ∀ children, node = .directory children → children = []) :
    Accounted most (releaseTarget (some (describe state.host node))
      { state with host := state.host.setEntries dir (Entries.erase name entries) }) := by
  have names := named_discarded accounted.tidy found name
  have count := DirectoryTree.directories_discarded accounted.tidy.sorted found name
  rw [there] at names count
  apply accounted.leave (some node) (accounted.tidy.discarded found name) names rfl count
  intro children same
  exact empty children (Option.some.inj same)

theorem Accounted.unlinkat (accounted : Accounted most state)
    (there : state.host.root.at? (dir ++ [name]) = some (.file (.regular key)))
    (removed : state.host.unlinkat dir name = .ok host) :
    Accounted most (releaseEntry key (state.host.len key) { state with host }) := by
  obtain ⟨entries, found, removed⟩ := bind_eq_ok_iff.mp removed
  have found := entriesOf_ok.mp found
  rw [DirectoryTree.at?_append, found, Option.bind_some, DirectoryTree.directory_at?_single]
    at there
  rw [there] at removed
  obtain rfl := Except.ok.inj removed
  apply accounted.erase found there
  intro children same
  cases same

theorem Accounted.rmdirat (accounted : Accounted most state)
    (removed : state.host.rmdirat posix dir name = .ok host) :
    Accounted most { state with host, fileCount := state.fileCount - 1 } := by
  obtain ⟨entries, found, removed⟩ := bind_eq_ok_iff.mp removed
  have found := entriesOf_ok.mp found
  cases there : Entries.get name entries with
  | none =>
      rw [there] at removed
      cases removed
  | some node =>
      rw [there] at removed
      cases node with
      | file object => cases removed
      | directory children =>
          dsimp only at removed
          split at removed
          · cases removed
          · next empty =>
              obtain rfl := Except.ok.inj removed
              apply accounted.erase found there
              intro inner same
              obtain rfl := DirectoryTree.directory.inj same
              exact not_not.mp empty

end Moves

section Renames
variable {most : VfsStats} {posix : Posix} {state : State} {host : Host} {dir : Path}
  {name : Name} {key : FileKey}
  {entries : HostDirectory}

theorem at?_child (found : host.root.at? dir = some (.directory entries)) (name : Name) :
    host.root.at? (dir ++ [name]) = Entries.get name entries := by
  rw [DirectoryTree.at?_append, found, Option.bind_some, DirectoryTree.directory_at?_single]

theorem eq_nil_of_childless {tree : HostNode} {path : Path} {children : HostDirectory}
    (found : tree.at? path = some (.directory children))
    (childless : ∀ name, tree.view (path ++ [name]) = none) : children = [] := by
  cases children with
  | nil => rfl
  | cons entry rest =>
      have absent := childless entry.1
      rw [DirectoryTree.view, DirectoryTree.at?_append, found, Option.bind_some,
        DirectoryTree.directory_at?_single, Entries.get_cons, if_pos rfl] at absent
      cases absent

/-- No file has two names. -/
theorem Accounted.one_name (accounted : Accounted most state) {first second : Path}
    (left : state.host.root.at? first = some (.file (.regular key)))
    (right : state.host.root.at? second = some (.file (.regular key))) : first = second := by
  by_contra different
  obtain ⟨rest, twice⟩ := DirectoryTree.leaves_twice accounted.tidy.sorted
    (DirectoryTree.view_eq_file_iff.mpr left) (DirectoryTree.view_eq_file_iff.mpr right) different
  have names : state.host.named = key ::ₘ key ::ₘ Multiset.filterMap fileKey rest := by
    rw [Host.named, keysIn, twice, Multiset.filterMap_cons_some fileKey _ _ rfl,
      Multiset.filterMap_cons_some fileKey _ _ rfl]
  have single := (Multiset.nodup_add.mp accounted.books.sums.single).1
  rw [names] at single
  exact (Multiset.nodup_cons.mp single).1 (Multiset.mem_cons_self _ _)

/-- A node that a rename takes away leaves what stands outside of it. -/
theorem at?_discarded {tree : HostNode} (found : tree.at? dir = some (.directory entries))
    {target : Path} (outside : ¬ dir ++ [name] <+: target)
    (empty : ∀ children, tree.at? target = some (.directory children) → children = []) :
    (tree.replace dir (.directory (Entries.erase name entries))).at? target = tree.at? target := by
  have views (query : Path) (apart : ¬ dir ++ [name] <+: query) :
      (tree.replace dir (.directory (Entries.erase name entries))).view query =
        tree.view query := by
    rw [DirectoryTree.view_discard found, if_neg apart]
  have same := views target outside
  cases there : tree.at? target with
  | none =>
      rw [DirectoryTree.view_eq_none_iff.mpr there] at same
      exact DirectoryTree.view_eq_none_iff.mp same
  | some node =>
      cases node with
      | file object =>
          rw [DirectoryTree.view_eq_file_iff.mpr there] at same
          exact DirectoryTree.view_eq_file_iff.mp same
      | directory children =>
          obtain rfl := empty children there
          rw [DirectoryTree.view_eq_directory_iff.mpr ⟨[], there⟩] at same
          obtain ⟨left, stays⟩ := DirectoryTree.view_eq_directory_iff.mp same
          have childless (child : Name) :
              (tree.replace dir (.directory (Entries.erase name entries))).view
                (target ++ [child]) = none := by
            rw [DirectoryTree.view_discard found]
            split
            · rfl
            · rw [DirectoryTree.view, DirectoryTree.at?_append, there, Option.bind_some]
              rfl
          rw [stays, eq_nil_of_childless stays childless]

theorem renameCheck_empty {source : HostNode} {children : HostDirectory}
    (checked : Host.renameCheck posix source (some (.directory children)) = .ok ()) :
    children = [] := by
  cases source with
  | file object => cases checked
  | directory inner =>
      by_contra full
      rw [Host.renameCheck, if_pos full] at checked
      cases checked

/-- The node moves, and what stood at the target is released. -/
theorem Accounted.renameat (accounted : Accounted most state) {toDir : Path} {toName : Name}
    {source : HostNode} (there : state.host.root.at? (dir ++ [name]) = some source)
    (different : dir ++ [name] ≠ toDir ++ [toName])
    (fits : ∀ rest entry, source.view rest = some entry → entry ≠ .file .special →
      toDir.length + 1 + rest.length ≤ maxPathDepth)
    (renamed : state.host.renameat posix dir name toDir toName = .ok host) :
    Accounted most (releaseTarget ((state.host.root.at? (toDir ++ [toName])).map
      (describe state.host)) { state with host }) := by
  obtain ⟨fromEntries, found, renamed⟩ := bind_eq_ok_iff.mp renamed
  obtain ⟨toEntries, target, renamed⟩ := bind_eq_ok_iff.mp renamed
  have found := entriesOf_ok.mp found
  have target := entriesOf_ok.mp target
  have present : Entries.get name fromEntries = some source :=
    (at?_child found name).symm.trans there
  rw [present] at renamed
  dsimp only at renamed
  rw [if_neg different] at renamed
  split at renamed
  · next twice =>
      exfalso
      unfold Host.sameFile at twice
      split at twice
      · next key other here =>
          obtain rfl := of_decide_eq_true twice
          exact different (accounted.one_name there ((at?_child target toName).trans here))
      · cases twice
  · split at renamed
    · cases renamed
    · next outside =>
        obtain ⟨_, checked, renamed⟩ := bind_eq_ok_iff.mp renamed
        obtain ⟨newEntries, reached, renamed⟩ := bind_eq_ok_iff.mp renamed
        obtain rfl := Except.ok.inj renamed
        have reached := entriesOf_ok.mp reached
        have empty (children : HostDirectory)
            (here : state.host.root.at? (toDir ++ [toName]) = some (.directory children)) :
            children = [] := by
          rw [← at?_child target toName, here] at checked
          exact renameCheck_empty checked
        have same : Entries.get toName newEntries =
            state.host.root.at? (toDir ++ [toName]) := by
          rw [← at?_child reached toName]
          exact at?_discarded found outside empty
        have sorted := accounted.tidy.sorted.at? there
        have taken := accounted.tidy.discarded found name
        have tidy := taken.stored reached toName sorted fits
        have outNames := named_discarded accounted.tidy found name
        have inNames := named_stored taken reached toName source
        have outCount := DirectoryTree.directories_discarded accounted.tidy.sorted found name
        have inCount := DirectoryTree.directories_stored taken.sorted reached toName source
        rw [present, Option.map_some, Option.getD_some] at outNames outCount
        rw [outNames, same] at inNames
        rw [same] at inCount
        exact accounted.leave _ tidy inNames rfl (inCount.trans outCount) empty

end Renames

end TinySandbox.Local
