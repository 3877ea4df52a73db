/-
This file shows when a directory of the S3 backend lists the names that a lookup finds.
-/

import TinySandbox.Proof.S3.Paging

namespace TinySandbox.S3
open Library Library.Task

section Lookups
variable {server : Type} {respond : server → (request : Request) → Option (Response request × server)}
  {vfs : S3Vfs} {objects : OrderedMap Text StoredObject}

/-- The path is the root or a directory of the bucket. -/
def DirectoryAt (vfs : S3Vfs) (objects : OrderedMap Text StoredObject) (components : Path) : Prop :=
  components = [] ∨ IsDirectory objects (vfs.directoryPrefix components)

/-- What a lookup finds at a path. -/
def KindIs (vfs : S3Vfs) (objects : OrderedMap Text StoredObject) (components : Path) :
    Option Kind → Prop
  | some (.directory _) => DirectoryAt vfs objects components
  | some (.file file) => ¬ DirectoryAt vfs objects components ∧ ∃ stored,
      objects.get (vfs.key components) = some stored ∧ file.len = stored.body.length
  | none => ¬ DirectoryAt vfs objects components ∧ objects.get (vfs.key components) = none

theorem settle_head (serves : BucketServes respond vfs objects) (components : Path) (state : server) :
    ∃ file after, settle respond (vfs.head components) state = some (.ok file, after) ∧
      file.map RemoteFile.len =
        (objects.get (vfs.key components)).map fun stored => stored.body.length := by
  obtain ⟨answer, after, answered, same⟩ := serves.heads (vfs.key components) state
  unfold S3Vfs.head
  rw [settle_bind_ok (settle_request answered)]
  cases found : objects.get (vfs.key components) with
  | none =>
      rw [found] at same
      obtain rfl := same
      exact ⟨none, after, rfl, rfl⟩
  | some stored =>
      rw [found] at same
      obtain ⟨etag, rfl⟩ := same
      exact ⟨some { len := stored.body.length, etag }, after, rfl, rfl⟩

theorem settle_kindAt (serves : BucketServes respond vfs objects) (components : Path)
    (state : server) :
    ∃ kind after, settle respond (vfs.kindAt components) state = some (.ok kind, after) ∧
      KindIs vfs objects components kind := by
  unfold S3Vfs.kindAt
  by_cases root : components = []
  · rw [if_pos root]
    exact ⟨some (.directory false), state, rfl, .inl root⟩
  · have lists := lists_of_shows (components = [])
      (wholePage_shows objects (vfs.directoryPrefix components) ['/'])
    obtain ⟨probed, middle, scanned, there, -⟩ := settle_probe (serves.lists _ _ state) lists
    rw [if_neg root, settle_bind_ok scanned]
    have known : probed.exists = true ↔ DirectoryAt vfs objects components := by
      rw [there, lists.isThere, decide_eq_true_eq]
      exact Iff.rfl
    by_cases directory : probed.exists = true
    · rw [if_pos directory]
      exact ⟨_, middle, rfl, known.mp directory⟩
    · obtain ⟨file, after, looked, same⟩ := settle_head serves components middle
      rw [if_neg directory, settle_bind_ok looked]
      refine ⟨_, after, rfl, ?_⟩
      cases found : objects.get (vfs.key components) with
      | none =>
          rw [found] at same
          obtain rfl := Option.map_eq_none_iff.mp same
          exact ⟨mt known.mpr directory, found⟩
      | some stored =>
          rw [found] at same
          obtain ⟨remote, rfl, length⟩ := Option.map_eq_some_iff.mp same
          exact ⟨mt known.mpr directory, stored, found, length⟩

theorem requireDirectory_ok_iff {components : Path} {kind : Option Kind}
    (is : KindIs vfs objects components kind) :
    S3Vfs.requireDirectory kind = .ok () ↔ DirectoryAt vfs objects components := by
  match kind, is with
  | some (.directory _), is => exact iff_of_true rfl is
  | some (.file _), is => exact iff_of_false nofun is.1
  | none, is => exact iff_of_false nofun is.1

/-- The parents pass when all of them are directories. -/
theorem settle_validateEnds (serves : BucketServes respond vfs objects) (components : Path)
    (stops : List Nat) (state : server) :
    ∃ result after, settle respond (vfs.validateEnds components stops) state = some (result, after) ∧
      (result = .ok () ↔ ∀ stop ∈ stops, DirectoryAt vfs objects (components.take stop)) := by
  induction stops generalizing state with
  | nil => exact ⟨.ok (), state, rfl, iff_of_true rfl nofun⟩
  | cons stop stops ih =>
      obtain ⟨kind, middle, looked, is⟩ := settle_kindAt serves (components.take stop) state
      unfold S3Vfs.validateEnds
      rw [settle_bind_ok looked, List.forall_mem_cons, ← requireDirectory_ok_iff is]
      cases S3Vfs.requireDirectory kind with
      | error error => exact ⟨.error error, middle, rfl, iff_of_false nofun fun both => by cases both.1⟩
      | ok passed =>
          obtain ⟨result, after, settled, same⟩ := ih middle
          exact ⟨result, after, settled, same.trans (and_iff_right rfl).symm⟩

theorem settle_lift_bind_ok {α β : Type} {value : α} {next : α → Exchange β} (state : server) :
    settle respond (lift (.ok value) >>= next) state = settle respond (next value) state := rfl

/-- A lookup gives the metadata of what is at the path when its parents are directories. -/
theorem settle_stat (serves : BucketServes respond vfs objects) {path : Text} {components : Path}
    (resolved : normalizePath path = .ok components)
    (parents : ∀ stop ∈ List.range' 1 (components.length - 1),
      DirectoryAt vfs objects (components.take stop)) (state : server) :
    ∃ result after, settle respond (vfs.stat path) state = some (result, after) ∧ ∀ metadata,
      result = .ok metadata ↔
        (DirectoryAt vfs objects components ∧ metadata = { fileType := .directory, len := 0 }) ∨
        (¬ DirectoryAt vfs objects components ∧ ∃ stored,
          objects.get (vfs.key components) = some stored ∧
          metadata = { fileType := .file, len := stored.body.length }) := by
  obtain ⟨passed, middle, validated, good⟩ :=
    settle_validateEnds serves components (List.range' 1 (components.length - 1)) state
  obtain rfl := good.mpr parents
  obtain ⟨kind, after, looked, is⟩ := settle_kindAt serves components middle
  have ran : settle respond (vfs.stat path) state = settle respond (match kind with
      | some (.directory _) => pure { fileType := .directory, len := 0 }
      | some (.file file) => pure { fileType := .file, len := file.len }
      | none => throw .ENOENT) after := by
    unfold S3Vfs.stat
    rw [resolved, settle_lift_bind_ok]
    exact (settle_bind_ok validated).trans (settle_bind_ok looked)
  rw [ran]
  match kind, is with
  | some (.directory _), is =>
      have here : DirectoryAt vfs objects components := is
      refine ⟨_, after, rfl, fun metadata => ?_⟩
      rw [Except.ok.injEq, and_iff_right here, or_iff_left fun file => file.1 here]
      exact eq_comm
  | some (.file file), is =>
      obtain ⟨other, stored, found, length⟩ := is
      refine ⟨_, after, rfl, fun metadata => ?_⟩
      rw [Except.ok.injEq, or_iff_right fun directory => other directory.1, and_iff_right other, length]
      constructor
      · rintro rfl
        exact ⟨stored, found, rfl⟩
      · rintro ⟨again, same, rfl⟩
        rw [found] at same
        obtain rfl := Option.some.inj same
        rfl
  | none, is =>
      refine ⟨_, after, rfl, fun metadata => iff_of_false nofun ?_⟩
      rintro (⟨directory, -⟩ | ⟨-, stored, found, -⟩)
      · exact is.1 directory
      · rw [is.2] at found
        cases found

/-- A listing that succeeds is of a directory whose parents are directories. -/
theorem settle_readdir (serves : BucketServes respond vfs objects) {path : Text} {components : Path}
    (resolved : normalizePath path = .ok components) {entries : List DirEntry} {state after : server}
    (listed : settle respond (vfs.readdir path) state = some (.ok entries, after)) :
    (∀ stop ∈ List.range' 1 (components.length - 1),
      DirectoryAt vfs objects (components.take stop)) ∧
    DirectoryAt vfs objects components ∧ ∀ entry, entry ∈ entries ↔
      ValidName entry.name ∧
        Shown objects (vfs.directoryPrefix components) entry.name entry.metadata := by
  obtain ⟨passed, middle, validated, good⟩ :=
    settle_validateEnds serves components (List.range' 1 (components.length - 1)) state
  unfold S3Vfs.readdir at listed
  rw [resolved, settle_lift_bind_ok] at listed
  cases passed with
  | error error =>
      have checked : settle respond (vfs.validateParents components) state =
          some (.error error, middle) := validated
      rw [settle_bind_error checked] at listed
      cases listed
  | ok passed =>
      have checked : settle respond (vfs.validateParents components) state =
          some (.ok passed, middle) := validated
      rw [settle_bind_ok checked] at listed
      obtain ⟨listing, last, scanned, lists⟩ := settle_scanDirectory (serves.lists _ _ middle)
      have paged : settle respond (vfs.listDirectory components) middle =
          some (.ok listing, last) := scanned
      rw [settle_bind_ok paged] at listed
      by_cases there : listing.exists = true
      · rw [if_pos there] at listed
        obtain rfl : listing.entries = entries :=
          Except.ok.inj (Prod.mk.inj (Option.some.inj listed)).1
        refine ⟨good.mp rfl, ?_, lists.mem⟩
        have is := lists.isThere.mp there
        rwa [decide_eq_true_eq] at is
      · obtain ⟨file, final, looked, -⟩ := settle_head serves components last
        rw [if_neg there, settle_bind_ok looked] at listed
        cases listed

end Lookups

section Names
variable {vfs : S3Vfs} {objects : OrderedMap Text StoredObject} {components : Path} {name : Text}

theorem key_child (vfs : S3Vfs) (components : Path) (name : Text) :
    vfs.key (components ++ [name]) = vfs.directoryPrefix components ++ name := by
  unfold S3Vfs.directoryPrefix S3Vfs.key
  rw [if_neg (by simp)]
  by_cases root : components = []
  · rw [if_pos root, root]
    simp
  · rw [if_neg root, if_neg root, intercalate_concat _ root]
    simp

theorem directoryPrefix_child (vfs : S3Vfs) (components : Path) (name : Text) :
    vfs.directoryPrefix (components ++ [name]) = vfs.directoryPrefix components ++ name ++ ['/'] := by
  rw [← key_child]
  unfold S3Vfs.directoryPrefix
  rw [if_neg (by simp)]

theorem directoryAt_child (vfs : S3Vfs) (objects : OrderedMap Text StoredObject) (components : Path)
    (name : Text) : DirectoryAt vfs objects (components ++ [name]) ↔
      HasBelow objects (vfs.directoryPrefix components) name ∧
        ¬ LoneObject objects (vfs.directoryPrefix components) name := by
  unfold DirectoryAt
  rw [or_iff_right (by simp), directoryPrefix_child]
  generalize vfs.directoryPrefix components = keyPrefix
  have behind (rest : Text) : keyPrefix ++ name ++ ['/'] ++ rest = keyPrefix ++ name ++ '/' :: rest := by
    simp
  unfold IsDirectory HasBelow LoneObject
  simp only [behind]
  constructor
  · rintro ⟨rest, stored, found, empty⟩
    refine ⟨⟨rest, stored, found⟩, ?_⟩
    rintro ⟨⟨marker, marked, filled⟩, none⟩
    by_cases last : rest = []
    · subst last
      rw [found] at marked
      obtain rfl := Option.some.inj marked
      exact filled (empty rfl)
    · rw [none rest last] at found
      cases found
  · rintro ⟨⟨rest, stored, found⟩, notLone⟩
    by_contra none
    push Not at none
    refine notLone ⟨?_, fun other filled => ?_⟩
    · obtain ⟨last, filled⟩ := none rest stored found
      rw [last] at found
      exact ⟨stored, found, filled⟩
    · by_contra stands
      obtain ⟨again, stands⟩ := Option.ne_none_iff_exists'.mp stands
      exact filled (none other again stands).1

/-- The parents of a child are the parents of its directory and the directory. -/
theorem parents_child (name : Text) (parents : ∀ stop ∈ List.range' 1 (components.length - 1),
    DirectoryAt vfs objects (components.take stop)) (here : DirectoryAt vfs objects components) :
    ∀ stop ∈ List.range' 1 ((components ++ [name]).length - 1),
      DirectoryAt vfs objects ((components ++ [name]).take stop) := by
  intro stop inside
  rw [List.mem_range'_1, List.length_append, List.length_singleton] at inside
  rw [List.take_append_of_le_length (by omega)]
  by_cases last : stop = components.length
  · rwa [last, List.take_length]
  · exact parents stop (List.mem_range'_1.mpr (by omega))

end Names

/-- A listed name is what a lookup finds, unless the name stands for a lone object behind a slash. -/
theorem readdir_agrees_iff {server : Type}
    {respond : server → (request : Request) → Option (Response request × server)} {vfs : S3Vfs}
    {objects : OrderedMap Text StoredObject} (serves : BucketServes respond vfs objects) {path : Text}
    {components : Path} (resolved : normalizePath path = .ok components)
    (shallow : components.length ≤ 255) {entries : List DirEntry} {state after : server}
    (listed : settle respond (vfs.readdir path) state = some (.ok entries, after)) :
    (∀ name, ValidName name → ∀ state, ∃ result after,
      settle respond (vfs.stat (path ++ '/' :: name)) state = some (result, after) ∧
      ∀ metadata, { name, metadata } ∈ entries ↔ result = .ok metadata) ↔
    ∀ name, ValidName name → ¬ LoneObject objects (vfs.directoryPrefix components) name := by
  obtain ⟨parents, here, members⟩ := settle_readdir serves resolved listed
  have lookup (name : Text) (valid : ValidName name) (state : server) :=
    settle_stat serves (normalizePath_child resolved valid (Nat.lt_succ_of_le shallow))
      (parents_child name parents here) state
  constructor
  · intro agrees name valid lone
    obtain ⟨result, last, found, same⟩ := agrees name valid after
    obtain ⟨other, final, looked, is⟩ := lookup name valid after
    rw [found] at looked
    obtain ⟨rfl, rfl⟩ := Prod.mk.inj (Option.some.inj looked)
    have below : HasBelow objects (vfs.directoryPrefix components) name := by
      obtain ⟨⟨stored, marked, -⟩, -⟩ := lone
      exact ⟨[], stored, marked⟩
    have shown := (members { name, metadata := { fileType := .directory, len := 0 } }).mpr
      ⟨valid, .inl ⟨below, rfl⟩⟩
    rcases (is _).mp ((same _).mp shown) with ⟨directory, -⟩ | ⟨-, stored, -, other⟩
    · exact ((directoryAt_child vfs objects components name).mp directory).2 lone
    · cases other
  · intro clear name valid state
    obtain ⟨result, last, found, is⟩ := lookup name valid state
    refine ⟨result, last, found, fun metadata => ?_⟩
    have directory : DirectoryAt vfs objects (components ++ [name]) ↔
        HasBelow objects (vfs.directoryPrefix components) name :=
      (directoryAt_child vfs objects components name).trans (and_iff_left (clear name valid))
    rw [members, is, directory, key_child]
    exact and_iff_right valid

def lookUp (objects : OrderedMap Text StoredObject) (key : Text) : Except RemoteError RemoteFile :=
  match objects.get key with
  | none => .error .missing
  | some stored => .ok { len := stored.body.length, etag := stored.etag }

/-- Every listing of this service is one page. -/
def onePage (objects : OrderedMap Text StoredObject) (_ : Unit) :
    (request : Request) → Option (Response request × Unit)
  | .list request => some (.ok (wholePage objects request.keyPrefix request.delimiter), ())
  | .head _ key => some (lookUp objects key, ())
  | _ => none

theorem onePage_serves {vfs : S3Vfs} (room : 0 < vfs.pageLimit)
    (objects : OrderedMap Text StoredObject) : BucketServes (onePage objects) vfs objects where
  lists := fun keyPrefix _ _ =>
    ⟨[wholePage objects keyPrefix ['/']], [], (), .last rfl rfl, List.nodup_nil, room,
      wholePage_shows objects keyPrefix ['/']⟩
  heads := fun key _ => by
    refine ⟨lookUp objects key, (), rfl, ?_⟩
    unfold lookUp
    cases objects.get key with
    | none => rfl
    | some stored => exact ⟨stored.etag, rfl⟩

theorem readdir_agrees_two :
    settle (onePage twoObjects) (S3Vfs.sample.readdir ['/']) () = some (.ok
      [{ name := ['a'], metadata := { fileType := .file, len := 2 } },
        { name := ['d'], metadata := { fileType := .directory, len := 0 } }], ()) ∧
    ∀ name, ValidName name → ∀ state, ∃ result after,
      settle (onePage twoObjects) (S3Vfs.sample.stat (['/'] ++ '/' :: name)) state =
        some (result, after) ∧
      ∀ metadata, { name, metadata } ∈
        [{ name := ['a'], metadata := { fileType := .file, len := 2 } },
          { name := ['d'], metadata := { fileType := .directory, len := 0 } : DirEntry }] ↔
          result = .ok metadata := by
  have resolved : normalizePath ['/'] = .ok [] := by decide
  have listed : settle (onePage twoObjects) (S3Vfs.sample.readdir ['/']) () = some (.ok
      [{ name := ['a'], metadata := { fileType := .file, len := 2 } },
        { name := ['d'], metadata := { fileType := .directory, len := 0 } }], ()) := by rfl
  refine ⟨listed, (readdir_agrees_iff (onePage_serves (by decide) twoObjects) resolved (by decide)
    listed).mpr ?_⟩
  rintro name - ⟨⟨stored, marked, -⟩, -⟩
  rcases twoObjects_cases marked with same | same
  · have last := congrArg List.getLast? (Prod.mk.inj same).1
    rw [List.getLast?_concat] at last
    exact absurd last (by decide)
  · have last := congrArg List.getLast? (Prod.mk.inj same).1
    rw [List.getLast?_concat] at last
    exact absurd last (by decide)

/-- This bucket has an object that is no marker, at a key with a slash at its end. -/
def loneObjects : OrderedMap Text StoredObject :=
  (∅ : OrderedMap Text StoredObject).insert ['n', '/'] { body := [1], etag := ['e'] }

/-- The listing has a name that a lookup does not find. -/
theorem readdir_lists_lone :
    settle (onePage loneObjects) (S3Vfs.sample.readdir ['/']) () =
      some (.ok [{ name := ['n'], metadata := { fileType := .directory, len := 0 } }], ()) ∧
    settle (onePage loneObjects) (S3Vfs.sample.stat ['/', 'n']) () = some (.error .ENOENT, ()) :=
  ⟨by rfl, by rfl⟩

end TinySandbox.S3
