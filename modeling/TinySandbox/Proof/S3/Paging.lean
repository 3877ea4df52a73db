/-
This file shows that directory scans do not depend on paging, and that they end.
A page that cannot be followed ends a scan with an error.
-/

import TinySandbox.Construction.S3.Vfs
import TinySandbox.Proof.S3.Scans

namespace TinySandbox.S3
open Library Library.Task

section Agreement
variable {server : Type} {respond : server → (request : Request) → Option (Response request × server)}
  {vfs : S3Vfs} {objects : OrderedMap Text StoredObject} {components : Path} {state : server}

theorem settle_scanDirectory
    (conforms : Conforms respond vfs objects (vfs.directoryPrefix components) ['/'] none state) :
    ∃ listing after, settle respond (vfs.scanDirectory components false) state =
        some (.ok listing, after) ∧
      Lists objects (vfs.directoryPrefix components) (components = []) listing := by
  obtain ⟨pages, tokens, after, chain, distinct, enough, shows⟩ := conforms
  obtain ⟨read, unread, last, same, settled, stops⟩ :=
    settle_scanLoop false chain distinct (Scan.new (components = [])) rfl
      (fun _ _ seen => by cases seen) enough
  obtain rfl : unread = [] := by
    by_contra other
    exact absurd (stops other).1 Bool.false_ne_true
  rw [List.append_nil] at same
  subst same
  exact ⟨_, last, settled, lists_of_shows _ shows⟩

/-- A probe that stops early has seen a child. -/
theorem settle_probe
    (conforms : Conforms respond vfs objects (vfs.directoryPrefix components) ['/'] (some 2) state)
    {listing : DirectoryListing}
    (lists : Lists objects (vfs.directoryPrefix components) (components = []) listing) :
    ∃ probed after, settle respond (vfs.scanDirectory components true) state =
        some (.ok probed, after) ∧
      probed.exists = listing.exists ∧ (probed.entries = [] ↔ listing.entries = []) := by
  obtain ⟨pages, tokens, after, chain, distinct, enough, shows⟩ := conforms
  obtain ⟨read, unread, last, same, settled, stops⟩ :=
    settle_scanLoop true chain distinct (Scan.new (components = [])) rfl
      (fun _ _ seen => by cases seen) enough
  refine ⟨_, last, settled, ?_⟩
  by_cases whole : unread = []
  · rw [whole, List.append_nil] at same
    subst same
    rw [(lists_of_shows _ shows).unique lists]
    exact ⟨rfl, Iff.rfl⟩
  · obtain ⟨-, filled⟩ := stops whole
    rw [foldl_addPage] at filled ⊢
    have gathers := gathers_all (vfs.directoryPrefix components) (components = []) (read.flatMap pageItems)
    generalize (read.flatMap pageItems).foldl (Scan.addItem (vfs.directoryPrefix components))
      (Scan.new (components = [])) = scan at *
    have part : ∀ item ∈ read.flatMap pageItems, item ∈ pages.flatMap pageItems := by
      intro item inside
      rw [same, List.flatMap_append]
      exact List.mem_append_left _ inside
    obtain ⟨entry, others, entries⟩ := List.exists_cons_of_ne_nil filled
    have found : scan.entries.get entry.1 = some entry.2 :=
      (OrderedMap.mem_iff_get _ _ _).mp (by rw [entries]; exact List.mem_cons_self)
    obtain ⟨valid, shown⟩ := gathers.entry _ _ found
    have plain := valid.2.2.2.1
    -- The child that the probe saw is in the listing, at least with its name.
    have marked : ∃ item ∈ read.flatMap pageItems, item.Marks (vfs.directoryPrefix components) := by
      rcases shown with ⟨named, -⟩ | ⟨-, size, inside, -⟩
      · exact ⟨_, named, entry.1, rfl⟩
      · exact ⟨_, inside, entry.1, rfl, fun none => absurd none valid.1⟩
    have listed : ∃ metadata, { name := entry.1, metadata } ∈ listing.entries := by
      by_cases below : HasBelow objects (vfs.directoryPrefix components) entry.1
      · exact ⟨_, (lists.mem _).mpr ⟨valid, .inl ⟨below, rfl⟩⟩⟩
      · rcases shown with ⟨named, -⟩ | ⟨-, size, inside, -⟩
        · exact absurd ((namesDirectory_iff shows plain).mp (part _ named)) below
        · obtain ⟨stored, stands, rfl⟩ := (mem_files_iff shows plain size).mp (part _ inside)
          exact ⟨_, (lists.mem _).mpr ⟨valid, .inr ⟨below, stored, stands, rfl⟩⟩⟩
    obtain ⟨metadata, member⟩ := listed
    refine ⟨?_, iff_of_false ?_ (List.ne_nil_of_mem member)⟩
    · have there : scan.listing.exists = true := gathers.isThere.mpr (.inr marked)
      obtain ⟨item, inside, marks⟩ := marked
      rw [there]
      exact (lists.isThere.mpr (.inr ((marks_iff shows).mp ⟨item, part _ inside, marks⟩))).symm
    · exact List.ne_nil_of_mem ((@mem_listing_iff scan { name := entry.1, metadata := entry.2 }).mpr found)

theorem listEntry_key {keyPrefix delimiter key name : Text} {length size : Nat}
    (entry : BucketState.listEntry keyPrefix delimiter key length = some (name, some size)) :
    key = name := by
  unfold BucketState.listEntry at entry
  split_ifs at entry
  · exact (Prod.mk.inj (Option.some.inj entry)).1
  · split at entry
    · exact (Prod.mk.inj (Option.some.inj entry)).1
    · cases (Prod.mk.inj (Option.some.inj entry)).2

/-- This page has the whole listing. -/
def wholePage (objects : OrderedMap Text StoredObject) (keyPrefix delimiter : Text) : ListResult where
  objects := objects.entries.filterMap fun object =>
    (BucketState.listEntry keyPrefix delimiter object.1 object.2.body.length).bind fun entry =>
      entry.2.map fun size => { key := entry.1, size }
  commonPrefixes := objects.entries.filterMap fun object =>
    (BucketState.listEntry keyPrefix delimiter object.1 object.2.body.length).bind fun entry =>
      if entry.2 = none then some entry.1 else none
  truncated := false
  nextContinuation := none

theorem wholePage_shows (objects : OrderedMap Text StoredObject) (keyPrefix delimiter : Text) :
    Shows objects keyPrefix delimiter [wholePage objects keyPrefix delimiter] := by
  unfold wholePage
  constructor
  · intro object
    rw [List.flatMap_singleton, List.mem_filterMap]
    constructor
    · rintro ⟨⟨key, stored⟩, inside, shown⟩
      obtain ⟨⟨name, size⟩, entry, shown⟩ := Option.bind_eq_some_iff.mp shown
      obtain ⟨length, rfl, rfl⟩ := Option.map_eq_some_iff.mp shown
      obtain rfl := listEntry_key entry
      exact ⟨stored, (objects.mem_iff_get _ _).mp inside, entry⟩
    · rintro ⟨stored, found, entry⟩
      refine ⟨(object.key, stored), (objects.mem_iff_get _ _).mpr found, ?_⟩
      exact Option.bind_eq_some_iff.mpr ⟨_, entry, rfl⟩
  · intro name
    rw [List.flatMap_singleton, List.mem_filterMap]
    constructor
    · rintro ⟨⟨key, stored⟩, inside, shown⟩
      obtain ⟨⟨other, size⟩, entry, shown⟩ := Option.bind_eq_some_iff.mp shown
      split_ifs at shown with none
      obtain rfl : other = name := Option.some.inj shown
      obtain rfl : size = .none := none
      exact ⟨key, stored, (objects.mem_iff_get _ _).mp inside, entry⟩
    · rintro ⟨key, stored, found, entry⟩
      refine ⟨(key, stored), (objects.mem_iff_get _ _).mpr found, ?_⟩
      exact Option.bind_eq_some_iff.mpr ⟨_, entry, if_pos rfl⟩

end Agreement

section Ending
variable {vfs : S3Vfs} {α : Type}

/-- Every page names one of the tokens, or it names none. -/
def Names (tokens : Finset Text) (event : S3Event) : Prop :=
  ∀ token, eventToken event = some token → token ∈ tokens

/-- What a loop over pages does with one page. -/
def onPage (request : ListRequest) (seen : ListResult → List Text) (done : ListResult → α)
    (next : ListResult → Text → Exchange α) : Exchange α := do
  let page ← send (Request.list request)
  if ¬ page.truncated then pure (done page)
  else do
    let token ← lift (nextToken page (seen page))
    next page token

theorem nextToken_eq_ok {page : ListResult} {token : Text} {seenTokens : List Text}
    (named : nextToken page seenTokens = .ok token) :
    page.nextContinuation = some token ∧ token ≠ [] ∧ token ∉ seenTokens := by
  unfold nextToken at named
  split at named
  · cases named
  · next found =>
      split_ifs at named with bad
      obtain rfl := Except.ok.inj named
      exact ⟨found, not_or.mp bad⟩

theorem nextToken_eq_error {page : ListResult} {seenTokens : List Text} {error : Errno}
    (named : nextToken page seenTokens = .error error) : error = Errno.EIO := by
  unfold nextToken at named
  split at named
  · exact (Except.error.inj named).symm
  · split_ifs at named
    exact (Except.error.inj named).symm

section Steps
variable {request : ListRequest} {seen : ListResult → List Text} {done : ListResult → α}
  {next : ListResult → Text → Exchange α}

theorem within_onPage {tokens : Finset Text} {count : Nat}
    (rest : ∀ page token, token ∈ tokens → token ∉ seen page →
      (next page token).Within (Names tokens) count ()) :
    (onPage request seen done next).Within (Names tokens) (count + 1) () := by
  refine within_request_bind fun response named => ?_
  cases response with
  | error error => exact within_throw (RemoteError.intoVfs error)
  | ok page =>
      change Task.Within _ _ (if ¬ page.truncated then pure (done page)
        else lift (nextToken page (seen page)) >>= next page) ()
      by_cases more : page.truncated = true
      · rw [if_neg (not_not_intro more)]
        cases found : nextToken page (seen page) with
        | error error => exact within_throw error
        | ok token =>
            obtain ⟨continues, -, new⟩ := nextToken_eq_ok found
            exact rest page token (named token continues) new
      · rw [if_pos more]
        exact within_pure _

theorem stale_onPage {tokens : List Text} (same : ∀ page, seen page = tokens)
    (rest : ∀ page token events result, (next page token).Runs () events result () →
      ¬ Fresh (token :: tokens) events → result = .error Errno.EIO)
    {events : List S3Event} {result : VfsResult α}
    (runs : (onPage request seen done next).Runs () events result ()) (stale : ¬ Fresh tokens events) :
    result = .error Errno.EIO := by
  unfold onPage at runs
  rcases runs_bind_iff.mp runs with ⟨error, sent, -⟩ | ⟨first, second, page, ⟨⟩, rfl, sent, going⟩
  · obtain ⟨response, rfl, failed, -⟩ := runs_send_iff.mp sent
    cases response with
    | error other => exact absurd trivial stale
    | ok page => cases failed
  · obtain ⟨response, rfl, answered, -⟩ := runs_send_iff.mp sent
    cases response with
    | error other => cases answered
    | ok shown =>
        obtain rfl := Except.ok.inj answered
        change ¬ (if page.truncated then ∃ token, page.nextContinuation = some token ∧ token ≠ [] ∧
          token ∉ tokens ∧ Fresh (token :: tokens) second else Fresh tokens second) at stale
        by_cases more : page.truncated = true
        · rw [if_neg (not_not_intro more)] at going
          rw [if_pos more] at stale
          rcases runs_bind_iff.mp going with ⟨error, failed, rfl⟩ |
            ⟨none, later, token, ⟨⟩, rfl, named, followed⟩
          · obtain ⟨-, bad, -⟩ := runs_lift_iff.mp failed
            rw [nextToken_eq_error bad.symm]
          · obtain ⟨rfl, good, -⟩ := runs_lift_iff.mp named
            obtain ⟨continues, filled, new⟩ := nextToken_eq_ok good.symm
            rw [same] at new
            exact rest page token later result followed fun fresh =>
              stale ⟨token, continues, filled, new, fresh⟩
        · rw [if_pos more] at going
          rw [if_neg more] at stale
          obtain ⟨rfl, -, -⟩ := runs_pure_iff.mp going
          exact absurd trivial stale

end Steps

theorem scanLoop_succ (keyPrefix : Text) (probe : Bool) (fuel : Nat) (scan : Scan) :
    vfs.scanLoop keyPrefix probe (fuel + 1) scan =
      onPage (vfs.listRequest keyPrefix ['/'] scan.continuation (if probe then some 2 else none))
        (fun page => (scan.addPage keyPrefix page).seenTokens)
        (fun page => (scan.addPage keyPrefix page).listing)
        (fun page token =>
          if probe ∧ (scan.addPage keyPrefix page).entries.entries ≠ [] then
            pure (scan.addPage keyPrefix page).listing
          else vfs.scanLoop keyPrefix probe fuel ((scan.addPage keyPrefix page).follow token)) := rfl

theorem recursiveLoop_succ (keyPrefix : Text) (fuel : Nat) (continuation : Option Text)
    (seenTokens keys : List Text) :
    let longer (page : ListResult) :=
      keys ++ (page.objects.map ListedObject.key).filter (keyPrefix <+: ·)
    vfs.recursiveLoop keyPrefix (fuel + 1) continuation seenTokens keys =
      onPage (vfs.listRequest keyPrefix [] continuation none) (fun _ => seenTokens) longer
        (fun page token =>
          vfs.recursiveLoop keyPrefix fuel (some token) (token :: seenTokens) (longer page)) := rfl

/-- The tokens that were followed are distinct, and the service has no others. -/
structure Followed (tokens : Finset Text) (seenTokens : List Text) : Prop where
  distinct : seenTokens.Nodup
  known : ∀ token ∈ seenTokens, token ∈ tokens

theorem followed_nil (tokens : Finset Text) : Followed tokens [] where
  distinct := List.nodup_nil
  known := nofun

theorem Followed.next {tokens : Finset Text} {seenTokens : List Text} {token : Text}
    (followed : Followed tokens seenTokens) (member : token ∈ tokens) (new : token ∉ seenTokens) :
    Followed tokens (token :: seenTokens) where
  distinct := List.nodup_cons.mpr ⟨new, followed.distinct⟩
  known := List.forall_mem_cons.mpr ⟨member, followed.known⟩

theorem Followed.length_le {tokens : Finset Text} {seenTokens : List Text}
    (followed : Followed tokens seenTokens) : seenTokens.length ≤ tokens.card := by
  rw [← List.toFinset_card_of_nodup followed.distinct]
  exact Finset.card_le_card fun token inside => followed.known token (List.mem_toFinset.mp inside)

theorem within_scanLoop (keyPrefix : Text) (probe : Bool) {tokens : Finset Text} {fuel : Nat}
    {scan : Scan} (followed : Followed tokens scan.seenTokens)
    (enough : tokens.card < fuel + scan.seenTokens.length) :
    (vfs.scanLoop keyPrefix probe fuel scan).Within (Names tokens)
      (tokens.card - scan.seenTokens.length + 1) () := by
  induction fuel generalizing scan with
  | zero =>
      have few := followed.length_le
      omega
  | succ fuel ih =>
      rw [scanLoop_succ]
      refine within_onPage fun page token member new => ?_
      rw [addPage_tokens] at new
      split_ifs with stops
      · exact within_pure _
      · have next := followed.next member new
        have few := next.length_le
        have same : ((scan.addPage keyPrefix page).follow token).seenTokens = token :: scan.seenTokens :=
          congrArg (token :: ·) (addPage_tokens scan page)
        have later := @ih ((scan.addPage keyPrefix page).follow token)
        rw [same, List.length_cons] at later
        rw [List.length_cons] at few
        rw [show tokens.card - scan.seenTokens.length =
          tokens.card - (scan.seenTokens.length + 1) + 1 by omega]
        exact later next (by omega)

theorem within_recursiveLoop (keyPrefix : Text) {tokens : Finset Text} {fuel : Nat}
    {seenTokens : List Text} (followed : Followed tokens seenTokens)
    (enough : tokens.card < fuel + seenTokens.length) (continuation : Option Text) (keys : List Text) :
    (vfs.recursiveLoop keyPrefix fuel continuation seenTokens keys).Within (Names tokens)
      (tokens.card - seenTokens.length + 1) () := by
  induction fuel generalizing seenTokens continuation keys with
  | zero =>
      have few := followed.length_le
      omega
  | succ fuel ih =>
      rw [recursiveLoop_succ]
      refine within_onPage fun page token member new => ?_
      have next := followed.next member new
      have few := next.length_le
      rw [List.length_cons] at few
      rw [show tokens.card - seenTokens.length = tokens.card - (seenTokens.length + 1) + 1 by omega]
      exact ih next (by rw [List.length_cons]; omega) _ _

theorem stale_scanLoop (keyPrefix : Text) (probe : Bool) {fuel : Nat} {scan : Scan}
    {events : List S3Event} {result : VfsResult DirectoryListing}
    (runs : (vfs.scanLoop keyPrefix probe fuel scan).Runs () events result ())
    (stale : ¬ Fresh scan.seenTokens events) : result = .error Errno.EIO := by
  induction fuel generalizing scan events result with
  | zero => exact (runs_diverge_iff.mp runs).elim
  | succ fuel ih =>
      rw [scanLoop_succ] at runs
      refine stale_onPage (fun page => addPage_tokens scan page) ?_ runs stale
      intro page token events result runs stale
      split_ifs at runs with stops
      · obtain ⟨rfl, -, -⟩ := runs_pure_iff.mp runs
        exact absurd trivial stale
      · refine ih runs ?_
        rwa [show ((scan.addPage keyPrefix page).follow token).seenTokens = token :: scan.seenTokens from
          congrArg (token :: ·) (addPage_tokens scan page)]

theorem stale_recursiveLoop (keyPrefix : Text) {fuel : Nat} {continuation : Option Text}
    {seenTokens keys : List Text} {events : List S3Event} {result : VfsResult (List Text)}
    (runs : (vfs.recursiveLoop keyPrefix fuel continuation seenTokens keys).Runs () events result ())
    (stale : ¬ Fresh seenTokens events) : result = .error Errno.EIO := by
  induction fuel generalizing continuation seenTokens keys events result with
  | zero => exact (runs_diverge_iff.mp runs).elim
  | succ fuel ih =>
      rw [recursiveLoop_succ] at runs
      refine stale_onPage (fun _ => rfl) ?_ runs stale
      intro page token events result runs stale
      exact ih runs stale

end Ending

/-- Every way to cut a listing into pages gives the same directory, and a probe agrees with it. Every
scan ends within one request more than the service has tokens, and with an error at a page that names
no new token. -/
theorem scanDirectory_paging (vfs : S3Vfs) (components : Path) :
    (∀ objects, ∃ listing,
      Lists objects (vfs.directoryPrefix components) (components = []) listing ∧
      (∀ {server : Type} (respond : server → (request : Request) → Option (Response request × server))
        state, Conforms respond vfs objects (vfs.directoryPrefix components) ['/'] none state →
        ∃ after, settle respond (vfs.scanDirectory components false) state =
          some (.ok listing, after)) ∧
      ∀ {server : Type} (respond : server → (request : Request) → Option (Response request × server))
        state, Conforms respond vfs objects (vfs.directoryPrefix components) ['/'] (some 2) state →
        ∃ probed after, settle respond (vfs.scanDirectory components true) state =
            some (.ok probed, after) ∧
          probed.exists = listing.exists ∧ (probed.entries = [] ↔ listing.entries = [])) ∧
    (∀ tokens : Finset Text, tokens.card < vfs.pageLimit →
      (∀ probe, (vfs.scanDirectory components probe).Within (Names tokens) (tokens.card + 1) ()) ∧
      ∀ keyPrefix, (vfs.listRecursive keyPrefix).Within (Names tokens) (tokens.card + 1) ()) ∧
    (∀ probe events result, (vfs.scanDirectory components probe).Runs () events result () →
      ¬ Fresh [] events → result = .error Errno.EIO) ∧
    ∀ keyPrefix events result, (vfs.listRecursive keyPrefix).Runs () events result () →
      ¬ Fresh [] events → result = .error Errno.EIO := by
  refine ⟨fun objects => ?_, fun tokens enough => ⟨fun probe => ?_, fun keyPrefix => ?_⟩, ?_, ?_⟩
  · have lists := lists_of_shows (components = [])
      (wholePage_shows objects (vfs.directoryPrefix components) ['/'])
    refine ⟨_, lists, ?_, fun respond state conforms => settle_probe conforms lists⟩
    intro server respond state conforms
    obtain ⟨listing, after, settled, same⟩ := settle_scanDirectory conforms
    rw [same.unique lists] at settled
    exact ⟨after, settled⟩
  · exact @within_scanLoop vfs (vfs.directoryPrefix components) probe tokens vfs.pageLimit
      (Scan.new (components = [])) (followed_nil tokens) enough
  · exact within_recursiveLoop keyPrefix (followed_nil tokens) enough none []
  · intro probe events result runs stale
    exact stale_scanLoop _ probe runs stale
  · intro keyPrefix events result runs stale
    exact stale_recursiveLoop keyPrefix runs stale

/-- A file and a directory that has one file. -/
def twoObjects : OrderedMap Text StoredObject :=
  ((∅ : OrderedMap Text StoredObject).insert ['a'] { body := [1, 2], etag := ['e'] }).insert
    ['d', '/', 'x'] { body := [3], etag := ['f'] }

/-- The first page names the file, the second one is empty, and the last one names both. -/
def threePages : List ListResult :=
  let file : ListedObject := { key := ['a'], size := 2 }
  [{ objects := [file], commonPrefixes := [], truncated := true, nextContinuation := some ['t'] },
    { objects := [], commonPrefixes := [], truncated := true, nextContinuation := some ['u'] },
    { objects := [file], commonPrefixes := [['d', '/']], truncated := false, nextContinuation := none }]

/-- The pages are given one after the other. -/
def givePages : List ListResult → (request : Request) → Option (Response request × List ListResult)
  | page :: pages, .list _ => some (.ok page, pages)
  | _, _ => none

theorem twoObjects_cases {key : Text} {stored : StoredObject} (found : twoObjects.get key = some stored) :
    (key, stored) = (['a'], { body := [1, 2], etag := ['e'] }) ∨
      (key, stored) = (['d', '/', 'x'], { body := [3], etag := ['f'] }) := by
  have inside := (twoObjects.mem_iff_get key stored).mpr found
  have entries : twoObjects.entries = [(['a'], { body := [1, 2], etag := ['e'] }),
      (['d', '/', 'x'], { body := [3], etag := ['f'] })] := by decide
  rw [entries, List.mem_cons, List.mem_singleton] at inside
  exact inside

theorem threePages_shows : Shows twoObjects [] ['/'] threePages := by
  constructor
  · intro object
    constructor
    · intro inside
      have same : object = { key := ['a'], size := 2 } := by simpa [threePages] using inside
      subst same
      exact ⟨{ body := [1, 2], etag := ['e'] }, by decide, by decide⟩
    · rintro ⟨stored, found, entry⟩
      obtain ⟨key, size⟩ := object
      rcases twoObjects_cases found with same | same <;> obtain ⟨rfl, rfl⟩ := Prod.mk.inj same
      · obtain rfl : 2 = size := Option.some.inj (Prod.mk.inj (Option.some.inj entry)).2
        decide
      · cases (Prod.mk.inj (Option.some.inj entry)).2
  · intro name
    constructor
    · intro inside
      have same : name = ['d', '/'] := by simpa [threePages] using inside
      subst same
      exact ⟨['d', '/', 'x'], { body := [3], etag := ['f'] }, by decide, by decide⟩
    · rintro ⟨key, stored, found, entry⟩
      rcases twoObjects_cases found with same | same <;> obtain ⟨rfl, rfl⟩ := Prod.mk.inj same
      · cases (Prod.mk.inj (Option.some.inj entry)).2
      · obtain rfl := (Prod.mk.inj (Option.some.inj entry)).1
        decide

theorem scanDirectory_paging_three : ∃ listing after,
    Lists twoObjects [] true listing ∧
    settle givePages (S3Vfs.sample.scanDirectory [] false) threePages = some (.ok listing, after) := by
  obtain ⟨listing, lists, whole, -⟩ := (scanDirectory_paging S3Vfs.sample []).1 twoObjects
  obtain ⟨after, settled⟩ := whole givePages threePages
    ⟨threePages, [['t'], ['u']], [],
      .next rfl rfl rfl (by decide) (.next rfl rfl rfl (by decide) (.last rfl rfl)),
      by decide, by decide, threePages_shows⟩
  exact ⟨listing, after, lists, settled⟩

end TinySandbox.S3
