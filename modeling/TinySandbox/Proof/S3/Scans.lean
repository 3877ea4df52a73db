/-
This file shows that the scan of a directory does not depend on how its listing is cut into pages.
-/

import TinySandbox.Specification.BucketListings

namespace TinySandbox.S3
open Library Library.Task

section Entries
variable {keyPrefix name : Text} {scan : Scan}

/-- One step of a page is an object or a common prefix. -/
abbrev ScanItem := ListedObject ⊕ Text

def Scan.addItem (keyPrefix : Text) (scan : Scan) : ScanItem → Scan
  | .inl object => scan.addObject keyPrefix object
  | .inr commonPrefix => scan.addCommonPrefix keyPrefix commonPrefix

def pageItems (page : ListResult) : List ScanItem :=
  page.objects.map .inl ++ page.commonPrefixes.map .inr

theorem addPage_eq (scan : Scan) (page : ListResult) :
    scan.addPage keyPrefix page = (pageItems page).foldl (Scan.addItem keyPrefix) scan := by
  unfold Scan.addPage pageItems
  rw [List.foldl_append, List.foldl_map, List.foldl_map]
  rfl

theorem foldl_addPage (scan : Scan) (pages : List ListResult) :
    pages.foldl (Scan.addPage keyPrefix) scan =
      (pages.flatMap pageItems).foldl (Scan.addItem keyPrefix) scan := by
  induction pages generalizing scan with
  | nil => rfl
  | cons page pages ih => rw [List.foldl_cons, ih, List.flatMap_cons, List.foldl_append, addPage_eq]

theorem mem_items {pages : List ListResult} {item : ScanItem} :
    item ∈ pages.flatMap pageItems ↔
      match item with
      | .inl object => object ∈ pages.flatMap ListResult.objects
      | .inr commonPrefix => commonPrefix ∈ pages.flatMap ListResult.commonPrefixes := by
  simp only [List.mem_flatMap, pageItems, List.mem_append, List.mem_map]
  cases item <;> simp

theorem stripPrefix_eq_some {start text rest : Text} :
    stripPrefix start text = some rest ↔ text = start ++ rest := by
  unfold stripPrefix
  constructor
  · intro stripped
    split_ifs at stripped with begins
    obtain ⟨tail, rfl⟩ := begins
    rw [List.drop_left] at stripped
    rw [Option.some.inj stripped]
  · rintro rfl
    rw [if_pos (List.prefix_append _ _), List.drop_left]

theorem stripSuffix_eq_some {symbol : Char} {text rest : Text} :
    stripSuffix symbol text = some rest ↔ text = rest ++ [symbol] := by
  unfold stripSuffix
  constructor
  · intro stripped
    split_ifs at stripped with ends
    rw [← Option.some.inj stripped]
    exact (List.dropLast_append_getLast? symbol ends).symm
  · rintro rfl
    rw [List.getLast?_concat, if_pos rfl, List.dropLast_concat]

/-- The name of the directory that a common prefix stands for. -/
def prefixName (keyPrefix commonPrefix : Text) : Option Text :=
  (stripPrefix keyPrefix commonPrefix).bind (stripSuffix '/')

theorem prefixName_eq_some {commonPrefix : Text} :
    prefixName keyPrefix commonPrefix = some name ↔ commonPrefix = keyPrefix ++ name ++ ['/'] := by
  unfold prefixName
  rw [Option.bind_eq_some_iff]
  constructor
  · rintro ⟨relative, stripped, cut⟩
    rw [stripPrefix_eq_some.mp stripped, stripSuffix_eq_some.mp cut, List.append_assoc]
  · rintro rfl
    exact ⟨name ++ ['/'], stripPrefix_eq_some.mpr (List.append_assoc ..), stripSuffix_eq_some.mpr rfl⟩

/-- The item shows that the directory is there. -/
def ScanItem.Marks (keyPrefix : Text) : ScanItem → Prop
  | .inl object => ∃ relative, object.key = keyPrefix ++ relative ∧ (relative = [] → object.size = 0)
  | .inr commonPrefix => ∃ name, commonPrefix = keyPrefix ++ name ++ ['/']

/-- The item is a directory entry with the name. -/
def NamesDirectory (keyPrefix name : Text) (items : List ScanItem) : Prop :=
  .inr (keyPrefix ++ name ++ ['/']) ∈ items

/-- What the items so far say about the scan. -/
structure Gathers (keyPrefix : Text) (root : Bool) (items : List ScanItem) (scan : Scan) : Prop where
  directory : ∀ name, ValidName name → NamesDirectory keyPrefix name items →
    scan.entries.get name = some { fileType := .directory, len := 0 }
  file : ∀ name size, ValidName name → .inl { key := keyPrefix ++ name, size } ∈ items →
    scan.entries.get name ≠ none
  entry : ∀ name metadata, scan.entries.get name = some metadata → ValidName name ∧
    (NamesDirectory keyPrefix name items ∧ metadata = { fileType := .directory, len := 0 } ∨
      ¬ NamesDirectory keyPrefix name items ∧ ∃ size,
        .inl { key := keyPrefix ++ name, size } ∈ items ∧ metadata = { fileType := .file, len := size })
  isThere : scan.exists = true ↔ root = true ∨ ∃ item ∈ items, item.Marks keyPrefix

theorem gathers_new (keyPrefix : Text) (root : Bool) : Gathers keyPrefix root [] (Scan.new root) where
  directory := fun _ _ named => absurd named List.not_mem_nil
  file := fun _ _ _ inside => absurd inside List.not_mem_nil
  entry := fun _ _ found => by cases found
  isThere := by simp [Scan.new]

theorem validName_iff : validEntryName name = true ↔ ValidName name := decide_eq_true_iff

/-- An object only takes a name that is free. -/
theorem get_addObject (scan : Scan) (object : ListedObject) :
    (scan.addObject keyPrefix object).entries.get name =
      if ValidName name ∧ object.key = keyPrefix ++ name ∧ scan.entries.get name = none then
        some { fileType := .file, len := object.size }
      else scan.entries.get name := by
  unfold Scan.addObject
  cases stripped : stripPrefix keyPrefix object.key with
  | none =>
      refine (if_neg ?_).symm
      rintro ⟨-, same, -⟩
      rw [stripPrefix_eq_some.mpr same] at stripped
      cases stripped
  | some relative =>
      have key := stripPrefix_eq_some.mp stripped
      have relates : object.key = keyPrefix ++ name ↔ name = relative := by
        rw [key, List.append_cancel_left_eq]
        exact eq_comm
      dsimp only
      by_cases empty : relative = []
      · rw [if_pos empty, if_neg]
        rintro ⟨valid, same, -⟩
        exact valid.1 ((relates.mp same).trans empty)
      · rw [if_neg empty]
        by_cases free : validEntryName relative ∧ scan.entries.get relative = none
        · rw [if_pos free]
          dsimp only
          rw [OrderedMap.get_insert]
          by_cases same : name = relative
          · subst same
            rw [if_pos rfl, if_pos ⟨validName_iff.mp free.1, key, free.2⟩]
          · rw [if_neg same, if_neg fun taken => same (relates.mp taken.2.1)]
        · rw [if_neg free, if_neg]
          rintro ⟨valid, key, none⟩
          obtain rfl := relates.mp key
          exact free ⟨validName_iff.mpr valid, none⟩

theorem exists_addObject (scan : Scan) (object : ListedObject) :
    (scan.addObject keyPrefix object).exists = true ↔
      scan.exists = true ∨ ScanItem.Marks keyPrefix (.inl object) := by
  unfold Scan.addObject
  cases stripped : stripPrefix keyPrefix object.key with
  | none =>
      refine (or_iff_left ?_).symm
      rintro ⟨relative, same, -⟩
      rw [stripPrefix_eq_some.mpr same] at stripped
      cases stripped
  | some relative =>
      have key := stripPrefix_eq_some.mp stripped
      have marks : ScanItem.Marks keyPrefix (.inl object) ↔ (relative = [] → object.size = 0) := by
        unfold ScanItem.Marks
        dsimp only
        rw [key]
        simp only [List.append_cancel_left_eq]
        exact ⟨fun ⟨_, same, empty⟩ => same ▸ empty, fun empty => ⟨relative, rfl, empty⟩⟩
      rw [marks]
      dsimp only
      split_ifs with empty free
      · rw [Bool.or_eq_true, decide_eq_true_eq]
        simp [empty]
      · exact iff_of_true rfl (.inr fun none => absurd none empty)
      · exact iff_of_true rfl (.inr fun none => absurd none empty)

theorem addCommonPrefix_eq (scan : Scan) (commonPrefix : Text) :
    scan.addCommonPrefix keyPrefix commonPrefix =
      match prefixName keyPrefix commonPrefix with
      | none => scan
      | some name =>
          if validEntryName name then
            { scan with
              «exists» := true
              entries := scan.entries.insert name { fileType := .directory, len := 0 } }
          else { scan with «exists» := true } := rfl

/-- A common prefix takes its name from any object. -/
theorem get_addCommonPrefix (scan : Scan) (commonPrefix : Text) :
    (scan.addCommonPrefix keyPrefix commonPrefix).entries.get name =
      if ValidName name ∧ commonPrefix = keyPrefix ++ name ++ ['/'] then
        some { fileType := .directory, len := 0 }
      else scan.entries.get name := by
  rw [addCommonPrefix_eq]
  cases named : prefixName keyPrefix commonPrefix with
  | none =>
      refine (if_neg ?_).symm
      rintro ⟨-, same⟩
      rw [prefixName_eq_some.mpr same] at named
      cases named
  | some other =>
      have key := prefixName_eq_some.mp named
      have relates : commonPrefix = keyPrefix ++ name ++ ['/'] → name = other := by
        intro same
        rw [prefixName_eq_some.mpr same] at named
        exact Option.some.inj named
      dsimp only
      by_cases valid : validEntryName other
      · rw [if_pos valid]
        dsimp only
        rw [OrderedMap.get_insert]
        by_cases same : name = other
        · subst same
          rw [if_pos rfl, if_pos ⟨validName_iff.mp valid, key⟩]
        · rw [if_neg same, if_neg fun taken => same (relates taken.2)]
      · rw [if_neg valid, if_neg]
        rintro ⟨good, same⟩
        exact valid (validName_iff.mpr (relates same ▸ good))

theorem exists_addCommonPrefix (scan : Scan) (commonPrefix : Text) :
    (scan.addCommonPrefix keyPrefix commonPrefix).exists = true ↔
      scan.exists = true ∨ ScanItem.Marks keyPrefix (.inr commonPrefix) := by
  have marks : ScanItem.Marks keyPrefix (.inr commonPrefix) ↔
      ∃ name, prefixName keyPrefix commonPrefix = some name :=
    exists_congr fun name => prefixName_eq_some.symm
  rw [marks, addCommonPrefix_eq]
  cases named : prefixName keyPrefix commonPrefix with
  | none => simp
  | some name =>
      dsimp only
      split_ifs <;> simp

theorem Gathers.step {root : Bool} {items : List ScanItem} (gathers : Gathers keyPrefix root items scan)
    (item : ScanItem) : Gathers keyPrefix root (items ++ [item]) (scan.addItem keyPrefix item) := by
  obtain ⟨directory, file, entry, isThere⟩ := gathers
  cases item with
  | inl object =>
      have named (name : Text) :
          NamesDirectory keyPrefix name (items ++ [.inl object]) ↔ NamesDirectory keyPrefix name items := by
        simp [NamesDirectory]
      refine ⟨?_, ?_, ?_, ?_⟩
      · intro name valid here
        have found := directory name valid ((named name).mp here)
        rw [Scan.addItem, get_addObject, if_neg fun ⟨_, _, free⟩ => by rw [found] at free; cases free]
        exact found
      · intro name size valid here
        rw [Scan.addItem, get_addObject]
        split_ifs with free
        · exact Option.some_ne_none _
        · rcases List.mem_append.mp here with old | new
          · exact file name size valid old
          · intro none
            obtain rfl := Sum.inl.inj (List.mem_singleton.mp new)
            exact free ⟨valid, rfl, none⟩
      · intro name metadata found
        rw [named]
        rw [Scan.addItem, get_addObject] at found
        split_ifs at found with free
        · obtain ⟨valid, key, none⟩ := free
          refine ⟨valid, .inr ⟨fun here => ?_, object.size, ?_, (Option.some.inj found).symm⟩⟩
          · rw [directory name valid here] at none
            cases none
          · rw [← key]
            exact List.mem_append_right _ (List.mem_singleton.mpr rfl)
        · obtain ⟨valid, shown | ⟨absent, size, inside, same⟩⟩ := entry name metadata found
          · exact ⟨valid, .inl shown⟩
          · exact ⟨valid, .inr ⟨absent, size, List.mem_append_left _ inside, same⟩⟩
      · rw [Scan.addItem, exists_addObject, isThere, or_assoc]
        refine or_congr_right ?_
        simp [or_and_right, exists_or]
  | inr commonPrefix =>
      have listed (other : ListedObject) :
          .inl other ∈ items ++ [.inr commonPrefix] ↔ .inl other ∈ items := by simp
      refine ⟨?_, ?_, ?_, ?_⟩
      · intro name valid here
        rw [Scan.addItem, get_addCommonPrefix]
        split_ifs with taken
        · rfl
        · rcases List.mem_append.mp here with old | new
          · exact directory name valid old
          · exact absurd ⟨valid, (Sum.inr.inj (List.mem_singleton.mp new)).symm⟩ taken
      · intro name size valid here
        rw [Scan.addItem, get_addCommonPrefix]
        split_ifs
        · exact Option.some_ne_none _
        · exact file name size valid ((listed _).mp here)
      · intro name metadata found
        rw [Scan.addItem, get_addCommonPrefix] at found
        split_ifs at found with taken
        · refine ⟨taken.1, .inl ⟨?_, (Option.some.inj found).symm⟩⟩
          exact List.mem_append_right _ (List.mem_singleton.mpr (congrArg Sum.inr taken.2.symm))
        · obtain ⟨valid, ⟨here, same⟩ | ⟨absent, size, inside, same⟩⟩ := entry name metadata found
          · exact ⟨valid, .inl ⟨List.mem_append_left _ here, same⟩⟩
          · refine ⟨valid, .inr ⟨fun here => ?_, size, (listed _).mpr inside, same⟩⟩
            rcases List.mem_append.mp here with old | new
            · exact absent old
            · exact taken ⟨valid, (Sum.inr.inj (List.mem_singleton.mp new)).symm⟩
      · rw [Scan.addItem, exists_addCommonPrefix, isThere, or_assoc]
        refine or_congr_right ?_
        simp [or_and_right, exists_or]

theorem gathers_all (keyPrefix : Text) (root : Bool) (items : List ScanItem) :
    Gathers keyPrefix root items (items.foldl (Scan.addItem keyPrefix) (Scan.new root)) := by
  induction items using List.reverseRecOn with
  | nil => exact gathers_new keyPrefix root
  | append_singleton items item ih =>
      rw [List.foldl_append]
      exact ih.step item

end Entries

section Following
variable {keyPrefix : Text} {scan : Scan}

theorem addItem_follow (scan : Scan) (token : Text) (item : ScanItem) :
    (scan.follow token).addItem keyPrefix item = (scan.addItem keyPrefix item).follow token := by
  unfold Scan.follow
  cases item with
  | inl object =>
      unfold Scan.addItem Scan.addObject
      dsimp only
      cases stripPrefix keyPrefix object.key with
      | none => rfl
      | some relative =>
          dsimp only
          split_ifs <;> rfl
  | inr commonPrefix =>
      unfold Scan.addItem Scan.addCommonPrefix
      dsimp only
      cases (stripPrefix keyPrefix commonPrefix).bind (stripSuffix '/') with
      | none => rfl
      | some name =>
          dsimp only
          split_ifs <;> rfl

theorem addPage_follow (scan : Scan) (token : Text) (page : ListResult) :
    (scan.follow token).addPage keyPrefix page = (scan.addPage keyPrefix page).follow token := by
  rw [addPage_eq, addPage_eq]
  induction pageItems page generalizing scan with
  | nil => rfl
  | cons item items ih => rw [List.foldl_cons, addItem_follow, ih, List.foldl_cons]

theorem foldl_follow (scan : Scan) (token : Text) (pages : List ListResult) :
    pages.foldl (Scan.addPage keyPrefix) (scan.follow token) =
      (pages.foldl (Scan.addPage keyPrefix) scan).follow token := by
  induction pages generalizing scan with
  | nil => rfl
  | cons page pages ih => rw [List.foldl_cons, addPage_follow, ih, List.foldl_cons]

theorem addItem_tokens (scan : Scan) (item : ScanItem) :
    (scan.addItem keyPrefix item).seenTokens = scan.seenTokens := by
  cases item with
  | inl object =>
      unfold Scan.addItem Scan.addObject
      dsimp only
      cases stripPrefix keyPrefix object.key with
      | none => rfl
      | some relative =>
          dsimp only
          split_ifs <;> rfl
  | inr commonPrefix =>
      unfold Scan.addItem Scan.addCommonPrefix
      dsimp only
      cases (stripPrefix keyPrefix commonPrefix).bind (stripSuffix '/') with
      | none => rfl
      | some name =>
          dsimp only
          split_ifs <;> rfl

theorem addPage_tokens (scan : Scan) (page : ListResult) :
    (scan.addPage keyPrefix page).seenTokens = scan.seenTokens := by
  rw [addPage_eq]
  induction pageItems page generalizing scan with
  | nil => rfl
  | cons item items ih => rw [List.foldl_cons, ih, addItem_tokens]

variable {server : Type} {respond : server → (request : Request) → Option (Response request × server)}
  {vfs : S3Vfs}

theorem settle_send {request : Request} {value : Payload request} {before after : server}
    (answered : respond before request = some (.ok value, after)) :
    settle respond (send request) before = some (.ok value, after) := by
  unfold send sendWith
  rw [settle_bind_ok (settle_request answered)]
  rfl

theorem nextToken_ok {page : ListResult} {token : Text} {seenTokens : List Text}
    (named : page.nextContinuation = some token) (filled : token ≠ []) (new : token ∉ seenTokens) :
    nextToken page seenTokens = .ok token := by
  unfold nextToken
  rw [named]
  exact if_neg (not_or.mpr ⟨filled, new⟩)

/-- A scan stops behind its last page, or as a probe behind a page with a child. -/
theorem settle_scanLoop (probe : Bool) {continuation : Option Text} {before after : server}
    {pages : List ListResult} {tokens : List Text}
    (chain : Pages respond (fun continuation => vfs.listRequest keyPrefix ['/'] continuation
      (if probe then some 2 else none)) continuation before pages tokens after)
    (distinct : tokens.Nodup) (scan : Scan) (place : scan.continuation = continuation)
    (new : ∀ token ∈ tokens, token ∉ scan.seenTokens) {fuel : Nat} (enough : pages.length ≤ fuel) :
    ∃ read unread last, pages = read ++ unread ∧
      settle respond (vfs.scanLoop keyPrefix probe fuel scan) before =
        some (.ok (read.foldl (Scan.addPage keyPrefix) scan).listing, last) ∧
      (unread ≠ [] → probe = true ∧
        (read.foldl (Scan.addPage keyPrefix) scan).entries.entries ≠ []) := by
  induction chain generalizing scan fuel with
  | @last continuation before after page answered whole =>
      cases fuel with
      | zero => cases enough
      | succ fuel =>
          refine ⟨[page], [], after, rfl, ?_, fun other => absurd rfl other⟩
          unfold S3Vfs.scanLoop
          rw [place, settle_bind_ok (settle_send answered)]
          dsimp only
          rw [if_pos (by rw [whole]; exact Bool.false_ne_true)]
          rfl
  | @next continuation before middle after page token pages tokens answered more named filled rest ih =>
      cases fuel with
      | zero => cases enough
      | succ fuel =>
          obtain ⟨absent, distinct⟩ := List.nodup_cons.mp distinct
          obtain ⟨unused, new⟩ := List.forall_mem_cons.mp new
          have step : settle respond (vfs.scanLoop keyPrefix probe (fuel + 1) scan) before =
              settle respond (if probe ∧ (scan.addPage keyPrefix page).entries.entries ≠ [] then
                  pure (scan.addPage keyPrefix page).listing
                else vfs.scanLoop keyPrefix probe fuel ((scan.addPage keyPrefix page).follow token))
                middle := by
            conv_lhs => unfold S3Vfs.scanLoop
            rw [place, settle_bind_ok (settle_send answered)]
            dsimp only
            rw [if_neg (not_not_intro more), addPage_tokens, nextToken_ok named filled unused]
            rfl
          rw [step]
          by_cases stops : probe = true ∧ (scan.addPage keyPrefix page).entries.entries ≠ []
          · rw [if_pos stops]
            exact ⟨[page], pages, middle, rfl, rfl, fun _ => stops⟩
          · rw [if_neg stops]
            have fresh : ∀ other ∈ tokens,
                other ∉ ((scan.addPage keyPrefix page).follow token).seenTokens := by
              intro other inside seen
              rcases List.mem_cons.mp seen with rfl | seen
              · exact absent inside
              · rw [addPage_tokens] at seen
                exact new other inside seen
            obtain ⟨read, unread, last, same, settled, ends⟩ :=
              ih distinct ((scan.addPage keyPrefix page).follow token) rfl fresh
                (Nat.le_of_succ_le_succ enough)
            rw [foldl_follow] at settled ends
            exact ⟨page :: read, unread, last, congrArg (page :: ·) same, settled, ends⟩

end Following

section Showing
variable {objects : OrderedMap Text StoredObject} {keyPrefix : Text}

/-- The cut is at the first slash. -/
theorem beforeDelimiter_cases (text : Text) :
    (BucketState.beforeDelimiter ['/'] text = none ∧ '/' ∉ text) ∨
      ∃ name rest, BucketState.beforeDelimiter ['/'] text = some name ∧ text = name ++ '/' :: rest ∧
        '/' ∉ name := by
  induction text with
  | nil => exact .inl ⟨rfl, List.not_mem_nil⟩
  | cons symbol text ih =>
      rw [BucketState.beforeDelimiter]
      by_cases slash : symbol = '/'
      · rw [if_pos (by rw [slash]; exact ⟨text, rfl⟩)]
        exact .inr ⟨[], text, rfl, by rw [slash]; rfl, List.not_mem_nil⟩
      · have differs : ¬ ['/'] <+: symbol :: text := fun ⟨tail, same⟩ =>
          slash (List.cons.inj same).1.symm
        rw [if_neg differs]
        rcases ih with ⟨none, absent⟩ | ⟨name, rest, found, whole, absent⟩
        · rw [none]
          exact .inl ⟨rfl, List.not_mem_cons_of_ne_of_not_mem (Ne.symm slash) absent⟩
        · rw [found, whole]
          exact .inr ⟨symbol :: name, rest, rfl, rfl, List.not_mem_cons_of_ne_of_not_mem (Ne.symm slash) absent⟩

/-- A key is listed as an object when nothing behind the prefix has a slash. -/
theorem listEntry_cases (key : Text) (size : Nat) :
    (¬ keyPrefix <+: key ∧ BucketState.listEntry keyPrefix ['/'] key size = none) ∨
    (∃ relative, key = keyPrefix ++ relative ∧ '/' ∉ relative ∧
      BucketState.listEntry keyPrefix ['/'] key size = some (key, some size)) ∨
    ∃ name rest, key = keyPrefix ++ name ++ '/' :: rest ∧ '/' ∉ name ∧
      BucketState.listEntry keyPrefix ['/'] key size = some (keyPrefix ++ name ++ ['/'], none) := by
  unfold BucketState.listEntry
  by_cases begins : keyPrefix <+: key
  · obtain ⟨relative, rfl⟩ := begins
    rw [if_pos (List.prefix_append _ _), if_neg (List.cons_ne_nil _ _), List.drop_left]
    rcases beforeDelimiter_cases relative with ⟨none, absent⟩ | ⟨name, rest, found, rfl, absent⟩
    · rw [none]
      exact .inr (.inl ⟨relative, rfl, absent, rfl⟩)
    · rw [found]
      exact .inr (.inr ⟨name, rest, (List.append_assoc ..).symm, absent, rfl⟩)
  · rw [if_neg begins]
    exact .inl ⟨begins, rfl⟩

theorem slash_cut_inj {first second firstRest secondRest : Text} (left : '/' ∉ first)
    (right : '/' ∉ second) (same : first ++ '/' :: firstRest = second ++ '/' :: secondRest) :
    first = second := by
  induction first generalizing second with
  | nil =>
      cases second with
      | nil => rfl
      | cons symbol second =>
          obtain ⟨rfl, -⟩ := List.cons.inj same
          exact absurd List.mem_cons_self right
  | cons symbol first ih =>
      cases second with
      | nil =>
          obtain ⟨rfl, -⟩ := List.cons.inj same
          exact absurd List.mem_cons_self left
      | cons other second =>
          obtain ⟨rfl, rest⟩ := List.cons.inj same
          exact congrArg (symbol :: ·) (ih (fun inside => left (List.mem_cons_of_mem _ inside))
            (fun inside => right (List.mem_cons_of_mem _ inside)) rest)

variable {pages : List ListResult}

theorem namesDirectory_iff (shows : Shows objects keyPrefix ['/'] pages) {name : Text}
    (plain : '/' ∉ name) :
    NamesDirectory keyPrefix name (pages.flatMap pageItems) ↔ HasBelow objects keyPrefix name := by
  unfold NamesDirectory HasBelow
  rw [mem_items]
  dsimp only
  rw [shows.directories]
  constructor
  · rintro ⟨key, stored, found, listed⟩
    rcases @listEntry_cases keyPrefix key stored.body.length with ⟨-, other⟩ | ⟨_, -, -, other⟩ |
      ⟨cut, rest, rfl, absent, other⟩
    · rw [other] at listed
      cases listed
    · rw [other] at listed
      cases listed
    · rw [other] at listed
      have same := (Prod.mk.inj (Option.some.inj listed)).1
      rw [List.append_assoc, List.append_assoc, List.append_cancel_left_eq,
        List.append_cancel_right_eq] at same
      subst same
      exact ⟨rest, stored, found⟩
  · rintro ⟨rest, stored, found⟩
    refine ⟨_, stored, found, ?_⟩
    rcases @listEntry_cases keyPrefix (keyPrefix ++ name ++ '/' :: rest) stored.body.length with
      ⟨other, -⟩ | ⟨relative, same, absent, -⟩ | ⟨cut, tail, same, absent, listed⟩
    · rw [List.append_assoc] at other
      exact absurd (List.prefix_append _ _) other
    · rw [List.append_assoc, List.append_cancel_left_eq] at same
      rw [← same] at absent
      exact absurd (List.mem_append_right _ List.mem_cons_self) absent
    · rw [List.append_assoc, List.append_assoc, List.append_cancel_left_eq] at same
      rw [listed, slash_cut_inj plain absent same]

theorem mem_files_iff (shows : Shows objects keyPrefix ['/'] pages) {relative : Text}
    (plain : '/' ∉ relative) (size : Nat) :
    (.inl { key := keyPrefix ++ relative, size } : ScanItem) ∈ pages.flatMap pageItems ↔
      ∃ stored, objects.get (keyPrefix ++ relative) = some stored ∧ size = stored.body.length := by
  rw [mem_items]
  dsimp only
  rw [shows.files]
  refine exists_congr fun stored => and_congr_right fun found => ?_
  rcases @listEntry_cases keyPrefix (keyPrefix ++ relative) stored.body.length with
    ⟨other, -⟩ | ⟨_, -, -, listed⟩ | ⟨cut, tail, same, -, -⟩
  · exact absurd (List.prefix_append _ _) other
  · rw [listed, Option.some_inj, Prod.mk.injEq, Option.some_inj]
    exact ⟨fun same => same.2.symm, fun same => ⟨rfl, same.symm⟩⟩
  · rw [List.append_assoc, List.append_cancel_left_eq] at same
    rw [same] at plain
    exact absurd (List.mem_append_right _ List.mem_cons_self) plain

theorem marks_iff (shows : Shows objects keyPrefix ['/'] pages) :
    (∃ item ∈ pages.flatMap pageItems, ScanItem.Marks keyPrefix item) ↔
      IsDirectory objects keyPrefix := by
  constructor
  · rintro ⟨item, inside, marks⟩
    rw [mem_items] at inside
    cases item with
    | inl object =>
        obtain ⟨relative, key, empty⟩ := marks
        obtain ⟨stored, found, listed⟩ := (shows.files object).mp inside
        rw [key] at found
        refine ⟨relative, stored, found, fun none => ?_⟩
        rcases @listEntry_cases keyPrefix object.key stored.body.length with
          ⟨-, other⟩ | ⟨_, -, -, other⟩ | ⟨cut, tail, -, -, other⟩
        · rw [other] at listed
          cases listed
        · rw [other] at listed
          have size := Option.some.inj (Prod.mk.inj (Option.some.inj listed)).2
          exact List.eq_nil_of_length_eq_zero (size.trans (empty none))
        · rw [other] at listed
          cases (Prod.mk.inj (Option.some.inj listed)).2
    | inr commonPrefix =>
        obtain ⟨name, rfl⟩ := marks
        obtain ⟨key, stored, found, listed⟩ := (shows.directories _).mp inside
        rcases @listEntry_cases keyPrefix key stored.body.length with
          ⟨-, other⟩ | ⟨_, -, -, other⟩ | ⟨cut, tail, rfl, -, other⟩
        · rw [other] at listed
          cases listed
        · rw [other] at listed
          cases (Prod.mk.inj (Option.some.inj listed)).2
        · rw [List.append_assoc] at found
          exact ⟨_, stored, found, fun none => absurd none (by simp)⟩
  · rintro ⟨relative, stored, found, empty⟩
    rcases @listEntry_cases keyPrefix (keyPrefix ++ relative) stored.body.length with
      ⟨other, -⟩ | ⟨_, -, absent, listed⟩ | ⟨cut, tail, same, -, listed⟩
    · exact absurd (List.prefix_append _ _) other
    · refine ⟨.inl { key := keyPrefix ++ relative, size := stored.body.length }, ?_, relative, rfl, ?_⟩
      · exact mem_items.mpr ((shows.files _).mpr ⟨stored, found, listed⟩)
      · intro none
        exact congrArg List.length (empty none)
    · refine ⟨.inr (keyPrefix ++ cut ++ ['/']), ?_, cut, rfl⟩
      exact mem_items.mpr ((shows.directories _).mpr ⟨_, stored, found, listed⟩)

theorem mem_listing_iff {scan : Scan} {entry : DirEntry} :
    entry ∈ scan.listing.entries ↔ scan.entries.get entry.name = some entry.metadata := by
  unfold Scan.listing
  rw [← OrderedMap.mem_iff_get, List.mem_map]
  constructor
  · rintro ⟨pair, inside, rfl⟩
    exact inside
  · intro inside
    exact ⟨_, inside, rfl⟩

/-- A scan of all pages lists the directory that the bucket has. -/
theorem lists_of_shows (root : Bool) (shows : Shows objects keyPrefix ['/'] pages) :
    Lists objects keyPrefix root (pages.foldl (Scan.addPage keyPrefix) (Scan.new root)).listing := by
  rw [foldl_addPage]
  obtain ⟨directory, file, entries, isThere⟩ := gathers_all keyPrefix root (pages.flatMap pageItems)
  generalize (pages.flatMap pageItems).foldl (Scan.addItem keyPrefix) (Scan.new root) = scan at *
  refine ⟨?_, ?_, ?_⟩
  · exact List.pairwise_map.mpr scan.entries.sorted
  · intro entry
    rw [mem_listing_iff]
    constructor
    · intro found
      obtain ⟨valid, shown⟩ := entries _ _ found
      have plain := valid.2.2.2.1
      refine ⟨valid, ?_⟩
      unfold Shown
      rw [namesDirectory_iff shows plain] at shown
      refine shown.imp id fun ⟨absent, size, inside, same⟩ => ⟨absent, ?_⟩
      obtain ⟨stored, stands, rfl⟩ := (mem_files_iff shows plain size).mp inside
      exact ⟨stored, stands, same⟩
    · rintro ⟨valid, ⟨below, same⟩ | ⟨absent, stored, stands, same⟩⟩
      · rw [same]
        exact directory _ valid ((namesDirectory_iff shows valid.2.2.2.1).mpr below)
      · have plain := valid.2.2.2.1
        have here := (mem_files_iff shows plain stored.body.length).mpr ⟨stored, stands, rfl⟩
        obtain ⟨metadata, found⟩ := Option.ne_none_iff_exists'.mp (file _ _ valid here)
        rw [found]
        obtain ⟨-, ⟨named, -⟩ | ⟨-, size, inside, other⟩⟩ := entries _ _ found
        · exact absurd ((namesDirectory_iff shows plain).mp named) absent
        · obtain ⟨again, stands', rfl⟩ := (mem_files_iff shows plain size).mp inside
          rw [stands] at stands'
          obtain rfl := Option.some.inj stands'
          rw [other, same]
  · exact isThere.trans (or_congr_right (marks_iff shows))

/-- A directory has one listing. -/
theorem Lists.unique {root : Bool} {first second : DirectoryListing}
    (left : Lists objects keyPrefix root first) (right : Lists objects keyPrefix root second) :
    first = second := by
  have same : first.exists = second.exists := by
    rw [Bool.eq_iff_iff, left.isThere, right.isThere]
  have nodup (listing : DirectoryListing) (lists : Lists objects keyPrefix root listing) :
      listing.entries.Nodup :=
    lists.sorted.imp fun before equal => by
      rw [equal] at before
      exact lt_irrefl _ before
  have perm : first.entries.Perm second.entries :=
    (List.perm_ext_iff_of_nodup (nodup first left) (nodup second right)).mpr fun entry => by
      rw [left.mem, right.mem]
  have entries : first.entries = second.entries :=
    perm.eq_of_pairwise (fun _ _ _ _ before after => absurd before after.asymm) left.sorted right.sorted
  cases first
  cases second
  obtain rfl := same
  obtain rfl := entries
  rfl

end Showing

end TinySandbox.S3
