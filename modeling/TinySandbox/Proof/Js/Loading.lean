/-
This file shows that the cache of modules agrees with what has been executed in every run.
-/

import TinySandbox.Specification.Loading
import TinySandbox.Library.Call
import TinySandbox.Library.Text

namespace TinySandbox.Js.Guest
open Library Library.Call

section Paths

/-- A clean name is neither empty nor a step to another directory. -/
structure CleanPart (part : CodeUnits) : Prop where
  filled : part ≠ []
  dot : part ≠ [dot]
  dots : part ≠ [Guest.dot, Guest.dot]
  free : slash ∉ part

theorem normalizePart_clean {parts : List CodeUnits} {part : CodeUnits}
    (clean : ∀ name ∈ parts, CleanPart name) (free : slash ∉ part) :
    ∀ name ∈ normalizePart parts part, CleanPart name := by
  intro name member
  unfold normalizePart at member
  split_ifs at member with skipped parent
  · exact clean name member
  · exact clean name (List.dropLast_subset _ member)
  · rcases List.mem_append.mp member with old | new
    · exact clean name old
    · obtain rfl := List.mem_singleton.mp new
      rw [not_or] at skipped
      exact ⟨skipped.1, skipped.2, parent, free⟩

theorem pathNames_clean (path : CodeUnits) : ∀ name ∈ pathNames path, CleanPart name := by
  have fold : ∀ (texts parts : List CodeUnits), (∀ text ∈ texts, slash ∉ text) →
      (∀ name ∈ parts, CleanPart name) →
      ∀ name ∈ texts.foldl normalizePart parts, CleanPart name := by
    intro texts
    induction texts with
    | nil =>
        intro parts free clean
        exact clean
    | cons text rest ih =>
        intro parts free clean
        apply ih _ fun other member => free other (List.mem_cons_of_mem _ member)
        exact normalizePart_clean clean (free text List.mem_cons_self)
  exact fold _ [] (fun text member => (mem_splitOn_part member).1) fun name member =>
    absurd member List.not_mem_nil

theorem foldl_normalizePart {names : List CodeUnits} (clean : ∀ name ∈ names, CleanPart name)
    (parts : List CodeUnits) : names.foldl normalizePart parts = parts ++ names := by
  induction names generalizing parts with
  | nil => exact (List.append_nil parts).symm
  | cons name rest ih =>
      have here := clean name List.mem_cons_self
      have step : normalizePart parts name = parts ++ [name] := by
        rw [normalizePart, if_neg (not_or.mpr ⟨here.filled, here.dot⟩), if_neg here.dots]
      rw [List.foldl_cons, step, ih fun other member => clean other (List.mem_cons_of_mem _ member),
        List.append_assoc, List.singleton_append]

theorem normalizeAbsolute_congr {first second : CodeUnits}
    (same : pathNames first = pathNames second) :
    normalizeAbsolute first = normalizeAbsolute second := by
  unfold normalizeAbsolute
  rw [same]

/-- A path and its normal form lead to the same place in the tree. -/
theorem pathNames_normalizeAbsolute (path : CodeUnits) :
    pathNames (normalizeAbsolute path) = pathNames path := by
  have clean := pathNames_clean path
  unfold normalizeAbsolute
  by_cases empty : pathNames path = []
  · rw [if_pos empty, empty]
    decide
  · rw [if_neg empty]
    have cut : (slash :: [slash].intercalate (pathNames path)).splitOn slash =
        [] :: pathNames path := by
      rw [List.splitOn_cons_eq_if_modifyHead, if_pos (beq_self_eq_true slash),
        List.splitOn_intercalate slash (fun name member => (clean name member).free) empty]
    rw [pathNames, cut, List.foldl_cons]
    exact foldl_normalizePart clean []

theorem normalizeAbsolute_normalizeAbsolute (path : CodeUnits) :
    normalizeAbsolute (normalizeAbsolute path) = normalizeAbsolute path :=
  normalizeAbsolute_congr (pathNames_normalizeAbsolute path)

/-- One file has one path in the cache. -/
theorem IsFile.unique {γ : Type} {tree : Tree γ} {first second : CodeUnits}
    (left : IsFile tree first) (right : IsFile tree second)
    (same : pathNames first = pathNames second) : first = second := by
  rw [← left.normal, ← right.normal]
  exact normalizeAbsolute_congr same

end Paths

variable {γ : Type} {config : GuestConfig} {tree : Tree γ} {main : CodeUnits}

section Resolve

theorem statOrNull_file {path : CodeUnits} (found : statOrNull tree path = .ok (some .file)) :
    tree.stat (pathNames path) = .file := by
  unfold statOrNull at found
  cases answer : tree.stat (pathNames path) with
  | file => rfl
  | missing =>
      rw [answer] at found
      cases found
  | directory =>
      rw [answer] at found
      cases found
  | failed code =>
      rw [answer] at found
      cases found

theorem fileCandidate_file {path file : CodeUnits}
    (found : fileCandidate tree path = .ok (some file)) : IsFile tree file := by
  obtain ⟨stat, answer, found⟩ := bind_eq_ok_iff.mp found
  by_cases isFile : stat = some .file
  · rw [if_pos isFile] at found
    cases found
    subst isFile
    refine ⟨normalizeAbsolute_normalizeAbsolute path, ?_⟩
    rw [pathNames_normalizeAbsolute]
    exact statOrNull_file answer
  · rw [if_neg isFile] at found
    cases found

theorem firstCandidate_file {paths : List CodeUnits} {file : CodeUnits}
    (found : firstCandidate tree paths = .ok (some file)) : IsFile tree file := by
  induction paths with
  | nil => cases found
  | cons path paths ih =>
      obtain ⟨candidate, answer, found⟩ := bind_eq_ok_iff.mp found
      cases candidate with
      | none => exact ih found
      | some candidate =>
          cases found
          exact fileCandidate_file answer

theorem resolveIndex_file {base file : CodeUnits}
    (found : resolveIndex tree base = .ok (some file)) : IsFile tree file := by
  obtain ⟨stat, answer, found⟩ := bind_eq_ok_iff.mp found
  split_ifs at found
  · exact fileCandidate_file found
  · cases found

theorem resolveBase_file {specifier base file : CodeUnits}
    (found : resolveBase tree specifier base = .ok (some file)) : IsFile tree file := by
  obtain ⟨candidate, answer, found⟩ := bind_eq_ok_iff.mp found
  cases candidate with
  | none => exact resolveIndex_file found
  | some candidate =>
      cases found
      unfold resolveFile at answer
      dsimp only at answer
      split_ifs at answer
      · cases answer
      · exact firstCandidate_file answer

/-- A resolved specifier is the path of a file. -/
theorem resolveModule_file {loader : Loader γ} {specifier dir file : CodeUnits} {parent : Nat}
    (found : resolveModule tree loader specifier dir parent = .ok file) : IsFile tree file := by
  obtain ⟨-, found⟩ := ite_error_eq_ok_iff.mp found
  obtain ⟨candidate, answer, found⟩ := bind_eq_ok_iff.mp found
  cases candidate with
  | none => cases found
  | some candidate =>
      cases found
      exact resolveBase_file answer

end Resolve

section Invariant
variable {executing : List Nat} {loader after : Loader γ}

/-- The path that an event is about. -/
def LoadEvent.path : LoadEvent → CodeUnits
  | .began path => path
  | .completed path => path
  | .threw path => path

/-- The invariant holds whenever the guest looks at the loader. -/
structure Sound (tree : Tree γ) (main : CodeUnits) (executing : List Nat) (loader : Loader γ) :
    Prop where
  depth : executing.length = loader.requireDepth + 1
  bounded : loader.requireDepth ≤ maxRequireDepth
  distinct : executing.Nodup
  home : loader.moduleCache main ≠ none
  members : ∀ number ∈ executing, ∃ path, loader.Names number path ∧
    loader.moduleCache path = some number
  names : ∀ path number, loader.moduleCache path = some number → loader.Names number path
  cached : ∀ path number, loader.moduleCache path = some number →
    path = main ∨ .completed path ∈ loader.log ∨ number ∈ executing
  keys : ∀ path, loader.moduleCache path ≠ none → path = main ∨ IsFile tree path
  completed : ∀ path, .completed path ∈ loader.log → loader.moduleCache path ≠ none
  once : Once loader.log

theorem Sound.consistent (sound : Sound tree main executing loader) :
    Consistent tree main executing loader where
  depth := sound.depth
  keys := sound.keys
  names := sound.names
  once := sound.once
  exact := by
    intro path
    constructor
    · intro inside
      obtain ⟨number, found⟩ := Option.ne_none_iff_exists'.mp inside
      rcases sound.cached path number found with isMain | completed | member
      · exact .inl isMain
      · exact .inr (.inl completed)
      · exact .inr (.inr ⟨number, member, sound.names path number found⟩)
    · rintro (rfl | completed | ⟨number, member, named⟩)
      · exact sound.home
      · exact sound.completed path completed
      · obtain ⟨path', named', found⟩ := sound.members number member
        obtain rfl := Option.some.inj (named.symm.trans named')
        rw [found]
        exact Option.some_ne_none number

/-- Loading keeps what is in the cache, and it logs nothing about it. -/
structure Extends (loader after : Loader γ) : Prop where
  depth : after.requireDepth = loader.requireDepth
  kept : ∀ path number, loader.moduleCache path = some number →
    after.moduleCache path = some number
  names : ∀ number path, loader.Names number path → after.Names number path
  log : ∃ events, after.log = loader.log ++ events ∧
    ∀ event ∈ events, loader.moduleCache event.path = none

theorem Extends.refl (loader : Loader γ) : Extends loader loader where
  depth := rfl
  kept := fun _ _ found => found
  names := fun _ _ named => named
  log := ⟨[], (List.append_nil _).symm, fun _ inside => absurd inside List.not_mem_nil⟩

theorem Extends.trans {middle : Loader γ} (first : Extends loader middle)
    (second : Extends middle after) : Extends loader after where
  depth := second.depth.trans first.depth
  kept := fun path number found => second.kept path number (first.kept path number found)
  names := fun number path named => second.names number path (first.names number path named)
  log := by
    obtain ⟨early, logged, fresh⟩ := first.log
    obtain ⟨late, logged', fresh'⟩ := second.log
    refine ⟨early ++ late, ?_, ?_⟩
    · rw [logged', logged, List.append_assoc]
    · intro event inside
      rcases List.mem_append.mp inside with here | there
      · exact fresh event here
      · cases found : loader.moduleCache event.path with
        | none => rfl
        | some number =>
            have none := fresh' event there
            rw [first.kept _ number found] at none
            cases none

section Change
variable {number : Nat} {update : Module γ → Module γ}
  (named : ∀ module, (update module).filename = module.filename)
include named

theorem names_change (module : Nat) (path : CodeUnits) :
    (loader.change number update).Names module path ↔ loader.Names module path := by
  unfold Loader.Names Loader.change
  dsimp only
  rw [List.getElem?_modify]
  cases loader.modules[module]? with
  | none => rfl
  | some found =>
      have same : (if number = module then update found else found).filename = found.filename := by
        split_ifs
        · exact named found
        · rfl
      change some (if number = module then update found else found).filename = some path ↔ _
      rw [same]
      rfl

/-- A change that keeps the file name of a module keeps the invariant. -/
theorem Sound.change (sound : Sound tree main executing loader) :
    Sound tree main executing (loader.change number update) where
  depth := sound.depth
  bounded := sound.bounded
  distinct := sound.distinct
  home := sound.home
  members := by
    intro member inside
    obtain ⟨path, there, found⟩ := sound.members member inside
    exact ⟨path, (names_change named member path).mpr there, found⟩
  names := fun path module found =>
    (names_change named module path).mpr (sound.names path module found)
  cached := sound.cached
  keys := sound.keys
  completed := sound.completed
  once := sound.once

theorem Extends.change (loader : Loader γ) : Extends loader (loader.change number update) where
  depth := rfl
  kept := fun _ _ found => found
  names := fun module path there => (names_change named module path).mpr there
  log := ⟨[], (List.append_nil _).symm, fun _ inside => absurd inside List.not_mem_nil⟩

end Change

theorem Loader.Names.lt {number : Nat} {path : CodeUnits} (named : loader.Names number path) :
    number < loader.modules.length := by
  obtain ⟨module, found, -⟩ := Option.map_eq_some_iff.mp named
  exact (List.getElem?_eq_some_iff.mp found).1

theorem names_complete (path : CodeUnits) (number other : Nat) (there : CodeUnits) :
    (loader.complete path number).Names other there ↔ loader.Names other there :=
  @names_change γ loader number (fun module => { module with loaded := true }) (fun _ => rfl) other
    there

section Enter
variable {path : CodeUnits} {parent : Nat}

/-- The module that is entered has the next number. -/
theorem names_enter (number : Nat) (named : CodeUnits) :
    (loader.enter config path parent).Names number named ↔
      loader.Names number named ∨ (number = loader.modules.length ∧ named = path) := by
  let created : Loader γ := { loader.createModule config path (some parent) with
    moduleCache := Function.update loader.moduleCache path (some loader.modules.length) }
  let adopt : Module γ → Module γ :=
    fun module => { module with children := module.children ++ [loader.modules.length] }
  refine (@names_change γ created parent adopt (fun _ => rfl) number named).trans ?_
  change (loader.modules ++ [_])[number]?.map Module.filename = some named ↔
    loader.modules[number]?.map Module.filename = some named ∨ _
  rcases Nat.lt_trichotomy number loader.modules.length with below | rfl | above
  · rw [List.getElem?_append_left below]
    constructor
    · exact .inl
    · rintro (old | ⟨rfl, -⟩)
      · exact old
      · exact absurd below (Nat.lt_irrefl _)
  · rw [List.getElem?_concat_length, List.getElem?_eq_none (Nat.le_refl _)]
    simp [eq_comm]
  · rw [List.getElem?_eq_none (by simpa using above), List.getElem?_eq_none above.le]
    simp [above.ne']

variable (fresh : loader.moduleCache path = none)
include fresh

theorem Sound.enter (sound : Sound tree main executing loader)
    (shallow : loader.requireDepth < maxRequireDepth) (file : IsFile tree path) :
    Sound tree main (loader.modules.length :: executing) (loader.enter config path parent) := by
  have old : ∀ {other number}, loader.moduleCache other = some number →
      (loader.enter config path parent).moduleCache other = some number := by
    intro other number found
    have different : other ≠ path := by
      intro same
      rw [same, fresh] at found
      cases found
    exact (Function.update_of_ne different _ _).trans found
  have new : (loader.enter config path parent).moduleCache path = some loader.modules.length :=
    Function.update_self _ _ _
  have inverse : ∀ {other number},
      (loader.enter config path parent).moduleCache other = some number →
        loader.moduleCache other = some number ∨
          (number = loader.modules.length ∧ other = path) := by
    intro other number found
    by_cases same : other = path
    · rw [same, new] at found
      exact .inr ⟨(Option.some.inj found).symm, same⟩
    · exact .inl ((Function.update_of_ne same _ _).symm.trans found)
  constructor
  case depth => exact congrArg Nat.succ sound.depth
  case bounded => exact shallow
  case distinct =>
    refine List.nodup_cons.mpr ⟨?_, sound.distinct⟩
    intro inside
    obtain ⟨other, named, -⟩ := sound.members _ inside
    exact Nat.lt_irrefl _ named.lt
  case home =>
    obtain ⟨number, found⟩ := Option.ne_none_iff_exists'.mp sound.home
    rw [old found]
    exact Option.some_ne_none number
  case members =>
    intro number inside
    rcases List.mem_cons.mp inside with rfl | inside
    · exact ⟨path, (names_enter _ _).mpr (.inr ⟨rfl, rfl⟩), new⟩
    · obtain ⟨other, named, found⟩ := sound.members number inside
      exact ⟨other, (names_enter _ _).mpr (.inl named), old found⟩
  case names =>
    intro other number found
    rcases inverse found with before | ⟨rfl, rfl⟩
    · exact (names_enter _ _).mpr (.inl (sound.names other number before))
    · exact (names_enter _ _).mpr (.inr ⟨rfl, rfl⟩)
  case cached =>
    intro other number found
    rcases inverse found with before | ⟨rfl, rfl⟩
    · rcases sound.cached other number before with isMain | completed | member
      · exact .inl isMain
      · exact .inr (.inl (List.mem_append_left _ completed))
      · exact .inr (.inr (List.mem_cons_of_mem _ member))
    · exact .inr (.inr List.mem_cons_self)
  case keys =>
    intro other inside
    obtain ⟨number, found⟩ := Option.ne_none_iff_exists'.mp inside
    rcases inverse found with before | ⟨-, rfl⟩
    · exact sound.keys other (before.symm ▸ Option.some_ne_none number)
    · exact .inr file
  case completed =>
    intro other inside
    rcases List.mem_append.mp inside with before | now
    · obtain ⟨number, found⟩ := Option.ne_none_iff_exists'.mp (sound.completed other before)
      rw [old found]
      exact Option.some_ne_none number
    · cases List.mem_singleton.mp now
  case once =>
    refine List.pairwise_append.mpr ⟨sound.once, List.pairwise_singleton _ _, ?_⟩
    intro event inside last same other completed begins
    subst completed
    obtain rfl := List.mem_singleton.mp same
    cases begins
    exact sound.completed path inside fresh

/-- Nothing that was in the cache before the module was entered is lost when it is left. -/
theorem Extends.leave {inner : Loader γ} {event : LoadEvent} (parent : Nat)
    (extended : Extends (loader.enter config path parent) inner) (about : event.path = path)
    (depth : after.requireDepth = inner.requireDepth - 1)
    (kept : ∀ other, other ≠ path → after.moduleCache other = inner.moduleCache other)
    (names : ∀ number other, inner.Names number other → after.Names number other)
    (log : after.log = inner.log ++ [event]) : Extends loader after where
  depth := by
    rw [depth, extended.depth]
    rfl
  kept := by
    intro other number found
    have different : other ≠ path := by
      intro same
      rw [same, fresh] at found
      cases found
    rw [kept other different]
    exact extended.kept other number ((Function.update_of_ne different _ _).trans found)
  names := fun number other named =>
    names number other (extended.names number other ((names_enter _ _).mpr (.inl named)))
  log := by
    obtain ⟨events, logged, about'⟩ := extended.log
    refine ⟨.began path :: events ++ [event], ?_, ?_⟩
    · rw [log, logged]
      exact (List.append_assoc _ _ _).trans (List.append_assoc _ _ _)
    · intro other inside
      rcases List.mem_append.mp inside with inside | last
      · rcases List.mem_cons.mp inside with rfl | inside
        · exact fresh
        · have outside := about' other inside
          by_cases same : other.path = path
          · rw [same]
            exact fresh
          · exact (Function.update_of_ne same _ _).symm.trans outside
      · rw [List.mem_singleton.mp last, about]
        exact fresh

/-- A module that is being executed has not completed. -/
theorem Sound.running {inner : Loader γ} (sound : Sound tree main executing loader) (parent : Nat)
    (extended : Extends (loader.enter config path parent) inner) :
    .completed path ∉ inner.log := by
  obtain ⟨events, logged, about⟩ := extended.log
  rw [logged]
  intro inside
  rcases List.mem_append.mp inside with before | during
  · rcases List.mem_append.mp before with before | now
    · exact sound.completed path before fresh
    · cases List.mem_singleton.mp now
  · have outside := about _ during
    have found : (loader.enter config path parent).moduleCache path = some loader.modules.length :=
      Function.update_self _ _ _
    cases found.symm.trans outside

end Enter

section Leave
variable {path : CodeUnits} {number : Nat} (sound : Sound tree main (number :: executing) loader)
  (named : loader.Names number path)
include sound named

/-- The module that is being executed is in the cache under its path. -/
theorem Sound.current : loader.moduleCache path = some number := by
  obtain ⟨other, there, found⟩ := sound.members number List.mem_cons_self
  obtain rfl := Option.some.inj (named.symm.trans there)
  exact found

theorem Sound.complete (filled : 0 < executing.length) :
    Sound tree main executing (loader.complete path number) := by
  constructor
  case depth =>
    have depth : executing.length + 1 = loader.requireDepth + 1 := sound.depth
    change executing.length = loader.requireDepth - 1 + 1
    omega
  case bounded => exact (Nat.sub_le _ _).trans sound.bounded
  case distinct => exact (List.nodup_cons.mp sound.distinct).2
  case home => exact sound.home
  case members =>
    intro other inside
    obtain ⟨there, named, found⟩ := sound.members other (List.mem_cons_of_mem _ inside)
    exact ⟨there, (names_complete _ _ _ _).mpr named, found⟩
  case names =>
    exact fun there other found => (names_complete _ _ _ _).mpr (sound.names there other found)
  case cached =>
    intro there other found
    rcases sound.cached there other found with isMain | completed | member
    · exact .inl isMain
    · exact .inr (.inl (List.mem_append_left _ completed))
    · rcases List.mem_cons.mp member with rfl | member
      · obtain rfl := Option.some.inj (named.symm.trans (sound.names there other found))
        exact .inr (.inl (List.mem_append_right _ List.mem_cons_self))
      · exact .inr (.inr member)
  case keys => exact sound.keys
  case completed =>
    intro there inside
    rcases List.mem_append.mp inside with before | now
    · exact sound.completed there before
    · cases List.mem_singleton.mp now
      change loader.moduleCache path ≠ none
      rw [sound.current named]
      exact Option.some_ne_none number
  case once =>
    refine List.pairwise_append.mpr ⟨sound.once, List.pairwise_singleton _ _, ?_⟩
    intro event inside last same other completed begins
    obtain rfl := List.mem_singleton.mp same
    cases begins

theorem Sound.abandon (filled : 0 < executing.length) (other : path ≠ main)
    (running : .completed path ∉ loader.log) :
    Sound tree main executing (loader.abandon path) := by
  have old : ∀ {there}, there ≠ path →
      (loader.abandon path).moduleCache there = loader.moduleCache there := by
    intro there different
    exact Function.update_of_ne different _ _
  have gone : (loader.abandon path).moduleCache path = none := Function.update_self _ _ _
  have inverse : ∀ {there number}, (loader.abandon path).moduleCache there = some number →
      loader.moduleCache there = some number ∧ there ≠ path := by
    intro there number found
    have different : there ≠ path := by
      intro same
      rw [same, gone] at found
      cases found
    exact ⟨(old different).symm.trans found, different⟩
  constructor
  case depth =>
    have depth : executing.length + 1 = loader.requireDepth + 1 := sound.depth
    change executing.length = loader.requireDepth - 1 + 1
    omega
  case bounded => exact (Nat.sub_le _ _).trans sound.bounded
  case distinct => exact (List.nodup_cons.mp sound.distinct).2
  case home =>
    rw [old other.symm]
    exact sound.home
  case members =>
    intro member inside
    obtain ⟨there, named', found⟩ := sound.members member (List.mem_cons_of_mem _ inside)
    refine ⟨there, named', (old ?_).trans found⟩
    intro same
    subst same
    obtain rfl := Option.some.inj ((sound.current named).symm.trans found)
    exact (List.nodup_cons.mp sound.distinct).1 inside
  case names => exact fun there member found => sound.names there member (inverse found).1
  case cached =>
    intro there member found
    obtain ⟨found, different⟩ := inverse found
    rcases sound.cached there member found with isMain | completed | inside
    · exact .inl isMain
    · exact .inr (.inl (List.mem_append_left _ completed))
    · rcases List.mem_cons.mp inside with rfl | inside
      · exact absurd (Option.some.inj ((sound.names there member found).symm.trans named)) different
      · exact .inr (.inr inside)
  case keys =>
    intro there inside
    obtain ⟨member, found⟩ := Option.ne_none_iff_exists'.mp inside
    exact sound.keys there ((inverse found).1.symm ▸ Option.some_ne_none member)
  case completed =>
    intro there inside
    rcases List.mem_append.mp inside with before | now
    · rw [old]
      · exact sound.completed there before
      · intro same
        exact running (same ▸ before)
    · cases List.mem_singleton.mp now
  case once =>
    refine List.pairwise_append.mpr ⟨sound.once, List.pairwise_singleton _ _, ?_⟩
    intro event inside last same other completed begins
    obtain rfl := List.mem_singleton.mp same
    cases begins

end Leave

end Invariant

section Runs
variable {α : Type} {executing : List Nat} {run after : LoadRun γ} {bound : Nat}

/-- A part of a run keeps the invariant, and every moment in it has the invariant. -/
structure Leads (tree : Tree γ) (main : CodeUnits) (executing : List Nat) (run after : LoadRun γ) :
    Prop where
  extended : Extends run.loader after.loader
  sound : Sound tree main executing after.loader
  moments : ∀ moment ∈ after.moments,
    moment ∈ run.moments ∨ Sound tree main moment.executing moment.loader

theorem Leads.refl (sound : Sound tree main executing run.loader) :
    Leads tree main executing run run :=
  ⟨.refl _, sound, fun _ inside => .inl inside⟩

theorem Leads.trans {inner : List Nat} {middle : LoadRun γ}
    (first : Leads tree main inner run middle) (second : Leads tree main executing middle after) :
    Leads tree main executing run after := by
  refine ⟨first.extended.trans second.extended, second.sound, ?_⟩
  intro moment inside
  rcases second.moments moment inside with before | here
  · exact first.moments moment before
  · exact .inr here

theorem Leads.observe (sound : Sound tree main executing run.loader) :
    Leads tree main executing run (run.observe executing) := by
  refine ⟨.refl _, sound, ?_⟩
  intro moment inside
  rcases List.mem_append.mp inside with before | now
  · exact .inl before
  · rw [List.mem_singleton.mp now]
    exact .inr sound

theorem Leads.change (sound : Sound tree main executing run.loader) (number : Nat)
    {update : Module γ → Module γ} (named : ∀ module, (update module).filename = module.filename) :
    Leads tree main executing run (run.modify (.change number update)) :=
  ⟨.change named run.loader, sound.change named, fun _ inside => .inl inside⟩

/-- With enough fuel the operation has one outcome. -/
def Ends (tree : Tree γ) (main : CodeUnits) (executing : List Nat) (bound : Nat)
    (operation : Nat → LoadRun γ → Outcome γ α) (run : LoadRun γ) : Prop :=
  ∃ result after, (∀ fuel, bound < fuel → operation fuel run = some (result, after)) ∧
    Leads tree main executing run after

/-- An outcome that needs no fuel. -/
theorem Ends.of_eq {operation : Nat → LoadRun γ → Outcome γ α} {result : Except (LoadError γ) α}
    (leads : Leads tree main executing run after)
    (same : ∀ fuel, operation fuel run = some (result, after)) :
    Ends tree main executing bound operation run :=
  ⟨result, after, fun fuel _ => same fuel, leads⟩

section Body
variable {require : Nat → CodeUnits → LoadRun γ → Outcome γ (Export γ)}
  (requires : ∀ specifier run, Sound tree main executing run.loader →
    Ends tree main executing bound (fun fuel => require fuel specifier) run)
include requires

theorem evaluateInto_ends (module : Nat) (update : Export γ → Module γ → Module γ)
    (named : ∀ value module, (update value module).filename = module.filename)
    (expression : Expression γ) (sound : Sound tree main executing run.loader) :
    Ends tree main executing bound
      (fun fuel => evaluateInto (require fuel) module update expression) run := by
  cases expression with
  | value value => exact .of_eq (.change sound module (named (.guest value))) fun _ => rfl
  | require specifier =>
      obtain ⟨result, after, outcome, leads⟩ := requires specifier run sound
      cases result with
      | error thrown =>
          refine ⟨.error thrown, after, ?_, leads⟩
          intro fuel enough
          simp only [evaluateInto, evaluate, outcome fuel enough]
      | ok value =>
          refine ⟨.ok (), _, ?_, leads.trans (.change leads.sound module (named value))⟩
          intro fuel enough
          simp only [evaluateInto, evaluate, outcome fuel enough]

theorem perform_ends (module : Nat) (action : Action γ)
    (sound : Sound tree main executing run.loader) :
    Ends tree main executing bound (fun fuel => perform (require fuel) module action) run := by
  cases action with
  | evaluate expression =>
      exact evaluateInto_ends requires module (fun _ module => module) (fun _ _ => rfl) expression
        sound
  | assign expression =>
      exact evaluateInto_ends requires module
        (fun value module => { module with exports := value }) (fun _ _ => rfl) expression sound
  | define name expression =>
      exact evaluateInto_ends requires module
        (fun value module => { module with fields := module.fields ++ [(name, value)] })
        (fun _ _ => rfl) expression sound
  | throw value => exact .of_eq (.refl sound) fun _ => rfl

/-- The induction is on the statements of the module. -/
theorem runBody_ends (module : Nat) (body : List (Statement γ))
    (sound : Sound tree main executing run.loader) :
    Ends tree main executing bound
      (fun fuel => runBody (require fuel) executing module body) run := by
  induction body generalizing run with
  | nil => exact .of_eq (.observe sound) fun _ => rfl
  | cons statement rest ih =>
      have observed : Leads tree main executing run (run.observe executing) := .observe sound
      obtain ⟨result, middle, outcome, leads⟩ :=
        perform_ends requires module statement.action observed.sound
      have leads := observed.trans leads
      obtain ⟨final, after, outcome', leads'⟩ := ih leads.sound
      cases result with
      | ok value =>
          refine ⟨final, after, ?_, leads.trans leads'⟩
          intro fuel enough
          simp only [runBody, outcome fuel enough, outcome' fuel enough]
      | error thrown =>
          cases caught : statement.caught with
          | true =>
              refine ⟨final, after, ?_, leads.trans leads'⟩
              intro fuel enough
              simp only [runBody, outcome fuel enough, outcome' fuel enough, caught, if_true]
          | false =>
              refine ⟨.error thrown, middle, ?_, leads⟩
              intro fuel enough
              simp only [runBody, outcome fuel enough, caught, Bool.false_eq_true, if_false]

theorem executeModule_ends (module : Nat) (path : CodeUnits)
    (sound : Sound tree main executing run.loader) :
    Ends tree main executing bound
      (fun fuel => executeModule (require fuel) executing module tree path) run := by
  unfold executeModule
  cases tree.read (pathNames path) with
  | error code => exact .of_eq (.refl sound) fun _ => rfl
  | ok source =>
      dsimp only
      split_ifs with isJson
      · unfold executeJsonModule
        cases source.json with
        | none => exact .of_eq (.refl sound) fun _ => rfl
        | some value =>
            let update : Module γ → Module γ :=
              fun module => { module with exports := .guest value }
            have leads : Leads tree main executing run (run.modify (.change module update)) :=
              .change sound module fun _ => rfl
            exact .of_eq leads fun _ => rfl
      · unfold executeJsModule
        cases source.script with
        | none => exact .of_eq (.refl sound) fun _ => rfl
        | some body => exact runBody_ends requires module body sound

end Body

section Load
variable {path : CodeUnits} {parent : Nat}

/-- A module that was not in the cache has been executed, or it was too deep. -/
def Loads (tree : Tree γ) (main : CodeUnits) (executing : List Nat) (bound : Nat)
    (path : CodeUnits) (operation : Nat → LoadRun γ → Outcome γ (Export γ)) (run : LoadRun γ) :
    Prop :=
  ∃ result after, (∀ fuel, bound < fuel → operation fuel run = some (result, after)) ∧
    Leads tree main executing run after ∧
    (run.loader.moduleCache path = none → after.loader.Left path result)

theorem localRequire_of_requests {module : Nat} {specifier : CodeUnits}
    {load : CodeUnits → LoadRun γ → Outcome γ (Export γ)}
    (requests : Requests config tree run.loader module specifier path) :
    localRequire config tree load module specifier run = load path run := by
  unfold localRequire
  rw [requests.outside]
  dsimp only
  rw [requests.resolved]

/-- A require is answered at once, or it loads the file that it requests. -/
theorem localRequire_cases (module : Nat) (specifier : CodeUnits) :
    (∃ result, ∀ load, localRequire config tree load module specifier run = some (result, run)) ∨
      ∃ path, Requests config tree run.loader module specifier path := by
  unfold localRequire
  cases outside : (builtinModule config specifier : Option (Except (LoadError γ) (Export γ))) with
  | some result => exact .inl ⟨result, fun _ => rfl⟩
  | none =>
      cases resolved : resolveModule tree run.loader specifier
          ((run.loader.modules[module]?.map Module.dirname).getD []) module with
      | ok path => exact .inr ⟨path, outside, resolved⟩
      | error thrown =>
          dsimp only
          rw [resolved]
          exact .inl ⟨.error thrown, fun _ => rfl⟩

theorem localRequire_ends {load : Nat → CodeUnits → LoadRun γ → Outcome γ (Export γ)}
    (loads : ∀ path, IsFile tree path →
      Loads tree main executing bound path (fun fuel => load fuel path) run)
    (module : Nat) (specifier : CodeUnits) (sound : Sound tree main executing run.loader) :
    Ends tree main executing bound
      (fun fuel => localRequire config tree (load fuel) module specifier) run := by
  rcases @localRequire_cases γ config tree run module specifier with
    ⟨result, outcome⟩ | ⟨path, requests⟩
  · exact .of_eq (.refl sound) fun fuel => outcome (load fuel)
  · obtain ⟨result, after, outcome, leads, -⟩ := loads path (resolveModule_file requests.resolved)
    refine ⟨result, after, ?_, leads⟩
    intro fuel enough
    exact (localRequire_of_requests requests).trans (outcome fuel enough)

theorem loadModule_cached {number : Nat} (found : run.loader.moduleCache path = some number)
    (fuel : Nat) :
    loadModule config tree (fuel + 1) executing parent path run =
      some (.ok ((run.loader.exports number).getD (.object number)), run) := by
  rw [loadModule, found]

theorem loadModule_deep (fresh : run.loader.moduleCache path = none)
    (deep : maxRequireDepth ≤ run.loader.requireDepth) (fuel : Nat) :
    loadModule config tree (fuel + 1) executing parent path run =
      some (.error .requireDepth, run) := by
  rw [loadModule, fresh]
  exact if_pos deep

theorem loadModule_ends_cached {number : Nat} (sound : Sound tree main executing run.loader)
    (found : run.loader.moduleCache path = some number) :
    Loads tree main executing bound path
      (fun fuel => loadModule config tree fuel executing parent path) run := by
  refine ⟨.ok ((run.loader.exports number).getD (.object number)), run, ?_, .refl sound, ?_⟩
  · intro fuel enough
    obtain ⟨fuel, rfl⟩ := Nat.exists_eq_add_of_lt enough
    exact loadModule_cached found _
  · intro fresh
    rw [found] at fresh
    cases fresh

/-- A module that is not in the cache is entered and left. -/
theorem loadModule_ends_fresh (sound : Sound tree main executing run.loader)
    (fresh : run.loader.moduleCache path = none)
    (shallow : run.loader.requireDepth < maxRequireDepth) (file : IsFile tree path)
    (requires : ∀ specifier inner,
      Sound tree main (run.loader.modules.length :: executing) inner.loader →
        Ends tree main (run.loader.modules.length :: executing) bound
          (fun fuel => localRequire config tree
            (loadModule config tree fuel (run.loader.modules.length :: executing)
              run.loader.modules.length) run.loader.modules.length specifier) inner) :
    Loads tree main executing (bound + 1) path
      (fun fuel => loadModule config tree fuel executing parent path) run := by
  have entered : Sound tree main (run.loader.modules.length :: executing)
      (run.modify (.enter config path parent)).loader := sound.enter fresh shallow file
  obtain ⟨result, middle, outcome, leads⟩ :=
    executeModule_ends requires run.loader.modules.length path entered
  have named : middle.loader.Names run.loader.modules.length path :=
    leads.extended.names _ _ ((names_enter _ _).mpr (.inr ⟨rfl, rfl⟩))
  have filled : 0 < executing.length := by
    rw [sound.depth]
    exact Nat.succ_pos _
  cases result with
  | ok value =>
      let after := middle.modify (.complete path run.loader.modules.length)
      refine ⟨.ok ((after.loader.exports run.loader.modules.length).getD
        (.object run.loader.modules.length)), after, ?_, ⟨?_, ?_, leads.moments⟩, ?_⟩
      · intro fuel enough
        cases fuel with
        | zero => cases enough
        | succ fuel =>
            have inner := outcome fuel (Nat.lt_of_succ_lt_succ enough)
            dsimp only at inner
            simp only [loadModule, fresh, if_neg shallow.not_ge, inner]
            rfl
      · exact .leave fresh parent leads.extended rfl rfl (fun _ _ => rfl)
          (fun number other => (names_complete _ _ number other).mpr) rfl
      · exact leads.sound.complete named filled
      · exact fun _ => List.mem_append_right _ List.mem_cons_self
  | error thrown =>
      refine ⟨.error thrown, middle.modify (.abandon path), ?_, ⟨?_, ?_, leads.moments⟩, ?_⟩
      · intro fuel enough
        cases fuel with
        | zero => cases enough
        | succ fuel =>
            have inner := outcome fuel (Nat.lt_of_succ_lt_succ enough)
            dsimp only at inner
            simp only [loadModule, fresh, if_neg shallow.not_ge, inner]
      · exact .leave fresh parent leads.extended rfl rfl
          (fun other different => Function.update_of_ne different _ _) (fun _ _ there => there) rfl
      · refine leads.sound.abandon named filled ?_ (sound.running fresh parent leads.extended)
        intro same
        exact sound.home (same ▸ fresh)
      · exact fun _ => Function.update_self _ _ _

/-- The induction is on how much deeper modules may be required. -/
theorem loadModule_ends (remaining : Nat) (sound : Sound tree main executing run.loader)
    (below : run.loader.requireDepth + remaining = maxRequireDepth) (file : IsFile tree path) :
    Loads tree main executing remaining path
      (fun fuel => loadModule config tree fuel executing parent path) run := by
  induction remaining generalizing executing parent path run with
  | zero =>
      cases cached : run.loader.moduleCache path with
      | some number => exact loadModule_ends_cached sound cached
      | none =>
          refine ⟨.error .requireDepth, run, ?_, .refl sound, fun fresh => fresh⟩
          intro fuel enough
          obtain ⟨fuel, rfl⟩ := Nat.exists_eq_add_of_lt enough
          exact loadModule_deep cached below.ge _
  | succ remaining ih =>
      cases cached : run.loader.moduleCache path with
      | some number => exact loadModule_ends_cached sound cached
      | none =>
          refine loadModule_ends_fresh sound cached (by omega) file ?_
          intro specifier inner sound'
          refine localRequire_ends (fun other file' => ih sound' ?_ file') _ specifier sound'
          have outer := sound.depth
          have deeper : executing.length + 1 = inner.loader.requireDepth + 1 := sound'.depth
          omega

end Load

theorem Requests.unique {loader : Loader γ} {module : Nat} {specifier first second : CodeUnits}
    (left : Requests config tree loader module specifier first)
    (right : Requests config tree loader module specifier second) : first = second :=
  Except.ok.inj (left.resolved.symm.trans right.resolved)

/-- At every moment a require of any specifier from any module is answered as it should be. -/
theorem Sound.answers {moment : Moment γ}
    (sound : Sound tree main moment.executing moment.loader) (module : Nat)
    (specifier : CodeUnits) : Answers config tree main moment module specifier where
  ends := by
    intro moments
    let run : LoadRun γ := { loader := moment.loader, moments }
    have remaining : run.loader.requireDepth + (maxRequireDepth - run.loader.requireDepth) =
        maxRequireDepth := Nat.add_sub_of_le sound.bounded
    by_cases requested : ∃ path, Requests config tree moment.loader module specifier path
    · obtain ⟨path, requests⟩ := requested
      obtain ⟨result, after, outcome, leads, left⟩ :=
        @loadModule_ends γ config tree main moment.executing run path module _ sound remaining
          (resolveModule_file requests.resolved)
      refine ⟨result, after, ?_, leads.extended.depth, leads.sound.consistent, ?_⟩
      · intro fuel enough
        exact (localRequire_of_requests requests).trans
          (outcome fuel (Nat.lt_of_le_of_lt (Nat.sub_le _ _) enough))
      · intro other requests' fresh
        obtain rfl := requests.unique requests'
        exact left fresh
    · rcases @localRequire_cases γ config tree run module specifier with ⟨result, outcome⟩ | found
      · refine ⟨result, run, fun fuel _ => outcome _, rfl, sound.consistent, ?_⟩
        intro path requests
        exact absurd ⟨path, requests⟩ requested
      · exact absurd found requested
  file := fun path requests => resolveModule_file requests.resolved
  cached := by
    intro path number fuel moments requests found
    obtain ⟨entry, there, -⟩ := Option.map_eq_some_iff.mp (sound.names path number found)
    have exported : moment.loader.exports number = some entry.exports := by
      unfold Loader.exports
      rw [there]
      rfl
    refine ⟨entry.exports, exported, (localRequire_of_requests requests).trans ?_⟩
    rw [loadModule_cached found, exported]
    rfl
  deep := by
    intro path fuel moments requests fresh deep
    exact (localRequire_of_requests requests).trans (loadModule_deep fresh deep.ge fuel)

theorem moduleCache_main (path : CodeUnits) :
    (Loader.main config path : Loader γ).moduleCache =
      Function.update (fun _ => none) (mainFilename path) (some 0) := by
  unfold Loader.main
  dsimp only
  split_ifs <;> rfl

theorem names_main (path : CodeUnits) :
    (Loader.main config path : Loader γ).Names 0 (mainFilename path) := by
  unfold Loader.main
  dsimp only
  split_ifs <;> rfl

theorem log_main (path : CodeUnits) :
    (Loader.main config path : Loader γ).log = [.began (mainFilename path)] := by
  unfold Loader.main
  dsimp only
  split_ifs <;> rfl

theorem requireDepth_main (path : CodeUnits) :
    (Loader.main config path : Loader γ).requireDepth = 0 := by
  unfold Loader.main
  dsimp only
  split_ifs <;> rfl

theorem sound_main (path : CodeUnits) :
    Sound tree (mainFilename path) [0] (Loader.main config path : Loader γ) := by
  have home : (Loader.main config path : Loader γ).moduleCache (mainFilename path) = some 0 := by
    rw [moduleCache_main]
    exact Function.update_self _ _ _
  have only : ∀ other number, (Loader.main config path : Loader γ).moduleCache other = some number →
      other = mainFilename path ∧ number = 0 := by
    intro other number found
    by_cases same : other = mainFilename path
    · rw [same, home] at found
      exact ⟨same, (Option.some.inj found).symm⟩
    · rw [moduleCache_main, Function.update_of_ne same] at found
      cases found
  constructor
  case depth =>
    rw [requireDepth_main]
    rfl
  case bounded =>
    rw [requireDepth_main]
    exact Nat.zero_le _
  case distinct => exact List.nodup_singleton 0
  case home =>
    rw [home]
    exact Option.some_ne_none 0
  case members =>
    intro number inside
    rw [List.mem_singleton.mp inside]
    exact ⟨mainFilename path, names_main path, home⟩
  case names =>
    intro other number found
    obtain ⟨rfl, rfl⟩ := only other number found
    exact names_main path
  case cached => exact fun other number found => .inl (only other number found).1
  case keys =>
    intro other inside
    obtain ⟨number, found⟩ := Option.ne_none_iff_exists'.mp inside
    exact .inl (only other number found).1
  case completed =>
    intro other inside
    rw [log_main] at inside
    cases List.mem_singleton.mp inside
  case once =>
    rw [log_main]
    exact List.pairwise_singleton _ _

/-- The entry of the main module is the path of its file, unless it has none. -/
theorem isFile_main {path : CodeUnits} (script : path ≠ evalPath)
    (file : tree.stat (pathNames path) = .file) : IsFile tree (mainFilename path) := by
  rw [mainFilename, if_neg script]
  refine ⟨normalizeAbsolute_normalizeAbsolute path, ?_⟩
  rw [pathNames_normalizeAbsolute]
  exact file

/-- In every run the cache agrees with what has been executed, and every require is answered. Only
the main module may have a key that is not the path of a file. -/
theorem runMain_consistent (config : GuestConfig) (tree : Tree γ) (source : Source γ)
    (path : CodeUnits) :
    ∃ result after,
      (∀ fuel, maxRequireDepth < fuel →
        runMain config tree fuel source path = some (result, after)) ∧
      Consistent tree (mainFilename path) [0] after.loader ∧
      (∀ moment ∈ after.moments,
        Consistent tree (mainFilename path) moment.executing moment.loader ∧
          ∀ module specifier, Answers config tree (mainFilename path) moment module specifier) ∧
      (path ≠ evalPath → tree.stat (pathNames path) = .file → IsFile tree (mainFilename path)) ∧
      ∀ first second, IsFile tree first → IsFile tree second →
        pathNames first = pathNames second → first = second := by
  let run : LoadRun γ := { loader := .main config path, moments := [] }
  have start : Sound tree (mainFilename path) [0] run.loader := sound_main path
  have requires : ∀ specifier inner, Sound tree (mainFilename path) [0] inner.loader →
      Ends tree (mainFilename path) [0] maxRequireDepth
        (fun fuel => makeRequire config tree fuel [0] 0 specifier) inner := by
    intro specifier inner sound
    refine localRequire_ends (fun other file => loadModule_ends _ sound ?_ file) 0 specifier sound
    have depth : 1 = inner.loader.requireDepth + 1 := sound.depth
    omega
  have shares : ∀ first second, IsFile tree first → IsFile tree second →
      pathNames first = pathNames second → first = second :=
    fun first second left right => left.unique right
  cases compiled : source.script with
  | none =>
      refine ⟨.error (.invalidScript (mainFilename path)), run, ?_, start.consistent, ?_,
        isFile_main, shares⟩
      · intro fuel enough
        simp only [runMain, compiled]
        rfl
      · exact fun moment inside => absurd inside List.not_mem_nil
  | some body =>
      obtain ⟨result, after, outcome, leads⟩ := runBody_ends requires 0 body start
      have final := @Leads.change γ tree (mainFilename path) [0] after leads.sound 0
        (fun module => { module with loaded := true }) fun _ => rfl
      refine ⟨result, _, ?_, final.sound.consistent, ?_, isFile_main, shares⟩
      · intro fuel enough
        have inner : runBody (makeRequire config tree fuel [0] 0) [0] 0 body
            { loader := .main config path, moments := [] } = some (result, after) :=
          outcome fuel enough
        simp only [runMain, compiled, inner]
      · intro moment inside
        rcases leads.moments moment inside with before | sound
        · exact absurd before List.not_mem_nil
        · exact ⟨sound.consistent, sound.answers⟩

/-- The key of code without a file is not an absolute path. -/
theorem not_all_keys_files : ¬ ∀ (config : GuestConfig) (tree : Tree Unit) (source : Source Unit)
    (path : CodeUnits) (fuel : Nat) (result : Except (LoadError Unit) Unit) (after : LoadRun Unit),
    runMain config tree fuel source path = some (result, after) →
      ∀ moment ∈ after.moments, ∀ key, moment.loader.moduleCache key ≠ none → IsFile tree key := by
  intro claimed
  have files := claimed { cwd := [slash], vfs := true }
    { stat := fun _ => .missing, read := fun _ => .error [] } { script := some [], json := none }
    evalPath 0 (.ok ()) _ rfl _ List.mem_cons_self evalPath
  have normal := (files (Option.some_ne_none 0)).normal
  exact absurd normal (by decide)

end Runs

end TinySandbox.Js.Guest
