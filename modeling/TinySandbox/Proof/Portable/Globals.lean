/-
This file shows that the portable host accepts the same names of host functions as the native one,
and that the accepted names can be installed.
-/

import TinySandbox.Construction.Portable.Globals
import TinySandbox.Library.Text
import TinySandbox.Proof.Js.Globals
import TinySandbox.Proof.Sandbox.JsGlobals

namespace TinySandbox.Portable
open Library Js.Guest Sandbox

section Segments

theorem code_cases : ∀ code < 128,
    (isNameUnit (UInt16.ofNat code) = true ↔
      (Char.ofNat code).isAlpha = true ∨ Char.ofNat code = '_') ∧
    ((isNameUnit (UInt16.ofNat code) || isDigitUnit (UInt16.ofNat code)) = true ↔
      (Char.ofNat code).isAlphanum = true ∨ Char.ofNat code = '_') := by
  decide +kernel

/-- The units of a segment stand above the dot. -/
theorem nameUnit_bounds {unit : UInt16} (named : (isNameUnit unit || isDigitUnit unit) = true) :
    48 ≤ unit.toNat ∧ unit.toNat < 128 := by
  simp only [isNameUnit, isDigitUnit, Bool.or_eq_true, decide_eq_true_eq] at named
  omega

theorem nameRest_ascii {symbol : Char} (named : Shell.isNameRest symbol) : symbol.toNat < 128 := by
  rcases named with named | rfl
  · unfold Char.isAlphanum Char.isAlpha Char.isUpper Char.isLower Char.isDigit at named
    simp only [Bool.or_eq_true, Bool.and_eq_true, decide_eq_true_eq, UInt32.le_iff_toNat_le,
      ge_iff_le] at named
    change ((65 ≤ symbol.toNat ∧ symbol.toNat ≤ 90) ∨ (97 ≤ symbol.toNat ∧ symbol.toNat ≤ 122)) ∨
      (48 ≤ symbol.toNat ∧ symbol.toNat ≤ 57) at named
    omega
  · decide

theorem nameFirst_rest {symbol : Char} (named : Shell.isNameFirst symbol) :
    Shell.isNameRest symbol := by
  rcases named with named | rfl
  · exact .inl (by simp [Char.isAlphanum, named])
  · exact .inr rfl

theorem textUnits_ascii {symbol : Char} (ascii : symbol.toNat < 128) (text : Text) :
    textUnits (symbol :: text) = UInt16.ofNat symbol.toNat :: textUnits text := by
  change charUnits symbol ++ textUnits text = _
  rw [charUnits_ascii ascii]
  rfl

theorem unit_code {unit : UInt16} (ascii : unit.toNat < 128) :
    (Char.ofNat unit.toNat).toNat = unit.toNat ∧
      UInt16.ofNat (Char.ofNat unit.toNat).toNat = unit := by
  have code : (Char.ofNat unit.toNat).toNat = unit.toNat := toNat_charOfNat (.inl (by omega))
  exact ⟨code, by rw [code, UInt16.ofNat_toNat]⟩

theorem rest_iff (rest : CodeUnits) :
    (rest.all fun unit => isNameUnit unit || isDigitUnit unit) = true ↔
      ∃ text, (∀ symbol ∈ text, Shell.isNameRest symbol) ∧ rest = textUnits text := by
  constructor
  · intro named
    induction rest with
    | nil => exact ⟨[], by simp, rfl⟩
    | cons unit rest ih =>
        rw [List.all_cons, Bool.and_eq_true] at named
        obtain ⟨text, names, rfl⟩ := ih named.2
        have ascii := (nameUnit_bounds named.1).2
        have code := unit_code ascii
        have cases := (code_cases unit.toNat ascii).2
        rw [UInt16.ofNat_toNat] at cases
        refine ⟨Char.ofNat unit.toNat :: text, ?_, ?_⟩
        · intro symbol inside
          rcases List.mem_cons.mp inside with rfl | inside
          · exact cases.mp named.1
          · exact names symbol inside
        · rw [textUnits_ascii (by omega), code.2]
  · rintro ⟨text, names, rfl⟩
    induction text with
    | nil => rfl
    | cons symbol text ih =>
        have ascii := nameRest_ascii (names symbol List.mem_cons_self)
        have cases := (code_cases symbol.toNat ascii).2
        rw [Char.ofNat_toNat] at cases
        rw [textUnits_ascii ascii, List.all_cons, Bool.and_eq_true]
        exact ⟨cases.mpr (names symbol List.mem_cons_self),
          ih fun other inside => names other (List.mem_cons_of_mem _ inside)⟩

/-- The segments of the portable host are the names of the shell. -/
theorem isSegment_iff (segment : CodeUnits) :
    isSegment segment = true ↔ ∃ name, Shell.IsName name ∧ segment = textUnits name := by
  constructor
  · intro named
    cases segment with
    | nil => cases named
    | cons unit rest =>
        rw [isSegment, Bool.and_eq_true, rest_iff] at named
        obtain ⟨start, text, names, rfl⟩ := named
        have ascii := (nameUnit_bounds (by rw [start]; rfl)).2
        have code := unit_code ascii
        have cases := (code_cases unit.toNat ascii).1
        rw [UInt16.ofNat_toNat] at cases
        refine ⟨_, ⟨Char.ofNat unit.toNat, text, rfl, cases.mp start, names⟩, ?_⟩
        rw [textUnits_ascii (by omega), code.2]
  · rintro ⟨name, ⟨first, rest, rfl, start, continues⟩, rfl⟩
    have ascii := nameRest_ascii (nameFirst_rest start)
    have cases := (code_cases first.toNat ascii).1
    rw [Char.ofNat_toNat] at cases
    rw [textUnits_ascii ascii, isSegment, Bool.and_eq_true, rest_iff]
    exact ⟨cases.mpr start, rest, continues, rfl⟩

/-- The units of a segment stand above the dot. -/
theorem segment_above {segment : CodeUnits} (named : isSegment segment = true) :
    ∀ unit ∈ segment, dot.toNat < unit.toNat := by
  cases segment with
  | nil => cases named
  | cons first rest =>
      rw [isSegment, Bool.and_eq_true, List.all_eq_true] at named
      intro unit inside
      change 46 < unit.toNat
      rcases List.mem_cons.mp inside with rfl | inside
      · have start : (isNameUnit unit || isDigitUnit unit) = true := by
          rw [named.1]
          rfl
        have bounds := nameUnit_bounds start
        omega
      · have bounds := nameUnit_bounds (named.2 unit inside)
        omega

theorem dot_not_mem {segment : CodeUnits} (named : isSegment segment = true) : dot ∉ segment :=
  fun inside => Nat.lt_irrefl _ (segment_above named dot inside)

end Segments

section Names
variable {name outer inner : CodeUnits}

theorem textUnits_intercalate (segments : List Text) :
    textUnits (['.'].intercalate segments) = [dot].intercalate (segments.map textUnits) := by
  induction segments with
  | nil => rfl
  | cons first segments ih =>
      cases segments with
      | nil => simp
      | cons second segments =>
          rw [List.map_cons, List.map_cons, List.intercalate_cons_cons, List.intercalate_cons_cons,
            textUnits_append, textUnits_append, ih]
          rfl

theorem reserved_iff (root : Text) :
    reservedGlobals.contains (textUnits root) = true ↔ root ∈ reservedJsGlobals := by
  have same : reservedGlobals = reservedJsGlobals.map textUnits := by
    decide
  rw [List.contains_iff_mem, same, List.mem_map]
  constructor
  · rintro ⟨other, inside, equal⟩
    exact textUnits_injective equal ▸ inside
  · exact fun inside => ⟨root, inside, rfl⟩

/-- The check of one name accepts the names of the native host. -/
theorem checkGlobal_iff {isFunction : CodeUnits → Bool} (function : isFunction name = true) :
    checkGlobal isFunction name = .ok () ↔ ∃ text, GlobalName text ∧ name = textUnits text := by
  unfold checkGlobal
  dsimp only
  rw [if_neg (by rw [function]; decide)]
  constructor
  · intro checked
    split_ifs at checked with broken taken
    rw [Bool.not_eq_true, List.any_eq_false] at broken
    have named : ∀ part ∈ Js.Guest.pathParts name, ∃ text, Shell.IsName text ∧ part = textUnits text :=
      fun part inside => (isSegment_iff part).mp (by simpa using broken part inside)
    have texts : Js.Guest.pathParts name = ((Js.Guest.pathParts name).map unitsText).map textUnits := by
      rw [List.map_map]
      refine (List.map_id _).symm.trans (List.map_congr_left fun part inside => ?_)
      obtain ⟨text, -, rfl⟩ := named part inside
      exact congrArg textUnits (unitsText_textUnits text).symm
    obtain ⟨root, parts, split⟩ := List.exists_cons_of_ne_nil (List.splitOn_ne_nil dot name)
    change Js.Guest.pathParts name = root :: parts at split
    refine ⟨['.'].intercalate ((Js.Guest.pathParts name).map unitsText),
      ⟨unitsText root, parts.map unitsText, by rw [split]; rfl, ?_, ?_⟩, ?_⟩
    · intro segment inside
      rw [← List.map_cons, ← split] at inside
      obtain ⟨part, listed, rfl⟩ := List.mem_map.mp inside
      obtain ⟨text, valid, rfl⟩ := named part listed
      rw [unitsText_textUnits]
      exact valid
    · obtain ⟨text, -, same⟩ := named root (by rw [split]; exact List.mem_cons_self)
      rw [split, List.headD_cons, same, reserved_iff] at taken
      rw [same, unitsText_textUnits]
      exact taken
    · rw [textUnits_intercalate, ← texts]
      exact (List.intercalate_splitOn dot).symm
  · rintro ⟨_, ⟨root, segments, rfl, valid, free⟩, rfl⟩
    have segment : ∀ part ∈ (root :: segments).map textUnits, isSegment part = true := by
      intro part inside
      obtain ⟨text, listed, rfl⟩ := List.mem_map.mp inside
      exact (isSegment_iff _).mpr ⟨text, valid text listed, rfl⟩
    have split : Js.Guest.pathParts (textUnits (['.'].intercalate (root :: segments))) =
        (root :: segments).map textUnits := by
      rw [textUnits_intercalate]
      exact List.splitOn_intercalate dot (fun part inside => dot_not_mem (segment part inside))
        (List.cons_ne_nil _ _)
    rw [split, if_neg, if_neg]
    · rw [List.map_cons, List.headD_cons, reserved_iff]
      exact free
    · rw [Bool.not_eq_true, List.any_eq_false]
      intro part inside
      rw [segment part inside]
      decide

/-- The dot is the first of the units of a name. -/
theorem name_above {text : Text} (named : GlobalName text) :
    ∀ unit ∈ textUnits text, dot ≤ unit := by
  obtain ⟨root, segments, rfl, valid, -⟩ := named
  rw [textUnits_intercalate]
  intro unit inside
  rcases Library.mem_intercalate inside with inside | ⟨part, listed, here⟩
  · rw [List.mem_singleton.mp inside]
    exact UInt16.le_refl dot
  · obtain ⟨segment, member, rfl⟩ := List.mem_map.mp listed
    have named := (isSegment_iff _).mpr ⟨segment, valid segment member, rfl⟩
    exact UInt16.le_iff_toNat_le.mpr (segment_above named unit here).le

/-- A name inside another one has the parts of the other one before its own. -/
theorem nested_iff :
    (∃ rest, inner = outer ++ dot :: rest) ↔
      ∃ more, more ≠ [] ∧ Js.Guest.pathParts inner = Js.Guest.pathParts outer ++ more := by
  constructor
  · rintro ⟨rest, rfl⟩
    exact ⟨Js.Guest.pathParts rest, List.splitOn_ne_nil _ _, List.splitOn_append_cons_self outer rest⟩
  · rintro ⟨more, filled, same⟩
    have join {first : List CodeUnits} (some : first ≠ []) :
        [dot].intercalate (first ++ more) =
          [dot].intercalate first ++ dot :: [dot].intercalate more := by
      induction first with
      | nil => exact absurd rfl some
      | cons part first ih =>
          cases first with
          | nil =>
              rw [List.singleton_append, List.intercalate_cons_of_ne_nil filled,
                List.intercalate_singleton]
              simp
          | cons next first =>
              rw [List.cons_append, List.cons_append, List.intercalate_cons_cons,
                List.intercalate_cons_cons, ← List.cons_append, ih (List.cons_ne_nil _ _)]
              simp
    refine ⟨[dot].intercalate more, ?_⟩
    have whole : [dot].intercalate (Js.Guest.pathParts inner) = inner := List.intercalate_splitOn dot
    have start : [dot].intercalate (Js.Guest.pathParts outer) = outer := List.intercalate_splitOn dot
    have filled' : Js.Guest.pathParts outer ≠ [] := List.splitOn_ne_nil _ _
    rw [← whole, same, join filled', start]

theorem nested_textUnits (outer inner : Text) :
    (∃ rest, textUnits inner = textUnits outer ++ dot :: rest) ↔ Nested outer inner := by
  constructor
  · rintro ⟨rest, same⟩
    have texts := congrArg unitsText same
    have plain : isSurrogate dot = false := rfl
    rw [unitsText_textUnits, unitsText_textUnits_append, unitsText_plain plain] at texts
    exact ⟨unitsText rest, texts⟩
  · rintro ⟨rest, rfl⟩
    exact ⟨textUnits rest, textUnits_append _ _⟩

end Names

section Order

theorem le_cons_iff {left right : UInt16} {first second : CodeUnits} :
    left :: first ≤ right :: second ↔ left < right ∨ left = right ∧ first ≤ second :=
  List.cons_le_cons_iff

/-- No name stands between a name and the names inside it, except for such names. -/
theorem between_nested {lower middle rest : CodeUnits} (above : ∀ unit ∈ middle, dot ≤ unit)
    (first : lower ≤ middle) (second : middle ≤ lower ++ dot :: rest) (other : lower ≠ middle) :
    ∃ tail, middle = lower ++ dot :: tail := by
  induction lower generalizing middle with
  | nil =>
      cases middle with
      | nil => exact absurd rfl other
      | cons unit tail =>
          rw [List.nil_append, le_cons_iff] at second
          rcases second with below | ⟨rfl, -⟩
          · exact absurd (above unit List.mem_cons_self) (UInt16.not_le.mpr below)
          · exact ⟨tail, rfl⟩
  | cons unit lower ih =>
      cases middle with
      | nil => exact absurd first (by simp)
      | cons next middle =>
          rw [List.cons_append, le_cons_iff] at second
          rw [le_cons_iff] at first
          have same : unit = next := by
            rcases first with below | ⟨same, -⟩
            · rcases second with after | ⟨same, -⟩
              · exact absurd (UInt16.lt_trans below after) (UInt16.lt_irrefl unit)
              · exact same.symm
            · exact same
          subst same
          have first' : lower ≤ middle := by
            rcases first with below | ⟨-, before⟩
            · exact absurd below (UInt16.lt_irrefl unit)
            · exact before
          have second' : middle ≤ lower ++ dot :: rest := by
            rcases second with below | ⟨-, before⟩
            · exact absurd below (UInt16.lt_irrefl unit)
            · exact before
          obtain ⟨tail, rfl⟩ := ih (fun other inside => above other (List.mem_cons_of_mem _ inside))
            first' second' (fun same => other (by rw [same]))
          exact ⟨tail, rfl⟩

/-- In a sorted list of names it is enough to compare neighbours. -/
theorem checkNeighbours_iff {names : List CodeUnits}
    (sorted : names.Pairwise fun left right => left ≤ right) (distinct : names.Nodup)
    (above : ∀ name ∈ names, ∀ unit ∈ name, dot ≤ unit) :
    checkNeighbours names = .ok () ↔
      ∀ outer ∈ names, ∀ inner ∈ names, ¬ ∃ rest, inner = outer ++ dot :: rest := by
  have irreflexive (name : CodeUnits) : ¬ ∃ rest, name = name ++ dot :: rest := by
    rintro ⟨rest, same⟩
    have lengths := congrArg List.length same
    rw [List.length_append, List.length_cons] at lengths
    omega
  have starts (previous current : CodeUnits) :
      (previous ++ [dot]).isPrefixOf current = true ↔ ∃ rest, current = previous ++ dot ::
        rest := by
    rw [List.isPrefixOf_iff_prefix]
    constructor
    · rintro ⟨rest, rfl⟩
      exact ⟨rest, by simp⟩
    · rintro ⟨rest, rfl⟩
      exact ⟨rest, by simp⟩
  induction names with
  | nil => exact iff_of_true rfl fun _ inside => absurd inside List.not_mem_nil
  | cons previous names ih =>
      cases names with
      | nil =>
          refine iff_of_true rfl fun outer left inner right => ?_
          rw [List.mem_singleton.mp left, List.mem_singleton.mp right]
          exact irreflexive previous
      | cons current rest =>
          have behind := ih (List.pairwise_cons.mp sorted).2 (List.nodup_cons.mp distinct).2
            fun name inside => above name (List.mem_cons_of_mem _ inside)
          rw [checkNeighbours]
          constructor
          · intro checked
            split_ifs at checked with nested
            have apart := behind.mp checked
            intro outer left inner right inside
            obtain ⟨before, others⟩ := List.pairwise_cons.mp sorted
            rcases List.mem_cons.mp left with rfl | later
            · rcases List.mem_cons.mp right with rfl | right
              · exact irreflexive _ inside
              · -- The neighbour of the outer name is the inner name or stands before it.
                obtain ⟨tail, rfl⟩ := inside
                have second : current ≤ outer ++ dot :: tail := by
                  rcases List.mem_cons.mp right with same | right
                  · rw [same]
                    exact List.le_refl _
                  · exact (List.pairwise_cons.mp others).1 _ right
                have different : outer ≠ current := by
                  rintro rfl
                  exact (List.nodup_cons.mp distinct).1 List.mem_cons_self
                exact nested ((starts outer current).mpr (between_nested
                  (above current (List.mem_cons_of_mem _ List.mem_cons_self))
                  (before current List.mem_cons_self) second different))
            · rcases List.mem_cons.mp right with rfl | right
              · obtain ⟨tail, rfl⟩ := inside
                have after := before outer later
                have prefixed : outer ≤ outer ++ dot :: tail := List.le_append_left
                have same := List.le_antisymm prefixed after
                exact irreflexive outer ⟨tail, same⟩
              · exact apart outer later inner right inside
          · intro apart
            rw [if_neg]
            · exact behind.mpr fun outer left inner right =>
                apart outer (List.mem_cons_of_mem _ left) inner (List.mem_cons_of_mem _ right)
            · rw [starts]
              exact apart previous List.mem_cons_self current
                (List.mem_cons_of_mem _ List.mem_cons_self)

end Order

section Validation
variable {names sorted : List CodeUnits} {isFunction : CodeUnits → Bool}

theorem forM_ok_iff {check : CodeUnits → Except GlobalsError Unit} :
    names.forM check = .ok () ↔ ∀ name ∈ names, check name = .ok () := by
  induction names with
  | nil => exact iff_of_true rfl fun _ inside => absurd inside List.not_mem_nil
  | cons name names ih =>
      change (check name >>= fun _ => names.forM check) = .ok () ↔ _
      rw [Call.bind_eq_ok_iff]
      simp only [List.mem_cons, forall_eq_or_imp, ← ih]
      constructor
      · rintro ⟨_, first, rest⟩
        exact ⟨first, rest⟩
      · rintro ⟨first, rest⟩
        exact ⟨(), first, rest⟩

theorem sorted_names (names : List CodeUnits) :
    (names.mergeSort fun left right => left ≤ right).Pairwise fun left right => left ≤ right := by
  refine (List.pairwise_mergeSort ?_ ?_ names).imp fun before => of_decide_eq_true before
  · intro first second third
    simp only [decide_eq_true_eq]
    exact List.le_trans
  · intro first second
    simp only [Bool.or_eq_true, decide_eq_true_eq]
    exact List.le_total _ _

/-- The keys are accepted when each is a name and none is inside another. -/
theorem validateGlobals_ok_iff (distinct : names.Nodup)
    (functions : ∀ name ∈ names, isFunction name = true) :
    validateGlobals isFunction names = .ok sorted ↔
      sorted = (names.mergeSort fun left right => left ≤ right) ∧
      (∀ name ∈ names, ∃ text, GlobalName text ∧ name = textUnits text) ∧
      ∀ outer ∈ names, ∀ inner ∈ names, ¬ ∃ rest, inner = outer ++ dot :: rest := by
  have members (name : CodeUnits) :
      name ∈ (names.mergeSort fun left right => left ≤ right) ↔ name ∈ names :=
    (List.mergeSort_perm names _).mem_iff
  have unique : (names.mergeSort fun left right => left ≤ right).Nodup :=
    (List.mergeSort_perm names _).nodup_iff.mpr distinct
  have order := sorted_names names
  have valid : (names.mergeSort fun left right => left ≤ right).forM (checkGlobal isFunction) =
      .ok () ↔ ∀ name ∈ names, ∃ text, GlobalName text ∧ name = textUnits text := by
    rw [forM_ok_iff]
    constructor
    · intro checked name inside
      exact (checkGlobal_iff (functions name inside)).mp (checked name ((members name).mpr inside))
    · intro named name inside
      have inside' := (members name).mp inside
      exact (checkGlobal_iff (functions name inside')).mpr (named name inside')
  unfold validateGlobals
  dsimp only
  rw [Call.bind_eq_ok_iff]
  constructor
  · rintro ⟨_, named, rest⟩
    have texts := valid.mp named
    obtain ⟨_, apart, done⟩ := Call.bind_eq_ok_iff.mp rest
    rw [checkNeighbours_iff order unique fun name inside => by
      obtain ⟨text, global, rfl⟩ := texts name ((members name).mp inside)
      exact name_above global] at apart
    refine ⟨(Except.ok.inj done).symm, texts, fun outer left inner right => ?_⟩
    exact apart outer ((members outer).mpr left) inner ((members inner).mpr right)
  · rintro ⟨rfl, texts, apart⟩
    refine ⟨(), valid.mpr texts, Call.bind_eq_ok_iff.mpr ⟨(), ?_, rfl⟩⟩
    rw [checkNeighbours_iff order unique fun name inside => by
      obtain ⟨text, global, rfl⟩ := texts name ((members name).mp inside)
      exact name_above global]
    exact fun outer left inner right =>
      apart outer ((members outer).mp left) inner ((members inner).mp right)

/-- Names are the units of texts. -/
theorem exists_texts (named : ∀ name ∈ names, ∃ text, GlobalName text ∧ name = textUnits text) :
    ∃ texts : List Text, names = texts.map textUnits ∧ ∀ text ∈ texts, GlobalName text := by
  induction names with
  | nil => exact ⟨[], rfl, fun _ inside => absurd inside List.not_mem_nil⟩
  | cons name names ih =>
      obtain ⟨text, valid, rfl⟩ := named name List.mem_cons_self
      obtain ⟨texts, rfl, all⟩ := ih fun other inside => named other (List.mem_cons_of_mem _ inside)
      refine ⟨text :: texts, rfl, fun other inside => ?_⟩
      rcases List.mem_cons.mp inside with rfl | inside
      · exact valid
      · exact all other inside

theorem accepted_iff (distinct : names.Nodup)
    (functions : ∀ name ∈ names, isFunction name = true) :
    (∃ sorted, validateGlobals isFunction names = .ok sorted) ↔
      ∃ texts : List Text, names = texts.map textUnits ∧ (∀ text ∈ texts, GlobalName text) ∧
        ∀ outer ∈ texts, ∀ inner ∈ texts, ¬ Nested outer inner := by
  constructor
  · rintro ⟨sorted, accepted⟩
    obtain ⟨-, named, apart⟩ := (validateGlobals_ok_iff distinct functions).mp accepted
    obtain ⟨texts, rfl, valid⟩ := exists_texts named
    refine ⟨texts, rfl, valid, fun outer left inner right nested => ?_⟩
    exact apart _ (List.mem_map_of_mem left) _ (List.mem_map_of_mem right)
      ((nested_textUnits outer inner).mpr nested)
  · rintro ⟨texts, rfl, valid, apart⟩
    refine ⟨_, (validateGlobals_ok_iff distinct functions).mpr ⟨rfl, ?_, ?_⟩⟩
    · intro name inside
      obtain ⟨text, listed, rfl⟩ := List.mem_map.mp inside
      exact ⟨text, valid text listed, rfl⟩
    · intro outer left inner right nested
      obtain ⟨first, listed, rfl⟩ := List.mem_map.mp left
      obtain ⟨second, listed', rfl⟩ := List.mem_map.mp right
      exact apart first listed second listed' ((nested_textUnits first second).mp nested)

/-- The native host accepts the texts of the same names. -/
theorem merged_iff (texts : List Text) (distinct : (texts.map textUnits).Nodup) :
    (∃ merged, mergeJsGlobals (∅ : JsGlobalRegistry Unit) (texts.map fun text => (text, ())) =
        .ok merged) ↔
      (∀ text ∈ texts, GlobalName text) ∧
        ∀ outer ∈ texts, ∀ inner ∈ texts, ¬ Nested outer inner := by
  have names : (texts.map fun text => (text, ())).map Prod.fst = texts := by
    rw [List.map_map]
    exact List.map_id texts
  rw [mergeJsGlobals_ok_iff, names]
  constructor
  · exact fun accepted => ⟨accepted.valid, accepted.apart⟩
  · rintro ⟨valid, apart⟩
    exact ⟨valid, List.Nodup.of_map _ distinct, apart,
      fun _ _ other stored => absurd (OrderedMap.get_empty other) stored⟩

/-- Both hosts accept the same names, and the accepted names can be installed. -/
theorem validateGlobals_installs (distinct : names.Nodup)
    (functions : ∀ name ∈ names, isFunction name = true) :
    ((∃ sorted, validateGlobals isFunction names = .ok sorted) ↔
      ∃ texts : List Text, names = texts.map textUnits ∧ (∀ text ∈ texts, GlobalName text) ∧
        ∀ outer ∈ texts, ∀ inner ∈ texts, ¬ Nested outer inner) ∧
    ((∃ sorted, validateGlobals isFunction names = .ok sorted) ↔
      ∃ texts : List Text, names = texts.map textUnits ∧ ∃ merged,
        mergeJsGlobals (∅ : JsGlobalRegistry Unit) (texts.map fun text => (text, ())) =
          .ok merged) ∧
    ∀ sorted, validateGlobals isFunction names = .ok sorted →
      ∀ (γ : Type) (globals : CodeUnits → Option γ),
        (∀ name ∈ names, globals ((Js.Guest.pathParts name).headD []) = none) →
        ∃ state, installGlobals sorted (Heap.new globals) = .ok state ∧
          (∀ path ∈ names, state.heap.resolve 0 (Js.Guest.pathParts path) = some (.host path)) ∧
          (∀ path segments, state.heap.resolve 0 segments = some (.host path) →
            path ∈ names ∧ segments = Js.Guest.pathParts path) ∧
          ∀ name value, globals name = some value →
            state.heap.resolve 0 [name] = some (.existing value) := by
  have accepted := accepted_iff distinct functions
  refine ⟨accepted, ?_, ?_⟩
  · rw [accepted]
    constructor
    · rintro ⟨texts, rfl, fits⟩
      exact ⟨texts, rfl, (merged_iff texts distinct).mpr fits⟩
    · rintro ⟨texts, rfl, merged⟩
      exact ⟨texts, rfl, (merged_iff texts distinct).mp merged⟩
  · intro sorted checked γ globals free
    obtain ⟨rfl, -, apart⟩ := (validateGlobals_ok_iff distinct functions).mp checked
    have members (name : CodeUnits) :
        name ∈ (names.mergeSort fun left right => left ≤ right) ↔ name ∈ names :=
      (List.mergeSort_perm names _).mem_iff
    have unique : (names.mergeSort fun left right => left ≤ right).Nodup :=
      (List.mergeSort_perm names _).nodup_iff.mpr distinct
    have separate {left right : CodeUnits} (first : left ∈ names) (second : right ∈ names)
        (different : left ≠ right) : ¬ Js.Guest.pathParts left <+: Js.Guest.pathParts right := by
      rintro ⟨more, same⟩
      by_cases empty : more = []
      · rw [empty, List.append_nil] at same
        have equal := congrArg [dot].intercalate same
        unfold Js.Guest.pathParts at equal
        rw [List.intercalate_splitOn, List.intercalate_splitOn] at equal
        exact different equal
      · exact apart left first right second (nested_iff.mpr ⟨more, empty, same.symm⟩)
    have pairs : (names.mergeSort fun left right => left ≤ right).Pairwise fun left right =>
        ¬ Js.Guest.pathParts left <+: Js.Guest.pathParts right ∧ ¬ Js.Guest.pathParts right <+: Js.Guest.pathParts left := by
      refine unique.imp_of_mem fun {left right} first second different => ?_
      have first' := (members left).mp first
      have second' := (members right).mp second
      exact ⟨separate first' second' different, separate second' first' (Ne.symm different)⟩
    obtain ⟨state, ran, leads, only, kept⟩ := installGlobals_ok globals pairs
      fun path inside root rest same => by
        have missing := free path ((members path).mp inside)
        rwa [same] at missing
    exact ⟨state, ran, fun path inside => leads path ((members path).mpr inside),
      fun path segments found => ⟨(members path).mp (only path segments found).1,
        (only path segments found).2⟩, kept⟩

/-- A namespace can stand beside names that share its first letters. -/
theorem validateGlobals_installs_tools :
    ∃ sorted state,
      validateGlobals (fun _ => true) [units "a_b", units "a.b", units "a0"] = .ok sorted ∧
        installGlobals sorted (Heap.new fun _ : CodeUnits => (none : Option Unit)) = .ok state ∧
        state.heap.resolve 0 [units "a", units "b"] = some (.host (units "a.b")) := by
  obtain ⟨-, accepted, installs⟩ := @validateGlobals_installs
    [units "a_b", units "a.b", units "a0"] (fun _ => true) (by decide) (fun _ _ => rfl)
  obtain ⟨sorted, checked⟩ := accepted.mpr
    ⟨["a_b".toList, "a.b".toList, "a0".toList], rfl, _, rfl⟩
  obtain ⟨state, ran, leads, -⟩ := installs sorted checked Unit (fun _ => none) fun _ _ => rfl
  exact ⟨sorted, state, checked, ran, leads (units "a.b") (by decide)⟩

end Validation

end TinySandbox.Portable
