/-
This file gives finite maps as key-sorted entry lists.
The raw functions work on any entry list, so that a recursive type can store one.
-/

import Mathlib.Algebra.BigOperators.Finprod
import Mathlib.Algebra.BigOperators.Group.List.Basic
import Mathlib.Data.Set.Card
import Mathlib.Data.List.Lex
import Mathlib.Tactic

namespace TinySandbox.Library

universe u v w

namespace Entries

variable {κ : Type u} {ν : Type v} {M : Type w}

/-- The lookup returns the first value stored under the key. -/
def get [LinearOrder κ] (key : κ) : List (κ × ν) → Option ν
  | [] => none
  | entry :: rest => if entry.1 = key then some entry.2 else get key rest

/-- The insertion keeps the key order and replaces a value already stored. -/
def insert [LinearOrder κ] (key : κ) (value : ν) : List (κ × ν) → List (κ × ν)
  | [] => [(key, value)]
  | entry :: rest =>
      if key < entry.1 then (key, value) :: entry :: rest
      else if entry.1 = key then (key, value) :: rest
      else entry :: insert key value rest

/-- The removal drops every entry stored under the key. -/
def erase [LinearOrder κ] (key : κ) (entries : List (κ × ν)) : List (κ × ν) :=
  entries.filter fun entry => entry.1 ≠ key

/-- The keys of a sorted entry list increase strictly. -/
def Sorted [LT κ] (entries : List (κ × ν)) : Prop :=
  entries.Pairwise fun first second => first.1 < second.1

/-- This sum adds one weight per entry. -/
def total [AddCommMonoid M] (weight : κ × ν → M) (entries : List (κ × ν)) : M :=
  (entries.map weight).sum

/-- A total of multisets has the elements of its parts. -/
theorem mem_total {α : Type*} {weight : κ × ν → Multiset α} {element : α}
    {entries : List (κ × ν)} :
    element ∈ total weight entries ↔ ∃ entry ∈ entries, element ∈ weight entry := by
  induction entries with
  | nil => simp [total]
  | cons entry rest ih =>
      rw [total, List.map_cons, List.sum_cons, Multiset.mem_add, List.exists_mem_cons_iff]
      exact or_congr_right ih

section Lookup
variable [LinearOrder κ]

@[simp] theorem get_nil (key : κ) : get key ([] : List (κ × ν)) = none := rfl

theorem get_cons (key : κ) (entry : κ × ν) (rest : List (κ × ν)) :
    get key (entry :: rest) = if entry.1 = key then some entry.2 else get key rest := rfl

theorem mem_of_get {key : κ} {value : ν} {entries : List (κ × ν)}
    (found : get key entries = some value) : (key, value) ∈ entries := by
  induction entries with
  | nil => simp at found
  | cons entry rest ih =>
      rw [get_cons] at found
      split at found
      · rename_i same
        obtain rfl := Option.some.inj found
        subst same
        exact List.mem_cons_self
      · exact List.mem_cons_of_mem _ (ih found)

theorem get_eq_none_iff {key : κ} {entries : List (κ × ν)} :
    get key entries = none ↔ ∀ entry ∈ entries, entry.1 ≠ key := by
  induction entries with
  | nil => simp
  | cons entry rest ih =>
      rw [get_cons]
      split
      · rename_i same
        simp [same]
      · rename_i different
        simp [ih, different]

theorem get_erase (key other : κ) (entries : List (κ × ν)) :
    get other (erase key entries) = if other = key then none else get other entries := by
  induction entries with
  | nil => simp [erase]
  | cons entry rest ih =>
      by_cases dropped : entry.1 = key
      · have skipped : erase key (entry :: rest) = erase key rest := by
          simp [erase, dropped]
        rw [skipped, ih, get_cons]
        by_cases same : other = key
        · simp [same]
        · simp [same, dropped, Ne.symm same]
      · have kept : erase key (entry :: rest) = entry :: erase key rest := by
          simp [erase, dropped]
        rw [kept, get_cons, get_cons, ih]
        by_cases same : other = key
        · simp [same, dropped]
        · simp [same]

end Lookup

section Order
variable [LinearOrder κ]

theorem get_of_mem {key : κ} {value : ν} {entries : List (κ × ν)}
    (sorted : Sorted entries) (member : (key, value) ∈ entries) :
    get key entries = some value := by
  induction entries with
  | nil => simp at member
  | cons entry rest ih =>
      obtain ⟨above, tail⟩ := List.pairwise_cons.mp sorted
      rcases List.mem_cons.mp member with rfl | later
      · simp [get_cons]
      · have different : entry.1 ≠ key := ne_of_lt (above _ later)
        rw [get_cons, if_neg different]
        exact ih tail later

theorem get_insert (key other : κ) (value : ν) (entries : List (κ × ν)) :
    get other (insert key value entries) =
      if other = key then some value else get other entries := by
  induction entries with
  | nil =>
      by_cases same : other = key
      · simp [insert, get_cons, same]
      · simp [insert, get_cons, same, Ne.symm same]
  | cons entry rest ih =>
      rw [insert]
      by_cases same : other = key
      · subst same
        rw [if_pos rfl] at ih ⊢
        split_ifs with less equal
        · simp [get_cons]
        · simp [get_cons]
        · rw [get_cons, if_neg equal, ih]
      · rw [if_neg same] at ih ⊢
        split_ifs with less equal
        · simp [get_cons, Ne.symm same]
        · simp [get_cons, equal, Ne.symm same]
        · rw [get_cons, get_cons, ih]

theorem mem_insert {key : κ} {value : ν} {entry : κ × ν} {entries : List (κ × ν)}
    (member : entry ∈ insert key value entries) :
    entry = (key, value) ∨ entry ∈ entries := by
  induction entries with
  | nil => simpa [insert] using member
  | cons first rest ih =>
      rw [insert] at member
      split_ifs at member with less equal
      · simpa using member
      · rcases List.mem_cons.mp member with same | later
        · exact .inl same
        · exact .inr (List.mem_cons_of_mem _ later)
      · rcases List.mem_cons.mp member with same | later
        · exact .inr (same ▸ List.mem_cons_self)
        · rcases ih later with same | old
          · exact .inl same
          · exact .inr (List.mem_cons_of_mem _ old)

theorem Sorted.insert {entries : List (κ × ν)} (sorted : Sorted entries)
    (key : κ) (value : ν) : Sorted (insert key value entries) := by
  induction entries with
  | nil => simp [Entries.insert, Sorted]
  | cons entry rest ih =>
      obtain ⟨above, tail⟩ := List.pairwise_cons.mp sorted
      rw [Entries.insert]
      split_ifs with less equal
      · refine List.pairwise_cons.mpr ⟨?_, sorted⟩
        intro later member
        rcases List.mem_cons.mp member with rfl | later
        · exact less
        · exact less.trans (above _ later)
      · exact List.pairwise_cons.mpr ⟨fun later member => equal ▸ above later member, tail⟩
      · refine List.pairwise_cons.mpr ⟨?_, ih tail⟩
        intro later member
        rcases mem_insert member with rfl | old
        · exact lt_of_le_of_ne (not_lt.mp less) equal
        · exact above _ old

theorem Sorted.erase {entries : List (κ × ν)} (sorted : Sorted entries) (key : κ) :
    Sorted (erase key entries) :=
  List.Pairwise.filter _ sorted

/-- Two sorted entry lists with the same lookups are the same list. -/
theorem Sorted.ext {first second : List (κ × ν)} (left : Sorted first) (right : Sorted second)
    (same : ∀ key, get key first = get key second) : first = second := by
  have distinct {entries : List (κ × ν)} (sorted : Sorted entries) : entries.Nodup :=
    List.Pairwise.imp (fun less equal => absurd (equal ▸ less) (lt_irrefl _)) sorted
  have members (entry : κ × ν) : entry ∈ first ↔ entry ∈ second := by
    constructor
    · intro member
      exact mem_of_get ((same entry.1).symm.trans (get_of_mem left member))
    · intro member
      exact mem_of_get ((same entry.1).trans (get_of_mem right member))
  have permuted : first.Perm second :=
    (List.perm_ext_iff_of_nodup (distinct left) (distinct right)).mpr members
  exact permuted.eq_of_pairwise
    (fun _ _ _ _ less greater => absurd (less.trans greater) (lt_irrefl _)) left right

variable [AddCommMonoid M] (weight : κ × ν → M)

/-- An insertion trades the weight of the replaced entry for that of the new one. -/
theorem total_insert {entries : List (κ × ν)} (sorted : Sorted entries) (key : κ) (value : ν) :
    total weight (insert key value entries) +
        ((get key entries).map fun old => weight (key, old)).getD 0 =
      total weight entries + weight (key, value) := by
  induction entries with
  | nil => simp [insert, total]
  | cons entry rest ih =>
      obtain ⟨above, tail⟩ := List.pairwise_cons.mp sorted
      rw [insert]
      split_ifs with less equal
      · have absent : get key (entry :: rest) = none := by
          rw [get_eq_none_iff]
          intro other member
          rcases List.mem_cons.mp member with rfl | later
          · exact ne_of_gt less
          · exact ne_of_gt (less.trans (above _ later))
        simp only [absent, Option.map_none, Option.getD_none, add_zero, total, List.map_cons,
          List.sum_cons]
        rw [add_comm]
      · subst equal
        simp only [get_cons, if_true, Option.map_some, Option.getD_some, total, List.map_cons,
          List.sum_cons]
        rw [add_assoc, add_comm]
        exact congrArg (· + _) (add_comm _ _)
      · have step := ih tail
        simp only [total, List.map_cons, List.sum_cons, get_cons, if_neg equal] at step ⊢
        rw [add_assoc, step, add_assoc]

/-- A removal gives back the weight of the removed entry. -/
theorem total_erase {entries : List (κ × ν)} (sorted : Sorted entries) (key : κ) :
    total weight (erase key entries) +
        ((get key entries).map fun old => weight (key, old)).getD 0 =
      total weight entries := by
  induction entries with
  | nil => simp [erase, total]
  | cons entry rest ih =>
      obtain ⟨above, tail⟩ := List.pairwise_cons.mp sorted
      by_cases equal : entry.1 = key
      · subst equal
        have untouched : erase entry.1 rest = rest := by
          apply List.filter_eq_self.mpr
          intro other member
          simpa using ne_of_gt (above other member)
        have skipped : erase entry.1 (entry :: rest) = rest := by
          rw [← untouched]
          simp [erase]
        rw [skipped]
        simp only [get_cons, if_true, Option.map_some, Option.getD_some, total, List.map_cons,
          List.sum_cons]
        exact add_comm _ _
      · have kept : erase key (entry :: rest) = entry :: erase key rest := by
          simp [erase, equal]
        have step := ih tail
        rw [kept]
        simp only [total, List.map_cons, List.sum_cons, get_cons, if_neg equal] at step ⊢
        rw [add_assoc, step]

end Order

end Entries

/-- An ordered map is an entry list whose keys increase strictly. -/
structure OrderedMap (κ : Type u) (ν : Type v) [LinearOrder κ] where
  entries : List (κ × ν)
  sorted : Entries.Sorted entries

namespace OrderedMap

variable {κ : Type u} {ν : Type v} [LinearOrder κ]

instance [DecidableEq ν] : DecidableEq (OrderedMap κ ν) := fun first second =>
  decidable_of_iff (first.entries = second.entries) (by
    constructor
    · intro same
      cases first
      cases second
      simpa using same
    · exact congrArg entries)

def empty : OrderedMap κ ν := ⟨[], List.Pairwise.nil⟩

instance : EmptyCollection (OrderedMap κ ν) := ⟨empty⟩

def get (map : OrderedMap κ ν) (key : κ) : Option ν := Entries.get key map.entries

def insert (map : OrderedMap κ ν) (key : κ) (value : ν) : OrderedMap κ ν :=
  ⟨Entries.insert key value map.entries, map.sorted.insert key value⟩

def erase (map : OrderedMap κ ν) (key : κ) : OrderedMap κ ν :=
  ⟨Entries.erase key map.entries, map.sorted.erase key⟩

def size (map : OrderedMap κ ν) : Nat := map.entries.length

/-- This sum adds one weight per stored value. -/
def total (map : OrderedMap κ ν) (weight : ν → Nat) : Nat :=
  Entries.total (fun entry => weight entry.2) map.entries

@[simp] theorem get_empty (key : κ) : (∅ : OrderedMap κ ν).get key = none := rfl

@[simp] theorem get_insert (map : OrderedMap κ ν) (key other : κ) (value : ν) :
    (map.insert key value).get other = if other = key then some value else map.get other :=
  Entries.get_insert key other value map.entries

@[simp] theorem get_erase (map : OrderedMap κ ν) (key other : κ) :
    (map.erase key).get other = if other = key then none else map.get other :=
  Entries.get_erase key other map.entries

theorem mem_iff_get (map : OrderedMap κ ν) (key : κ) (value : ν) :
    (key, value) ∈ map.entries ↔ map.get key = some value :=
  ⟨Entries.get_of_mem map.sorted, Entries.mem_of_get⟩

/-- Maps with the same lookups are equal. -/
@[ext] theorem ext {first second : OrderedMap κ ν}
    (same : ∀ key, first.get key = second.get key) : first = second := by
  have equal := Entries.Sorted.ext first.sorted second.sorted same
  cases first
  cases second
  simpa using equal

theorem insert_insert (map : OrderedMap κ ν) (key : κ) (first second : ν) :
    (map.insert key first).insert key second = map.insert key second := by
  ext1 other
  by_cases same : other = key <;> simp [same]

theorem total_insert (map : OrderedMap κ ν) (weight : ν → Nat) (key : κ) (value : ν) :
    (map.insert key value).total weight + ((map.get key).map weight).getD 0 =
      map.total weight + weight value :=
  Entries.total_insert (fun entry => weight entry.2) map.sorted key value

theorem total_erase (map : OrderedMap κ ν) (weight : ν → Nat) (key : κ) :
    (map.erase key).total weight + ((map.get key).map weight).getD 0 = map.total weight :=
  Entries.total_erase (fun entry => weight entry.2) map.sorted key

theorem size_eq_total (map : OrderedMap κ ν) : map.size = map.total fun _ => 1 := by
  simp [size, total, Entries.total]

theorem size_insert (map : OrderedMap κ ν) (key : κ) (value : ν) :
    (map.insert key value).size + ((map.get key).map fun _ => 1).getD 0 = map.size + 1 := by
  rw [size_eq_total, size_eq_total]
  exact map.total_insert (fun _ => 1) key value

theorem size_erase (map : OrderedMap κ ν) (key : κ) :
    (map.erase key).size + ((map.get key).map fun _ => 1).getD 0 = map.size := by
  rw [size_eq_total, size_eq_total]
  exact map.total_erase (fun _ => 1) key

/-- One stored value weighs at most as much as the whole map. -/
theorem weight_le_total (map : OrderedMap κ ν) (weight : ν → Nat) {key : κ} {value : ν}
    (found : map.get key = some value) : weight value ≤ map.total weight := by
  have balance := map.total_erase weight key
  rw [found] at balance
  simp only [Option.map_some, Option.getD_some] at balance
  omega

/-- A key stores a value when an entry has it. -/
theorem keys_eq (map : OrderedMap κ ν) :
    {key | map.get key ≠ none} = ((map.entries.map Prod.fst).toFinset : Set κ) := by
  ext key
  simp only [Set.mem_ofPred_eq, List.coe_toFinset, List.mem_map]
  constructor
  · intro found
    obtain ⟨value, found⟩ := Option.ne_none_iff_exists'.mp found
    exact ⟨(key, value), (map.mem_iff_get key value).mpr found, rfl⟩
  · rintro ⟨⟨other, value⟩, member, rfl⟩
    simp [(map.mem_iff_get other value).mp member]

theorem keys_finite (map : OrderedMap κ ν) : {key | map.get key ≠ none}.Finite := by
  rw [keys_eq]
  exact Finset.finite_toSet _

/-- The size counts the keys that store a value. -/
theorem ncard_keys (map : OrderedMap κ ν) :
    {key | map.get key ≠ none}.ncard = map.size := by
  have distinct : (map.entries.map Prod.fst).Nodup :=
    List.pairwise_map.mpr (List.Pairwise.imp (fun less => ne_of_lt less) map.sorted)
  rw [keys_eq, Set.ncard_coe_finset, List.toFinset_card_of_nodup distinct, List.length_map,
    OrderedMap.size]

/-- A weight summed over the keys of a map is the total of the map. -/
theorem finsum_total (map : OrderedMap κ ν) (weight : ν → Nat) :
    ∑ᶠ key, ((map.get key).map weight).getD 0 = map.total weight := by
  obtain ⟨entries, sorted⟩ := map
  induction entries with
  | nil => simp [OrderedMap.get, OrderedMap.total, Entries.total]
  | cons entry rest ih =>
      obtain ⟨above, tail⟩ := List.pairwise_cons.mp sorted
      have step := ih tail
      have absent : Entries.get entry.1 rest = none := by
        rw [Entries.get_eq_none_iff]
        exact fun other member => ne_of_gt (above other member)
      have split (key : κ) : ((OrderedMap.get ⟨entry :: rest, sorted⟩ key).map weight).getD 0 =
          (if key = entry.1 then weight entry.2 else 0) +
            ((OrderedMap.get ⟨rest, tail⟩ key).map weight).getD 0 := by
        simp only [OrderedMap.get, Entries.get_cons]
        by_cases same : key = entry.1
        · subst same
          simp [absent]
        · simp [same, Ne.symm same]
      have single : (Function.support fun key : κ =>
          if key = entry.1 then weight entry.2 else 0).Finite :=
        (Set.finite_singleton entry.1).subset (by
          intro key nonzero
          by_contra different
          exact nonzero (if_neg different))
      have stored : (Function.support fun key : κ =>
          ((OrderedMap.get ⟨rest, tail⟩ key).map weight).getD 0).Finite := by
        refine (List.finite_toSet (rest.map Prod.fst)).subset ?_
        intro key nonzero
        cases found : Entries.get key rest with
        | none => simp [OrderedMap.get, found] at nonzero
        | some value => exact List.mem_map.mpr ⟨_, Entries.mem_of_get found, rfl⟩
      rw [finsum_congr split, finsum_add_distrib single stored, step]
      have head : ∑ᶠ key : κ, (if key = entry.1 then weight entry.2 else 0) = weight entry.2 := by
        rw [finsum_eq_single _ entry.1 (fun other different => if_neg different), if_pos rfl]
      rw [head]
      simp [OrderedMap.total, Entries.total]

/-- The total is positive exactly when some stored value has a positive weight. -/
theorem total_pos_iff (map : OrderedMap κ ν) (weight : ν → Nat) :
    0 < map.total weight ↔ ∃ key value, map.get key = some value ∧ 0 < weight value := by
  constructor
  · intro positive
    by_contra none
    push Not at none
    have zero : map.total weight = 0 := by
      apply List.sum_eq_zero
      intro value member
      obtain ⟨entry, stored, rfl⟩ := List.mem_map.mp member
      exact Nat.le_zero.mp (none entry.1 entry.2 ((map.mem_iff_get _ _).mp stored))
    omega
  · rintro ⟨key, value, found, positive⟩
    exact lt_of_lt_of_le positive (map.weight_le_total weight found)

/-- A total of weights at most one is at most the size. -/
theorem total_le_size (map : OrderedMap κ ν) {weight : ν → Nat} (small : ∀ value, weight value ≤ 1) :
    map.total weight ≤ map.size := by
  rw [size_eq_total]
  exact List.sum_le_sum fun entry _ => small entry.2

/-- A map whose keys lie below a bound has no more entries than the bound. -/
theorem size_le_of_keys_below {ν : Type v} (map : OrderedMap Nat ν) {bound : Nat}
    (below : ∀ key value, map.get key = some value → key < bound) : map.size ≤ bound := by
  rw [← map.ncard_keys]
  have inside : {key | map.get key ≠ none} ⊆ (Finset.range bound : Set Nat) := by
    intro key found
    obtain ⟨value, stored⟩ := Option.ne_none_iff_exists'.mp found
    simpa using below key value stored
  calc {key | map.get key ≠ none}.ncard
      ≤ (Finset.range bound : Set Nat).ncard := Set.ncard_le_ncard inside (Finset.finite_toSet _)
    _ = bound := by rw [Set.ncard_coe_finset, Finset.card_range]

/-- Distinct stored keys weigh at most as much as the whole map. -/
theorem sum_keys_le_total (map : OrderedMap κ ν) (weight : ν → Nat) {keys : List κ}
    (distinct : keys.Nodup) :
    (keys.map fun key => ((map.get key).map weight).getD 0).sum ≤ map.total weight := by
  induction keys generalizing map with
  | nil => simp
  | cons key rest ih =>
      obtain ⟨fresh, tail⟩ := List.nodup_cons.mp distinct
      have below := ih (map.erase key) tail
      have same : (rest.map fun other => (((map.erase key).get other).map weight).getD 0) =
          rest.map fun other => ((map.get other).map weight).getD 0 := by
        refine List.map_congr_left fun other member => ?_
        have different : other ≠ key := fun equal => fresh (equal ▸ member)
        rw [get_erase, if_neg different]
      have balance := map.total_erase weight key
      rw [same] at below
      simp only [List.map_cons, List.sum_cons]
      omega

/-- The stored keys weigh exactly as much as the whole map. -/
theorem sum_keys_eq_total (map : OrderedMap κ ν) (weight : ν → Nat) {keys : List κ}
    (distinct : keys.Nodup) (stored : ∀ key, map.get key ≠ none ↔ key ∈ keys) :
    (keys.map fun key => ((map.get key).map weight).getD 0).sum = map.total weight := by
  rw [← map.finsum_total weight, ← List.sum_toFinset _ distinct]
  rw [finsum_eq_sum_of_support_subset]
  intro key supported
  rw [List.coe_toFinset]
  refine (stored key).mp fun missing => supported ?_
  simp [missing]

end OrderedMap

end TinySandbox.Library
