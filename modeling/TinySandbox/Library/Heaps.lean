/-
This file gives a binary heap in a list. The places of an entry are swapped one level at a time.
-/

import Mathlib.Tactic

namespace TinySandbox.Library.Heap

universe u v

variable {α : Type u} (precedes : α → α → Bool)

/-- A swap of a place behind the end changes nothing. -/
def swap (heap : List α) (first second : Nat) : List α :=
  match heap[first]?, heap[second]? with
  | some left, some right => (heap.set first right).set second left
  | _, _ => heap

def before (heap : List α) (first second : Nat) : Bool :=
  match heap[first]?, heap[second]? with
  | some left, some right => precedes left right
  | _, _ => false

def parent (place : Nat) : Nat := (place - 1) / 2

theorem parent_lt {place : Nat} (inner : 0 < place) : parent place < place := by
  unfold parent
  omega

theorem length_swap (heap : List α) (first second : Nat) :
    (swap heap first second).length = heap.length := by
  unfold swap
  split
  · rw [List.length_set, List.length_set]
  · rfl

/-- An entry rises while it precedes its parent. -/
def siftUp (place : Nat) (heap : List α) : List α :=
  if 0 < place then
    if before precedes heap place (parent place) then
      siftUp (parent place) (swap heap place (parent place))
    else heap
  else heap
termination_by place
decreasing_by exact parent_lt (by assumption)

/-- A place gives way to another one whose entry precedes its own. -/
def earlier (heap : List α) (place other : Nat) : Nat :=
  if other < heap.length && before precedes heap other place then other else place

/-- The place of the first of an entry and its two children. -/
def least (heap : List α) (place : Nat) : Nat :=
  earlier precedes heap (earlier precedes heap place (2 * place + 1)) (2 * place + 2)

theorem earlier_cases (heap : List α) (place other : Nat) :
    earlier precedes heap place other = place ∨
      (earlier precedes heap place other = other ∧ other < heap.length) := by
  unfold earlier
  split
  · next takes => exact Or.inr ⟨rfl, of_decide_eq_true (Bool.and_eq_true_iff.mp takes).1⟩
  · exact Or.inl rfl

theorem parent_eq_iff {child place : Nat} (positive : 0 < child) :
    parent child = place ↔ child = 2 * place + 1 ∨ child = 2 * place + 2 := by
  unfold parent
  omega

theorem least_cases (heap : List α) (place : Nat) :
    least precedes heap place = place ∨
      (place < least precedes heap place ∧ least precedes heap place < heap.length ∧
        parent (least precedes heap place) = place) := by
  have left : parent (2 * place + 1) = place := by unfold parent; omega
  have right : parent (2 * place + 2) = place := by unfold parent; omega
  unfold least
  rcases earlier_cases precedes heap (earlier precedes heap place (2 * place + 1))
    (2 * place + 2) with first | ⟨second, inside⟩
  · rw [first]
    rcases earlier_cases precedes heap place (2 * place + 1) with same | ⟨moved, inside⟩
    · exact Or.inl same
    · rw [moved]
      exact Or.inr ⟨by omega, inside, left⟩
  · rw [second]
    exact Or.inr ⟨by omega, inside, right⟩

/-- An entry sinks while one of its children precedes it. -/
def siftDown (place : Nat) (heap : List α) : List α :=
  if least precedes heap place = place then heap
  else
    siftDown (least precedes heap place) (swap heap place (least precedes heap place))
termination_by heap.length - place
decreasing_by
  rw [length_swap]
  rcases least_cases precedes heap place with same | ⟨below, inside, -⟩
  · contradiction
  · omega

def push (entry : α) (heap : List α) : List α := siftUp precedes heap.length (heap ++ [entry])

/-- The last entry takes the place of the first one and sinks. -/
def pop (heap : List α) : List α :=
  match heap.getLast? with
  | none => []
  | some last =>
      if heap.dropLast = [] then [] else siftDown precedes 0 (heap.dropLast.set 0 last)

section Permutations

theorem swap_perm (heap : List α) (first second : Nat) : (swap heap first second).Perm heap := by
  unfold swap
  split
  · next left right foundLeft foundRight =>
      obtain ⟨inFirst, rfl⟩ := List.getElem?_eq_some_iff.mp foundLeft
      obtain ⟨inSecond, rfl⟩ := List.getElem?_eq_some_iff.mp foundRight
      exact List.set_set_perm inFirst inSecond
  · exact List.Perm.refl _

theorem siftUp_perm (place : Nat) (heap : List α) : (siftUp precedes place heap).Perm heap := by
  induction place, heap using siftUp.induct precedes with
  | case1 place heap inner rises ih =>
      rw [siftUp, if_pos inner, if_pos rises]
      exact ih.trans (swap_perm heap _ _)
  | case2 place heap inner stays =>
      rw [siftUp, if_pos inner, if_neg stays]
  | case3 place heap top =>
      rw [siftUp, if_neg top]

theorem siftDown_perm (place : Nat) (heap : List α) : (siftDown precedes place heap).Perm heap := by
  induction place, heap using siftDown.induct precedes with
  | case1 place heap stays => rw [siftDown, if_pos stays]
  | case2 place heap sinks ih =>
      rw [siftDown, if_neg sinks]
      exact ih.trans (swap_perm heap _ _)

theorem push_perm (entry : α) (heap : List α) : (push precedes entry heap).Perm (entry :: heap) :=
  (siftUp_perm precedes _ _).trans (List.perm_append_singleton entry heap)

/-- The first entry is gone, and the others are still there. -/
theorem pop_perm (first : α) (rest : List α) :
    (first :: pop precedes (first :: rest)).Perm (first :: rest) := by
  refine List.Perm.cons first ?_
  unfold pop
  rcases List.eq_nil_or_concat rest with rfl | ⟨inner, last, rfl⟩
  · exact List.Perm.refl _
  · have ends : (first :: (inner ++ [last])).getLast? = some last := by
      rw [← List.cons_append, List.getLast?_concat]
    simp only [List.concat_eq_append, ends]
    have cut : (first :: (inner ++ [last])).dropLast = first :: inner := by
      rw [← List.cons_append, List.dropLast_concat]
    rw [cut, if_neg (List.cons_ne_nil _ _)]
    refine (siftDown_perm precedes 0 _).trans ?_
    exact (List.perm_append_singleton last inner).symm

theorem pop_perm_rest (first : α) (rest : List α) : (pop precedes (first :: rest)).Perm rest :=
  (pop_perm precedes first rest).cons_inv

end Permutations

section Settling

/-- An entry at the root that need not be kept is taken out. -/
def settle (keep : α → Bool) (heap : List α) : List α :=
  match heap with
  | [] => []
  | first :: rest =>
      if keep first then first :: rest else settle keep (pop precedes (first :: rest))
termination_by heap.length
decreasing_by
  rw [(pop_perm_rest precedes first rest).length_eq]
  exact Nat.lt_succ_self rest.length

theorem settle_nil (keep : α → Bool) : settle precedes keep [] = [] := by
  rw [settle]

theorem settle_cons_of_keep {keep : α → Bool} {first : α} (rest : List α)
    (kept : keep first = true) : settle precedes keep (first :: rest) = first :: rest := by
  rw [settle, if_pos kept]

theorem settle_cons_of_not_keep {keep : α → Bool} {first : α} (rest : List α)
    (stale : ¬ keep first = true) :
    settle precedes keep (first :: rest) = settle precedes keep (pop precedes (first :: rest)) := by
  rw [settle, if_neg stale]

/-- A property that holds of the heap and that pops keep holds of the settled heap. -/
theorem settle_induction {keep : α → Bool} (holds : List α → Prop) {heap : List α}
    (now : holds heap)
    (pops : ∀ first rest, ¬ keep first = true → holds (first :: rest) →
      holds (pop precedes (first :: rest))) : holds (settle precedes keep heap) := by
  induction heap using settle.induct precedes keep with
  | case1 => rwa [settle_nil]
  | case2 first rest kept => rwa [settle_cons_of_keep precedes rest kept]
  | case3 first rest stale ih =>
      rw [settle_cons_of_not_keep precedes rest stale]
      exact ih (pops first rest stale now)

theorem keep_of_head_settle {keep : α → Bool} {heap : List α} {first : α}
    (head : (settle precedes keep heap).head? = some first) : keep first = true := by
  induction heap using settle.induct precedes keep with
  | case1 => simp [settle_nil] at head
  | case2 root rest kept =>
      rw [settle_cons_of_keep precedes rest kept] at head
      obtain rfl := Option.some.inj head
      exact kept
  | case3 root rest stale ih =>
      rw [settle_cons_of_not_keep precedes rest stale] at head
      exact ih head

theorem settle_subperm (keep : α → Bool) (heap : List α) :
    (settle precedes keep heap).Subperm heap := by
  refine settle_induction precedes (fun left => left.Subperm heap) (List.Subperm.refl heap) ?_
  intro first rest stale inside
  exact ((pop_perm_rest precedes first rest).subperm.trans
    (List.sublist_cons_self first rest).subperm).trans inside

theorem mem_settle {keep : α → Bool} {heap : List α} {entry : α} (stored : entry ∈ heap)
    (kept : keep entry = true) : entry ∈ settle precedes keep heap := by
  refine settle_induction precedes (fun left => entry ∈ left) stored ?_
  intro first rest stale inside
  rw [(pop_perm_rest precedes first rest).mem_iff]
  rcases List.mem_cons.mp inside with rfl | inside
  · exact absurd kept stale
  · exact inside

end Settling

section Swaps

theorem getElem?_swap {heap : List α} {first second : Nat} (inFirst : first < heap.length)
    (inSecond : second < heap.length) (place : Nat) :
    (swap heap first second)[place]? =
      if place = second then heap[first]? else if place = first then heap[second]?
      else heap[place]? := by
  have both : swap heap first second =
      (heap.set first (heap.get ⟨second, inSecond⟩)).set second (heap.get ⟨first, inFirst⟩) := by
    unfold swap
    rw [List.getElem?_eq_getElem inFirst, List.getElem?_eq_getElem inSecond]
    rfl
  rw [both]
  by_cases atSecond : place = second
  · subst atSecond
    rw [if_pos rfl, List.getElem?_set_self (by rwa [List.length_set]),
      List.getElem?_eq_getElem inFirst]
    rfl
  · rw [if_neg atSecond, List.getElem?_set_ne (Ne.symm atSecond)]
    by_cases atFirst : place = first
    · subst atFirst
      rw [if_pos rfl, List.getElem?_set_self inFirst, List.getElem?_eq_getElem inSecond]
      rfl
    · rw [if_neg atFirst, List.getElem?_set_ne (Ne.symm atFirst)]

theorem lt_length_of_before {heap : List α} {first second : Nat}
    (less : before precedes heap first second = true) :
    first < heap.length ∧ second < heap.length := by
  unfold before at less
  split at less
  · next left right foundLeft foundRight =>
      exact ⟨(List.getElem?_eq_some_iff.mp foundLeft).1,
        (List.getElem?_eq_some_iff.mp foundRight).1⟩
  · contradiction

end Swaps

section Order
variable {κ : Type v} [LinearOrder κ] {key : α → κ}

/-- The entry at one place has no larger key than the one at another place. -/
def Below (key : α → κ) (heap : List α) (upper lower : Nat) : Prop :=
  ∀ above under, heap[upper]? = some above → heap[lower]? = some under → key above ≤ key under

/-- No entry stands before its parent. -/
def Ordered (key : α → κ) (heap : List α) : Prop :=
  ∀ child, 0 < child → Below key heap (parent child) child

/-- Only one place may stand before its parent, and its children are below that parent. -/
structure Rising (key : α → κ) (heap : List α) (place : Nat) : Prop where
  others : ∀ child, 0 < child → child ≠ place → Below key heap (parent child) child
  grand : ∀ child, 0 < child → 0 < place → parent child = place →
    Below key heap (parent place) child

/-- Only one place may stand behind its children, and its parent is above them. -/
structure Sinking (key : α → κ) (heap : List α) (place : Nat) : Prop where
  others : ∀ child, 0 < child → parent child ≠ place → Below key heap (parent child) child
  grand : ∀ child, 0 < child → 0 < place → parent child = place →
    Below key heap (parent place) child

theorem Below.refl (heap : List α) (place : Nat) : Below key heap place place := by
  intro above under foundAbove foundUnder
  exact (congrArg key (Option.some.inj (foundAbove.symm.trans foundUnder))).le

theorem Below.trans {heap : List α} {upper middle lower : Nat} (inside : middle < heap.length)
    (first : Below key heap upper middle) (second : Below key heap middle lower) :
    Below key heap upper lower := by
  intro above under foundAbove foundUnder
  have found := List.getElem?_eq_getElem inside
  exact (first _ _ foundAbove found).trans (second _ _ found foundUnder)

/-- The places of a heap after a swap are compared through their places before it. -/
theorem Below.swapped {heap : List α} {first second : Nat} (inFirst : first < heap.length)
    (inSecond : second < heap.length) {upper lower : Nat}
    (old : Below key heap (Equiv.swap first second upper) (Equiv.swap first second lower)) :
    Below key (swap heap first second) upper lower := by
  have moved : ∀ place,
      (swap heap first second)[place]? = heap[Equiv.swap first second place]? := by
    intro place
    rw [getElem?_swap inFirst inSecond, Equiv.swap_apply_def]
    by_cases atFirst : place = first
    · subst atFirst
      by_cases same : place = second
      · simp [same]
      · simp [same]
    · by_cases atSecond : place = second
      · subst atSecond
        simp [atFirst]
      · simp [atFirst, atSecond]
  intro above under foundAbove foundUnder
  rw [moved] at foundAbove foundUnder
  exact old above under foundAbove foundUnder

/-- A sorted list is a heap. -/
theorem ordered_of_sorted {heap : List α}
    (sorted : heap.Pairwise fun first second => key first ≤ key second) : Ordered key heap := by
  intro child positive above under foundAbove foundUnder
  obtain ⟨inChild, rfl⟩ := List.getElem?_eq_some_iff.mp foundUnder
  obtain ⟨inParent, rfl⟩ := List.getElem?_eq_some_iff.mp foundAbove
  exact List.pairwise_iff_getElem.mp sorted _ _ inParent inChild (parent_lt positive)

/-- The first entry of a heap is one of its least. -/
theorem Ordered.first_le {first : α} {heap : List α} (ordered : Ordered key heap)
    (head : heap.head? = some first) {entry : α} (stored : entry ∈ heap) :
    key first ≤ key entry := by
  have above : ∀ place, Below key heap 0 place := by
    intro place
    induction place using Nat.strong_induction_on with
    | _ place ih =>
        rcases Nat.eq_zero_or_pos place with rfl | positive
        · exact Below.refl heap 0
        · intro upper under foundUpper foundUnder
          have inside := (parent_lt positive).trans (List.getElem?_eq_some_iff.mp foundUnder).1
          exact ((ih _ (parent_lt positive)).trans inside (ordered place positive)) upper under
            foundUpper foundUnder
  obtain ⟨place, found⟩ := List.getElem?_of_mem stored
  refine above place first entry ?_ found
  rwa [← List.head?_eq_getElem?]

section Sifting
variable (order : ∀ left right, precedes left right = true ↔ key left < key right)
include order

theorem Below.of_before {heap : List α} {first second : Nat}
    (less : before precedes heap first second = true) : Below key heap first second := by
  intro above under foundAbove foundUnder
  unfold before at less
  rw [foundAbove, foundUnder] at less
  exact ((order _ _).mp less).le

theorem Below.of_not_before {heap : List α} {first second : Nat}
    (notLess : ¬ before precedes heap first second = true) : Below key heap second first := by
  intro above under foundAbove foundUnder
  unfold before at notLess
  rw [foundAbove, foundUnder] at notLess
  exact not_lt.mp (fun less => notLess ((order _ _).mpr less))

theorem Rising.step {heap : List α} {place : Nat}
    (rising : Rising key heap place) (inner : 0 < place)
    (rises : before precedes heap place (parent place) = true) :
    Rising key (swap heap place (parent place)) (parent place) := by
  obtain ⟨inPlace, inParent⟩ := lt_length_of_before precedes rises
  have less := Below.of_before precedes order rises
  have strict := parent_lt inner
  constructor
  · intro child positive notParent
    apply Below.swapped inPlace inParent
    by_cases same : child = place
    · subst same
      rw [Equiv.swap_apply_right, Equiv.swap_apply_left]
      exact less
    · rw [Equiv.swap_apply_of_ne_of_ne same notParent]
      by_cases under : parent child = place
      · rw [under, Equiv.swap_apply_left]
        exact rising.grand child positive inner under
      · by_cases sibling : parent child = parent place
        · rw [sibling, Equiv.swap_apply_right]
          refine less.trans inParent ?_
          rw [← sibling]
          exact rising.others child positive same
        · rw [Equiv.swap_apply_of_ne_of_ne under sibling]
          exact rising.others child positive same
  · intro child positive deeper sibling
    apply Below.swapped inPlace inParent
    have upper : parent (parent place) ≠ place := by
      have := parent_lt deeper
      omega
    have upper' : parent (parent place) ≠ parent place := (parent_lt deeper).ne
    rw [Equiv.swap_apply_of_ne_of_ne upper upper']
    have above := rising.others (parent place) deeper strict.ne
    by_cases same : child = place
    · rw [same, Equiv.swap_apply_left]
      exact above
    · have notParent : child ≠ parent place := by
        have := parent_lt positive
        omega
      rw [Equiv.swap_apply_of_ne_of_ne same notParent]
      refine above.trans inParent ?_
      rw [← sibling]
      exact rising.others child positive same

theorem ordered_siftUp (place : Nat) (heap : List α) (rising : Rising key heap place) :
    Ordered key (siftUp precedes place heap) := by
  induction place, heap using siftUp.induct precedes with
  | case1 place heap inner rises ih =>
      rw [siftUp, if_pos inner, if_pos rises]
      exact ih (rising.step precedes order inner rises)
  | case2 place heap inner stays =>
      rw [siftUp, if_pos inner, if_neg stays]
      intro child positive
      by_cases same : child = place
      · rw [same]
        exact Below.of_not_before precedes order stays
      · exact rising.others child positive same
  | case3 place heap top =>
      rw [siftUp, if_neg top]
      intro child positive
      exact rising.others child positive (by omega)

theorem ordered_push (entry : α) {heap : List α} (ordered : Ordered key heap) :
    Ordered key (push precedes entry heap) := by
  refine ordered_siftUp precedes order _ _ ⟨?_, ?_⟩
  · intro child positive notLast above under foundAbove foundUnder
    have inside : child < heap.length := by
      have := (List.getElem?_eq_some_iff.mp foundUnder).1
      rw [List.length_append, List.length_singleton] at this
      omega
    rw [List.getElem?_append_left inside] at foundUnder
    rw [List.getElem?_append_left ((parent_lt positive).trans inside)] at foundAbove
    exact ordered child positive above under foundAbove foundUnder
  · intro child positive inner last above under foundAbove foundUnder
    have inside := (List.getElem?_eq_some_iff.mp foundUnder).1
    rw [List.length_append, List.length_singleton] at inside
    have := parent_lt positive
    omega

theorem below_earlier (heap : List α) (place other : Nat) :
    Below key heap (earlier precedes heap place other) place ∧
      Below key heap (earlier precedes heap place other) other := by
  unfold earlier
  split
  · next takes =>
      have less := (Bool.and_eq_true_iff.mp takes).2
      exact ⟨Below.of_before precedes order less, Below.refl heap other⟩
  · next keeps =>
      refine ⟨Below.refl heap place, ?_⟩
      intro above under foundAbove foundUnder
      have inside := (List.getElem?_eq_some_iff.mp foundUnder).1
      have notLess : ¬ before precedes heap other place = true := by
        intro less
        rw [less, Bool.and_true, decide_eq_true_eq] at keeps
        exact keeps inside
      exact Below.of_not_before precedes order notLess above under foundAbove foundUnder

/-- The chosen place is above the entry and above both of its children. -/
theorem below_least (heap : List α) {place : Nat} (inside : place < heap.length) :
    Below key heap (least precedes heap place) place ∧
      ∀ child, 0 < child → parent child = place →
        Below key heap (least precedes heap place) child := by
  obtain ⟨first, left⟩ := below_earlier precedes order heap place (2 * place + 1)
  obtain ⟨second, right⟩ := below_earlier precedes order heap
    (earlier precedes heap place (2 * place + 1)) (2 * place + 2)
  have middle : earlier precedes heap place (2 * place + 1) < heap.length := by
    rcases earlier_cases precedes heap place (2 * place + 1) with same | ⟨moved, within⟩
    · rwa [same]
    · rwa [moved]
  refine ⟨second.trans middle first, ?_⟩
  intro child positive under
  rcases (parent_eq_iff positive).mp under with rfl | rfl
  · exact second.trans middle left
  · exact right

theorem Sinking.step {heap : List α} {place : Nat}
    (sinking : Sinking key heap place) (sinks : least precedes heap place ≠ place) :
    Sinking key (swap heap place (least precedes heap place)) (least precedes heap place) := by
  obtain ⟨below, inLeast, child⟩ :=
    (least_cases precedes heap place).resolve_left sinks
  have inPlace := below.trans inLeast
  obtain ⟨less, least⟩ := below_least precedes order heap inPlace
  generalize chosen : TinySandbox.Library.Heap.least precedes heap place = lower at *
  constructor
  · intro other positive notUnder
    apply Below.swapped inPlace inLeast
    by_cases same : other = lower
    · rw [same, child, Equiv.swap_apply_left, Equiv.swap_apply_right]
      exact less
    · by_cases sibling : parent other = place
      · have notPlace : other ≠ place := by
          have := parent_lt positive
          omega
        rw [sibling, Equiv.swap_apply_left, Equiv.swap_apply_of_ne_of_ne notPlace same]
        exact least other positive sibling
      · rw [Equiv.swap_apply_of_ne_of_ne sibling notUnder]
        by_cases top : other = place
        · subst top
          rw [Equiv.swap_apply_left]
          exact sinking.grand lower (positive.trans below) positive child
        · rw [Equiv.swap_apply_of_ne_of_ne top same]
          exact sinking.others other positive sibling
  · intro other positive deeper under
    apply Below.swapped inPlace inLeast
    have deep := parent_lt positive
    rw [child, Equiv.swap_apply_left, Equiv.swap_apply_of_ne_of_ne (by omega) (by omega), ← under]
    exact sinking.others other positive (by omega)

theorem ordered_siftDown
    (place : Nat) (heap : List α) (sinking : Sinking key heap place) :
    Ordered key (siftDown precedes place heap) := by
  induction place, heap using siftDown.induct precedes with
  | case1 place heap stays =>
      rw [siftDown, if_pos stays]
      intro child positive
      by_cases under : parent child = place
      · intro above lower foundAbove foundUnder
        rw [under] at foundAbove
        have inside := (List.getElem?_eq_some_iff.mp foundAbove).1
        have least := (below_least precedes order heap inside).2 child positive under
        rw [stays] at least
        exact least above lower foundAbove foundUnder
      · exact sinking.others child positive under
  | case2 place heap sinks ih =>
      rw [siftDown, if_neg sinks]
      exact ih (sinking.step precedes order sinks)

theorem ordered_pop {heap : List α} (ordered : Ordered key heap) :
    Ordered key (pop precedes heap) := by
  unfold pop
  split
  · intro child positive above under foundAbove
    simp at foundAbove
  · next last ends =>
      split
      · intro child positive above under foundAbove
        simp at foundAbove
      · refine ordered_siftDown precedes order 0 _ ⟨?_, ?_⟩
        rotate_left
        · intro child positive impossible
          omega
        intro child positive notUnder above under foundAbove foundUnder
        rw [List.getElem?_set_ne (Ne.symm notUnder)] at foundAbove
        rw [List.getElem?_set_ne positive.ne] at foundUnder
        have kept : ∀ {place : Nat} {entry : α}, heap.dropLast[place]? = some entry →
            heap[place]? = some entry := by
          intro place entry found
          rw [List.getElem?_dropLast] at found
          split at found
          · exact found
          · contradiction
        exact ordered child positive above under (kept foundAbove) (kept foundUnder)

theorem ordered_settle (keep : α → Bool) {heap : List α} (ordered : Ordered key heap) :
    Ordered key (settle precedes keep heap) :=
  settle_induction precedes (Ordered key) ordered fun _ _ _ inside =>
    ordered_pop precedes order inside

end Sifting

end Order

end TinySandbox.Library.Heap
