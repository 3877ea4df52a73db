/-
This file gives the ledger of the places that the pools have handed out.
The ledger changes only when a place is handed out, gets a handle, loses it or is given back.
-/

import TinySandbox.Specification.Handles

namespace TinySandbox.Sandbox
open Library

/-- These events end the handle of a backend. -/
def PoolEvent.Settles (event : PoolEvent) (vfs handle : Nat) : Prop :=
  event = .aborted vfs handle ∨ ∃ registry, event = .closed registry vfs handle

/-- The ledger has both counters and the log. -/
structure Ledger where
  openFiles : Nat
  charged : Nat → Nat
  log : List PoolEvent

namespace Ledger

def record (event : PoolEvent) (ledger : Ledger) : Ledger :=
  { ledger with log := ledger.log ++ [event] }

/-- The change reaches the execution of a place. -/
def adjust (change : Nat → Nat) (control : Option Nat) (charged : Nat → Nat) (number : Nat) : Nat :=
  if control = some number then change (charged number) else charged number

def charge (control : Option Nat) (ledger : Ledger) : Ledger where
  openFiles := ledger.openFiles + 1
  charged := adjust (· + 1) control ledger.charged
  log := ledger.log ++ [.reserved control]

def release (control : Option Nat) (ledger : Ledger) : Ledger where
  openFiles := fetchSub ledger.openFiles
  charged := adjust fetchSub control ledger.charged
  log := ledger.log ++ [.returned control]

end Ledger

@[simp] theorem openHandles_zero : openHandles 0 = 0 := rfl

@[simp] theorem openHandles_waiting (control : Option Nat) (places : Multiset Place) :
    openHandles ({ control, handle := none } ::ₘ places) = openHandles places :=
  Multiset.filterMap_cons_none _ _ rfl

@[simp] theorem openHandles_holding (control : Option Nat) (held : Nat × Nat)
    (places : Multiset Place) :
    openHandles ({ control, handle := some held } ::ₘ places) = held ::ₘ openHandles places :=
  Multiset.filterMap_cons_some _ _ _ rfl

/-- The ledger accounts for these places.
Every reservation is still a place or was given back, and no handle is in two places. -/
structure Balanced (ceilings : Ceilings) (ledger : Ledger) (places : Multiset Place) : Prop where
  total : ledger.openFiles = places.card
  charges : ∀ control,
    ledger.charged control = places.countP fun place => place.control = some control
  capacity : ledger.openFiles ≤ ceilings.capacity
  limits : ∀ control, ledger.charged control ≤ ceilings.maxOpenFiles control
  reservations : ledger.log.countP PoolEvent.isReserved =
    ledger.openFiles + ledger.log.countP PoolEvent.isReturned
  reservationsOf : ∀ control, ledger.log.count (.reserved (some control)) =
    ledger.charged control + ledger.log.count (.returned (some control))
  distinct : (openHandles places).Nodup
  lifetimes : ∀ vfs handle, lifetime (PoolEvent.mark vfs handle) ledger.log =
    some (decide ((vfs, handle) ∈ openHandles places))

section Balanced
variable {ceilings : Ceilings} {ledger : Ledger} {places : Multiset Place} {control : Option Nat}
  {vfs handle : Nat}

theorem fetchSub_succ (count : Nat) : fetchSub (count + 1) = count := rfl

theorem countP_cons_place (number : Nat) (held : Option (Nat × Nat)) :
    ({ control, handle := held } ::ₘ places).countP (fun place => place.control = some number) =
      (places.countP fun place => place.control = some number) +
        if control = some number then 1 else 0 :=
  Multiset.countP_cons _ _ _

theorem Balanced.charge (balanced : Balanced ceilings ledger places)
    (room : ledger.openFiles < ceilings.capacity)
    (admitted : ∀ number, control = some number →
      ledger.charged number < ceilings.maxOpenFiles number) :
    Balanced ceilings (ledger.charge control) ({ control, handle := none } ::ₘ places) where
  total := by rw [Multiset.card_cons, ← balanced.total]; rfl
  charges number := by
      rw [countP_cons_place, ← balanced.charges]
      change (if control = some number then _ else _) = _
      split <;> rfl
  capacity := room
  limits number := by
      change (if control = some number then _ else _) ≤ _
      split
      · next same => exact admitted number same
      · exact balanced.limits number
  reservations := by
      have before := balanced.reservations
      simp only [Ledger.charge, List.countP_append, List.countP_singleton, PoolEvent.isReserved,
        PoolEvent.isReturned]
      simp only [if_true, Bool.false_eq_true, if_false]
      omega
  reservationsOf number := by
      have before := balanced.reservationsOf number
      simp only [Ledger.charge, List.count_append, List.count_singleton, Ledger.adjust, beq_iff_eq,
        PoolEvent.reserved.injEq, reduceCtorEq, if_false]
      split <;> omega
  distinct := by rw [openHandles_waiting]; exact balanced.distinct
  lifetimes vfs handle := by
      rw [openHandles_waiting, ← balanced.lifetimes]
      exact lifetime_other rfl

theorem Balanced.release
    (balanced : Balanced ceilings ledger ({ control, handle := none } ::ₘ places)) :
    Balanced ceilings (ledger.release control) places := by
  have total := balanced.total
  rw [Multiset.card_cons] at total
  have charged : ∀ number, control = some number → ledger.charged number =
      (places.countP fun place => place.control = some number) + 1 := by
    intro number same
    rw [balanced.charges, countP_cons_place, if_pos same]
  constructor
  case total => simp only [Ledger.release, total, fetchSub_succ]
  case charges =>
      intro number
      simp only [Ledger.release, Ledger.adjust]
      split
      · next same => rw [charged number same, fetchSub_succ]
      · next other => rw [balanced.charges, countP_cons_place, if_neg other, Nat.add_zero]
  case capacity =>
      have capacity := balanced.capacity
      simp only [Ledger.release, total, fetchSub_succ]
      omega
  case limits =>
      intro number
      have limits := balanced.limits number
      simp only [Ledger.release, Ledger.adjust]
      split
      · next same =>
          rw [charged number same] at limits ⊢
          rw [fetchSub_succ]
          omega
      · exact limits
  case reservations =>
      have before := balanced.reservations
      simp only [Ledger.release, List.countP_append, List.countP_singleton, PoolEvent.isReserved,
        PoolEvent.isReturned, total, fetchSub_succ]
      simp only [if_true, Bool.false_eq_true, if_false]
      omega
  case reservationsOf =>
      intro number
      have before := balanced.reservationsOf number
      simp only [Ledger.release, List.count_append, List.count_singleton, Ledger.adjust, beq_iff_eq,
        PoolEvent.returned.injEq, reduceCtorEq, if_false]
      split
      · next same =>
          rw [charged number same] at before ⊢
          rw [fetchSub_succ]
          omega
      · omega
  case distinct => simpa only [openHandles_waiting] using balanced.distinct
  case lifetimes =>
      intro vfs handle
      rw [← openHandles_waiting control, ← balanced.lifetimes]
      exact lifetime_other rfl

/-- Calls on a backend leave the counters alone. -/
theorem Balanced.record {event : PoolEvent} {held held' : Option (Nat × Nat)}
    (balanced : Balanced ceilings ledger ({ control, handle := held } ::ₘ places))
    (call : (∃ vfs handle, event = .opened vfs handle) ∨ ∃ vfs handle, event.Settles vfs handle)
    (distinct : (openHandles ({ control, handle := held' } ::ₘ places)).Nodup)
    (lifetimes : ∀ vfs handle, lifetime (PoolEvent.mark vfs handle) (ledger.log ++ [event]) =
      some (decide ((vfs, handle) ∈ openHandles ({ control, handle := held' } ::ₘ places)))) :
    Balanced ceilings (ledger.record event) ({ control, handle := held' } ::ₘ places) where
  total := balanced.total.trans (by rw [Multiset.card_cons, Multiset.card_cons])
  charges number := (balanced.charges number).trans (by rw [countP_cons_place, countP_cons_place])
  capacity := balanced.capacity
  limits := balanced.limits
  reservations := by
      have before := balanced.reservations
      obtain ⟨_, _, rfl⟩ | ⟨_, _, rfl | ⟨_, rfl⟩⟩ := call
      all_goals simpa [Ledger.record, PoolEvent.isReserved, PoolEvent.isReturned] using before
  reservationsOf number := by
      have before := balanced.reservationsOf number
      obtain ⟨_, _, rfl⟩ | ⟨_, _, rfl | ⟨_, rfl⟩⟩ := call
      all_goals simpa [Ledger.record, List.count_append, List.count_singleton] using before
  distinct := distinct
  lifetimes := lifetimes

theorem mark_opened (vfs handle other number : Nat) :
    PoolEvent.mark vfs handle (.opened other number) =
      if (vfs, handle) = (other, number) then some .begins else none := by
  simp [PoolEvent.mark, Prod.ext_iff, eq_comm]

theorem mark_settles {event : PoolEvent} {other number : Nat} (settles : event.Settles other number) :
    PoolEvent.mark vfs handle event =
      if (vfs, handle) = (other, number) then some .ends else none := by
  obtain rfl | ⟨registry, rfl⟩ := settles
  all_goals simp [PoolEvent.mark, Prod.ext_iff, eq_comm]

/-- A backend puts a handle that is not open into a waiting place. -/
theorem Balanced.opens
    (balanced : Balanced ceilings ledger ({ control, handle := none } ::ₘ places))
    (fresh : lifetime (PoolEvent.mark vfs handle) ledger.log ≠ some true) :
    Balanced ceilings (ledger.record (.opened vfs handle))
      ({ control, handle := some (vfs, handle) } ::ₘ places) := by
  have before := balanced.lifetimes
  simp only [openHandles_waiting] at before
  have absent : (vfs, handle) ∉ openHandles places := by
    intro present
    rw [before, decide_eq_true present] at fresh
    exact fresh rfl
  apply balanced.record
  · exact .inl ⟨vfs, handle, rfl⟩
  · rw [openHandles_holding, Multiset.nodup_cons]
    exact ⟨absent, by simpa only [openHandles_waiting] using balanced.distinct⟩
  · intro other number
    by_cases same : (other, number) = (vfs, handle)
    · obtain ⟨rfl, rfl⟩ := Prod.mk.inj same
      rw [lifetime_begins, openHandles_holding, decide_eq_true (Multiset.mem_cons_self _ _)]
      · rw [mark_opened, if_pos rfl]
      · rw [before, decide_eq_false absent]
    · rw [lifetime_other, before, openHandles_holding]
      · simp only [Multiset.mem_cons, same, false_or]
      · rw [mark_opened, if_neg same]

/-- The call that ends a handle leaves a waiting place behind. -/
theorem Balanced.settles {event : PoolEvent}
    (balanced : Balanced ceilings ledger ({ control, handle := some (vfs, handle) } ::ₘ places))
    (settles : event.Settles vfs handle) :
    Balanced ceilings (ledger.record event) ({ control, handle := none } ::ₘ places) := by
  have before := balanced.lifetimes
  simp only [openHandles_holding] at before
  have distinct := balanced.distinct
  rw [openHandles_holding, Multiset.nodup_cons] at distinct
  apply balanced.record
  · exact .inr ⟨vfs, handle, settles⟩
  · rw [openHandles_waiting]
    exact distinct.2
  · intro other number
    rw [openHandles_waiting]
    by_cases same : (other, number) = (vfs, handle)
    · obtain ⟨rfl, rfl⟩ := Prod.mk.inj same
      rw [lifetime_ends, decide_eq_false distinct.1]
      · rw [mark_settles settles, if_pos rfl]
      · rw [before, decide_eq_true (Multiset.mem_cons_self _ _)]
    · rw [lifetime_other, before]
      · simp only [Multiset.mem_cons, same, false_or]
      · rw [mark_settles settles, if_neg same]

theorem Balanced.settle {event : PoolEvent}
    (balanced : Balanced ceilings ledger ({ control, handle := some (vfs, handle) } ::ₘ places))
    (settles : event.Settles vfs handle) :
    Balanced ceilings ((ledger.record event).release control) places :=
  (balanced.settles settles).release

/-- Places that hold handles are gone once all handles have ended. -/
theorem Balanced.drained (balanced : Balanced ceilings ledger places)
    (held : ∀ place ∈ places, place.handle ≠ none)
    (ended : ∀ vfs handle, lifetime (PoolEvent.mark vfs handle) ledger.log = some false) :
    places = 0 := by
  apply Multiset.eq_zero_of_forall_notMem
  intro place member
  obtain ⟨current, handle⟩ := Option.ne_none_iff_exists'.mp (held place member)
  have present : (current.1, current.2) ∈ openHandles places :=
    (Multiset.mem_filterMap _ _).mpr ⟨place, member, handle⟩
  have alive := balanced.lifetimes current.1 current.2
  rw [ended, decide_eq_true present] at alive
  exact Bool.noConfusion (Option.some.inj alive)

theorem Balanced.congr {places' : Multiset Place} (balanced : Balanced ceilings ledger places)
    (same : places = places') : Balanced ceilings ledger places' :=
  same ▸ balanced

theorem Balanced.new : Balanced ceilings { openFiles := 0, charged := fun _ => 0, log := [] } 0 where
  total := rfl
  charges _ := rfl
  capacity := Nat.zero_le _
  limits _ := Nat.zero_le _
  reservations := rfl
  reservationsOf _ := rfl
  distinct := Multiset.nodup_zero
  lifetimes _ _ := rfl

end Balanced

end TinySandbox.Sandbox
