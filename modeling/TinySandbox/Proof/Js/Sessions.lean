/-
This file proves that every deferred call of a guest gets its own answer once.
The slots of the guest and the promises of the driver name the same calls.
-/

import TinySandbox.Construction.Js.Driver

namespace TinySandbox.Js
open Library

section Slots
variable {shim : Shim} {index : Nat}

/-- The promise that a slot holds. -/
def Shim.promise (shim : Shim) (index : Nat) : Option Nat := (shim.pending[index]?).join

def Shim.InUse (shim : Shim) (index : Nat) : Prop := shim.promise index ≠ none

theorem reserveSlot_slot (reserved : shim.reserveSlot = .slot index) :
    shim.pending[index]? = some none := by
  unfold Shim.reserveSlot at reserved
  split at reserved
  · next found free =>
      obtain rfl := CallId.slot.inj reserved
      obtain ⟨bound, empty, -⟩ := List.findIdx?_eq_some_iff_getElem.mp free
      rw [List.getElem?_eq_getElem bound, Option.isNone_iff_eq_none.mp empty]
  · cases reserved

/-- A shim that reserves nothing has every slot in use. -/
theorem reserveSlot_full (full : ∀ index < shim.pending.length, shim.InUse index) :
    shim.reserveSlot = .noSlot := by
  have none : shim.pending.findIdx? Option.isNone = none := by
    rw [List.findIdx?_eq_none_iff]
    intro slot member
    obtain ⟨index, bound, same⟩ := List.getElem_of_mem member
    have used := full index bound
    rw [Shim.InUse, Shim.promise, List.getElem?_eq_getElem bound, same] at used
    cases slot with
    | none => exact absurd rfl used
    | some number => rfl
  unfold Shim.reserveSlot
  rw [none]

theorem promise_set (value : Option Nat) (bound : index < shim.pending.length) (count : Int)
    (other : Nat) :
    ({ pending := shim.pending.set index value, pendingCount := count } : Shim).promise other =
      if other = index then value else shim.promise other := by
  unfold Shim.promise
  rw [List.getElem?_set]
  by_cases same : index = other
  · subst same
    simp [bound]
  · simp [same, Ne.symm same]

theorem countP_set {slots : List (Option Nat)} {old : Option Nat} (value : Option Nat)
    (found : slots[index]? = some old) :
    (slots.set index value).countP Option.isSome + (if old.isSome then 1 else 0) =
      slots.countP Option.isSome + if value.isSome then 1 else 0 := by
  induction slots generalizing index with
  | nil => cases found
  | cons slot slots ih =>
      cases index with
      | zero =>
          obtain rfl := Option.some.inj found
          simp only [List.set_cons_zero, List.countP_cons]
          omega
      | succ index =>
          have later := @ih index (by simpa using found)
          simp only [List.set_cons_succ, List.countP_cons]
          omega

end Slots

/-- The guest and the driver agree on the outstanding calls, and every promise that was settled
got the response of its own call. -/
structure Agreed (session : Session) : Prop where
  slots : session.shim.pending.length = maxPending
  shared : ∀ index, session.driver.deferred.get index = session.shim.promise index
  counted : session.shim.pendingCount = session.shim.pending.countP Option.isSome
  distinct : ∀ first second number, session.shim.promise first = some number →
    session.shim.promise second = some number → first = second
  made : ∀ index number, session.shim.promise index = some number → number < session.calls
  outstanding : ∀ index number, session.shim.promise index = some number →
    number ∉ session.delivered.map Prod.fst
  own : ∀ entry ∈ session.delivered, entry.2 = some entry.1
  once : (session.delivered.map Prod.fst).Nodup
  earlier : ∀ entry ∈ session.delivered, entry.1 < session.calls
  parked : ∀ delay, session.phase = .suspended delay →
    0 < session.shim.pendingCount ∨ 0 < delay
  sane : session.phase ≠ .waitsForNothing ∧ session.phase ≠ .unusedSlot

section Steps
variable {session after : Session}

theorem Agreed.new : Agreed .new := by
  have empty : ∀ index, Session.new.shim.promise index = none := by
    intro index
    change ((List.replicate maxPending none)[index]?).join = none
    rw [List.getElem?_replicate]
    split <;> rfl
  constructor
  case slots => exact List.length_replicate
  case shared =>
      intro index
      rw [empty]
      rfl
  case counted => rfl
  case distinct =>
      intro first second number found
      rw [empty] at found
      cases found
  case made =>
      intro index number found
      rw [empty] at found
      cases found
  case outstanding => exact fun _ _ _ => List.not_mem_nil
  case own => exact fun _ member => absurd member List.not_mem_nil
  case once => exact List.nodup_nil
  case earlier => exact fun _ member => absurd member List.not_mem_nil
  case parked => exact fun _ parked => Phase.noConfusion parked
  case sane => exact ⟨nofun, nofun⟩

/-- A call either changes no slot and is answered inline, or it takes the slot it reserved. -/
theorem hostCall_cases (session : Session) (deferrable thenable : Bool) :
    (∃ staged, session.hostCall deferrable thenable = (.response, { session with
        driver := { session.driver with staged }
        calls := session.calls + 1 })) ∨
      ∃ index, session.shim.reserveSlot = .slot index ∧ deferrable = true ∧ thenable = true ∧
        session.hostCall deferrable thenable = (.promise session.calls, { session with
          shim := { pending := session.shim.pending.set index (some session.calls)
                    pendingCount := session.shim.pendingCount + 1 }
          driver := { session.driver with
            deferred := session.driver.deferred.insert index session.calls }
          calls := session.calls + 1 }) := by
  unfold Session.hostCall
  cases asked : session.shim.callId deferrable with
  | noSlot => exact .inl ⟨_, rfl⟩
  | inline => exact .inl ⟨_, rfl⟩
  | slot index =>
      cases thenable with
      | false => exact .inl ⟨_, rfl⟩
      | true =>
          cases deferrable with
          | false => cases asked
          | true => exact .inr ⟨index, asked, rfl, rfl, rfl⟩

theorem Agreed.calls (agreed : Agreed session) (running : session.phase = .running)
    (deferrable thenable : Bool) : Agreed (session.hostCall deferrable thenable).2 := by
  obtain ⟨staged, answered⟩ | ⟨index, reserved, -, -, deferred⟩ :=
    hostCall_cases session deferrable thenable
  · rw [answered]
    exact { agreed with
      made := fun slot number found => Nat.lt_succ_of_lt (agreed.made slot number found)
      earlier := fun entry member => Nat.lt_succ_of_lt (agreed.earlier entry member) }
  · rw [deferred]
    have free := reserveSlot_slot reserved
    obtain ⟨bound, -⟩ := List.getElem?_eq_some_iff.mp free
    have promises := promise_set (some session.calls) bound (session.shim.pendingCount + 1)
    constructor
    case slots => exact (List.length_set ..).trans agreed.slots
    case shared =>
        intro other
        rw [promises]
        change (session.driver.deferred.insert index session.calls).get other = _
        rw [OrderedMap.get_insert, agreed.shared]
    case counted =>
        have count := countP_set (some session.calls) free
        change session.shim.pendingCount + 1 =
          ((session.shim.pending.set index (some session.calls)).countP Option.isSome : Int)
        rw [agreed.counted]
        simp only [Option.isSome_none, Option.isSome_some, if_true, Bool.false_eq_true, if_false]
          at count
        omega
    case distinct =>
        intro first second number left right
        rw [promises] at left right
        split at left
        · next here =>
            split at right
            · next there => rw [here, there]
            · rw [← Option.some.inj left] at right
              exact absurd (agreed.made second _ right) (Nat.lt_irrefl _)
        · split at right
          · rw [← Option.some.inj right] at left
            exact absurd (agreed.made first _ left) (Nat.lt_irrefl _)
          · exact agreed.distinct first second number left right
    case made =>
        intro other number found
        rw [promises] at found
        split at found
        · rw [← Option.some.inj found]
          exact Nat.lt_succ_self _
        · exact Nat.lt_succ_of_lt (agreed.made other number found)
    case outstanding =>
        intro other number found
        rw [promises] at found
        split at found
        · rw [← Option.some.inj found]
          intro member
          obtain ⟨entry, delivered, same⟩ := List.mem_map.mp member
          have before := agreed.earlier entry delivered
          omega
        · exact agreed.outstanding other number found
    case own => exact agreed.own
    case once => exact agreed.once
    case earlier =>
        intro entry member
        exact Nat.lt_succ_of_lt (agreed.earlier entry member)
    case parked =>
        intro delay parked
        exact Phase.noConfusion (running.symm.trans parked)
    case sane => exact agreed.sane

/-- While calls are outstanding, the driver has a promise to wait for. -/
theorem Agreed.waits (agreed : Agreed session) {delay : Int}
    (parked : session.phase = .suspended delay) : session.checkWait delay = none := by
  unfold Session.checkWait
  rw [if_neg]
  intro nothing
  obtain ⟨empty, negative⟩ := nothing
  cases agreed.parked delay parked with
  | inr positive => omega
  | inl outstanding =>
      rw [agreed.counted] at outstanding
      obtain ⟨slot, member, used⟩ := List.countP_pos_iff.mp (Int.natCast_pos.mp outstanding)
      obtain ⟨index, bound, same⟩ := List.getElem_of_mem member
      have shared := agreed.shared index
      rw [Shim.promise, List.getElem?_eq_getElem bound, same] at shared
      obtain ⟨number, rfl⟩ := Option.isSome_iff_exists.mp used
      have stored := (session.driver.deferred.mem_iff_get index number).mpr shared
      rw [OrderedMap.size, List.length_eq_zero_iff] at empty
      rw [empty] at stored
      exact List.not_mem_nil stored

theorem Agreed.resolves (agreed : Agreed session) {index number : Nat}
    (deferred : session.driver.deferred.get index = some number) :
    Agreed (session.resolve index number) := by
  have held := (agreed.shared index).symm.trans deferred
  obtain ⟨slot, found, rfl⟩ : ∃ slot, session.shim.pending[index]? = some slot ∧
      slot = some number := by
    obtain ⟨slot, found, same⟩ := Option.bind_eq_some_iff.mp held
    exact ⟨slot, found, same⟩
  obtain ⟨bound, -⟩ := List.getElem?_eq_some_iff.mp found
  have resolved : session.shim.resolve index = some (number,
      { pending := session.shim.pending.set index none
        pendingCount := session.shim.pendingCount - 1 }) := by
    unfold Shim.resolve
    rw [found]
  have promises := promise_set none bound (session.shim.pendingCount - 1)
  unfold Session.resolve
  rw [resolved]
  constructor
  case slots => exact (List.length_set ..).trans agreed.slots
  case shared =>
      intro other
      rw [promises]
      change (session.driver.deferred.erase index).get other = _
      rw [OrderedMap.get_erase, agreed.shared]
  case counted =>
      have count := countP_set none found
      change session.shim.pendingCount - 1 =
        ((session.shim.pending.set index none).countP Option.isSome : Int)
      rw [agreed.counted]
      simp only [Option.isSome_none, Option.isSome_some, if_true, Bool.false_eq_true, if_false]
        at count
      omega
  case distinct =>
      intro first second other left right
      rw [promises] at left right
      split at left
      · cases left
      · split at right
        · cases right
        · exact agreed.distinct first second other left right
  case made =>
      intro other promise present
      rw [promises] at present
      split at present
      · cases present
      · exact agreed.made other promise present
  case outstanding =>
      intro other promise present
      rw [promises] at present
      split at present
      · cases present
      · next different =>
          rw [List.map_append, List.mem_append, not_or]
          constructor
          · exact agreed.outstanding other promise present
          · intro same
            rw [List.mem_singleton.mp same] at present
            exact different (agreed.distinct other index number present held)
  case own =>
      intro entry member
      cases List.mem_append.mp member with
      | inl before => exact agreed.own entry before
      | inr new =>
          rw [List.mem_singleton.mp new]
  case once =>
      rw [List.map_append, List.nodup_append]
      refine ⟨agreed.once, List.nodup_singleton _, ?_⟩
      intro before member new same
      rw [List.mem_singleton.mp same]
      intro equal
      rw [equal] at member
      exact agreed.outstanding index number held member
  case earlier =>
      intro entry member
      cases List.mem_append.mp member with
      | inl before => exact agreed.earlier entry before
      | inr new =>
          rw [List.mem_singleton.mp new]
          exact agreed.made index number held
  case parked => exact fun _ parked => Phase.noConfusion parked
  case sane => exact ⟨nofun, nofun⟩

theorem step_agreed (agreed : Agreed session) (step : SessionStep session after) :
    Agreed after := by
  cases step with
  | calls deferrable thenable running => exact agreed.calls running deferrable thenable
  | parks delay running =>
      unfold Session.settle
      split
      · next waits =>
          exact { agreed with
            parked := by
              intro other same
              rw [← Phase.suspended.inj same]
              exact waits
            sane := ⟨nofun, nofun⟩ }
      · split
        · exact { agreed with parked := nofun, sane := ⟨nofun, nofun⟩ }
        · exact { agreed with parked := nofun, sane := ⟨nofun, nofun⟩ }
  | exits running => exact { agreed with parked := nofun, sane := ⟨nofun, nofun⟩ }
  | settles index number outstanding pending => exact { agreed with }
  | refuses delay refused parked nothing =>
      rw [agreed.waits parked] at nothing
      cases nothing
  | wakes delay parked waits timer =>
      exact { agreed with parked := nofun, sane := ⟨nofun, nofun⟩ }
  | resolves delay index number parked waits deferred settled => exact agreed.resolves deferred
  | expires delay parked => exact { agreed with parked := nofun, sane := ⟨nofun, nofun⟩ }

theorem reaches_agreed (ran : Relation.ReflTransGen SessionStep .new session) :
    Agreed session := by
  induction ran with
  | refl => exact .new
  | tail _ step ih => exact step_agreed ih step

/-- In every run the answers of the host reach the promises of their own calls. -/
theorem deferred_answered_once (ran : Relation.ReflTransGen SessionStep .new session) :
    (∀ delay, session.phase = .suspended delay →
      session.shim.pendingCount = session.shim.pending.countP Option.isSome ∧
        ∀ index, session.driver.deferred.get index ≠ none ↔ session.shim.InUse index) ∧
    (∀ entry ∈ session.delivered, entry.2 = some entry.1) ∧
    (session.delivered.map Prod.fst).Nodup ∧
    session.phase ≠ .unusedSlot ∧ session.phase ≠ .waitsForNothing ∧
    ((∀ index < maxPending, session.shim.InUse index) → ∀ deferrable thenable,
      (session.hostCall deferrable thenable).1 = .response ∧
        (session.hostCall deferrable thenable).2.shim = session.shim) := by
  have agreed := reaches_agreed ran
  refine ⟨?_, agreed.own, agreed.once, agreed.sane.2, agreed.sane.1, ?_⟩
  · intro delay parked
    constructor
    · exact agreed.counted
    · intro index
      rw [agreed.shared]
      exact Iff.rfl
  · intro full deferrable thenable
    obtain ⟨staged, answered⟩ | ⟨index, reserved, -⟩ := hostCall_cases session deferrable thenable
    · rw [answered]
      exact ⟨rfl, rfl⟩
    · rw [reserveSlot_full (by rw [agreed.slots]; exact full)] at reserved
      cases reserved

/-- A slot serves a second call as soon as the first one is answered. -/
theorem deferred_answered_once_reused :
    ∃ session, Relation.ReflTransGen SessionStep .new session ∧
      session.delivered = [(0, some 0), (1, some 1)] ∧
      (session.delivered.map Prod.fst).Nodup ∧ session.phase ≠ .unusedSlot := by
  have called : SessionStep .new (Session.new.hostCall true true).2 := .calls true true rfl
  have first := Relation.ReflTransGen.single called
  have parked := first.tail (.parks (-1) rfl)
  have settled := parked.tail (.settles 0 0 rfl (by decide))
  have resolved := settled.tail (.resolves (-1) 0 0 rfl rfl rfl (by decide))
  have second := resolved.tail (.calls true true rfl)
  have parkedAgain := second.tail (.parks (-1) rfl)
  have settledAgain := parkedAgain.tail (.settles 0 1 rfl (by decide))
  have resolvedAgain := settledAgain.tail (.resolves (-1) 0 1 rfl rfl rfl (by decide))
  obtain ⟨-, -, once, used, -⟩ := deferred_answered_once resolvedAgain
  exact ⟨_, resolvedAgain, rfl, once, used⟩

end Steps

end TinySandbox.Js
