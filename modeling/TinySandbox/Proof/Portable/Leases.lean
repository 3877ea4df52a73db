/-
This file keeps a ledger of the handles that are not released.
Every token is a handle with its lease, and every birth is an open that has not settled.
-/

import TinySandbox.Specification.Handles

namespace TinySandbox.Portable
open Library

/-- The handle that an event is about. -/
def VfsEvent.handle : VfsEvent → Option Handle
  | .started call => call.handle
  | .opened handle => some handle
  | .taken handle => some handle
  | .failed call => call.handle

section Lease
variable {handle other : Handle} {log : List VfsEvent} {event : VfsEvent}

@[simp] theorem lease_nil : lease handle [] = some .unborn := rfl

@[simp] theorem lease_append :
    lease handle (log ++ [event]) = (lease handle log).bind fun current =>
      current.turn handle event := by
  unfold lease
  rw [List.foldlM_append]
  change (List.foldlM (Lease.turn handle) .unborn log).bind _ = _
  congr 1
  funext current
  change (current.turn handle event).bind some = _
  exact Option.bind_fun_some _

/-- An event about another handle changes nothing. -/
theorem Lease.turn_other {current : Lease} (apart : event.handle ≠ some handle) :
    current.turn handle event = some current := by
  cases event with
  | started call => exact if_neg apart
  | opened other => exact if_neg fun same => apart (congrArg some same)
  | taken other => exact if_neg fun same => apart (congrArg some same)
  | failed call =>
      apply if_neg
      intro both
      apply apart
      rw [both.1]
      rfl

theorem lease_other (apart : event.handle ≠ some handle) :
    lease handle (log ++ [event]) = lease handle log := by
  rw [lease_append]
  cases lease handle log with
  | none => rfl
  | some current => exact Lease.turn_other apart

theorem lease_started {current after : Lease} {call : BoundCall} (about : call.handle = some handle)
    (starts : current.starts call = some after) :
    current.turn handle (.started call) = some after :=
  (if_pos about).trans starts

theorem lease_moves {current after : Lease} (known : lease handle log = some current)
    (moves : current.turn handle event = some after) :
    lease handle (log ++ [event]) = some after := by
  rw [lease_append, known]
  exact moves

end Lease

/-- This is what the log says about a handle with this lease. -/
def Lease.Tells (handle : Handle) (log : List VfsEvent) : Lease → Prop
  | .unborn => releases handle log = [] ∧ .opened handle ∉ log
  | .alive => releases handle log = []
  | .taken => releases handle log = []
  | .closing => releases handle log = [.close handle]
  | .failed => releases handle log = [.close handle] ∧ .failed (.close handle) ∈ log
  | .released => ReleasedOnce handle log

section Tells
variable {handle : Handle} {log : List VfsEvent} {event : VfsEvent}

theorem releases_append :
    releases handle (log ++ [event]) = releases handle log ++ releases handle [event] :=
  List.filterMap_append

/-- An event that releases nothing keeps what the log says. -/
theorem Lease.Tells.quiet {current : Lease} (tells : current.Tells handle log)
    (silent : releases handle [event] = []) (opens : event ≠ .opened handle) :
    current.Tells handle (log ++ [event]) := by
  have same : releases handle (log ++ [event]) = releases handle log := by
    rw [releases_append, silent, List.append_nil]
  have once : ReleasedOnce handle log → ReleasedOnce handle (log ++ [event]) := by
    unfold ReleasedOnce
    rw [same]
    exact Or.imp_right (And.imp_right fun failed => List.mem_append_left _ failed)
  cases current with
  | unborn =>
      refine ⟨same.trans tells.1, ?_⟩
      intro member
      rcases List.mem_append.mp member with before | now
      · exact tells.2 before
      · exact opens (List.mem_singleton.mp now).symm
  | alive => exact same.trans tells
  | taken => exact same.trans tells
  | closing => exact same.trans tells
  | failed => exact ⟨same.trans tells.1, List.mem_append_left _ tells.2⟩
  | released => exact once tells

/-- A method that does not release the handle needs it alive. -/
theorem Lease.starts_use {current after : Lease} {call : BoundCall}
    (about : call.handle = some handle) (keeps : call.releases handle = false)
    (starts : current.starts call = some after) : current = .alive ∧ after = .alive := by
  cases call <;> cases current <;>
    simp_all [Lease.starts, BoundCall.handle, BoundCall.releases]

/-- A release needs the handle alive or taken, and an abort can follow a failed close. -/
theorem Lease.Tells.released {current after : Lease} {call : BoundCall}
    (tells : current.Tells handle log) (release : call.releases handle = true)
    (starts : current.starts call = some after) : after.Tells handle (log ++ [.started call]) := by
  have grown : releases handle (log ++ [.started call]) = releases handle log ++ [call] := by
    rw [releases_append]
    simp [releases, release]
  rcases of_decide_eq_true release with rfl | rfl
  · cases current <;> cases starts
    · exact .inl ⟨.close handle, grown.trans (congrArg (· ++ _) tells)⟩
    · exact grown.trans (congrArg (· ++ _) tells)
  · cases current <;> cases starts
    · exact .inl ⟨.abort handle, grown.trans (congrArg (· ++ _) tells)⟩
    · exact .inr ⟨grown.trans (congrArg (· ++ _) tells.1), List.mem_append_left _ tells.2⟩

theorem Lease.Tells.started {current after : Lease} {call : BoundCall}
    (tells : current.Tells handle log) (about : call.handle = some handle)
    (starts : current.starts call = some after) : after.Tells handle (log ++ [.started call]) := by
  cases release : call.releases handle with
  | true => exact tells.released release starts
  | false =>
      obtain ⟨rfl, rfl⟩ := Lease.starts_use about release starts
      apply tells.quiet
      · simp [releases, release]
      · intro same
        cases same

theorem tells_of_lease {current : Lease} (known : lease handle log = some current) :
    current.Tells handle log := by
  induction log using List.reverseRecOn generalizing current with
  | nil =>
      obtain rfl : Lease.unborn = current := Option.some.inj known
      exact ⟨rfl, List.not_mem_nil⟩
  | append_singleton log event ih =>
      rw [lease_append] at known
      obtain ⟨before, earlier, turned⟩ := Option.bind_eq_some_iff.mp known
      have tells := ih earlier
      cases event with
      | started call =>
          by_cases about : call.handle = some handle
          · have starts : before.starts call = some current := by
              simpa [Lease.turn, about] using turned
            exact tells.started about starts
          · obtain rfl : before = current := by simpa [Lease.turn, about] using turned
            apply tells.quiet
            · have other : call.releases handle = false := by
                unfold BoundCall.releases
                rw [decide_eq_false_iff_not]
                rintro (rfl | rfl) <;> exact about rfl
              simp [releases, other]
            · nofun
      | opened other =>
          by_cases same : other = handle
          · subst same
            cases before <;> simp [Lease.turn] at turned
            subst turned
            change releases other (log ++ _) = []
            rw [releases_append, tells.1]
            rfl
          · obtain rfl : before = current := by simpa [Lease.turn, same] using turned
            exact tells.quiet rfl fun equal => same (VfsEvent.opened.inj equal)
      | taken other =>
          by_cases same : other = handle
          · subst same
            cases before <;> simp [Lease.turn] at turned
            subst turned
            change releases other (log ++ _) = []
            rw [releases_append, show releases other log = [] from tells]
            rfl
          · obtain rfl : before = current := by simpa [Lease.turn, same] using turned
            exact tells.quiet rfl nofun
      | failed call =>
          by_cases both : call = .close handle ∧ before = .closing
          · obtain rfl : Lease.failed = current := by simpa [Lease.turn, both] using turned
            obtain ⟨rfl, rfl⟩ := both
            refine ⟨?_, List.mem_append_right _ (List.mem_singleton.mpr rfl)⟩
            rw [releases_append, show releases handle log = _ from tells]
            rfl
          · obtain rfl : before = current := by simpa [Lease.turn, both] using turned
            exact tells.quiet rfl nofun

end Tells

/-- These events do not concern a valid handle. -/
def VfsEvent.IsPlain (event : VfsEvent) : Prop :=
  ∀ handle, event.handle = some handle → ¬ handle.IsValid

/-- The close that a token waits for may have failed without the owner knowing it yet. -/
def Lease.Matches (current : Lease) (found : Option Lease) : Prop :=
  found = some current ∨ current = .closing ∧ found = some .failed

theorem Lease.Matches.exact {current : Lease} {found : Option Lease}
    (matching : current.Matches found) (settled : current ≠ .closing) : found = some current :=
  matching.resolve_right fun both => settled both.1

/-- The tokens are the handles that must still be released or can still be aborted. -/
structure Ledger (log : List VfsEvent) (calls : Nat) (tokens : Multiset (Handle × Lease))
    (births : Multiset Nat) : Prop where
  valid : ∀ token ∈ tokens, token.1.IsValid
  known : ∀ token ∈ tokens, token.2.Matches (lease token.1 log)
  numbers : (tokens.map (fun token => token.1.call) + births).Nodup
  past : ∀ number ∈ tokens.map (fun token => token.1.call) + births, number < calls
  unborn : ∀ handle : Handle, handle.IsValid → calls ≤ handle.call ∨ handle.call ∈ births →
    lease handle log = some .unborn
  lawful : ∀ handle : Handle, handle.IsValid → lease handle log ≠ none
  owned : ∀ handle : Handle, handle.IsValid → ∀ current, current = .alive ∨ current = .taken →
    lease handle log = some current → (handle, current) ∈ tokens

theorem ledger_new : Ledger [] 0 0 0 where
  valid := by simp
  known := by simp
  numbers := by simp
  past := by simp
  unborn := by simp
  lawful := by simp
  owned := by
    intro handle _ current unreleased known
    obtain rfl : Lease.unborn = current := Option.some.inj known
    simp at unreleased

namespace Ledger

variable {log : List VfsEvent} {calls : Nat} {tokens : Multiset (Handle × Lease)}
  {births : Multiset Nat} {handle : Handle} {current : Lease} {event : VfsEvent}

/-- An event that changes no lease of a valid handle changes nothing. -/
theorem same {after : List VfsEvent} (ledger : Ledger log calls tokens births)
    (same : ∀ handle : Handle, handle.IsValid → lease handle after = lease handle log) :
    Ledger after calls tokens births where
  valid := ledger.valid
  known token member := by
    rw [same _ (ledger.valid token member)]
    exact ledger.known token member
  numbers := ledger.numbers
  past := ledger.past
  unborn handle valid early := (same handle valid).trans (ledger.unborn handle valid early)
  lawful handle valid := by
    rw [same handle valid]
    exact ledger.lawful handle valid
  owned handle valid current unreleased known :=
    ledger.owned handle valid current unreleased ((same handle valid).symm.trans known)

theorem plain (ledger : Ledger log calls tokens births) (plain : event.IsPlain) :
    Ledger (log ++ [event]) calls tokens births :=
  ledger.same fun handle valid => lease_other fun about => plain handle about valid

/-- A new call has a new number. -/
theorem numbered (ledger : Ledger log calls tokens births) :
    Ledger log (calls + 1) tokens births where
  valid := ledger.valid
  known := ledger.known
  numbers := ledger.numbers
  past number member := Nat.lt_succ_of_lt (ledger.past number member)
  unborn handle valid early :=
    ledger.unborn handle valid (early.imp_left fun above => Nat.le_of_succ_le above)
  lawful := ledger.lawful
  owned := ledger.owned

/-- The new call is an open. -/
theorem conceives (ledger : Ledger log calls tokens births) :
    Ledger log (calls + 1) tokens (calls ::ₘ births) where
  valid := ledger.valid
  known := ledger.known
  numbers := by
    rw [Multiset.add_cons, Multiset.nodup_cons]
    exact ⟨fun member => Nat.lt_irrefl _ (ledger.past calls member), ledger.numbers⟩
  past number member := by
    rw [Multiset.add_cons, Multiset.mem_cons] at member
    rcases member with rfl | member
    · exact Nat.lt_succ_self _
    · exact Nat.lt_succ_of_lt (ledger.past number member)
  unborn handle valid early := by
    apply ledger.unborn handle valid
    rcases early with above | member
    · exact .inl (Nat.le_of_succ_le above)
    · rcases Multiset.mem_cons.mp member with same | member
      · exact .inl same.ge
      · exact .inr member
  lawful := ledger.lawful
  owned := ledger.owned

/-- An open that settles without a handle is over. -/
theorem barren {number : Nat} (ledger : Ledger log calls tokens (number ::ₘ births)) :
    Ledger log calls tokens births where
  valid := ledger.valid
  known := ledger.known
  numbers := by
    have numbers := ledger.numbers
    rw [Multiset.add_cons] at numbers
    exact (Multiset.nodup_cons.mp numbers).2
  past number member := by
    apply ledger.past
    rw [Multiset.add_cons]
    exact Multiset.mem_cons_of_mem member
  unborn handle valid early := ledger.unborn handle valid (early.imp_right Multiset.mem_cons_of_mem)
  lawful := ledger.lawful
  owned := ledger.owned

theorem apart_of_mem {token other : Handle × Lease}
    (ledger : Ledger log calls (token ::ₘ tokens) births) (member : other ∈ tokens) :
    other.1 ≠ token.1 := by
  intro same
  have numbers := ledger.numbers
  rw [Multiset.map_cons, Multiset.cons_add, Multiset.nodup_cons] at numbers
  apply numbers.1
  rw [← same]
  exact Multiset.mem_add.mpr (.inl (Multiset.mem_map_of_mem _ member))

/-- Only the lease of one token moves. -/
theorem becomes {after : Lease} (ledger : Ledger log calls ((handle, current) ::ₘ tokens) births)
    (about : event.handle = some handle)
    (moved : lease handle (log ++ [event]) = some after) :
    Ledger (log ++ [event]) calls ((handle, after) ::ₘ tokens) births := by
  have here : (handle, current) ∈ (handle, current) ::ₘ tokens := Multiset.mem_cons_self _ _
  have others : ∀ other : Handle, other ≠ handle → lease other (log ++ [event]) = lease other log := by
    intro other apart
    apply lease_other
    rw [about]
    exact fun same => apart (Option.some.inj same).symm
  constructor
  · intro token member
    rcases Multiset.mem_cons.mp member with rfl | member
    · exact ledger.valid (handle, current) here
    · exact ledger.valid token (Multiset.mem_cons_of_mem member)
  · intro token member
    rcases Multiset.mem_cons.mp member with rfl | member
    · exact .inl moved
    · rw [others _ (ledger.apart_of_mem member)]
      exact ledger.known token (Multiset.mem_cons_of_mem member)
  · simpa using ledger.numbers
  · simpa using ledger.past
  · intro other valid early
    have unborn := ledger.unborn other valid early
    by_cases same : other = handle
    · subst same
      have numbers := ledger.numbers
      rw [Multiset.map_cons, Multiset.cons_add, Multiset.nodup_cons] at numbers
      rcases early with above | member
      · have below : other.call < calls := ledger.past _ (by simp)
        omega
      · exact absurd (Multiset.mem_add.mpr (.inr member)) numbers.1
    · rw [others other same]
      exact unborn
  · intro other valid
    by_cases same : other = handle
    · rw [same, moved]
      simp
    · rw [others other same]
      exact ledger.lawful other valid
  · intro other valid found unreleased known
    by_cases same : other = handle
    · subst same
      rw [moved] at known
      obtain rfl := Option.some.inj known
      exact Multiset.mem_cons_self _ _
    · rw [others other same] at known
      have member := ledger.owned other valid found unreleased known
      rcases Multiset.mem_cons.mp member with equal | member
      · exact absurd (congrArg Prod.fst equal) same
      · exact Multiset.mem_cons_of_mem member

theorem moves {after : Lease} (ledger : Ledger log calls ((handle, current) ::ₘ tokens) births)
    (about : event.handle = some handle) (settled : current ≠ .closing)
    (moves : current.turn handle event = some after) :
    Ledger (log ++ [event]) calls ((handle, after) ::ₘ tokens) births := by
  have known := (ledger.known (handle, current) (Multiset.mem_cons_self _ _)).exact settled
  exact ledger.becomes about (lease_moves known moves)

/-- A method that is called with a live handle changes no lease. -/
theorem stays (ledger : Ledger log calls tokens births) (about : event.handle = some handle)
    (member : (handle, current) ∈ tokens) (settled : current ≠ .closing)
    (stays : current.turn handle event = some current) :
    Ledger (log ++ [event]) calls tokens births := by
  have split := Multiset.cons_erase member
  rw [← split] at ledger ⊢
  exact ledger.moves about settled stays

/-- The failure of a call matters only to a lease that is closing. -/
theorem fails (ledger : Ledger log calls tokens births) (call : BoundCall) :
    Ledger (log ++ [.failed call]) calls tokens births := by
  have turned : ∀ other : Handle, lease other (log ++ [.failed call]) = lease other log ∨
      lease other log = some .closing ∧ lease other (log ++ [.failed call]) = some .failed := by
    intro other
    rw [lease_append]
    cases found : lease other log with
    | none => exact .inl rfl
    | some current =>
        by_cases both : call = .close other ∧ current = .closing
        · exact .inr ⟨congrArg some both.2, if_pos both⟩
        · exact .inl (if_neg both)
  constructor
  · exact ledger.valid
  · intro token member
    rcases turned token.1 with same | ⟨closing, failed⟩
    · rw [same]
      exact ledger.known token member
    · rcases ledger.known token member with known | ⟨_, known⟩
      · rw [closing] at known
        exact .inr ⟨(Option.some.inj known).symm, failed⟩
      · rw [closing] at known
        cases known
  · exact ledger.numbers
  · exact ledger.past
  · intro other valid early
    have unborn := ledger.unborn other valid early
    rcases turned other with same | ⟨closing, _⟩
    · exact same.trans unborn
    · rw [closing] at unborn
      cases unborn
  · intro other valid
    rcases turned other with same | ⟨_, failed⟩
    · rw [same]
      exact ledger.lawful other valid
    · rw [failed]
      nofun
  · intro other valid found unreleased known
    rcases turned other with same | ⟨_, failed⟩
    · exact ledger.owned other valid found unreleased (same.symm.trans known)
    · rw [failed] at known
      obtain rfl := Option.some.inj known
      simp at unreleased

/-- The owner of a close that failed can abort the handle. -/
theorem fails_close (ledger : Ledger log calls ((handle, .closing) ::ₘ tokens) births) :
    Ledger (log ++ [.failed (.close handle)]) calls ((handle, .failed) ::ₘ tokens) births := by
  have about : (VfsEvent.failed (.close handle)).handle = some handle := rfl
  apply ledger.becomes about
  rcases ledger.known (handle, .closing) (Multiset.mem_cons_self _ _) with known | ⟨_, known⟩
  · exact lease_moves known (if_pos ⟨rfl, rfl⟩)
  · exact lease_moves known (if_neg nofun)

/-- A token whose handle is released can be dropped. -/
theorem drops (ledger : Ledger log calls ((handle, current) ::ₘ tokens) births)
    (alive : current ≠ .alive) (taken : current ≠ .taken) : Ledger log calls tokens births where
  valid token member := ledger.valid token (Multiset.mem_cons_of_mem member)
  known token member := ledger.known token (Multiset.mem_cons_of_mem member)
  numbers := by
    have numbers := ledger.numbers
    rw [Multiset.map_cons, Multiset.cons_add] at numbers
    exact (Multiset.nodup_cons.mp numbers).2
  past number member := by
    apply ledger.past
    rw [Multiset.map_cons, Multiset.cons_add]
    exact Multiset.mem_cons_of_mem member
  unborn := ledger.unborn
  lawful := ledger.lawful
  owned other valid found unreleased known := by
    rcases Multiset.mem_cons.mp (ledger.owned other valid found unreleased known) with equal | member
    · obtain rfl := congrArg Prod.snd equal
      rcases unreleased with rfl | rfl
      · exact absurd rfl alive
      · exact absurd rfl taken
    · exact member

/-- An open that settles with a valid handle gives a token. -/
theorem bears (ledger : Ledger log calls tokens (handle.call ::ₘ births)) (valid : handle.IsValid) :
    Ledger (log ++ [.opened handle]) calls ((handle, .alive) ::ₘ tokens) births := by
  have others : ∀ other : Handle, other ≠ handle →
      lease other (log ++ [.opened handle]) = lease other log := by
    intro other apart
    exact lease_other fun same => apart (Option.some.inj same).symm
  have moved : lease handle (log ++ [.opened handle]) = some .alive := by
    apply lease_moves (ledger.unborn handle valid (.inr (Multiset.mem_cons_self _ _)))
    simp [Lease.turn]
  have numbers := ledger.numbers
  rw [Multiset.add_cons] at numbers
  have fresh := Multiset.nodup_cons.mp numbers
  constructor
  · intro token member
    rcases Multiset.mem_cons.mp member with rfl | member
    · exact valid
    · exact ledger.valid token member
  · intro token member
    rcases Multiset.mem_cons.mp member with rfl | member
    · exact .inl moved
    · rw [others]
      · exact ledger.known token member
      · intro same
        apply fresh.1
        rw [← same]
        exact Multiset.mem_add.mpr (.inl (Multiset.mem_map_of_mem _ member))
  · rw [Multiset.map_cons, Multiset.cons_add]
    exact numbers
  · intro number member
    apply ledger.past
    rwa [Multiset.map_cons, Multiset.cons_add, ← Multiset.add_cons] at member
  · intro other otherValid early
    rw [others]
    · exact ledger.unborn other otherValid (early.imp_right Multiset.mem_cons_of_mem)
    · rintro rfl
      rcases early with above | member
      · have below : other.call < calls := ledger.past _ (by simp)
        omega
      · exact fresh.1 (Multiset.mem_add.mpr (.inr member))
  · intro other otherValid
    by_cases same : other = handle
    · rw [same, moved]
      simp
    · rw [others other same]
      exact ledger.lawful other otherValid
  · intro other otherValid found unreleased known
    by_cases same : other = handle
    · subst same
      rw [moved] at known
      obtain rfl := Option.some.inj known
      exact Multiset.mem_cons_self _ _
    · rw [others other same] at known
      exact Multiset.mem_cons_of_mem (ledger.owned other otherValid found unreleased known)

/-- A valid handle that was opened has a release unless it has a token. -/
theorem released_of_no_tokens (ledger : Ledger log calls 0 births) (valid : handle.IsValid) :
    lease handle log ≠ some .alive ∧ lease handle log ≠ some .taken := by
  constructor
  · intro known
    have member := ledger.owned handle valid .alive (.inl rfl) known
    simp at member
  · intro known
    have member := ledger.owned handle valid .taken (.inr rfl) known
    simp at member

end Ledger

end TinySandbox.Portable
