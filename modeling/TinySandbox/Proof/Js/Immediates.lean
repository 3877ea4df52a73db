/-
This file shows that the immediates of a guest are taken in the order in which they were made.
-/

import TinySandbox.Specification.Turns

namespace TinySandbox.Js.ImmediateQueue
variable {queue : ImmediateQueue} {number : Nat} {immediate : Immediate}

section Counts

/-- Changing one item of a list changes the count by that item. -/
theorem countP_set_int {α : Type} (holds : α → Bool) {items : List α} {place : Nat} {old : α}
    (new : α) (found : items[place]? = some old) :
    ((items.set place new).countP holds : ℤ) =
      (items.countP holds : ℤ) - (if holds old then 1 else 0) + if holds new then 1 else 0 := by
  induction items generalizing place with
  | nil => simp at found
  | cons item rest ih =>
      cases place with
      | zero =>
          obtain rfl := Option.some.inj found
          simp only [List.set_cons_zero, List.countP_cons]
          split <;> split <;> push_cast <;> omega
      | succ place =>
          rw [List.getElem?_cons_succ] at found
          simp only [List.set_cons_succ, List.countP_cons, Nat.cast_add]
          rw [ih found]
          ring

theorem queued_eq (found : queue.made[number]? = some immediate) :
    queue.queued number = immediate.queued := by
  unfold queued
  rw [found]
  rfl

theorem made_of_queued (waits : queue.queued number = true) :
    ∃ immediate, queue.made[number]? = some immediate ∧ immediate.queued = true := by
  unfold queued at waits
  cases found : queue.made[number]? with
  | none =>
      rw [found] at waits
      contradiction
  | some immediate =>
      rw [found] at waits
      exact ⟨immediate, rfl, waits⟩

theorem queued_set (made : List Immediate) (found : made[number]? = some immediate)
    (new : Immediate) (other : Nat) :
    ((made.set number new)[other]?).any Immediate.queued =
      if other = number then new.queued else (made[other]?).any Immediate.queued := by
  have inside := (List.getElem?_eq_some_iff.mp found).1
  split
  · next same =>
      subst same
      rw [List.getElem?_set_self inside]
      rfl
  · next different => rw [List.getElem?_set_ne (Ne.symm different)]

end Counts

section Calls

/-- One immediate is changed, and it is not queued anew. -/
theorem Kept.revise (kept : queue.Kept) (found : queue.made[number]? = some immediate)
    (new : Immediate) (fewer : new.queued = true → immediate.queued = true) {queued refed : Int}
    (counted : queued = ((queue.made.set number new).countP Immediate.queued : ℤ))
    (refs : refed = ((queue.made.set number new).countP
      fun immediate => immediate.queued && immediate.ref : ℤ)) :
    Kept { queue with
      made := queue.made.set number new
      queuedImmediates := queued
      refedImmediates := refed } := by
  have length : (queue.made.set number new).length = queue.made.length := List.length_set
  have first : ImmediateQueue.first { queue with
      made := queue.made.set number new
      queuedImmediates := queued
      refedImmediates := refed } = queue.first := by
    unfold ImmediateQueue.first
    rw [length]
  constructor
  · exact kept.head
  · rw [length]
    exact kept.fits
  · rw [first]
    exact kept.numbered
  · intro other waits
    rw [first]
    apply kept.behind
    unfold ImmediateQueue.queued at waits ⊢
    rw [queued_set queue.made found] at waits
    split at waits
    · next same => rw [same, found, Option.any_some, fewer waits]
    · exact waits
  · exact kept.within
  · exact counted
  · exact refs

theorem Kept.setImmediateRef (kept : queue.Kept) (number : Nat) (ref : Bool) :
    (queue.setImmediateRef number ref).Kept := by
  unfold ImmediateQueue.setImmediateRef
  split
  · exact kept
  · next immediate found =>
      apply kept.revise found
      · exact fun waits => waits
      · rw [countP_set_int Immediate.queued _ found, kept.counted]
        ring
      · rw [countP_set_int (fun immediate => immediate.queued && immediate.ref) _ found, kept.refs]
        cases immediate.queued <;> cases immediate.ref <;> cases ref
        all_goals simp
        ring

theorem Kept.dequeueImmediate (kept : queue.Kept) (number : Nat) :
    (queue.dequeueImmediate number).Kept := by
  unfold ImmediateQueue.dequeueImmediate
  split
  · exact kept
  · next immediate found =>
      split
      · next waits =>
          apply kept.revise found
          · exact fun waits => absurd waits (by simp)
          · rw [countP_set_int Immediate.queued _ found, kept.counted, waits]
            simp
          · rw [countP_set_int (fun immediate => immediate.queued && immediate.ref) _ found,
              kept.refs, waits]
            cases immediate.ref <;> simp
      · exact kept

theorem Kept.setImmediate (kept : queue.Kept) (callable : Bool) :
    (queue.setImmediate callable).2.Kept := by
  unfold ImmediateQueue.setImmediate
  split
  · have head := kept.head
    have fits := kept.fits
    have within := kept.within
    have first : ImmediateQueue.first { queue with
        made := queue.made ++ [{ ref := true, queued := true }]
        immediates := queue.immediates ++ [some queue.made.length]
        queuedImmediates := queue.queuedImmediates + 1
        refedImmediates := queue.refedImmediates + 1 } = queue.first := by
      unfold ImmediateQueue.first
      simp only [List.length_append, List.length_singleton]
      omega
    constructor
    · simp only [List.length_append, List.length_singleton]
      omega
    · simp only [List.length_append, List.length_singleton]
      omega
    · intro place behind inside
      rw [first]
      simp only [List.length_append, List.length_singleton] at behind inside ⊢
      rcases Nat.lt_or_ge place queue.immediates.length with old | last
      · rw [List.getElem?_append_left old]
        exact kept.numbered place behind old
      · obtain rfl : place = queue.immediates.length := by omega
        rw [List.getElem?_concat_length]
        unfold ImmediateQueue.first
        congr 2
        omega
    · intro number waits
      rw [first]
      unfold ImmediateQueue.queued at waits
      rcases Nat.lt_or_ge number queue.made.length with old | last
      · rw [List.getElem?_append_left old] at waits
        exact kept.behind number waits
      · exact (Nat.sub_le _ _).trans last
    · simp only [List.length_append, List.length_singleton]
      omega
    · simp [kept.counted]
    · simp [kept.refs]
  · exact kept

/-- The calls of the guest only add immediates at the end and drop some. -/
structure Grows (before after : ImmediateQueue) (dropped : List Nat) : Prop where
  first : after.first = before.first
  limit : after.limit = before.limit
  longer : before.made.length ≤ after.made.length
  kept : ∀ number, number < before.made.length → before.queued number = true →
    after.queued number = true ∨ number ∈ dropped
  new : ∀ number, before.made.length ≤ number → number < after.made.length →
    after.queued number = true
  old : ∀ number, number < before.made.length → after.queued number = true →
    before.queued number = true

theorem Grows.refl (queue : ImmediateQueue) (dropped : List Nat) : queue.Grows queue dropped where
  first := rfl
  limit := rfl
  longer := le_rfl
  kept := fun _ _ waits => Or.inl waits
  new := fun _ behind before => absurd before (Nat.not_lt.mpr behind)
  old := fun _ _ waits => waits

theorem Grows.setImmediateRef (number : Nat) (ref : Bool) :
    queue.Grows (queue.setImmediateRef number ref) [] := by
  unfold ImmediateQueue.setImmediateRef
  split
  · exact Grows.refl queue []
  · next immediate found =>
      have length : (queue.made.set number { immediate with ref }).length = queue.made.length :=
        List.length_set
      have same : ∀ other, ((queue.made.set number { immediate with ref })[other]?).any
          Immediate.queued = queue.queued other := by
        intro other
        rw [queued_set queue.made found]
        split
        · next here => rw [here, queued_eq found]
        · rfl
      constructor
      · unfold ImmediateQueue.first
        rw [length]
      · unfold ImmediateQueue.limit ImmediateQueue.first
        rw [length]
      · exact length.ge
      · intro other _ waits
        exact Or.inl ((same other).trans waits)
      · intro other behind before
        exact absurd (length ▸ before) (Nat.not_lt.mpr behind)
      · intro other _ waits
        exact (same other).symm.trans waits

end Calls

section Turns

theorem Kept.begin (kept : queue.Kept) (done : queue.immediateBudget = 0) :
    queue.begin.Kept ∧ queue.begin.first = queue.first := by
  have length : (queue.immediates.drop queue.immediateHead).length =
      queue.immediates.length - queue.immediateHead := List.length_drop
  have first : queue.begin.first = queue.first := by
    unfold ImmediateQueue.first ImmediateQueue.begin
    rw [length, Nat.sub_zero]
  refine ⟨?_, first⟩
  constructor
  · exact Nat.zero_le _
  · show (queue.immediates.drop queue.immediateHead).length - 0 ≤ queue.made.length
    rw [length, Nat.sub_zero]
    exact kept.fits
  · intro place _ inside
    change place < (queue.immediates.drop queue.immediateHead).length at inside
    rw [length] at inside
    rw [first]
    show (queue.immediates.drop queue.immediateHead)[place]? =
      some (some (queue.first + (place - 0)))
    rw [List.getElem?_drop, kept.numbered _ (Nat.le_add_right _ _) (by omega),
      Nat.add_sub_cancel_left, Nat.sub_zero]
  · intro number waits
    rw [first]
    exact kept.behind number waits
  · show queue.immediateBudget ≤ _
    rw [done]
    exact Nat.zero_le _
  · exact kept.counted
  · exact kept.refs

theorem Kept.budget (kept : queue.Kept) :
    queue.budget.Kept ∧ queue.budget.first = queue.first ∧
      queue.budget.limit = queue.made.length := by
  refine ⟨?_, rfl, ?_⟩
  · constructor
    · exact kept.head
    · exact kept.fits
    · exact kept.numbered
    · exact kept.behind
    · exact le_rfl
    · exact kept.counted
    · exact kept.refs
  · show queue.first + (queue.immediates.length - queue.immediateHead) = queue.made.length
    have fits := kept.fits
    unfold ImmediateQueue.first
    omega

theorem first_take (kept : queue.Kept) (more : queue.immediateHead < queue.immediates.length) :
    queue.take.first = queue.first + 1 := by
  have fits := kept.fits
  show queue.made.length - ((queue.immediates.set queue.immediateHead none).length -
    (queue.immediateHead + 1)) = queue.made.length -
      (queue.immediates.length - queue.immediateHead) + 1
  rw [List.length_set]
  omega

/-- An immediate that is not queued may be taken. -/
theorem Kept.take (kept : queue.Kept) (more : queue.immediateHead < queue.immediates.length)
    (idle : queue.queued queue.first = false) : queue.take.Kept := by
  have head := kept.head
  have fits := kept.fits
  have within := kept.within
  have length : queue.take.immediates.length = queue.immediates.length := List.length_set
  have first := first_take kept more
  have next : queue.take.immediateHead = queue.immediateHead + 1 := rfl
  constructor
  · rw [length]
    exact more
  · rw [length, next]
    show _ ≤ queue.made.length
    omega
  · intro place behind inside
    rw [next] at behind
    rw [length] at inside
    rw [first, next]
    show (queue.immediates.set queue.immediateHead none)[place]? = _
    rw [List.getElem?_set_ne (by omega), kept.numbered place (by omega) inside]
    congr 2
    omega
  · intro number waits
    rw [first]
    have old : queue.queued number = true := waits
    have before := kept.behind number old
    have different : number ≠ queue.first := by
      intro same
      rw [same, idle] at old
      contradiction
    omega
  · rw [length, next]
    show queue.immediateBudget - 1 ≤ _
    omega
  · exact kept.counted
  · exact kept.refs

theorem dequeue_take (number : Nat) :
    queue.take.dequeueImmediate number = (queue.dequeueImmediate number).take := by
  have made : queue.take.made = queue.made := rfl
  unfold ImmediateQueue.dequeueImmediate
  cases found : queue.made[number]? with
  | none => simp only [made, found]
  | some immediate =>
      simp only [made, found]
      split
      · rfl
      · rfl

theorem queued_dequeueImmediate (queue : ImmediateQueue) (number other : Nat) :
    (queue.dequeueImmediate number).queued other = (queue.queued other && other != number) := by
  unfold ImmediateQueue.dequeueImmediate
  split
  · next none =>
      cases here : other != number with
      | true => rw [Bool.and_true]
      | false =>
          obtain rfl := bne_eq_false_iff_eq.mp here
          unfold queued
          rw [none]
          rfl
  · next immediate found =>
      split
      · unfold queued
        show ((queue.made.set number _)[other]?).any _ = _
        rw [queued_set queue.made found]
        split
        · next same => simp [same]
        · next different => simp [different]
      · next idle =>
          cases here : other != number with
          | true => rw [Bool.and_true]
          | false =>
              rw [bne_eq_false_iff_eq.mp here, queued_eq found, Bool.and_false]
              exact Bool.not_eq_true _ ▸ idle

theorem first_dequeueImmediate (queue : ImmediateQueue) (number : Nat) :
    (queue.dequeueImmediate number).first = queue.first := by
  unfold ImmediateQueue.dequeueImmediate
  split
  · rfl
  · split
    · unfold first
      rw [List.length_set]
    · rfl

theorem immediates_dequeueImmediate (queue : ImmediateQueue) (number : Nat) :
    (queue.dequeueImmediate number).immediates = queue.immediates ∧
      (queue.dequeueImmediate number).immediateHead = queue.immediateHead ∧
        (queue.dequeueImmediate number).immediateBudget = queue.immediateBudget := by
  unfold ImmediateQueue.dequeueImmediate
  split
  · exact ⟨rfl, rfl, rfl⟩
  · split
    · exact ⟨rfl, rfl, rfl⟩
    · exact ⟨rfl, rfl, rfl⟩

theorem length_made_dequeueImmediate (queue : ImmediateQueue) (number : Nat) :
    (queue.dequeueImmediate number).made.length = queue.made.length := by
  unfold ImmediateQueue.dequeueImmediate
  split
  · rfl
  · split
    · exact List.length_set
    · rfl

theorem Grows.dequeueImmediate (number : Nat) :
    queue.Grows (queue.dequeueImmediate number) [number] where
  first := first_dequeueImmediate queue number
  limit := by
    unfold ImmediateQueue.limit
    rw [first_dequeueImmediate, (immediates_dequeueImmediate queue number).2.2]
  longer := (length_made_dequeueImmediate queue number).ge
  kept := by
    intro other _ waits
    rw [queued_dequeueImmediate, waits, Bool.true_and, bne_iff_ne, List.mem_singleton]
    exact (ne_or_eq other number)
  new := by
    intro other behind before
    rw [length_made_dequeueImmediate] at before
    exact absurd before (Nat.not_lt.mpr behind)
  old := by
    intro other _ waits
    rw [queued_dequeueImmediate] at waits
    exact (Bool.and_eq_true_iff.mp waits).1

theorem Grows.setImmediate (kept : queue.Kept) (callable : Bool) :
    queue.Grows (queue.setImmediate callable).2 [] := by
  have fits := kept.fits
  have head := kept.head
  unfold ImmediateQueue.setImmediate
  split
  · constructor
    · unfold ImmediateQueue.first
      simp only [List.length_append, List.length_singleton]
      omega
    · unfold ImmediateQueue.limit ImmediateQueue.first
      simp only [List.length_append, List.length_singleton]
      omega
    · simp
    · intro number inside waits
      left
      unfold ImmediateQueue.queued at waits ⊢
      rwa [List.getElem?_append_left inside]
    · intro number behind before
      rw [List.length_append, List.length_singleton] at before
      obtain rfl : number = queue.made.length := by omega
      unfold ImmediateQueue.queued
      rw [List.getElem?_concat_length]
      rfl
    · intro number inside waits
      unfold ImmediateQueue.queued at waits ⊢
      rwa [List.getElem?_append_left inside] at waits
  · exact Grows.refl queue []

theorem Takes.after_skip {middle after : ImmediateQueue} (first : middle.first = queue.first + 1)
    (limit : middle.limit = queue.limit) (made : middle.made.length = queue.made.length)
    (same : middle.queued = queue.queued) (idle : queue.queued queue.first = false)
    (takes : middle.Takes number after) : queue.Takes number after where
  behind := by
    have behind := takes.behind
    omega
  below := limit ▸ takes.below
  waits := same ▸ takes.waits
  skipped := by
    intro other behind before
    rcases Nat.eq_or_lt_of_le behind with rfl | later
    · exact idle
    · rw [← same]
      exact takes.skipped other (first ▸ later) before
  first := takes.first
  limit := takes.limit.trans limit
  made := takes.made.trans made
  others := by
    intro other
    rw [takes.others, same]

theorem Exhausts.after_skip {middle after : ImmediateQueue}
    (limit : middle.limit = queue.limit) (made : middle.made.length = queue.made.length)
    (same : middle.queued = queue.queued) (exhausts : middle.Exhausts after) :
    queue.Exhausts after where
  idle := by
    intro other below
    rw [← same]
    exact exhausts.idle other (limit ▸ below)
  first := exhausts.first.trans limit
  limit := exhausts.limit.trans limit
  made := exhausts.made.trans made
  others := by
    intro other
    rw [exhausts.others, same]

theorem Exhausts.spent {after : ImmediateQueue} (exhausts : queue.Exhausts after) :
    after.immediateBudget = 0 := by
  have limit := exhausts.limit
  rw [← exhausts.first] at limit
  unfold ImmediateQueue.limit at limit
  omega

/-- The immediates run in their order, and the list never gives an empty place. -/
theorem Kept.runImmediates (budget : Nat) (kept : queue.Kept)
    (left : queue.immediateBudget = budget) :
    (queue.runImmediates budget).2.Kept ∧
      ((∃ number, (queue.runImmediates budget).1 = .callback number ∧
        queue.Takes number (queue.runImmediates budget).2) ∨
      ((queue.runImmediates budget).1 = .nothing ∧
        queue.Exhausts (queue.runImmediates budget).2)) := by
  induction budget generalizing queue with
  | zero =>
      have limit : queue.limit = queue.first := by
        unfold ImmediateQueue.limit
        rw [left, Nat.add_zero]
      refine ⟨kept, Or.inr ⟨rfl, ?_⟩⟩
      constructor
      · intro other below
        rw [limit] at below
        rw [← Bool.not_eq_true]
        intro waits
        exact absurd (kept.behind other waits) (Nat.not_le.mpr below)
      · exact limit.symm
      · rfl
      · rfl
      · exact fun _ => rfl
  | succ budget ih =>
      have within := kept.within
      have more : queue.immediateHead < queue.immediates.length := by omega
      have place := kept.numbered queue.immediateHead le_rfl more
      rw [Nat.sub_self, Nat.add_zero] at place
      have inside : queue.first < queue.made.length := by
        have fits := kept.fits
        unfold ImmediateQueue.first
        omega
      have limit : queue.take.limit = queue.limit := by
        unfold ImmediateQueue.limit
        rw [first_take kept more]
        show _ + (queue.immediateBudget - 1) = _
        omega
      have found := List.getElem?_eq_getElem inside
      generalize queue.made[queue.first] = immediate at found
      have queued := queued_eq found
      unfold ImmediateQueue.runImmediates
      rw [place]
      dsimp only
      rw [found]
      dsimp only
      cases waits : immediate.queued with
      | true =>
          rw [waits] at queued
          rw [if_pos rfl, dequeue_take]
          obtain ⟨places, head, allowed⟩ := immediates_dequeueImmediate queue queue.first
          have same := first_dequeueImmediate queue queue.first
          have dequeued := kept.dequeueImmediate queue.first
          have more : (queue.dequeueImmediate queue.first).immediateHead <
              (queue.dequeueImmediate queue.first).immediates.length := by
            rw [places, head]
            exact more
          have idle : (queue.dequeueImmediate queue.first).queued
              (queue.dequeueImmediate queue.first).first = false := by
            rw [queued_dequeueImmediate, same, bne_self_eq_false, Bool.and_false]
          have next := first_take dequeued more
          rw [same] at next
          refine ⟨dequeued.take more idle, Or.inl ⟨queue.first, rfl, ?_⟩⟩
          constructor
          · exact le_rfl
          · unfold ImmediateQueue.limit
            omega
          · exact queued
          · exact fun other behind before => absurd behind (Nat.not_le.mpr before)
          · exact next
          · unfold ImmediateQueue.limit
            rw [next]
            show _ + ((queue.dequeueImmediate queue.first).immediateBudget - 1) = _
            omega
          · exact length_made_dequeueImmediate queue queue.first
          · exact queued_dequeueImmediate queue queue.first
      | false =>
          rw [waits] at queued
          rw [if_neg (by simp)]
          obtain ⟨after, runs⟩ := ih (kept.take more queued) (by
            show queue.immediateBudget - 1 = budget
            omega)
          refine ⟨after, ?_⟩
          rcases runs with ⟨number, runs, takes⟩ | ⟨ends, exhausts⟩
          · exact Or.inl ⟨number, runs, takes.after_skip (first_take kept more) limit rfl rfl
              queued⟩
          · exact Or.inr ⟨ends, exhausts.after_skip limit rfl rfl⟩

end Turns

end TinySandbox.Js.ImmediateQueue
