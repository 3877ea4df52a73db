/-
This file shows that no multipart upload is left behind, whatever the order of the callers.
-/

import TinySandbox.Proof.S3.SharedHandles

namespace TinySandbox.S3
open Library Library.Task

/-- The requests that name an upload, from all handles and in order. -/
def requestsNaming (id : Text) (log : List (Nat × S3Event)) : List S3Event :=
  (log.map Prod.snd).filter fun event => event.1.uploadId? = some id

/-- The upload was completed or aborted once, and no request named it afterwards. -/
def Settled (id : Text) (log : List (Nat × S3Event)) : Prop :=
  ∃ earlier last, requestsNaming id log = earlier ++ [last] ∧
    (Completed last ∨ last.1.isAbort = true) ∧
    ∀ event ∈ earlier, ¬ Completed event ∧ event.1.isAbort = false

/-- The handle was closed, aborted, or failed, or the filesystem was dropped. -/
def Shared.Over (shared : Shared) (handle : Nat) : Prop :=
  shared.dropped = true ∨ ∃ cell, shared.cells handle = some cell ∧
    (cell.released = true ∨ ∃ error, cell.staging = .failed error)

section Silence
variable {vfs : S3Vfs} {shared after : Shared} {handle : Nat} {cell : HandleState}

/-- The log of a handle grows by reads only. -/
def OnlyReads (handle : Nat) (shared after : Shared) : Prop :=
  ∃ new, after.logOf handle = shared.logOf handle ++ new ∧ Gets new

theorem onlyReads_of_same (same : after.logOf handle = shared.logOf handle) :
    OnlyReads handle shared after :=
  ⟨[], by rw [same, List.append_nil], by simp [Gets]⟩

theorem step_released (step : Shared.Step vfs shared after) (valid : shared.Valid vfs)
    (found : shared.cells handle = some cell) (released : cell.released = true) :
    OnlyReads handle shared after ∧
      ∃ cell, after.cells handle = some cell ∧ cell.released = true := by
  cases step with
  | opens alive opened =>
      have other : handle ≠ shared.nextHandle := by
        rintro rfl
        simp [valid.unused _ le_rfl] at found
      exact ⟨onlyReads_of_same rfl, cell, by simpa [other] using found, released⟩
  | resolves op alive present keeps => exact ⟨onlyReads_of_same rfl, cell, found, released⟩
  | removes op alive present releases => exact ⟨onlyReads_of_same rfl, cell, found, released⟩
  | pins alive waits present pinned => exact ⟨onlyReads_of_same rfl, cell, found, released⟩
  | runs alive waits present locked ran =>
      rename_i number op before later busy next events result
      rcases eq_or_ne number handle with rfl | other
      · obtain rfl := Option.some.inj (found.symm.trans present)
        have keeps := valid.released_keeps alive waits found released
        have body : (op.body vfs).Wp cell [] _ _ := body_released op released keeps
        cases result with
        | ok value => exact (body.ok ran).elim
        | error error =>
            obtain ⟨rfl, silent⟩ := body.error ran
            obtain rfl : events = [] := silent
            refine ⟨onlyReads_of_same ?_, next, by simp, released⟩
            rw [logOf_eq]
            simp [logOf_eq]
      · refine ⟨onlyReads_of_same ?_, cell, by simpa [other.symm] using found, released⟩
        simp only [logOf_eq, eventsOf_append, eventsOf_tagged, if_neg other, List.append_nil]
  | fetches alive waits ran =>
      have empty : Gets [] := by simp [Gets]
      have gets := (readRemote_gets _ _ _ _ empty).either ran
      refine ⟨⟨_, by rw [logOf_eq, eventsOf_append, eventsOf_tagged, logOf_eq], ?_⟩, cell, found,
        released⟩
      split
      · exact gets
      · exact empty
  | drops alive idle dropped =>
      have tickets := valid.once alive handle cell found
      simp only [Shared.tickets, released, Bool.toNat_true] at tickets
      refine ⟨onlyReads_of_same ?_, cell, found, released⟩
      simp only [logOf_eq, eventsOf_append]
      rw [(drops_eventsOf dropped found).1 (by omega), List.append_nil]

/-- Callers that resolved a handle before it was released cannot change anything through it. -/
theorem reaches_released (reaches : Shared.Reaches vfs shared after) (valid : shared.Valid vfs)
    (found : shared.cells handle = some cell) (released : cell.released = true) :
    OnlyReads handle shared after ∧
      ∃ cell, after.cells handle = some cell ∧ cell.released = true := by
  induction reaches with
  | refl => exact ⟨onlyReads_of_same rfl, cell, found, released⟩
  | tail earlier step ih =>
      obtain ⟨⟨new, grown, gets⟩, middle, present, released⟩ := ih
      obtain ⟨⟨more, longer, reads⟩, last⟩ :=
        step_released step (Shared.Reaches.valid earlier valid) present released
      refine ⟨⟨new ++ more, by rw [longer, grown, List.append_assoc], ?_⟩, last⟩
      intro event member
      rcases List.mem_append.mp member with old | recent
      · exact gets event old
      · exact reads event recent

end Silence

section Naming
variable {log : List S3Event} {ended : Prop} {id : Text}

/-- A handle names only the upload that it created. -/
theorem UploadLog.created (uploads : UploadLog ended log) {event : S3Event} (member : event ∈ log)
    (named : event.1.uploadId? = some id) : ∃ first ∈ log, created? first = some id := by
  rcases uploads with none | ⟨first, own, parts, tail, rfl, made, unnamed, sent, closing⟩
  · rw [(none event member).2] at named
    cases named
  · refine ⟨first, List.mem_cons_self, ?_⟩
    rcases List.mem_cons.mp member with rfl | later
    · rw [unnamed] at named
      cases named
    · rcases List.mem_append.mp later with part | last
      · rw [made, ← (sent event part).2, named]
      · rcases closing with ⟨rfl, -⟩ | closing
        · cases last
        · rw [made, ← closing.named event last, named]

/-- The requests of a handle that name its upload. -/
theorem UploadLog.naming (uploads : UploadLog ended log) {first : S3Event} (member : first ∈ log)
    (made : created? first = some id) :
    ∃ parts tail, (log.filter fun event => event.1.uploadId? = some id) = parts ++ tail ∧
      (∀ event ∈ parts, IsPart event) ∧ ((tail = [] ∧ ¬ ended) ∨ Closing id tail) := by
  rcases uploads with none | ⟨opening, own, parts, tail, rfl, creates, unnamed, sent, closing⟩
  · rw [(none first member).1] at made
    cases made
  · have all : ∀ event ∈ parts ++ tail, event.1.uploadId? = some own := by
      intro event later
      rcases List.mem_append.mp later with part | last
      · exact (sent event part).2
      · rcases closing with ⟨rfl, -⟩ | closing
        · cases last
        · exact closing.named event last
    obtain rfl : own = id := by
      rcases List.mem_cons.mp member with rfl | later
      · exact Option.some.inj (creates.symm.trans made)
      · rw [created?_of_named (all first later)] at made
        cases made
    refine ⟨parts, tail, ?_, fun event part => (sent event part).1, closing⟩
    rw [List.filter_cons_of_neg (by simp [unnamed]), List.filter_eq_self.mpr (by simpa using all)]

/-- Only one handle names an upload, so its own log has all requests that name it. -/
theorem requestsNaming_eq {log : List (Nat × S3Event)} {handle : Nat}
    (owned : ∀ entry ∈ log, entry.2.1.uploadId? = some id → entry.1 = handle) :
    requestsNaming id log =
      (eventsOf handle log).filter fun event => event.1.uploadId? = some id := by
  unfold requestsNaming eventsOf
  induction log with
  | nil => rfl
  | cons entry rest ih =>
      have others := ih fun other member => owned other (List.mem_cons_of_mem _ member)
      by_cases named : entry.2.1.uploadId? = some id
      · have mine := owned entry List.mem_cons_self named
        simp [mine, named, others]
      · by_cases mine : entry.1 = handle
        · simp [mine, named, others]
        · simp [mine, named, others]

end Naming

/-- An upload id is created once. -/
theorem eq_of_filterMap_nodup {α β : Type} {image : α → Option β} {list : List α}
    (distinct : (list.filterMap image).Nodup) {first second : α} (left : first ∈ list)
    (right : second ∈ list) {value : β} (one : image first = some value)
    (two : image second = some value) : first = second := by
  induction list with
  | nil => cases left
  | cons entry rest ih =>
      rcases List.mem_cons.mp left with rfl | before <;>
        rcases List.mem_cons.mp right with rfl | after
      · rfl
      · rw [List.filterMap_cons_some one, List.nodup_cons] at distinct
        exact absurd (List.mem_filterMap.mpr ⟨second, after, two⟩) distinct.1
      · rw [List.filterMap_cons_some two, List.nodup_cons] at distinct
        exact absurd (List.mem_filterMap.mpr ⟨first, before, one⟩) distinct.1
      · refine ih ?_ before after
        cases made : image entry with
        | none => rwa [List.filterMap_cons_none made] at distinct
        | some found =>
            rw [List.filterMap_cons_some made, List.nodup_cons] at distinct
            exact distinct.2

section Uploads
variable {vfs : S3Vfs} {shared : Shared} {handle : Nat} {id : Text} {event : S3Event}

theorem mem_logOf_iff : event ∈ shared.logOf handle ↔ (handle, event) ∈ shared.log := by
  unfold Shared.logOf
  rw [List.mem_filterMap]
  constructor
  · rintro ⟨⟨number, other⟩, member, same⟩
    split at same
    · rename_i mine
      obtain rfl : number = handle := mine
      obtain rfl := Option.some.inj same
      exact member
    · cases same
  · intro member
    exact ⟨(handle, event), member, by simp⟩

/-- The log of a handle has at most one upload, which has ended when the handle is over. -/
theorem Shared.Valid.uploadLog (valid : shared.Valid vfs) (handle : Nat) :
    UploadLog (shared.Over handle) (shared.logOf handle) := by
  cases found : shared.cells handle with
  | none =>
      rw [valid.silent handle found]
      exact .inl (by simp)
  | some cell =>
      obtain ⟨precondition, sent⟩ := valid.sent handle cell found
      have uploads := sent.uploadLog
      rcases uploads with none | ⟨first, own, parts, tail, same, made, unnamed, sent, closing⟩
      · exact .inl none
      · refine .inr ⟨first, own, parts, tail, same, made, unnamed, sent, ?_⟩
        refine closing.imp_left fun ⟨empty, unended⟩ => ⟨empty, ?_⟩
        rintro (gone | ⟨other, present, finished⟩)
        · exact unended (.inr (.inr gone))
        · obtain rfl := Option.some.inj (present.symm.trans found)
          exact unended (finished.imp_right .inl)

/-- The requests that name a created upload are those of the handle that created it. -/
theorem Shared.Valid.naming (valid : shared.Valid vfs)
    (distinct : (shared.log.filterMap fun entry => created? entry.2).Nodup)
    (member : (handle, event) ∈ shared.log) (made : created? event = some id) :
    ∃ parts tail, requestsNaming id shared.log = parts ++ tail ∧ (∀ event ∈ parts, IsPart event) ∧
      ((tail = [] ∧ ¬ shared.Over handle) ∨ Closing id tail) := by
  have owned : ∀ entry ∈ shared.log, entry.2.1.uploadId? = some id → entry.1 = handle := by
    rintro ⟨number, other⟩ present named
    obtain ⟨first, begun, creates⟩ :=
      (valid.uploadLog number).created (mem_logOf_iff.mpr present) named
    have same := eq_of_filterMap_nodup distinct (mem_logOf_iff.mp begun) member creates made
    exact congrArg Prod.fst same
  rw [requestsNaming_eq owned]
  exact (valid.uploadLog handle).naming (mem_logOf_iff.mpr member) made

end Uploads

/-- After a release a handle only reads. An upload is completed at most once. When its handle is
over, it was completed or aborted once, and nothing named it afterwards. -/
theorem uploads_are_settled (vfs : S3Vfs) {shared : Shared}
    (reached : Shared.Reaches vfs Shared.new shared)
    (distinct : (shared.log.filterMap fun entry => created? entry.2).Nodup) :
    (∀ handle cell after, shared.cells handle = some cell → cell.released = true →
      Shared.Reaches vfs shared after → OnlyReads handle shared after) ∧
    (∀ id, ((requestsNaming id shared.log).filter fun event => event.1.isComplete).length ≤ 1) ∧
    (∀ handle event id, (handle, event) ∈ shared.log → created? event = some id →
      shared.Over handle → Settled id shared.log) := by
  have valid := Shared.Reaches.valid reached (Shared.new_valid vfs)
  refine ⟨?_, ?_, ?_⟩
  · intro handle cell after found released reaches
    exact (reaches_released reaches valid found released).1
  · intro id
    by_cases made : ∃ entry ∈ shared.log, created? entry.2 = some id
    · obtain ⟨⟨handle, event⟩, member, made⟩ := made
      obtain ⟨parts, tail, named, uploaded, closing⟩ := valid.naming distinct member made
      rw [named, List.filter_append, List.filter_eq_nil_iff.mpr fun event part => by
        simp [(uploaded event part).plain.2.2], List.nil_append]
      rcases closing with ⟨rfl, -⟩ | closing
      · simp
      · exact closing.completes_once
    · have unnamed : requestsNaming id shared.log = [] := by
        refine List.filter_eq_nil_iff.mpr fun event listed => ?_
        obtain ⟨⟨handle, event⟩, member, rfl⟩ := List.mem_map.mp listed
        intro named
        obtain ⟨first, begun, creates⟩ := (valid.uploadLog handle).created
          (mem_logOf_iff.mpr member) (by simpa using named)
        exact made ⟨(handle, first), mem_logOf_iff.mp begun, creates⟩
      simp [unnamed]
  · intro handle event id member made finished
    obtain ⟨parts, tail, named, uploaded, closing⟩ := valid.naming distinct member made
    obtain ⟨earlier, last, rfl, ends, plain⟩ :=
      (closing.resolve_left fun unended => unended.2 finished).last
    refine ⟨parts ++ earlier, last, by rw [named, List.append_assoc], ends, ?_⟩
    intro other before
    rcases List.mem_append.mp before with part | early
    · exact ⟨(uploaded other part).plain.1, (uploaded other part).plain.2.1⟩
    · exact plain other early

/-- A handle of the sample filesystem that has opened a new file for writing. -/
def openedCell : HandleState where
  key := ['f']
  mode := { write := true, create := true }
  staging := .stream (Stream.new .none)
  released := false

/-- The stream of that handle after it has uploaded one part. -/
def uploadedStream : Stream where
  flushed := 8
  buffer := []
  upload := some { id := ['u'], parts := [{ partNumber := 1, etag := ['p'] }] }
  precondition := .none

theorem openedCell_opens : ∃ probes, (S3Vfs.sample.openHandle "/f".toList openedCell.mode).Runs ()
    probes (.ok openedCell) () :=
  ⟨_, .ok { objects := [], commonPrefixes := [], truncated := false, nextContinuation := none }, _,
    rfl, .error .missing, _, rfl, rfl, rfl⟩

theorem openedCell_writes : ((HandleOp.write 0 (List.replicate 8 7)).body .sample).Runs openedCell
    [⟨.createUpload ['b'] ['f'], .ok ['u']⟩,
      ⟨.uploadPart ['b'] ['f'] ['u'] 1 (List.replicate 8 7), .ok ['p']⟩] (.ok ())
    { openedCell with staging := .stream uploadedStream } :=
  ⟨.ok ['u'], _, rfl, .ok ['p'], _, rfl, rfl, rfl⟩

theorem openedCell_aborts : (HandleOp.abort.body .sample).Runs
    { openedCell with staging := .stream uploadedStream }
    [⟨.abortUpload ['b'] ['f'] ['u'], .error .io⟩] (.error Errno.EIO)
    { openedCell with staging := .stream uploadedStream, released := true } :=
  ⟨.error .io, _, rfl, rfl, rfl⟩

theorem uploads_are_settled_aborted : ∃ shared, Shared.Reaches .sample Shared.new shared ∧
    Settled ['u'] shared.log := by
  obtain ⟨probes, opened⟩ := openedCell_opens
  have first := Relation.ReflTransGen.single
    (show Shared.Step .sample Shared.new _ from .opens rfl opened)
  have second := first.tail (.resolves (.write 0 (List.replicate 8 7)) rfl
    (show 1 ∈ _ from List.mem_singleton.mpr rfl) rfl)
  have third := second.tail (.runs rfl (show _ = [] ++ Caller.waiting 1 _ :: [] from rfl) rfl
    (fun _ _ _ reads => by cases reads) openedCell_writes)
  have fourth := third.tail (.removes .abort rfl (show 1 ∈ _ from List.mem_singleton.mpr rfl) rfl)
  have fifth := fourth.tail (.runs rfl (show _ = [] ++ Caller.waiting 1 _ :: [] from rfl) rfl
    (fun _ _ _ reads => by cases reads) openedCell_aborts)
  refine ⟨_, fifth, (uploads_are_settled .sample fifth (by decide)).2.2 1
    ⟨.createUpload ['b'] ['f'], .ok ['u']⟩ ['u'] (by simp [Shared.new]) rfl ?_⟩
  exact .inr ⟨_, rfl, .inl rfl⟩

end TinySandbox.S3
