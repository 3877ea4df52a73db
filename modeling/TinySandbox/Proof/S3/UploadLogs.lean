/-
This file reads off the log of one handle how its multipart upload ended.
-/

import TinySandbox.Proof.S3.Cells

namespace TinySandbox.S3
open Library

/-- The upload that a request names. -/
def Request.uploadId? : Request → Option Text
  | .uploadPart _ _ id _ _ => some id
  | .completeUpload _ _ id _ _ => some id
  | .abortUpload _ _ id => some id
  | _ => none

/-- The upload that an event created. -/
def created? : S3Event → Option Text
  | ⟨.createUpload _ _, .ok id⟩ => some id
  | _ => none

def IsPart : S3Event → Prop
  | ⟨.uploadPart .., _⟩ => True
  | _ => False

def Request.isComplete : Request → Bool
  | .completeUpload .. => true
  | _ => false

def Request.isAbort : Request → Bool
  | .abortUpload .. => true
  | _ => false

/-- The upload of this event was completed. -/
def Completed : S3Event → Prop
  | ⟨.completeUpload .., .ok _⟩ => True
  | _ => False

/-- The last requests of an upload that ended. -/
inductive Closing (id : Text) : List S3Event → Prop where
  | completed {event : S3Event} (named : event.1.uploadId? = some id) (ok : Completed event) :
      Closing id [event]
  | aborted {event : S3Event} (named : event.1.uploadId? = some id)
      (abort : event.1.isAbort = true) : Closing id [event]
  | refused {first second : S3Event} (named : first.1.uploadId? = some id)
      (completes : first.1.isComplete = true) (failed : ¬ Completed first)
      (again : second.1.uploadId? = some id) (abort : second.1.isAbort = true) :
      Closing id [first, second]

theorem created?_of_named {event : S3Event} {id : Text} (named : event.1.uploadId? = some id) :
    created? event = none := by
  obtain ⟨request, response⟩ := event
  cases request <;> first | rfl | cases named

/-- A part is neither a completion nor an abort. -/
theorem IsPart.plain {event : S3Event} (part : IsPart event) :
    ¬ Completed event ∧ event.1.isAbort = false ∧ event.1.isComplete = false := by
  obtain ⟨request, response⟩ := event
  cases request <;> first | exact ⟨not_false, rfl, rfl⟩ | exact part.elim

section Closings
variable {id : Text} {tail : List S3Event}

theorem Closing.named (closing : Closing id tail) : ∀ event ∈ tail, event.1.uploadId? = some id := by
  intro event member
  cases closing with
  | completed named ok => exact List.mem_singleton.mp member ▸ named
  | aborted named abort => exact List.mem_singleton.mp member ▸ named
  | refused named completes failed again abort =>
      rcases List.mem_cons.mp member with rfl | last
      · exact named
      · exact List.mem_singleton.mp last ▸ again

theorem isAbort_of_isComplete {event : S3Event} (completes : event.1.isComplete = true) :
    event.1.isAbort = false := by
  obtain ⟨request, response⟩ := event
  cases request <;> first | rfl | cases completes

/-- The last request completes or aborts the upload, and no earlier one does. -/
theorem Closing.last (closing : Closing id tail) :
    ∃ earlier last, tail = earlier ++ [last] ∧ (Completed last ∨ last.1.isAbort = true) ∧
      ∀ event ∈ earlier, ¬ Completed event ∧ event.1.isAbort = false := by
  cases closing with
  | completed named ok => exact ⟨[], _, rfl, .inl ok, by simp⟩
  | aborted named abort => exact ⟨[], _, rfl, .inr abort, by simp⟩
  | refused named completes failed again abort =>
      refine ⟨[_], _, rfl, .inr abort, ?_⟩
      intro event member
      obtain rfl := List.mem_singleton.mp member
      exact ⟨failed, isAbort_of_isComplete completes⟩

theorem Closing.completes_once (closing : Closing id tail) :
    (tail.filter fun event => event.1.isComplete).length ≤ 1 := by
  cases closing with
  | completed named ok => exact List.length_filter_le _ _
  | aborted named abort => exact List.length_filter_le _ _
  | @refused first second named completes failed again abort =>
      have plain : second.1.isComplete = false := by
        by_contra complete
        rw [isAbort_of_isComplete (by simpa using complete)] at abort
        cases abort
      rw [List.filter_cons_of_pos (by simpa using completes),
        List.filter_cons_of_neg (by simp [plain]), List.filter_nil]
      exact le_rfl

end Closings

/-- The log has at most one upload. When the handle has ended, so has the upload. -/
def UploadLog (ended : Prop) (log : List S3Event) : Prop :=
  (∀ event ∈ log, created? event = none ∧ event.1.uploadId? = none) ∨
  ∃ first id parts tail, log = first :: (parts ++ tail) ∧ created? first = some id ∧
    first.1.uploadId? = none ∧
    (∀ event ∈ parts, IsPart event ∧ event.1.uploadId? = some id) ∧
    ((tail = [] ∧ ¬ ended) ∨ Closing id tail)

section Shapes
variable {vfs : S3Vfs} {key : Text} {upload : Option Upload} {held : Upload} {log : List S3Event}

theorem Uploading.uploadLog {ended : Prop} (unended : ¬ ended)
    (uploading : Uploading vfs key upload log) : UploadLog ended log := by
  cases upload with
  | none =>
      refine .inl fun event member => ?_
      obtain ⟨error, rfl⟩ := uploading event member
      exact ⟨rfl, rfl⟩
  | some held =>
      obtain ⟨rest, rfl, named⟩ := uploading
      refine .inr ⟨_, held.id, rest, [], by rw [List.append_nil], rfl, rfl, ?_, .inl ⟨rfl, unended⟩⟩
      intro event member
      obtain ⟨number, body, response, rfl⟩ := named event member
      exact ⟨trivial, rfl⟩

/-- The requests behind the parts of an upload close it. -/
theorem Uploading.close {ended : Prop} {tail : List S3Event}
    (uploading : Uploading vfs key (some held) log) (closing : Closing held.id tail) :
    UploadLog ended (log ++ tail) := by
  obtain ⟨rest, rfl, named⟩ := uploading
  refine .inr ⟨_, held.id, rest, tail, rfl, rfl, rfl, ?_, .inr closing⟩
  intro event member
  obtain ⟨number, body, response, rfl⟩ := named event member
  exact ⟨trivial, rfl⟩

theorem Discarded.uploadLog {ended : Prop} (discarded : Discarded vfs key log) :
    UploadLog ended log := by
  obtain ⟨upload, before, uploading, aborted⟩ := discarded
  cases upload with
  | none =>
      obtain rfl : log = before := aborted
      refine .inl fun event member => ?_
      obtain ⟨error, rfl⟩ := uploading event member
      exact ⟨rfl, rfl⟩
  | some held =>
      obtain ⟨response, rfl⟩ := aborted
      exact uploading.close (.aborted rfl rfl)

theorem Publishes.uploadLog {ended : Prop} {precondition : Precondition} {body : Bytes}
    (publishes : Publishes vfs key precondition body log) : UploadLog ended log := by
  rcases publishes with rfl | ⟨held, parts, -, -, rfl⟩
  · refine .inl fun event member => ?_
    obtain rfl := List.mem_singleton.mp member
    exact ⟨rfl, rfl⟩
  · have uploading : Uploading vfs key (some held) (uploadEvents vfs key parts (some held)) := by
      refine ⟨_, rfl, ?_⟩
      intro event member
      obtain ⟨part, -, rfl⟩ := List.mem_map.mp member
      exact ⟨_, _, _, rfl⟩
    exact uploading.close (.completed rfl trivial)

theorem Ended.uploadLog {ended : Prop} (finished : Ended vfs key log) : UploadLog ended log := by
  rcases finished with ⟨precondition, body, publishes⟩ | ⟨upload, before, unpublished, aborted⟩
  · exact publishes.uploadLog
  · rcases unpublished with uploading | ⟨rfl, body, precondition, error, rfl⟩ |
      ⟨held, sent, parts, precondition, error, rfl, uploading, rfl⟩
    · exact Discarded.uploadLog ⟨upload, before, uploading, aborted⟩
    · obtain rfl := aborted
      refine .inl fun event member => ?_
      obtain rfl := List.mem_singleton.mp member
      exact ⟨rfl, rfl⟩
    · obtain ⟨response, rfl⟩ := aborted
      rw [List.append_assoc]
      exact uploading.close (.refused rfl rfl not_false rfl rfl)

/-- The log of every handle has at most one upload. -/
theorem Sent.uploadLog {gone : Bool} {precondition : Precondition} {cell : HandleState}
    (sent : Sent vfs gone precondition cell log) :
    UploadLog (cell.released = true ∨ (∃ error, cell.staging = .failed error) ∨ gone = true) log := by
  have plain : ∀ {ended : Prop}, (∀ event ∈ log, event.1.IsGet ∨ event.1.IsPut) →
      UploadLog ended log := by
    intro ended only
    refine .inl fun event member => ?_
    obtain ⟨request, response⟩ := event
    cases request <;> first
      | exact ⟨rfl, rfl⟩
      | exact (only _ member).elim False.elim False.elim
  obtain ⟨key, mode, staging, released⟩ := cell
  unfold Sent at sent
  cases staging with
  | remote file => exact plain fun event member => .inl (sent event member)
  | failed error => exact sent.uploadLog
  | buffer buffer =>
      cases released with
      | true => exact plain sent
      | false => exact plain fun event member => .inl (sent.1 event member)
  | stream stream =>
      simp only at sent
      split at sent
      · exact Ended.uploadLog sent
      · rename_i unended
        obtain ⟨parts, content, live⟩ := sent
        refine live.uploading.uploadLog ?_
        simpa using unended

end Shapes

end TinySandbox.S3
