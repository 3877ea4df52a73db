/-
This file says when a stream that reported an error cannot be published any more.
-/

import TinySandbox.Proof.S3.StreamSessions

namespace TinySandbox.S3
open Library Library.Task Mem

/-- The request makes an object visible. -/
def Request.IsPublication : Request → Prop
  | .put .. => True
  | .completeUpload .. => True
  | _ => False

/-- A write without data changes nothing and may report success. -/
def IsEmptyWrite : VfsCall → Prop
  | .writeAt _ _ data => data = []
  | _ => False

/-- An error on a streaming handle is final. Calls and the close behind it fail, nothing is
published, and the bucket keeps the object it had before the open. Every call meets the condition
in the state before it. -/
def FailureIsFinal (vfs : S3Vfs) (condition : Nat → State → VfsCall → Prop) : Prop :=
  ∀ {path mode before opens handle opened calls writes replies reached failing fails error broken
    later afterwards laterReplies ended closes result closed},
    OpensStream mode opens →
    (vfs.call (.open path mode)).Runs before opens (.ok (.handle handle)) opened →
    (∀ call ∈ calls ++ failing :: later, StreamCall handle call) →
    Session vfs (condition handle) opened calls writes replies reached →
    condition handle reached failing →
    (vfs.call failing).Runs reached fails (.error error) broken →
    Session vfs (condition handle) broken later afterwards laterReplies ended →
    (vfs.call (.close handle)).Runs ended closes result closed →
    (∀ answered ∈ later.zip laterReplies, ¬ IsEmptyWrite answered.1 →
      ∃ error, answered.2 = .error error) ∧
    (∃ error, result = .error error) ∧
    (∀ event ∈ afterwards ++ closes, ¬ event.1.IsPublication) ∧
    ∀ components, normalizePath path = .ok components → ∀ service fault first last,
      Program.Served (Serves service fault) first (opens ++ writes ++ fails ++ afterwards ++ closes) last →
      last.objects.get (vfs.key components) = first.objects.get (vfs.key components)

section Failures
variable {vfs : S3Vfs} {key : Text} {log : List S3Event}

theorem Probes.unchanged (probes : Probes log) : ∀ event ∈ log, ¬ event.1.Changes key := by
  intro event member changes
  have probe := probes event member
  unfold Request.IsProbe at probe
  unfold Request.Changes at changes
  split at probe <;> simp_all

theorem Uploading.unchanged {upload : Option Upload} (uploading : Uploading vfs key upload log) :
    ∀ event ∈ log, ¬ event.1.Changes key := by
  intro event member
  cases upload with
  | none =>
      obtain ⟨error, rfl⟩ := uploading event member
      exact not_false
  | some upload =>
      obtain ⟨rest, rfl, named⟩ := uploading
      rcases List.mem_cons.mp member with rfl | later
      · exact not_false
      · obtain ⟨number, body, response, rfl⟩ := named event later
        exact not_false

theorem Discarded.unchanged (discarded : Discarded vfs key log) :
    ∀ event ∈ log, ¬ event.1.Changes key := by
  obtain ⟨upload, before, uploading, aborted⟩ := discarded
  cases upload with
  | none =>
      obtain rfl : log = before := aborted
      exact uploading.unchanged
  | some upload =>
      obtain ⟨response, rfl⟩ := aborted
      intro event member
      rcases List.mem_append.mp member with old | new
      · exact uploading.unchanged event old
      · obtain rfl := List.mem_singleton.mp new
        exact not_false

end Failures

/-- An error is final in every run whose calls start in the pending tail and do not overflow. -/
theorem accepted_failure_is_final (vfs : S3Vfs) : FailureIsFinal vfs Accepts := by
  intro path mode before opens handle opened calls writes replies reached failing fails error broken
    later afterwards laterReplies ended closes result closed opensStream opening streamed session
    accepts failed aftermath closing
  obtain ⟨components, precondition, resolved, probes, streams⟩ := open_streams opensStream opening
  have write := opensStream.write
  have streamedCalls := fun call member => streamed call (List.mem_append_left _ member)
  have streamedFailing := streamed failing (by simp)
  have streamedLater := fun call member =>
    streamed call (List.mem_append_right _ (List.mem_cons_of_mem _ member))
  -- Whatever happened before, the failing call leaves a failed handle.
  obtain ⟨reported, failure⟩ : ∃ reported, Fails vfs _ handle reported broken (writes ++ fails) := by
    rcases session_accepted write rfl streamedCalls streams session with
      ⟨content, live⟩ | ⟨reported, dead⟩
    · rcases (call_streams_wp write rfl streamedFailing live).error failed with ⟨rejects, -⟩ | dead
      · exact absurd accepts rejects
      · exact ⟨error, by simpa using dead⟩
    · obtain ⟨-, -, dead⟩ := (call_fails_wp write rfl streamedFailing dead).error failed
      exact ⟨reported, by simpa using dead⟩
  obtain ⟨errors, rfl, dead⟩ := session_fails write rfl streamedLater failure aftermath
  have closed := close_fails_wp dead
  cases result with
  | ok reply => exact (closed.ok closing).elim
  | error final =>
      obtain ⟨-, silent⟩ := closed.error closing
      obtain rfl : closes = [] := by simpa using silent
      refine ⟨?_, ⟨final, rfl⟩, by simp, ?_⟩
      · intro answered member _
        exact ⟨reported, errors _ (List.of_mem_zip member).2⟩
      · intro path same service fault first last served
        obtain rfl := Except.ok.inj (same.symm.trans resolved)
        apply served_objects_get served
        intro event member
        simp only [List.append_nil, List.append_assoc] at member
        rcases List.mem_append.mp member with probe | sent
        · exact probes.unchanged event probe
        · exact failure.2.unchanged event sent

/-- This bucket refuses to create uploads. -/
def refuseUploads : Respond
  | bucket, .createUpload .. => (.error .io, bucket)
  | bucket, request => bucket.respond .counting request

theorem accepted_failure_is_final_refused :
    ∃ ended closes result closed,
      (S3Vfs.sample.call (.close 1)).Runs ended closes result closed ∧
        (∃ error, result = .error error) ∧ ∀ event ∈ closes, ¬ event.1.IsPublication := by
  have ran : ((World.new .empty).run .sample refuseUploads
      [.open "/f".toList replaceMode, .writeAt 1 0 (List.replicate 8 7), .close 1]).map Prod.fst =
      some [.ok (.handle 1), .error Errno.EIO, .error Errno.EIO] := by
    decide +kernel
  obtain ⟨⟨replies, after⟩, ran, rfl⟩ := Option.map_eq_some_iff.mp ran
  obtain ⟨events, session, -⟩ := World.run_session ran
  obtain ⟨-, opens, later, reply, others, opened, -, same, opening, session⟩ := session
  obtain ⟨rfl, rfl⟩ := List.cons.inj same
  obtain ⟨-, fails, later, reply, others, broken, -, same, failed, session⟩ := session
  obtain ⟨rfl, rfl⟩ := List.cons.inj same
  obtain ⟨-, closes, later, reply, others, closed, -, same, closing, -⟩ := session
  obtain ⟨rfl, rfl⟩ := List.cons.inj same
  have streamed : ∀ call ∈ [] ++ VfsCall.writeAt 1 0 (List.replicate 8 7) :: [],
      StreamCall 1 call := by
    simp [StreamCall]
  have accepts : Accepts 1 opened (.writeAt 1 0 (List.replicate 8 7)) := by
    obtain ⟨components, precondition, -, -, stream, parts, found, live⟩ :=
      open_streams ⟨rfl, rfl, .inl rfl⟩ opening
    have length := live.length
    rintro cell other present staged ⟨-, below⟩
    obtain rfl := Option.some.inj (present.symm.trans found)
    obtain rfl := Staging.stream.inj staged
    simp only [List.length_nil] at length
    have positive : 0 < stream.flushed := below
    omega
  obtain ⟨-, error, quiet, -⟩ := accepted_failure_is_final .sample ⟨rfl, rfl, .inl rfl⟩ opening
    streamed ⟨rfl, rfl, rfl⟩ accepts failed ⟨rfl, rfl, rfl⟩ closing
  exact ⟨broken, closes, _, closed, closing, error, by simpa using quiet⟩

/-- A write below the uploaded bytes reports an error, and the close publishes the object. -/
theorem rejected_failure_is_not_final : ¬ FailureIsFinal .sample (fun _ _ _ => True) := by
  intro final
  have ran : ((World.new .empty).run .sample (BucketState.respond .counting)
      [.open "/f".toList replaceMode, .writeAt 1 0 (List.replicate 24 97), .writeAt 1 0 [122],
        .close 1]).map Prod.fst =
      some [.ok (.handle 1), .ok (.count 24), .error .EFBIG, .ok .unit] := by
    decide +kernel
  obtain ⟨⟨replies, after⟩, ran, rfl⟩ := Option.map_eq_some_iff.mp ran
  obtain ⟨events, session, -⟩ := World.run_session ran
  obtain ⟨-, opens, later, reply, others, opened, -, same, opening, session⟩ := session
  obtain ⟨rfl, rfl⟩ := List.cons.inj same
  obtain ⟨-, writes, later, reply, others, written, -, same, wrote, session⟩ := session
  obtain ⟨rfl, rfl⟩ := List.cons.inj same
  obtain ⟨-, fails, later, reply, others, broken, -, same, failed, session⟩ := session
  obtain ⟨rfl, rfl⟩ := List.cons.inj same
  obtain ⟨-, closes, later, reply, others, closed, -, same, closing, -⟩ := session
  obtain ⟨rfl, rfl⟩ := List.cons.inj same
  have streamed : ∀ call ∈ [VfsCall.writeAt 1 0 (List.replicate 24 97)] ++
      VfsCall.writeAt 1 0 [122] :: [], StreamCall 1 call := by
    simp [StreamCall]
  obtain ⟨-, ⟨error, impossible⟩, -⟩ := final ⟨rfl, rfl, .inl rfl⟩ opening streamed
    ⟨trivial, writes, [], _, [], written, rfl, rfl, wrote, rfl, rfl, rfl⟩ trivial failed
    ⟨rfl, rfl, rfl⟩ closing
  cases impossible

end TinySandbox.S3
