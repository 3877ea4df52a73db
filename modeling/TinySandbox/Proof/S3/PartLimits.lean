/-
This file follows the parts of a stream from its open to its close.
-/

import TinySandbox.Proof.S3.StrictRuns

namespace TinySandbox.S3
open Library Library.Task Mem

/-- A close sends the pending tail as the last part, or no part. -/
def SendsLast (stream : Stream) (before log : List S3Event) : Prop :=
  sentParts log = sentParts before ∨
    sentParts log = sentParts before ++ [(stream.uploaded + 1, stream.buffer.length)]

section Parts
variable {vfs : S3Vfs} {key : Text} {stream : Stream} {cell : HandleState} {state : State}
  {handle : Nat} {log : List S3Event}

theorem Drained.total_le (initial : vfs.partSize = initialPartSize)
    (drained : Drained vfs stream log) (within : vfs.capacity stream.uploaded ≤ maxObjectBytes) :
    stream.total ≤ maxStreamBytes := by
  have few := lt_maxParts_of_flushed initial (within.trans (Nat.le_add_right _ _))
  have size := (partSizeAt_bounds initial few).2
  have tail := drained.tail
  have flushed := drained.flushed
  unfold Stream.total maxStreamBytes
  omega

/-- The whole parts and a smaller last one fit the limits. -/
theorem Drained.partsFit (initial : vfs.partSize = initialPartSize)
    (drained : Drained vfs stream log) (within : vfs.capacity stream.uploaded ≤ maxObjectBytes)
    {events : List S3Event} (last : SendsLast stream log events) : PartsFit (sentParts events) := by
  have few := lt_maxParts_of_flushed initial (within.trans (Nat.le_add_right _ _))
  have top : initialPartSize * 2 ^ 9 ≤ maxPartBytes := by decide
  have sizes : ∀ part ∈ sentParts log, minPartBytes ≤ part.2 ∧ part.2 ≤ maxPartBytes := by
    intro part member
    rw [drained.sent] at member
    obtain ⟨index, inside, rfl⟩ := List.mem_map.mp member
    have bounds := partSizeAt_bounds initial ((List.mem_range.mp inside).trans few)
    exact ⟨bounds.1, bounds.2.trans top⟩
  have length : (sentParts log).length = stream.uploaded := by
    rw [drained.sent, List.length_map, List.length_range]
  have numbers : (sentParts log).map Prod.fst = List.range' 1 stream.uploaded := by
    rw [drained.sent, List.map_map, List.range'_eq_map_range]
    exact List.map_congr_left fun index _ => Nat.add_comm index 1
  rcases last with none | one
  · rw [none]
    refine ⟨by omega, by rw [length, numbers], ?_, fun part member => (sizes part member).2⟩
    intro part member
    exact (sizes part (List.mem_of_mem_dropLast member)).1
  · rw [one]
    refine ⟨?_, ?_, ?_, ?_⟩
    · rw [List.length_append, length, List.length_singleton]
      omega
    · rw [List.map_append, numbers, List.length_append, length, List.length_singleton,
        List.range'_concat]
      simp [Nat.add_comm]
    · rw [List.dropLast_concat]
      exact fun part member => (sizes part member).1
    · intro part member
      rcases List.mem_append.mp member with old | new
      · exact (sizes part old).2
      · obtain rfl := List.mem_singleton.mp new
        exact drained.tail.le.trans ((partSizeAt_bounds initial few).2.trans top)

theorem lastPart_sends_wp {upload : Upload} (held : stream.upload = some upload) :
    (vfs.lastPart key upload).Wp stream log (fun _ _ => SendsLast stream log)
      (fun _ _ => SendsLast stream log) := by
  have count : upload.parts.length = stream.uploaded := by simp [Stream.uploaded, held]
  unfold S3Vfs.lastPart
  rw [wp_bind_iff, wp_get_iff]
  split
  · rw [wp_bind_iff, wp_lift_iff, count]
    cases number : i32TryFrom (stream.uploaded + 1) with
    | none => exact .inl rfl
    | some partNumber =>
        obtain rfl := eq_of_i32TryFrom number
        rw [Call.okOr_some, judged_ok, wp_bind_iff, wp_set_iff]
        have sends : ∀ response, SendsLast stream log (log ++ [⟨.uploadPart vfs.bucket key upload.id
            (stream.uploaded + 1) stream.buffer, response⟩]) := by
          intro response
          exact .inr (sentParts_append _ _)
        refine wp_send_bind (fun error => sends _) ?_
        intro etag
        rw [wp_pure_iff]
        exact sends _
  · rw [wp_pure_iff]
    exact .inl rfl

/-- A request that is no part leaves the parts as they are. -/
theorem SendsLast.snoc {events : List S3Event} (sends : SendsLast stream log events)
    {event : S3Event} (other : sentParts [event] = []) : SendsLast stream log (events ++ [event]) := by
  unfold SendsLast at sends ⊢
  rwa [sentParts_append, other, List.append_nil]

theorem finishStream_sends_wp :
    (vfs.finishStream key).Wp stream log (fun _ _ => SendsLast stream log)
      (fun _ _ => SendsLast stream log) := by
  unfold S3Vfs.finishStream
  rw [wp_bind_iff, wp_get_iff]
  cases held : stream.upload with
  | none =>
      rw [wp_bind_iff, wp_set_iff, wp_perform_iff]
      unfold S3Vfs.putObject
      rw [wp_sendWith_iff]
      rintro (error | value)
      · exact SendsLast.snoc (.inl rfl) rfl
      · exact SendsLast.snoc (.inl rfl) rfl
  | some upload =>
      refine (lastPart_sends_wp held).bind ?_
      intro parts after events sends
      rw [wp_sendWith_iff]
      rintro (error | value)
      · exact sends.snoc rfl
      · exact sends.snoc rfl

theorem commitStream_sends_wp :
    (vfs.commitStream key).Wp stream log (fun _ _ => SendsLast stream log)
      (fun _ _ => SendsLast stream log) := by
  unfold S3Vfs.commitStream
  rw [wp_bind_iff, wp_attempt_iff]
  refine finishStream_sends_wp.mono ?_ ?_
  · intro value after events sends
    rw [wp_pure_iff]
    exact sends
  · intro error after events sends
    rw [wp_bind_iff, wp_get_iff, wp_bind_iff, wp_perform_iff]
    refine (abortStream_wp vfs key after events).mono ?_ (fun _ _ _ impossible => impossible.elim)
    intro value left reached aborted
    rw [wp_throw_iff]
    unfold Aborted at aborted
    cases held : after.upload with
    | none =>
        rw [held] at aborted
        rwa [aborted]
    | some upload =>
        rw [held] at aborted
        obtain ⟨response, rfl⟩ := aborted
        exact sends.snoc rfl

theorem close_sends_wp (holds : HoldsDrained vfs handle cell stream state log) :
    (vfs.call (.close handle)).Wp state log (fun _ _ => SendsLast stream log)
      (fun _ _ => SendsLast stream log) := by
  unfold S3Vfs.call S3Vfs.close S3Vfs.closeResolved S3Vfs.commit
  rw [wp_map_iff, onRemoved_wp_iff holds.1, wp_bind_iff, wp_get_iff, wp_bind_iff, wp_set_iff,
    wp_bind_iff, wp_get_iff]
  exact wp_focus_iff.mpr commitStream_sends_wp

/-- Every call of a session runs strictly when the parts in the end fit into the largest object. -/
theorem session_strict (initial : vfs.partSize = initialPartSize) {calls : List VfsCall}
    {events : List S3Event} {replies : List (VfsResult Reply)} {after : State}
    (streamed : ∀ call ∈ calls, StreamCall handle call)
    (holds : HoldsDrained vfs handle cell stream state log)
    (session : Session vfs (fun _ _ => True) state calls events replies after)
    (succeeded : ∀ reply ∈ replies, ∃ value, reply = .ok value) :
    ∃ last, HoldsDrained vfs handle cell last after (log ++ events) ∧
      (vfs.capacity last.uploaded ≤ maxObjectBytes →
        Session vfs (RunsStrictly vfs handle) state calls events replies after) := by
  induction calls generalizing state stream log events replies with
  | nil =>
      obtain ⟨rfl, rfl, rfl⟩ := session
      rw [List.append_nil]
      exact ⟨stream, holds, fun _ => ⟨rfl, rfl, rfl⟩⟩
  | cons call rest ih =>
      obtain ⟨-, first, later, reply, others, middle, rfl, rfl, ran, session⟩ := session
      obtain ⟨value, rfl⟩ := succeeded reply List.mem_cons_self
      have here := streamed call List.mem_cons_self
      obtain ⟨next, stepped, total⟩ := (call_drained_wp here holds).ok ran
      obtain ⟨last, ended, strict⟩ := ih
        (fun other member => streamed other (List.mem_cons_of_mem _ member)) stepped session
        (fun other member => succeeded other (List.mem_cons_of_mem _ member))
      rw [← List.append_assoc]
      refine ⟨last, ended, fun within => ?_⟩
      have later := (vfs.capacity_mono (stepped.2.uploaded_le ended.2.toPaced)).trans within
      have before := (vfs.capacity_mono (holds.2.uploaded_le stepped.2.toPaced)).trans later
      refine ⟨⟨⟨_, stream, holds.1, rfl, holds.2.tail⟩, ?_⟩, first, _, _, others, middle, rfl, rfl, ran,
        strict within⟩
      refine call_agrees initial here holds (holds.2.total_le initial before) ?_
      rw [← total]
      exact stepped.2.total_le initial later

/-- A live stream without events is new. -/
theorem Live.drained_new {precondition : Precondition} {parts : List (UploadedPart × Bytes)}
    (live : Live vfs key precondition parts [] stream []) : Drained vfs stream [] := by
  have logged := live.logged
  have uploaded := live.uploaded
  have length := live.length
  have none : stream.upload = none := by
    cases held : stream.upload with
    | none => rfl
    | some upload =>
        rw [held] at logged
        cases logged
  have count : stream.uploaded = 0 := by simp [Stream.uploaded, none]
  rw [List.length_nil] at length
  refine ⟨⟨?_, ?_⟩, ?_⟩
  · rw [count]
    change stream.flushed = 0
    omega
  · rw [count]
    rfl
  · have positive := vfs.partSizeAt_pos stream.uploaded
    omega

end Parts

/-- A stream that ends within the largest object sends parts that fit the limits of the service. -/
theorem stream_fits_limits (vfs : S3Vfs) (initial : vfs.partSize = initialPartSize) {path : Text}
    {mode : OpenMode} {before opened written closed : State} {opens writes closes : List S3Event}
    {handle : Nat} {calls : List VfsCall} {replies : List (VfsResult Reply)}
    {reply : VfsResult Reply} (opensStream : OpensStream mode opens)
    (opening : (vfs.call (.open path mode)).Runs before opens (.ok (.handle handle)) opened)
    (streamed : ∀ call ∈ calls, StreamCall handle call)
    (session : Session vfs (fun _ _ => True) opened calls writes replies written)
    (succeeded : ∀ reply ∈ replies, ∃ value, reply = .ok value)
    (small : (plainRun mode.append [] calls).length ≤ maxObjectBytes)
    (closing : (vfs.call (.close handle)).Runs written closes reply closed) :
    Session vfs (RunsStrictly vfs handle) opened calls writes replies written ∧
      RunsStrictly vfs handle written (.close handle) ∧ PartsFit (sentParts (writes ++ closes)) := by
  obtain ⟨components, precondition, -, -, streams⟩ := open_streams opensStream opening
  obtain ⟨stream, parts, found, live⟩ := session_streams opensStream.write rfl streamed streams
    session succeeded
  obtain ⟨fresh, nothing, started, new⟩ := streams
  obtain ⟨last, holds, strict⟩ := session_strict initial streamed ⟨started, new.drained_new⟩ session
    succeeded
  have same : last = stream := by
    have cells := Option.some.inj (holds.1.symm.trans found)
    exact Staging.stream.inj (congrArg HandleState.staging cells)
  subst same
  have within : vfs.capacity last.uploaded ≤ maxObjectBytes := by
    have length : (plainRun mode.append [] calls).length = last.flushed + last.buffer.length :=
      live.length
    have flushed := holds.2.flushed
    omega
  have few := lt_maxParts_of_flushed initial (within.trans (Nat.le_add_right _ _))
  have sends := (close_sends_wp holds).either closing
  exact ⟨strict within, ⟨⟨_, last, holds.1, rfl, holds.2.tail⟩, close_agrees holds few⟩,
    holds.2.partsFit initial within sends⟩

/-- This filesystem uploads parts of the initial size. -/
def S3Vfs.standard : S3Vfs :=
  { S3Vfs.sample with
    partSize := initialPartSize
    partSizePos := initialPartSize_pos
    partSizeFits := initialPartSize_fits }

theorem stream_fits_limits_small :
    ∃ written writes closes, RunsStrictly .standard 1 written (.close 1) ∧
      PartsFit (sentParts (writes ++ closes)) := by
  have ran : ((World.new .empty).run .standard (BucketState.respond .counting)
      [.open "/f".toList replaceMode, .writeAt 1 0 [7, 7], .truncate 1 4, .close 1]).map Prod.fst =
      some [.ok (.handle 1), .ok (.count 2), .ok .unit, .ok .unit] := by
    decide +kernel
  obtain ⟨⟨replies, after⟩, ran, rfl⟩ := Option.map_eq_some_iff.mp ran
  obtain ⟨events, session, -⟩ := World.run_session ran
  obtain ⟨-, opens, later, reply, others, opened, -, same, opening, session⟩ := session
  obtain ⟨rfl, rfl⟩ := List.cons.inj same
  obtain ⟨-, first, later, reply, others, middle, -, same, wrote, session⟩ := session
  obtain ⟨rfl, rfl⟩ := List.cons.inj same
  obtain ⟨-, second, later, reply, others, written, -, same, cut, session⟩ := session
  obtain ⟨rfl, rfl⟩ := List.cons.inj same
  obtain ⟨-, closes, later, reply, others, closed, -, same, closing, -⟩ := session
  obtain ⟨rfl, rfl⟩ := List.cons.inj same
  have streamed : ∀ call ∈ [VfsCall.writeAt 1 0 [7, 7], .truncate 1 4], StreamCall 1 call := by
    simp [StreamCall]
  obtain ⟨-, strict, fits⟩ := stream_fits_limits .standard rfl ⟨rfl, rfl, .inl rfl⟩ opening streamed
    ⟨trivial, first, second ++ [], _, _, middle, rfl, rfl, wrote,
      trivial, second, [], _, _, written, rfl, rfl, cut, rfl, rfl, rfl⟩
    (by simp) (by decide) closing
  exact ⟨written, _, closes, strict, fits⟩

end TinySandbox.S3
