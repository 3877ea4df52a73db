/-
This file lifts the facts about streams to the calls on a handle that holds one.
-/

import TinySandbox.Proof.S3.Streams

namespace TinySandbox.S3
open Library Library.Task Mem

/-- An abort request ends the upload, if there is one. -/
def Aborted (vfs : S3Vfs) (key : Text) (upload : Option Upload) (before log : List S3Event) : Prop :=
  match upload with
  | none => log = before
  | some upload => ∃ response, log = before ++ [⟨.abortUpload vfs.bucket key upload.id, response⟩]

/-- A failed stream sent only part uploads, and aborted the upload it had. -/
def Discarded (vfs : S3Vfs) (key : Text) (log : List S3Event) : Prop :=
  ∃ upload before, Uploading vfs key upload before ∧ Aborted vfs key upload before log

/-- The call starts below the bytes that are still pending, or the length overflows. -/
def Stream.Rejects (append : Bool) (stream : Stream) : VfsCall → Prop
  | .writeAt _ offset data =>
      data ≠ [] ∧
        if append then u64Max < stream.flushed + stream.buffer.length else offset < stream.flushed
  | .truncate _ len =>
      len < stream.flushed ∨ u64Max < stream.flushed + stream.buffer.length
  | _ => False

section Handles
variable {vfs : S3Vfs} {precondition : Precondition} {parts : List (UploadedPart × Bytes)}
  {content : Bytes} {stream : Stream} {state : HandleState} {log : List S3Event}

theorem abortStream_wp (vfs : S3Vfs) (key : Text) (stream : Stream) (log : List S3Event) :
    (vfs.abortStream key stream).Wp () log
      (fun _ _ after => Aborted vfs key stream.upload log after) (fun _ _ _ => False) := by
  unfold S3Vfs.abortStream Aborted
  cases stream.upload with
  | none =>
      rw [wp_pure_iff]
  | some upload =>
      unfold S3Vfs.abortUpload
      rw [wp_bind_iff, wp_request_iff]
      intro response
      rw [wp_pure_iff]
      exact ⟨response, rfl⟩

theorem failStream_wp (error : Errno) (held : state.staging = .stream stream) :
    (vfs.failStream error).Wp state log
      (fun _ after reached => after = { state with staging := .failed error } ∧
        Aborted vfs state.key stream.upload log reached)
      (fun _ _ _ => False) := by
  unfold S3Vfs.failStream
  rw [wp_bind_iff, wp_get_iff, wp_bind_iff, wp_set_iff, held, wp_perform_iff]
  exact (abortStream_wp vfs state.key stream log).mono (fun _ _ _ aborted => ⟨rfl, aborted⟩)
    (fun _ _ _ impossible => impossible)

/-- A stream task that fails leaves a failed handle without an upload. -/
theorem onStream_wp {α : Type} {task : S3Task Stream α}
    {returns : α → Stream → List S3Event → Prop}
    (wp : task.Wp stream log returns (fun _ after log => Uploading vfs state.key after.upload log)) :
    (vfs.onStream stream task).Wp state log
      (fun value after log => ∃ stream, after = { state with staging := .stream stream } ∧
        returns value stream log)
      (fun error after log => after = { state with staging := .failed error } ∧
        Discarded vfs state.key log) := by
  unfold S3Vfs.onStream
  rw [wp_bind_iff, wp_get_iff, wp_bind_iff, wp_attempt_iff, wp_focus_iff]
  refine wp.mono ?_ ?_
  · intro value after log returned
    rw [wp_pure_iff]
    exact ⟨after, rfl, returned⟩
  · intro error after log uploading
    rw [wp_bind_iff]
    refine (failStream_wp error rfl).mono ?_ (fun _ _ _ impossible => impossible.elim)
    rintro ⟨⟩ failed log ⟨rfl, aborted⟩
    rw [wp_throw_iff]
    exact ⟨rfl, after.upload, _, uploading, aborted⟩

theorem Stream.end_eq_ok_iff {finish : Nat} :
    stream.end = .ok finish ↔
      stream.flushed + stream.buffer.length = finish ∧ finish ≤ u64Max := by
  unfold Stream.end checkedAdd
  split
  · rename_i fits
    constructor
    · intro same
      obtain rfl := Except.ok.inj same
      exact ⟨rfl, fits⟩
    · rintro ⟨rfl, -⟩
      rfl
  · rename_i large
    constructor
    · rintro ⟨⟩
    · rintro ⟨rfl, fits⟩
      exact absurd fits large

theorem Stream.end_eq_error {error : Errno} (failed : stream.end = .error error) :
    u64Max < stream.flushed + stream.buffer.length := by
  by_contra small
  rw [Stream.end_eq_ok_iff.mpr ⟨rfl, not_lt.mp small⟩] at failed
  cases failed

/-- A write target is the end of the stream or the given offset, and lies in the tail. -/
theorem writeTarget_eq_ok {append : Bool} {offset target : Nat}
    (aimed : S3Vfs.writeTarget append offset stream = .ok target) :
    target = (if append then stream.flushed + stream.buffer.length else offset) ∧
      stream.flushed ≤ target := by
  unfold S3Vfs.writeTarget at aimed
  obtain ⟨start, started, bounded⟩ := Call.bind_eq_ok_iff.mp aimed
  rw [Call.ite_error_eq_ok_iff] at bounded
  obtain ⟨above, same⟩ := bounded
  obtain rfl := Except.ok.inj same
  refine ⟨?_, by omega⟩
  cases append with
  | true => exact (Stream.end_eq_ok_iff.mp started).1.symm
  | false => exact (Except.ok.inj started).symm

theorem writeTarget_eq_error {append : Bool} {offset : Nat} {error : Errno}
    (failed : S3Vfs.writeTarget append offset stream = .error error) :
    if append then u64Max < stream.flushed + stream.buffer.length else offset < stream.flushed := by
  unfold S3Vfs.writeTarget at failed
  cases append with
  | true =>
      rw [if_pos rfl] at failed ⊢
      cases finished : stream.end with
      | error other => exact Stream.end_eq_error finished
      | ok finish =>
          rw [finished] at failed
          have reached := (Stream.end_eq_ok_iff.mp finished).1
          simp only [bind, Except.bind] at failed
          rw [if_neg (by omega)] at failed
          cases failed
  | false =>
      by_contra above
      simp only [Bool.false_eq_true, if_false] at above
      simp [bind, Except.bind, above] at failed

/-- A write on a stream handle acts as a plain write, is rejected, or fails the handle. -/
theorem writeResolved_stream_wp (state : HandleState) (handle offset : Nat) (data : Bytes)
    (live : Live vfs state.key precondition parts content stream log)
    (held : state.staging = .stream stream) (unreleased : state.released = false)
    (writable : state.mode.write = true) :
    (vfs.writeResolved offset data).Wp state log
      (fun _ after log => ∃ stream, after = { state with staging := .stream stream } ∧
        ∃ parts, Live vfs state.key precondition parts
          (plainStep state.mode.append content (.writeAt handle offset data)) stream log)
      (fun error after reached =>
        (stream.Rejects state.mode.append (.writeAt handle offset data) ∧
          after = state ∧ reached = log) ∨
        (after = { state with staging := .failed error } ∧ Discarded vfs state.key reached)) := by
  unfold S3Vfs.writeResolved
  rw [wp_bind_iff, wp_get_iff, wp_bind_iff, wp_refuse_iff,
    if_neg (by simp [unreleased]), wp_bind_iff, wp_refuse_iff, if_neg (by simp [writable]), held]
  simp only [plainStep]
  by_cases empty : data = []
  · simp only [empty, if_true, wp_pure_iff]
    refine ⟨stream, ?_, parts, live⟩
    rw [← held]
  · simp only [empty, if_false]
    rw [wp_bind_iff, wp_lift_iff]
    cases aimed : S3Vfs.writeTarget state.mode.append offset stream with
    | error error => exact .inl ⟨⟨empty, writeTarget_eq_error aimed⟩, rfl, rfl⟩
    | ok target =>
        rw [judged_ok]
        obtain ⟨same, below⟩ := writeTarget_eq_ok aimed
        rw [← live.length] at same
        rw [← same]
        exact (onStream_wp (writeStream_wp target data live below)).mono
          (fun _ _ _ returned => returned) (fun _ _ _ failed => .inr failed)

theorem resized_grown {len : Nat} (longer : content.length < len) :
    content ++ List.replicate (len - content.length) 0 = FlatFs.resized content len := by
  unfold FlatFs.resized
  rw [List.take_of_length_le longer.le]

/-- A cut of the tail is a cut of the content. -/
theorem Live.cut (live : Live vfs state.key precondition parts content stream log) {len : Nat}
    (below : stream.flushed ≤ len) (inside : len ≤ content.length) :
    Live vfs state.key precondition parts (FlatFs.resized content len)
      { stream with buffer := stream.buffer.take (len - stream.flushed) } log := by
  have cut := live.withBuffer (stream.buffer.take (len - stream.flushed))
  have same : (parts.map Prod.snd).flatten ++ stream.buffer.take (len - stream.flushed) =
      FlatFs.resized content len := by
    unfold FlatFs.resized
    have flushed := live.flushed
    have whole : (parts.map Prod.snd).flatten.length ≤ len := by omega
    rw [Nat.sub_eq_zero_of_le inside, List.replicate_zero, List.append_nil, live.content,
      List.take_append, ← flushed, List.take_of_length_le whole]
  rw [same] at cut
  exact cut

/-- A truncation on a stream handle acts as a plain one, is rejected, or fails the handle. -/
theorem truncateResolved_stream_wp (state : HandleState) (handle len : Nat)
    (live : Live vfs state.key precondition parts content stream log)
    (held : state.staging = .stream stream) (unreleased : state.released = false)
    (writable : state.mode.write = true) :
    (vfs.truncateResolved len).Wp state log
      (fun _ after log => ∃ stream, after = { state with staging := .stream stream } ∧
        ∃ parts, Live vfs state.key precondition parts
          (plainStep state.mode.append content (.truncate handle len)) stream log)
      (fun error after reached =>
        (stream.Rejects state.mode.append (.truncate handle len) ∧ after = state ∧ reached = log) ∨
        (after = { state with staging := .failed error } ∧ Discarded vfs state.key reached)) := by
  have length := live.length
  simp only [plainStep]
  unfold S3Vfs.truncateResolved
  rw [wp_bind_iff, wp_get_iff, wp_bind_iff, wp_refuse_iff,
    if_neg (by simp [unreleased]), wp_bind_iff, wp_refuse_iff, if_neg (by simp [writable]), held]
  show Wp (_ >>= _) _ _ _ _
  rw [wp_bind_iff, wp_refuse_iff]
  split
  · rename_i below
    exact .inl ⟨.inl below, rfl, rfl⟩
  · rename_i below
    rw [wp_bind_iff, wp_lift_iff]
    cases finished : stream.end with
    | error error => exact .inl ⟨.inr (Stream.end_eq_error finished), rfl, rfl⟩
    | ok finish =>
        rw [judged_ok]
        obtain ⟨rfl, fits⟩ := Stream.end_eq_ok_iff.mp finished
        rw [← length] at fits ⊢
        split
        · rename_i longer
          refine (onStream_wp (fillGap_wp len live (by omega))).mono ?_
            (fun _ _ _ failed => .inr failed)
          rintro ⟨⟩ after log ⟨filled, rfl, below, parts, live⟩
          exact ⟨filled, rfl, parts, resized_grown longer ▸ live⟩
        · have fits : usizeTryFrom (len - stream.flushed) = some (len - stream.flushed) := by
            unfold usizeTryFrom
            rw [if_pos (by omega)]
          rw [wp_bind_iff, wp_lift_iff]
          unfold S3Vfs.cutTail
          simp only [fits, Call.okOr_some]
          show Wp (set _) _ _ _ _
          rw [wp_set_iff]
          exact ⟨_, rfl, parts, live.cut (by omega) (by omega)⟩

/-- The log of a stream that was published with the given body. -/
def Publishes (vfs : S3Vfs) (key : Text) (precondition : Precondition) (body : Bytes)
    (log : List S3Event) : Prop :=
  log = [⟨.put vfs.bucket key body precondition, .ok ()⟩] ∨
  ∃ upload, ∃ parts : List (UploadedPart × Bytes),
    parts.map (fun part => part.1.partNumber) = List.range' 1 parts.length ∧
    body = (parts.map Prod.snd).flatten ∧
    log = uploadEvents vfs key parts (some upload) ++
      [⟨.completeUpload vfs.bucket key upload.id (parts.map Prod.fst) precondition, .ok ()⟩]

/-- The log of a stream whose publication failed. -/
def Unpublished (vfs : S3Vfs) (key : Text) (upload : Option Upload) (log : List S3Event) : Prop :=
  Uploading vfs key upload log ∨
  (upload = none ∧ ∃ body precondition error,
    log = [⟨.put vfs.bucket key body precondition, .error error⟩]) ∨
  ∃ held before parts precondition error, upload = some held ∧
    Uploading vfs key (some held) before ∧
    log = before ++ [⟨.completeUpload vfs.bucket key held.id parts precondition, .error error⟩]

/-- The last part takes the whole tail. -/
theorem lastPart_wp {key : Text} {upload : Upload}
    (live : Live vfs key precondition parts content stream log)
    (held : stream.upload = some upload) :
    (vfs.lastPart key upload).Wp stream log
      (fun sent after log => after.upload = some upload ∧
        ∃ parts : List (UploadedPart × Bytes), sent = parts.map Prod.fst ∧
          parts.map (fun part => part.1.partNumber) = List.range' 1 parts.length ∧
          content = (parts.map Prod.snd).flatten ∧
          log = uploadEvents vfs key parts (some upload))
      (fun _ after log => after.upload = some upload ∧ Uploading vfs key (some upload) log) := by
  have uploading := live.uploading
  have logged := live.logged
  have uploaded := live.uploaded
  have numbered := live.numbered
  have whole := live.content
  rw [held] at uploading logged uploaded
  have sent : upload.parts = parts.map Prod.fst := uploaded
  unfold S3Vfs.lastPart
  rw [wp_bind_iff, wp_get_iff]
  split
  · rw [wp_bind_iff, wp_lift_iff]
    cases number : i32TryFrom (upload.parts.length + 1) with
    | none => exact ⟨held, uploading⟩
    | some partNumber =>
        obtain rfl := eq_of_i32TryFrom number
        rw [Call.okOr_some, judged_ok, wp_bind_iff, wp_set_iff, wp_bind_iff, wp_send_iff]
        intro response
        cases response with
        | error error => exact ⟨held, uploading.snoc _ _ _⟩
        | ok etag =>
            rw [mapErr_ok, judged_ok, wp_pure_iff]
            refine ⟨held,
              parts ++ [({ partNumber := upload.parts.length + 1, etag := etag }, stream.buffer)],
              ?_, ?_, ?_, ?_⟩
            · simp [sent]
            · simp [sent, numbered, List.range'_concat, Nat.add_comm]
            · simp [whole]
            · simp [logged, uploadEvents]
  · rename_i empty
    rw [wp_pure_iff]
    rw [not_or, not_not] at empty
    exact ⟨held, parts, sent, numbered, by rw [whole, empty.1, List.append_nil], logged⟩

/-- A stream that finishes publishes its whole content. -/
theorem finishStream_wp {key : Text} (live : Live vfs key precondition parts content stream log) :
    (vfs.finishStream key).Wp stream log
      (fun _ _ log => Publishes vfs key (vfs.precondition precondition) content log)
      (fun _ after log => after.upload = stream.upload ∧
        Unpublished vfs key stream.upload log) := by
  have logged := live.logged
  have uploaded := live.uploaded
  have whole := live.content
  unfold S3Vfs.finishStream
  rw [wp_bind_iff, wp_get_iff, live.precondition]
  cases held : stream.upload with
  | none =>
      rw [held] at logged uploaded
      obtain rfl : parts = [] := by simpa using uploaded.symm
      obtain rfl : log = [] := logged
      obtain rfl : content = stream.buffer := whole
      rw [wp_bind_iff, wp_set_iff, wp_perform_iff]
      unfold S3Vfs.putObject
      rw [wp_sendWith_iff]
      intro response
      cases response with
      | error error => exact ⟨rfl, .inr (.inl ⟨rfl, _, _, _, rfl⟩)⟩
      | ok value => exact .inl rfl
  | some upload =>
      rw [wp_bind_iff]
      refine (lastPart_wp live held).mono ?_ (fun _ _ _ failed => ⟨failed.1, .inl failed.2⟩)
      rintro sent after log ⟨kept, parts, rfl, numbered, whole, logged⟩
      rw [wp_sendWith_iff]
      intro response
      cases response with
      | error error =>
          refine ⟨kept, .inr (.inr ⟨upload, log, _, _, _, rfl, ?_, rfl⟩)⟩
          refine ⟨_, logged, ?_⟩
          intro event member
          obtain ⟨part, -, rfl⟩ := List.mem_map.mp member
          exact ⟨_, _, _, rfl⟩
      | ok value =>
          refine .inr ⟨upload, parts, numbered, whole, ?_⟩
          rw [logged]

/-- A close publishes the content, or it aborts the upload and reports an error. -/
theorem commitStream_wp {key : Text} (live : Live vfs key precondition parts content stream log) :
    (vfs.commitStream key).Wp stream log
      (fun _ _ log => Publishes vfs key (vfs.precondition precondition) content log)
      (fun _ _ log => ∃ before, Unpublished vfs key stream.upload before ∧
        Aborted vfs key stream.upload before log) := by
  unfold S3Vfs.commitStream
  rw [wp_bind_iff, wp_attempt_iff]
  refine (finishStream_wp live).mono ?_ ?_
  · intro value after log published
    rw [wp_pure_iff]
    exact published
  · rintro error after log ⟨same, unpublished⟩
    rw [wp_bind_iff, wp_get_iff, wp_bind_iff, wp_perform_iff]
    refine (abortStream_wp vfs key after log).mono ?_ (fun _ _ _ impossible => impossible.elim)
    rintro ⟨⟩ ⟨⟩ reached aborted
    rw [wp_throw_iff]
    exact ⟨log, unpublished, same ▸ aborted⟩

theorem closeResolved_stream_wp (state : HandleState)
    (live : Live vfs state.key precondition parts content stream log)
    (held : state.staging = .stream stream) :
    vfs.closeResolved.Wp state log
      (fun _ after log =>
        (∃ stream, after = { state with staging := .stream stream, released := true }) ∧
        Publishes vfs state.key (vfs.precondition precondition) content log)
      (fun _ after log =>
        (∃ stream, after = { state with staging := .stream stream, released := true }) ∧
        ∃ before, Unpublished vfs state.key stream.upload before ∧
          Aborted vfs state.key stream.upload before log) := by
  unfold S3Vfs.closeResolved S3Vfs.commit
  rw [wp_bind_iff, wp_get_iff, wp_bind_iff, wp_set_iff, wp_bind_iff, wp_get_iff, held,
    wp_focus_iff]
  exact (commitStream_wp live).mono (fun _ left _ published => ⟨⟨left, rfl⟩, published⟩)
    (fun _ left _ failed => ⟨⟨left, rfl⟩, failed⟩)

end Handles

end TinySandbox.S3
