/-
This file counts the parts of a stream and the bytes they hold.
A stream with nothing but whole parts has flushed the sum of their sizes.
-/

import TinySandbox.Proof.S3.StreamSessions
import TinySandbox.Specification.StrictStreams

namespace TinySandbox.S3
open Library Library.Task Mem

/-- The bytes in the first parts of an upload. -/
def S3Vfs.capacity (vfs : S3Vfs) : Nat → Nat
  | 0 => 0
  | parts + 1 => vfs.capacity parts + vfs.partSizeAt parts

theorem S3Vfs.capacity_mono (vfs : S3Vfs) {fewer parts : Nat} (less : fewer ≤ parts) :
    vfs.capacity fewer ≤ vfs.capacity parts := by
  induction less with
  | refl => exact le_refl _
  | step _ ih => exact ih.trans (Nat.le_add_right _ _)

section Initial
variable {vfs : S3Vfs}

theorem sizeClass_le {uploaded : Nat} (few : uploaded < maxParts) :
    uploaded / partsPerSizeClass ≤ 9 := by
  unfold maxParts at few
  unfold partsPerSizeClass
  omega

/-- The cap on the exponent and the largest word are out of reach below the part limit. -/
theorem partSizeAt_of_initial (initial : vfs.partSize = initialPartSize) {uploaded : Nat}
    (few : uploaded < maxParts) :
    vfs.partSizeAt uploaded = initialPartSize * 2 ^ (uploaded / partsPerSizeClass) := by
  have small := sizeClass_le few
  have power : 2 ^ (uploaded / partsPerSizeClass) ≤ 2 ^ 9 := Nat.pow_le_pow_right (by decide) small
  unfold S3Vfs.partSizeAt
  rw [initial, min_eq_left (small.trans (by decide)), min_eq_left]
  calc initialPartSize * 2 ^ (uploaded / partsPerSizeClass)
      ≤ initialPartSize * 2 ^ 9 := Nat.mul_le_mul_left _ power
    _ ≤ u64Max := by decide

theorem partSizeAt_bounds (initial : vfs.partSize = initialPartSize) {uploaded : Nat}
    (few : uploaded < maxParts) :
    minPartBytes ≤ vfs.partSizeAt uploaded ∧ vfs.partSizeAt uploaded ≤ initialPartSize * 2 ^ 9 := by
  have small := sizeClass_le few
  rw [partSizeAt_of_initial initial few]
  constructor
  · calc minPartBytes ≤ initialPartSize * 1 := by decide
      _ ≤ initialPartSize * 2 ^ (uploaded / partsPerSizeClass) :=
          Nat.mul_le_mul_left _ Nat.one_le_two_pow
  · exact Nat.mul_le_mul_left _ (Nat.pow_le_pow_right (by decide) small)

/-- The checked computation of a part size succeeds. -/
theorem Strict.partSizeAt_of_initial (initial : vfs.partSize = initialPartSize) {uploaded : Nat}
    (few : uploaded < maxParts) :
    Strict.partSizeAt vfs uploaded = some (vfs.partSizeAt uploaded) := by
  have small : uploaded / partsPerSizeClass < 64 := (sizeClass_le few).trans_lt (by decide)
  have upper := (partSizeAt_bounds initial few).2
  have fits : initialPartSize * 2 ^ 9 ≤ u64Max := by decide
  rw [S3.partSizeAt_of_initial initial few] at upper ⊢
  unfold Strict.partSizeAt Strict.checkedShift Strict.checkedMul
  rw [if_pos small, initial]
  exact if_pos (upper.trans fits)

/-- Parts of one size class add up to a multiple of their size. -/
theorem capacity_class (initial : vfs.partSize = initialPartSize) {sizeClass count : Nat}
    (low : sizeClass ≤ 9) (within : count ≤ partsPerSizeClass) :
    vfs.capacity (partsPerSizeClass * sizeClass + count) =
      vfs.capacity (partsPerSizeClass * sizeClass) + count * (initialPartSize * 2 ^ sizeClass) := by
  induction count with
  | zero => simp
  | succ count ih =>
      have few : partsPerSizeClass * sizeClass + count < maxParts := by
        unfold partsPerSizeClass at within ⊢
        unfold maxParts
        omega
      have same : (partsPerSizeClass * sizeClass + count) / partsPerSizeClass = sizeClass := by
        unfold partsPerSizeClass at within ⊢
        omega
      rw [← Nat.add_assoc, S3Vfs.capacity, ih (by omega), partSizeAt_of_initial initial few, same]
      ring

/-- Every class doubles the size of the one before, so the sum is one class short of the next. -/
theorem capacity_classes (initial : vfs.partSize = initialPartSize) {classes : Nat}
    (low : classes ≤ 10) :
    vfs.capacity (partsPerSizeClass * classes) + partsPerSizeClass * initialPartSize =
      partsPerSizeClass * initialPartSize * 2 ^ classes := by
  induction classes with
  | zero => simp [S3Vfs.capacity]
  | succ classes ih =>
      rw [Nat.mul_succ, capacity_class initial (by omega) (le_refl _), pow_succ]
      have before := ih (by omega)
      linarith

/-- Ten thousand parts hold more than the largest object. -/
theorem lt_maxParts_of_flushed (initial : vfs.partSize = initialPartSize) {uploaded : Nat}
    (flushed : vfs.capacity uploaded ≤ maxObjectBytes + initialPartSize * 2 ^ 9) :
    uploaded < maxParts := by
  by_contra many
  have whole := capacity_classes initial (le_refl 10)
  have reached := vfs.capacity_mono (Nat.not_lt.mp many)
  have count : partsPerSizeClass * 10 = maxParts := by decide
  have room : maxObjectBytes + initialPartSize * 2 ^ 9 + partsPerSizeClass * initialPartSize <
      partsPerSizeClass * initialPartSize * 2 ^ 10 := by decide
  rw [count] at whole
  omega

end Initial

/-- The upload of a stream has only whole parts. -/
structure Paced (vfs : S3Vfs) (stream : Stream) (log : List S3Event) : Prop where
  flushed : stream.flushed = vfs.capacity stream.uploaded
  sent : sentParts log =
    (List.range stream.uploaded).map fun index => (index + 1, vfs.partSizeAt index)

/-- The pending tail is less than a part. -/
structure Drained (vfs : S3Vfs) (stream : Stream) (log : List S3Event) : Prop
    extends Paced vfs stream log where
  tail : stream.buffer.length < vfs.partSizeAt stream.uploaded

/-- The number of bytes that were written, in the upload and in the tail. -/
def Stream.total (stream : Stream) : Nat := stream.flushed + stream.buffer.length

section Pacing
variable {vfs : S3Vfs} {key : Text} {stream : Stream} {log : List S3Event}

theorem sentParts_append (first second : List S3Event) :
    sentParts (first ++ second) = sentParts first ++ sentParts second :=
  List.filterMap_append

/-- A new upload has no parts, so the pace stays. -/
theorem openUpload_paced_wp (paced : Paced vfs stream log) :
    (vfs.openUpload key).Wp stream log
      (fun id after log => Paced vfs after log ∧ after.buffer = stream.buffer ∧
        after.uploaded = stream.uploaded ∧ ∃ upload, after.upload = some upload ∧ upload.id = id)
      (fun _ _ _ => True) := by
  unfold S3Vfs.openUpload
  rw [wp_bind_iff, wp_get_iff]
  cases held : stream.upload with
  | some upload =>
      rw [wp_pure_iff]
      exact ⟨paced, rfl, rfl, upload, held, rfl⟩
  | none =>
      refine wp_send_bind (fun _ => trivial) ?_
      intro id
      rw [wp_bind_iff, wp_set_iff, wp_pure_iff]
      have none : stream.uploaded = 0 := by simp [Stream.uploaded, held]
      have flushed := paced.flushed
      have sent := paced.sent
      rw [none] at flushed sent
      refine ⟨⟨flushed, ?_⟩, rfl, none.symm, _, rfl, rfl⟩
      rw [sentParts_append, sent]
      rfl

theorem pushPart_paced_wp {upload : Upload} (held : stream.upload = some upload)
    (part : UploadedPart) (len : Nat) :
    (S3Vfs.pushPart part len).Wp stream log
      (fun _ after reached => reached = log ∧ after.buffer = stream.buffer ∧
        after.flushed = stream.flushed + len ∧ after.uploaded = stream.uploaded + 1)
      (fun _ _ _ => True) := by
  rw [pushPart_wp_iff held]
  cases fits : checkedAdd stream.flushed len with
  | none => trivial
  | some flushed =>
      refine ⟨rfl, rfl, (eq_of_checkedAdd fits).symm, ?_⟩
      simp [Stream.uploaded, held]

/-- A whole part leaves the tail. -/
theorem flushPart_paced_wp (paced : Paced vfs stream log)
    (whole : vfs.partSizeAt stream.uploaded ≤ stream.buffer.length) :
    (vfs.flushPart key stream.uploaded (vfs.partSizeAt stream.uploaded)).Wp stream log
      (fun _ after log => Paced vfs after log ∧ after.total = stream.total) (fun _ _ _ => True) := by
  have start := paced.flushed
  unfold S3Vfs.flushPart
  refine (openUpload_paced_wp paced).bind ?_
  rintro id opened log ⟨paced, buffer, count, upload, held, rfl⟩
  simp only [wp_bind_iff, wp_get_iff, wp_set_iff, wp_lift_iff]
  cases number : i32TryFrom (stream.uploaded + 1) with
  | none => trivial
  | some partNumber =>
      obtain rfl := eq_of_i32TryFrom number
      rw [Call.okOr_some, judged_ok, wp_send_iff]
      intro response
      cases response with
      | error error => trivial
      | ok etag =>
          rw [mapErr_ok, judged_ok]
          refine (pushPart_paced_wp (by exact held) _ _).mono ?_ (fun _ _ _ _ => trivial)
          rintro ⟨⟩ after reached ⟨rfl, tail, flushed, uploaded⟩
          have taken : (opened.buffer.take (vfs.partSizeAt stream.uploaded)).length =
              vfs.partSizeAt stream.uploaded := by
            rw [buffer, List.length_take, min_eq_left whole]
          have before := paced.flushed
          have sent := paced.sent
          change after.uploaded = opened.uploaded + 1 at uploaded
          change after.flushed = opened.flushed + _ at flushed
          rw [count] at before sent uploaded
          rw [taken, before] at flushed
          refine ⟨⟨by rw [flushed, uploaded]; rfl, ?_⟩, ?_⟩
          · rw [sentParts_append, sent, uploaded, List.range_succ, List.map_append]
            exact congrArg (fun size => _ ++ [(stream.uploaded + 1, size)]) taken
          · unfold Stream.total
            rw [flushed, tail, List.length_drop, buffer, start]
            omega

/-- The flush ends with less than a part in the tail. -/
theorem flushLoop_drained_wp (fuel : Nat) (paced : Paced vfs stream log) :
    (vfs.flushLoop key fuel).Wp stream log
      (fun _ after log => Drained vfs after log ∧ after.total = stream.total)
      (fun _ _ _ => True) := by
  induction fuel generalizing stream log with
  | zero => exact wp_diverge
  | succ fuel ih =>
      unfold S3Vfs.flushLoop
      rw [wp_bind_iff, wp_get_iff]
      split
      · rename_i less
        rw [wp_pure_iff]
        exact ⟨⟨paced, less⟩, rfl⟩
      · rename_i whole
        refine (flushPart_paced_wp paced (Nat.not_lt.mp whole)).bind ?_
        rintro ⟨⟩ after log ⟨paced, total⟩
        rw [← total]
        exact ih paced

theorem flushParts_drained_wp (paced : Paced vfs stream log) :
    (vfs.flushParts key).Wp stream log
      (fun _ after log => Drained vfs after log ∧ after.total = stream.total)
      (fun _ _ _ => True) := by
  unfold S3Vfs.flushParts
  rw [wp_bind_iff, wp_get_iff]
  exact flushLoop_drained_wp _ paced

theorem Paced.withBuffer (paced : Paced vfs stream log) (buffer : Bytes) :
    Paced vfs { stream with buffer } log :=
  ⟨paced.flushed, paced.sent⟩

/-- A round of the fill adds at most the missing bytes. -/
theorem fillLoop_drained_wp (target fuel : Nat) (drained : Drained vfs stream log)
    (below : stream.flushed ≤ target) :
    (vfs.fillLoop key target fuel).Wp stream log
      (fun _ after log => Drained vfs after log ∧ after.flushed ≤ target ∧
        after.total = max stream.total target)
      (fun _ _ _ => True) := by
  induction fuel generalizing stream log with
  | zero => exact wp_diverge
  | succ fuel ih =>
      unfold S3Vfs.fillLoop
      rw [wp_bind_iff, wp_get_iff, wp_bind_iff, wp_lift_iff]
      cases finished : stream.end with
      | error error => trivial
      | ok finish =>
          obtain ⟨rfl, -⟩ := Stream.end_eq_ok_iff.mp finished
          change Wp _ _ _ _ _
          split
          · rename_i reached
            rw [wp_pure_iff]
            exact ⟨drained, below, (max_eq_left reached).symm⟩
          · rename_i short
            have small := (min_le_right
              (max (vfs.partSizeAt stream.uploaded - stream.buffer.length) 1) _).trans
              (usizeTryFrom_getD_le (target - (stream.flushed + stream.buffer.length)))
            rw [wp_bind_iff, wp_set_iff]
            refine (flushParts_drained_wp (drained.toPaced.withBuffer _)).bind ?_
            rintro ⟨⟩ after log ⟨drained, total⟩
            rw [resize_grown] at total
            simp only [Stream.total, List.length_append, List.length_replicate] at total ⊢
            generalize min (max (vfs.partSizeAt stream.uploaded - stream.buffer.length) 1)
              ((usizeTryFrom (target - (stream.flushed + stream.buffer.length))).getD u64Max) = size
              at small total
            refine (ih drained (by omega)).mono ?_ (fun _ _ _ _ => trivial)
            rintro ⟨⟩ filled log ⟨drained, below, reached⟩
            refine ⟨drained, below, ?_⟩
            simp only [Stream.total] at reached
            omega

theorem fillGap_drained_wp (target : Nat) (drained : Drained vfs stream log)
    (below : stream.flushed ≤ target) :
    (vfs.fillGap key target).Wp stream log
      (fun _ after log => Drained vfs after log ∧ after.flushed ≤ target ∧
        after.total = max stream.total target)
      (fun _ _ _ => True) :=
  fillLoop_drained_wp target (target + 1) drained below

theorem length_copyFromSlice {bytes data : Bytes} {start : Nat}
    (inside : start + data.length ≤ bytes.length) :
    (copyFromSlice bytes start data).length = bytes.length := by
  simp only [copyFromSlice, List.length_append, List.length_take, List.length_drop]
  omega

theorem length_resize (bytes : Bytes) (len : Nat) : (resize bytes len).length = len := by
  simp only [resize, List.length_append, List.length_take, List.length_replicate]
  omega

/-- The data lands in the tail, which grows to hold it. -/
theorem writeTail_paced_wp {target : Nat} (data : Bytes) (paced : Paced vfs stream log)
    (below : stream.flushed ≤ target) :
    (S3Vfs.writeTail target data).Wp stream log
      (fun _ after log => Paced vfs after log ∧
        after.total = max stream.total (target + data.length))
      (fun _ _ _ => True) := by
  unfold S3Vfs.writeTail
  rw [wp_bind_iff, wp_get_iff]
  rw [wp_bind_iff, wp_lift_iff]
  cases start : usizeTryFrom (target - stream.flushed) with
  | none => trivial
  | some start =>
      obtain rfl := eq_of_usizeTryFrom start
      rw [Call.okOr_some, judged_ok, wp_bind_iff, wp_lift_iff]
      cases fits : checkedAdd (target - stream.flushed) data.length with
      | none => trivial
      | some past =>
          obtain rfl := eq_of_checkedAdd fits
          rw [Call.okOr_some, judged_ok, wp_set_iff]
          refine ⟨paced.withBuffer _, ?_⟩
          change stream.flushed + (copyFromSlice _ _ _).length =
            max (stream.flushed + stream.buffer.length) _
          split
          · rename_i short
            rw [length_copyFromSlice (by rw [length_resize]), length_resize]
            omega
          · rename_i long
            rw [length_copyFromSlice (Nat.not_lt.mp long)]
            omega

theorem writeStream_drained_wp {target : Nat} (data : Bytes) (drained : Drained vfs stream log)
    (below : stream.flushed ≤ target) :
    (vfs.writeStream key target data).Wp stream log
      (fun _ after log => Drained vfs after log ∧
        after.total = max stream.total (target + data.length))
      (fun _ _ _ => True) := by
  unfold S3Vfs.writeStream
  refine (fillGap_drained_wp target drained below).bind ?_
  rintro ⟨⟩ filled log ⟨drained, below, reached⟩
  refine (writeTail_paced_wp data drained.toPaced below).bind ?_
  rintro ⟨⟩ written log ⟨paced, grown⟩
  refine (flushParts_drained_wp paced).bind ?_
  rintro ⟨⟩ after log ⟨drained, total⟩
  rw [wp_pure_iff]
  exact ⟨drained, by omega⟩

/-- The service got more parts in a longer log. -/
theorem Paced.uploaded_le {later : Stream} {events : List S3Event} (paced : Paced vfs stream log)
    (after : Paced vfs later (log ++ events)) : stream.uploaded ≤ later.uploaded := by
  have before := congrArg List.length paced.sent
  have lengths := congrArg List.length after.sent
  rw [sentParts_append, List.length_append] at lengths
  rw [List.length_map, List.length_range] at before lengths
  omega

end Pacing

/-- The bytes that a stream has behind a call that it does not reject. -/
def Stream.totalAfter (append : Bool) (stream : Stream) : VfsCall → Nat
  | .writeAt _ offset data =>
      if data = [] then stream.total
      else max stream.total ((if append then stream.total else offset) + data.length)
  | .truncate _ len => len
  | _ => stream.total

section Handles
variable {vfs : S3Vfs} {stream : Stream} {cell : HandleState} {state : State} {handle : Nat}
  {log : List S3Event} {call : VfsCall}

theorem onStream_returns_wp {α : Type} {task : S3Task Stream α}
    {returns : α → Stream → List S3Event → Prop}
    (wp : task.Wp stream log returns (fun _ _ _ => True)) :
    (vfs.onStream stream task).Wp cell log
      (fun value after log => ∃ stream, after = { cell with staging := .stream stream } ∧
        returns value stream log)
      (fun _ _ _ => True) := by
  unfold S3Vfs.onStream
  rw [wp_bind_iff, wp_get_iff, wp_bind_iff, wp_attempt_iff, wp_focus_iff]
  refine wp.mono ?_ ?_
  · intro value after log returned
    rw [wp_pure_iff]
    exact ⟨after, rfl, returned⟩
  · intro error after log _
    exact (wp_trivial _ _ log).bind fun _ _ _ _ => wp_throw_iff.mpr trivial

theorem writeResolved_drained_wp (number offset : Nat) (data : Bytes)
    (drained : Drained vfs stream log) (held : cell.staging = .stream stream) :
    (vfs.writeResolved offset data).Wp cell log
      (fun _ after log => ∃ later, after = { cell with staging := .stream later } ∧
        Drained vfs later log ∧
        later.total = stream.totalAfter cell.mode.append (.writeAt number offset data))
      (fun _ _ _ => True) := by
  unfold S3Vfs.writeResolved
  rw [wp_bind_iff, wp_get_iff, wp_bind_iff, wp_refuse_iff]
  split
  · trivial
  · rw [wp_bind_iff, wp_refuse_iff]
    split
    · trivial
    · rw [held]
      by_cases empty : data = []
      · simp only [empty, if_true, wp_pure_iff]
        refine ⟨stream, ?_, drained, ?_⟩
        · rw [← held]
        · simp [Stream.totalAfter]
      · simp only [empty, if_false]
        refine wp_lift_bind (fun _ _ => trivial) ?_
        intro target aimed
        obtain ⟨same, below⟩ := writeTarget_eq_ok aimed
        refine (onStream_returns_wp (writeStream_drained_wp data drained below)).mono ?_
          (fun _ _ _ _ => trivial)
        rintro count after log ⟨later, rfl, drained, total⟩
        refine ⟨later, rfl, drained, ?_⟩
        simp only [Stream.totalAfter, empty, if_false]
        rw [total, same]
        rfl

theorem truncateResolved_drained_wp (number len : Nat) (drained : Drained vfs stream log)
    (held : cell.staging = .stream stream) :
    (vfs.truncateResolved len).Wp cell log
      (fun _ after log => ∃ later, after = { cell with staging := .stream later } ∧
        Drained vfs later log ∧
        later.total = stream.totalAfter cell.mode.append (.truncate number len))
      (fun _ _ _ => True) := by
  unfold S3Vfs.truncateResolved
  rw [wp_bind_iff, wp_get_iff, wp_bind_iff, wp_refuse_iff]
  split
  · trivial
  · rw [wp_bind_iff, wp_refuse_iff]
    split
    · trivial
    · rw [held]
      change Wp (_ >>= _) _ _ _ _
      rw [wp_bind_iff, wp_refuse_iff]
      split
      · trivial
      · rename_i above
        refine wp_lift_bind (fun _ _ => trivial) ?_
        intro finish finished
        obtain ⟨rfl, -⟩ := Stream.end_eq_ok_iff.mp finished
        split
        · rename_i longer
          refine (onStream_returns_wp
            (fillGap_drained_wp len drained (Nat.not_lt.mp above))).mono ?_ (fun _ _ _ _ => trivial)
          rintro ⟨⟩ after log ⟨later, rfl, drained, -, total⟩
          exact ⟨later, rfl, drained, total.trans (max_eq_right longer.le)⟩
        · rename_i inside
          unfold S3Vfs.cutTail
          cases converted : usizeTryFrom (len - stream.flushed) with
          | none => exact wp_throw_iff.mpr trivial
          | some keep =>
              obtain rfl := eq_of_usizeTryFrom converted
              change Wp (set (_ : HandleState)) _ _ _ _
              rw [wp_set_iff]
              refine ⟨_, rfl, ⟨drained.toPaced.withBuffer _, ?_⟩, ?_⟩
              · exact (List.length_take_le' _ _).trans_lt drained.tail
              · change stream.flushed + (stream.buffer.take (len - stream.flushed)).length = len
                rw [List.length_take]
                omega

/-- The handle holds a drained stream. -/
def HoldsDrained (vfs : S3Vfs) (handle : Nat) (cell : HandleState) (stream : Stream) (state : State)
    (log : List S3Event) : Prop :=
  state.handles.get handle = some { cell with staging := .stream stream } ∧ Drained vfs stream log

theorem call_drained_wp (streamed : StreamCall handle call)
    (holds : HoldsDrained vfs handle cell stream state log) :
    (vfs.call call).Wp state log
      (fun _ after log => ∃ later, HoldsDrained vfs handle cell later after log ∧
        later.total = stream.totalAfter cell.mode.append call)
      (fun _ _ _ => True) := by
  obtain ⟨found, drained⟩ := holds
  cases call with
  | writeAt number offset data =>
      obtain rfl : number = handle := streamed
      unfold S3Vfs.call S3Vfs.writeAt
      rw [wp_map_iff, onHandle_wp_iff found]
      refine (writeResolved_drained_wp number offset data drained rfl).mono ?_
        (fun _ _ _ _ => trivial)
      rintro count after log ⟨later, rfl, drained, total⟩
      exact ⟨later, ⟨by simp, drained⟩, total⟩
  | truncate number len =>
      obtain rfl : number = handle := streamed
      unfold S3Vfs.call S3Vfs.truncate
      rw [wp_map_iff, onHandle_wp_iff found]
      refine (truncateResolved_drained_wp number len drained rfl).mono ?_ (fun _ _ _ _ => trivial)
      rintro ⟨⟩ after log ⟨later, rfl, drained, total⟩
      exact ⟨later, ⟨by simp, drained⟩, total⟩
  | _ => exact streamed.elim

end Handles

end TinySandbox.S3
