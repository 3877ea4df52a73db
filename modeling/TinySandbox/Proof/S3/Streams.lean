/-
This file describes the requests and the content of a stream while its handle is open.
The uploaded parts and the pending tail together are the bytes written so far.
-/

import TinySandbox.Construction.S3.Vfs
import TinySandbox.Specification.FlatFs

namespace TinySandbox.S3
open Library Library.Task

/-- These are the events of an upload that got the given parts. -/
def uploadEvents (vfs : S3Vfs) (key : Text) (parts : List (UploadedPart × Bytes)) :
    Option Upload → List S3Event
  | none => []
  | some upload =>
      ⟨.createUpload vfs.bucket key, .ok upload.id⟩ ::
        parts.map fun part =>
          ⟨.uploadPart vfs.bucket key upload.id part.1.partNumber part.2, .ok part.1.etag⟩

/-- A live stream has uploaded the first parts of its content and keeps the rest as its tail. -/
structure Live (vfs : S3Vfs) (key : Text) (precondition : Precondition)
    (parts : List (UploadedPart × Bytes)) (content : Bytes) (stream : Stream)
    (log : List S3Event) : Prop where
  precondition : stream.precondition = precondition
  uploaded : (stream.upload.map Upload.parts).getD [] = parts.map Prod.fst
  numbered : parts.map (fun part => part.1.partNumber) = List.range' 1 parts.length
  flushed : stream.flushed = (parts.map Prod.snd).flatten.length
  content : content = (parts.map Prod.snd).flatten ++ stream.buffer
  logged : log = uploadEvents vfs key parts stream.upload

/-- The requests of a stream that has not ended name the upload that the stream holds. -/
def Uploading (vfs : S3Vfs) (key : Text) : Option Upload → List S3Event → Prop
  | none, log => ∀ event ∈ log, ∃ error, event = ⟨.createUpload vfs.bucket key, .error error⟩
  | some upload, log =>
      ∃ rest, log = ⟨.createUpload vfs.bucket key, .ok upload.id⟩ :: rest ∧
        ∀ event ∈ rest, ∃ number body response,
          event = ⟨.uploadPart vfs.bucket key upload.id number body, response⟩

section Streams
variable {vfs : S3Vfs} {key : Text} {precondition : Precondition}
  {parts : List (UploadedPart × Bytes)} {content : Bytes} {stream : Stream} {log : List S3Event}

theorem Live.uploading (live : Live vfs key precondition parts content stream log) :
    Uploading vfs key stream.upload log := by
  have logged := live.logged
  cases held : stream.upload with
  | none => simp [logged, held, uploadEvents, Uploading]
  | some upload =>
      refine ⟨_, by rw [logged, held]; rfl, ?_⟩
      intro event member
      obtain ⟨part, -, rfl⟩ := List.mem_map.mp member
      exact ⟨_, _, _, rfl⟩

theorem Live.length (live : Live vfs key precondition parts content stream log) :
    content.length = stream.flushed + stream.buffer.length := by
  rw [live.content, live.flushed, List.length_append]

theorem Live.count (live : Live vfs key precondition parts content stream log) :
    stream.uploaded = parts.length := by
  have uploaded := congrArg List.length live.uploaded
  unfold Stream.uploaded
  cases held : stream.upload with
  | none => simpa [held] using uploaded
  | some upload => simpa [held] using uploaded

theorem Stream.new_live (vfs : S3Vfs) (key : Text) (precondition : Precondition) :
    Live vfs key precondition [] [] (Stream.new precondition) [] := by
  constructor <;> rfl

theorem eq_of_i32TryFrom {value found : Nat} (fits : i32TryFrom value = some found) :
    value = found := by
  unfold i32TryFrom at fits
  split at fits
  · exact Option.some.inj fits
  · cases fits

theorem Uploading.snoc {upload : Upload} (uploading : Uploading vfs key (some upload) log)
    (number : Nat) (body : Bytes) (response : Response (.uploadPart vfs.bucket key upload.id number body)) :
    Uploading vfs key (some upload)
      (log ++ [⟨.uploadPart vfs.bucket key upload.id number body, response⟩]) := by
  obtain ⟨rest, rfl, named⟩ := uploading
  refine ⟨_, rfl, ?_⟩
  intro event member
  rcases List.mem_append.mp member with old | new
  · exact named event old
  · exact ⟨_, _, _, List.mem_singleton.mp new⟩

/-- A live stream stays live when its upload is created. -/
theorem openUpload_wp (live : Live vfs key precondition parts content stream log) :
    (vfs.openUpload key).Wp stream log
      (fun id after log => Live vfs key precondition parts content after log ∧
        after.buffer = stream.buffer ∧ ∃ upload, after.upload = some upload ∧ upload.id = id)
      (fun _ after log => Uploading vfs key after.upload log) := by
  have logged := live.logged
  have uploaded := live.uploaded
  unfold S3Vfs.openUpload
  rw [wp_bind_iff, wp_get_iff]
  cases held : stream.upload with
  | some upload =>
      rw [wp_pure_iff]
      exact ⟨live, rfl, upload, held, rfl⟩
  | none =>
      rw [wp_bind_iff, wp_send_iff]
      intro response
      rw [held] at logged uploaded
      obtain rfl : parts = [] := by simpa using uploaded.symm
      obtain rfl : log = [] := logged
      cases response with
      | error error => simp [Uploading, held]
      | ok id =>
          rw [mapErr_ok, judged_ok, wp_bind_iff, wp_set_iff, wp_pure_iff]
          refine ⟨⟨live.precondition, rfl, rfl, live.flushed, live.content, ?_⟩, rfl, _, rfl, rfl⟩
          simp [uploadEvents]

/-- A part that was uploaded joins the parts, also when the length then overflows. -/
theorem pushPart_wp_iff {upload : Upload} (held : stream.upload = some upload)
    (part : UploadedPart) (len : Nat) {returns : Unit → Stream → List S3Event → Prop}
    {fails : Errno → Stream → List S3Event → Prop} :
    (S3Vfs.pushPart part len).Wp stream log returns fails ↔
      Judged (fun flushed after => returns () { after with flushed }) fails
        { stream with upload := some { upload with parts := upload.parts ++ [part] } } log
        (Call.okOr .EFBIG (checkedAdd stream.flushed len)) := by
  unfold S3Vfs.pushPart
  rw [wp_bind_iff, wp_get_iff, held]
  simp only [wp_bind_iff, wp_set_iff, wp_lift_iff]
  cases checkedAdd stream.flushed len <;> rfl

/-- A part moves bytes from the tail to the uploaded parts. -/
theorem flushPart_wp (live : Live vfs key precondition parts content stream log) (size : Nat) :
    (vfs.flushPart key parts.length size).Wp stream log
      (fun _ after log => (∃ part, Live vfs key precondition (parts ++ [part]) content after log) ∧
        after.buffer = stream.buffer.drop size)
      (fun _ after log => Uploading vfs key after.upload log) := by
  unfold S3Vfs.flushPart
  rw [wp_bind_iff]
  refine (openUpload_wp live).mono ?_ (fun _ _ _ uploading => uploading)
  rintro id opened log ⟨live, tail, upload, held, rfl⟩
  have uploading := live.uploading
  have logged := live.logged
  have uploaded := live.uploaded
  rw [held] at logged uploaded
  simp only [wp_bind_iff, wp_get_iff, wp_set_iff, wp_lift_iff]
  cases number : i32TryFrom (parts.length + 1) with
  | none => exact uploading
  | some partNumber =>
      obtain rfl := eq_of_i32TryFrom number
      rw [Call.okOr_some, judged_ok, wp_send_iff]
      intro response
      rw [held] at uploading
      have sent := uploading.snoc (parts.length + 1) (opened.buffer.take size) response
      cases response with
      | error error =>
          show Uploading vfs key opened.upload _
          rw [held]
          exact sent
      | ok etag =>
          rw [mapErr_ok, judged_ok]
          refine (pushPart_wp_iff (by exact held) _ _).mpr ?_
          cases fits : checkedAdd opened.flushed (opened.buffer.take size).length with
          | none =>
              obtain ⟨rest, begun, named⟩ := sent
              exact ⟨rest, begun, named⟩
          | some flushed =>
              refine ⟨⟨({ partNumber := parts.length + 1, etag := etag }, opened.buffer.take size), ?_⟩,
                by rw [← tail]⟩
              constructor
              · exact live.precondition
              · simp [← uploaded]
              · simp [live.numbered, List.range'_concat, Nat.add_comm]
              · simp [← eq_of_checkedAdd fits, live.flushed]
              · simp [live.content]
              · simp [logged, uploadEvents]

/-- The flush keeps the content of a live stream. -/
theorem flushLoop_wp (fuel : Nat) (live : Live vfs key precondition parts content stream log) :
    (vfs.flushLoop key fuel).Wp stream log
      (fun _ after log => ∃ parts, Live vfs key precondition parts content after log)
      (fun _ after log => Uploading vfs key after.upload log) := by
  induction fuel generalizing stream log parts with
  | zero => exact wp_diverge
  | succ fuel ih =>
      unfold S3Vfs.flushLoop
      rw [wp_bind_iff, wp_get_iff]
      split
      · rw [wp_pure_iff]
        exact ⟨parts, live⟩
      · rw [wp_bind_iff, live.count]
        refine (flushPart_wp live _).mono ?_ (fun _ _ _ uploading => uploading)
        rintro ⟨⟩ after log ⟨⟨part, live⟩, -⟩
        exact ih live

theorem flushParts_wp (live : Live vfs key precondition parts content stream log) :
    (vfs.flushParts key).Wp stream log
      (fun _ after log => ∃ parts, Live vfs key precondition parts content after log)
      (fun _ after log => Uploading vfs key after.upload log) := by
  unfold S3Vfs.flushParts
  rw [wp_bind_iff, wp_get_iff]
  exact flushLoop_wp _ live

/-- The tail of a live stream can change when the content changes with it. -/
theorem Live.withBuffer (live : Live vfs key precondition parts content stream log)
    (buffer : Bytes) :
    Live vfs key precondition parts ((parts.map Prod.snd).flatten ++ buffer)
      { stream with buffer } log :=
  ⟨live.precondition, live.uploaded, live.numbered, live.flushed, rfl, live.logged⟩

theorem resize_grown (bytes : Bytes) (size : Nat) :
    resize bytes (bytes.length + size) = bytes ++ List.replicate size 0 := by
  simp [resize]

theorem usizeTryFrom_getD_le (missing : Nat) : (usizeTryFrom missing).getD u64Max ≤ missing := by
  unfold usizeTryFrom
  split <;> simp only [Option.getD_some, Option.getD_none] <;> omega

/-- The gap is filled with zeros up to the target. -/
theorem fillLoop_wp (target fuel : Nat)
    (live : Live vfs key precondition parts content stream log)
    (below : stream.flushed ≤ target) :
    (vfs.fillLoop key target fuel).Wp stream log
      (fun _ after log => after.flushed ≤ target ∧ ∃ parts, Live vfs key precondition parts
        (content ++ List.replicate (target - content.length) 0) after log)
      (fun _ after log => Uploading vfs key after.upload log) := by
  induction fuel generalizing stream log parts content with
  | zero => exact wp_diverge
  | succ fuel ih =>
      have length := live.length
      unfold S3Vfs.fillLoop
      rw [wp_bind_iff, wp_get_iff, wp_bind_iff, wp_lift_iff]
      unfold Stream.end
      cases fits : checkedAdd stream.flushed stream.buffer.length with
      | none => exact live.uploading
      | some finish =>
          obtain rfl := eq_of_checkedAdd fits
          rw [Call.okOr_some, judged_ok]
          split
          · rename_i reached
            rw [wp_pure_iff]
            have none : target - content.length = 0 := by omega
            rw [none, List.replicate_zero, List.append_nil]
            exact ⟨below, parts, live⟩
          · rename_i short
            have small := min_le_right (max (vfs.partSizeAt stream.uploaded - stream.buffer.length) 1)
              ((usizeTryFrom (target - (stream.flushed + stream.buffer.length))).getD u64Max)
            replace small := small.trans (usizeTryFrom_getD_le _)
            rw [wp_bind_iff, wp_set_iff, wp_bind_iff]
            generalize min (max (vfs.partSizeAt stream.uploaded - stream.buffer.length) 1)
              ((usizeTryFrom (target - (stream.flushed + stream.buffer.length))).getD u64Max) = size
              at small
            have grown : (parts.map Prod.snd).flatten ++
                resize stream.buffer (stream.buffer.length + size) =
                content ++ List.replicate size 0 := by
              rw [resize_grown, ← List.append_assoc, ← live.content]
            refine (flushParts_wp (grown ▸ live.withBuffer _)).mono ?_
              (fun _ _ _ uploading => uploading)
            rintro ⟨⟩ after log ⟨parts, live⟩
            have bound := live.length
            rw [List.length_append, List.length_replicate] at bound
            have filled : content ++ List.replicate size 0 ++
                List.replicate (target - (content ++ List.replicate size 0).length) 0 =
                content ++ List.replicate (target - content.length) 0 := by
              rw [List.append_assoc, ← List.replicate_add]
              congr 2
              rw [List.length_append, List.length_replicate]
              omega
            rw [← filled]
            exact ih live (by omega)

theorem fillGap_wp (target : Nat) (live : Live vfs key precondition parts content stream log)
    (below : stream.flushed ≤ target) :
    (vfs.fillGap key target).Wp stream log
      (fun _ after log => after.flushed ≤ target ∧ ∃ parts, Live vfs key precondition parts
        (content ++ List.replicate (target - content.length) 0) after log)
      (fun _ after log => Uploading vfs key after.upload log) :=
  fillLoop_wp target (target + 1) live below

/-- A write inside the filled content replaces bytes of the tail only. -/
theorem overwritten_tail {front buffer data : Bytes} {target past : Nat}
    (below : front.length ≤ target) (reached : target ≤ (front ++ buffer).length)
    (ends : past = target - front.length + data.length) :
    front ++ copyFromSlice (if buffer.length < past then resize buffer past else buffer)
        (target - front.length) data =
      FlatFs.overwritten (front ++ buffer) target data := by
  rw [List.length_append] at reached
  unfold FlatFs.overwritten FlatFs.resized copyFromSlice resize
  have none : target - (front ++ buffer).length = 0 := by
    rw [List.length_append]
    omega
  rw [none, List.replicate_zero, List.append_nil, List.take_append, List.take_of_length_le below,
    List.drop_append, List.drop_of_length_le (show front.length ≤ target + data.length by omega),
    List.nil_append]
  have shift : target + data.length - front.length = past := by omega
  rw [shift, ← ends]
  split
  · rename_i short
    rw [List.take_of_length_le (show buffer.length ≤ past by omega),
      List.take_append_of_le_length (by omega),
      List.drop_of_length_le (show buffer.length ≤ past by omega),
      List.drop_of_length_le (by rw [List.length_append, List.length_replicate]; omega)]
    simp only [List.append_assoc]
  · simp only [List.append_assoc]

theorem overwritten_filled (content data : Bytes) (target : Nat) :
    FlatFs.overwritten (content ++ List.replicate (target - content.length) 0) target data =
      FlatFs.overwritten content target data := by
  unfold FlatFs.overwritten FlatFs.resized
  rcases Nat.le_total target content.length with inside | gap
  · rw [Nat.sub_eq_zero_of_le inside, List.replicate_zero, List.append_nil]
    simp [Nat.sub_eq_zero_of_le inside]
  · have length : (content ++ List.replicate (target - content.length) (0 : UInt8)).length = target := by
      rw [List.length_append, List.length_replicate]
      omega
    rw [List.take_of_length_le (by omega), List.take_of_length_le gap, length, Nat.sub_self,
      List.replicate_zero, List.append_nil, List.drop_of_length_le (by omega),
      List.drop_of_length_le (by omega)]

theorem writeTail_wp (target : Nat) (data : Bytes)
    (live : Live vfs key precondition parts content stream log)
    (below : stream.flushed ≤ target) (reached : target ≤ content.length) :
    (S3Vfs.writeTail target data).Wp stream log
      (fun _ after log => Live vfs key precondition parts
        (FlatFs.overwritten content target data) after log)
      (fun _ after log => Uploading vfs key after.upload log) := by
  unfold S3Vfs.writeTail
  rw [wp_bind_iff, wp_get_iff, wp_bind_iff, wp_lift_iff]
  cases start : usizeTryFrom (target - stream.flushed) with
  | none => exact live.uploading
  | some start =>
      obtain rfl := eq_of_usizeTryFrom start
      rw [Call.okOr_some, judged_ok, wp_bind_iff, wp_lift_iff]
      cases fits : checkedAdd (target - stream.flushed) data.length with
      | none => exact live.uploading
      | some past =>
          rw [Call.okOr_some, judged_ok, wp_set_iff]
          have written := live.withBuffer (copyFromSlice (if stream.buffer.length < past
            then resize stream.buffer past else stream.buffer) (target - stream.flushed) data)
          have flushed := live.flushed
          rw [flushed] at below fits
          rw [live.content] at reached ⊢
          rw [flushed, overwritten_tail below reached (eq_of_checkedAdd fits).symm, ← flushed] at written
          exact written

/-- A stream write changes the content as a plain write does. -/
theorem writeStream_wp (target : Nat) (data : Bytes)
    (live : Live vfs key precondition parts content stream log) (below : stream.flushed ≤ target) :
    (vfs.writeStream key target data).Wp stream log
      (fun _ after log => ∃ parts, Live vfs key precondition parts
        (FlatFs.overwritten content target data) after log)
      (fun _ after log => Uploading vfs key after.upload log) := by
  unfold S3Vfs.writeStream
  rw [wp_bind_iff]
  refine (fillGap_wp target live below).mono ?_ (fun _ _ _ uploading => uploading)
  rintro ⟨⟩ filled log ⟨below, parts, live⟩
  rw [wp_bind_iff]
  have reached : target ≤ (content ++ List.replicate (target - content.length) (0 : UInt8)).length := by
    rw [List.length_append, List.length_replicate]
    omega
  refine (writeTail_wp target data live below reached).mono ?_ (fun _ _ _ uploading => uploading)
  rintro ⟨⟩ written log live
  rw [overwritten_filled] at live
  rw [wp_bind_iff]
  refine (flushParts_wp live).mono ?_ (fun _ _ _ uploading => uploading)
  rintro ⟨⟩ after log live
  rw [wp_pure_iff]
  exact live

end Streams

end TinySandbox.S3
