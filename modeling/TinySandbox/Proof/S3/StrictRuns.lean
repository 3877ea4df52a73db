/-
This file shows that a stream below the largest object runs as with checked arithmetic.
-/

import TinySandbox.Proof.S3.PartSizes

namespace TinySandbox.S3
open Library Library.Task Mem

/-- A stream that ends within the largest object never has more bytes than this. -/
def maxStreamBytes : Nat := maxObjectBytes + initialPartSize * 2 ^ 9

theorem maxStreamBytes_le : maxStreamBytes ≤ u64Max := by decide

section Streams
variable {vfs : S3Vfs} {key : Text} {stream : Stream} {log : List S3Event}

theorem checkedAdd_of_le {left right : Nat} (fits : left + right ≤ u64Max) :
    checkedAdd left right = some (left + right) := if_pos fits

theorem usizeTryFrom_of_le {value : Nat} (fits : value ≤ u64Max) :
    usizeTryFrom value = some value := if_pos fits

/-- Below the largest object, the number of the next part is in range. -/
theorem Paced.uploaded_lt (initial : vfs.partSize = initialPartSize) (paced : Paced vfs stream log)
    (within : stream.total ≤ maxStreamBytes) : stream.uploaded < maxParts := by
  refine lt_maxParts_of_flushed initial ?_
  rw [← paced.flushed]
  exact (Nat.le_add_right _ _).trans within

theorem i32TryFrom_next {uploaded : Nat} (few : uploaded < maxParts) :
    i32TryFrom (uploaded + 1) = some (uploaded + 1) := by
  unfold maxParts at few
  exact if_pos (by omega)

theorem Strict.nextPart_eq {σ : Type} {uploaded : Nat} (few : uploaded < maxParts) :
    (Strict.nextPart uploaded : S3Task σ Nat) = pure (uploaded + 1) := by
  have small : uploaded + 1 ≤ u64Max := by
    unfold maxParts at few
    have word : 10000 ≤ u64Max := by decide
    omega
  unfold Strict.nextPart
  rw [checkedAdd_of_le small]
  change Strict.exactly (i32TryFrom (uploaded + 1)) = _
  rw [i32TryFrom_next few]
  rfl

theorem Strict.finish_eq {σ : Type} (within : stream.total ≤ maxStreamBytes) :
    (Strict.finish stream : S3Task σ Nat) = pure stream.total := by
  unfold Strict.finish
  rw [checkedAdd_of_le (within.trans maxStreamBytes_le)]
  rfl

theorem Stream.end_eq (within : stream.total ≤ maxStreamBytes) : stream.end = .ok stream.total :=
  Stream.end_eq_ok_iff.mpr ⟨rfl, within.trans maxStreamBytes_le⟩

/-- Tasks behind a request agree when they agree on every value. -/
theorem send_bind_agrees {σ α : Type} {request : Request} {state : σ}
    {next rest : Payload request → S3Task σ α}
    (agrees : ∀ value, Agrees (next value) (rest value) state) :
    Agrees (send request >>= next) (send request >>= rest) state := by
  have wp : (send request : S3Task σ (Payload request)).Wp state []
      (fun _ after _ => after = state) (fun _ _ _ => True) := by
    rw [wp_send_iff]
    rintro (error | value)
    · trivial
    · rfl
  refine (Agrees.refl _ _).bind wp ?_
  rintro value after _ rfl
  exact agrees value

theorem pushPart_agrees {upload : Upload} (held : stream.upload = some upload) (part : UploadedPart)
    {len : Nat} (fits : stream.flushed + len ≤ u64Max) :
    Agrees (S3Vfs.pushPart part len) (Strict.pushPart part len) stream := by
  unfold S3Vfs.pushPart Strict.pushPart
  refine Agrees.get_bind ?_
  rw [held]
  refine Eq.trans (b := (set ({ stream with
    upload := some { upload with parts := upload.parts ++ [part] }
    flushed := stream.flushed + len } : Stream) : S3Task Stream Unit).exec stream) ?_ ?_
  · change (lift (Call.okOr _ (checkedAdd stream.flushed len)) >>= _ : S3Task Stream Unit).exec _ = _
    rw [checkedAdd_of_le fits]
    rfl
  · rw [checkedAdd_of_le fits]
    rfl

theorem flushPart_agrees (initial : vfs.partSize = initialPartSize) (paced : Paced vfs stream log)
    (whole : vfs.partSizeAt stream.uploaded ≤ stream.buffer.length)
    (within : stream.total ≤ maxStreamBytes) :
    Agrees (vfs.flushPart key stream.uploaded (vfs.partSizeAt stream.uploaded))
      (Strict.flushPart vfs key stream.uploaded (vfs.partSizeAt stream.uploaded)) stream := by
  have few := paced.uploaded_lt initial within
  have start := paced.flushed
  unfold S3Vfs.flushPart Strict.flushPart
  refine (Agrees.refl _ _).bind (openUpload_paced_wp paced) ?_
  rintro id opened log ⟨paced, buffer, count, upload, held, rfl⟩
  have flushed := paced.flushed
  rw [count, ← start] at flushed
  refine Agrees.get_bind (Agrees.set_bind ?_)
  rw [i32TryFrom_next few, Strict.nextPart_eq few]
  change Agrees (send _ >>= _) (send _ >>= _) _
  refine send_bind_agrees ?_
  intro etag
  refine pushPart_agrees (by exact held) _ ?_
  have reach := maxStreamBytes_le
  unfold Stream.total at within
  change opened.flushed + (opened.buffer.take _).length ≤ _
  rw [List.length_take, flushed, buffer]
  omega

theorem flushLoop_agrees (initial : vfs.partSize = initialPartSize) (fuel : Nat)
    (paced : Paced vfs stream log) (within : stream.total ≤ maxStreamBytes) :
    Agrees (vfs.flushLoop key fuel) (Strict.flushLoop vfs key fuel) stream := by
  induction fuel generalizing stream log with
  | zero => exact Agrees.refl _ _
  | succ fuel ih =>
      unfold S3Vfs.flushLoop Strict.flushLoop
      refine Agrees.get_bind ?_
      rw [Strict.partSizeAt_of_initial initial (paced.uploaded_lt initial within)]
      change Agrees _ (if _ then _ else _) _
      split
      · exact Agrees.refl _ _
      · rename_i whole
        refine (flushPart_agrees initial paced (Nat.not_lt.mp whole) within).bind
          (flushPart_paced_wp paced (Nat.not_lt.mp whole)) ?_
        rintro ⟨⟩ after log ⟨paced, total⟩
        exact ih paced (total.trans_le within)

theorem flushParts_agrees (initial : vfs.partSize = initialPartSize) (paced : Paced vfs stream log)
    (within : stream.total ≤ maxStreamBytes) :
    Agrees (vfs.flushParts key) (Strict.flushParts vfs key) stream :=
  flushLoop_agrees initial _ paced within

/-- A round of the fill grows the tail to a whole part at most. -/
theorem fillLoop_agrees (initial : vfs.partSize = initialPartSize) {target : Nat} (fuel : Nat)
    (drained : Drained vfs stream log) (within : stream.total ≤ maxStreamBytes)
    (reach : target ≤ maxStreamBytes) :
    Agrees (vfs.fillLoop key target fuel) (Strict.fillLoop vfs key target fuel) stream := by
  induction fuel generalizing stream log with
  | zero => exact Agrees.refl _ _
  | succ fuel ih =>
      have word := maxStreamBytes_le
      have tail := drained.tail
      unfold S3Vfs.fillLoop Strict.fillLoop
      refine Agrees.get_bind ?_
      rw [Stream.end_eq within, Strict.finish_eq within]
      change Agrees (if _ then _ else _) (if _ then _ else _) _
      split
      · exact Agrees.refl _ _
      · rename_i short
        have gap : target - stream.total ≤ u64Max := by omega
        have room : subU64 (vfs.partSizeAt stream.uploaded) stream.buffer.length =
            some (vfs.partSizeAt stream.uploaded - stream.buffer.length) := if_pos tail.le
        have grown : stream.buffer.length + min (max (vfs.partSizeAt stream.uploaded -
            stream.buffer.length) 1) (target - stream.total) ≤ u64Max := by
          unfold Stream.total at short ⊢
          omega
        rw [Strict.partSizeAt_of_initial initial (drained.uploaded_lt initial within)]
        change Agrees _ (Strict.exactly (subU64 _ _) >>= _) _
        rw [room]
        change Agrees _ (Strict.exactly (usizeTryFrom _) >>= _) _
        rw [usizeTryFrom_of_le gap]
        change Agrees _ (Strict.exactly (checkedAdd _ _) >>= _) _
        rw [checkedAdd_of_le grown]
        change Agrees (set _ >>= _) (set _ >>= _) _
        refine Agrees.set_bind ?_
        have filled : ({ stream with buffer := resize stream.buffer (stream.buffer.length +
            min (max (vfs.partSizeAt stream.uploaded - stream.buffer.length) 1)
              (target - stream.total)) } : Stream).total ≤ maxStreamBytes := by
          change stream.flushed + (resize _ _).length ≤ _
          unfold Stream.total at short ⊢
          rw [length_resize]
          omega
        have paced := drained.toPaced.withBuffer (resize stream.buffer (stream.buffer.length +
          min (max (vfs.partSizeAt stream.uploaded - stream.buffer.length) 1)
            (target - stream.total)))
        refine (flushParts_agrees initial paced filled).bind (flushParts_drained_wp paced) ?_
        rintro ⟨⟩ after log ⟨drained, total⟩
        exact ih drained (total.trans_le filled)

theorem writeTail_agrees {target : Nat} {data : Bytes} (below : stream.flushed ≤ target)
    (reach : target + data.length ≤ maxStreamBytes) :
    Agrees (S3Vfs.writeTail target data) (Strict.writeTail target data) stream := by
  have word := maxStreamBytes_le
  have relative : subU64 target stream.flushed = some (target - stream.flushed) := if_pos below
  have start : target - stream.flushed ≤ u64Max := by omega
  have past : target - stream.flushed + data.length ≤ u64Max := by omega
  unfold S3Vfs.writeTail Strict.writeTail
  refine Agrees.get_bind ?_
  rw [relative, usizeTryFrom_of_le start]
  change Agrees (lift (Call.okOr _ (checkedAdd (target - stream.flushed) data.length)) >>= _)
    (Strict.exactly (usizeTryFrom (target - stream.flushed)) >>= _) _
  rw [usizeTryFrom_of_le start]
  change Agrees _ (Strict.exactly (checkedAdd (target - stream.flushed) data.length) >>= _) _
  rw [checkedAdd_of_le past]
  exact Agrees.refl _ _

theorem writeStream_agrees (initial : vfs.partSize = initialPartSize) {target : Nat} {data : Bytes}
    (drained : Drained vfs stream log) (below : stream.flushed ≤ target)
    (within : stream.total ≤ maxStreamBytes) (reach : target + data.length ≤ maxStreamBytes) :
    Agrees (vfs.writeStream key target data) (Strict.writeStream vfs key target data) stream := by
  have gap : target ≤ maxStreamBytes := by omega
  have filled : Agrees (vfs.fillGap key target) (Strict.fillGap vfs key target) stream :=
    fillLoop_agrees initial (target + 1) drained within gap
  unfold S3Vfs.writeStream Strict.writeStream
  refine filled.bind (fillGap_drained_wp target drained below) ?_
  rintro ⟨⟩ filled log ⟨drained, below, reached⟩
  refine (writeTail_agrees below reach).bind (writeTail_paced_wp data drained.toPaced below) ?_
  rintro ⟨⟩ written log ⟨paced, grown⟩
  refine (flushParts_agrees initial paced (by omega)).bind (flushParts_drained_wp paced) ?_
  rintro ⟨⟩ after log -
  exact Agrees.refl _ _

theorem lastPart_agrees {upload : Upload} (held : stream.upload = some upload)
    (few : stream.uploaded < maxParts) :
    Agrees (vfs.lastPart key upload) (Strict.lastPart vfs key upload) stream := by
  have count : upload.parts.length < maxParts := by
    simpa [Stream.uploaded, held] using few
  unfold S3Vfs.lastPart Strict.lastPart
  refine Agrees.get_bind ?_
  rw [i32TryFrom_next count, Strict.nextPart_eq count]
  exact Agrees.refl _ _

theorem finishStream_agrees (few : stream.uploaded < maxParts) :
    Agrees (vfs.finishStream key) (Strict.finishStream vfs key) stream := by
  unfold S3Vfs.finishStream Strict.finishStream
  refine Agrees.get_bind ?_
  cases held : stream.upload with
  | none => exact Agrees.refl _ _
  | some upload =>
      refine (lastPart_agrees held few).bind (wp_trivial _ _ []) ?_
      intro parts after log _
      exact Agrees.refl _ _

theorem commitStream_agrees (few : stream.uploaded < maxParts) :
    Agrees (vfs.commitStream key) (Strict.commitStream vfs key) stream :=
  (finishStream_agrees few).attempt.bind (wp_trivial _ _ []) fun _ _ _ _ => Agrees.refl _ _

end Streams

section Handles
variable {vfs : S3Vfs} {stream : Stream} {cell : HandleState} {state : State} {handle : Nat}
  {log : List S3Event} {call : VfsCall}

theorem onStream_agrees {α : Type} {task other : S3Task Stream α}
    (agrees : Agrees task other stream) :
    Agrees (vfs.onStream stream task) (vfs.onStream stream other) cell := by
  unfold S3Vfs.onStream
  exact Agrees.get_bind (agrees.focus.attempt.bind (wp_trivial _ _ []) fun _ _ _ _ => Agrees.refl _ _)

theorem onHandle_agrees {α : Type} {task other : S3Task HandleState α}
    (found : state.handles.get handle = some cell) (agrees : Agrees task other cell) :
    Agrees (S3Vfs.onHandle handle task) (S3Vfs.onHandle handle other) state := by
  unfold S3Vfs.onHandle
  refine Agrees.get_bind ?_
  simp only [found, Call.okOr_some, lift_ok_bind]
  exact agrees.focus

theorem onRemoved_agrees {α : Type} {task other : S3Task HandleState α}
    (found : state.handles.get handle = some cell) (agrees : Agrees task other cell) :
    Agrees (S3Vfs.onRemoved handle task) (S3Vfs.onRemoved handle other) state := by
  unfold S3Vfs.onRemoved
  refine Agrees.get_bind ?_
  simp only [found, Call.okOr_some, lift_ok_bind]
  exact agrees.focus

/-- A refusal is the same in both tasks. -/
theorem refuse_bind_agrees {σ α : Type} {condition : Prop} [Decidable condition] {error : Errno}
    {next rest : PUnit → S3Task σ α} {state : σ}
    (agrees : ¬ condition → Agrees (next ⟨⟩) (rest ⟨⟩) state) :
    Agrees (refuse condition error >>= next) (refuse condition error >>= rest) state := by
  by_cases refused : condition
  · rw [refuse_bind_of refused, refuse_bind_of refused]
    exact Agrees.refl _ _
  · rw [refuse_bind_of_not refused, refuse_bind_of_not refused]
    exact agrees refused

theorem writeResolved_agrees (initial : vfs.partSize = initialPartSize) (number offset : Nat)
    (data : Bytes) (drained : Drained vfs stream log) (held : cell.staging = .stream stream)
    (within : stream.total ≤ maxStreamBytes)
    (reach : stream.totalAfter cell.mode.append (.writeAt number offset data) ≤ maxStreamBytes) :
    Agrees (vfs.writeResolved offset data) (Strict.writeResolved vfs offset data) cell := by
  unfold S3Vfs.writeResolved Strict.writeResolved
  refine Agrees.get_bind (refuse_bind_agrees fun _ => refuse_bind_agrees fun _ => ?_)
  rw [held]
  by_cases empty : data = []
  · simp only [empty, if_true]
    exact Agrees.refl _ _
  · simp only [Stream.totalAfter, empty, if_false] at reach ⊢
    have aimed : S3Vfs.writeTarget cell.mode.append offset stream =
        if (if cell.mode.append then stream.total else offset) < stream.flushed then .error .EFBIG
        else .ok (if cell.mode.append then stream.total else offset) := by
      unfold S3Vfs.writeTarget
      rw [Stream.end_eq within]
      cases cell.mode.append <;> rfl
    have strict : (if cell.mode.append then Strict.finish stream else pure offset :
        S3Task HandleState Nat) = pure (if cell.mode.append then stream.total else offset) := by
      rw [Strict.finish_eq within]
      cases cell.mode.append <;> rfl
    rw [aimed, strict]
    generalize (if cell.mode.append then stream.total else offset) = target at reach
    change Agrees _ (refuse (target < stream.flushed) Errno.EFBIG >>= _) _
    by_cases low : target < stream.flushed
    · rw [if_pos low, refuse_bind_of low]
      exact Agrees.refl _ _
    · rw [if_neg low, refuse_bind_of_not low]
      exact onStream_agrees (writeStream_agrees initial drained (Nat.not_lt.mp low) within (by omega))

theorem truncateResolved_agrees (initial : vfs.partSize = initialPartSize) (len : Nat)
    (drained : Drained vfs stream log) (held : cell.staging = .stream stream)
    (within : stream.total ≤ maxStreamBytes) (reach : len ≤ maxStreamBytes) :
    Agrees (vfs.truncateResolved len) (Strict.truncateResolved vfs len) cell := by
  have word := maxStreamBytes_le
  have keep : len - stream.flushed ≤ u64Max := by omega
  unfold S3Vfs.truncateResolved Strict.truncateResolved
  refine Agrees.get_bind (refuse_bind_agrees fun _ => refuse_bind_agrees fun _ => ?_)
  rw [held]
  refine refuse_bind_agrees fun _ => ?_
  rw [Stream.end_eq within, Strict.finish_eq within]
  change Agrees (if _ then _ else _) (if _ then _ else _) _
  split
  · exact onStream_agrees (fillLoop_agrees initial (len + 1) drained within reach)
  · unfold S3Vfs.cutTail
    rw [usizeTryFrom_of_le keep]
    exact Agrees.refl _ _

theorem closeResolved_agrees (held : cell.staging = .stream stream)
    (few : stream.uploaded < maxParts) :
    Agrees vfs.closeResolved (Strict.closeResolved vfs) cell := by
  unfold S3Vfs.closeResolved Strict.closeResolved S3Vfs.commit
  refine Agrees.get_bind (Agrees.set_bind (Agrees.get_bind ?_))
  rw [held]
  exact (commitStream_agrees few).focus

/-- A call that stays within the largest stream runs as with checked arithmetic. -/
theorem call_agrees (initial : vfs.partSize = initialPartSize) (streamed : StreamCall handle call)
    (holds : HoldsDrained vfs handle cell stream state log) (within : stream.total ≤ maxStreamBytes)
    (reach : stream.totalAfter cell.mode.append call ≤ maxStreamBytes) :
    Agrees (vfs.call call) (Strict.call vfs call) state := by
  obtain ⟨found, drained⟩ := holds
  cases call with
  | writeAt number offset data =>
      obtain rfl : number = handle := streamed
      exact (onHandle_agrees found
        (writeResolved_agrees initial number offset data drained rfl within reach)).map
  | truncate number len =>
      obtain rfl : number = handle := streamed
      exact (onHandle_agrees found (truncateResolved_agrees initial len drained rfl within reach)).map
  | _ => exact streamed.elim

theorem close_agrees (holds : HoldsDrained vfs handle cell stream state log)
    (few : stream.uploaded < maxParts) :
    Agrees (vfs.call (.close handle)) (Strict.call vfs (.close handle)) state :=
  (onRemoved_agrees holds.1 (closeResolved_agrees rfl few)).map

end Handles

end TinySandbox.S3
