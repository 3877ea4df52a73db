/-
This file follows the bytes of a handle that appends to an object.
-/

import TinySandbox.Construction.S3.Clients
import TinySandbox.Proof.S3.Cells

namespace TinySandbox.S3
open Library Library.Task

/-- Every read of the whole revision returned its body. -/
def Honest (key : Text) (file : RemoteFile) (body : Bytes) (log : List S3Event) : Prop :=
  ∀ request result, (⟨.get request, .ok result⟩ : S3Event) ∈ log → request.key = key →
    request.ifMatch = file.etag → request.range = { first := 0, last := file.len - 1 } →
    result.body = body

theorem Honest.of_append {key : Text} {file : RemoteFile} {body : Bytes}
    {log events : List S3Event} (honest : Honest key file body (log ++ events)) :
    Honest key file body log :=
  fun request result member => honest request result (List.mem_append_left _ member)

/-- The buffer has the body of the revision with the data behind it, or it is still untouched. -/
structure Holds (file : RemoteFile) (body data : Bytes) (buffer : Buffer) : Prop where
  source : buffer.source = some file
  bytes : buffer.bytes = some (body ++ data) ∨
    (buffer.bytes = none ∧ buffer.dirty = false ∧ data = [])

def HandleOp.Truncates : HandleOp → Prop
  | .truncate _ => True
  | _ => False

section Appends
variable {vfs : S3Vfs} {key : Text} {file : RemoteFile} {body data : Bytes} {buffer : Buffer}
  {log : List S3Event}

theorem getWhole_honest (sized : file.len = body.length) :
    (vfs.getWhole key file).Wp () log
      (fun bytes _ reached => log <+: reached ∧ (Honest key file body reached → bytes = body))
      (fun _ _ reached => log <+: reached) := by
  unfold S3Vfs.getWhole
  split
  · rename_i empty
    rw [wp_pure_iff]
    refine ⟨List.prefix_rfl, ?_⟩
    intro _
    exact (List.eq_nil_of_length_eq_zero (sized.symm.trans empty)).symm
  · apply wp_send_bind (fun _ => List.prefix_append ..)
    intro found
    have longer := List.prefix_append log [⟨Request.get (vfs.rangeRequest key file
      { first := 0, last := file.len - 1 } file.len), .ok found⟩]
    rw [wp_bind_iff, wp_lift_iff]
    cases Call.okOr Errno.EFBIG (usizeTryFrom file.len) with
    | error error => exact longer
    | ok expected =>
    rw [judged_ok, wp_lift_iff]
    unfold S3Vfs.checkRange
    split
    · exact longer
    · refine ⟨longer, ?_⟩
      intro honest
      exact honest _ found (by simp) rfl rfl rfl

/-- A buffer is filled with the body of its revision. -/
theorem materialize_holds (sized : file.len = body.length)
    (holds : Honest key file body log → Holds file body data buffer)
    (origin : buffer.source = some file) :
    (vfs.materialize key).Wp buffer log
      (fun bytes after reached => after.source = some file ∧ (Honest key file body reached →
        bytes = body ++ data ∧ Holds file body data after))
      (fun _ after reached => after.source = some file ∧
        (Honest key file body reached → Holds file body data after)) := by
  unfold S3Vfs.materialize
  rw [wp_bind_iff, wp_get_iff]
  cases filled : buffer.bytes with
  | some bytes =>
      rw [wp_pure_iff]
      refine ⟨origin, ?_⟩
      intro honest
      have held := holds honest
      rcases held.bytes with same | ⟨missing, -⟩
      · exact ⟨Option.some.inj (filled.symm.trans same), held⟩
      · rw [filled] at missing
        cases missing
  | none =>
      rw [wp_bind_iff, wp_perform_iff, origin]
      unfold S3Vfs.sourceBytes
      apply wp_lift_bind (fun _ _ => ⟨rfl, holds⟩)
      intro _ _
      refine (getWhole_honest sized).mono ?_ ?_
      · rintro bytes _ reached ⟨⟨more, rfl⟩, whole⟩
        rw [wp_bind_iff, wp_set_iff, wp_pure_iff]
        refine ⟨rfl, ?_⟩
        intro honest
        have held := holds honest.of_append
        rcases held.bytes with same | ⟨-, -, rfl⟩
        · rw [filled] at same
          cases same
        · obtain rfl := whole honest
          exact ⟨(List.append_nil _).symm, rfl, .inl (by simp)⟩
      · rintro error _ reached ⟨more, rfl⟩
        exact ⟨rfl, fun honest => holds honest.of_append⟩

theorem readBuffer_holds (offset bufLen : Nat) (sized : file.len = body.length)
    (holds : Honest key file body log → Holds file body data buffer)
    (origin : buffer.source = some file) :
    (vfs.readBuffer key offset bufLen).Wp buffer log
      (fun _ after reached => after.source = some file ∧
        (Honest key file body reached → Holds file body data after))
      (fun _ after reached => after.source = some file ∧
        (Honest key file body reached → Holds file body data after)) := by
  unfold S3Vfs.readBuffer
  apply Wp.bind (materialize_holds sized holds origin)
  rintro bytes after reached ⟨kept, filled⟩
  apply wp_lift_bind (fun _ _ => ⟨kept, fun honest => (filled honest).2⟩)
  intro offset _
  split <;> exact wp_pure_iff.mpr ⟨kept, fun honest => (filled honest).2⟩

/-- A write at the end of the bytes puts the data behind them. -/
theorem writtenBytes_at_end {bytes written : Bytes}
    (wrote : vfs.writtenBytes bytes bytes.length data = .ok written) : written = bytes ++ data := by
  unfold S3Vfs.writtenBytes at wrote
  obtain ⟨past, summed, wrote⟩ := Call.bind_eq_ok_iff.mp wrote
  obtain ⟨grown, resized, wrote⟩ := Call.bind_eq_ok_iff.mp wrote
  obtain rfl := Except.ok.inj wrote
  obtain rfl : past = bytes.length + data.length := by
    unfold checkedAdd at summed
    split at summed
    · exact (Except.ok.inj summed).symm
    · cases summed
  have sized : grown = bytes ++ List.replicate data.length 0 := by
    split at resized
    · unfold S3Vfs.resizeStaged at resized
      obtain ⟨_, -, same⟩ := Call.bind_eq_ok_iff.mp resized
      rw [← Except.ok.inj same]
      simp [resize]
    · rename_i fits
      obtain rfl := Except.ok.inj resized
      have empty : data = [] := List.eq_nil_of_length_eq_zero (by omega)
      simp [empty]
  rw [sized]
  simp [copyFromSlice]

theorem writeBuffer_holds (offset : Nat) (more : Bytes) (sized : file.len = body.length)
    (holds : Honest key file body log → Holds file body data buffer)
    (origin : buffer.source = some file) :
    (vfs.writeBuffer key true offset more).Wp buffer log
      (fun _ after reached => after.source = some file ∧
        (Honest key file body reached → Holds file body (data ++ more) after))
      (fun _ after reached => after.source = some file ∧
        (Honest key file body reached → Holds file body data after)) := by
  unfold S3Vfs.writeBuffer
  apply Wp.bind (materialize_holds sized holds origin)
  rintro bytes after reached ⟨kept, filled⟩
  have failed : after.source = some file ∧
      (Honest key file body reached → Holds file body data after) :=
    ⟨kept, fun honest => (filled honest).2⟩
  apply wp_lift_bind (fun _ _ => failed)
  intro start started
  apply wp_lift_bind (fun _ _ => failed)
  intro written wrote
  rw [wp_bind_iff, wp_get_iff, wp_bind_iff, wp_set_iff, wp_pure_iff]
  refine ⟨kept, fun honest => ⟨kept, .inl ?_⟩⟩
  obtain rfl : bytes.length = start := Except.ok.inj started
  rw [writtenBytes_at_end wrote, (filled honest).1, List.append_assoc]

/-- A handle in append mode that holds a buffer of the revision. -/
structure Appending (key : Text) (file : RemoteFile) (body data : Bytes) (cell : HandleState)
    (log : List S3Event) : Prop where
  named : cell.key = key
  appends : cell.mode.append = true
  unreleased : cell.released = false
  buffered : ∃ buffer, cell.staging = .buffer buffer ∧ buffer.source = some file ∧
    (Honest key file body log → Holds file body data buffer)

theorem readResolved_appending (offset bufLen : Nat) (sized : file.len = body.length)
    {cell : HandleState} (appending : Appending key file body data cell log) :
    (vfs.readResolved offset bufLen).Wp cell log
      (fun _ after => Appending key file body data after)
      (fun _ after => Appending key file body data after) := by
  obtain ⟨rfl, appends, unreleased, buffer, staged, origin, holds⟩ := appending
  have same : Appending cell.key file body data cell log :=
    ⟨rfl, appends, unreleased, buffer, staged, origin, holds⟩
  unfold S3Vfs.readResolved
  rw [wp_bind_iff, wp_get_iff, wp_bind_iff, wp_refuse_iff, if_neg (by simp [unreleased]),
    wp_bind_iff, wp_refuse_iff]
  split
  · exact same
  · rw [staged, wp_focus_iff]
    refine (readBuffer_holds offset bufLen sized holds origin).mono ?_ ?_
    · exact fun _ after _ kept => ⟨rfl, appends, unreleased, after, rfl, kept⟩
    · exact fun _ after _ kept => ⟨rfl, appends, unreleased, after, rfl, kept⟩

theorem writeResolved_appending (offset : Nat) (more : Bytes) (sized : file.len = body.length)
    {cell : HandleState} (appending : Appending key file body data cell log) :
    (vfs.writeResolved offset more).Wp cell log
      (fun _ after => Appending key file body (data ++ more) after)
      (fun _ after => Appending key file body data after) := by
  obtain ⟨rfl, appends, unreleased, buffer, staged, origin, holds⟩ := appending
  have same : Appending cell.key file body data cell log :=
    ⟨rfl, appends, unreleased, buffer, staged, origin, holds⟩
  unfold S3Vfs.writeResolved
  rw [wp_bind_iff, wp_get_iff, wp_bind_iff, wp_refuse_iff, if_neg (by simp [unreleased]),
    wp_bind_iff, wp_refuse_iff]
  split
  · exact same
  · rw [staged, appends]
    show Wp (if more = [] then pure 0 else focus buffer _ _) _ _ _ _
    split
    · rename_i empty
      rw [wp_pure_iff, empty, List.append_nil]
      exact same
    · rw [wp_focus_iff]
      refine (writeBuffer_holds offset more sized holds origin).mono ?_ ?_
      · exact fun _ after _ kept => ⟨rfl, appends, unreleased, after, rfl, kept⟩
      · exact fun _ after _ kept => ⟨rfl, appends, unreleased, after, rfl, kept⟩

/-- The operations add the bytes of the writes that returned Ok. -/
theorem useHandle_appending (ops : List HandleOp) (keeps : ∀ op ∈ ops, op.releases = false)
    (writes : ∀ op ∈ ops, ¬ op.Truncates) (sized : file.len = body.length) {cell : HandleState}
    (appending : Appending key file body data cell log) :
    (useHandle vfs ops).Wp cell log
      (fun replies after => Appending key file body (data ++ accepted ops replies) after)
      (fun _ _ _ => False) := by
  induction ops generalizing cell data log with
  | nil =>
      unfold useHandle
      rw [wp_pure_iff]
      simpa [accepted] using appending
  | cons op rest ih =>
      rw [List.forall_mem_cons] at keeps writes
      have later : ∀ {more : Bytes} {after : HandleState} {reached : List S3Event}
          {reply : VfsResult Unit}, accepted [op] [reply] = more →
          Appending key file body (data ++ more) after reached →
          Wp (useHandle vfs rest >>= fun others => pure (reply :: others)) after reached
            (fun replies after =>
              Appending key file body (data ++ accepted (op :: rest) replies) after)
            (fun _ _ _ => False) := by
        intro more after reached reply same next
        apply Wp.bind (ih keeps.2 writes.2 next)
        intro others final reached kept
        rw [wp_pure_iff]
        have split : accepted (op :: rest) (reply :: others) = more ++ accepted rest others := by
          rw [← same]
          simp [accepted]
        rw [split, ← List.append_assoc]
        exact kept
      have silent : data = data ++ [] := (List.append_nil data).symm
      unfold useHandle
      rw [wp_bind_iff, wp_attempt_iff]
      cases op with
      | close => exact absurd keeps.1 (by decide)
      | abort => exact absurd keeps.1 (by decide)
      | truncate len => exact absurd trivial writes.1
      | read offset bufLen =>
          unfold HandleOp.body
          rw [wp_map_iff]
          refine (readResolved_appending offset bufLen sized appending).mono ?_ ?_
          · exact fun _ _ _ kept => later rfl (silent ▸ kept)
          · exact fun _ _ _ kept => later rfl (silent ▸ kept)
      | write offset more =>
          unfold HandleOp.body
          rw [wp_map_iff]
          refine (writeResolved_appending offset more sized appending).mono ?_ ?_
          · exact fun _ _ _ kept => later (by simp [accepted]) kept
          · exact fun _ _ _ kept => later rfl (silent ▸ kept)

/-- A close that lands the buffer puts the revision with the accepted bytes behind it. -/
theorem closeResolved_appending {cell : HandleState}
    (appending : Appending key file body data cell log) (dirty : cell.staging.staged = true) :
    vfs.closeResolved.Wp cell log
      (fun _ _ reached => ∃ landed precondition,
        reached = log ++ [⟨.put vfs.bucket key landed precondition, .ok ()⟩] ∧
        (Honest key file body log → landed = body ++ data))
      (fun _ _ _ => True) := by
  obtain ⟨rfl, appends, unreleased, buffer, staged, origin, holds⟩ := appending
  have changed : buffer.dirty = true := by simpa [staged, Staging.staged] using dirty
  unfold S3Vfs.closeResolved S3Vfs.commit S3Vfs.commitBuffer S3Vfs.putObject
  rw [wp_bind_iff, wp_get_iff, wp_bind_iff, wp_set_iff, wp_bind_iff, wp_get_iff]
  simp only [staged]
  rw [wp_focus_iff, wp_bind_iff, wp_get_iff, if_neg (by simp [changed]), wp_bind_iff, wp_set_iff,
    wp_perform_iff, wp_sendWith_iff]
  intro response
  cases response with
  | error error => trivial
  | ok value =>
      refine ⟨_, _, rfl, ?_⟩
      intro honest
      rcases (holds honest).bytes with filled | ⟨-, clean, -⟩
      · rw [filled]
        rfl
      · rw [changed] at clean
        cases clean

/-- A session on an append handle lands the bytes that were accepted. -/
theorem useAndClose_appending (ops : List HandleOp) (keeps : ∀ op ∈ ops, op.releases = false)
    (writes : ∀ op ∈ ops, ¬ op.Truncates) (sized : file.len = body.length) {cell : HandleState}
    (appending : Appending key file body [] cell log) :
    (useAndClose vfs ops).Wp cell log
      (fun outcome _ reached => outcome.staged.staging.staged = true → outcome.closed = .ok () →
        ∃ work landed precondition,
          reached = work ++ [⟨.put vfs.bucket key landed precondition, .ok ()⟩] ∧
          (Honest key file body work → landed = body ++ accepted ops outcome.replies))
      (fun _ _ _ => False) := by
  unfold useAndClose
  apply Wp.bind (useHandle_appending ops keeps writes sized appending)
  intro replies after reached kept
  rw [List.nil_append] at kept
  rw [wp_bind_iff, wp_get_iff, wp_bind_iff, wp_attempt_iff]
  by_cases dirty : after.staging.staged = true
  · refine (closeResolved_appending kept dirty).mono ?_ ?_
    · rintro _ final log ⟨landed, precondition, same, honest⟩
      rw [wp_pure_iff]
      exact fun _ _ => ⟨reached, landed, precondition, same, honest⟩
    · intro error final log _
      rw [wp_pure_iff]
      intro _ closed
      cases closed
  · intro events result final _
    cases result with
    | ok value => exact wp_pure_iff.mpr (fun staged => absurd staged dirty)
    | error error => exact wp_pure_iff.mpr (fun staged => absurd staged dirty)

end Appends

end TinySandbox.S3
