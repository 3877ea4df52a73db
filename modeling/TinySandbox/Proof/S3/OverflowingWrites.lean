/-
This file says which handles reject a write that would end behind the largest offset.
-/

import TinySandbox.Library.Agreement
import TinySandbox.Proof.S3.LoadedBuffers
import TinySandbox.Proof.S3.StreamSessions

namespace TinySandbox.S3
open Library Library.Task Mem

section Cells
variable {vfs : S3Vfs} {cell : HandleState} {state : State} {handle offset : Nat} {data : Bytes}
  {log : List S3Event}

theorem materialize_loaded_exec {key : Text} {buffer : Buffer}
    (loaded : (Staging.buffer buffer).Loaded) :
    (vfs.materialize key).exec buffer = .pure
      (.ok (buffer.bytes.getD []), { buffer with bytes := some (buffer.bytes.getD []) }) := by
  obtain ⟨source, precondition, bytes, dirty⟩ := buffer
  cases bytes with
  | none =>
      rw [materialize_exec rfl (loaded rfl)]
      rfl
  | some bytes => rfl

theorem writtenBytes_overflow (bytes : Bytes) (overflows : u64Max < offset + data.length) :
    vfs.writtenBytes bytes offset data = .error .EINVAL := by
  have past : checkedAdd offset data.length = none := if_neg (Nat.not_le.mpr overflows)
  unfold S3Vfs.writtenBytes
  rw [past]
  rfl

/-- A loaded buffer finds the overflow before it changes a byte. -/
theorem writeBuffer_overflow_exec {key : Text} {buffer : Buffer}
    (loaded : (Staging.buffer buffer).Loaded) (addressable : offset ≤ u64Max)
    (overflows : u64Max < offset + data.length) :
    (vfs.writeBuffer key false offset data).exec buffer = .pure
      (.error .EINVAL, { buffer with bytes := some (buffer.bytes.getD []) }) := by
  have start : usizeTryFrom offset = some offset := if_pos addressable
  unfold S3Vfs.writeBuffer
  rw [exec_bind, materialize_loaded_exec loaded]
  simp only [Bool.false_eq_true, if_false, start, Call.okOr_some, lift_ok_bind,
    writtenBytes_overflow _ overflows]
  rfl

/-- The handle after its buffer was loaded. -/
def loadedCell (cell : HandleState) (buffer : Buffer) : HandleState :=
  { cell with staging := .buffer { buffer with bytes := some (buffer.bytes.getD []) } }

theorem alike_loadedCell {buffer : Buffer} (held : cell.staging = .buffer buffer)
    (loaded : (Staging.buffer buffer).Loaded) : Alike cell (loadedCell cell buffer) := by
  obtain ⟨key, mode, staging, released⟩ := cell
  obtain rfl : staging = .buffer buffer := held
  obtain ⟨source, precondition, bytes, dirty⟩ := buffer
  cases bytes with
  | none => exact .loaded key mode released ⟨source, precondition, none, dirty⟩ rfl (loaded rfl)
  | some bytes => exact .same _

/-- A write that sends nothing stores the handle back. -/
theorem writeAt_exec (found : state.handles.get handle = some cell) {result : VfsResult Nat}
    {after : HandleState}
    (resolved : (vfs.writeResolved offset data).exec cell = .pure (result, after)) :
    (vfs.call (.writeAt handle offset data)).exec state =
      .pure (result.map .count, { state with handles := state.handles.insert handle after }) := by
  change exec (Reply.count <$> S3Vfs.onHandle handle (vfs.writeResolved offset data)) state = _
  unfold S3Vfs.onHandle
  rw [map_eq_pure_bind, exec_bind]
  change (exec (lift (Call.okOr _ (state.handles.get handle)) >>= _) state >>= _) = _
  rw [found]
  change (((vfs.writeResolved offset data).exec cell >>= _) >>= _) = _
  rw [resolved]
  cases result with
  | error error => rfl
  | ok count => rfl

theorem writeAt_overflow_exec {buffer : Buffer} (found : state.handles.get handle = some cell)
    (unreleased : cell.released = false) (writable : cell.mode.write = true)
    (positioned : cell.mode.append = false) (held : cell.staging = .buffer buffer)
    (loaded : (Staging.buffer buffer).Loaded) (nonempty : data ≠ []) (addressable : offset ≤ u64Max)
    (overflows : u64Max < offset + data.length) :
    (vfs.call (.writeAt handle offset data)).exec state = .pure (.error .EINVAL,
      { state with handles := state.handles.insert handle (loadedCell cell buffer) }) := by
  have resolved : (vfs.writeResolved offset data).exec cell =
      .pure (.error .EINVAL, loadedCell cell buffer) := by
    unfold S3Vfs.writeResolved
    change exec (refuse cell.released _ >>= _) cell = _
    rw [refuse_bind_of_not (by simp [unreleased]), refuse_bind_of_not (by simp [writable]), held]
    simp only [nonempty, if_false, positioned]
    change ((vfs.writeBuffer cell.key false offset data).exec buffer >>= _) = _
    rw [writeBuffer_overflow_exec loaded addressable overflows]
    rfl
  exact writeAt_exec found resolved

/-- A handle that edits a loaded buffer rejects the write. -/
theorem rejectsUpFront_of_loaded (found : state.handles.get handle = some cell)
    (unreleased : cell.released = false) (writable : cell.mode.write = true)
    (positioned : cell.mode.append = false) (loaded : cell.staging.Loaded) (nonempty : data ≠ [])
    (addressable : offset ≤ u64Max) (overflows : u64Max < offset + data.length) :
    RejectsUpFront vfs state handle offset data := by
  cases held : cell.staging with
  | buffer buffer =>
      rw [held] at loaded
      have exec : (vfs.call (.writeAt handle offset data)).exec state = .pure (.error .EINVAL,
          { state with handles := state.handles.insert handle (loadedCell cell buffer) }) :=
        writeAt_overflow_exec found unreleased writable positioned held loaded nonempty addressable
          overflows
      have runs : ∀ events reply after,
          (vfs.call (.writeAt handle offset data)).Runs state events reply after ↔
            events = [] ∧ (reply, after) = (Except.error .EINVAL,
              { state with handles := state.handles.insert handle (loadedCell cell buffer) }) := by
        intro events reply after
        unfold Task.Runs
        rw [exec]
        exact Program.runs_pure_iff
      refine ⟨⟨[], _, _, (runs _ _ _).mpr ⟨rfl, rfl⟩⟩, ?_⟩
      intro events reply after ran
      obtain ⟨rfl, same⟩ := (runs _ _ _).mp ran
      obtain ⟨rfl, rfl⟩ := Prod.mk.inj same
      refine ⟨rfl, by simp, ?_, ?_⟩
      · intro number
        rw [OrderedMap.get_insert]
        split
        · rename_i here
          rw [here, found, Option.map_some, Option.map_some, held]
          rfl
        · rfl
      · have alike : AlikeTables state
            { state with handles := state.handles.insert handle (loadedCell cell buffer) } := by
          refine ⟨rfl, fun number => ?_⟩
          rw [OrderedMap.get_insert]
          split
          · rename_i here
            rw [here, found]
            exact .some (alike_loadedCell held loaded)
          · exact (AlikeTables.refl state).cells number
        exact fun later => (alike.sameLater later).symm
  | remote file => rw [held] at loaded; exact loaded.elim
  | stream stream => rw [held] at loaded; exact loaded.elim
  | failed error => rw [held] at loaded; exact loaded.elim

theorem RejectsUpFront.wp (rejects : RejectsUpFront vfs state handle offset data) :
    (vfs.call (.writeAt handle offset data)).Wp state [] (fun _ _ _ => False)
      (fun error after _ => error = .EINVAL ∧ SameLater vfs after state) := by
  intro events reply after ran
  obtain ⟨rfl, -, -, same⟩ := rejects.rejects events reply after ran
  exact ⟨rfl, same⟩

/-- A stream task that fails ends its handle. -/
theorem onStream_fails_wp {α : Type} {stream : Stream} (task : S3Task Stream α) :
    (vfs.onStream stream task).Wp cell log (fun _ _ _ => True)
      (fun error after _ => after = { cell with staging := .failed error }) := by
  unfold S3Vfs.onStream
  rw [wp_bind_iff, wp_get_iff, wp_bind_iff, wp_attempt_iff, wp_focus_iff]
  refine (wp_trivial task stream log).mono ?_ ?_
  · intro value after log _
    exact wp_pure_iff.mpr trivial
  · intro error after log _
    rw [wp_bind_iff]
    refine (failStream_wp error rfl).mono ?_ (fun _ _ _ impossible => impossible.elim)
    rintro ⟨⟩ failed log ⟨rfl, -⟩
    exact wp_throw_iff.mpr rfl

/-- A stream write is refused below the uploaded bytes, or a failure ends the handle. -/
theorem writeAt_stream_wp {stream : Stream} (found : state.handles.get handle = some cell)
    (unreleased : cell.released = false) (writable : cell.mode.write = true)
    (positioned : cell.mode.append = false) (held : cell.staging = .stream stream)
    (nonempty : data ≠ []) :
    (vfs.call (.writeAt handle offset data)).Wp state log (fun _ _ _ => True)
      (fun error after _ => error = .EFBIG ∨
        after.handles.get handle = some { cell with staging := .failed error }) := by
  unfold S3Vfs.call S3Vfs.writeAt S3Vfs.writeResolved
  rw [wp_map_iff, onHandle_wp_iff found, wp_bind_iff, wp_get_iff, wp_bind_iff, wp_refuse_iff,
    if_neg (by simp [unreleased]), wp_bind_iff, wp_refuse_iff, if_neg (by simp [writable]), held]
  simp only [nonempty, if_false, positioned]
  refine wp_lift_bind ?_ ?_
  · intro error failed
    refine .inl ?_
    unfold S3Vfs.writeTarget at failed
    change (if offset < stream.flushed then _ else _) = _ at failed
    split at failed
    · exact (Except.error.inj failed).symm
    · cases failed
  · intro target _
    refine (onStream_fails_wp _).mono (fun _ _ _ _ => trivial) ?_
    rintro error after log rfl
    exact .inr (by simp)

/-- One call that sends nothing gives its reply at once. -/
theorem calls_single {call : VfsCall} {reply : VfsResult Reply} {after : State}
    (exec : (vfs.call call).exec state = .pure (reply, after)) :
    Prod.fst <$> (vfs.calls [call]).exec state = .pure (.ok [reply]) := by
  unfold S3Vfs.calls
  change Prod.fst <$> (((vfs.call call).exec state >>= _) >>= _) = _
  rw [exec]
  rfl

/-- An empty write returns zero on a stream. -/
theorem emptyWrite_stream_exec {stream : Stream} (found : state.handles.get handle = some cell)
    (unreleased : cell.released = false) (writable : cell.mode.write = true)
    (held : cell.staging = .stream stream) :
    ∃ after, (vfs.call (.writeAt handle 0 [])).exec state = .pure (.ok (.count 0), after) := by
  have resolved : (vfs.writeResolved 0 []).exec cell = .pure (.ok 0, cell) := by
    unfold S3Vfs.writeResolved
    change exec (refuse cell.released _ >>= _) cell = _
    rw [refuse_bind_of_not (by simp [unreleased]), refuse_bind_of_not (by simp [writable]), held]
    rfl
  exact ⟨_, writeAt_exec found resolved⟩

/-- An empty write on a failed handle reports the failure. -/
theorem emptyWrite_failed_exec {error : Errno} (found : state.handles.get handle = some cell)
    (unreleased : cell.released = false) (writable : cell.mode.write = true)
    (held : cell.staging = .failed error) :
    ∃ after, (vfs.call (.writeAt handle 0 [])).exec state = .pure (.error error, after) := by
  have resolved : (vfs.writeResolved 0 []).exec cell = .pure (.error error, cell) := by
    unfold S3Vfs.writeResolved
    change exec (refuse cell.released _ >>= _) cell = _
    rw [refuse_bind_of_not (by simp [unreleased]), refuse_bind_of_not (by simp [writable]), held]
    rfl
  exact ⟨_, writeAt_exec found resolved⟩

/-- A stream never rejects the write and goes on as before. -/
theorem not_rejectsUpFront_stream {stream : Stream} (found : state.handles.get handle = some cell)
    (unreleased : cell.released = false) (writable : cell.mode.write = true)
    (positioned : cell.mode.append = false) (held : cell.staging = .stream stream)
    (nonempty : data ≠ []) : ¬ RejectsUpFront vfs state handle offset data := by
  intro rejects
  obtain ⟨events, reply, after, ran⟩ := rejects.returns
  obtain ⟨rfl, -, -, same⟩ := rejects.rejects events reply after ran
  have wp : (vfs.call (.writeAt handle offset data)).Wp state [] _ _ :=
    writeAt_stream_wp found unreleased writable positioned held nonempty
  rcases wp.error ran with impossible | failed
  · cases impossible
  · obtain ⟨left, alive⟩ : ∃ left, (vfs.call (.writeAt handle 0 [])).exec state =
        .pure (.ok (.count 0), left) := emptyWrite_stream_exec found unreleased writable held
    obtain ⟨right, dead⟩ : ∃ right, (vfs.call (.writeAt handle 0 [])).exec after =
        .pure (.error .EINVAL, right) := emptyWrite_failed_exec failed unreleased writable rfl
    have replies := same [.writeAt handle 0 []]
    rw [calls_single alive, calls_single dead] at replies
    simp at replies

theorem not_rejectsUpFront_remote {file : RemoteFile} (found : state.handles.get handle = some cell)
    (unreleased : cell.released = false) (writable : cell.mode.write = true)
    (held : cell.staging = .remote file) (nonempty : data ≠ []) :
    ¬ RejectsUpFront vfs state handle offset data := by
  intro rejects
  obtain ⟨events, reply, after, ran⟩ := rejects.returns
  obtain ⟨rfl, -⟩ := rejects.rejects events reply after ran
  have resolved : (vfs.writeResolved offset data).exec cell = .pure (.error .EBADF, cell) := by
    unfold S3Vfs.writeResolved
    change exec (refuse cell.released _ >>= _) cell = _
    rw [refuse_bind_of_not (by simp [unreleased]), refuse_bind_of_not (by simp [writable]), held]
    simp only [nonempty, if_false]
    rfl
  unfold Task.Runs at ran
  rw [writeAt_exec found resolved] at ran
  cases (Prod.mk.inj ran.2).1

/-- The download of a buffer can be refused, so the write reports that first. -/
theorem loaded_of_rejectsUpFront {buffer : Buffer} (found : state.handles.get handle = some cell)
    (unreleased : cell.released = false) (writable : cell.mode.write = true)
    (held : cell.staging = .buffer buffer) (nonempty : data ≠ [])
    (rejects : RejectsUpFront vfs state handle offset data) : (Staging.buffer buffer).Loaded := by
  intro missing file source
  by_contra long
  have wp := rejects.wp
  unfold S3Vfs.call S3Vfs.writeAt S3Vfs.writeResolved at wp
  rw [wp_map_iff, onHandle_wp_iff found, wp_bind_iff, wp_get_iff, wp_bind_iff, wp_refuse_iff,
    if_neg (by simp [unreleased]), wp_bind_iff, wp_refuse_iff, if_neg (by simp [writable]),
    held] at wp
  simp only [nonempty, if_false] at wp
  unfold S3Vfs.writeBuffer S3Vfs.materialize at wp
  rw [wp_focus_iff, wp_bind_iff, wp_bind_iff, wp_get_iff, missing] at wp
  rw [wp_bind_iff, wp_perform_iff, source] at wp
  unfold S3Vfs.sourceBytes at wp
  rw [wp_bind_iff, wp_lift_iff] at wp
  by_cases large : vfs.config.maxEditBytes ≠ 0 ∧ vfs.config.maxEditBytes < file.len
  · have refused : vfs.checkEditLen file.len = .error .EFBIG := if_pos large
    rw [refused, judged_error] at wp
    cases wp.1
  · have checked : vfs.checkEditLen file.len = .ok () := if_neg large
    rw [checked, judged_ok] at wp
    unfold S3Vfs.getWhole at wp
    rw [if_neg long, wp_bind_iff, wp_send_iff] at wp
    cases (wp (.error .missing)).1

end Cells

/-- A write that would end behind the largest offset is rejected in front exactly on a handle that
edits a buffer, and only when the bytes of the buffer are there or need no download. -/
theorem write_rejects_overflow_iff (vfs : S3Vfs) {state : State} {cell : HandleState}
    {handle offset : Nat} {data : Bytes} (found : state.handles.get handle = some cell)
    (unreleased : cell.released = false) (writable : cell.mode.write = true)
    (positioned : cell.mode.append = false) (unfailed : ∀ error, cell.staging ≠ .failed error)
    (nonempty : data ≠ []) (addressable : offset ≤ u64Max)
    (overflows : u64Max < offset + data.length) :
    RejectsUpFront vfs state handle offset data ↔ cell.staging.Loaded := by
  constructor
  · intro rejects
    cases held : cell.staging with
    | remote file =>
        exact absurd rejects (not_rejectsUpFront_remote found unreleased writable held nonempty)
    | buffer buffer =>
        exact loaded_of_rejectsUpFront found unreleased writable held nonempty rejects
    | stream stream =>
        exact absurd rejects
          (not_rejectsUpFront_stream found unreleased writable positioned held nonempty)
    | failed error => exact absurd held (unfailed error)
  · intro loaded
    exact rejectsUpFront_of_loaded found unreleased writable positioned loaded nonempty addressable
      overflows

/-- The table after one open. -/
def openedWith (mode : OpenMode) (staging : Staging) : State where
  nextHandle := 2
  handles := OrderedMap.insert ∅ 1 { key := "f".toList, mode, staging, released := false }

theorem openedWith_get (mode : OpenMode) (staging : Staging) :
    (openedWith mode staging).handles.get 1 =
      some { key := "f".toList, mode, staging, released := false } := by
  simp [openedWith]

theorem write_rejects_overflow_fresh :
    RejectsUpFront .sample
      (openedWith { replaceMode with read := true } (S3Vfs.stagedBuffer none .none)) 1 u64Max [7] := by
  refine (write_rejects_overflow_iff .sample (openedWith_get _ _) rfl rfl rfl ?_ (by simp) (le_refl _)
    (by decide)).mpr ?_
  · rintro error ⟨⟩
  · rintro ⟨⟩

/-- A stream fills the gap in front of the offset, and the failure ends the handle. -/
theorem write_overflow_ends_stream :
    ¬ RejectsUpFront .sample (openedWith replaceMode (.stream (Stream.new .none))) 1 u64Max [7] :=
  not_rejectsUpFront_stream (openedWith_get _ _) rfl rfl rfl rfl (by simp)

end TinySandbox.S3
