/-
This file says which requests a handle has sent, from what it stages now.
-/

import TinySandbox.Construction.S3.Shared
import TinySandbox.Proof.S3.StreamHandles

namespace TinySandbox.S3
open Library Library.Task

def Request.IsGet : Request → Prop
  | .get .. => True
  | _ => False

def Request.IsPut : Request → Prop
  | .put .. => True
  | _ => False

def Gets (log : List S3Event) : Prop := ∀ event ∈ log, event.1.IsGet

theorem Gets.snoc {log : List S3Event} (gets : Gets log) (event : S3Event) (get : event.1.IsGet) :
    Gets (log ++ [event]) := by
  intro other member
  rcases List.mem_append.mp member with old | new
  · exact gets other old
  · exact List.mem_singleton.mp new ▸ get

/-- A stream has ended when it was published, or when its upload was aborted. -/
def Ended (vfs : S3Vfs) (key : Text) (log : List S3Event) : Prop :=
  (∃ precondition body, Publishes vfs key precondition body log) ∨
    ∃ upload before, Unpublished vfs key upload before ∧ Aborted vfs key upload before log

/-- The requests of a handle. A stream that was released or dropped has ended. A handle in use
keeps the precondition of its open. -/
def Sent (vfs : S3Vfs) (gone : Bool) (precondition : Precondition) (cell : HandleState)
    (log : List S3Event) : Prop :=
  match cell.staging with
  | .remote _ => Gets log
  | .buffer buffer =>
      if cell.released then ∀ event ∈ log, event.1.IsGet ∨ event.1.IsPut
      else Gets log ∧ buffer.precondition = precondition
  | .failed _ => Discarded vfs cell.key log
  | .stream stream =>
      if cell.released || gone then Ended vfs cell.key log
      else ∃ parts content, Live vfs cell.key precondition parts content stream log

/-- A handle keeps its key, and its log stays in step with what it stages. -/
structure Kept (vfs : S3Vfs) (precondition : Precondition) (key : Text) (released : Bool)
    (after : HandleState) (log : List S3Event) : Prop where
  key : after.key = key
  released : after.released = released
  sent : Sent vfs false precondition after log

section Bodies
variable {vfs : S3Vfs} {precondition : Precondition} {cell : HandleState} {log : List S3Event}

theorem getWhole_gets (key : Text) (file : RemoteFile) (gets : Gets log) :
    (vfs.getWhole key file).Wp () log (fun _ _ log => Gets log) (fun _ _ log => Gets log) := by
  unfold S3Vfs.getWhole
  split
  · exact wp_pure_iff.mpr gets
  · apply wp_send_bind (fun error => gets.snoc ⟨Request.get _, .error error⟩ trivial)
    intro found
    have sent := gets.snoc ⟨Request.get _, .ok found⟩ trivial
    apply wp_lift_bind (fun _ _ => sent)
    intro expected _
    rw [wp_lift_iff]
    cases S3Vfs.checkRange _ expected found <;> exact sent

theorem readRemote_gets (key : Text) (file : RemoteFile) (offset bufLen : Nat) (gets : Gets log) :
    (vfs.readRemote key file offset bufLen).Wp () log (fun _ _ log => Gets log)
      (fun _ _ log => Gets log) := by
  unfold S3Vfs.readRemote
  split
  · exact wp_pure_iff.mpr gets
  · apply wp_lift_bind (fun _ _ => gets)
    intro past _
    apply wp_send_bind (fun error => gets.snoc ⟨Request.get _, .error error⟩ trivial)
    intro found
    have sent := gets.snoc ⟨Request.get _, .ok found⟩ trivial
    apply wp_lift_bind (fun _ _ => sent)
    intro expected _
    rw [wp_lift_iff]
    cases S3Vfs.checkRange _ expected found <;> exact sent

theorem sourceBytes_gets (key : Text) (source : Option RemoteFile) (gets : Gets log) :
    (vfs.sourceBytes key source).Wp () log (fun _ _ log => Gets log) (fun _ _ log => Gets log) := by
  cases source with
  | none => exact wp_pure_iff.mpr gets
  | some file =>
      apply wp_lift_bind (fun _ _ => gets)
      intro _ _
      exact getWhole_gets key file gets

theorem materialize_gets (key : Text) (buffer : Buffer) (gets : Gets log) :
    (vfs.materialize key).Wp buffer log
      (fun _ after log => Gets log ∧ after.precondition = buffer.precondition)
      (fun _ after log => Gets log ∧ after.precondition = buffer.precondition) := by
  unfold S3Vfs.materialize
  rw [wp_bind_iff, wp_get_iff]
  split
  · exact wp_pure_iff.mpr ⟨gets, rfl⟩
  · rw [wp_bind_iff, wp_perform_iff]
    refine (sourceBytes_gets key buffer.source gets).mono ?_ (fun _ _ _ gets => ⟨gets, rfl⟩)
    intro bytes _ log gets
    rw [wp_bind_iff, wp_set_iff, wp_pure_iff]
    exact ⟨gets, rfl⟩

theorem readBuffer_gets (key : Text) (buffer : Buffer) (offset bufLen : Nat) (gets : Gets log) :
    (vfs.readBuffer key offset bufLen).Wp buffer log
      (fun _ after log => Gets log ∧ after.precondition = buffer.precondition)
      (fun _ after log => Gets log ∧ after.precondition = buffer.precondition) := by
  apply Wp.bind (materialize_gets key buffer gets)
  intro bytes after log kept
  apply wp_lift_bind (fun _ _ => kept)
  intro offset _
  split <;> exact wp_pure_iff.mpr kept

theorem writeBuffer_gets (key : Text) (buffer : Buffer) (append : Bool) (offset : Nat)
    (data : Bytes) (gets : Gets log) :
    (vfs.writeBuffer key append offset data).Wp buffer log
      (fun _ after log => Gets log ∧ after.precondition = buffer.precondition)
      (fun _ after log => Gets log ∧ after.precondition = buffer.precondition) := by
  apply Wp.bind (materialize_gets key buffer gets)
  intro bytes after log kept
  apply wp_lift_bind (fun _ _ => kept)
  intro start _
  apply wp_lift_bind (fun _ _ => kept)
  intro written _
  rw [wp_bind_iff, wp_get_iff, wp_bind_iff, wp_set_iff, wp_pure_iff]
  exact kept

theorem truncateBuffer_gets (key : Text) (buffer : Buffer) (len : Nat) (gets : Gets log) :
    (vfs.truncateBuffer key len).Wp buffer log
      (fun _ after log => Gets log ∧ after.precondition = buffer.precondition)
      (fun _ after log => Gets log ∧ after.precondition = buffer.precondition) := by
  apply Wp.bind (materialize_gets key buffer gets)
  intro bytes after log kept
  apply wp_lift_bind (fun _ _ => kept)
  intro len _
  apply wp_lift_bind (fun _ _ => kept)
  intro resized _
  rw [wp_bind_iff, wp_get_iff, wp_set_iff]
  exact kept

theorem commitBuffer_puts (key : Text) (buffer : Buffer) (gets : Gets log) :
    (vfs.commitBuffer key).Wp buffer log
      (fun _ _ log => ∀ event ∈ log, event.1.IsGet ∨ event.1.IsPut)
      (fun _ _ log => ∀ event ∈ log, event.1.IsGet ∨ event.1.IsPut) := by
  have only : ∀ event ∈ log, event.1.IsGet ∨ event.1.IsPut := fun event member =>
    .inl (gets event member)
  unfold S3Vfs.commitBuffer S3Vfs.putObject
  rw [wp_bind_iff, wp_get_iff]
  split
  · rw [wp_pure_iff]
    exact only
  · rw [wp_bind_iff, wp_set_iff, wp_perform_iff, wp_sendWith_iff]
    intro response
    have sent : ∀ event ∈ log ++ [⟨Request.put vfs.bucket key (buffer.bytes.getD [])
        (vfs.precondition buffer.precondition), response⟩], event.1.IsGet ∨ event.1.IsPut := by
      intro event member
      rcases List.mem_append.mp member with old | new
      · exact only event old
      · obtain rfl := List.mem_singleton.mp new
        exact .inr trivial
    cases response <;> exact sent

/-- A read keeps what the handle stages. -/
theorem readResolved_sent {key : Text} {mode : OpenMode} {staging : Staging} (offset bufLen : Nat)
    (sent : Sent vfs false precondition { key, mode, staging, released := false } log) :
    (vfs.readResolved offset bufLen).Wp { key, mode, staging, released := false } log
      (fun _ after log => Kept vfs precondition key false after log)
      (fun _ after log => Kept vfs precondition key false after log) := by
  unfold S3Vfs.readResolved
  rw [wp_bind_iff, wp_get_iff, wp_bind_iff, wp_refuse_iff, if_neg (by simp), wp_bind_iff,
    wp_refuse_iff]
  split
  · exact ⟨rfl, rfl, sent⟩
  · cases staging with
    | remote file =>
        refine wp_perform_iff.mpr ((readRemote_gets key file offset bufLen sent).mono ?_ ?_)
        · exact fun _ _ _ gets => ⟨rfl, rfl, gets⟩
        · exact fun _ _ _ gets => ⟨rfl, rfl, gets⟩
    | buffer buffer =>
        refine wp_focus_iff.mpr ((readBuffer_gets key buffer offset bufLen sent.1).mono ?_ ?_)
        · exact fun _ _ _ kept => ⟨rfl, rfl, kept.1, kept.2.trans sent.2⟩
        · exact fun _ _ _ kept => ⟨rfl, rfl, kept.1, kept.2.trans sent.2⟩
    | stream stream => exact wp_throw_iff.mpr ⟨rfl, rfl, sent⟩
    | failed error => exact wp_throw_iff.mpr ⟨rfl, rfl, sent⟩

/-- A stream task that keeps the stream live, rejects the call, or fails the handle. -/
theorem sent_of_stream {key : Text} {mode : OpenMode} {stream : Stream} {α : Type}
    {task : S3Task HandleState α} {content : Bytes} {rejects : Prop}
    (sent : Sent vfs false precondition { key, mode, staging := .stream stream, released := false } log)
    (wp : task.Wp { key, mode, staging := .stream stream, released := false } log
      (fun _ after log => ∃ stream,
        after = { key, mode, staging := .stream stream, released := false } ∧
        ∃ parts, Live vfs key precondition parts content stream log)
      (fun error after reached =>
        (rejects ∧ after = { key, mode, staging := .stream stream, released := false } ∧
          reached = log) ∨
        (after = { key, mode, staging := .failed error, released := false } ∧
          Discarded vfs key reached))) :
    task.Wp { key, mode, staging := .stream stream, released := false } log
      (fun _ after log => Kept vfs precondition key false after log)
      (fun _ after log => Kept vfs precondition key false after log) := by
  refine wp.mono ?_ ?_
  · rintro value after log ⟨stream, rfl, parts, live⟩
    exact ⟨rfl, rfl, parts, content, live⟩
  · rintro error after log (⟨-, rfl, rfl⟩ | ⟨rfl, discarded⟩)
    · exact ⟨rfl, rfl, sent⟩
    · exact ⟨rfl, rfl, discarded⟩

theorem writeResolved_sent {key : Text} {mode : OpenMode} {staging : Staging} (offset : Nat)
    (data : Bytes) (sent : Sent vfs false precondition { key, mode, staging, released := false } log) :
    (vfs.writeResolved offset data).Wp { key, mode, staging, released := false } log
      (fun _ after log => Kept vfs precondition key false after log)
      (fun _ after log => Kept vfs precondition key false after log) := by
  by_cases writable : mode.write = true
  · cases staging with
    | stream stream =>
        obtain ⟨parts, content, live⟩ := sent
        exact sent_of_stream ⟨parts, content, live⟩
          (writeResolved_stream_wp { key, mode, staging := .stream stream, released := false } 0
            offset data live rfl rfl writable)
    | remote file =>
        unfold S3Vfs.writeResolved
        rw [wp_bind_iff, wp_get_iff, wp_bind_iff, wp_refuse_iff, if_neg (by simp), wp_bind_iff,
          wp_refuse_iff, if_neg (by simp [writable])]
        show Wp (if data = [] then pure 0 else throw Errno.EBADF) _ _ _ _
        split
        · exact wp_pure_iff.mpr ⟨rfl, rfl, sent⟩
        · exact wp_throw_iff.mpr ⟨rfl, rfl, sent⟩
    | failed error =>
        unfold S3Vfs.writeResolved
        rw [wp_bind_iff, wp_get_iff, wp_bind_iff, wp_refuse_iff, if_neg (by simp), wp_bind_iff,
          wp_refuse_iff, if_neg (by simp [writable])]
        exact wp_throw_iff.mpr ⟨rfl, rfl, sent⟩
    | buffer buffer =>
        unfold S3Vfs.writeResolved
        rw [wp_bind_iff, wp_get_iff, wp_bind_iff, wp_refuse_iff, if_neg (by simp), wp_bind_iff,
          wp_refuse_iff, if_neg (by simp [writable])]
        show Wp (if data = [] then pure 0 else _) _ _ _ _
        split
        · exact wp_pure_iff.mpr ⟨rfl, rfl, sent⟩
        · refine wp_focus_iff.mpr ((writeBuffer_gets key buffer mode.append offset data sent.1).mono
            ?_ ?_)
          · exact fun _ _ _ kept => ⟨rfl, rfl, kept.1, kept.2.trans sent.2⟩
          · exact fun _ _ _ kept => ⟨rfl, rfl, kept.1, kept.2.trans sent.2⟩
  · unfold S3Vfs.writeResolved
    rw [wp_bind_iff, wp_get_iff, wp_bind_iff, wp_refuse_iff, if_neg (by simp), wp_bind_iff,
      wp_refuse_iff, if_pos (by simpa using writable)]
    exact ⟨rfl, rfl, sent⟩

theorem truncateResolved_sent {key : Text} {mode : OpenMode} {staging : Staging} (len : Nat)
    (sent : Sent vfs false precondition { key, mode, staging, released := false } log) :
    (vfs.truncateResolved len).Wp { key, mode, staging, released := false } log
      (fun _ after log => Kept vfs precondition key false after log)
      (fun _ after log => Kept vfs precondition key false after log) := by
  by_cases writable : mode.write = true
  · cases staging with
    | stream stream =>
        obtain ⟨parts, content, live⟩ := sent
        exact sent_of_stream ⟨parts, content, live⟩
          (truncateResolved_stream_wp { key, mode, staging := .stream stream, released := false } 0
            len live rfl rfl writable)
    | remote file =>
        unfold S3Vfs.truncateResolved
        rw [wp_bind_iff, wp_get_iff, wp_bind_iff, wp_refuse_iff, if_neg (by simp), wp_bind_iff,
          wp_refuse_iff, if_neg (by simp [writable])]
        exact wp_throw_iff.mpr ⟨rfl, rfl, sent⟩
    | failed error =>
        unfold S3Vfs.truncateResolved
        rw [wp_bind_iff, wp_get_iff, wp_bind_iff, wp_refuse_iff, if_neg (by simp), wp_bind_iff,
          wp_refuse_iff, if_neg (by simp [writable])]
        exact wp_throw_iff.mpr ⟨rfl, rfl, sent⟩
    | buffer buffer =>
        unfold S3Vfs.truncateResolved
        rw [wp_bind_iff, wp_get_iff, wp_bind_iff, wp_refuse_iff, if_neg (by simp), wp_bind_iff,
          wp_refuse_iff, if_neg (by simp [writable])]
        refine wp_focus_iff.mpr ((truncateBuffer_gets key buffer len sent.1).mono ?_ ?_)
        · exact fun _ _ _ kept => ⟨rfl, rfl, kept.1, kept.2.trans sent.2⟩
        · exact fun _ _ _ kept => ⟨rfl, rfl, kept.1, kept.2.trans sent.2⟩
  · unfold S3Vfs.truncateResolved
    rw [wp_bind_iff, wp_get_iff, wp_bind_iff, wp_refuse_iff, if_neg (by simp), wp_bind_iff,
      wp_refuse_iff, if_pos (by simpa using writable)]
    exact ⟨rfl, rfl, sent⟩

theorem closeResolved_sent {key : Text} {mode : OpenMode} {staging : Staging}
    (sent : Sent vfs false precondition { key, mode, staging, released := false } log) :
    vfs.closeResolved.Wp { key, mode, staging, released := false } log
      (fun _ after log => Kept vfs precondition key true after log)
      (fun _ after log => Kept vfs precondition key true after log) := by
  cases staging with
  | stream stream =>
      obtain ⟨parts, content, live⟩ := sent
      refine (closeResolved_stream_wp { key, mode, staging := .stream stream, released := false }
        live rfl).mono ?_ ?_
      · rintro ⟨⟩ after log ⟨⟨left, rfl⟩, published⟩
        exact ⟨rfl, rfl, .inl ⟨_, _, published⟩⟩
      · rintro error after log ⟨⟨left, rfl⟩, failed⟩
        exact ⟨rfl, rfl, .inr ⟨_, failed⟩⟩
  | remote file =>
      unfold S3Vfs.closeResolved S3Vfs.commit
      rw [wp_bind_iff, wp_get_iff, wp_bind_iff, wp_set_iff, wp_bind_iff, wp_get_iff]
      exact wp_pure_iff.mpr ⟨rfl, rfl, sent⟩
  | failed error =>
      unfold S3Vfs.closeResolved S3Vfs.commit
      rw [wp_bind_iff, wp_get_iff, wp_bind_iff, wp_set_iff, wp_bind_iff, wp_get_iff]
      exact wp_throw_iff.mpr ⟨rfl, rfl, sent⟩
  | buffer buffer =>
      unfold S3Vfs.closeResolved S3Vfs.commit
      rw [wp_bind_iff, wp_get_iff, wp_bind_iff, wp_set_iff, wp_bind_iff, wp_get_iff]
      refine wp_focus_iff.mpr ((commitBuffer_puts key buffer sent.1).mono ?_ ?_)
      · exact fun _ _ _ only => ⟨rfl, rfl, only⟩
      · exact fun _ _ _ only => ⟨rfl, rfl, only⟩

theorem abortResolved_sent {key : Text} {mode : OpenMode} {staging : Staging}
    (sent : Sent vfs false precondition { key, mode, staging, released := false } log) :
    vfs.abortResolved.Wp { key, mode, staging, released := false } log
      (fun _ after log => Kept vfs precondition key true after log)
      (fun _ after log => Kept vfs precondition key true after log) := by
  unfold S3Vfs.abortResolved
  rw [wp_bind_iff, wp_get_iff, wp_bind_iff, wp_set_iff]
  cases staging with
  | remote file => exact wp_pure_iff.mpr ⟨rfl, rfl, sent⟩
  | failed error => exact wp_pure_iff.mpr ⟨rfl, rfl, sent⟩
  | buffer buffer => exact wp_pure_iff.mpr ⟨rfl, rfl, fun event member => .inl (sent.1 event member)⟩
  | stream stream =>
      obtain ⟨parts, content, live⟩ := sent
      have uploading := live.uploading
      cases held : stream.upload with
      | none =>
          rw [held] at uploading
          simp only [held, wp_pure_iff]
          exact ⟨rfl, rfl, .inr ⟨none, log, .inl uploading, rfl⟩⟩
      | some upload =>
          rw [held] at uploading
          simp only [held]
          refine wp_send_iff.mpr fun response => ?_
          have ended : Ended vfs key
              (log ++ [⟨.abortUpload vfs.bucket key upload.id, response⟩]) :=
            .inr ⟨some upload, log, .inl uploading, response, rfl⟩
          cases response <;> exact ⟨rfl, rfl, ended⟩

/-- A body under the lock keeps the log in step with what the handle stages. -/
theorem body_sent (op : HandleOp) (unreleased : cell.released = false)
    (sent : Sent vfs false precondition cell log) :
    (op.body vfs).Wp cell log
      (fun _ after log => Kept vfs precondition cell.key op.releases after log)
      (fun _ after log => Kept vfs precondition cell.key op.releases after log) := by
  obtain ⟨key, mode, staging, released⟩ := cell
  obtain rfl : released = false := unreleased
  cases op with
  | read offset bufLen => exact wp_map_iff.mpr (readResolved_sent offset bufLen sent)
  | write offset data => exact wp_map_iff.mpr (writeResolved_sent offset data sent)
  | truncate len => exact truncateResolved_sent len sent
  | close => exact closeResolved_sent sent
  | abort => exact abortResolved_sent sent

/-- A caller that gets the lock of a released handle sends nothing. -/
theorem body_released (op : HandleOp) (released : cell.released = true)
    (keeps : op.releases = false) :
    (op.body vfs).Wp cell log (fun _ _ _ => False) (fun _ after reached => after = cell ∧ reached = log) := by
  cases op with
  | read offset bufLen =>
      unfold HandleOp.body S3Vfs.readResolved
      rw [wp_map_iff, wp_bind_iff, wp_get_iff, wp_bind_iff, wp_refuse_iff, if_pos (by simp [released])]
      exact ⟨rfl, rfl⟩
  | write offset data =>
      unfold HandleOp.body S3Vfs.writeResolved
      rw [wp_map_iff, wp_bind_iff, wp_get_iff, wp_bind_iff, wp_refuse_iff, if_pos (by simp [released])]
      exact ⟨rfl, rfl⟩
  | truncate len =>
      unfold HandleOp.body S3Vfs.truncateResolved
      rw [wp_bind_iff, wp_get_iff, wp_bind_iff, wp_refuse_iff, if_pos (by simp [released])]
      exact ⟨rfl, rfl⟩
  | close => cases keeps
  | abort => cases keeps

/-- A drop ends the stream of a handle that is still in the table. -/
theorem dropResolved_sent (unreleased : cell.released = false) (sent : Sent vfs false precondition cell log) :
    vfs.dropResolved.Wp cell log (fun _ after log => after = cell ∧ Sent vfs true precondition cell log)
      (fun _ _ _ => False) := by
  obtain ⟨key, mode, staging, released⟩ := cell
  obtain rfl : released = false := unreleased
  unfold S3Vfs.dropResolved
  rw [wp_bind_iff, wp_get_iff]
  cases staging with
  | remote file => exact wp_pure_iff.mpr ⟨rfl, sent⟩
  | failed error => exact wp_pure_iff.mpr ⟨rfl, sent⟩
  | buffer buffer => exact wp_pure_iff.mpr ⟨rfl, sent⟩
  | stream stream =>
      obtain ⟨parts, content, live⟩ := sent
      refine wp_perform_iff.mpr ((abortStream_wp vfs key stream log).mono ?_
        (fun _ _ _ impossible => impossible))
      intro _ _ reached aborted
      exact ⟨rfl, .inr ⟨stream.upload, log, .inl live.uploading, aborted⟩⟩

end Bodies

end TinySandbox.S3
