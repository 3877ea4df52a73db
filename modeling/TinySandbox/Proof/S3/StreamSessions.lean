/-
This file follows a write-only handle from its open to its close.
-/

import TinySandbox.Construction.S3.Clients
import TinySandbox.Proof.S3.Buckets
import TinySandbox.Proof.S3.Probes
import TinySandbox.Proof.S3.StreamHandles

namespace TinySandbox.S3
open Library Library.Task Mem

/-- The call writes to the handle or truncates it. -/
def StreamCall (handle : Nat) : VfsCall → Prop
  | .writeAt number _ _ => number = handle
  | .truncate number _ => number = handle
  | _ => False

/-- The handle holds a stream with the given content. -/
def Streams (vfs : S3Vfs) (cell : HandleState) (handle : Nat) (precondition : Precondition)
    (content : Bytes) (state : State) (log : List S3Event) : Prop :=
  ∃ stream parts, state.handles.get handle = some { cell with staging := .stream stream } ∧
    Live vfs cell.key precondition parts content stream log

/-- The handle holds a stream that failed with the given error. -/
def Fails (vfs : S3Vfs) (cell : HandleState) (handle : Nat) (error : Errno) (state : State)
    (log : List S3Event) : Prop :=
  state.handles.get handle = some { cell with staging := .failed error } ∧
    Discarded vfs cell.key log

/-- The stream of the handle does not reject the call. -/
def Accepts (handle : Nat) (state : State) (call : VfsCall) : Prop :=
  ∀ cell stream, state.handles.get handle = some cell → cell.staging = .stream stream →
    ¬ stream.Rejects cell.mode.append call

section Sessions
variable {vfs : S3Vfs} {cell : HandleState} {handle : Nat} {precondition : Precondition}
  {content : Bytes} {state : State} {log : List S3Event} {call : VfsCall}

theorem onHandle_wp_iff {α : Type} {task : S3Task HandleState α}
    {returns : α → State → List S3Event → Prop} {fails : Errno → State → List S3Event → Prop}
    (found : state.handles.get handle = some cell) :
    (S3Vfs.onHandle handle task).Wp state log returns fails ↔
      task.Wp cell log
        (fun value after => returns value
          { state with handles := state.handles.insert handle after })
        (fun error after => fails error
          { state with handles := state.handles.insert handle after }) := by
  unfold S3Vfs.onHandle
  rw [wp_bind_iff, wp_get_iff, wp_bind_iff, wp_lift_iff, found, Call.okOr_some, judged_ok,
    wp_focus_iff]

theorem onRemoved_wp_iff {α : Type} {task : S3Task HandleState α}
    {returns : α → State → List S3Event → Prop} {fails : Errno → State → List S3Event → Prop}
    (found : state.handles.get handle = some cell) :
    (S3Vfs.onRemoved handle task).Wp state log returns fails ↔
      task.Wp cell log
        (fun value _ => returns value { state with handles := state.handles.erase handle })
        (fun error _ => fails error { state with handles := state.handles.erase handle }) := by
  unfold S3Vfs.onRemoved
  rw [wp_bind_iff, wp_get_iff, wp_bind_iff, wp_lift_iff, found, Call.okOr_some, judged_ok,
    wp_focus_iff]

/-- A call on a live stream changes its content, is rejected, or fails the stream. -/
theorem call_streams_wp (writable : cell.mode.write = true) (unreleased : cell.released = false)
    (streamed : StreamCall handle call)
    (streams : Streams vfs cell handle precondition content state log) :
    (vfs.call call).Wp state log
      (fun _ after log => Streams vfs cell handle precondition
        (plainStep cell.mode.append content call) after log)
      (fun error after log =>
        (¬ Accepts handle state call ∧ Streams vfs cell handle precondition content after log) ∨
        Fails vfs cell handle error after log) := by
  obtain ⟨stream, parts, found, live⟩ := streams
  have rejected : stream.Rejects cell.mode.append call → ¬ Accepts handle state call := by
    intro rejects accepts
    exact accepts _ stream found rfl rejects
  cases call with
  | writeAt number offset data =>
      obtain rfl : number = handle := streamed
      unfold S3Vfs.call S3Vfs.writeAt
      rw [wp_map_iff, onHandle_wp_iff found]
      refine (writeResolved_stream_wp { cell with staging := .stream stream } number offset data live
        rfl unreleased writable).mono ?_ ?_
      · rintro count after log ⟨stream, rfl, parts, live⟩
        exact ⟨stream, parts, by simp, live⟩
      · rintro error after log (⟨rejects, rfl, rfl⟩ | ⟨rfl, discarded⟩)
        · exact .inl ⟨rejected rejects, stream, parts, by simp, live⟩
        · exact .inr ⟨by simp, discarded⟩
  | truncate number len =>
      obtain rfl : number = handle := streamed
      unfold S3Vfs.call S3Vfs.truncate
      rw [wp_map_iff, onHandle_wp_iff found]
      refine (truncateResolved_stream_wp { cell with staging := .stream stream } number len live
        rfl unreleased writable).mono ?_ ?_
      · rintro ⟨⟩ after log ⟨stream, rfl, parts, live⟩
        exact ⟨stream, parts, by simp, live⟩
      · rintro error after log (⟨rejects, rfl, rfl⟩ | ⟨rfl, discarded⟩)
        · exact .inl ⟨rejected rejects, stream, parts, by simp, live⟩
        · exact .inr ⟨by simp, discarded⟩
  | _ => exact streamed.elim

/-- A call on a failed stream reports the first error and sends nothing. -/
theorem call_fails_wp {error : Errno} (writable : cell.mode.write = true)
    (unreleased : cell.released = false) (streamed : StreamCall handle call)
    (failed : Fails vfs cell handle error state log) :
    (vfs.call call).Wp state log (fun _ _ _ => False)
      (fun reported after reached => reported = error ∧ reached = log ∧
        Fails vfs cell handle error after reached) := by
  obtain ⟨found, discarded⟩ := failed
  cases call with
  | writeAt number offset data =>
      obtain rfl : number = handle := streamed
      unfold S3Vfs.call S3Vfs.writeAt S3Vfs.writeResolved
      rw [wp_map_iff, onHandle_wp_iff found, wp_bind_iff, wp_get_iff, wp_bind_iff, wp_refuse_iff,
        if_neg (by simp [unreleased]), wp_bind_iff, wp_refuse_iff, if_neg (by simp [writable])]
      exact wp_throw_iff.mpr ⟨rfl, rfl, by simp, discarded⟩
  | truncate number len =>
      obtain rfl : number = handle := streamed
      unfold S3Vfs.call S3Vfs.truncate S3Vfs.truncateResolved
      rw [wp_map_iff, onHandle_wp_iff found, wp_bind_iff, wp_get_iff, wp_bind_iff, wp_refuse_iff,
        if_neg (by simp [unreleased]), wp_bind_iff, wp_refuse_iff, if_neg (by simp [writable])]
      exact wp_throw_iff.mpr ⟨rfl, rfl, by simp, discarded⟩
  | _ => exact streamed.elim

/-- A close publishes a live stream, or it aborts the upload. -/
theorem close_streams_wp (streams : Streams vfs cell handle precondition content state log) :
    (vfs.call (.close handle)).Wp state log
      (fun _ _ log => Publishes vfs cell.key (vfs.precondition precondition) content log)
      (fun _ _ log => ∃ upload before, Unpublished vfs cell.key upload before ∧
        Aborted vfs cell.key upload before log) := by
  obtain ⟨stream, parts, found, live⟩ := streams
  unfold S3Vfs.call S3Vfs.close
  rw [wp_map_iff, onRemoved_wp_iff found]
  exact (closeResolved_stream_wp { cell with staging := .stream stream } live rfl).mono
    (fun _ _ _ published => published.2) (fun _ _ _ failed => ⟨stream.upload, failed.2⟩)

theorem close_fails_wp {error : Errno} (failed : Fails vfs cell handle error state log) :
    (vfs.call (.close handle)).Wp state log (fun _ _ _ => False)
      (fun reported _ reached => reported = error ∧ reached = log) := by
  obtain ⟨found, -⟩ := failed
  unfold S3Vfs.call S3Vfs.close S3Vfs.closeResolved S3Vfs.commit
  rw [wp_map_iff, onRemoved_wp_iff found, wp_bind_iff, wp_get_iff, wp_bind_iff, wp_set_iff, wp_bind_iff,
    wp_get_iff]
  exact wp_throw_iff.mpr ⟨rfl, rfl⟩

/-- Calls that all succeed change the content as plain calls do. -/
theorem session_streams {condition : State → VfsCall → Prop} {calls : List VfsCall}
    {events : List S3Event} {replies : List (VfsResult Reply)} {after : State}
    (writable : cell.mode.write = true) (unreleased : cell.released = false)
    (streamed : ∀ call ∈ calls, StreamCall handle call)
    (streams : Streams vfs cell handle precondition content state log)
    (session : Session vfs condition state calls events replies after)
    (succeeded : ∀ reply ∈ replies, ∃ value, reply = .ok value) :
    Streams vfs cell handle precondition (plainRun cell.mode.append content calls) after
      (log ++ events) := by
  induction calls generalizing state content log events replies with
  | nil =>
      obtain ⟨rfl, rfl, rfl⟩ := session
      simpa [plainRun] using streams
  | cons call rest ih =>
      obtain ⟨-, first, later, reply, others, middle, rfl, rfl, ran, session⟩ := session
      obtain ⟨value, rfl⟩ := succeeded reply List.mem_cons_self
      have stepped := (call_streams_wp writable unreleased
        (streamed call List.mem_cons_self) streams).ok ran
      have finished := ih (fun other member => streamed other (List.mem_cons_of_mem _ member))
        stepped session (fun other member => succeeded other (List.mem_cons_of_mem _ member))
      rw [← List.append_assoc]
      exact finished

/-- Calls on a failed stream fail and send nothing. -/
theorem session_fails {error : Errno} {condition : State → VfsCall → Prop} {calls : List VfsCall}
    {events : List S3Event} {replies : List (VfsResult Reply)} {after : State}
    (writable : cell.mode.write = true) (unreleased : cell.released = false)
    (streamed : ∀ call ∈ calls, StreamCall handle call)
    (failed : Fails vfs cell handle error state log)
    (session : Session vfs condition state calls events replies after) :
    (∀ reply ∈ replies, reply = .error error) ∧ events = [] ∧
      Fails vfs cell handle error after log := by
  induction calls generalizing state events replies with
  | nil =>
      obtain ⟨rfl, rfl, rfl⟩ := session
      exact ⟨by simp, rfl, failed⟩
  | cons call rest ih =>
      obtain ⟨-, first, later, reply, others, middle, rfl, rfl, ran, session⟩ := session
      have step := call_fails_wp writable unreleased (streamed call List.mem_cons_self) failed
      cases reply with
      | ok value => exact (step.ok ran).elim
      | error reported =>
          obtain ⟨rfl, silent, failed⟩ := step.error ran
          obtain rfl : first = [] := by simpa using silent
          obtain ⟨replies, rfl, failed⟩ := ih
            (fun other member => streamed other (List.mem_cons_of_mem _ member))
            (by simpa using failed) session
          refine ⟨?_, rfl, failed⟩
          intro other member
          rcases List.mem_cons.mp member with rfl | later
          · rfl
          · exact replies other later

/-- Accepted calls keep a stream live or fail it. -/
theorem session_accepted {calls : List VfsCall} {events : List S3Event}
    {replies : List (VfsResult Reply)} {after : State}
    (writable : cell.mode.write = true) (unreleased : cell.released = false)
    (streamed : ∀ call ∈ calls, StreamCall handle call)
    (streams : Streams vfs cell handle precondition content state log)
    (session : Session vfs (Accepts handle) state calls events replies after) :
    (∃ content, Streams vfs cell handle precondition content after (log ++ events)) ∨
      ∃ error, Fails vfs cell handle error after (log ++ events) := by
  induction calls generalizing state content log events replies with
  | nil =>
      obtain ⟨rfl, rfl, rfl⟩ := session
      exact .inl ⟨content, by simpa using streams⟩
  | cons call rest ih =>
      obtain ⟨accepts, first, later, reply, others, middle, rfl, rfl, ran, session⟩ := session
      have step := call_streams_wp writable unreleased (streamed call List.mem_cons_self) streams
      have rest := fun other member => streamed other (List.mem_cons_of_mem call member)
      cases reply with
      | ok value =>
          rw [← List.append_assoc]
          exact ih rest (step.ok ran) session
      | error error =>
          rcases step.error ran with ⟨rejects, -⟩ | failed
          · exact absurd accepts rejects
          · obtain ⟨-, rfl, failed⟩ := session_fails writable unreleased rest failed session
            rw [List.append_nil]
            exact .inr ⟨error, failed⟩

/-- The open creates the object or truncates it, and cannot read it. -/
structure OpensStream (mode : OpenMode) (opens : List S3Event) : Prop where
  write : mode.write = true
  blind : mode.read = false
  fresh : mode.truncate = true ∨
    ∃ bucket key, opens.getLast? = some ⟨.head bucket key, .error .missing⟩

theorem openStaging_stream {mode : OpenMode} {existing : Option RemoteFile} {staging : Staging}
    (write : mode.write = true) (blind : mode.read = false)
    (fresh : mode.truncate = true ∨ existing = none)
    (staged : S3Vfs.openStaging mode existing = .ok staging) :
    ∃ precondition, staging = .stream (Stream.new precondition) := by
  unfold S3Vfs.openStaging at staged
  rw [if_pos write] at staged
  cases existing with
  | none =>
      simp only [S3Vfs.writeStaging, blind] at staged
      rw [Call.ite_error_eq_ok_iff] at staged
      exact ⟨_, (Except.ok.inj staged.2).symm⟩
  | some file =>
      have truncates : mode.truncate = true := fresh.resolve_right (by simp)
      simp only [S3Vfs.writeStaging, blind, truncates] at staged
      rw [Call.ite_error_eq_ok_iff] at staged
      exact ⟨_, (Except.ok.inj staged.2).symm⟩

/-- Such an open starts a stream without content. -/
theorem open_streams {path : Text} {mode : OpenMode} {before opened : State}
    {opens : List S3Event} (opensStream : OpensStream mode opens)
    (opening : (vfs.call (.open path mode)).Runs before opens (.ok (.handle handle)) opened) :
    ∃ components precondition, normalizePath path = .ok components ∧ Probes opens ∧
      Streams vfs
        { key := vfs.key components, mode, staging := .stream (Stream.new precondition),
          released := false }
        handle precondition [] opened [] := by
  obtain ⟨result, ran, same⟩ := runs_map_iff.mp opening
  obtain ⟨number, rfl, image⟩ := Call.map_eq_ok_iff.mp same.symm
  obtain rfl := Reply.handle.inj image
  obtain ⟨probes, components, existing, staging, resolved, seen, staged, rfl, stored⟩ :=
    (open_wp path mode before).ok ran
  have fresh : mode.truncate = true ∨ existing = none := by
    refine opensStream.fresh.imp_right ?_
    rintro ⟨bucket, key, last⟩
    have same := Option.some.inj (last.symm.trans seen)
    cases existing with
    | none => rfl
    | some file => simp [lookedUp] at same
  obtain ⟨precondition, rfl⟩ :=
    openStaging_stream opensStream.write opensStream.blind fresh staged
  refine ⟨components, precondition, resolved, probes, Stream.new precondition, [], ?_,
    Stream.new_live _ _ _⟩
  simp [stored]

end Sessions

/-- A write-only stream publishes the bytes that the same calls leave in a plain file. -/
theorem stream_publishes_written (vfs : S3Vfs) {path : Text} {mode : OpenMode}
    {before opened written closed : State} {opens writes closes : List S3Event} {handle : Nat}
    {calls : List VfsCall} {replies : List (VfsResult Reply)}
    (opensStream : OpensStream mode opens)
    (opening : (vfs.call (.open path mode)).Runs before opens (.ok (.handle handle)) opened)
    (streamed : ∀ call ∈ calls, StreamCall handle call)
    (session : Session vfs (fun _ _ => True) opened calls writes replies written)
    (succeeded : ∀ reply ∈ replies, ∃ value, reply = .ok value)
    (closing : (vfs.call (.close handle)).Runs written closes (.ok .unit) closed) :
    ∃ components precondition, normalizePath path = .ok components ∧
      Publishes vfs (vfs.key components) precondition (plainRun mode.append [] calls)
        (writes ++ closes) := by
  obtain ⟨components, precondition, resolved, -, streams⟩ := open_streams opensStream opening
  have finished := session_streams opensStream.write rfl streamed streams session succeeded
  have published := (close_streams_wp finished).ok closing
  exact ⟨components, vfs.precondition precondition, resolved, by simpa using published⟩

/-- The mode of a shell redirection that replaces a file. -/
def replaceMode : OpenMode := { write := true, create := true, truncate := true }

theorem stream_publishes_written_parts :
    ∃ components precondition events, normalizePath "/f".toList = .ok components ∧
      Publishes .sample (S3Vfs.sample.key components) precondition
        [7, 7, 7, 7, 7, 7, 7, 7, 7, 0, 0, 5] events := by
  have ran : ((World.new .empty).run .sample (BucketState.respond .counting)
      [.open "/f".toList replaceMode, .writeAt 1 0 (List.replicate 9 7), .writeAt 1 11 [5],
        .close 1]).map Prod.fst =
      some [.ok (.handle 1), .ok (.count 9), .ok (.count 1), .ok .unit] := by
    decide +kernel
  obtain ⟨⟨replies, after⟩, ran, rfl⟩ := Option.map_eq_some_iff.mp ran
  obtain ⟨events, session, -⟩ := World.run_session ran
  obtain ⟨-, opens, later, reply, others, opened, -, same, opening, session⟩ := session
  obtain ⟨rfl, rfl⟩ := List.cons.inj same
  obtain ⟨-, first, later, reply, others, middle, -, same, wrote, session⟩ := session
  obtain ⟨rfl, rfl⟩ := List.cons.inj same
  obtain ⟨-, second, later, reply, others, written, -, same, again, session⟩ := session
  obtain ⟨rfl, rfl⟩ := List.cons.inj same
  obtain ⟨-, closes, later, reply, others, closed, -, same, closing, -⟩ := session
  obtain ⟨rfl, rfl⟩ := List.cons.inj same
  have streamed : ∀ call ∈ [VfsCall.writeAt 1 0 (List.replicate 9 7), .writeAt 1 11 [5]],
      StreamCall 1 call := by
    simp [StreamCall]
  obtain ⟨components, precondition, resolved, published⟩ := stream_publishes_written .sample
    ⟨rfl, rfl, .inl rfl⟩ opening streamed
    ⟨trivial, first, second ++ [], _, _, middle, rfl, rfl, wrote,
      trivial, second, [], _, _, written, rfl, rfl, again, rfl, rfl, rfl⟩
    (by simp) closing
  exact ⟨components, precondition, _, resolved, published⟩

end TinySandbox.S3
