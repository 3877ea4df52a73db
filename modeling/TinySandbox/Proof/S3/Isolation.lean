/-
This file shows that a handle with read access keeps to what it saw when it was opened.
Its bytes are the body of one revision with its own changes, whatever happens to the object.
-/

import TinySandbox.Construction.S3.Clients
import TinySandbox.Proof.Mem.HandleAgreement
import TinySandbox.Proof.S3.Publications
import TinySandbox.Specification.FlatFs

namespace TinySandbox.S3
open Library Library.Task Mem

/-- A response to a read of the revision has bytes of its body. -/
def Faithful (key : Text) (seen : Option StoredObject) (log : List S3Event) : Prop :=
  ∀ object, seen = some object → ∀ request result,
    (⟨.get request, .ok result⟩ : S3Event) ∈ log → request.key = key →
      request.ifMatch = object.etag →
      result.body = (object.body.drop request.range.first).take
        (request.range.last + 1 - request.range.first)

/-- The revision of an object. -/
def StoredObject.revision (object : StoredObject) : RemoteFile where
  len := object.body.length
  etag := object.etag

/-- The staged state gives these bytes. A revision that is not downloaded yet has them in the
bucket. -/
def Gives (seen : Option StoredObject) (bytes : Bytes) : Staging → Prop
  | .remote file => ∃ object, seen = some object ∧ file = object.revision ∧ bytes = object.body
  | .buffer buffer =>
      buffer.bytes = some bytes ∨
        (buffer.bytes = none ∧ ∃ object, seen = some object ∧
          buffer.source = some object.revision ∧ bytes = object.body)
  | .stream _ => False
  | .failed _ => False

/-- The handle reads these bytes of its own. -/
structure Isolated (key : Text) (seen : Option StoredObject) (append : Bool) (bytes : Bytes)
    (cell : HandleState) : Prop where
  named : cell.key = key
  appends : cell.mode.append = append
  gives : Gives seen bytes cell.staging

section Cells
variable {vfs : S3Vfs} {key : Text} {seen : Option StoredObject} {append : Bool} {bytes : Bytes}
  {cell : HandleState} {buffer : Buffer}

theorem getWhole_faithful {object : StoredObject} (origin : seen = some object) :
    (vfs.getWhole key object.revision).Wp () []
      (fun found _ reached => Faithful key seen reached → found = object.body)
      (fun _ _ _ => True) := by
  have sized : object.revision.len = object.body.length := rfl
  refine (getWhole_honest sized).mono ?_ (fun _ _ _ _ => trivial)
  intro found _ reached whole faithful
  apply whole.2
  intro request result member named tagged ranged
  rw [faithful object origin request result member named tagged, ranged]
  apply List.take_of_length_le
  rw [List.drop_zero]
  dsimp only
  omega

/-- A ranged read returns the bytes in its range. -/
theorem readRemote_faithful {object : StoredObject} (origin : seen = some object)
    (offset bufLen : Nat) :
    (vfs.readRemote key object.revision offset bufLen).Wp () []
      (fun found _ reached => Faithful key seen reached →
        found = (object.body.drop offset).take bufLen)
      (fun _ _ _ => True) := by
  have sized : object.revision.len = object.body.length := rfl
  unfold S3Vfs.readRemote
  split
  · rename_i outside
    rw [wp_pure_iff]
    intro _
    rcases outside with rfl | past
    · exact List.take_zero.symm
    · rw [List.drop_of_length_le (sized ▸ past), List.take_nil]
  · rename_i inside
    rw [not_or] at inside
    apply wp_lift_bind (fun _ _ => trivial)
    intro past summed
    apply wp_send_bind (fun _ => trivial)
    intro response
    apply wp_lift_bind (fun _ _ => trivial)
    intro expected _
    rw [wp_lift_iff]
    unfold S3Vfs.checkRange
    split
    · trivial
    · intro faithful
      rw [faithful object origin _ response (by simp) rfl rfl]
      obtain rfl := eq_of_checkedAdd (okOr_eq_ok summed)
      have rest : (object.body.drop offset).length = object.revision.len - offset := by
        rw [List.length_drop, sized]
      change (object.body.drop offset).take
        (offset + min (object.revision.len - offset) bufLen - 1 + 1 - offset) = _
      apply List.take_eq_take_iff.mpr
      omega

/-- The first use of a buffer fills it with the bytes it stands for. -/
theorem materialize_gives (gives : Gives seen bytes (.buffer buffer)) :
    (vfs.materialize key).Wp buffer []
      (fun found after reached => Faithful key seen reached →
        found = bytes ∧ Gives seen bytes (.buffer after))
      (fun _ after _ => Gives seen bytes (.buffer after)) := by
  unfold S3Vfs.materialize
  rw [wp_bind_iff, wp_get_iff]
  rcases gives with filled | ⟨missing, object, origin, source, rfl⟩
  · rw [filled, wp_pure_iff]
    intro _
    exact ⟨rfl, .inl filled⟩
  · rw [missing, wp_bind_iff, wp_perform_iff, source]
    unfold S3Vfs.sourceBytes
    have kept : Gives seen object.body (.buffer buffer) :=
      .inr ⟨missing, object, origin, source, rfl⟩
    apply wp_lift_bind (fun _ _ => kept)
    intro _ _
    refine (getWhole_faithful origin).mono ?_ (fun _ _ _ _ => kept)
    intro found _ reached whole
    rw [wp_bind_iff, wp_set_iff, wp_pure_iff]
    intro faithful
    obtain rfl := whole faithful
    exact ⟨rfl, .inl rfl⟩

theorem readBuffer_gives (offset bufLen : Nat) (gives : Gives seen bytes (.buffer buffer)) :
    (vfs.readBuffer key offset bufLen).Wp buffer []
      (fun found after reached => Faithful key seen reached →
        found = (bytes.drop offset).take bufLen ∧ Gives seen bytes (.buffer after))
      (fun _ after reached => Faithful key seen reached → Gives seen bytes (.buffer after)) := by
  unfold S3Vfs.readBuffer
  refine wp_bind_iff.mpr ((materialize_gives gives).mono ?_ (fun _ _ _ kept _ => kept))
  intro found after reached filled
  apply wp_lift_bind (fun _ _ faithful => (filled faithful).2)
  intro start fits
  obtain rfl := eq_of_usizeTryFrom (okOr_eq_ok fits)
  split
  · rename_i outside
    rw [wp_pure_iff]
    intro faithful
    obtain ⟨rfl, kept⟩ := filled faithful
    refine ⟨?_, kept⟩
    rcases outside with rfl | past
    · exact List.take_zero.symm
    · rw [List.drop_of_length_le past, List.take_nil]
  · rw [wp_pure_iff]
    intro faithful
    obtain ⟨rfl, kept⟩ := filled faithful
    refine ⟨?_, kept⟩
    apply List.take_eq_take_iff.mpr
    rw [List.length_drop]
    omega

theorem readResolved_isolated (offset bufLen : Nat)
    (isolated : Isolated key seen append bytes cell) :
    (vfs.readResolved offset bufLen).Wp cell []
      (fun found after reached => Faithful key seen reached →
        found = (bytes.drop offset).take bufLen ∧ Isolated key seen append bytes after)
      (fun _ after reached => Faithful key seen reached →
        Isolated key seen append bytes after) := by
  obtain ⟨rfl, rfl, gives⟩ := isolated
  have kept : Isolated cell.key seen cell.mode.append bytes cell := ⟨rfl, rfl, gives⟩
  unfold S3Vfs.readResolved
  rw [wp_bind_iff, wp_get_iff, wp_bind_iff, wp_refuse_iff]
  split
  · exact fun _ => kept
  · rw [wp_bind_iff, wp_refuse_iff]
    split
    · exact fun _ => kept
    · cases staged : cell.staging with
      | remote file =>
          rw [staged] at gives
          obtain ⟨object, origin, rfl, rfl⟩ := gives
          rw [wp_perform_iff]
          refine (readRemote_faithful origin offset bufLen).mono ?_ (fun _ _ _ _ _ => kept)
          intro found _ reached read faithful
          exact ⟨read faithful, kept⟩
      | buffer buffer =>
          rw [staged] at gives
          rw [wp_focus_iff]
          refine (readBuffer_gives offset bufLen gives).mono ?_ ?_
          · intro found after reached read faithful
            obtain ⟨same, given⟩ := read faithful
            exact ⟨same, rfl, rfl, given⟩
          · intro error after reached given faithful
            exact ⟨rfl, rfl, given faithful⟩
      | stream stream => exact wp_throw_iff.mpr fun _ => kept
      | failed error => exact wp_throw_iff.mpr fun _ => kept

/-- A write puts the data over the bytes and fills a gap with zeros. -/
theorem writtenBytes_eq {start : Nat} {data written : Bytes}
    (wrote : vfs.writtenBytes bytes start data = .ok written) :
    written = FlatFs.overwritten bytes start data := by
  unfold S3Vfs.writtenBytes at wrote
  obtain ⟨past, summed, wrote⟩ := Call.bind_eq_ok_iff.mp wrote
  obtain ⟨grown, resized, wrote⟩ := Call.bind_eq_ok_iff.mp wrote
  obtain rfl := Except.ok.inj wrote
  obtain rfl := eq_of_checkedAdd (okOr_eq_ok summed)
  have sized : grown = FlatFs.resized bytes (max bytes.length (start + data.length)) := by
    split at resized
    · rename_i longer
      unfold S3Vfs.resizeStaged at resized
      obtain ⟨_, -, same⟩ := Call.bind_eq_ok_iff.mp resized
      rw [Nat.max_eq_right longer.le]
      exact (Except.ok.inj same).symm
    · rename_i fits
      rw [Nat.max_eq_left (Nat.le_of_not_lt fits), ← Except.ok.inj resized]
      simp [FlatFs.resized]
  rw [sized, copyFromSlice_resized]

/-- The bytes after a write that is not empty. -/
theorem writeBuffer_gives (offset : Nat) {data : Bytes}
    (gives : Gives seen bytes (.buffer buffer)) :
    (vfs.writeBuffer key append offset data).Wp buffer []
      (fun _ after reached => Faithful key seen reached →
        Gives seen (FlatFs.overwritten bytes (if append then bytes.length else offset) data)
          (.buffer after))
      (fun _ after reached => Faithful key seen reached → Gives seen bytes (.buffer after)) := by
  unfold S3Vfs.writeBuffer
  refine wp_bind_iff.mpr ((materialize_gives gives).mono ?_ (fun _ _ _ kept _ => kept))
  intro found after reached filled
  apply wp_lift_bind (fun _ _ faithful => (filled faithful).2)
  intro start started
  apply wp_lift_bind (fun _ _ faithful => (filled faithful).2)
  intro written wrote
  rw [wp_bind_iff, wp_get_iff, wp_bind_iff, wp_set_iff, wp_pure_iff]
  intro faithful
  obtain ⟨rfl, -⟩ := filled faithful
  have place : start = if append then found.length else offset := by
    cases append with
    | true => exact (Except.ok.inj started).symm
    | false => exact (eq_of_usizeTryFrom (okOr_eq_ok started)).symm
  left
  rw [writtenBytes_eq wrote, place]

theorem writeResolved_isolated (handle offset : Nat) (data : Bytes)
    (isolated : Isolated key seen append bytes cell) :
    (vfs.writeResolved offset data).Wp cell []
      (fun _ after reached => Faithful key seen reached →
        Isolated key seen append (plainStep append bytes (.writeAt handle offset data)) after)
      (fun _ after reached => Faithful key seen reached →
        Isolated key seen append bytes after) := by
  obtain ⟨rfl, rfl, gives⟩ := isolated
  have kept : Isolated cell.key seen cell.mode.append bytes cell := ⟨rfl, rfl, gives⟩
  unfold S3Vfs.writeResolved
  rw [wp_bind_iff, wp_get_iff, wp_bind_iff, wp_refuse_iff]
  split
  · exact fun _ => kept
  · rw [wp_bind_iff, wp_refuse_iff]
    split
    · exact fun _ => kept
    · by_cases empty : data = []
      · have same : plainStep cell.mode.append bytes (.writeAt handle offset data) = bytes :=
          if_pos empty
        rw [same]
        cases staged : cell.staging with
        | remote file =>
            dsimp only
            rw [if_pos empty, wp_pure_iff]
            exact fun _ => kept
        | buffer buffer =>
            dsimp only
            rw [if_pos empty, wp_pure_iff]
            exact fun _ => kept
        | stream stream =>
            rw [staged] at gives
            exact gives.elim
        | failed error =>
            rw [staged] at gives
            exact gives.elim
      · have written : plainStep cell.mode.append bytes (.writeAt handle offset data) =
            FlatFs.overwritten bytes (if cell.mode.append then bytes.length else offset) data :=
          if_neg empty
        rw [written]
        cases staged : cell.staging with
        | remote file =>
            dsimp only
            rw [if_neg empty, wp_throw_iff]
            exact fun _ => kept
        | buffer buffer =>
            rw [staged] at gives
            dsimp only
            rw [if_neg empty, wp_focus_iff]
            refine (writeBuffer_gives offset gives).mono ?_ ?_
            · intro count after reached given faithful
              exact ⟨rfl, rfl, given faithful⟩
            · intro error after reached given faithful
              exact ⟨rfl, rfl, given faithful⟩
        | stream stream =>
            rw [staged] at gives
            exact gives.elim
        | failed error =>
            rw [staged] at gives
            exact gives.elim

theorem truncateBuffer_gives (len : Nat) (gives : Gives seen bytes (.buffer buffer)) :
    (vfs.truncateBuffer key len).Wp buffer []
      (fun _ after reached => Faithful key seen reached →
        Gives seen (FlatFs.resized bytes len) (.buffer after))
      (fun _ after reached => Faithful key seen reached → Gives seen bytes (.buffer after)) := by
  unfold S3Vfs.truncateBuffer
  refine wp_bind_iff.mpr ((materialize_gives gives).mono ?_ (fun _ _ _ kept _ => kept))
  intro found after reached filled
  apply wp_lift_bind (fun _ _ faithful => (filled faithful).2)
  intro size fits
  obtain rfl := eq_of_usizeTryFrom (okOr_eq_ok fits)
  apply wp_lift_bind (fun _ _ faithful => (filled faithful).2)
  intro cut resized
  rw [wp_bind_iff, wp_get_iff, wp_set_iff]
  intro faithful
  obtain ⟨rfl, -⟩ := filled faithful
  unfold S3Vfs.resizeStaged at resized
  obtain ⟨_, -, same⟩ := Call.bind_eq_ok_iff.mp resized
  left
  exact congrArg some (Except.ok.inj same).symm

theorem truncateResolved_isolated (handle len : Nat)
    (isolated : Isolated key seen append bytes cell) :
    (vfs.truncateResolved len).Wp cell []
      (fun _ after reached => Faithful key seen reached →
        Isolated key seen append (plainStep append bytes (.truncate handle len)) after)
      (fun _ after reached => Faithful key seen reached →
        Isolated key seen append bytes after) := by
  obtain ⟨rfl, rfl, gives⟩ := isolated
  have kept : Isolated cell.key seen cell.mode.append bytes cell := ⟨rfl, rfl, gives⟩
  unfold S3Vfs.truncateResolved
  rw [wp_bind_iff, wp_get_iff, wp_bind_iff, wp_refuse_iff]
  split
  · exact fun _ => kept
  · rw [wp_bind_iff, wp_refuse_iff]
    split
    · exact fun _ => kept
    · cases staged : cell.staging with
      | remote file => exact wp_throw_iff.mpr fun _ => kept
      | buffer buffer =>
          rw [staged] at gives
          dsimp only
          rw [wp_focus_iff]
          refine (truncateBuffer_gives len gives).mono ?_ ?_
          · intro count after reached given faithful
            exact ⟨rfl, rfl, given faithful⟩
          · intro error after reached given faithful
            exact ⟨rfl, rfl, given faithful⟩
      | stream stream =>
          rw [staged] at gives
          exact gives.elim
      | failed error =>
          rw [staged] at gives
          exact gives.elim

end Cells

/-- The handle is in use with these bytes, or it is released. It is not handed out again. -/
structure Held (key : Text) (seen : Option StoredObject) (append : Bool) (handle : Nat)
    (bytes : Bytes) (state : State) : Prop where
  old : handle < state.nextHandle
  cells : ∀ cell, state.handles.get handle = some cell → Isolated key seen append bytes cell

theorem Held.of_eq {key : Text} {seen : Option StoredObject} {append : Bool} {handle : Nat}
    {bytes next : Bytes} {state : State} (held : Held key seen append handle bytes state)
    (same : next = bytes) : Held key seen append handle next state := by
  rw [same]
  exact held

section Tables
variable {vfs : S3Vfs} {key : Text} {seen : Option StoredObject} {append : Bool}
  {handle number : Nat} {bytes : Bytes} {state : State}

/-- A call on another handle leaves this one as it is. -/
theorem onHandle_other {α : Type} (task : S3Task HandleState α) (different : number ≠ handle)
    (held : Held key seen append handle bytes state) :
    (S3Vfs.onHandle number task).Wp state [] (fun _ after _ => Held key seen append handle bytes after)
      (fun _ after _ => Held key seen append handle bytes after) := by
  unfold S3Vfs.onHandle
  rw [wp_bind_iff, wp_get_iff]
  apply wp_lift_bind (fun _ _ => held)
  intro cell _
  rw [wp_focus_iff]
  have kept : ∀ after, Held key seen append handle bytes
      { state with handles := state.handles.insert number after } := by
    intro after
    refine ⟨held.old, ?_⟩
    intro found there
    rw [OrderedMap.get_insert, if_neg different.symm] at there
    exact held.cells found there
  intro events result after _
  cases result <;> exact kept after

theorem onRemoved_kept {α : Type} (task : S3Task HandleState α)
    (held : Held key seen append handle bytes state) :
    (S3Vfs.onRemoved number task).Wp state []
      (fun _ after _ => Held key seen append handle bytes after)
      (fun _ after _ => Held key seen append handle bytes after) := by
  unfold S3Vfs.onRemoved
  rw [wp_bind_iff, wp_get_iff]
  apply wp_lift_bind (fun _ _ => held)
  intro cell _
  rw [wp_focus_iff]
  have kept : Held key seen append handle bytes
      { state with handles := state.handles.erase number } := by
    refine ⟨held.old, ?_⟩
    intro found there
    rw [OrderedMap.get_erase] at there
    split at there
    · cases there
    · exact held.cells found there
  intro events result after _
  cases result <;> exact kept

/-- A call on the handle does what its task does to the cell. -/
theorem onHandle_own {α : Type} {task : S3Task HandleState α} {next : Bytes}
    {returns : α → Prop}
    (wp : ∀ cell, Isolated key seen append bytes cell → task.Wp cell []
      (fun value after reached => Faithful key seen reached →
        returns value ∧ Isolated key seen append next after)
      (fun _ after reached => Faithful key seen reached → Isolated key seen append bytes after))
    (held : Held key seen append handle bytes state) :
    (S3Vfs.onHandle handle task).Wp state []
      (fun value after reached => Faithful key seen reached →
        returns value ∧ Held key seen append handle next after)
      (fun _ after reached => Faithful key seen reached →
        Held key seen append handle bytes after) := by
  have stored : ∀ {bytes} after, Isolated key seen append bytes after →
      Held key seen append handle bytes
        { state with handles := state.handles.insert handle after } := by
    intro bytes after isolated
    refine ⟨held.old, ?_⟩
    intro found there
    rw [OrderedMap.get_insert, if_pos rfl] at there
    obtain rfl := Option.some.inj there
    exact isolated
  unfold S3Vfs.onHandle
  rw [wp_bind_iff, wp_get_iff]
  apply wp_lift_bind (fun _ _ _ => held)
  intro cell found
  rw [wp_focus_iff]
  refine (wp cell (held.cells cell (okOr_eq_ok found))).mono ?_ ?_
  · intro value after reached given faithful
    obtain ⟨returned, isolated⟩ := given faithful
    exact ⟨returned, stored after isolated⟩
  · intro error after reached given faithful
    exact stored after (given faithful)

/-- A call on a path leaves every handle as it is. -/
theorem perform_kept {α : Type} (task : Exchange α)
    (held : Held key seen append handle bytes state) :
    (perform task : S3Task State α).Wp state []
      (fun _ after _ => Held key seen append handle bytes after)
      (fun _ after _ => Held key seen append handle bytes after) := by
  rw [wp_perform_iff]
  intro events result after _
  cases result <;> exact held

/-- A later open takes a new number. -/
theorem open_kept (path : Text) (mode : OpenMode)
    (held : Held key seen append handle bytes state) :
    (vfs.open path mode).Wp state [] (fun _ after _ => Held key seen append handle bytes after)
      (fun _ after _ => Held key seen append handle bytes after) := by
  unfold S3Vfs.open
  have looked : (perform (vfs.openHandle path mode) : S3Task State HandleState).Wp state []
      (fun _ after _ => after = state)
      (fun _ after _ => Held key seen append handle bytes after) := by
    rw [wp_perform_iff]
    intro events result after _
    cases result with
    | ok cell => rfl
    | error error => exact held
  apply Wp.bind looked
  · intro cell after reached same
    obtain rfl := same
    unfold S3Vfs.insertHandle
    rw [wp_bind_iff, wp_get_iff]
    apply wp_lift_bind (fun _ _ => held)
    intro next fits
    obtain rfl := eq_of_checkedAdd (okOr_eq_ok fits)
    rw [wp_bind_iff, wp_set_iff, wp_pure_iff]
    refine ⟨Nat.lt_succ_of_lt held.old, ?_⟩
    intro found there
    rw [OrderedMap.get_insert, if_neg (Nat.ne_of_lt held.old)] at there
    exact held.cells found there

/-- Every call keeps what the handle reads, and a read on the handle returns it. -/
theorem call_held (call : VfsCall) (held : Held key seen append handle bytes state) :
    (vfs.call call).Wp state []
      (fun value after reached => Faithful key seen reached →
        ReadsBack handle bytes call (.ok value) ∧
          Held key seen append handle (ownStep handle append bytes call (.ok value)) after)
      (fun error after reached => Faithful key seen reached →
        ReadsBack handle bytes call (.error error) ∧
          Held key seen append handle (ownStep handle append bytes call (.error error)) after) := by
  have kept : ∀ {α : Type} {task : S3Task State α} (convert : α → Reply),
      (∀ offset bufLen, call ≠ .readAt handle offset bufLen) →
      (∀ value, ownStep handle append bytes call (.ok value) = bytes) →
      task.Wp state [] (fun _ after _ => Held key seen append handle bytes after)
        (fun _ after _ => Held key seen append handle bytes after) →
      (convert <$> task).Wp state []
        (fun value after reached => Faithful key seen reached →
          ReadsBack handle bytes call (.ok value) ∧
            Held key seen append handle (ownStep handle append bytes call (.ok value)) after)
        (fun error after reached => Faithful key seen reached →
          ReadsBack handle bytes call (.error error) ∧
            Held key seen append handle (ownStep handle append bytes call (.error error)) after) := by
    intro α task convert unread silent wp
    rw [wp_map_iff]
    refine wp.mono ?_ ?_
    · intro value after reached left _
      rw [silent]
      exact ⟨fun offset bufLen _ same => absurd same (unread offset bufLen), left⟩
    · intro error after reached left _
      exact ⟨nofun, left⟩
  cases call with
  | stat path => exact kept _ nofun (fun _ => rfl) (perform_kept _ held)
  | readdir path => exact kept _ nofun (fun _ => rfl) (perform_kept _ held)
  | mkdir path => exact kept _ nofun (fun _ => rfl) (perform_kept _ held)
  | rename source target => exact kept _ nofun (fun _ => rfl) (perform_kept _ held)
  | unlink path => exact kept _ nofun (fun _ => rfl) (perform_kept _ held)
  | rmdir path => exact kept _ nofun (fun _ => rfl) (perform_kept _ held)
  | «open» path mode => exact kept _ nofun (fun _ => rfl) (open_kept path mode held)
  | close number => exact kept _ nofun (fun _ => ite_self _) (onRemoved_kept _ held)
  | abort number => exact kept _ nofun (fun _ => ite_self _) (onRemoved_kept _ held)
  | readAt number offset bufLen =>
      by_cases own : number = handle
      · obtain rfl := own
        unfold S3Vfs.call S3Vfs.readAt
        rw [wp_map_iff]
        refine (onHandle_own (fun _ => readResolved_isolated offset bufLen) held).mono ?_ ?_
        · intro found after reached given faithful
          obtain ⟨rfl, left⟩ := given faithful
          refine ⟨?_, left.of_eq (if_pos rfl)⟩
          intro first count value same replied
          obtain ⟨-, rfl, rfl⟩ := VfsCall.readAt.inj same
          exact (Except.ok.inj replied).symm
        · intro error after reached given faithful
          exact ⟨nofun, given faithful⟩
      · apply kept
        · intro offset bufLen same
          exact own (VfsCall.readAt.inj same).1
        · exact fun _ => ite_self _
        · exact onHandle_other _ own held
  | writeAt number offset data =>
      by_cases own : number = handle
      · obtain rfl := own
        unfold S3Vfs.call S3Vfs.writeAt
        rw [wp_map_iff]
        refine (onHandle_own (fun _ isolated =>
          (writeResolved_isolated number offset data isolated).mono
            (fun _ _ _ given faithful => ⟨trivial, given faithful⟩)
            (fun _ _ _ given => given)) held).mono ?_ ?_
        · intro count after reached given faithful
          exact ⟨nofun, (given faithful).2.of_eq (if_pos rfl)⟩
        · intro error after reached given faithful
          exact ⟨nofun, given faithful⟩
      · apply kept _ nofun _ (onHandle_other _ own held)
        intro value
        exact if_neg fun same => own (Option.some.inj same)
  | truncate number len =>
      by_cases own : number = handle
      · obtain rfl := own
        unfold S3Vfs.call S3Vfs.truncate
        rw [wp_map_iff]
        refine (onHandle_own (fun _ isolated =>
          (truncateResolved_isolated number len isolated).mono
            (fun _ _ _ given faithful => ⟨trivial, given faithful⟩)
            (fun _ _ _ given => given)) held).mono ?_ ?_
        · intro _ after reached given faithful
          exact ⟨nofun, (given faithful).2.of_eq (if_pos rfl)⟩
        · intro error after reached given faithful
          exact ⟨nofun, given faithful⟩
      · apply kept _ nofun _ (onHandle_other _ own held)
        intro value
        exact if_neg fun same => own (Option.some.inj same)

/-- The handle answers every list of calls from its own bytes. -/
theorem calls_replay {calls : List VfsCall} {replies : List (VfsResult Reply)}
    {events : List S3Event} {after : State} (held : Held key seen append handle bytes state)
    (runs : (vfs.calls calls).Runs state events (.ok replies) after)
    (faithful : Faithful key seen events) : Replays handle append bytes calls replies := by
  induction calls generalizing bytes state events replies with
  | nil =>
      obtain ⟨-, same, -⟩ := runs_pure_iff.mp runs
      exact Except.ok.inj same
  | cons call rest ih =>
      unfold S3Vfs.calls at runs
      rcases runs_bind_iff.mp runs with ⟨error, -, impossible⟩ |
        ⟨first, second, reply, middle, rfl, tried, later⟩
      · cases impossible
      rcases runs_bind_iff.mp later with ⟨error, -, impossible⟩ |
        ⟨more, last, others, reached, rfl, continued, ended⟩
      · cases impossible
      obtain ⟨rfl, same, rfl⟩ := runs_pure_iff.mp ended
      obtain rfl := Except.ok.inj same
      obtain ⟨inner, ran, answered⟩ := runs_attempt_iff.mp tried
      obtain rfl := Except.ok.inj answered
      have early : Faithful key seen ([] ++ first) := by
        intro object origin request result member
        exact faithful object origin request result (List.mem_append_left _ member)
      have late : Faithful key seen more := by
        intro object origin request result member
        apply faithful object origin request result
        exact List.mem_append_right _ (List.mem_append_left _ member)
      cases reply with
      | ok value =>
          obtain ⟨reads, kept⟩ := (call_held call held).ok ran early
          exact ⟨_, others, rfl, reads, ih kept continued late⟩
      | error error =>
          obtain ⟨reads, kept⟩ := (call_held call held).error ran early
          exact ⟨_, others, rfl, reads, ih kept continued late⟩

end Tables

/-- An open that creates or truncates starts from nothing, and every other open starts from the
body of the object. -/
def startBody (mode : OpenMode) (found : Option StoredObject) : Bytes :=
  if mode.truncate then [] else (found.map StoredObject.body).getD []

/-- An open with read access stages the bytes that it starts from. -/
theorem openStaging_gives {mode : OpenMode} {found : Option StoredObject} {staging : Staging}
    (staged : S3Vfs.openStaging mode (found.map StoredObject.revision) = .ok staging)
    (valid : mode.validate = .ok ()) (reads : mode.read = true) :
    Gives found (startBody mode found) staging := by
  unfold S3Vfs.openStaging S3Vfs.writeStaging S3Vfs.readStaging at staged
  by_cases writes : mode.write = true
  · rw [if_pos writes] at staged
    cases found with
    | none =>
        simp only [Option.map_none, reads, if_true] at staged
        rw [Call.ite_error_eq_ok_iff] at staged
        obtain rfl := Except.ok.inj staged.2
        left
        simp [startBody]
    | some object =>
        simp only [Option.map_some, reads, not_true_eq_false, and_false, if_false] at staged
        rw [Call.ite_error_eq_ok_iff] at staged
        obtain ⟨-, staged⟩ := staged
        by_cases truncates : mode.truncate = true
        · rw [if_pos truncates] at staged
          obtain rfl := Except.ok.inj staged
          left
          simp [startBody, truncates]
        · rw [if_neg truncates] at staged
          obtain rfl := Except.ok.inj staged
          right
          refine ⟨rfl, object, rfl, rfl, ?_⟩
          simp [startBody, truncates]
  · have keeps : ¬ mode.truncate = true := by
      intro truncates
      simp [OpenMode.validate, reads, truncates, writes] at valid
    rw [if_neg writes] at staged
    cases found with
    | none =>
        simp only [Option.map_none] at staged
        rw [Call.ite_eq_ok_iff_of_error] at staged
        obtain rfl := Except.ok.inj staged.2
        left
        simp [startBody]
    | some object =>
        simp only [Option.map_some] at staged
        rw [Call.ite_error_eq_ok_iff] at staged
        obtain rfl := Except.ok.inj staged.2
        refine ⟨object, rfl, rfl, ?_⟩
        simp [startBody, keeps]

/-- An open that succeeds had a valid mode, and its number is not handed out again. -/
theorem open_valid {vfs : S3Vfs} (path : Text) (mode : OpenMode) (state : State) :
    (vfs.open path mode).Wp state []
      (fun handle after _ => mode.validate = .ok () ∧ handle < after.nextHandle)
      (fun _ _ _ => True) := by
  have checked : (vfs.openHandle path mode).Wp () [] (fun _ _ _ => mode.validate = .ok ())
      (fun _ _ _ => True) := by
    unfold S3Vfs.openHandle
    apply wp_lift_bind (fun _ _ => trivial)
    intro _ valid events result after _
    cases result with
    | ok cell => exact valid
    | error error => trivial
  unfold S3Vfs.open
  rw [wp_bind_iff, wp_perform_iff]
  refine checked.mono ?_ (fun _ _ _ _ => trivial)
  intro cell _ reached valid
  unfold S3Vfs.insertHandle
  rw [wp_bind_iff, wp_get_iff]
  apply wp_lift_bind (fun _ _ => trivial)
  intro next fits
  obtain rfl := eq_of_checkedAdd (okOr_eq_ok fits)
  rw [wp_bind_iff, wp_set_iff, wp_pure_iff]
  exact ⟨valid, Nat.lt_succ_self _⟩

/-- A read of the revision that was seen returns bytes of its body. -/
theorem faithful_of_trace {service : Service} {fault : RemoteError → Prop} {α : Type}
    {first last : Pool Request Response α BucketState} {steps : List ClientStep} {number : Nat}
    {key : Text} {seen : Option StoredObject}
    (trace : Pool.Trace (Serves service fault) (Alters service) first steps last)
    (recalls : ∀ object, seen = some object → Recalls service key object first.server) :
    Faithful key seen (steps.filterMap (Pool.eventOf number)) := by
  intro object origin request result member named tagged
  obtain ⟨events, later, split⟩ := List.append_of_mem member
  obtain ⟨before, after, middle, next, -, -, -, left, served, -⟩ :=
    Pool.exists_step_of_event trace split
  obtain ⟨found, present, matching, read⟩ := Serves.get_ok served
  rw [named] at present
  obtain rfl : found = object :=
    ((recalls object origin).trace left).2 found present (matching.trans tagged)
  exact read

/-- A handle with read access reads what its open saw with its own changes. The open may be in any
trace, and the other calls of its caller and of every other client do not matter. -/
theorem handle_reads_own_bytes (service : Service)
    (programs : Nat → Program Request Response (VfsResult (List (VfsResult Reply)) × State))
    (bucket : BucketState) (minted : Minted service bucket) {steps : List ClientStep}
    {last : Pool Request Response (VfsResult (List (VfsResult Reply)) × State) BucketState}
    (trace : Pool.Trace (Serves service (· ≠ .missing)) (Alters service)
      { server := bucket, clients := programs } steps last)
    {number : Nat} {vfs : S3Vfs} {before after : State} {path : Text} {mode : OpenMode}
    {calls : List VfsCall} {handle : Nat} {replies : List (VfsResult Reply)}
    (program : programs number = (vfs.calls (.open path mode :: calls)).exec before)
    (finished : last.clients number = .pure (.ok (.ok (.handle handle) :: replies), after))
    (reads : mode.read = true) :
    ∃ components opening later observed, normalizePath path = .ok components ∧
      steps = opening ++ later ∧
      (∃ middle, (vfs.call (.open path mode)).Runs before
        (opening.filterMap (Pool.eventOf number)) (.ok (.handle handle)) middle) ∧
      observedAt number (vfs.key components) opening = some observed ∧
      Replays handle mode.append
        (startBody mode (observed.objects.get (vfs.key components))) calls replies := by
  have ran : (vfs.calls (.open path mode :: calls)).Runs before
      (steps.filterMap (Pool.eventOf number)) (.ok (.ok (.handle handle) :: replies)) after := by
    have runs : (programs number).Runs _ _ := trace.runs finished
    rw [program] at runs
    exact runs
  unfold S3Vfs.calls at ran
  rcases runs_bind_iff.mp ran with ⟨error, -, impossible⟩ |
    ⟨first, second, reply, middle, whole, tried, later⟩
  · cases impossible
  rcases runs_bind_iff.mp later with ⟨error, -, impossible⟩ |
    ⟨more, rest, others, reached, rfl, continued, ended⟩
  · cases impossible
  obtain ⟨rfl, same, rfl⟩ := runs_pure_iff.mp ended
  obtain ⟨rfl, rfl⟩ := List.cons.inj (Except.ok.inj same)
  obtain ⟨inner, opened, answered⟩ := runs_attempt_iff.mp tried
  obtain rfl := Except.ok.inj answered
  obtain ⟨result, openRan, handed⟩ := runs_map_iff.mp opened
  obtain rfl : result = .ok handle := by
    cases result with
    | error error => cases handed
    | ok found => rw [Reply.handle.inj (Except.ok.inj handed)]
  obtain ⟨-, components, existing, staging, resolved, looked, staged, -, stored⟩ :=
    (open_wp path mode before).ok openRan
  obtain ⟨valid, old⟩ := (open_valid path mode before).ok openRan
  obtain ⟨probes, rfl⟩ := List.getLast?_eq_some_iff.mp looked
  rw [List.append_nil, List.append_assoc, List.singleton_append] at whole
  obtain ⟨early, rest, observed, next, rfl, probed, worked, left, served, right⟩ :=
    Pool.exists_step_of_event trace whole
  have silent : ∀ event ∈ ([] : List ClientStep).filterMap (Pool.eventOf number),
      ¬ event.1.IsProbe := nofun
  have looks : observedAt number (vfs.key components) (early ++ [(observed.server,
      .client number (lookedUp vfs (vfs.key components) existing))]) = some observed.server :=
    observedAt_eq silent
  refine ⟨components, _, rest, observed.server, resolved, List.append_cons .., ⟨middle, ?_⟩,
    looks, ?_⟩
  · rw [List.filterMap_append, probed, List.filterMap_cons_some (Pool.eventOf_eq_some_iff.mpr rfl)]
    exact opened
  · have saw : existing =
        (observed.server.objects.get (vfs.key components)).map StoredObject.revision := by
      cases existing with
      | none => rw [served.head_missing, Option.map_none]
      | some file =>
          obtain ⟨object, present, same⟩ := served.head_ok
          rw [present, same]
          rfl
    rw [saw] at staged
    have held : Held (vfs.key components) (observed.server.objects.get (vfs.key components))
        mode.append handle
        (startBody mode (observed.server.objects.get (vfs.key components))) middle := by
      refine ⟨old, ?_⟩
      intro cell found
      rw [stored, OrderedMap.get_insert, if_pos rfl] at found
      obtain rfl := Option.some.inj found
      exact ⟨rfl, rfl, openStaging_gives staged valid reads⟩
    apply calls_replay held continued
    rw [← worked]
    apply faithful_of_trace right
    intro object present
    exact ((minted.trace left).recalls present).evolves served.evolves

/-- The first client reads a file in two calls, and the others replace the file. -/
def readerAndWriters (number : Nat) :
    Program Request Response (VfsResult (List (VfsResult Reply)) × State) :=
  (S3Vfs.sample.calls (if number = 0 then
      [.open "/f".toList { read := true }, .readAt 1 0 1, .readAt 1 1 1]
    else
      [.open "/f".toList { write := true, create := true, truncate := true },
        .writeAt 1 0 [9, 9], .close 1])).exec State.new

def twoBytes : BucketState := BucketState.empty.store Service.counting ['f'] [7, 8]

/-- The file is replaced between the two reads. -/
def replacedBetweenReads : List ClientStep ×
    Pool Request Response (VfsResult (List (VfsResult Reply)) × State) BucketState :=
  Pool.schedule (BucketState.respond Service.counting) [0, 0, 0, 1, 1, 1, 0]
    { server := twoBytes, clients := readerAndWriters }

theorem handle_reads_own_bytes_replaced : ∃ opening later observed,
    replacedBetweenReads.1 = opening ++ later ∧ observedAt 0 ['f'] opening = some observed ∧
      (replacedBetweenReads.2.server.objects.get ['f']).map StoredObject.body = some [9, 9] ∧
      Replays 1 false (startBody { read := true } (observed.objects.get ['f']))
        [.readAt 1 0 1, .readAt 1 1 1] [.ok (.data [7]), .error Errno.EIO] := by
  have taken : Pool.schedule (BucketState.respond Service.counting) [0, 0, 0, 1, 1, 1, 0]
      { server := twoBytes, clients := readerAndWriters } =
      (replacedBetweenReads.1, replacedBetweenReads.2) := rfl
  have trace : Pool.Trace (Serves Service.counting (· ≠ .missing)) (Alters Service.counting)
      { server := twoBytes, clients := readerAndWriters } replacedBetweenReads.1
      replacedBetweenReads.2 := Pool.trace_schedule counting_answers taken
  have empty : Minted Service.counting .empty := by
    intro key object found
    cases found
  have finished : (replacedBetweenReads.2.clients 0).value?.map Prod.fst =
      some (.ok [.ok (.handle 1), .ok (.data [7]), .error Errno.EIO]) := by decide +kernel
  have replaced : (replacedBetweenReads.2.server.objects.get ['f']).map StoredObject.body =
      some [9, 9] := by decide +kernel
  obtain ⟨⟨result, after⟩, ended, same⟩ := Option.map_eq_some_iff.mp finished
  obtain rfl : result = .ok [.ok (.handle 1), .ok (.data [7]), .error Errno.EIO] := same
  have program : readerAndWriters 0 = (S3Vfs.sample.calls (.open "/f".toList { read := true } ::
      [.readAt 1 0 1, .readAt 1 1 1])).exec State.new := rfl
  obtain ⟨components, opening, later, observed, resolved, split, -, looked, replays⟩ :=
    handle_reads_own_bytes Service.counting readerAndWriters twoBytes
      (empty.evolves (.inr (.inl ⟨_, _, rfl, rfl⟩))) trace program
      (Program.eq_pure_of_value? ended) rfl
  obtain rfl : [['f']] = components := by
    have parsed : normalizePath "/f".toList = .ok [['f']] := by decide
    exact Except.ok.inj (parsed.symm.trans resolved)
  exact ⟨opening, later, observed, split, looked, replaced, replays⟩

end TinySandbox.S3
