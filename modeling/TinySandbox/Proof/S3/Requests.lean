/-
This file lists the requests that each operation of the S3 backend can send.
An operation on a handle names only the key of the handle.
-/

import TinySandbox.Construction.S3.Vfs
import TinySandbox.Library.Guarded

namespace TinySandbox.S3
open Library Library.Task Mem

/-- The keys and the prefix that a request names. -/
def Request.keys : Request → List Text
  | .head _ key => [key]
  | .list request => [request.keyPrefix]
  | .get request => [request.key]
  | .put _ key _ _ => [key]
  | .delete _ key _ => [key]
  | .copy _ sourceKey key _ => [sourceKey, key]
  | .createUpload _ key => [key]
  | .uploadPart _ key _ _ _ => [key]
  | .completeUpload _ key _ _ _ => [key]
  | .abortUpload _ key _ => [key]

section Sending
variable {σ : Type} {allowed : Request → Prop}

theorem sends_sendWith {convert : RemoteError → Errno} {request : Request}
    (permitted : allowed request) :
    Sends allowed (sendWith convert request : S3Task σ (Payload request)) := by
  unfold sendWith
  exact (sends_request permitted).bind fun _ => sends_lift _

theorem sends_send {request : Request} (permitted : allowed request) :
    Sends allowed (send request : S3Task σ (Payload request)) :=
  sends_sendWith permitted

/-- The response to a request that is sent can be anything. -/
theorem guards_send_iff {request : Request} {state : σ} {returns : Payload request → σ → Prop}
    {fails : Errno → σ → Prop} :
    Guards allowed (send request : S3Task σ (Payload request)) state returns fails ↔
      allowed request ∧ ∀ response, Ends returns fails state
        (mapErr RemoteError.intoVfs response) := by
  unfold send sendWith
  rw [guards_bind_iff, guards_request_iff]
  simp only [guards_lift_iff]

end Sending

section Handles
variable {vfs : S3Vfs} {allowed : Request → Prop} {key : Text}

theorem putObject_sends (named : ∀ request, request.keys = [key] → allowed request) (body : Bytes)
    (precondition : Precondition) : Sends allowed (vfs.putObject key body precondition) :=
  sends_sendWith (named _ rfl)

theorem getWhole_sends (named : ∀ request, request.keys = [key] → allowed request)
    (file : RemoteFile) : Sends allowed (vfs.getWhole key file) := by
  apply sends_ite
  · intro _
    exact sends_pure _
  · intro _
    apply (sends_send (named _ rfl)).bind
    intro response
    exact (sends_lift _).bind fun _ => sends_lift _

theorem readRemote_sends
    (reads : ∀ request : GetRequest, request.key = key → allowed (.get request))
    (file : RemoteFile) (offset bufLen : Nat) :
    Sends allowed (vfs.readRemote key file offset bufLen) := by
  apply sends_ite
  · intro _
    exact sends_pure _
  · intro _
    apply (sends_lift _).bind
    intro past
    apply (sends_send (reads _ rfl)).bind
    intro response
    exact (sends_lift _).bind fun _ => sends_lift _

theorem sourceBytes_sends (named : ∀ request, request.keys = [key] → allowed request)
    (source : Option RemoteFile) : Sends allowed (vfs.sourceBytes key source) := by
  cases source with
  | none => exact sends_pure _
  | some file => exact (sends_lift _).bind fun _ => getWhole_sends named file

theorem materialize_sends (named : ∀ request, request.keys = [key] → allowed request) :
    Sends allowed (vfs.materialize key) := by
  apply sends_get.bind
  intro buffer
  cases buffer.bytes with
  | some bytes => exact sends_pure _
  | none =>
      apply (sourceBytes_sends named buffer.source).perform.bind
      intro bytes
      exact (sends_set _).bind fun _ => sends_pure _

theorem openUpload_sends (named : ∀ request, request.keys = [key] → allowed request) :
    Sends allowed (vfs.openUpload key) := by
  apply sends_get.bind
  intro stream
  cases stream.upload with
  | some upload => exact sends_pure _
  | none =>
      apply (sends_send (named _ rfl)).bind
      intro id
      exact (sends_set _).bind fun _ => sends_pure _

theorem pushPart_sends (part : UploadedPart) (len : Nat) :
    Sends allowed (S3Vfs.pushPart part len) := by
  apply sends_get.bind
  intro stream
  cases stream.upload with
  | none => exact sends_throw _
  | some upload =>
      apply (sends_set _).bind
      intro _
      exact (sends_lift _).bind fun _ => sends_set _

theorem flushPart_sends (named : ∀ request, request.keys = [key] → allowed request)
    (uploaded partSize : Nat) : Sends allowed (vfs.flushPart key uploaded partSize) := by
  apply (openUpload_sends named).bind
  intro id
  apply sends_get.bind
  intro stream
  apply (sends_set _).bind
  intro _
  apply (sends_lift _).bind
  intro partNumber
  apply (sends_send (named _ rfl)).bind
  intro etag
  exact pushPart_sends _ _

theorem flushLoop_sends (named : ∀ request, request.keys = [key] → allowed request) (fuel : Nat) :
    Sends allowed (vfs.flushLoop key fuel) := by
  induction fuel with
  | zero => exact sends_diverge
  | succ fuel ih =>
      apply sends_get.bind
      intro stream
      apply sends_ite
      · intro _
        exact sends_pure _
      · intro _
        exact (flushPart_sends named _ _).bind fun _ => ih

theorem flushParts_sends (named : ∀ request, request.keys = [key] → allowed request) :
    Sends allowed (vfs.flushParts key) :=
  sends_get.bind fun _ => flushLoop_sends named _

theorem fillLoop_sends (named : ∀ request, request.keys = [key] → allowed request)
    (target fuel : Nat) : Sends allowed (vfs.fillLoop key target fuel) := by
  induction fuel with
  | zero => exact sends_diverge
  | succ fuel ih =>
      apply sends_get.bind
      intro stream
      apply (sends_lift _).bind
      intro finish
      apply sends_ite
      · intro _
        exact sends_pure _
      · intro _
        apply (sends_set _).bind
        intro _
        exact (flushParts_sends named).bind fun _ => ih

theorem writeTail_sends (target : Nat) (data : Bytes) :
    Sends allowed (S3Vfs.writeTail target data) := by
  apply sends_get.bind
  intro stream
  apply (sends_lift _).bind
  intro start
  exact (sends_lift _).bind fun _ => sends_set _

theorem writeStream_sends (named : ∀ request, request.keys = [key] → allowed request)
    (target : Nat) (data : Bytes) : Sends allowed (vfs.writeStream key target data) := by
  apply (fillLoop_sends named _ _).bind
  intro _
  apply (writeTail_sends target data).bind
  intro _
  exact (flushParts_sends named).bind fun _ => sends_pure _

theorem abortStream_sends (named : ∀ request, request.keys = [key] → allowed request)
    (stream : Stream) : Sends allowed (vfs.abortStream key stream) := by
  unfold S3Vfs.abortStream
  cases stream.upload with
  | none => exact sends_pure _
  | some upload => exact (sends_request (named _ rfl)).bind fun _ => sends_pure _

theorem lastPart_sends (named : ∀ request, request.keys = [key] → allowed request)
    (upload : Upload) : Sends allowed (vfs.lastPart key upload) := by
  apply sends_get.bind
  intro stream
  apply sends_ite
  · intro _
    apply (sends_lift _).bind
    intro partNumber
    apply (sends_set _).bind
    intro _
    exact (sends_send (named _ rfl)).bind fun _ => sends_pure _
  · intro _
    exact sends_pure _

theorem finishStream_sends (named : ∀ request, request.keys = [key] → allowed request) :
    Sends allowed (vfs.finishStream key) := by
  apply sends_get.bind
  intro stream
  cases stream.upload with
  | none => exact (sends_set _).bind fun _ => (putObject_sends named _ _).perform
  | some upload => exact (lastPart_sends named upload).bind fun _ => sends_sendWith (named _ rfl)

theorem commitStream_sends (named : ∀ request, request.keys = [key] → allowed request) :
    Sends allowed (vfs.commitStream key) := by
  apply (finishStream_sends named).attempt.bind
  intro result
  cases result with
  | ok value => exact sends_pure _
  | error error =>
      apply sends_get.bind
      intro stream
      exact (abortStream_sends named stream).perform.bind fun _ => sends_throw _

theorem commitBuffer_sends (named : ∀ request, request.keys = [key] → allowed request) :
    Sends allowed (vfs.commitBuffer key) := by
  apply sends_get.bind
  intro buffer
  apply sends_ite
  · intro _
    exact sends_pure _
  · intro _
    exact (sends_set _).bind fun _ => (putObject_sends named _ _).perform

theorem readBuffer_sends (named : ∀ request, request.keys = [key] → allowed request)
    (offset bufLen : Nat) : Sends allowed (vfs.readBuffer key offset bufLen) := by
  apply (materialize_sends named).bind
  intro bytes
  apply (sends_lift _).bind
  intro start
  exact sends_ite (fun _ => sends_pure _) (fun _ => sends_pure _)

theorem writeBuffer_sends (named : ∀ request, request.keys = [key] → allowed request)
    (append : Bool) (offset : Nat) (data : Bytes) :
    Sends allowed (vfs.writeBuffer key append offset data) := by
  apply (materialize_sends named).bind
  intro bytes
  apply (sends_lift _).bind
  intro start
  apply (sends_lift _).bind
  intro written
  apply sends_get.bind
  intro buffer
  exact (sends_set _).bind fun _ => sends_pure _

theorem truncateBuffer_sends (named : ∀ request, request.keys = [key] → allowed request)
    (len : Nat) : Sends allowed (vfs.truncateBuffer key len) := by
  apply (materialize_sends named).bind
  intro bytes
  apply (sends_lift _).bind
  intro kept
  apply (sends_lift _).bind
  intro cut
  exact sends_get.bind fun _ => sends_set _

/-- The handle still names the key. -/
def KeepsKey (key : Text) (cell : HandleState) : Prop := cell.key = key

variable {cell : HandleState}

theorem readResolved_guards
    (named : ∀ request, request.keys = [cell.key] → allowed request) (offset bufLen : Nat) :
    Guards allowed (vfs.readResolved offset bufLen) cell (fun _ => KeepsKey cell.key)
      (fun _ => KeepsKey cell.key) := by
  have here : KeepsKey cell.key cell := rfl
  unfold S3Vfs.readResolved
  rw [guards_bind_iff, guards_get_iff]
  refine guards_refuse_bind (fun _ => here) ?_
  intro _
  refine guards_refuse_bind (fun _ => here) ?_
  intro _
  cases cell.staging with
  | remote file =>
      apply (readRemote_sends _ file offset bufLen).perform_holds here
      intro request same
      exact named _ (congrArg (fun key => [key]) same)
  | buffer buffer => exact (readBuffer_sends named offset bufLen).focus_holds buffer fun _ => rfl
  | stream stream => exact rfl
  | failed error => exact rfl

theorem failStream_guards
    (named : ∀ request, request.keys = [cell.key] → allowed request) (error : Errno) :
    Guards allowed (vfs.failStream error) cell (fun _ => KeepsKey cell.key)
      (fun _ => KeepsKey cell.key) := by
  unfold S3Vfs.failStream
  rw [guards_bind_iff, guards_get_iff, guards_bind_iff, guards_set_iff]
  cases cell.staging with
  | stream stream => exact (abortStream_sends named stream).perform_holds rfl
  | remote file => exact rfl
  | buffer buffer => exact rfl
  | failed error => exact rfl

theorem onStream_guards {α : Type}
    (named : ∀ request, request.keys = [cell.key] → allowed request) (stream : Stream)
    {task : S3Task Stream α} (sends : Sends allowed task) :
    Guards allowed (vfs.onStream stream task) cell (fun _ => KeepsKey cell.key)
      (fun _ => KeepsKey cell.key) := by
  unfold S3Vfs.onStream
  rw [guards_bind_iff, guards_get_iff, guards_bind_iff, guards_attempt_iff]
  have stored : ∀ left, KeepsKey cell.key { cell with staging := .stream left } := fun _ => rfl
  apply (sends.focus_holds stream stored).mono
  · intro value after kept
    exact kept
  · intro error after kept
    have reached : ∀ request : Request, request.keys = [after.key] → allowed request := by
      intro request names
      exact named request (names.trans (congrArg (fun key => [key]) kept))
    apply Guards.bind ((failStream_guards reached error).mono (fun _ _ same => same.trans kept)
      (fun _ _ same => same.trans kept))
    intro _ final same
    exact same

theorem writeResolved_guards
    (named : ∀ request, request.keys = [cell.key] → allowed request) (offset : Nat)
    (data : Bytes) :
    Guards allowed (vfs.writeResolved offset data) cell (fun _ => KeepsKey cell.key)
      (fun _ => KeepsKey cell.key) := by
  have here : KeepsKey cell.key cell := rfl
  unfold S3Vfs.writeResolved
  rw [guards_bind_iff, guards_get_iff]
  refine guards_refuse_bind (fun _ => here) ?_
  intro _
  refine guards_refuse_bind (fun _ => here) ?_
  intro _
  cases cell.staging with
  | failed error => exact rfl
  | remote file =>
      change Guards allowed (if data = [] then pure 0 else throw Errno.EBADF) _ _ _
      split <;> exact rfl
  | buffer buffer =>
      change Guards allowed (if data = [] then pure 0 else focus buffer _ _) _ _ _
      split
      · exact rfl
      · exact (writeBuffer_sends named _ offset data).focus_holds buffer fun _ => rfl
  | stream stream =>
      change Guards allowed (if data = [] then pure 0 else _) _ _ _
      split
      · exact rfl
      · refine guards_lift_bind (fun _ _ => here) ?_
        intro target _
        exact onStream_guards named stream (writeStream_sends named target data)

theorem truncateResolved_guards
    (named : ∀ request, request.keys = [cell.key] → allowed request) (len : Nat) :
    Guards allowed (vfs.truncateResolved len) cell (fun _ => KeepsKey cell.key)
      (fun _ => KeepsKey cell.key) := by
  have here : KeepsKey cell.key cell := rfl
  unfold S3Vfs.truncateResolved
  rw [guards_bind_iff, guards_get_iff]
  refine guards_refuse_bind (fun _ => here) ?_
  intro _
  refine guards_refuse_bind (fun _ => here) ?_
  intro _
  cases cell.staging with
  | failed error => exact rfl
  | remote file => exact rfl
  | buffer buffer => exact (truncateBuffer_sends named len).focus_holds buffer fun _ => rfl
  | stream stream =>
      refine guards_refuse_bind (fun _ => here) ?_
      intro _
      refine guards_lift_bind (fun _ _ => here) ?_
      intro finish _
      split
      · exact onStream_guards named stream (fillLoop_sends named _ _)
      · refine guards_lift_bind (fun _ _ => here) ?_
        intro cut _
        exact rfl

theorem closeResolved_sends
    (named : ∀ request, request.keys = [cell.key] → allowed request) :
    Guards allowed vfs.closeResolved cell (fun _ _ => True) (fun _ _ => True) := by
  unfold S3Vfs.closeResolved S3Vfs.commit
  rw [guards_bind_iff, guards_get_iff, guards_bind_iff, guards_set_iff, guards_bind_iff,
    guards_get_iff]
  cases cell.staging with
  | failed error => exact trivial
  | remote file => exact trivial
  | buffer buffer => exact (commitBuffer_sends named).focus_holds buffer fun _ => trivial
  | stream stream => exact (commitStream_sends named).focus_holds stream fun _ => trivial

theorem abortResolved_sends
    (named : ∀ request, request.keys = [cell.key] → allowed request) :
    Guards allowed vfs.abortResolved cell (fun _ _ => True) (fun _ _ => True) := by
  unfold S3Vfs.abortResolved
  rw [guards_bind_iff, guards_get_iff, guards_bind_iff, guards_set_iff]
  cases cell.staging with
  | failed error => exact trivial
  | remote file => exact trivial
  | buffer buffer => exact trivial
  | stream stream =>
      dsimp only
      cases stream.upload with
      | none => exact trivial
      | some upload => exact sends_send (named _ rfl) _

theorem dropResolved_sends
    (named : ∀ request, request.keys = [cell.key] → allowed request) :
    Guards allowed vfs.dropResolved cell (fun _ _ => True) (fun _ _ => True) := by
  unfold S3Vfs.dropResolved
  rw [guards_bind_iff, guards_get_iff]
  cases cell.staging with
  | failed error => exact trivial
  | remote file => exact trivial
  | buffer buffer => exact trivial
  | stream stream => exact (abortStream_sends named stream).perform _

end Handles

section Lifetimes
variable {vfs : S3Vfs} {allowed : Request → Prop} {holds : HandleState → Prop}

/-- Every handle in the table is as described. -/
def AllHandles (holds : HandleState → Prop) (state : State) : Prop :=
  ∀ handle cell, state.handles.get handle = some cell → holds cell

theorem onHandle_guards {α : Type} (handle : Nat) {task : S3Task HandleState α} {state : State}
    (all : AllHandles holds state)
    (body : ∀ cell, holds cell → Guards allowed task cell (fun _ => holds) (fun _ => holds)) :
    Guards allowed (S3Vfs.onHandle handle task) state (fun _ => AllHandles holds)
      (fun _ => AllHandles holds) := by
  unfold S3Vfs.onHandle
  rw [guards_bind_iff, guards_get_iff]
  refine guards_lift_bind (fun _ _ => all) ?_
  intro cell found
  have present : state.handles.get handle = some cell := by
    cases stored : state.handles.get handle with
    | none => simp [stored] at found
    | some other => simpa [stored] using found
  have stored : ∀ left, holds left →
      AllHandles holds { state with handles := state.handles.insert handle left } := by
    intro left good other found there
    simp only [OrderedMap.get_insert] at there
    split at there
    · exact Option.some.inj there ▸ good
    · exact all other found there
  rw [guards_focus_iff]
  exact (body cell (all handle cell present)).mono (fun _ left good => stored left good)
    (fun _ left good => stored left good)

theorem onRemoved_guards {α : Type} (handle : Nat) {task : S3Task HandleState α} {state : State}
    (all : AllHandles holds state)
    (body : ∀ cell, holds cell → Guards allowed task cell (fun _ _ => True) (fun _ _ => True)) :
    Guards allowed (S3Vfs.onRemoved handle task) state (fun _ => AllHandles holds)
      (fun _ => AllHandles holds) := by
  unfold S3Vfs.onRemoved
  rw [guards_bind_iff, guards_get_iff]
  refine guards_lift_bind (fun _ _ => all) ?_
  intro cell found
  have present : state.handles.get handle = some cell := by
    cases stored : state.handles.get handle with
    | none => simp [stored] at found
    | some other => simpa [stored] using found
  have erased : AllHandles holds { state with handles := state.handles.erase handle } := by
    intro other found there
    simp only [OrderedMap.get_erase] at there
    split at there
    · cases there
    · exact all other found there
  rw [guards_focus_iff]
  exact (body cell (all handle cell present)).mono (fun _ _ _ => erased) (fun _ _ _ => erased)

theorem open_guards (path : Text) (mode : OpenMode) {state : State} (all : AllHandles holds state)
    (opens : Guards allowed (vfs.openHandle path mode) () (fun cell _ => holds cell)
      (fun _ _ => True)) :
    Guards allowed (vfs.open path mode) state (fun _ => AllHandles holds)
      (fun _ => AllHandles holds) := by
  unfold S3Vfs.open S3Vfs.insertHandle
  rw [guards_bind_iff, guards_perform_iff]
  apply opens.mono
  · intro cell _ good
    rw [guards_bind_iff, guards_get_iff]
    refine guards_lift_bind (fun _ _ => all) ?_
    intro next _ other found there
    simp only [OrderedMap.get_insert] at there
    split at there
    · exact Option.some.inj there ▸ good
    · exact all other found there
  · intro _ _ _
    exact all

theorem dropHandles_sends (entries : List (Nat × HandleState))
    (body : ∀ entry ∈ entries,
      Guards allowed vfs.dropResolved entry.2 (fun _ _ => True) (fun _ _ => True)) :
    Sends allowed (vfs.dropHandles entries) := by
  induction entries with
  | nil => exact sends_pure _
  | cons entry rest ih =>
      rw [List.forall_mem_cons] at body
      apply Sends.bind
      · intro state
        exact guards_focus_iff.mpr body.1
      · intro _
        exact ih body.2

/-- What every call keeps and allows, a whole lifetime keeps and allows. -/
theorem lifetime_guards (holds : HandleState → Prop) (calls : List VfsCall) {state : State}
    (all : AllHandles holds state)
    (step : ∀ call ∈ calls, ∀ state, AllHandles holds state →
      Guards allowed (vfs.call call) state (fun _ => AllHandles holds) (fun _ => AllHandles holds))
    (drops : ∀ cell, holds cell →
      Guards allowed vfs.dropResolved cell (fun _ _ => True) (fun _ _ => True)) :
    Guards allowed (vfs.lifetime calls) state (fun _ _ => True) (fun _ _ => True) := by
  induction calls generalizing state with
  | nil =>
      unfold S3Vfs.lifetime S3Vfs.drop
      rw [guards_bind_iff, guards_get_iff, guards_bind_iff, guards_set_iff]
      apply (dropHandles_sends _ _).perform_holds trivial
      intro entry member
      exact drops entry.2 (all entry.1 entry.2 ((state.handles.mem_iff_get _ _).mp member))
  | cons call rest ih =>
      rw [List.forall_mem_cons] at step
      unfold S3Vfs.lifetime
      rw [guards_bind_iff, guards_attempt_iff]
      apply (step.1 state all).mono
      · intro _ after kept
        exact ih kept step.2
      · intro _ after kept
        exact ih kept step.2

end Lifetimes

section Paths
variable {vfs : S3Vfs} {allowed : Request → Prop}

/-- The requests that look at a path are allowed. -/
structure AllowsProbes (vfs : S3Vfs) (allowed : Request → Prop) : Prop where
  head : ∀ components, components ≠ [] → allowed (.head vfs.bucket (vfs.key components))
  list : ∀ components delimiter continuation maxKeys, allowed
    (.list (vfs.listRequest (vfs.directoryPrefix components) delimiter continuation maxKeys))

theorem foldl_exists {ι : Type} {add : Scan → ι → Scan}
    (keeps : ∀ scan item, scan.exists = true → (add scan item).exists = true) (items : List ι)
    {scan : Scan} (known : scan.exists = true) : (items.foldl add scan).exists = true := by
  induction items generalizing scan with
  | nil => exact known
  | cons item rest ih => exact ih (keeps scan item known)

/-- A scan never forgets that the directory exists. -/
theorem addPage_exists (keyPrefix : Text) {scan : Scan} (known : scan.exists = true)
    (page : ListResult) : (scan.addPage keyPrefix page).exists = true := by
  apply foldl_exists
  · intro scan text known
    unfold Scan.addCommonPrefix
    split
    · exact known
    · split_ifs <;> simp
  · apply foldl_exists _ _ known
    intro scan object known
    unfold Scan.addObject
    split
    · exact known
    · split_ifs <;> simp [known]

theorem scanLoop_guards (probes : AllowsProbes vfs allowed) (components : Path) (probe : Bool)
    (fuel : Nat) (scan : Scan) :
    Guards allowed (vfs.scanLoop (vfs.directoryPrefix components) probe fuel scan) ()
      (fun listing _ => scan.exists = true → listing.exists = true) (fun _ _ => True) := by
  induction fuel generalizing scan with
  | zero => exact guards_diverge
  | succ fuel ih =>
      unfold S3Vfs.scanLoop
      rw [guards_bind_iff, guards_send_iff]
      apply And.intro (probes.list ..)
      intro response
      cases response with
      | error error => exact trivial
      | ok page =>
          have known := fun known : scan.exists = true =>
            addPage_exists (vfs.directoryPrefix components) known page
          rw [mapErr_ok, ends_ok]
          split
          · exact known
          · apply guards_lift_bind (fun _ _ => trivial)
            intro next _
            split
            · exact known
            · apply (ih _).mono
              · intro listing _ reached start
                exact reached (known start)
              · intro _ _ _
                exact trivial

theorem scanDirectory_guards (probes : AllowsProbes vfs allowed) (components : Path)
    (probe : Bool) :
    Guards allowed (vfs.scanDirectory components probe) ()
      (fun listing _ => components = [] → listing.exists = true) (fun _ _ => True) := by
  unfold S3Vfs.scanDirectory
  apply (scanLoop_guards probes components probe _ _).mono
  · intro listing _ reached root
    exact reached (decide_eq_true root)
  · intro _ _ _
    exact trivial

theorem head_sends (probes : AllowsProbes vfs allowed) {components : Path}
    (below : components ≠ []) : Sends allowed (vfs.head components) := by
  apply (sends_request (probes.head components below)).bind
  intro response
  cases response with
  | ok file => exact sends_pure _
  | error error =>
      cases error with
      | missing => exact sends_pure _
      | denied => exact sends_throw _
      | precondition => exact sends_throw _
      | io => exact sends_throw _

theorem kindAt_sends (probes : AllowsProbes vfs allowed) (components : Path) :
    Sends allowed (vfs.kindAt components) := by
  apply sends_ite
  · intro _
    exact sends_pure _
  · intro below
    apply Sends.bind
    · intro _
      apply (scanDirectory_guards probes components true).mono
      · intro _ _ _
        exact trivial
      · intro _ _ _
        exact trivial
    · intro listing
      apply sends_ite
      · intro _
        exact sends_pure _
      · intro _
        exact (head_sends probes below).bind fun _ => sends_pure _

theorem validateParents_sends (probes : AllowsProbes vfs allowed) (components : Path) :
    Sends allowed (vfs.validateParents components) := by
  unfold S3Vfs.validateParents
  induction List.range' 1 (components.length - 1) with
  | nil => exact sends_pure _
  | cons stop rest ih =>
      apply (kindAt_sends probes _).bind
      intro kind
      exact (sends_lift _).bind fun _ => ih

theorem stat_sends (probes : AllowsProbes vfs allowed) (path : Text) :
    Sends allowed (vfs.stat path) := by
  apply (sends_lift _).bind
  intro components
  apply (validateParents_sends probes components).bind
  intro _
  apply (kindAt_sends probes components).bind
  intro kind
  split
  · exact sends_pure _
  · exact sends_pure _
  · exact sends_throw _

/-- The root always exists, so nobody looks at its key. -/
theorem readdir_sends (probes : AllowsProbes vfs allowed) (path : Text) :
    Sends allowed (vfs.readdir path) := by
  apply (sends_lift _).bind
  intro components
  apply (validateParents_sends probes components).bind
  intro _ state
  apply (scanDirectory_guards probes components false).bind
  intro listing _ known
  split
  · exact trivial
  · rename_i absent
    have below : components ≠ [] := fun root => absent (known root)
    exact (head_sends probes below).bind (fun _ => sends_throw _) _

/-- An open stages a handle on a path below the root. -/
theorem openHandle_guards (probes : AllowsProbes vfs allowed) (path : Text) (mode : OpenMode) :
    Guards allowed (vfs.openHandle path mode) ()
      (fun cell _ => (mode.write = true ∨ mode.create = true → vfs.requireWritable = .ok ()) ∧
        ∃ components existing staging, components ≠ [] ∧
          S3Vfs.openStaging mode existing = .ok staging ∧
          cell = { key := vfs.key components, mode, staging, released := false })
      (fun _ _ => True) := by
  unfold S3Vfs.openHandle
  apply guards_lift_bind (fun _ _ => trivial)
  intro _ _
  apply guards_lift_bind (fun _ _ => trivial)
  intro components _
  apply guards_lift_bind (fun _ _ => trivial)
  intro _ writable
  apply guards_refuse_bind (fun _ => trivial)
  intro below
  apply Guards.bind (validateParents_sends probes components ())
  intro _ _ _
  apply Guards.bind (kindAt_sends probes components ())
  intro kind _ _
  apply guards_lift_bind (fun _ _ => trivial)
  intro existing _
  apply guards_lift_bind (fun _ _ => trivial)
  intro staging staged
  rw [guards_pure_iff]
  apply And.intro
  · intro changes
    rwa [if_pos changes] at writable
  · exact ⟨components, existing, staging, below, staged, rfl⟩

end Paths

end TinySandbox.S3
