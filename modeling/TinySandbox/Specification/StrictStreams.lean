/-
This file runs a stream with checked arithmetic, and gives the limits of the service.
A step that overflows or does not convert has no outcome here. It also says what a write does that
would end behind the largest offset.
-/

import TinySandbox.Construction.S3.Vfs
import TinySandbox.Library.Agreement
import TinySandbox.Library.Simulation

namespace TinySandbox.S3
open Library Library.Task Mem

namespace Strict

/-- A missing value has no outcome. -/
def exactly {σ α : Type} : Option α → S3Task σ α
  | some value => pure value
  | none => diverge

def checkedShift (count : Nat) : Option Nat := if count < 64 then some (2 ^ count) else none

def checkedMul (left right : Nat) : Option Nat :=
  if left * right ≤ u64Max then some (left * right) else none

/-- The shift has no largest exponent here. -/
def partSizeAt (vfs : S3Vfs) (uploaded : Nat) : Option Nat := do
  let factor ← checkedShift (uploaded / partsPerSizeClass)
  checkedMul vfs.partSize factor

def finish {σ : Type} (stream : Stream) : S3Task σ Nat :=
  exactly (checkedAdd stream.flushed stream.buffer.length)

def nextPart {σ : Type} (uploaded : Nat) : S3Task σ Nat := do
  let number ← exactly (checkedAdd uploaded 1)
  exactly (i32TryFrom number)

def pushPart (part : UploadedPart) (len : Nat) : S3Task Stream Unit := do
  let stream ← get
  match stream.upload with
  | none => diverge
  | some upload => do
      let flushed ← exactly (checkedAdd stream.flushed len)
      set { stream with
        upload := some { upload with parts := upload.parts ++ [part] }
        flushed := flushed }

def flushPart (vfs : S3Vfs) (key : Text) (uploaded partSize : Nat) : S3Task Stream Unit := do
  let id ← vfs.openUpload key
  let stream ← get
  let body := stream.buffer.take partSize
  set { stream with buffer := stream.buffer.drop partSize }
  let partNumber ← nextPart uploaded
  let etag ← send (Request.uploadPart vfs.bucket key id partNumber body)
  pushPart { partNumber := partNumber, etag := etag } body.length

def flushLoop (vfs : S3Vfs) (key : Text) : Nat → S3Task Stream Unit
  | 0 => diverge
  | fuel + 1 => do
      let stream ← get
      let partSize ← exactly (partSizeAt vfs stream.uploaded)
      if stream.buffer.length < partSize then pure ()
      else do
        flushPart vfs key stream.uploaded partSize
        flushLoop vfs key fuel

def flushParts (vfs : S3Vfs) (key : Text) : S3Task Stream Unit := do
  let stream ← get
  flushLoop vfs key (stream.buffer.length + 1)

def fillLoop (vfs : S3Vfs) (key : Text) (target : Nat) : Nat → S3Task Stream Unit
  | 0 => diverge
  | fuel + 1 => do
      let stream ← get
      let finish ← finish stream
      if target ≤ finish then pure ()
      else do
        let partSize ← exactly (partSizeAt vfs stream.uploaded)
        let room ← exactly (subU64 partSize stream.buffer.length)
        let gap ← exactly (usizeTryFrom (target - finish))
        let grown ← exactly (checkedAdd stream.buffer.length (min (max room 1) gap))
        set { stream with buffer := resize stream.buffer grown }
        flushParts vfs key
        fillLoop vfs key target fuel

def fillGap (vfs : S3Vfs) (key : Text) (target : Nat) : S3Task Stream Unit :=
  fillLoop vfs key target (target + 1)

def writeTail (target : Nat) (data : Bytes) : S3Task Stream Unit := do
  let stream ← get
  let relative ← exactly (subU64 target stream.flushed)
  let start ← exactly (usizeTryFrom relative)
  let past ← exactly (checkedAdd start data.length)
  let tail := if stream.buffer.length < past then resize stream.buffer past else stream.buffer
  set { stream with buffer := copyFromSlice tail start data }

def writeStream (vfs : S3Vfs) (key : Text) (target : Nat) (data : Bytes) : S3Task Stream Nat := do
  fillGap vfs key target
  writeTail target data
  flushParts vfs key
  pure data.length

def writeResolved (vfs : S3Vfs) (offset : Nat) (data : Bytes) : S3Task HandleState Nat := do
  let state ← get
  refuse state.released .EBADF
  refuse (¬ state.mode.write) .EBADF
  match state.staging with
  | .stream stream =>
      if data = [] then pure 0
      else do
        let target ← (if state.mode.append then finish stream else pure offset)
        refuse (target < stream.flushed) .EFBIG
        vfs.onStream stream (writeStream vfs state.key target data)
  | _ => vfs.writeResolved offset data

def truncateResolved (vfs : S3Vfs) (len : Nat) : S3Task HandleState Unit := do
  let state ← get
  refuse state.released .EINVAL
  refuse (¬ state.mode.write) .EINVAL
  match state.staging with
  | .stream stream => do
      refuse (len < stream.flushed) .EFBIG
      let finish ← finish stream
      if finish < len then vfs.onStream stream (fillGap vfs state.key len)
      else do
        let keep ← exactly (usizeTryFrom (len - stream.flushed))
        set { state with staging := .stream { stream with buffer := stream.buffer.take keep } }
  | _ => vfs.truncateResolved len

def lastPart (vfs : S3Vfs) (key : Text) (upload : Upload) : S3Task Stream (List UploadedPart) := do
  let stream ← get
  if stream.buffer ≠ [] ∨ upload.parts = [] then do
    let partNumber ← nextPart upload.parts.length
    set { stream with buffer := [] }
    let etag ← send (Request.uploadPart vfs.bucket key upload.id partNumber stream.buffer)
    pure (upload.parts ++ [{ partNumber := partNumber, etag := etag }])
  else pure upload.parts

def finishStream (vfs : S3Vfs) (key : Text) : S3Task Stream Unit := do
  let stream ← get
  match stream.upload with
  | none => do
      set { stream with buffer := [] }
      perform (vfs.putObject key stream.buffer stream.precondition)
  | some upload => do
      let parts ← lastPart vfs key upload
      sendWith (fun error => exclusiveError error (stream.precondition = .absent))
        (Request.completeUpload vfs.bucket key upload.id parts
          (vfs.precondition stream.precondition))

def commitStream (vfs : S3Vfs) (key : Text) : S3Task Stream Unit := do
  let result ← attempt (finishStream vfs key)
  match result with
  | .ok _ => pure ()
  | .error error => do
      let stream ← get
      perform (vfs.abortStream key stream)
      throw error

def closeResolved (vfs : S3Vfs) : S3Task HandleState Unit := do
  let state ← get
  set { state with released := true }
  let state ← get
  match state.staging with
  | .stream stream =>
      focus stream (fun stream => { state with staging := .stream stream })
        (commitStream vfs state.key)
  | _ => vfs.commit

/-- The calls on a stream check their arithmetic, and the others are as they are. -/
def call (vfs : S3Vfs) : VfsCall → S3Task State Reply
  | .writeAt handle offset data =>
      .count <$> S3Vfs.onHandle handle (writeResolved vfs offset data)
  | .truncate handle len =>
      (fun _ => .unit) <$> S3Vfs.onHandle handle (truncateResolved vfs len)
  | .close handle => (fun _ => .unit) <$> S3Vfs.onRemoved handle (closeResolved vfs)
  | other => vfs.call other

end Strict

/-- The service takes objects of five tebibytes at most. -/
def maxObjectBytes : Nat := 5 * 2 ^ 40

def maxPartBytes : Nat := 5 * 2 ^ 30

/-- Only the last part may be smaller. -/
def minPartBytes : Nat := 5 * 2 ^ 20

def maxParts : Nat := 10000

/-- These are the parts that the events send, with their numbers and lengths. -/
def sentParts (events : List S3Event) : List (Nat × Nat) :=
  events.filterMap fun event =>
    match event.1 with
    | .uploadPart _ _ _ number body => some (number, body.length)
    | _ => none

/-- The service completes an upload of such parts. -/
structure PartsFit (parts : List (Nat × Nat)) : Prop where
  count : parts.length ≤ maxParts
  numbered : parts.map Prod.fst = List.range' 1 parts.length
  large : ∀ part ∈ parts.dropLast, minPartBytes ≤ part.2
  small : ∀ part ∈ parts, part.2 ≤ maxPartBytes

/-- The handle holds less than a part, and the call runs without an overflow. -/
structure RunsStrictly (vfs : S3Vfs) (handle : Nat) (state : State) (call : VfsCall) : Prop where
  pending : ∃ cell stream, state.handles.get handle = some cell ∧ cell.staging = .stream stream ∧
    stream.buffer.length < vfs.partSizeAt stream.uploaded
  exact : Agrees (vfs.call call) (Strict.call vfs call) state

/-- These are the bytes of a handle that are not in the bucket yet. -/
def Staging.unsent : Staging → Bytes
  | .buffer edited => edited.bytes.getD []
  | .stream written => written.buffer
  | _ => []

/-- The request uploads bytes, or it starts or completes an upload. -/
def Request.Uploads : Request → Prop
  | .put .. => True
  | .createUpload .. => True
  | .uploadPart .. => True
  | .completeUpload .. => True
  | _ => False

/-- All later calls send the same requests from both states and get the same replies. -/
def SameLater (vfs : S3Vfs) (first second : State) : Prop :=
  ∀ later : List VfsCall,
    Prod.fst <$> (vfs.calls later).exec first = Prod.fst <$> (vfs.calls later).exec second

/-- The write returns `EINVAL`, whatever the service answers, and leaves nothing behind. -/
structure RejectsUpFront (vfs : S3Vfs) (state : State) (handle offset : Nat) (data : Bytes) : Prop where
  returns : ∃ events reply after,
    (vfs.call (.writeAt handle offset data)).Runs state events reply after
  rejects : ∀ events reply after,
    (vfs.call (.writeAt handle offset data)).Runs state events reply after →
      reply = .error .EINVAL ∧ (∀ event ∈ events, ¬ event.1.Uploads) ∧
      (∀ number, (after.handles.get number).map (fun cell => cell.staging.unsent) =
        (state.handles.get number).map fun cell => cell.staging.unsent) ∧
      SameLater vfs after state

/-- The handle edits a buffer, and its bytes are there or need no download. -/
def Staging.Loaded : Staging → Prop
  | .buffer edited => edited.bytes = none → ∀ file, edited.source = some file → file.len = 0
  | _ => False

end TinySandbox.S3
