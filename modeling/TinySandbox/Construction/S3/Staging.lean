/-
This file gives the operations that run on one open handle of the S3 backend.
A handle stages its bytes in a buffer or in a multipart upload, and lands them when it closes.
-/

import TinySandbox.Construction.S3.Types

namespace TinySandbox.S3
open Library Library.Task

/-- This is `i32::try_from`. -/
def i32TryFrom (value : Nat) : Option Nat := if value ≤ 2 ^ 31 - 1 then some value else none

/-- `Vec::resize` with zero bytes. -/
def resize (bytes : Bytes) (newLen : Nat) : Bytes :=
  bytes.take newLen ++ List.replicate (newLen - bytes.length) 0

namespace S3Vfs

def putObject (vfs : S3Vfs) (key : Text) (body : Bytes) (precondition : Precondition) :
    Exchange Unit :=
  sendWith (fun error => exclusiveError error (precondition = .absent))
    (Request.put vfs.bucket key body (vfs.precondition precondition))

/-- The range of a file that a read asks for. -/
def rangeRequest (vfs : S3Vfs) (key : Text) (file : RemoteFile) (range : ByteRange) (len : Nat) :
    GetRequest where
  bucket := vfs.bucket
  key := key
  range := range
  ifMatch := file.etag
  expectedLen := len
  expectedContentRange := { range := range, total := file.len }

/-- A response is accepted when it has the expected length, revision, and range. -/
def checkRange (request : GetRequest) (expected : Nat) (response : GetResult) : VfsResult Bytes :=
  if response.body.length ≠ expected ∨ response.contentLength ≠ request.expectedLen ∨
      response.etag ≠ some request.ifMatch ∨
      response.contentRange ≠ some request.expectedContentRange then .error Errno.EIO
  else .ok response.body

def getWhole (vfs : S3Vfs) (key : Text) (file : RemoteFile) : Exchange Bytes :=
  if file.len = 0 then pure []
  else do
    let wanted := vfs.rangeRequest key file { first := 0, last := file.len - 1 } file.len
    let response ← send (Request.get wanted)
    let expected ← lift (Call.okOr .EFBIG (usizeTryFrom file.len))
    lift (checkRange wanted expected response)

def readRemote (vfs : S3Vfs) (key : Text) (file : RemoteFile) (offset bufLen : Nat) :
    Exchange Bytes :=
  if bufLen = 0 ∨ file.len ≤ offset then pure []
  else do
    let requested := min (file.len - offset) bufLen
    let past ← lift (Call.okOr Errno.EIO (checkedAdd offset requested))
    let wanted := vfs.rangeRequest key file { first := offset, last := past - 1 } requested
    let response ← send (Request.get wanted)
    let expected ← lift (Call.okOr Errno.EIO (usizeTryFrom requested))
    lift (checkRange wanted expected response)

/-- The bytes to stage before the first change of a buffer. -/
def sourceBytes (vfs : S3Vfs) (key : Text) : Option RemoteFile → Exchange Bytes
  | some file => do
      lift (vfs.checkEditLen file.len)
      vfs.getWhole key file
  | none => pure []

def materialize (vfs : S3Vfs) (key : Text) : S3Task Buffer Bytes := do
  let buffer ← get
  match buffer.bytes with
  | some bytes => pure bytes
  | none => do
      let bytes ← perform (vfs.sourceBytes key buffer.source)
      set { buffer with bytes := some bytes }
      pure bytes

def resizeStaged (vfs : S3Vfs) (bytes : Bytes) (len : Nat) : VfsResult Bytes := do
  vfs.checkEditLen len
  .ok (resize bytes len)

/-- The upload is created before its first part. -/
def openUpload (vfs : S3Vfs) (key : Text) : S3Task Stream Text := do
  let stream ← get
  match stream.upload with
  | some upload => pure upload.id
  | none => do
      let id ← send (Request.createUpload vfs.bucket key)
      set { stream with upload := some { id := id, parts := [] } }
      pure id

def pushPart (part : UploadedPart) (len : Nat) : S3Task Stream Unit := do
  let stream ← get
  match stream.upload with
  | none => throw Errno.EIO
  | some upload => do
      let stream := { stream with upload := some { upload with parts := upload.parts ++ [part] } }
      set stream
      let flushed ← lift (Call.okOr .EFBIG (checkedAdd stream.flushed len))
      set { stream with flushed := flushed }

/-- One part leaves the buffer before its number is checked. -/
def flushPart (vfs : S3Vfs) (key : Text) (uploaded partSize : Nat) : S3Task Stream Unit := do
  let id ← vfs.openUpload key
  let stream ← get
  let body := stream.buffer.take partSize
  set { stream with buffer := stream.buffer.drop partSize }
  let partNumber ← lift (Call.okOr .EFBIG (i32TryFrom (uploaded + 1)))
  let etag ← send (Request.uploadPart vfs.bucket key id partNumber body)
  pushPart { partNumber := partNumber, etag := etag } body.length

def flushLoop (vfs : S3Vfs) (key : Text) : Nat → S3Task Stream Unit
  | 0 => diverge
  | fuel + 1 => do
      let stream ← get
      if stream.buffer.length < vfs.partSizeAt stream.uploaded then pure ()
      else do
        vfs.flushPart key stream.uploaded (vfs.partSizeAt stream.uploaded)
        flushLoop vfs key fuel

/-- Every part takes a byte, so the loop ends within the length of the buffer. -/
def flushParts (vfs : S3Vfs) (key : Text) : S3Task Stream Unit := do
  let stream ← get
  vfs.flushLoop key (stream.buffer.length + 1)

def fillLoop (vfs : S3Vfs) (key : Text) (target : Nat) : Nat → S3Task Stream Unit
  | 0 => diverge
  | fuel + 1 => do
      let stream ← get
      let finish ← lift stream.end
      if target ≤ finish then pure ()
      else do
        let room := max (vfs.partSizeAt stream.uploaded - stream.buffer.length) 1
        let gap := (usizeTryFrom (target - finish)).getD u64Max
        set { stream with
          buffer := resize stream.buffer (stream.buffer.length + min room gap) }
        vfs.flushParts key
        fillLoop vfs key target fuel

/-- Every round adds a byte, so the loop ends within the target length. -/
def fillGap (vfs : S3Vfs) (key : Text) (target : Nat) : S3Task Stream Unit :=
  vfs.fillLoop key target (target + 1)

/-- The response is ignored. -/
def abortUpload (vfs : S3Vfs) (key : Text) (upload : Upload) : Exchange Unit := do
  let _ ← request (Request.abortUpload vfs.bucket key upload.id)
  pure ()

/-- The pending tail becomes the last part, unless it is empty and a part exists. -/
def lastPart (vfs : S3Vfs) (key : Text) (upload : Upload) : S3Task Stream (List UploadedPart) := do
  let stream ← get
  if stream.buffer ≠ [] ∨ upload.parts = [] then do
    let partNumber ← lift (Call.okOr .EFBIG (i32TryFrom (upload.parts.length + 1)))
    set { stream with buffer := [] }
    let etag ← send (Request.uploadPart vfs.bucket key upload.id partNumber stream.buffer)
    pure (upload.parts ++ [{ partNumber := partNumber, etag := etag }])
  else pure upload.parts

def finishStream (vfs : S3Vfs) (key : Text) : S3Task Stream Unit := do
  let stream ← get
  match stream.upload with
  | none => do
      set { stream with buffer := [] }
      perform (vfs.putObject key stream.buffer stream.precondition)
  | some upload => do
      let parts ← vfs.lastPart key upload
      sendWith (fun error => exclusiveError error (stream.precondition = .absent))
        (Request.completeUpload vfs.bucket key upload.id parts
          (vfs.precondition stream.precondition))

/-- The upload of a stream is aborted, if it has one. -/
def abortStream (vfs : S3Vfs) (key : Text) (stream : Stream) : Exchange Unit :=
  match stream.upload with
  | none => pure ()
  | some upload => vfs.abortUpload key upload

def commitStream (vfs : S3Vfs) (key : Text) : S3Task Stream Unit := do
  let result ← attempt (vfs.finishStream key)
  match result with
  | .ok _ => pure ()
  | .error error => do
      let stream ← get
      perform (vfs.abortStream key stream)
      throw error

def commitBuffer (vfs : S3Vfs) (key : Text) : S3Task Buffer Unit := do
  let buffer ← get
  if ¬ buffer.dirty then pure ()
  else do
    set { buffer with bytes := none }
    perform (vfs.putObject key (buffer.bytes.getD []) buffer.precondition)

def commit (vfs : S3Vfs) : S3Task HandleState Unit := do
  let state ← get
  match state.staging with
  | .failed error => throw error
  | .remote _ => pure ()
  | .buffer buffer =>
      focus buffer (fun buffer => { state with staging := .buffer buffer })
        (vfs.commitBuffer state.key)
  | .stream stream =>
      focus stream (fun stream => { state with staging := .stream stream })
        (vfs.commitStream state.key)

/-- A failed stream keeps the first error and aborts its upload. -/
def failStream (vfs : S3Vfs) (error : Errno) : S3Task HandleState Unit := do
  let state ← get
  set { state with staging := .failed error }
  match state.staging with
  | .stream stream => perform (vfs.abortStream state.key stream)
  | _ => pure ()

/-- A stream operation that fails makes its handle fail. -/
def onStream {α : Type} (vfs : S3Vfs) (stream : Stream) (task : S3Task Stream α) :
    S3Task HandleState α := do
  let state ← get
  let result ← attempt (focus stream (fun stream => { state with staging := .stream stream }) task)
  match result with
  | .ok value => pure value
  | .error error => do
      vfs.failStream error
      throw error

def readBuffer (vfs : S3Vfs) (key : Text) (offset bufLen : Nat) : S3Task Buffer Bytes := do
  let bytes ← vfs.materialize key
  let offset ← lift (Call.okOr .EINVAL (usizeTryFrom offset))
  if bufLen = 0 ∨ bytes.length ≤ offset then pure []
  else pure ((bytes.drop offset).take (min (bytes.length - offset) bufLen))

def readResolved (vfs : S3Vfs) (offset bufLen : Nat) : S3Task HandleState Bytes := do
  let state ← get
  refuse state.released .EBADF
  refuse (¬ state.mode.read) .EBADF
  match state.staging with
  | .remote file => perform (vfs.readRemote state.key file offset bufLen)
  | .buffer buffer =>
      focus buffer (fun buffer => { state with staging := .buffer buffer })
        (vfs.readBuffer state.key offset bufLen)
  | .stream _ => throw .EBADF
  | .failed _ => throw .EBADF

/-- The bytes of a buffer after a write. -/
def writtenBytes (vfs : S3Vfs) (bytes : Bytes) (start : Nat) (data : Bytes) : VfsResult Bytes := do
  let past ← Call.okOr .EINVAL (checkedAdd start data.length)
  let bytes ← (if bytes.length < past then vfs.resizeStaged bytes past else .ok bytes)
  .ok (copyFromSlice bytes start data)

def writeBuffer (vfs : S3Vfs) (key : Text) (append : Bool) (offset : Nat) (data : Bytes) :
    S3Task Buffer Nat := do
  let bytes ← vfs.materialize key
  let start ← lift (if append then .ok bytes.length else Call.okOr .EINVAL (usizeTryFrom offset))
  let bytes ← lift (vfs.writtenBytes bytes start data)
  let buffer ← get
  set { buffer with bytes := some bytes, dirty := true }
  pure data.length

/-- This stores the data at a position of the pending tail. -/
def writeTail (target : Nat) (data : Bytes) : S3Task Stream Unit := do
  let stream ← get
  let start ← lift (Call.okOr .EINVAL (usizeTryFrom (target - stream.flushed)))
  let past ← lift (Call.okOr .EINVAL (checkedAdd start data.length))
  let tail := if stream.buffer.length < past then resize stream.buffer past else stream.buffer
  set { stream with buffer := copyFromSlice tail start data }

def writeStream (vfs : S3Vfs) (key : Text) (target : Nat) (data : Bytes) : S3Task Stream Nat := do
  vfs.fillGap key target
  writeTail target data
  vfs.flushParts key
  pure data.length

/-- The position of a write. Bytes below it that are already uploaded cannot change. -/
def writeTarget (append : Bool) (offset : Nat) (stream : Stream) : VfsResult Nat := do
  let target ← (if append then stream.end else .ok offset)
  if target < stream.flushed then .error .EFBIG else .ok target

def writeResolved (vfs : S3Vfs) (offset : Nat) (data : Bytes) : S3Task HandleState Nat := do
  let state ← get
  refuse state.released .EBADF
  refuse (¬ state.mode.write) .EBADF
  match state.staging with
  | .failed error => throw error
  | .remote _ => if data = [] then pure 0 else throw .EBADF
  | .buffer buffer =>
      if data = [] then pure 0
      else
        focus buffer (fun buffer => { state with staging := .buffer buffer })
          (vfs.writeBuffer state.key state.mode.append offset data)
  | .stream stream =>
      if data = [] then pure 0
      else do
        let target ← lift (writeTarget state.mode.append offset stream)
        vfs.onStream stream (vfs.writeStream state.key target data)

def truncateBuffer (vfs : S3Vfs) (key : Text) (len : Nat) : S3Task Buffer Unit := do
  let bytes ← vfs.materialize key
  let len ← lift (Call.okOr .EFBIG (usizeTryFrom len))
  let bytes ← lift (vfs.resizeStaged bytes len)
  let buffer ← get
  set { buffer with bytes := some bytes, dirty := true }

/-- A truncation inside the pending tail only cuts the tail. -/
def cutTail (len : Nat) (stream : Stream) : VfsResult Stream := do
  let keep ← Call.okOr .EINVAL (usizeTryFrom (len - stream.flushed))
  .ok { stream with buffer := stream.buffer.take keep }

def truncateResolved (vfs : S3Vfs) (len : Nat) : S3Task HandleState Unit := do
  let state ← get
  refuse state.released .EINVAL
  refuse (¬ state.mode.write) .EINVAL
  match state.staging with
  | .failed error => throw error
  | .remote _ => throw .EINVAL
  | .buffer buffer =>
      focus buffer (fun buffer => { state with staging := .buffer buffer })
        (vfs.truncateBuffer state.key len)
  | .stream stream => do
      refuse (len < stream.flushed) .EFBIG
      let finish ← lift stream.end
      if finish < len then vfs.onStream stream (vfs.fillGap state.key len)
      else do
        let stream ← lift (cutTail len stream)
        set { state with staging := .stream stream }

/-- The upload of an aborted handle is aborted, and a failure to do so is reported. -/
def abortResolved (vfs : S3Vfs) : S3Task HandleState Unit := do
  let state ← get
  set { state with released := true }
  match state.staging with
  | .stream stream =>
      match stream.upload with
      | none => pure ()
      | some upload => send (Request.abortUpload vfs.bucket state.key upload.id)
  | _ => pure ()

def closeResolved (vfs : S3Vfs) : S3Task HandleState Unit := do
  let state ← get
  set { state with released := true }
  vfs.commit

/-- A dropped filesystem aborts the upload of every handle in its table. -/
def dropResolved (vfs : S3Vfs) : S3Task HandleState Unit := do
  let state ← get
  match state.staging with
  | .stream stream => perform (vfs.abortStream state.key stream)
  | _ => pure ()

end S3Vfs

end TinySandbox.S3
