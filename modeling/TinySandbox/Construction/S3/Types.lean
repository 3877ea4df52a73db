/-
This file gives the requests that the S3 backend sends, and the values of its configuration.
A byte range is its first and last position. The source writes it as text in a header.
-/

import Mathlib.Data.List.DropRight
import TinySandbox.Construction.Path
import TinySandbox.Library.OrderedMap
import TinySandbox.Library.Program

namespace TinySandbox.S3
open Library

inductive Precondition where
  | none
  | absent
  | matching (etag : Text)
  deriving DecidableEq, Repr

inductive RemoteError where
  | missing
  | denied
  | precondition
  | io
  deriving DecidableEq, Repr

def RemoteError.intoVfs : RemoteError → Errno
  | .missing => .ENOENT
  | .denied => .EACCES
  | .precondition => Errno.EIO
  | .io => Errno.EIO

def exclusiveError (error : RemoteError) (exclusive : Bool) : Errno :=
  if error = .precondition ∧ exclusive then .EEXIST else error.intoVfs

structure RemoteFile where
  len : Nat
  etag : Text
  deriving DecidableEq, Repr

structure ListedObject where
  key : Text
  size : Nat
  deriving DecidableEq, Repr

structure ListResult where
  objects : List ListedObject
  commonPrefixes : List Text
  truncated : Bool
  nextContinuation : Option Text
  deriving DecidableEq, Repr

structure ByteRange where
  first : Nat
  last : Nat
  deriving DecidableEq, Repr

structure ContentRange where
  range : ByteRange
  total : Nat
  deriving DecidableEq, Repr

structure GetResult where
  body : Bytes
  contentLength : Nat
  etag : Option Text
  contentRange : Option ContentRange
  deriving DecidableEq, Repr

structure UploadedPart where
  partNumber : Nat
  etag : Text
  deriving DecidableEq, Repr

structure ListRequest where
  bucket : Text
  keyPrefix : Text
  delimiter : Text
  continuation : Option Text
  maxKeys : Option Nat
  deriving DecidableEq, Repr

structure GetRequest where
  bucket : Text
  key : Text
  range : ByteRange
  ifMatch : Text
  expectedLen : Nat
  expectedContentRange : ContentRange
  deriving DecidableEq, Repr

inductive Request where
  | head (bucket key : Text)
  | list (request : ListRequest)
  | get (request : GetRequest)
  | put (bucket key : Text) (body : Bytes) (precondition : Precondition)
  | delete (bucket key : Text) (precondition : Precondition)
  | copy (bucket sourceKey key : Text) (sourceIfMatch : Precondition)
  | createUpload (bucket key : Text)
  | uploadPart (bucket key uploadId : Text) (partNumber : Nat) (body : Bytes)
  | completeUpload (bucket key uploadId : Text) (parts : List UploadedPart)
      (precondition : Precondition)
  | abortUpload (bucket key uploadId : Text)
  deriving DecidableEq, Repr

/-- The value that a successful response carries. -/
@[reducible] def Payload : Request → Type
  | .head .. => RemoteFile
  | .list .. => ListResult
  | .get .. => GetResult
  | .createUpload .. => Text
  | .uploadPart .. => Text
  | _ => Unit

/-- Every request can fail with a remote error. -/
abbrev Response (request : Request) : Type := Except RemoteError (Payload request)

abbrev S3Program := Program Request Response
abbrev S3Event := Event Request Response
abbrev S3Task (σ : Type) := Task Request Response Errno σ

/-- An exchange sends requests and keeps no state. -/
abbrev Exchange := S3Task Unit

/-- The remote error of a response becomes an errno. -/
def mapErr {α : Type} (convert : RemoteError → Errno) : Except RemoteError α → VfsResult α
  | .ok value => .ok value
  | .error error => .error (convert error)

@[simp] theorem mapErr_ok {α : Type} (convert : RemoteError → Errno) (value : α) :
    mapErr convert (.ok value) = .ok value := rfl

@[simp] theorem mapErr_error {α : Type} (convert : RemoteError → Errno) (error : RemoteError) :
    mapErr convert (.error error : Except RemoteError α) = .error (convert error) := rfl

/-- This sends a request and converts a remote error. -/
def sendWith {σ : Type} (convert : RemoteError → Errno) (request : Request) :
    S3Task σ (Payload request) := do
  let response ← Task.request request
  Task.lift (mapErr convert response)

def send {σ : Type} (request : Request) : S3Task σ (Payload request) :=
  sendWith RemoteError.intoVfs request

@[simp] theorem runs_sendWith_iff {σ : Type} {convert : RemoteError → Errno} {request : Request}
    {state after : σ} {events : List S3Event} {result : VfsResult (Payload request)} :
    (sendWith convert request : S3Task σ (Payload request)).Runs state events result after ↔
      ∃ response, events = [⟨request, response⟩] ∧ result = mapErr convert response ∧
        after = state := by
  unfold sendWith
  simp only [Task.runs_bind_iff, Task.runs_request_iff, Task.runs_lift_iff]
  constructor
  · rintro (⟨error, ⟨response, -, impossible, -⟩, -⟩ |
      ⟨first, second, value, middle, rfl, ⟨response, rfl, same, rfl⟩, rfl, rfl, rfl⟩)
    · cases impossible
    · obtain rfl := Except.ok.inj same
      exact ⟨value, rfl, rfl, rfl⟩
  · rintro ⟨response, rfl, rfl, rfl⟩
    exact .inr ⟨_, [], response, after, rfl, ⟨response, rfl, rfl, rfl⟩, rfl, rfl, rfl⟩

@[simp] theorem runs_send_iff {σ : Type} {request : Request} {state after : σ}
    {events : List S3Event} {result : VfsResult (Payload request)} :
    (send request : S3Task σ (Payload request)).Runs state events result after ↔
      ∃ response, events = [⟨request, response⟩] ∧
        result = mapErr RemoteError.intoVfs response ∧ after = state :=
  runs_sendWith_iff

@[simp] theorem wp_sendWith_iff {σ : Type} {convert : RemoteError → Errno} {request : Request}
    {state : σ} {log : List S3Event} {returns : Payload request → σ → List S3Event → Prop}
    {fails : Errno → σ → List S3Event → Prop} :
    (sendWith convert request : S3Task σ (Payload request)).Wp state log returns fails ↔
      ∀ response, Task.Judged returns fails state (log ++ [⟨request, response⟩])
        (mapErr convert response) := by
  simp only [sendWith, Task.wp_bind_iff, Task.wp_request_iff, Task.wp_lift_iff]

@[simp] theorem wp_send_iff {σ : Type} {request : Request} {state : σ} {log : List S3Event}
    {returns : Payload request → σ → List S3Event → Prop}
    {fails : Errno → σ → List S3Event → Prop} :
    (send request : S3Task σ (Payload request)).Wp state log returns fails ↔
      ∀ response, Task.Judged returns fails state (log ++ [⟨request, response⟩])
        (mapErr RemoteError.intoVfs response) :=
  wp_sendWith_iff

/-- A request that fails stops the task. -/
theorem wp_send_bind {σ α : Type} {request : Request} {next : Payload request → S3Task σ α}
    {state : σ} {log : List S3Event} {returns : α → σ → List S3Event → Prop}
    {fails : Errno → σ → List S3Event → Prop}
    (error : ∀ error, fails (RemoteError.intoVfs error) state (log ++ [⟨request, .error error⟩]))
    (ok : ∀ value, (next value).Wp state (log ++ [⟨request, .ok value⟩]) returns fails) :
    (send request >>= next).Wp state log returns fails := by
  rw [Task.wp_bind_iff, wp_send_iff]
  intro response
  cases response with
  | error failure => exact error failure
  | ok value => exact ok value

structure S3VfsConfig where
  readOnly : Bool := false
  maxEditBytes : Nat := 32 * 1024 * 1024
  directoryRename : Bool := true
  conditionalWrites : Bool := true
  deriving DecidableEq, Repr

/-- These are the characters that Unicode calls white space. -/
def isWhitespace (symbol : Char) : Bool :=
  let code := symbol.toNat
  (9 ≤ code && code ≤ 13) || code == 0x20 || code == 0x85 || code == 0xA0 || code == 0x1680 ||
    (0x2000 ≤ code && code ≤ 0x200A) || code == 0x2028 || code == 0x2029 || code == 0x202F ||
    code == 0x205F || code == 0x3000

def validateBucket (bucket : Text) : VfsResult Unit :=
  if bucket = [] ∨ '\x00' ∈ bucket ∨ '/' ∈ bucket ∨ bucket.any isWhitespace then .error .EINVAL
  else .ok ()

def trimEndMatches (symbol : Char) (text : Text) : Text := text.rdropWhile (· = symbol)

def trimMatches (symbol : Char) (text : Text) : Text :=
  trimEndMatches symbol (text.dropWhile (· = symbol))

def normalizePrefix (text : Text) : VfsResult Text :=
  if '\x00' ∈ text then .error .EINVAL
  else
    let trimmed := trimMatches '/' text
    if trimmed = [] then .ok []
    else if ∃ component ∈ trimmed.splitOn '/',
        component = [] ∨ component = ['.'] ∨ component = ['.', '.'] then .error .EINVAL
    else .ok (trimmed ++ ['/'])

/-- The name of a directory entry is a valid component. -/
def validEntryName (name : Text) : Bool := decide (ValidName name)

def initialPartSize : Nat := 8 * 1024 * 1024

def partsPerSizeClass : Nat := 1000

/-- The page limit bounds the loops over pages, since a server may page forever. -/
structure S3Vfs where
  bucket : Text
  rootPrefix : Text
  config : S3VfsConfig
  partSize : Nat
  pageLimit : Nat
  bucketValid : validateBucket bucket = .ok ()
  rootNormal : ∃ text, normalizePrefix text = .ok rootPrefix
  partSizePos : 0 < partSize
  partSizeFits : partSize ≤ u64Max

theorem initialPartSize_pos : 0 < initialPartSize := by decide

theorem initialPartSize_fits : initialPartSize ≤ u64Max := by decide

def S3Vfs.withOps (bucket text : Text) (config : S3VfsConfig) (pageLimit : Nat) :
    VfsResult S3Vfs :=
  match checked : validateBucket bucket, normal : normalizePrefix text with
  | .error error, _ => .error error
  | .ok (), .error error => .error error
  | .ok (), .ok rootPrefix =>
      .ok {
        bucket, rootPrefix, config, pageLimit
        partSize := initialPartSize
        bucketValid := checked
        rootNormal := ⟨text, normal⟩
        partSizePos := initialPartSize_pos
        partSizeFits := initialPartSize_fits }

namespace S3Vfs

/-- The part size doubles with every thousand parts and stays below the largest `usize`. -/
def partSizeAt (vfs : S3Vfs) (uploadedParts : Nat) : Nat :=
  min (vfs.partSize * 2 ^ min (uploadedParts / partsPerSizeClass) 16) u64Max

theorem partSizeAt_pos (vfs : S3Vfs) (uploadedParts : Nat) : 0 < vfs.partSizeAt uploadedParts := by
  have positive : 0 < vfs.partSize * 2 ^ min (uploadedParts / partsPerSizeClass) 16 :=
    Nat.mul_pos vfs.partSizePos (by positivity)
  exact lt_min positive (by decide)

def key (vfs : S3Vfs) (components : Path) : Text :=
  if components = [] then trimEndMatches '/' vfs.rootPrefix
  else vfs.rootPrefix ++ ['/'].intercalate components

def directoryPrefix (vfs : S3Vfs) (components : Path) : Text :=
  if components = [] then vfs.rootPrefix else vfs.key components ++ ['/']

def requireWritable (vfs : S3Vfs) : VfsResult Unit :=
  if vfs.config.readOnly then .error .EACCES else .ok ()

def precondition (vfs : S3Vfs) (precondition : Precondition) : Precondition :=
  if vfs.config.conditionalWrites then precondition else .none

def checkEditLen (vfs : S3Vfs) (len : Nat) : VfsResult Unit :=
  if vfs.config.maxEditBytes ≠ 0 ∧ vfs.config.maxEditBytes < len then .error .EFBIG else .ok ()

end S3Vfs

def creationPrecondition (mode : OpenMode) : Precondition :=
  if mode.createNew then .absent else .none

structure Upload where
  id : Text
  parts : List UploadedPart
  deriving DecidableEq, Repr

structure Stream where
  flushed : Nat
  buffer : Bytes
  upload : Option Upload
  precondition : Precondition
  deriving DecidableEq, Repr

def Stream.new (precondition : Precondition) : Stream where
  flushed := 0
  buffer := []
  upload := none
  precondition := precondition

def Stream.end (stream : Stream) : VfsResult Nat :=
  Call.okOr .EFBIG (checkedAdd stream.flushed stream.buffer.length)

/-- The number of parts that the upload of the stream has. -/
def Stream.uploaded (stream : Stream) : Nat :=
  (stream.upload.map fun upload => upload.parts.length).getD 0

structure Buffer where
  source : Option RemoteFile
  precondition : Precondition
  bytes : Option Bytes
  dirty : Bool
  deriving DecidableEq, Repr

inductive Staging where
  | remote (file : RemoteFile)
  | buffer (buffer : Buffer)
  | stream (stream : Stream)
  | failed (error : Errno)
  deriving DecidableEq, Repr

structure HandleState where
  key : Text
  mode : OpenMode
  staging : Staging
  released : Bool
  deriving DecidableEq, Repr

structure State where
  nextHandle : Nat
  handles : OrderedMap Nat HandleState

def State.new : State where
  nextHandle := 1
  handles := ∅

inductive Kind where
  | directory (nonempty : Bool)
  | file (file : RemoteFile)
  deriving DecidableEq, Repr

structure DirectoryListing where
  «exists» : Bool
  entries : List DirEntry
  deriving DecidableEq, Repr

end TinySandbox.S3
