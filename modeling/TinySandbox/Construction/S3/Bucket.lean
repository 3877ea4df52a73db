/-
This file gives a bucket that answers the requests as S3 does.
The entity tags, the upload ids, the page sizes, and the continuation tokens are the choice of
the service.
-/

import TinySandbox.Construction.S3.Types

namespace TinySandbox.S3
open Library

structure StoredObject where
  body : Bytes
  etag : Text
  deriving DecidableEq, Repr

structure PendingUpload where
  key : Text
  parts : OrderedMap Nat Bytes

structure BucketState where
  objects : OrderedMap Text StoredObject
  uploads : OrderedMap Text PendingUpload
  nextEtag : Nat
  nextUpload : Nat
  clock : Nat

def BucketState.empty : BucketState where
  objects := ∅
  uploads := ∅
  nextEtag := 0
  nextUpload := 0
  clock := 0

/-- A tag names one store or one body, an upload id is new, and a token leads back to a key. -/
structure Service where
  mintEtag : Nat → Bytes → Text
  mintUpload : Nat → Text
  partEtag : Nat → Bytes → Text
  pageSize : Nat → ListRequest → Nat
  token : Text → Text
  decode : Text → Option Text
  reportsMissing : Bool
  etagBody : ∀ first second body other, mintEtag first body = mintEtag second other →
    first = second ∨ body = other
  uploadNew : Function.Injective mintUpload
  pagePos : ∀ clock request, 0 < pageSize clock request
  tokenDecodes : ∀ key, decode (token key) = some key
  tokenNonempty : ∀ key, token key ≠ []

/-- This service counts in unary and lists up to a thousand entries per page. -/
def Service.counting : Service where
  mintEtag := fun number _ => List.replicate number 'e'
  mintUpload := fun number => List.replicate number 'u'
  partEtag := fun number _ => List.replicate number 'p'
  pageSize := fun _ _ => 1000
  token := fun key => '>' :: key
  decode := List.tail?
  reportsMissing := true
  etagBody := fun _ _ _ _ same => .inl (by simpa using congrArg List.length same)
  uploadNew := fun _ _ same => by simpa using congrArg List.length same
  pagePos := fun _ _ => by decide
  tokenDecodes := fun _ => rfl
  tokenNonempty := fun _ => List.cons_ne_nil _ _

namespace BucketState

def check (state : BucketState) (key : Text) : Precondition → Except RemoteError Unit
  | .none => .ok ()
  | .absent => if (state.objects.get key).isSome then .error .precondition else .ok ()
  | .matching etag =>
      match state.objects.get key with
      | some object => if object.etag = etag then .ok () else .error .precondition
      | none => .error .missing

def store (service : Service) (state : BucketState) (key : Text) (body : Bytes) : BucketState :=
  { state with
    objects := state.objects.insert key { body, etag := service.mintEtag (state.nextEtag + 1) body }
    nextEtag := state.nextEtag + 1 }

/-- Every request advances the clock that page sizes may depend on. -/
def tick (state : BucketState) : BucketState := { state with clock := state.clock + 1 }

def head (state : BucketState) (key : Text) : Except RemoteError RemoteFile :=
  match state.objects.get key with
  | none => .error .missing
  | some object => .ok { len := object.body.length, etag := object.etag }

/-- The text in front of the first delimiter. -/
def beforeDelimiter (delimiter : Text) : Text → Option Text
  | [] => if delimiter <+: [] then some [] else none
  | symbol :: rest =>
      if delimiter <+: symbol :: rest then some []
      else (beforeDelimiter delimiter rest).map (symbol :: ·)

/-- A key is listed under its own name or under the common prefix it falls into. -/
def listEntry (keyPrefix delimiter key : Text) (size : Nat) : Option (Text × Option Nat) :=
  if keyPrefix <+: key then
    if delimiter = [] then some (key, some size)
    else
      match beforeDelimiter delimiter (key.drop keyPrefix.length) with
      | none => some (key, some size)
      | some name => some (keyPrefix ++ name ++ delimiter, none)
  else none

/-- The entries of a listing in the order of their names. -/
def listEntries (keyPrefix delimiter : Text) (objects : OrderedMap Text StoredObject) :
    OrderedMap Text (Option Nat) :=
  objects.entries.foldl (fun entries object =>
    match listEntry keyPrefix delimiter object.1 object.2.body.length with
    | none => entries
    | some entry => entries.insert entry.1 entry.2) ∅

/-- A page has the first entries behind the continuation. -/
def page (service : Service) (limit : Nat) (entries : List (Text × Option Nat)) : ListResult where
  objects := (entries.take limit).filterMap fun entry =>
    entry.2.map fun size => { key := entry.1, size }
  commonPrefixes := (entries.take limit).filterMap fun entry =>
    if entry.2 = none then some entry.1 else none
  truncated := limit < entries.length
  nextContinuation :=
    if limit < entries.length then
      (entries.take limit).getLast?.map fun entry => service.token entry.1
    else none

def list (service : Service) (state : BucketState) (request : ListRequest) :
    Except RemoteError ListResult :=
  let limit := min (service.pageSize state.clock request) (request.maxKeys.getD 1000)
  let entries := (listEntries request.keyPrefix request.delimiter state.objects).entries
  match request.continuation with
  | none => .ok (page service limit entries)
  | some token =>
      match service.decode token with
      | none => .error .io
      | some after => .ok (page service limit (entries.filter fun entry => after < entry.1))

def get (state : BucketState) (request : GetRequest) : Except RemoteError GetResult :=
  match state.objects.get request.key with
  | none => .error .missing
  | some object =>
      if object.etag ≠ request.ifMatch then .error .precondition
      else if request.range.last < request.range.first ∨ object.body.length ≤ request.range.last then
        .error .io
      else
        let body := (object.body.drop request.range.first).take
          (request.range.last + 1 - request.range.first)
        .ok {
          body
          contentLength := body.length
          etag := some object.etag
          contentRange := some { range := request.range, total := object.body.length } }

def put (service : Service) (state : BucketState) (key : Text) (body : Bytes)
    (precondition : Precondition) : Except RemoteError Unit × BucketState :=
  match state.check key precondition with
  | .error error => (.error error, state)
  | .ok _ => (.ok (), state.store service key body)

def delete (service : Service) (state : BucketState) (key : Text) (precondition : Precondition) :
    Except RemoteError Unit × BucketState :=
  match state.check key precondition with
  | .error error => (.error error, state)
  | .ok _ =>
      if service.reportsMissing ∧ state.objects.get key = none then (.error .missing, state)
      else (.ok (), { state with objects := state.objects.erase key })

def copy (service : Service) (state : BucketState) (sourceKey key : Text)
    (sourceIfMatch : Precondition) : Except RemoteError Unit × BucketState :=
  match state.check sourceKey sourceIfMatch, state.objects.get sourceKey with
  | .error error, _ => (.error error, state)
  | .ok _, none => (.error .missing, state)
  | .ok _, some source => (.ok (), state.store service key source.body)

def createUpload (service : Service) (state : BucketState) (key : Text) :
    Except RemoteError Text × BucketState :=
  let id := service.mintUpload (state.nextUpload + 1)
  (.ok id,
    { state with
      uploads := state.uploads.insert id { key, parts := ∅ }
      nextUpload := state.nextUpload + 1 })

/-- The upload with this id, if it is for this key. -/
def pending (state : BucketState) (key uploadId : Text) : Option PendingUpload :=
  (state.uploads.get uploadId).filter fun upload => upload.key = key

def uploadPart (service : Service) (state : BucketState) (key uploadId : Text) (partNumber : Nat)
    (body : Bytes) : Except RemoteError Text × BucketState :=
  match state.pending key uploadId with
  | none => (.error .missing, state)
  | some upload =>
      (.ok (service.partEtag partNumber body),
        { state with
          uploads := state.uploads.insert uploadId
            { upload with parts := upload.parts.insert partNumber body } })

/-- The parts that a completion names, in order. -/
def assemble (parts : OrderedMap Nat Bytes) : List UploadedPart → Option Bytes
  | [] => some []
  | part :: rest => do
      let body ← parts.get part.partNumber
      let tail ← assemble parts rest
      some (body ++ tail)

def completeUpload (service : Service) (state : BucketState) (key uploadId : Text)
    (parts : List UploadedPart) (precondition : Precondition) :
    Except RemoteError Unit × BucketState :=
  match state.pending key uploadId, state.check key precondition with
  | none, _ => (.error .missing, state)
  | some _, .error error => (.error error, state)
  | some upload, .ok _ =>
      if parts.map UploadedPart.partNumber ≠ List.range' 1 parts.length then (.error .io, state)
      else
        match assemble upload.parts parts with
        | none => (.error .io, state)
        | some body =>
            (.ok (), { state with uploads := state.uploads.erase uploadId }.store service key body)

def abortUpload (state : BucketState) (key uploadId : Text) :
    Except RemoteError Unit × BucketState :=
  match state.pending key uploadId with
  | none => (.error .missing, state)
  | some _ => (.ok (), { state with uploads := state.uploads.erase uploadId })

def respond (service : Service) (state : BucketState) :
    (request : Request) → Response request × BucketState
  | .head _ key => (state.head key, state.tick)
  | .list request => (state.list service request, state.tick)
  | .get request => (state.get request, state.tick)
  | .put _ key body precondition => state.tick.put service key body precondition
  | .delete _ key precondition => state.tick.delete service key precondition
  | .copy _ sourceKey key sourceIfMatch => state.tick.copy service sourceKey key sourceIfMatch
  | .createUpload _ key => state.tick.createUpload service key
  | .uploadPart _ key uploadId partNumber body =>
      state.tick.uploadPart service key uploadId partNumber body
  | .completeUpload _ key uploadId parts precondition =>
      state.tick.completeUpload service key uploadId parts precondition
  | .abortUpload _ key uploadId => state.tick.abortUpload key uploadId

end BucketState

/-- A request is served, fails before it has an effect, or fails after it had one. The faults are
the errors that say nothing about the bucket. -/
inductive Serves (service : Service) (fault : RemoteError → Prop) :
    BucketState → S3Event → BucketState → Prop where
  | served (state : BucketState) (request : Request) :
      Serves service fault state ⟨request, (state.respond service request).1⟩
        (state.respond service request).2
  | refused (state : BucketState) (request : Request) {error : RemoteError} (faulty : fault error) :
      Serves service fault state ⟨request, .error error⟩ state.tick
  | lost (state : BucketState) (request : Request) {error : RemoteError} (faulty : fault error) :
      Serves service fault state ⟨request, .error error⟩ (state.respond service request).2

end TinySandbox.S3
