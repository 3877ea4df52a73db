/-
This file says what the pages of a listing are, and which directory they show.
The service may cut a listing into pages in any way, with tokens of its choice.
-/

import TinySandbox.Construction.S3.Bucket
import TinySandbox.Construction.S3.Paths
import TinySandbox.Library.Serving

namespace TinySandbox.S3
open Library

section Pages
variable {server : Type} (respond : server → (request : Request) → Option (Response request × server))

/-- The service answers with these pages when every token is followed. -/
inductive Pages (request : Option Text → ListRequest) :
    Option Text → server → List ListResult → List Text → server → Prop where
  | last {continuation : Option Text} {before after : server} {page : ListResult}
      (answered : respond before (.list (request continuation)) = some (.ok page, after))
      (whole : page.truncated = false) : Pages request continuation before [page] [] after
  | next {continuation : Option Text} {before middle after : server} {page : ListResult}
      {token : Text} {pages : List ListResult} {tokens : List Text}
      (answered : respond before (.list (request continuation)) = some (.ok page, middle))
      (more : page.truncated = true) (named : page.nextContinuation = some token)
      (filled : token ≠ []) (rest : Pages request (some token) middle pages tokens after) :
      Pages request continuation before (page :: pages) (token :: tokens) after

end Pages

/-- A page can be empty, and a name can be on many pages. -/
structure Shows (objects : OrderedMap Text StoredObject) (keyPrefix delimiter : Text)
    (pages : List ListResult) : Prop where
  files : ∀ object : ListedObject, object ∈ pages.flatMap ListResult.objects ↔
    ∃ stored, objects.get object.key = some stored ∧
      BucketState.listEntry keyPrefix delimiter object.key stored.body.length =
        some (object.key, some object.size)
  directories : ∀ name, name ∈ pages.flatMap ListResult.commonPrefixes ↔
    ∃ key stored, objects.get key = some stored ∧
      BucketState.listEntry keyPrefix delimiter key stored.body.length = some (name, none)

/-- A conforming listing ends, and its tokens are distinct. -/
def Conforms {server : Type}
    (respond : server → (request : Request) → Option (Response request × server)) (vfs : S3Vfs)
    (objects : OrderedMap Text StoredObject) (keyPrefix delimiter : Text) (maxKeys : Option Nat)
    (state : server) : Prop :=
  ∃ pages tokens after,
    Pages respond (fun continuation => vfs.listRequest keyPrefix delimiter continuation maxKeys) none
      state pages tokens after ∧
    tokens.Nodup ∧ pages.length ≤ vfs.pageLimit ∧ Shows objects keyPrefix delimiter pages

/-- The service lists the objects with its own pages, and it looks them up. -/
structure BucketServes {server : Type}
    (respond : server → (request : Request) → Option (Response request × server)) (vfs : S3Vfs)
    (objects : OrderedMap Text StoredObject) : Prop where
  lists : ∀ keyPrefix maxKeys state, Conforms respond vfs objects keyPrefix ['/'] maxKeys state
  heads : ∀ key state, ∃ answer after, respond state (.head vfs.bucket key) = some (answer, after) ∧
    match objects.get key with
    | none => answer = .error .missing
    | some stored => ∃ etag, answer = .ok { len := stored.body.length, etag }

/-- Some key goes on behind the name and a slash. -/
def HasBelow (objects : OrderedMap Text StoredObject) (keyPrefix name : Text) : Prop :=
  ∃ rest stored, objects.get (keyPrefix ++ name ++ '/' :: rest) = some stored

/-- The directory wins over an object with the same name. -/
def Shown (objects : OrderedMap Text StoredObject) (keyPrefix name : Text) (metadata : Metadata) :
    Prop :=
  (HasBelow objects keyPrefix name ∧ metadata = { fileType := .directory, len := 0 }) ∨
  (¬ HasBelow objects keyPrefix name ∧ ∃ stored, objects.get (keyPrefix ++ name) = some stored ∧
    metadata = { fileType := .file, len := stored.body.length })

/-- A directory is there with an empty marker or with another key below its prefix. -/
def IsDirectory (objects : OrderedMap Text StoredObject) (keyPrefix : Text) : Prop :=
  ∃ relative stored, objects.get (keyPrefix ++ relative) = some stored ∧
    (relative = [] → stored.body = [])

/-- The listing has the valid names in their order. -/
structure Lists (objects : OrderedMap Text StoredObject) (keyPrefix : Text) (root : Bool)
    (listing : DirectoryListing) : Prop where
  sorted : listing.entries.Pairwise fun first second => first.name < second.name
  mem : ∀ entry, entry ∈ listing.entries ↔
    ValidName entry.name ∧ Shown objects keyPrefix entry.name entry.metadata
  isThere : listing.exists = true ↔ root = true ∨ IsDirectory objects keyPrefix

/-- The only key behind the name and a slash is an object that is no empty marker. -/
def LoneObject (objects : OrderedMap Text StoredObject) (keyPrefix name : Text) : Prop :=
  (∃ stored, objects.get (keyPrefix ++ name ++ ['/']) = some stored ∧ stored.body ≠ []) ∧
    ∀ rest, rest ≠ [] → objects.get (keyPrefix ++ name ++ '/' :: rest) = none

/-- The token that a page names. -/
def eventToken : S3Event → Option Text
  | ⟨.list _, .ok page⟩ => page.nextContinuation
  | _ => none

/-- Every truncated page names a token that is neither empty nor used before. -/
def Fresh : List Text → List S3Event → Prop
  | _, [] => True
  | seen, ⟨.list _, .ok page⟩ :: rest =>
      if page.truncated then
        ∃ token, page.nextContinuation = some token ∧ token ≠ [] ∧ token ∉ seen ∧
          Fresh (token :: seen) rest
      else Fresh seen rest
  | seen, _ :: rest => Fresh seen rest

end TinySandbox.S3
