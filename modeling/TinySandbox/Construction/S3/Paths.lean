/-
This file gives the operations of the S3 backend that name a path.
A directory is a common prefix of keys or an empty marker object whose key ends in a slash.
-/

import TinySandbox.Construction.S3.Staging

namespace TinySandbox.S3
open Library Library.Task

def stripPrefix (start text : Text) : Option Text :=
  if start <+: text then some (text.drop start.length) else none

def stripSuffix (symbol : Char) (text : Text) : Option Text :=
  if text.getLast? = some symbol then some text.dropLast else none

/-- The part of a directory that the pages so far have shown. -/
structure Scan where
  continuation : Option Text
  seenTokens : List Text
  entries : OrderedMap Text Metadata
  «exists» : Bool

def Scan.new («exists» : Bool) : Scan where
  continuation := none
  seenTokens := []
  entries := ∅
  «exists» := «exists»

/-- An object adds a file entry, unless the name is already taken. -/
def Scan.addObject (keyPrefix : Text) (scan : Scan) (object : ListedObject) : Scan :=
  match stripPrefix keyPrefix object.key with
  | none => scan
  | some relative =>
      if relative = [] then { scan with «exists» := scan.exists || object.size = 0 }
      else if validEntryName relative ∧ scan.entries.get relative = none then
        { scan with
          «exists» := true
          entries := scan.entries.insert relative { fileType := .file, len := object.size } }
      else { scan with «exists» := true }

/-- A common prefix adds a directory entry, also in place of a file. -/
def Scan.addCommonPrefix (keyPrefix : Text) (scan : Scan) (commonPrefix : Text) : Scan :=
  match (stripPrefix keyPrefix commonPrefix).bind (stripSuffix '/') with
  | none => scan
  | some name =>
      if validEntryName name then
        { scan with
          «exists» := true
          entries := scan.entries.insert name { fileType := .directory, len := 0 } }
      else { scan with «exists» := true }

def Scan.addPage (keyPrefix : Text) (scan : Scan) (page : ListResult) : Scan :=
  page.commonPrefixes.foldl (Scan.addCommonPrefix keyPrefix)
    (page.objects.foldl (Scan.addObject keyPrefix) scan)

def Scan.listing (scan : Scan) : DirectoryListing where
  «exists» := scan.exists
  entries := scan.entries.entries.map fun entry => { name := entry.1, metadata := entry.2 }

def Scan.follow (scan : Scan) (token : Text) : Scan :=
  { scan with continuation := some token, seenTokens := token :: scan.seenTokens }

/-- A truncated page must name a token that is neither empty nor used before. -/
def nextToken (page : ListResult) (seenTokens : List Text) : VfsResult Text :=
  match page.nextContinuation with
  | none => .error Errno.EIO
  | some token => if token = [] ∨ token ∈ seenTokens then .error Errno.EIO else .ok token

namespace S3Vfs

def listRequest (vfs : S3Vfs) (keyPrefix delimiter : Text) (continuation : Option Text)
    (maxKeys : Option Nat) : ListRequest where
  bucket := vfs.bucket
  keyPrefix := keyPrefix
  delimiter := delimiter
  continuation := continuation
  maxKeys := maxKeys

/-- A probe stops at the first page boundary behind a visible child. -/
def scanLoop (vfs : S3Vfs) (keyPrefix : Text) (probe : Bool) :
    Nat → Scan → Exchange DirectoryListing
  | 0, _ => diverge
  | fuel + 1, scan => do
      let page ← send (Request.list (vfs.listRequest keyPrefix ['/'] scan.continuation
        (if probe then some 2 else none)))
      let scan := scan.addPage keyPrefix page
      if ¬ page.truncated then pure scan.listing
      else do
        let next ← lift (nextToken page scan.seenTokens)
        if probe ∧ scan.entries.entries ≠ [] then pure scan.listing
        else scanLoop vfs keyPrefix probe fuel (scan.follow next)

def scanDirectory (vfs : S3Vfs) (components : Path) (probe : Bool) : Exchange DirectoryListing :=
  vfs.scanLoop (vfs.directoryPrefix components) probe vfs.pageLimit
    (Scan.new (components = []))

def listDirectory (vfs : S3Vfs) (components : Path) : Exchange DirectoryListing :=
  vfs.scanDirectory components false

/-- A missing object has no revision. -/
def head (vfs : S3Vfs) (components : Path) : Exchange (Option RemoteFile) := do
  let response ← request (Request.head vfs.bucket (vfs.key components))
  match response with
  | .ok file => pure (some file)
  | .error .missing => pure none
  | .error error => throw error.intoVfs

def kindAt (vfs : S3Vfs) (components : Path) : Exchange (Option Kind) :=
  if components = [] then pure (some (.directory false))
  else do
    let listing ← vfs.scanDirectory components true
    if listing.exists then pure (some (.directory (listing.entries ≠ [])))
    else do
      let file ← vfs.head components
      pure (file.map .file)

/-- A parent must be a directory. -/
def requireDirectory : Option Kind → VfsResult Unit
  | some (.directory _) => .ok ()
  | some (.file _) => .error .ENOTDIR
  | none => .error .ENOENT

def validateEnds (vfs : S3Vfs) (components : Path) : List Nat → Exchange Unit
  | [] => pure ()
  | stop :: rest => do
      let kind ← vfs.kindAt (components.take stop)
      lift (requireDirectory kind)
      validateEnds vfs components rest

def validateParents (vfs : S3Vfs) (components : Path) : Exchange Unit :=
  vfs.validateEnds components (List.range' 1 (components.length - 1))

def recursiveLoop (vfs : S3Vfs) (keyPrefix : Text) :
    Nat → Option Text → List Text → List Text → Exchange (List Text)
  | 0, _, _, _ => diverge
  | fuel + 1, continuation, seenTokens, keys => do
      let page ← send (Request.list (vfs.listRequest keyPrefix [] continuation none))
      let keys := keys ++ (page.objects.map ListedObject.key).filter (keyPrefix <+: ·)
      if ¬ page.truncated then pure keys
      else do
        let next ← lift (nextToken page seenTokens)
        recursiveLoop vfs keyPrefix fuel (some next) (next :: seenTokens) keys

def listRecursive (vfs : S3Vfs) (keyPrefix : Text) : Exchange (List Text) :=
  vfs.recursiveLoop keyPrefix vfs.pageLimit none [] []

/-- A directory that lost its last key gets a marker. -/
def preserveDirectory (vfs : S3Vfs) (components : Path) : Exchange Unit :=
  if components = [] then pure ()
  else do
    let keyPrefix := vfs.directoryPrefix components
    let page ← send (Request.list (vfs.listRequest keyPrefix ['/'] none (some 1)))
    if page.objects ≠ [] ∨ page.commonPrefixes ≠ [] then pure ()
    else vfs.putObject keyPrefix [] .none

def renameFile (vfs : S3Vfs) (source target : Path) (file : RemoteFile) : Exchange Unit := do
  send (Request.copy vfs.bucket (vfs.key source) (vfs.key target)
    (vfs.precondition (.matching file.etag)))
  send (Request.delete vfs.bucket (vfs.key source) (vfs.precondition (.matching file.etag)))

/-- The number of names that a key suffix adds to a path. -/
def suffixDepth (suffix : Text) : Nat := ((suffix.splitOn '/').filter (· ≠ [])).length

/-- Every destination is checked before the first copy. -/
def checkDepths (sourcePrefix : Text) (depth : Nat) : List Text → VfsResult Unit
  | [] => .ok ()
  | key :: rest =>
      match stripPrefix sourcePrefix key with
      | none => .error Errno.EIO
      | some suffix =>
          if maxPathDepth < depth + suffixDepth suffix then .error .EINVAL
          else checkDepths sourcePrefix depth rest

def copyKeys (vfs : S3Vfs) (sourcePrefix targetPrefix : Text) : List Text → Exchange Unit
  | [] => pure ()
  | key :: rest =>
      match stripPrefix sourcePrefix key with
      | none => copyKeys vfs sourcePrefix targetPrefix rest
      | some suffix => do
          send (Request.copy vfs.bucket key (targetPrefix ++ suffix) .none)
          copyKeys vfs sourcePrefix targetPrefix rest

def deleteKeys (vfs : S3Vfs) : List Text → Exchange Unit
  | [] => pure ()
  | key :: rest => do
      send (Request.delete vfs.bucket key .none)
      deleteKeys vfs rest

def renameDirectory (vfs : S3Vfs) (source target : Path) : Exchange Unit := do
  let sourcePrefix := vfs.directoryPrefix source
  let targetPrefix := vfs.directoryPrefix target
  let keys ← vfs.listRecursive sourcePrefix
  lift (checkDepths sourcePrefix target.length keys)
  vfs.copyKeys sourcePrefix targetPrefix keys
  vfs.deleteKeys keys

def stat (vfs : S3Vfs) (path : Text) : Exchange Metadata := do
  let components ← lift (normalizePath path)
  vfs.validateParents components
  let kind ← vfs.kindAt components
  match kind with
  | some (.directory _) => pure { fileType := .directory, len := 0 }
  | some (.file file) => pure { fileType := .file, len := file.len }
  | none => throw .ENOENT

def readdir (vfs : S3Vfs) (path : Text) : Exchange (List DirEntry) := do
  let components ← lift (normalizePath path)
  vfs.validateParents components
  let listing ← vfs.listDirectory components
  if listing.exists then pure listing.entries
  else do
    let file ← vfs.head components
    throw (if file.isSome then .ENOTDIR else .ENOENT)

def mkdir (vfs : S3Vfs) (path : Text) : Exchange Unit := do
  let components ← lift (normalizePath path)
  lift vfs.requireWritable
  refuse (components = []) .EEXIST
  vfs.validateParents components
  let kind ← vfs.kindAt components
  refuse (kind.isSome) .EEXIST
  vfs.putObject (vfs.directoryPrefix components) [] .absent

/-- A rename replaces a file by a file or an empty directory by a directory. -/
def checkTarget : Kind → Option Kind → VfsResult Unit
  | .file _, some (.directory _) => .error .EISDIR
  | .directory _, some (.file _) => .error .ENOTDIR
  | .directory _, some (.directory true) => .error .ENOTEMPTY
  | _, _ => .ok ()

def Kind.isDirectory : Kind → Bool
  | .directory _ => true
  | .file _ => false

def moveKind (vfs : S3Vfs) (source target : Path) : Kind → Exchange Unit
  | .file file => vfs.renameFile source target file
  | .directory _ => do
      refuse (¬ vfs.config.directoryRename) .EXDEV
      vfs.renameDirectory source target

def rename (vfs : S3Vfs) (source target : Text) : Exchange Unit := do
  let source ← lift (normalizePath source)
  let target ← lift (normalizePath target)
  lift vfs.requireWritable
  refuse (source = [] ∨ target = []) .EINVAL
  vfs.validateParents source
  let kind ← vfs.kindAt source
  let kind ← lift (Call.okOr .ENOENT kind)
  if source = target then pure ()
  else do
    refuse (Kind.isDirectory kind ∧ source <+: target) .EINVAL
    vfs.validateParents target
    let existing ← vfs.kindAt target
    lift (checkTarget kind existing)
    vfs.moveKind source target kind
    vfs.preserveDirectory source.dropLast

/-- Only a file can be unlinked. -/
def requireFile : Option Kind → VfsResult RemoteFile
  | some (.directory _) => .error .EISDIR
  | some (.file file) => .ok file
  | none => .error .ENOENT

def unlink (vfs : S3Vfs) (path : Text) : Exchange Unit := do
  let components ← lift (normalizePath path)
  lift vfs.requireWritable
  refuse (components = []) .EISDIR
  vfs.validateParents components
  let kind ← vfs.kindAt components
  let file ← lift (requireFile kind)
  send (Request.delete vfs.bucket (vfs.key components) (vfs.precondition (.matching file.etag)))
  vfs.preserveDirectory components.dropLast

/-- Only an empty directory can be removed. -/
def requireEmpty : Option Kind → VfsResult Unit
  | some (.file _) => .error .ENOTDIR
  | some (.directory true) => .error .ENOTEMPTY
  | some (.directory false) => .ok ()
  | none => .error .ENOENT

/-- A marker that is already missing is no error. -/
def deleteMarker (vfs : S3Vfs) (components : Path) : Exchange Unit := do
  let response ← request (Request.delete vfs.bucket (vfs.directoryPrefix components) .none)
  match response with
  | .ok _ => pure ()
  | .error .missing => pure ()
  | .error error => throw error.intoVfs

def rmdir (vfs : S3Vfs) (path : Text) : Exchange Unit := do
  let components ← lift (normalizePath path)
  lift vfs.requireWritable
  refuse (components = []) .EBUSY
  vfs.validateParents components
  let kind ← vfs.kindAt components
  lift (requireEmpty kind)
  vfs.deleteMarker components
  vfs.preserveDirectory components.dropLast

/-- The object that an open finds, unless the path names a directory. -/
def existingFile : Option Kind → VfsResult (Option RemoteFile)
  | some (.directory _) => .error .EISDIR
  | some (.file file) => .ok (some file)
  | none => .ok none

/-- A buffer that has all its bytes and must be written back. -/
def stagedBuffer (source : Option RemoteFile) (precondition : Precondition) : Staging :=
  .buffer { source := source, precondition := precondition, bytes := some [], dirty := true }

/-- The staging of a handle that cannot write. -/
def readStaging (mode : OpenMode) : Option RemoteFile → VfsResult Staging
  | some file => if mode.createNew then .error .EEXIST else .ok (.remote file)
  | none =>
      if mode.create then .ok (stagedBuffer none (creationPrecondition mode))
      else .error .ENOENT

/-- The staging of a handle that can write. -/
def writeStaging (mode : OpenMode) : Option RemoteFile → VfsResult Staging
  | some file =>
      if mode.createNew then .error .EEXIST
      else if mode.truncate ∧ ¬ mode.read then .ok (.stream (Stream.new (.matching file.etag)))
      else if mode.truncate then .ok (stagedBuffer (some file) (.matching file.etag))
      else
        .ok (.buffer {
          source := some file
          precondition := .matching file.etag
          bytes := none
          dirty := false })
  | none =>
      if ¬ mode.create then .error .ENOENT
      else if mode.read then .ok (stagedBuffer none (creationPrecondition mode))
      else .ok (.stream (Stream.new (creationPrecondition mode)))

def openStaging (mode : OpenMode) (existing : Option RemoteFile) : VfsResult Staging :=
  if mode.write then writeStaging mode existing else readStaging mode existing

/-- The requests of an open, up to the handle it stages. -/
def openHandle (vfs : S3Vfs) (path : Text) (mode : OpenMode) : Exchange HandleState := do
  lift mode.validate
  let components ← lift (normalizePath path)
  lift (if mode.write ∨ mode.create then vfs.requireWritable else .ok ())
  refuse (components = []) .EISDIR
  vfs.validateParents components
  let kind ← vfs.kindAt components
  let existing ← lift (existingFile kind)
  let staging ← lift (openStaging mode existing)
  pure { key := vfs.key components, mode := mode, staging := staging, released := false }

end S3Vfs

end TinySandbox.S3
