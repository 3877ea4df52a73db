/-
This file gives the filesystem that works on a directory of the host.
Nothing else changes the directory while a call runs.
-/

import TinySandbox.Construction.Local.Host
import TinySandbox.Construction.Mem.World

namespace TinySandbox.Local
open Library Library.Call
open Mem (VfsQuota VfsCall Reply)

structure HandleState where
  key : FileKey
  readable : Bool
  writable : Bool
  append : Bool
  deriving DecidableEq

structure OpenFileState where
  openHandles : Nat := 0
  unlinked : Bool := false
  deriving DecidableEq

structure State where
  host : Host
  handles : OrderedMap Nat HandleState
  openFiles : OrderedMap FileKey OpenFileState
  nextHandle : Nat
  usedBytes : Nat
  fileCount : Nat

abbrev LocalCall := Call Errno State

/-- The metadata of an entry. Only the key and the length of a file are used. -/
inductive EntryMetadata where
  | file (key : FileKey) (len : Nat)
  | directory
  | other
  deriving DecidableEq

structure Resolved where
  parent : Path
  name : Name
  components : Path
  deriving DecidableEq

structure VfsStats where
  usedBytes : Nat
  fileCount : Nat
  deriving DecidableEq

/-! ## Paths -/

/-- Symbolic links are not followed, and a missing entry is no error. -/
def lookup (posix : Posix) (host : Host) (dir : Path) (name : Name) :
    VfsResult (Option EntryMetadata) :=
  if ¬ posix.accepts name then .error (ioError .other)
  else
    .ok ((host.find dir name).map fun node =>
      match node with
      | .directory _ => .directory
      | .file (.regular key) => .file key (host.len key)
      | .file .special => .other)

/-- A link is reported as `ELOOP` by some hosts and as `ENOTDIR` by others. -/
def openDirectory (posix : Posix) (host : Host) (dir : Path) (name : Name) : VfsResult Path :=
  match host.openDirectoryAt posix dir name with
  | .ok child => .ok child
  | .error error =>
      if error = .ENOTDIR ∨ error = .ELOOP then
        match lookup posix host dir name with
        | .error error => .error error
        | .ok (some (.file _ _)) => .error .ENOTDIR
        | .ok _ => .error .ENOENT
      else .error (ioError error)

/-- Each ancestor is opened in its parent. -/
def resolve (posix : Posix) (host : Host) (path : Text) : VfsResult Resolved := do
  let components ← normalizePath path
  let parent ← components.dropLast.foldlM (openDirectory posix host) []
  .ok { parent, name := components.getLast?.getD ['.'], components }

def Resolved.isRoot (resolved : Resolved) : Bool := resolved.components = []

def Resolved.lookup (posix : Posix) (host : Host) (resolved : Resolved) :
    VfsResult (Option EntryMetadata) :=
  Local.lookup posix host resolved.parent resolved.name

/-- The walk stops at the first entry below the allowance, and it skips special files. -/
def deeperThan : Nat → HostDirectory → Bool
  | 0, entries => entries.any fun entry =>
      match entry.2 with
      | .file .special => false
      | _ => true
  | allowance + 1, entries => entries.any fun entry =>
      match entry.2 with
      | .directory children => deeperThan allowance children
      | .file _ => false

def subtreeDeeperThan (host : Host) (dir : Path) (allowance : Nat) : Except OsError Bool :=
  (host.entriesOf dir).map (deeperThan allowance)

/-! ## The quota -/

def ensureEntrySlot (quota : VfsQuota) (state : State) : VfsResult Unit :=
  if quota.maxFiles.toNat ≤ state.fileCount then .error .ENOSPC else .ok ()

/-- The result is the total usage when a file changes its length. -/
def resizedUsage (quota : VfsQuota) (usedBytes oldLen newLen : Nat) : VfsResult Nat :=
  if quota.maxFileSize.toNat < newLen then .error .ENOSPC
  else
    match if oldLen ≤ newLen then checkedAdd usedBytes (newLen - oldLen)
      else some (usedBytes - (oldLen - newLen)) with
    | none => .error .ENOSPC
    | some usedBytes =>
        if quota.maxBytes.toNat < usedBytes then .error .ENOSPC else .ok usedBytes

/-- A removed entry waits for the last handle when a handle keeps the file open. -/
def releaseEntry (key : FileKey) (len : Nat) (state : State) : State :=
  match state.openFiles.get key with
  | some openFile =>
      { state with openFiles := state.openFiles.insert key { openFile with unlinked := true } }
  | none =>
      { state with usedBytes := state.usedBytes - len, fileCount := state.fileCount - 1 }

def setUsage (usage : VfsStats) (state : State) : State :=
  { state with usedBytes := usage.usedBytes, fileCount := usage.fileCount }

/-- The host acts on the directory, and its error is translated. -/
def onHost (action : Host → Except OsError Host) : LocalCall Unit := do
  let state ← get
  let host ← lift (osResult (action state.host))
  set { state with host }

/-! ## The operations on paths -/

def stat (posix : Posix) (path : Text) : LocalCall Metadata := do
  let state ← get
  let resolved ← lift (resolve posix state.host path)
  let found ← lift (resolved.lookup posix state.host)
  match found with
  | some (.file _ len) => pure { fileType := .file, len }
  | some .directory => pure { fileType := .directory, len := 0 }
  | some .other => throw .ENOENT
  | none => throw .ENOENT

def metadataFrom : EntryMetadata → Option Metadata
  | .file _ len => some { fileType := .file, len }
  | .directory => some { fileType := .directory, len := 0 }
  | .other => none

/-- Names that the interface cannot express are left out, and so are special files. -/
def listEntries (posix : Posix) (host : Host) (dir : Path) :
    HostDirectory → VfsResult (List DirEntry)
  | [] => .ok []
  | (name, _) :: rest =>
      if posix.isUtf8 name = false ∨ name = ['.'] ∨ name = ['.', '.'] then
        listEntries posix host dir rest
      else
        match lookup posix host dir name with
        | .error error => .error error
        | .ok found =>
            match listEntries posix host dir rest with
            | .error error => .error error
            | .ok listed =>
                match found.bind metadataFrom with
                | none => .ok listed
                | some metadata => .ok ({ name, metadata } :: listed)

def readdir (posix : Posix) (path : Text) : LocalCall (List DirEntry) := do
  let state ← get
  let resolved ← lift (resolve posix state.host path)
  let dir ← lift (openDirectory posix state.host resolved.parent resolved.name)
  let given ← lift (osResult (state.host.entriesOf dir))
  let entries ← lift (listEntries posix state.host dir (posix.order given))
  pure (entries.mergeSort fun first second => decide (first.name ≤ second.name))

def mkdir (posix : Posix) (quota : VfsQuota) (path : Text) : LocalCall Unit := do
  let state ← get
  let resolved ← lift (resolve posix state.host path)
  refuse resolved.isRoot .EEXIST
  let found ← lift (resolved.lookup posix state.host)
  refuse (found ≠ none) .EEXIST
  lift (ensureEntrySlot quota state)
  onHost fun host => host.mkdirat resolved.parent resolved.name
  let state ← get
  set { state with fileCount := state.fileCount + 1 }

/-- A special file counts as absent. -/
def sourceKind : Option EntryMetadata → VfsResult FileType
  | some (.file _ _) => .ok .file
  | some .directory => .ok .directory
  | some .other => .error .ENOENT
  | none => .error .ENOENT

/-- Only a move to a deeper place can push an entry below the depth limit. -/
def checkDepth (posix : Posix) (host : Host) (kind : FileType) (source target : Resolved) :
    VfsResult Unit :=
  if kind = .directory ∧ source.components.length < target.components.length then do
    let dir ← openDirectory posix host source.parent source.name
    let deeper ← osResult
      (subtreeDeeperThan host dir (maxPathDepth - target.components.length))
    if deeper then .error .EINVAL else .ok ()
  else .ok ()

/-- POSIX allows either code for a directory that is not empty. -/
def notEmptyError (error : Errno) : Errno := if error = .EEXIST then .ENOTEMPTY else error

def releaseTarget : Option EntryMetadata → State → State
  | some (.file key len), state => releaseEntry key len state
  | some .directory, state => { state with fileCount := state.fileCount - 1 }
  | some .other, state => state
  | none, state => state

def rename (posix : Posix) (source target : Text) : LocalCall Unit := do
  let state ← get
  let source ← lift (resolve posix state.host source)
  let target ← lift (resolve posix state.host target)
  refuse (source.isRoot || target.isRoot) .EINVAL
  let found ← lift (source.lookup posix state.host)
  let kind ← lift (sourceKind found)
  if source.components = target.components then pure ()
  else do
    refuse (kind = .directory ∧ source.components <+: target.components) .EINVAL
    lift (checkDepth posix state.host kind source target)
    let replaced ← lift (target.lookup posix state.host)
    let host ← lift ((osResult (state.host.renameat posix source.parent source.name target.parent
      target.name)).mapError notEmptyError)
    set (releaseTarget replaced { state with host })

def unlink (posix : Posix) (path : Text) : LocalCall Unit := do
  let state ← get
  let resolved ← lift (resolve posix state.host path)
  refuse resolved.isRoot .EISDIR
  let found ← lift (resolved.lookup posix state.host)
  match found with
  | none => throw .ENOENT
  | some .other => throw .ENOENT
  | some .directory => throw .EISDIR
  | some (.file key len) => do
      onHost fun host => host.unlinkat resolved.parent resolved.name
      let state ← get
      set (releaseEntry key len state)

def rmdir (posix : Posix) (path : Text) : LocalCall Unit := do
  let state ← get
  let resolved ← lift (resolve posix state.host path)
  refuse resolved.isRoot .EBUSY
  let found ← lift (resolved.lookup posix state.host)
  match found with
  | none => throw .ENOENT
  | some .other => throw .ENOENT
  | some (.file _ _) => throw .ENOTDIR
  | some .directory => do
      let host ← lift ((osResult (state.host.rmdirat posix resolved.parent resolved.name)).mapError
        notEmptyError)
      set { state with host, fileCount := state.fileCount - 1 }

/-! ## The operations on handles -/

/-- These files are still used by a name or by a handle. -/
def State.usedKeys (state : State) : List FileKey :=
  state.host.namedKeys ++ state.handles.entries.map fun entry => entry.2.key

/-- The file of an open, and whether it is new. -/
def openFile (posix : Posix) (quota : VfsQuota) (resolved : Resolved) (mode : OpenMode) :
    LocalCall (FileKey × Bool) := do
  let state ← get
  let found ← lift (resolved.lookup posix state.host)
  match found with
  | some .directory => throw .EISDIR
  | some .other => throw .EACCES
  | some (.file _ _) => do
      refuse mode.createNew .EEXIST
      let opened ← lift (osResult (state.host.openat resolved.parent resolved.name mode.write))
      match opened with
      | some key => pure (key, false)
      | none => throw .EACCES
  | none => do
      refuse (¬ (mode.create ∨ mode.createNew)) .ENOENT
      lift (ensureEntrySlot quota state)
      let (key, host) ← lift (osResult
        (state.host.createat posix state.usedKeys resolved.parent resolved.name))
      set { state with host }
      pure (key, true)

def «open» (posix : Posix) (quota : VfsQuota) (path : Text) (mode : OpenMode) : LocalCall Nat := do
  lift mode.validate
  let state ← get
  let resolved ← lift (resolve posix state.host path)
  let (key, creating) ← openFile posix quota resolved mode
  let state ← get
  let len := state.host.len key
  if mode.truncate then do
    let (result, host) := state.host.setLenAt posix key 0
    lift (osResult result)
    set { state with host, usedBytes := state.usedBytes - len }
  let state ← get
  let handle := state.nextHandle
  let openFile := (state.openFiles.get key).getD {}
  set { state with
    fileCount := if creating then state.fileCount + 1 else state.fileCount
    nextHandle := handle + 1
    openFiles := state.openFiles.insert key
      { openFile with openHandles := openFile.openHandles + 1 }
    handles := state.handles.insert handle
      { key, readable := mode.read, writable := mode.write, append := mode.append } }
  pure handle

/-- The host is asked again until the buffer is full or nothing is left to read. -/
def readLoop (posix : Posix) (host : Host) (key : FileKey) (offset bufLen : Nat) (bytes : Bytes) :
    VfsResult Bytes :=
  if bytes.length < bufLen then
    match checkedAdd offset bytes.length with
    | none => .error .EINVAL
    | some position =>
        match host.readAt posix key position (bufLen - bytes.length) with
        | [] => .ok bytes
        | first :: rest => readLoop posix host key offset bufLen (bytes ++ first :: rest)
  else .ok bytes
termination_by bufLen - bytes.length
decreasing_by
  simp only [List.length_append, List.length_cons]
  omega

/-- The result holds the bytes that the read copies into the buffer of length `bufLen`. -/
def readAt (posix : Posix) (handle offset bufLen : Nat) : LocalCall Bytes := do
  let state ← get
  let handle ← lift (okOr .EBADF (state.handles.get handle))
  refuse (¬ handle.readable) .EBADF
  lift (readLoop posix state.host handle.key offset bufLen [])

/-- The usage follows what a partial write left on the disk. -/
def resync (usedBytes oldLen actualLen : Nat) : Nat := min (usedBytes - oldLen + actualLen) u64Max

def writeAt (posix : Posix) (quota : VfsQuota) (handle offset : Nat) (data : Bytes) :
    LocalCall Nat := do
  let state ← get
  let handle ← lift (okOr .EBADF (state.handles.get handle))
  refuse (¬ handle.writable) .EBADF
  if data = [] then pure 0
  else do
    let oldLen := state.host.len handle.key
    let writeOffset := if handle.append then oldLen else offset
    let writeEnd ← lift (okOr .EINVAL (checkedAdd writeOffset data.length))
    let usedBytes ← lift (resizedUsage quota state.usedBytes oldLen (max oldLen writeEnd))
    let (result, host) := state.host.writeAllAt posix handle.key data writeOffset
    match result with
    | .ok _ => do
        set { state with host, usedBytes }
        pure data.length
    | .error error => do
        set { state with host, usedBytes := resync state.usedBytes oldLen (host.len handle.key) }
        throw (ioError error)

def truncate (posix : Posix) (quota : VfsQuota) (handle len : Nat) : LocalCall Unit := do
  let state ← get
  let handle ← lift (okOr .EBADF (state.handles.get handle))
  refuse (¬ handle.writable) .EINVAL
  let oldLen := state.host.len handle.key
  let usedBytes ← lift (resizedUsage quota state.usedBytes oldLen len)
  let (result, host) := state.host.setLenAt posix handle.key len
  lift (osResult result)
  set { state with host, usedBytes }

/-- The last handle to an unlinked file releases its storage. -/
def close (handle : Nat) : LocalCall Unit := do
  let state ← get
  let handleState ← lift (okOr .EBADF (state.handles.get handle))
  let handles := state.handles.erase handle
  match state.openFiles.get handleState.key with
  | none => set { state with handles }
  | some openFile => do
      let openHandles ← orPanic (subU64 openFile.openHandles 1)
      if 0 < openHandles then
        set { state with
          handles
          openFiles := state.openFiles.insert handleState.key { openFile with openHandles } }
      else do
        let openFiles := state.openFiles.erase handleState.key
        if openFile.unlinked then
          set { state with
            handles
            openFiles
            usedBytes := state.usedBytes - state.host.len handleState.key
            fileCount := state.fileCount - 1 }
        else set { state with handles, openFiles }

/-! ## Usage -/

def saturatingAdd (first second : Nat) : Nat := min (first + second) u64Max

/-- The directories being listed are on a stack, each with the entries it still has to give. A
special file is passed over at any depth. -/
def scan (posix : Posix) (host : Host) : List HostDirectory → VfsStats → Except OsError VfsStats
  | [], usage => .ok usage
  | [] :: stack, usage => scan posix host stack usage
  | ((_, .file .special) :: rest) :: stack, usage => scan posix host (rest :: stack) usage
  | ((_, .file (.regular key)) :: rest) :: stack, usage =>
      if maxPathDepth < stack.length + 1 then .error .other
      else
        scan posix host (rest :: stack)
          { usedBytes := saturatingAdd usage.usedBytes (host.len key)
            fileCount := saturatingAdd usage.fileCount 1 }
  | ((_, .directory children) :: rest) :: stack, usage =>
      if maxPathDepth < stack.length + 1 then .error .other
      else
        scan posix host (posix.order children :: rest :: stack)
          { usage with fileCount := saturatingAdd usage.fileCount 1 }
termination_by stack => sizeOf stack
decreasing_by
  · simp
  · simp
  · simp
  · have same : sizeOf (posix.order children) = sizeOf children :=
      (posix.order_perm children).sizeOf_eq_sizeOf
    simp only [List.cons.sizeOf_spec, Prod.mk.sizeOf_spec, DirectoryTree.directory.sizeOf_spec,
      same]
    omega

def scanTree (posix : Posix) (host : Host) : Except OsError VfsStats := do
  let entries ← host.entriesOf []
  scan posix host [posix.order entries] { usedBytes := 0, fileCount := 0 }

/-- This opens a filesystem on an existing directory. -/
def withQuota (posix : Posix) (host : Host) : Except OsError State := do
  let usage ← scanTree posix host
  pure {
    host
    handles := .empty
    openFiles := .empty
    nextHandle := 1
    usedBytes := usage.usedBytes
    fileCount := usage.fileCount }

def isUnlinked (state : State) (key : FileKey) : Bool :=
  (state.openFiles.get key).any OpenFileState.unlinked

/-- A file without a name counts once, however many handles it has. -/
def countUnlinked (state : State) :
    List HandleState → OrderedMap FileKey Unit → VfsStats → VfsStats
  | [], _, usage => usage
  | handle :: rest, counted, usage =>
      if isUnlinked state handle.key ∧ counted.get handle.key = none then
        countUnlinked state rest (counted.insert handle.key ())
          { usedBytes := saturatingAdd usage.usedBytes (state.host.len handle.key)
            fileCount := usage.fileCount + 1 }
      else countUnlinked state rest counted usage

/-- The directory is scanned again, and the result replaces the usage. -/
def refresh (posix : Posix) : LocalCall VfsStats := do
  let state ← get
  let scanned ← lift (osResult (scanTree posix state.host))
  let usage := countUnlinked state (state.handles.entries.map Prod.snd) .empty scanned
  set (setUsage usage state)
  pure usage

/-! ## Runs -/

/-- `abort` is not overridden, so it closes the handle. -/
def run (posix : Posix) (quota : VfsQuota) : VfsCall → LocalCall Reply
  | .stat path => .metadata <$> stat posix path
  | .readdir path => .entries <$> readdir posix path
  | .mkdir path => (fun _ => .unit) <$> mkdir posix quota path
  | .rename source target => (fun _ => .unit) <$> rename posix source target
  | .unlink path => (fun _ => .unit) <$> unlink posix path
  | .rmdir path => (fun _ => .unit) <$> rmdir posix path
  | .open path mode => .handle <$> «open» posix quota path mode
  | .readAt handle offset bufLen => .data <$> readAt posix handle offset bufLen
  | .writeAt handle offset data => .count <$> writeAt posix quota handle offset data
  | .truncate handle len => (fun _ => .unit) <$> truncate posix quota handle len
  | .close handle => (fun _ => .unit) <$> close handle
  | .abort handle => (fun _ => .unit) <$> close handle

/-- An open that cuts the file may have made it before. -/
def cutsNew : VfsCall → Bool
  | .open _ mode => mode.truncate && (mode.create || mode.createNew)
  | _ => false

/-- A call ends with a result or an error, or the directory is scanned again. The host may choose
anew for each step, and it may stop in the middle of a write or refuse to resize a file, but not
one that the call may have made. -/
inductive Step (quota : VfsQuota) : State → State → Prop
  | calls {before after : State} {posix : Posix} {call : VfsCall} {result : VfsResult Reply}
      (resizes : cutsNew call → posix.setLenFails = none)
      (ran : outcome (run posix quota call) before = some (result, after)) :
      Step quota before after
  | refreshes {before after : State} {posix : Posix} {result : VfsResult VfsStats}
      (ran : outcome (refresh posix) before = some (result, after)) : Step quota before after

end TinySandbox.Local
