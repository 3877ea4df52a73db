/-
This file gives the operations of the in-memory filesystem.
Each operation changes the state in the order of the source, also before a later failure.
-/

import TinySandbox.Construction.Mem.State

namespace TinySandbox.Mem
open Library Library.Call

def ensureEntrySlot (quota : VfsQuota) (state : State) : VfsResult Unit :=
  if quota.maxFiles.toNat ≤ state.fileCount then .error .ENOSPC else .ok ()

def resizeFile (quota : VfsQuota) (arcs : Arcs) (inode : Inode) (newLen : Nat) : MemCall Unit := do
  let state ← get
  let file ← lift (okOr .ENOENT (state.files.get inode))
  refuse (quota.maxFileSize.toNat < newLen) .ENOSPC
  let adjusted ← orPanic (adjustedUsedBytes state.usedBytes file.data.bytes.length newLen)
  let usedBytes ← lift adjusted
  refuse (quota.maxBytes.toNat < usedBytes) .ENOSPC
  let data ← orPanic (resizeData arcs file.data newLen)
  set { state with files := state.files.insert inode { file with data }, usedBytes }

def releaseFileIfUnreferenced (inode : Inode) : MemCall Unit := do
  let state ← get
  match state.files.get inode with
  | none => pure ()
  | some file =>
      if 0 < file.links ∨ 0 < file.openHandles then pure ()
      else do
        let usedBytes ← orPanic (subU64 state.usedBytes file.data.bytes.length)
        let fileCount ← orPanic (subU64 state.fileCount 1)
        set { state with files := state.files.erase inode, usedBytes, fileCount }

mutual
def removeTree : Node → MemCall Unit
  | .file inode => do
      let state ← get
      let file ← lift (okOr .ENOENT (state.files.get inode))
      let links ← orPanic (subU64 file.links 1)
      set { state with files := state.files.insert inode { file with links } }
      releaseFileIfUnreferenced inode
  | .directory entries => do
      removeTrees entries
      let state ← get
      let fileCount ← orPanic (subU64 state.fileCount 1)
      set { state with fileCount }
def removeTrees : Directory → MemCall Unit
  | [] => pure ()
  | (_, child) :: rest => do
      removeTree child
      removeTrees rest
end

def stat (path : Text) : MemCall Metadata := do
  let path ← lift (normalizePath path)
  let state ← get
  let node ← lift (getNode state.root path)
  lift (metadataForNode state node)

/-- The listing keeps the order of the stored names. -/
def dirEntries (state : State) : Directory → VfsResult (List DirEntry)
  | [] => .ok []
  | (name, node) :: rest =>
      match metadataForNode state node with
      | .error error => .error error
      | .ok metadata =>
          match dirEntries state rest with
          | .error error => .error error
          | .ok listed => .ok ({ name, metadata } :: listed)

def readdir (path : Text) : MemCall (List DirEntry) := do
  let path ← lift (normalizePath path)
  let state ← get
  let node ← lift (getNode state.root path)
  match node with
  | .file _ => throw .ENOTDIR
  | .directory entries => lift (dirEntries state entries)

/-- A new directory needs a path that names nothing yet. -/
def expectMissing : VfsResult Node → VfsResult Unit
  | .ok _ => .error .EEXIST
  | .error .ENOENT => .ok ()
  | .error error => .error error

def mkdir (quota : VfsQuota) (path : Text) : MemCall Unit := do
  let path ← lift (normalizePath path)
  refuse (path = []) .EEXIST
  let state ← get
  lift (expectMissing (getNode state.root path))
  lift (ensureParentIsDir state.root path)
  lift (ensureEntrySlot quota state)
  let (parent, name, back) ← lift (parentDirMut state.root path)
  let fileCount ← orPanic (addU64 state.fileCount 1)
  set { state with root := back (Entries.insert name (.directory []) parent), fileCount }

/-- A rename replaces a file by a file or an empty directory by a directory. -/
def checkTarget (sourceKind : NodeKind) : VfsResult Node → VfsResult Unit
  | .ok (.file _) =>
      match sourceKind with
      | .file => .ok ()
      | .directory => .error .ENOTDIR
  | .ok (.directory entries) =>
      match sourceKind with
      | .file => .error .EISDIR
      | .directory => if entries ≠ [] then .error .ENOTEMPTY else .ok ()
  | .error .ENOENT => .ok ()
  | .error error => .error error

/-- Only a move to a deeper place can push a descendant below the depth limit. -/
def checkDepth (root : Node) (sourceKind : NodeKind) (source target : Path) : VfsResult Unit :=
  if sourceKind = .directory ∧ source.length < target.length then
    match getNode root source with
    | .error error => .error error
    | .ok node =>
        if subtreeFits node (maxPathDepth - target.length) then .ok () else .error .EINVAL
  else .ok ()

/-- The source leaves its parent before the target parent is borrowed. -/
def moveNode (source target : Path) : MemCall Unit := do
  let state ← get
  let (parent, name, back) ← lift (parentDirMut state.root source)
  let removed ← lift (okOr .ENOENT (Entries.get name parent))
  set { state with root := back (Entries.erase name parent) }
  let state ← get
  let (parent, name, back) ← lift (parentDirMut state.root target)
  set { state with root := back (Entries.insert name removed parent) }
  match Entries.get name parent with
  | some replaced => removeTree replaced
  | none => pure ()

def rename (source target : Text) : MemCall Unit := do
  let source ← lift (normalizePath source)
  let target ← lift (normalizePath target)
  refuse (source = [] ∨ target = []) .EINVAL
  let state ← get
  let node ← lift (getNode state.root source)
  if source = target then pure ()
  else do
    refuse (nodeKind node = .directory ∧ hasPrefix target source) .EINVAL
    lift (ensureParentIsDir state.root target)
    lift (checkTarget (nodeKind node) (getNode state.root target))
    lift (checkDepth state.root (nodeKind node) source target)
    moveNode source target

/-- The entry must be a file. -/
def expectFile : Option Node → VfsResult Unit
  | some (.file _) => .ok ()
  | some (.directory _) => .error .EISDIR
  | none => .error .ENOENT

/-- The entry must be an empty directory. -/
def expectEmptyDirectory : Option Node → VfsResult Unit
  | some (.file _) => .error .ENOTDIR
  | some (.directory entries) => if entries ≠ [] then .error .ENOTEMPTY else .ok ()
  | none => .error .ENOENT

/-- The checked entry leaves its parent and then gives up what it held. -/
def removeEntry (check : Option Node → VfsResult Unit) (path : Path) : MemCall Unit := do
  let state ← get
  let (parent, name, back) ← lift (parentDirMut state.root path)
  lift (check (Entries.get name parent))
  let removed ← lift (okOr .ENOENT (Entries.get name parent))
  set { state with root := back (Entries.erase name parent) }
  removeTree removed

def unlink (path : Text) : MemCall Unit := do
  let path ← lift (normalizePath path)
  refuse (path = []) .EISDIR
  removeEntry expectFile path

def rmdir (path : Text) : MemCall Unit := do
  let path ← lift (normalizePath path)
  refuse (path = []) .EBUSY
  removeEntry expectEmptyDirectory path

/-- A created file starts empty with one link. -/
def createFile (quota : VfsQuota) (arcs : Arcs) (path : Path) : MemCall Inode := do
  let state ← get
  lift (ensureParentIsDir state.root path)
  lift (ensureEntrySlot quota state)
  let inode := state.nextInode
  let nextInode ← orPanic (addU64 state.nextInode 1)
  let file : FileNode := { data := { addr := arcs.fresh, bytes := [] }, links := 1, openHandles := 0 }
  set { state with nextInode, files := state.files.insert inode file }
  let state ← get
  let (parent, name, back) ← lift (parentDirMut state.root path)
  let fileCount ← orPanic (addU64 state.fileCount 1)
  set { state with root := back (Entries.insert name (.file inode) parent), fileCount }
  pure inode

/-- The open finds, truncates, or creates the file that the handle will name. -/
def openInode (quota : VfsQuota) (arcs : Arcs) (path : Path) (mode : OpenMode) : MemCall Inode := do
  let state ← get
  match getNode state.root path with
  | .ok (.directory _) => throw .EISDIR
  | .ok (.file inode) =>
      if mode.createNew then throw .EEXIST
      else if mode.truncate then do
        resizeFile quota arcs inode 0
        pure inode
      else pure inode
  | .error error =>
      if error = .ENOENT ∧ (mode.create ∨ mode.createNew) then createFile quota arcs path
      else throw error

/-- The open mints one handle on the inode. -/
def insertHandle (inode : Inode) (mode : OpenMode) : MemCall Nat := do
  let state ← get
  let handle := state.nextHandle
  let nextHandle ← orPanic (addU64 state.nextHandle 1)
  let opened : Handle :=
    { inode, readable := mode.read, writable := mode.write, append := mode.append }
  set { state with nextHandle, handles := state.handles.insert handle opened }
  let state ← get
  let file ← lift (okOr .ENOENT (state.files.get inode))
  let openHandles ← orPanic (addU64 file.openHandles 1)
  set { state with files := state.files.insert inode { file with openHandles } }
  pure handle

def «open» (quota : VfsQuota) (arcs : Arcs) (path : Text) (mode : OpenMode) : MemCall Nat := do
  lift mode.validate
  let path ← lift (normalizePath path)
  let inode ← openInode quota arcs path mode
  insertHandle inode mode

/-- The result holds the bytes that the read copies into the buffer of length `bufLen`. -/
def readAt (handle offset bufLen : Nat) : MemCall Bytes := do
  let offset ← lift (okOr .EINVAL (usizeTryFrom offset))
  let state ← get
  let handle ← lift (okOr .EBADF (state.handles.get handle))
  refuse (¬ handle.readable) .EBADF
  let file ← lift (okOr .ENOENT (state.files.get handle.inode))
  let data := file.data.bytes
  if data.length ≤ offset then pure []
  else pure ((data.drop offset).take (min (data.length - offset) bufLen))

def writeAt (quota : VfsQuota) (arcs : Arcs) (handle offset : Nat) (data : Bytes) :
    MemCall Nat := do
  let state ← get
  let handle ← lift (okOr .EBADF (state.handles.get handle))
  refuse (¬ handle.writable) .EBADF
  if data = [] then pure 0
  else do
    let offset ← lift (okOr .EINVAL (usizeTryFrom offset))
    let file ← lift (okOr .ENOENT (state.files.get handle.inode))
    let oldLen := file.data.bytes.length
    let writeOffset := if handle.append then oldLen else offset
    let writeEnd ← lift (okOr .EINVAL (checkedAdd writeOffset data.length))
    resizeFile quota arcs handle.inode (max oldLen writeEnd)
    let state ← get
    let file ← lift (okOr .ENOENT (state.files.get handle.inode))
    let written : Arc :=
      { addr := arcs.next.makeMut file.data.addr
        bytes := copyFromSlice file.data.bytes writeOffset data }
    set { state with files := state.files.insert handle.inode { file with data := written } }
    pure data.length

def truncate (quota : VfsQuota) (arcs : Arcs) (handle len : Nat) : MemCall Unit := do
  let len ← lift (okOr .ENOSPC (usizeTryFrom len))
  let state ← get
  let handle ← lift (okOr .EBADF (state.handles.get handle))
  refuse (¬ handle.writable) .EINVAL
  resizeFile quota arcs handle.inode len

def close (handle : Nat) : MemCall Unit := do
  let state ← get
  let closed ← lift (okOr .EBADF (state.handles.get handle))
  set { state with handles := state.handles.erase handle }
  let state ← get
  let file ← lift (okOr .ENOENT (state.files.get closed.inode))
  let openHandles ← orPanic (subU64 file.openHandles 1)
  set { state with files := state.files.insert closed.inode { file with openHandles } }
  releaseFileIfUnreferenced closed.inode

/-- The walk collects the files below a node, their bytes, and the entry count. -/
structure Collected where
  files : OrderedMap Inode FileNode
  usedBytes : Nat
  fileCount : Nat

mutual
def collectSnapshotEntries (stateFiles : OrderedMap Inode FileNode) :
    Node → Collected → VfsResult Collected
  | .file inode, collected => do
      let file ← okOr .ENOENT (stateFiles.get inode)
      let usedBytes ← okOr .ENOSPC (checkedAdd collected.usedBytes file.data.bytes.length)
      let fileCount ← okOr .ENOSPC (checkedAdd collected.fileCount 1)
      let stored : FileNode := { data := file.data, links := 1, openHandles := 0 }
      .ok { files := collected.files.insert inode stored, usedBytes, fileCount }
  | .directory entries, collected => collectSnapshotChildren stateFiles entries collected
def collectSnapshotChildren (stateFiles : OrderedMap Inode FileNode) :
    Directory → Collected → VfsResult Collected
  | [], collected => .ok collected
  | (_, child) :: rest, collected => do
      let fileCount ← okOr .ENOSPC
        (checkedAdd collected.fileCount (if nodeKind child = .directory then 1 else 0))
      let reached ← collectSnapshotEntries stateFiles child { collected with fileCount }
      collectSnapshotChildren stateFiles rest reached
end

def SnapshotState.fromState (state : State) : VfsResult SnapshotState := do
  let collected ← collectSnapshotEntries state.files state.root
    { files := ∅, usedBytes := 0, fileCount := 0 }
  .ok { root := state.root
        files := collected.files
        nextInode := state.nextInode
        usedBytes := collected.usedBytes
        fileCount := collected.fileCount }

def State.fromSnapshot (snapshot : SnapshotState) (nextHandle : Nat) : State where
  root := snapshot.root
  files := snapshot.files
  nextInode := snapshot.nextInode
  nextHandle := nextHandle
  handles := ∅
  usedBytes := snapshot.usedBytes
  fileCount := snapshot.fileCount

def ensureSnapshotFitsQuota (snapshot : SnapshotState) (quota : VfsQuota) : VfsResult Unit :=
  if quota.maxBytes.toNat < snapshot.usedBytes ∨ quota.maxFiles.toNat < snapshot.fileCount then
    .error .ENOSPC
  else if ∃ entry ∈ snapshot.files.entries, quota.maxFileSize.toNat < entry.2.data.bytes.length then
    .error .ENOSPC
  else .ok ()

def restore (quota : VfsQuota) (snapshot : SnapshotState) : MemCall Unit := do
  lift (ensureSnapshotFitsQuota snapshot quota)
  let state ← get
  set (State.fromSnapshot snapshot state.nextHandle)

/-- A branch keeps the quota and starts its own handle numbers. -/
def branch (quota : VfsQuota) (snapshot : SnapshotState) : VfsResult State := do
  ensureSnapshotFitsQuota snapshot quota
  .ok (State.fromSnapshot snapshot 1)

end TinySandbox.Mem
