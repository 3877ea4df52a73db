/-
This file says what a filesystem is for, without a tree, link counts, or open counts.
A path names a directory or the identity of a file, and a handle names an identity.
An operation returns an errno or a reply with the next filesystem.
One open file is its bytes, a write replaces bytes, and a gap reads as zeros. The missing ones of some
paths may become empty directories.
-/

import TinySandbox.Construction.Mem.World

namespace TinySandbox
open Library Mem
open scoped Classical

noncomputable section

@[ext] structure FlatFs where
  entries : Path → Option (Entry Nat)
  contents : Nat → Option Bytes
  handles : Nat → Option Handle
  nextId : Nat
  nextHandle : Nat

namespace FlatFs

def empty : FlatFs where
  entries := fun path => if path = [] then some .directory else none
  contents := fun _ => none
  handles := fun _ => none
  nextId := 1
  nextHandle := 1

/-- A missing path below a file reports the file, and any other missing path is absent. -/
def resolve (fs : FlatFs) (path : Path) : VfsResult (Entry Nat) :=
  match fs.entries path with
  | some entry => .ok entry
  | none =>
      if ∃ start id, start <+: path ∧ fs.entries start = some (.file id) then .error .ENOTDIR
      else .error .ENOENT

/-- The parent of a new entry must be a directory. -/
def parentDirectory (fs : FlatFs) (path : Path) : VfsResult Unit :=
  match fs.resolve path.dropLast with
  | .error error => .error error
  | .ok (.file _) => .error .ENOTDIR
  | .ok .directory => .ok ()

/-- The children are the names that extend the path by one component. -/
def children (fs : FlatFs) (path : Path) : Set Name :=
  {name | fs.entries (path ++ [name]) ≠ none}

/-- This counts the directories below the root and the stored files. -/
def entryCount (fs : FlatFs) : Nat :=
  {path | path ≠ [] ∧ fs.entries path = some .directory}.ncard +
    {id | fs.contents id ≠ none}.ncard

def byteCount (fs : FlatFs) : Nat := ∑ᶠ id, ((fs.contents id).map List.length).getD 0

/-- An identity is kept while a path names it or a handle holds it. -/
def collect (fs : FlatFs) : FlatFs :=
  { fs with
    contents := fun id =>
      if (∃ path, fs.entries path = some (.file id)) ∨
          (∃ number handle, fs.handles number = some handle ∧ handle.inode = id) then
        fs.contents id
      else none }

def metadata (fs : FlatFs) : Entry Nat → Metadata
  | .file id => { fileType := .file, len := ((fs.contents id).getD []).length }
  | .directory => { fileType := .directory, len := 0 }

def stat (fs : FlatFs) (path : Text) : VfsResult (Metadata × FlatFs) := do
  let path ← normalizePath path
  let entry ← fs.resolve path
  .ok (fs.metadata entry, fs)

/-- The children of a path in the order of their names. -/
def sortedChildren (fs : FlatFs) (path : Path) : List Name :=
  if finite : (fs.children path).Finite then finite.toFinset.sort (· ≤ ·) else []

def dirEntry (fs : FlatFs) (path : Path) (name : Name) : DirEntry where
  name := name
  metadata := fs.metadata ((fs.entries (path ++ [name])).getD .directory)

def readdir (fs : FlatFs) (path : Text) : VfsResult (List DirEntry × FlatFs) := do
  let path ← normalizePath path
  let entry ← fs.resolve path
  match entry with
  | .file _ => .error .ENOTDIR
  | .directory => .ok ((fs.sortedChildren path).map (fs.dirEntry path), fs)

def entrySlot (quota : VfsQuota) (fs : FlatFs) : VfsResult Unit :=
  if quota.maxFiles.toNat ≤ fs.entryCount then .error .ENOSPC else .ok ()

/-- A new directory needs a path that names nothing. -/
def expectMissing (fs : FlatFs) (path : Path) : VfsResult Unit :=
  match fs.resolve path with
  | .ok _ => .error .EEXIST
  | .error .ENOENT => .ok ()
  | .error error => .error error

def mkdir (quota : VfsQuota) (fs : FlatFs) (path : Text) : VfsResult (Unit × FlatFs) := do
  let path ← normalizePath path
  if path = [] then .error .EEXIST else
    fs.expectMissing path
    fs.parentDirectory path
    fs.entrySlot quota
    .ok ((), { fs with entries := Function.update fs.entries path (some .directory) })

/-- A rename replaces a file by a file or an empty directory by a directory. -/
def checkTarget (fs : FlatFs) (source : Entry Nat) (target : Path) : VfsResult Unit :=
  match source, fs.resolve target with
  | .file _, .ok (.file _) => .ok ()
  | .file _, .ok .directory => .error .EISDIR
  | .directory, .ok (.file _) => .error .ENOTDIR
  | .directory, .ok .directory => if fs.children target = ∅ then .ok () else .error .ENOTEMPTY
  | _, .error .ENOENT => .ok ()
  | _, .error error => .error error

/-- No moved path may end up below the depth limit. -/
def TooDeep (fs : FlatFs) (source target : Path) : Prop :=
  ∃ rest, fs.entries (source ++ rest) ≠ none ∧ maxPathDepth < target.length + rest.length

/-- Every path below the source moves below the target with the same identity. -/
def move (fs : FlatFs) (source target : Path) : FlatFs :=
  { fs with
    entries := fun path =>
      if target <+: path then fs.entries (source ++ path.drop target.length)
      else if source <+: path then none
      else fs.entries path }

def rename (fs : FlatFs) (source target : Text) : VfsResult (Unit × FlatFs) := do
  let source ← normalizePath source
  let target ← normalizePath target
  if source = [] ∨ target = [] then .error .EINVAL else
    let entry ← fs.resolve source
    if source = target then .ok ((), fs)
    else if entry = .directory ∧ source <+: target then .error .EINVAL else
      fs.parentDirectory target
      fs.checkTarget entry target
      if entry = .directory ∧ fs.TooDeep source target then .error .EINVAL
      else .ok ((), (fs.move source target).collect)

/-- The path stops naming anything. -/
def forget (fs : FlatFs) (path : Path) : FlatFs :=
  { fs with entries := Function.update fs.entries path none }

def unlink (fs : FlatFs) (path : Text) : VfsResult (Unit × FlatFs) := do
  let path ← normalizePath path
  if path = [] then .error .EISDIR else
    let entry ← fs.resolve path
    match entry with
    | .directory => .error .EISDIR
    | .file _ => .ok ((), (fs.forget path).collect)

def rmdir (fs : FlatFs) (path : Text) : VfsResult (Unit × FlatFs) := do
  let path ← normalizePath path
  if path = [] then .error .EBUSY else
    let entry ← fs.resolve path
    match entry with
    | .file _ => .error .ENOTDIR
    | .directory =>
        if fs.children path = ∅ then .ok ((), fs.forget path) else .error .ENOTEMPTY

/-- The stored bytes of an identity change when the sizes fit the quota. -/
def store (quota : VfsQuota) (fs : FlatFs) (id : Nat) (bytes : Bytes) : VfsResult FlatFs :=
  let next := { fs with contents := Function.update fs.contents id (some bytes) }
  if quota.maxFileSize.toNat < bytes.length then .error .ENOSPC
  else if quota.maxBytes.toNat < next.byteCount then .error .ENOSPC
  else .ok next

/-- The bytes are cut or filled with zeros to the given length. -/
def resized (bytes : Bytes) (len : Nat) : Bytes :=
  bytes.take len ++ List.replicate (len - bytes.length) 0

def create (quota : VfsQuota) (fs : FlatFs) (path : Path) : VfsResult (Nat × FlatFs) := do
  fs.parentDirectory path
  fs.entrySlot quota
  .ok (fs.nextId,
    { fs with
      entries := Function.update fs.entries path (some (.file fs.nextId))
      contents := Function.update fs.contents fs.nextId (some [])
      nextId := fs.nextId + 1 })

/-- The open finds, truncates, or creates the identity that the handle will name. -/
def openId (quota : VfsQuota) (fs : FlatFs) (path : Path) (mode : OpenMode) :
    VfsResult (Nat × FlatFs) :=
  match fs.resolve path with
  | .ok .directory => .error .EISDIR
  | .ok (.file id) =>
      if mode.createNew then .error .EEXIST
      else if mode.truncate then (fs.store quota id []).map fun next => (id, next)
      else .ok (id, fs)
  | .error error =>
      if error = .ENOENT ∧ (mode.create ∨ mode.createNew) then fs.create quota path
      else .error error

def mint (fs : FlatFs) (id : Nat) (mode : OpenMode) : Nat × FlatFs :=
  let handle : Handle :=
    { inode := id, readable := mode.read, writable := mode.write, append := mode.append }
  (fs.nextHandle,
    { fs with
      handles := Function.update fs.handles fs.nextHandle (some handle)
      nextHandle := fs.nextHandle + 1 })

def «open» (quota : VfsQuota) (fs : FlatFs) (path : Text) (mode : OpenMode) :
    VfsResult (Nat × FlatFs) := do
  mode.validate
  let path ← normalizePath path
  let opened ← fs.openId quota path mode
  .ok (opened.2.mint opened.1 mode)

def handle (fs : FlatFs) (number : Nat) : VfsResult Handle := Call.okOr .EBADF (fs.handles number)

def bytes (fs : FlatFs) (handle : Handle) : Bytes := (fs.contents handle.inode).getD []

def readAt (fs : FlatFs) (number offset bufLen : Nat) : VfsResult (Bytes × FlatFs) := do
  let offset ← Call.okOr .EINVAL (usizeTryFrom offset)
  let handle ← fs.handle number
  if ¬ handle.readable then .error .EBADF
  else .ok (((fs.bytes handle).drop offset).take bufLen, fs)

/-- The written bytes replace those at the offset, and a gap is filled with zeros. -/
def overwritten (bytes : Bytes) (offset : Nat) (data : Bytes) : Bytes :=
  resized bytes offset ++ data ++ bytes.drop (offset + data.length)

def writeAt (quota : VfsQuota) (fs : FlatFs) (number offset : Nat) (data : Bytes) :
    VfsResult (Nat × FlatFs) := do
  let handle ← fs.handle number
  if ¬ handle.writable then .error .EBADF
  else if data = [] then .ok (0, fs)
  else do
    let offset ← Call.okOr .EINVAL (usizeTryFrom offset)
    let start := if handle.append then (fs.bytes handle).length else offset
    let _ ← Call.okOr .EINVAL (checkedAdd start data.length)
    let next ← fs.store quota handle.inode (overwritten (fs.bytes handle) start data)
    .ok (data.length, next)

def truncate (quota : VfsQuota) (fs : FlatFs) (number len : Nat) : VfsResult (Unit × FlatFs) := do
  let len ← Call.okOr .ENOSPC (usizeTryFrom len)
  let handle ← fs.handle number
  if ¬ handle.writable then .error .EINVAL
  else do
    let next ← fs.store quota handle.inode (resized (fs.bytes handle) len)
    .ok ((), next)

def close (fs : FlatFs) (number : Nat) : VfsResult (Unit × FlatFs) := do
  let _ ← fs.handle number
  .ok ((), { fs with handles := Function.update fs.handles number none }.collect)

/-- An attempt gives the reply and the next filesystem, or it fails. -/
def attempt (quota : VfsQuota) (fs : FlatFs) : VfsCall → VfsResult (Reply × FlatFs)
  | .stat path => (fs.stat path).map fun next => (.metadata next.1, next.2)
  | .readdir path => (fs.readdir path).map fun next => (.entries next.1, next.2)
  | .mkdir path => (fs.mkdir quota path).map fun next => (.unit, next.2)
  | .rename source target => (fs.rename source target).map fun next => (.unit, next.2)
  | .unlink path => (fs.unlink path).map fun next => (.unit, next.2)
  | .rmdir path => (fs.rmdir path).map fun next => (.unit, next.2)
  | .open path mode => (fs.open quota path mode).map fun next => (.handle next.1, next.2)
  | .readAt number offset bufLen =>
      (fs.readAt number offset bufLen).map fun next => (.data next.1, next.2)
  | .writeAt number offset data =>
      (fs.writeAt quota number offset data).map fun next => (.count next.1, next.2)
  | .truncate number len => (fs.truncate quota number len).map fun next => (.unit, next.2)
  | .close number => (fs.close number).map fun next => (.unit, next.2)
  | .abort number => (fs.close number).map fun next => (.unit, next.2)

/-- A failed call leaves the filesystem as it was. -/
def call (quota : VfsQuota) (fs : FlatFs) (call : VfsCall) : VfsResult Reply × FlatFs :=
  match fs.attempt quota call with
  | .ok next => (.ok next.1, next.2)
  | .error error => (.error error, fs)

def run (quota : VfsQuota) (fs : FlatFs) : List VfsCall → List (VfsResult Reply) × FlatFs
  | [] => ([], fs)
  | next :: rest =>
      let reached := fs.call quota next
      let final := reached.2.run quota rest
      (reached.1 :: final.1, final.2)

end FlatFs

end

end TinySandbox

namespace TinySandbox
open Mem

/-- A call changes the bytes at once. An appending write starts at the end. -/
def plainStep (append : Bool) (bytes : Bytes) : VfsCall → Bytes
  | .writeAt _ offset data =>
      if data = [] then bytes
      else FlatFs.overwritten bytes (if append then bytes.length else offset) data
  | .truncate _ len => FlatFs.resized bytes len
  | _ => bytes

def plainRun (append : Bool) (bytes : Bytes) (calls : List VfsCall) : Bytes :=
  calls.foldl (plainStep append) bytes

/-- The handle that a call uses, if it uses one. -/
def handleOf : VfsCall → Option Nat
  | .readAt handle _ _ => some handle
  | .writeAt handle _ _ => some handle
  | .truncate handle _ => some handle
  | .close handle => some handle
  | .abort handle => some handle
  | _ => none

/-- Only a call on the handle that succeeds changes its bytes. -/
def ownStep (handle : Nat) (append : Bool) (bytes : Bytes) (call : VfsCall) :
    VfsResult Reply → Bytes
  | .ok _ => if handleOf call = some handle then plainStep append bytes call else bytes
  | .error _ => bytes

/-- A read on the handle returns these bytes when it succeeds. -/
def ReadsBack (handle : Nat) (bytes : Bytes) (call : VfsCall) (reply : VfsResult Reply) : Prop :=
  ∀ offset bufLen value, call = .readAt handle offset bufLen → reply = .ok value →
    value = .data ((bytes.drop offset).take bufLen)

/-- Every read on the handle returns what the calls on the handle before it left. -/
def Replays (handle : Nat) (append : Bool) :
    Bytes → List VfsCall → List (VfsResult Reply) → Prop
  | _, [], replies => replies = []
  | bytes, call :: rest, replies => ∃ reply others, replies = reply :: others ∧
      ReadsBack handle bytes call reply ∧
      Replays handle append (ownStep handle append bytes call reply) rest others

end TinySandbox

namespace TinySandbox.FlatFs
open Library Mem
open scoped Classical

noncomputable section

variable {fs : FlatFs} {paths : Set Path}

/-- A path that names something keeps it. -/
def withDirectories (fs : FlatFs) (paths : Set Path) : FlatFs :=
  { fs with
    entries := fun path =>
      if path ∈ paths ∧ fs.entries path = none then some .directory else fs.entries path }

theorem entries_withDirectories (fs : FlatFs) (paths : Set Path) (path : Path) :
    (fs.withDirectories paths).entries path =
      if path ∈ paths ∧ fs.entries path = none then some .directory else fs.entries path := rfl

/-- Directories that are there are not made again. -/
theorem withDirectories_of_present (present : ∀ path ∈ paths, fs.entries path ≠ none) :
    fs.withDirectories paths = fs := by
  have same : (fs.withDirectories paths).entries = fs.entries := by
    funext path
    rw [entries_withDirectories]
    apply if_neg
    intro both
    exact present path both.1 both.2
  exact FlatFs.ext same rfl rfl rfl rfl

/-- The order in which directories are made does not matter. -/
theorem withDirectories_withDirectories (fs : FlatFs) (first second : Set Path) :
    (fs.withDirectories first).withDirectories second = fs.withDirectories (first ∪ second) := by
  have same : ((fs.withDirectories first).withDirectories second).entries =
      (fs.withDirectories (first ∪ second)).entries := by
    funext path
    rw [entries_withDirectories, entries_withDirectories, entries_withDirectories, Set.mem_union]
    by_cases missing : fs.entries path = none
    · by_cases here : path ∈ first
      · simp [missing, here]
      · simp [missing, here]
    · simp [missing]
  exact FlatFs.ext same rfl rfl rfl rfl

theorem withDirectories_singleton {path : Path} (missing : fs.entries path = none) :
    fs.withDirectories {path} =
      { fs with entries := Function.update fs.entries path (some .directory) } := by
  have same : (fs.withDirectories {path}).entries =
      Function.update fs.entries path (some .directory) := by
    funext other
    rw [entries_withDirectories, Function.update_apply]
    by_cases here : other = path
    · subst here
      simp [missing]
    · simp [here]
  exact FlatFs.ext same rfl rfl rfl rfl

/-- A directory stays when others are made. -/
theorem directory_withDirectories {path : Path} (directory : fs.entries path = some .directory) :
    (fs.withDirectories paths).entries path = some .directory := by
  rw [entries_withDirectories, directory]
  simp

end

end TinySandbox.FlatFs
