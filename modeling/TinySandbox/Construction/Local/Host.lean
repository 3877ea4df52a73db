/-
This file gives the directory of the host that a local filesystem works on.
A file keeps its data while a name or a descriptor refers to it, and its key may serve again
after that.
-/

import Mathlib.Data.Prod.Lex
import TinySandbox.Construction.Path
import TinySandbox.Library.DirectoryTree

namespace TinySandbox.Local
open Library

/-- These are the errors of the host that `io_error` tells apart. -/
inductive OsError where
  | ENOENT
  | ENOTDIR
  | EISDIR
  | EEXIST
  | ENOTEMPTY
  | EXDEV
  | EACCES
  | EPERM
  | ELOOP
  | EROFS
  | ENOSPC
  | EDQUOT
  | EFBIG
  | EBUSY
  | EBADF
  | other
  deriving DecidableEq

def ioError : OsError → Errno
  | .ENOENT => .ENOENT
  | .ENOTDIR => .ENOTDIR
  | .EISDIR => .EISDIR
  | .EEXIST => .EEXIST
  | .ENOTEMPTY => .ENOTEMPTY
  | .EXDEV => .EXDEV
  | .EACCES | .EPERM | .ELOOP | .EROFS => .EACCES
  | .ENOSPC | .EDQUOT | .EFBIG => .ENOSPC
  | .EBUSY => .EBUSY
  | .EBADF => .EBADF
  | .other => .EINVAL

/-- The result of a host call, with its error translated. -/
def osResult {α : Type} : Except OsError α → VfsResult α
  | .ok value => .ok value
  | .error error => .error (ioError error)

/-- The device and the inode identify a file across renames and unlinks. -/
abbrev FileKey := Nat ×ₗ Nat

/-- Symbolic links, pipes, sockets and devices are special. -/
inductive HostObject where
  | regular (key : FileKey)
  | special
  deriving DecidableEq

abbrev HostNode := DirectoryTree Name HostObject
abbrev HostDirectory := List (Name × HostNode)

/-- A descriptor of a directory is its path, and a descriptor of a file is its key. -/
structure Host where
  root : HostNode
  data : FileKey → Bytes

/-- These are the choices that POSIX leaves to the host.
A host may reject names, list a directory in any order, hand out any free inode, read fewer bytes
than it was asked for, stop in the middle of a write, and refuse to resize a file. -/
structure Posix where
  accepts : Name → Bool
  accepts_self : accepts ['.'] = true
  isUtf8 : Name → Bool
  order : HostDirectory → HostDirectory
  order_perm : ∀ entries, (order entries).Perm entries
  allocate : List FileKey → FileKey
  allocate_fresh : ∀ used, allocate used ∉ used
  chunk : Nat → Nat
  chunk_pos : ∀ wanted, 0 < wanted → 0 < chunk wanted
  notEmpty : OsError
  notEmpty_cases : notEmpty = .EEXIST ∨ notEmpty = .ENOTEMPTY
  specialDirectory : OsError
  specialDirectory_cases : specialDirectory = .ENOTDIR ∨ specialDirectory = .ELOOP
  writeFails : Option (Nat × OsError)
  setLenFails : Option OsError

/-- A shorter length cuts the bytes, and a longer one adds zeros. -/
def setLen (bytes : Bytes) (len : Nat) : Bytes :=
  bytes.take len ++ List.replicate (len - bytes.length) 0

/-- A write behind the end fills the gap with zeros, and an empty write does nothing. -/
def pwrite (bytes : Bytes) (offset : Nat) (data : Bytes) : Bytes :=
  if data = [] then bytes
  else setLen bytes offset ++ data ++ bytes.drop (offset + data.length)

namespace Host

/-- The name `.` is the directory itself. -/
def find (host : Host) (dir : Path) (name : Name) : Option HostNode :=
  if name = ['.'] then host.root.at? dir else host.root.at? (dir ++ [name])

def child (dir : Path) (name : Name) : Path := if name = ['.'] then dir else dir ++ [name]

def len (host : Host) (key : FileKey) : Nat := (host.data key).length

def put (host : Host) (key : FileKey) (bytes : Bytes) : Host :=
  { host with data := Function.update host.data key bytes }

def entriesOf (host : Host) (dir : Path) : Except OsError HostDirectory :=
  match host.root.at? dir with
  | some (.directory entries) => .ok entries
  | some (.file _) => .error .ENOTDIR
  | none => .error .ENOENT

def setEntries (host : Host) (dir : Path) (entries : HostDirectory) : Host :=
  { host with root := host.root.replace dir (.directory entries) }

/-- These are the keys that the names of the tree use. -/
def namedKeys (host : Host) : List FileKey :=
  host.root.leaves.filterMap fun object =>
    match object with
    | .regular key => some key
    | .special => none

/-- This is `openat` with `O_DIRECTORY` and `O_NOFOLLOW`. -/
def openDirectoryAt (posix : Posix) (host : Host) (dir : Path) (name : Name) :
    Except OsError Path :=
  if ¬ posix.accepts name then .error .other
  else
    match host.find dir name with
    | none => .error .ENOENT
    | some (.directory _) => .ok (child dir name)
    | some (.file (.regular _)) => .error .ENOTDIR
    | some (.file .special) => .error posix.specialDirectory

def mkdirat (host : Host) (dir : Path) (name : Name) : Except OsError Host := do
  let entries ← host.entriesOf dir
  match Entries.get name entries with
  | some _ => .error .EEXIST
  | none => .ok (host.setEntries dir (Entries.insert name (.directory []) entries))

/-- This is `openat` with `O_CREAT` and `O_EXCL`. -/
def createat (posix : Posix) (used : List FileKey) (host : Host) (dir : Path) (name : Name) :
    Except OsError (FileKey × Host) := do
  let entries ← host.entriesOf dir
  match Entries.get name entries with
  | some _ => .error .EEXIST
  | none =>
      let key := posix.allocate used
      .ok (key, (host.put key []).setEntries dir
        (Entries.insert name (.file (.regular key)) entries))

/-- This is `openat` on what is there, and a special file or a directory has no key. -/
def openat (host : Host) (dir : Path) (name : Name) (write : Bool) :
    Except OsError (Option FileKey) :=
  match host.find dir name with
  | none => .error .ENOENT
  | some (.file (.regular key)) => .ok (some key)
  | some (.file .special) => .error .ELOOP
  | some (.directory _) => if write then .error .EISDIR else .ok none

def unlinkat (host : Host) (dir : Path) (name : Name) : Except OsError Host := do
  let entries ← host.entriesOf dir
  match Entries.get name entries with
  | none => .error .ENOENT
  | some (.directory _) => .error .EISDIR
  | some (.file _) => .ok (host.setEntries dir (Entries.erase name entries))

/-- This is `unlinkat` with `AT_REMOVEDIR`. -/
def rmdirat (posix : Posix) (host : Host) (dir : Path) (name : Name) : Except OsError Host := do
  let entries ← host.entriesOf dir
  match Entries.get name entries with
  | none => .error .ENOENT
  | some (.file _) => .error .ENOTDIR
  | some (.directory children) =>
      if children ≠ [] then .error posix.notEmpty
      else .ok (host.setEntries dir (Entries.erase name entries))

/-- What stands at the target must make way for the source. -/
def renameCheck (posix : Posix) : HostNode → Option HostNode → Except OsError Unit
  | _, none => .ok ()
  | .file _, some (.file _) => .ok ()
  | .file _, some (.directory _) => .error .EISDIR
  | .directory _, some (.file _) => .error .ENOTDIR
  | .directory _, some (.directory children) =>
      if children ≠ [] then .error posix.notEmpty else .ok ()

/-- Two names of one file are left alone. -/
def sameFile (source : HostNode) (target : Option HostNode) : Bool :=
  match source, target with
  | .file (.regular key), some (.file (.regular other)) => decide (key = other)
  | _, _ => false

/-- This replaces what stands at the target in one step. -/
def renameat (posix : Posix) (host : Host) (fromDir : Path) (fromName : Name) (toDir : Path)
    (toName : Name) : Except OsError Host := do
  let fromEntries ← host.entriesOf fromDir
  let toEntries ← host.entriesOf toDir
  match Entries.get fromName fromEntries with
  | none => .error .ENOENT
  | some source =>
      if fromDir ++ [fromName] = toDir ++ [toName] then .ok host
      else if sameFile source (Entries.get toName toEntries) then .ok host
      else if fromDir ++ [fromName] <+: toDir ++ [toName] then .error .other
      else do
        renameCheck posix source (Entries.get toName toEntries)
        let taken := host.setEntries fromDir (Entries.erase fromName fromEntries)
        let toEntries ← taken.entriesOf toDir
        .ok (taken.setEntries toDir (Entries.insert toName source toEntries))

/-- A read may return less than it was asked for, but it returns something before the end. -/
def readAt (posix : Posix) (host : Host) (key : FileKey) (offset wanted : Nat) : Bytes :=
  ((host.data key).drop offset).take (min (posix.chunk wanted) wanted)

/-- A write that fails has written a part of the data. -/
def writeAllAt (posix : Posix) (host : Host) (key : FileKey) (data : Bytes) (offset : Nat) :
    Except OsError Unit × Host :=
  match posix.writeFails with
  | none => (.ok (), host.put key (pwrite (host.data key) offset data))
  | some (count, error) =>
      (.error error, host.put key (pwrite (host.data key) offset (data.take count)))

/-- A resize that fails leaves the file as it was. -/
def setLenAt (posix : Posix) (host : Host) (key : FileKey) (len : Nat) :
    Except OsError Unit × Host :=
  match posix.setLenFails with
  | none => (.ok (), host.put key (setLen (host.data key) len))
  | some error => (.error error, host)

end Host

end TinySandbox.Local
