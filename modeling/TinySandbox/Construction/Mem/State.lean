/-
This file gives the state of the in-memory filesystem and the walks over its tree.
A mutable borrow of a node is the node together with the function that writes it back.
-/

import TinySandbox.Construction.Path
import TinySandbox.Library.DirectoryTree

namespace TinySandbox.Mem
open Library

structure VfsQuota where
  maxBytes : UInt64
  maxFiles : UInt64
  maxFileSize : UInt64
  deriving DecidableEq

def VfsQuota.unlimited : VfsQuota where
  maxBytes := UInt64.ofNat u64Max
  maxFiles := UInt64.ofNat u64Max
  maxFileSize := UInt64.ofNat u64Max

abbrev Inode := Nat
abbrev Node := DirectoryTree Name Inode
abbrev Directory := List (Name × Node)

inductive NodeKind where
  | file
  | directory
  deriving DecidableEq

/-- An `Arc<Vec<u8>>` is the address of its buffer and the bytes stored there. -/
structure Arc where
  addr : Nat
  bytes : Bytes
  deriving DecidableEq

structure FileNode where
  data : Arc
  links : Nat
  openHandles : Nat
  deriving DecidableEq

structure Handle where
  inode : Inode
  readable : Bool
  writable : Bool
  append : Bool
  deriving DecidableEq

structure State where
  root : Node
  files : OrderedMap Inode FileNode
  nextInode : Inode
  nextHandle : Nat
  handles : OrderedMap Nat Handle
  usedBytes : Nat
  fileCount : Nat

def State.default : State where
  root := .directory []
  files := ∅
  nextInode := 1
  nextHandle := 1
  handles := ∅
  usedBytes := 0
  fileCount := 0

structure SnapshotState where
  root : Node
  files : OrderedMap Inode FileNode
  nextInode : Inode
  usedBytes : Nat
  fileCount : Nat

/-- The allocator knows how many `Arc`s hold each buffer and which address is free. -/
structure Arcs where
  strongCount : Nat → Nat
  fresh : Nat

/-- `Arc::make_mut` moves a shared buffer to the free address before it is written. -/
def Arcs.makeMut (arcs : Arcs) (addr : Nat) : Nat :=
  if 1 < arcs.strongCount addr then arcs.fresh else addr

/-- The address after the free one serves the second allocation of a call. -/
def Arcs.next (arcs : Arcs) : Arcs := { arcs with fresh := arcs.fresh + 1 }

abbrev MemCall := Call Errno State

def getNode : Node → Path → VfsResult Node
  | current, [] => .ok current
  | .file _, _ :: _ => .error .ENOTDIR
  | .directory entries, component :: path =>
      match Entries.get component entries with
      | some child => getNode child path
      | none => .error .ENOENT

def getNodeMut : Node → Path → VfsResult (Node × (Node → Node))
  | current, [] => .ok (current, id)
  | .file _, _ :: _ => .error .ENOTDIR
  | .directory entries, component :: path =>
      match Entries.get component entries with
      | some child =>
          (getNodeMut child path).map fun borrow =>
            (borrow.1, fun new => .directory (Entries.insert component (borrow.2 new) entries))
      | none => .error .ENOENT

/-- This borrows the parent directory of a path and returns the last name. -/
def parentDirMut (root : Node) (path : Path) :
    VfsResult (Directory × Name × (Directory → Node)) :=
  match path.getLast? with
  | none => .error .EINVAL
  | some name =>
      match getNodeMut root path.dropLast with
      | .error error => .error error
      | .ok (.file _, _) => .error .ENOTDIR
      | .ok (.directory entries, back) =>
          .ok (entries, name, fun changed => back (.directory changed))

def ensureParentIsDir (root : Node) (path : Path) : VfsResult Unit :=
  match path.getLast? with
  | none => .error .EINVAL
  | some _ =>
      match getNode root path.dropLast with
      | .error error => .error error
      | .ok (.file _) => .error .ENOTDIR
      | .ok (.directory _) => .ok ()

def nodeKind : Node → NodeKind
  | .file _ => .file
  | .directory _ => .directory

/-- The stack holds one iterator per level, the deepest first. -/
def subtreeFitsLoop (allowance : Nat) : List Directory → Bool
  | [] => true
  | [] :: stack => subtreeFitsLoop allowance stack
  | ((_, child) :: rest) :: stack =>
      if allowance < stack.length + 1 then false
      else
        match child with
        | .directory children => subtreeFitsLoop allowance (children :: rest :: stack)
        | .file _ => subtreeFitsLoop allowance (rest :: stack)
termination_by stack => sizeOf stack

def subtreeFits (node : Node) (allowance : Nat) : Bool :=
  match node with
  | .file _ => true
  | .directory entries => subtreeFitsLoop allowance [entries]

def hasPrefix (path start : Path) : Bool :=
  decide (start.length ≤ path.length) && decide (path.take start.length = start)

def metadataForNode (state : State) : Node → VfsResult Metadata
  | .file inode =>
      match state.files.get inode with
      | some file => .ok { fileType := .file, len := file.data.bytes.length }
      | none => .error .ENOENT
  | .directory _ => .ok { fileType := .directory, len := 0 }

/-- The byte count moves by the growth. A missing result is an underflow. -/
def adjustedUsedBytes (usedBytes oldLen newLen : Nat) : Option (VfsResult Nat) :=
  if oldLen ≤ newLen then some (Call.okOr .ENOSPC (checkedAdd usedBytes (newLen - oldLen)))
  else (subU64 usedBytes (oldLen - newLen)).map .ok

/-- A shared buffer is copied before it shrinks, and any other buffer is resized in place. -/
def resizeData (arcs : Arcs) (data : Arc) (newLen : Nat) : Option Arc :=
  if newLen < data.bytes.length ∧ 1 < arcs.strongCount data.addr then
    some { addr := arcs.fresh, bytes := data.bytes.take newLen }
  else
    (vecResize data.bytes newLen).map fun bytes => { addr := arcs.makeMut data.addr, bytes }

end TinySandbox.Mem
