/-
This file runs calls on filesystems that share buffers with snapshots and branches.
A strong count is the number of `Arc`s to one buffer in every filesystem and snapshot.
-/

import TinySandbox.Construction.Mem.Operations

namespace TinySandbox.Mem
open Library Library.Call

inductive VfsCall where
  | stat (path : Text)
  | readdir (path : Text)
  | mkdir (path : Text)
  | rename (source target : Text)
  | unlink (path : Text)
  | rmdir (path : Text)
  | «open» (path : Text) (mode : OpenMode)
  | readAt (handle offset bufLen : Nat)
  | writeAt (handle offset : Nat) (data : Bytes)
  | truncate (handle len : Nat)
  | close (handle : Nat)
  | abort (handle : Nat)
  deriving DecidableEq

inductive Reply where
  | unit
  | metadata (metadata : Metadata)
  | entries (entries : List DirEntry)
  | handle (handle : Nat)
  | data (bytes : Bytes)
  | count (count : Nat)
  deriving DecidableEq

/-- The value that a backend returns when the call succeeds. -/
abbrev VfsCall.Value : VfsCall → Type
  | .stat _ => Metadata
  | .readdir _ => List DirEntry
  | .mkdir _ => Unit
  | .rename _ _ => Unit
  | .unlink _ => Unit
  | .rmdir _ => Unit
  | .open _ _ => Nat
  | .readAt _ _ _ => Bytes
  | .writeAt _ _ _ => Nat
  | .truncate _ _ => Unit
  | .close _ => Unit
  | .abort _ => Unit

/-- A call on a handle names no path. -/
def VfsCall.paths : VfsCall → List Text
  | .stat path => [path]
  | .readdir path => [path]
  | .mkdir path => [path]
  | .rename source target => [source, target]
  | .unlink path => [path]
  | .rmdir path => [path]
  | .open path _ => [path]
  | .readAt _ _ _ => []
  | .writeAt _ _ _ => []
  | .truncate _ _ => []
  | .close _ => []
  | .abort _ => []

/-- `abort` is not overridden, so it closes the handle. -/
def VfsCall.run (quota : VfsQuota) (arcs : Arcs) : VfsCall → MemCall Reply
  | .stat path => .metadata <$> Mem.stat path
  | .readdir path => .entries <$> Mem.readdir path
  | .mkdir path => (fun _ => .unit) <$> Mem.mkdir quota path
  | .rename source target => (fun _ => .unit) <$> Mem.rename source target
  | .unlink path => (fun _ => .unit) <$> Mem.unlink path
  | .rmdir path => (fun _ => .unit) <$> Mem.rmdir path
  | .open path mode => .handle <$> Mem.open quota arcs path mode
  | .readAt handle offset bufLen => .data <$> Mem.readAt handle offset bufLen
  | .writeAt handle offset data => .count <$> Mem.writeAt quota arcs handle offset data
  | .truncate handle len => (fun _ => .unit) <$> Mem.truncate quota arcs handle len
  | .close handle => (fun _ => .unit) <$> Mem.close handle
  | .abort handle => (fun _ => .unit) <$> Mem.close handle

structure InMemoryVfs where
  quota : VfsQuota
  state : State

def InMemoryVfs.new (quota : VfsQuota) : InMemoryVfs where
  quota := quota
  state := State.default

/-- The world holds the filesystems and snapshots of one run. -/
structure World where
  filesystems : List InMemoryVfs
  snapshots : List SnapshotState
  nextAddr : Nat

/-- A run starts with one empty filesystem per quota. -/
def World.new (quotas : List VfsQuota) : World where
  filesystems := quotas.map InMemoryVfs.new
  snapshots := []
  nextAddr := 0

/-- This counts the files of one table that hold the buffer. -/
def arcCount (files : OrderedMap Inode FileNode) (addr : Nat) : Nat :=
  files.total fun file => if file.data.addr = addr then 1 else 0

def World.strongCount (world : World) (addr : Nat) : Nat :=
  (world.filesystems.map fun vfs => arcCount vfs.state.files addr).sum +
    (world.snapshots.map fun snapshot => arcCount snapshot.files addr).sum

def World.arcs (world : World) : Arcs where
  strongCount := world.strongCount
  fresh := world.nextAddr

/-- Filesystems and snapshots are named by their position. -/
inductive Action where
  | call (index : Nat) (call : VfsCall)
  | snapshot (index : Nat)
  | restore (index snapshot : Nat)
  | branch (index snapshot : Nat)
  deriving DecidableEq

def World.put (world : World) (index : Nat) (vfs : InMemoryVfs) (state : State) : World :=
  { world with
    filesystems := world.filesystems.set index { vfs with state }
    nextAddr := world.nextAddr + 2 }

/-- A missing outcome is a panic. An action that names nothing in the world does nothing. -/
def World.step (world : World) : Action → Option (VfsResult Reply × World)
  | .call index call =>
      match world.filesystems[index]? with
      | none => some (.error .EBADF, world)
      | some vfs =>
          (outcome (call.run vfs.quota world.arcs) vfs.state).map fun reached =>
            (reached.1, world.put index vfs reached.2)
  | .snapshot index =>
      match world.filesystems[index]? with
      | none => some (.error .EBADF, world)
      | some vfs =>
          match SnapshotState.fromState vfs.state with
          | .error error => some (.error error, world)
          | .ok snapshot =>
              some (.ok (.count world.snapshots.length),
                { world with snapshots := world.snapshots ++ [snapshot] })
  | .restore index snapshot =>
      match world.filesystems[index]?, world.snapshots[snapshot]? with
      | some vfs, some snapshot =>
          (outcome (Mem.restore vfs.quota snapshot) vfs.state).map fun reached =>
            (reached.1.map fun _ => .unit, world.put index vfs reached.2)
      | _, _ => some (.error .EBADF, world)
  | .branch index snapshot =>
      match world.filesystems[index]?, world.snapshots[snapshot]? with
      | some vfs, some snapshot =>
          match Mem.branch vfs.quota snapshot with
          | .error error => some (.error error, world)
          | .ok state =>
              some (.ok (.count world.filesystems.length),
                { world with filesystems := world.filesystems ++ [{ quota := vfs.quota, state }] })
      | _, _ => some (.error .EBADF, world)

/-- The filesystem that an action may change. -/
def Action.index : Action → Nat
  | .call index _ => index
  | .snapshot index => index
  | .restore index _ => index
  | .branch index _ => index

/-- A run keeps the reply of every action. -/
def World.run (world : World) : List Action → Option (List (VfsResult Reply) × World)
  | [] => some ([], world)
  | action :: rest =>
      (world.step action).bind fun reached =>
        (reached.2.run rest).map fun final => (reached.1 :: final.1, final.2)

end TinySandbox.Mem
