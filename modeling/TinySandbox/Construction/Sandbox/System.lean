/-
This file gives the whole filesystem of a sandbox whose mounts are in-memory filesystems.
No two mounts share a filesystem, and nothing else uses them meanwhile.
-/

import TinySandbox.Construction.Mounted.Vfs
import TinySandbox.Construction.Sandbox.Fs
import TinySandbox.Library.Serving

namespace TinySandbox.Mem

/-- This is the call with its own value instead of a reply. -/
def VfsCall.perform (quota : VfsQuota) (arcs : Arcs) : (call : VfsCall) → MemCall call.Value
  | .stat path => Mem.stat path
  | .readdir path => Mem.readdir path
  | .mkdir path => Mem.mkdir quota path
  | .rename source target => Mem.rename source target
  | .unlink path => Mem.unlink path
  | .rmdir path => Mem.rmdir path
  | .open path mode => Mem.open quota arcs path mode
  | .readAt handle offset bufLen => Mem.readAt handle offset bufLen
  | .writeAt handle offset data => Mem.writeAt quota arcs handle offset data
  | .truncate handle len => Mem.truncate quota arcs handle len
  | .close handle => Mem.close handle
  | .abort handle => Mem.close handle

end TinySandbox.Mem

namespace TinySandbox.Sandbox
open Library Library.Task Mem Mounted

/-- The allocator is the one of all the backends. -/
structure System where
  vfs : MountedVfs
  mounted : Mounted.State
  backends : Name → InMemoryVfs
  arcs : Arcs

namespace System

/-- A panic has no answer. -/
def callBackend (arcs : Arcs) (backends : Name → InMemoryVfs) (request : MountRequest) :
    Option (request.Response × (Name → InMemoryVfs)) :=
  let backend := backends request.mount
  (Call.outcome (request.call.perform backend.quota arcs) backend.state).map fun reached =>
    (reached.1, Function.update backends request.mount { backend with state := reached.2 })

/-- A task of the mounts ends with its result and with the system it leaves. -/
def route {α : Type} (system : System) (task : MountTask α) : Option (VfsResult α × System) :=
  (task.serve (callBackend system.arcs) system.mounted system.backends).map fun reached =>
    (reached.1.1, { system with mounted := reached.1.2, backends := reached.2 })

def call (system : System) (call : VfsCall) : Option (VfsResult call.Value × System) :=
  system.route (system.vfs.call call)

/-- Nothing is cancelled, and every admission is granted. -/
def respond (system : System) : (request : FsRequest) → Option (request.Response × System)
  | .isCancelled => some (false, system)
  | .reserve => some (.ok (), system)
  | .release => some ((), system)
  | .insert _ => some ((), system)
  | .remove _ => some (.ok (), system)
  | .abandon _ => some ((), system)
  | .isFastPath _ => some (true, system)
  | .isFastHandle _ => some (true, system)
  | .acquireWorker => some (true, system)
  | .spawnBlocking => some (true, system)
  | .vfs call => system.call call

/-- A task of the filesystem ends with its result and with the system it leaves. -/
def perform {α : Type} (system : System) (task : FsTask α) : Option (VfsResult α × System) :=
  (task.serve respond () system).map fun reached => (reached.1.1, reached.2)

end System

end TinySandbox.Sandbox
