/-
This file states when a call on the in-memory filesystem asks for an impossible allocation.
-/

import TinySandbox.Construction.Mem.World

namespace TinySandbox.Mem
open Library Library.Call

/-- The length that a write or a truncation through a writable handle asks for. -/
def VfsCall.wanted (state : State) : VfsCall → Option (FileNode × Nat)
  | .writeAt number offset data => do
      let handle ← state.handles.get number
      let file ← state.files.get handle.inode
      let oldLen := file.data.bytes.length
      let start := if handle.append then oldLen else offset
      if handle.writable ∧ data ≠ [] then some (file, max oldLen (start + data.length)) else none
  | .truncate number len => do
      let handle ← state.handles.get number
      let file ← state.files.get handle.inode
      if handle.writable then some (file, len) else none
  | _ => none

/-- A write or a truncation has a `u64` offset or length. -/
def VfsCall.Resizes : VfsCall → Prop
  | .writeAt _ offset _ => offset ≤ u64Max
  | .truncate _ len => len ≤ u64Max
  | _ => False

/-- A truncation is refused with one error and a write with one of two. -/
def VfsCall.refusal : VfsCall → Errno → Prop
  | .truncate _ _, error => error = .ENOSPC
  | _, error => error = .EINVAL ∨ error = .ENOSPC

/-- The call allocates at most what is possible, and it refuses a larger length. -/
structure AllocatesPossible (quota : VfsQuota) (arcs : Arcs) (state : State) (call : VfsCall) :
    Prop where
  returns : outcome (call.run quota arcs) state ≠ none
  refuses : ∀ file newLen, call.wanted state = some (file, newLen) → isizeMax < newLen →
    ∃ error, call.refusal error ∧ outcome (call.run quota arcs) state = some (.error error, state)

/-- The quota has no room for a file of this length. -/
def VfsQuota.Denies (quota : VfsQuota) (state : State) (file : FileNode) (newLen : Nat) : Prop :=
  quota.maxFileSize.toNat < newLen ∨
    quota.maxBytes.toNat < state.usedBytes + newLen - file.data.bytes.length

end TinySandbox.Mem
