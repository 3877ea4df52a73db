/-
This file shows that a read-only filesystem never changes its bucket.
Every handle it opens reads a revision that was already there.
-/

import TinySandbox.Proof.S3.Requests

namespace TinySandbox.S3
open Library Library.Task Mem

/-- The request can change the bucket. -/
def Request.Mutates : Request → Prop
  | .head .. => False
  | .list .. => False
  | .get .. => False
  | .put .. => True
  | .delete .. => True
  | .copy .. => True
  | .createUpload .. => True
  | .uploadPart .. => True
  | .completeUpload .. => True
  | .abortUpload .. => True

def Reads (request : Request) : Prop := ¬ request.Mutates

/-- The handle cannot write, and it stages nothing. -/
def ReadsRevision (cell : HandleState) : Prop :=
  cell.mode.write = false ∧ ∃ file, cell.staging = .remote file

section ReadOnly
variable {vfs : S3Vfs}

theorem allowsProbes_reads (vfs : S3Vfs) : AllowsProbes vfs Reads where
  head _ _ := id
  list _ _ _ _ := id

theorem requireWritable_readOnly (readOnly : vfs.config.readOnly = true) :
    vfs.requireWritable = .error .EACCES := by
  rw [S3Vfs.requireWritable, if_pos readOnly]

/-- A mode that neither writes nor creates pins what it finds. -/
theorem openStaging_reads {mode : OpenMode} {existing : Option RemoteFile} {staging : Staging}
    (unwritten : mode.write = false) (uncreated : mode.create = false)
    (staged : S3Vfs.openStaging mode existing = .ok staging) : ∃ file, staging = .remote file := by
  rw [S3Vfs.openStaging, if_neg (by simp [unwritten])] at staged
  unfold S3Vfs.readStaging at staged
  cases existing with
  | some file =>
      rw [Call.ite_error_eq_ok_iff] at staged
      exact ⟨file, (Except.ok.inj staged.2).symm⟩
  | none => simp [uncreated] at staged

theorem openHandle_reads (readOnly : vfs.config.readOnly = true) (path : Text) (mode : OpenMode) :
    Guards Reads (vfs.openHandle path mode) () (fun cell _ => ReadsRevision cell)
      (fun _ _ => True) := by
  apply (openHandle_guards (allowsProbes_reads vfs) path mode).mono
  · intro cell _ opened
    obtain ⟨writable, components, existing, staging, -, staged, rfl⟩ := opened
    rw [requireWritable_readOnly readOnly] at writable
    have unchanged : ¬ (mode.write = true ∨ mode.create = true) := by
      intro changes
      cases writable changes
    rw [not_or, Bool.not_eq_true, Bool.not_eq_true] at unchanged
    exact ⟨unchanged.1, openStaging_reads unchanged.1 unchanged.2 staged⟩
  · intro _ _ _
    exact trivial

/-- A call that needs a writable filesystem stops before its first request. -/
theorem refused_reads {α β : Type} (readOnly : vfs.config.readOnly = true)
    (resolved : VfsResult β) (next : β → Unit → Exchange α) :
    Sends Reads (do
      let value ← lift resolved
      let checked ← lift vfs.requireWritable
      next value checked) := by
  apply (sends_lift resolved).bind
  intro value
  rw [requireWritable_readOnly readOnly]
  exact fun _ => trivial

theorem rename_reads (readOnly : vfs.config.readOnly = true) (source target : Text) :
    Sends Reads (vfs.rename source target) := by
  unfold S3Vfs.rename
  apply (sends_lift _).bind
  intro source
  exact refused_reads readOnly (normalizePath target) _

theorem readResolved_reads {cell : HandleState} (reads : ReadsRevision cell) (offset bufLen : Nat) :
    Guards Reads (vfs.readResolved offset bufLen) cell (fun _ => ReadsRevision)
      (fun _ => ReadsRevision) := by
  obtain ⟨file, pinned⟩ := reads.2
  unfold S3Vfs.readResolved
  rw [guards_bind_iff, guards_get_iff, pinned]
  refine guards_refuse_bind (fun _ => reads) ?_
  intro _
  refine guards_refuse_bind (fun _ => reads) ?_
  intro _
  apply (readRemote_sends _ file offset bufLen).perform_holds reads
  intro request _
  exact id

theorem writeResolved_reads {cell : HandleState} (reads : ReadsRevision cell) (offset : Nat)
    (data : Bytes) :
    Guards Reads (vfs.writeResolved offset data) cell (fun _ => ReadsRevision)
      (fun _ => ReadsRevision) := by
  unfold S3Vfs.writeResolved
  rw [guards_bind_iff, guards_get_iff]
  refine guards_refuse_bind (fun _ => reads) ?_
  intro _
  refine guards_refuse_bind (fun _ => reads) ?_
  intro writes
  exact absurd (by simp [reads.1]) writes

theorem truncateResolved_reads {cell : HandleState} (reads : ReadsRevision cell) (len : Nat) :
    Guards Reads (vfs.truncateResolved len) cell (fun _ => ReadsRevision)
      (fun _ => ReadsRevision) := by
  unfold S3Vfs.truncateResolved
  rw [guards_bind_iff, guards_get_iff]
  refine guards_refuse_bind (fun _ => reads) ?_
  intro _
  refine guards_refuse_bind (fun _ => reads) ?_
  intro writes
  exact absurd (by simp [reads.1]) writes

/-- A handle that stages nothing has nothing to land, abort, or drop. -/
theorem release_reads {cell : HandleState} (reads : ReadsRevision cell) :
    Guards Reads vfs.closeResolved cell (fun _ _ => True) (fun _ _ => True) ∧
    Guards Reads vfs.abortResolved cell (fun _ _ => True) (fun _ _ => True) ∧
    Guards Reads vfs.dropResolved cell (fun _ _ => True) (fun _ _ => True) := by
  obtain ⟨-, file, pinned⟩ := reads
  obtain ⟨key, mode, staging, released⟩ := cell
  obtain rfl : staging = .remote file := pinned
  exact ⟨trivial, trivial, trivial⟩

theorem call_reads (readOnly : vfs.config.readOnly = true) (call : VfsCall) {state : State}
    (all : AllHandles ReadsRevision state) :
    Guards Reads (vfs.call call) state (fun _ => AllHandles ReadsRevision)
      (fun _ => AllHandles ReadsRevision) := by
  have probes := allowsProbes_reads vfs
  cases call with
  | stat path => exact guards_map_iff.mpr ((stat_sends probes path).perform_holds all)
  | readdir path => exact guards_map_iff.mpr ((readdir_sends probes path).perform_holds all)
  | mkdir path =>
      exact guards_map_iff.mpr
        ((refused_reads readOnly (normalizePath path) _).perform_holds all)
  | rename source target =>
      exact guards_map_iff.mpr ((rename_reads readOnly source target).perform_holds all)
  | unlink path =>
      exact guards_map_iff.mpr
        ((refused_reads readOnly (normalizePath path) _).perform_holds all)
  | rmdir path =>
      exact guards_map_iff.mpr
        ((refused_reads readOnly (normalizePath path) _).perform_holds all)
  | «open» path mode =>
      exact guards_map_iff.mpr (open_guards path mode all (openHandle_reads readOnly path mode))
  | readAt handle offset bufLen =>
      apply guards_map_iff.mpr
      exact onHandle_guards handle all fun _ reads => readResolved_reads reads offset bufLen
  | writeAt handle offset data =>
      apply guards_map_iff.mpr
      exact onHandle_guards handle all fun _ reads => writeResolved_reads reads offset data
  | truncate handle len =>
      apply guards_map_iff.mpr
      exact onHandle_guards handle all fun _ reads => truncateResolved_reads reads len
  | close handle =>
      apply guards_map_iff.mpr
      exact onRemoved_guards handle all fun _ reads => (release_reads reads).1
  | abort handle =>
      apply guards_map_iff.mpr
      exact onRemoved_guards handle all fun _ reads => (release_reads reads).2.1

end ReadOnly

/-- A read-only filesystem sends no request that could change the bucket, whatever it is asked and
whatever the bucket answers. -/
theorem read_only_never_mutates (vfs : S3Vfs) (readOnly : vfs.config.readOnly = true)
    (calls : List VfsCall) :
    Guards (fun request => ¬ request.Mutates) (vfs.lifetime calls) State.new (fun _ _ => True)
      (fun _ _ => True) := by
  apply lifetime_guards ReadsRevision calls
  · intro handle cell found
    cases found
  · intro call _ state all
    exact call_reads readOnly call all
  · intro cell reads
    exact (release_reads reads).2.2

theorem read_only_never_mutates_create :
    let vfs := { S3Vfs.sample with config := { readOnly := true } }
    vfs.config.readOnly = true ∧
    Guards (fun request => ¬ request.Mutates)
      (vfs.lifetime [.open ['/', 'f'] { read := true, create := true }, .close 1, .mkdir ['/', 'd']])
      State.new (fun _ _ => True) (fun _ _ => True) :=
  ⟨rfl, read_only_never_mutates _ rfl _⟩

end TinySandbox.S3
