/-
This file shows that an open only lists and looks at objects.
The last request of an open that succeeds is the look at the object it opens.
-/

import TinySandbox.Construction.S3.Bucket
import TinySandbox.Construction.S3.Vfs

namespace TinySandbox.S3
open Library Library.Task

def Request.IsProbe : Request → Prop
  | .head .. => True
  | .list .. => True
  | _ => False

/-- The log has no request that could change the bucket. -/
def Probes (log : List S3Event) : Prop := ∀ event ∈ log, event.1.IsProbe

theorem Probes.snoc {log : List S3Event} (probes : Probes log) (event : S3Event)
    (probe : event.1.IsProbe) : Probes (log ++ [event]) := by
  intro other member
  rcases List.mem_append.mp member with old | new
  · exact probes other old
  · exact List.mem_singleton.mp new ▸ probe

section Probing
variable {vfs : S3Vfs} {log : List S3Event}

theorem scanLoop_probes (keyPrefix : Text) (probe : Bool) (fuel : Nat) (scan : Scan)
    (probes : Probes log) :
    (vfs.scanLoop keyPrefix probe fuel scan).Wp () log (fun _ _ log => Probes log)
      (fun _ _ log => Probes log) := by
  induction fuel generalizing scan log with
  | zero => exact wp_diverge
  | succ fuel ih =>
      unfold S3Vfs.scanLoop
      rw [wp_bind_iff, wp_send_iff]
      intro response
      have listed := probes.snoc ⟨Request.list _, response⟩ trivial
      cases response with
      | error error => exact listed
      | ok page =>
          rw [mapErr_ok, judged_ok]
          split
          · rw [wp_pure_iff]
            exact listed
          · rw [wp_bind_iff, wp_lift_iff]
            cases nextToken page (scan.addPage keyPrefix page).seenTokens with
            | error error => exact listed
            | ok next =>
                rw [judged_ok]
                split
                · rw [wp_pure_iff]
                  exact listed
                · exact ih _ listed

/-- A look at a key that finds the given file. -/
def lookedUp (vfs : S3Vfs) (key : Text) (existing : Option RemoteFile) : S3Event :=
  ⟨.head vfs.bucket key,
    match existing with
    | some file => .ok file
    | none => .error .missing⟩

/-- A file and a missing path are known from the last request. -/
def Seen (vfs : S3Vfs) (components : Path) (existing : Option RemoteFile) (log : List S3Event) :
    Prop :=
  log.getLast? = some (lookedUp vfs (vfs.key components) existing)

theorem head_probes (components : Path) (probes : Probes log) :
    (vfs.head components).Wp () log
      (fun existing _ log => Probes log ∧ Seen vfs components existing log)
      (fun _ _ log => Probes log) := by
  unfold S3Vfs.head
  rw [wp_bind_iff, wp_request_iff]
  intro response
  have looked := probes.snoc ⟨Request.head vfs.bucket (vfs.key components), response⟩ trivial
  split
  · rw [wp_pure_iff]
    exact ⟨looked, List.getLast?_concat ..⟩
  · rw [wp_pure_iff]
    exact ⟨looked, List.getLast?_concat ..⟩
  · rw [wp_throw_iff]
    exact looked

theorem kindAt_probes (components : Path) (probes : Probes log) :
    (vfs.kindAt components).Wp () log
      (fun kind _ log => Probes log ∧ ∀ existing, S3Vfs.existingFile kind = .ok existing →
        Seen vfs components existing log)
      (fun _ _ log => Probes log) := by
  unfold S3Vfs.kindAt
  split
  · rw [wp_pure_iff]
    refine ⟨probes, ?_⟩
    rintro existing ⟨⟩
  · rw [wp_bind_iff]
    refine (scanLoop_probes _ _ _ _ probes).mono ?_ (fun _ _ _ probes => probes)
    rintro listing ⟨⟩ log probes
    split
    · rw [wp_pure_iff]
      refine ⟨probes, ?_⟩
      rintro existing ⟨⟩
    · rw [wp_bind_iff]
      refine (head_probes components probes).mono ?_ (fun _ _ _ probes => probes)
      rintro existing ⟨⟩ log ⟨probes, seen⟩
      rw [wp_pure_iff]
      refine ⟨probes, ?_⟩
      intro found same
      cases existing with
      | none =>
          obtain rfl : none = found := Except.ok.inj same
          exact seen
      | some file =>
          obtain rfl : some file = found := Except.ok.inj same
          exact seen

theorem validateEnds_probes (components : Path) (ends : List Nat) (probes : Probes log) :
    (vfs.validateEnds components ends).Wp () log (fun _ _ log => Probes log)
      (fun _ _ log => Probes log) := by
  induction ends generalizing log with
  | nil =>
      unfold S3Vfs.validateEnds
      rw [wp_pure_iff]
      exact probes
  | cons stop rest ih =>
      unfold S3Vfs.validateEnds
      rw [wp_bind_iff]
      refine (kindAt_probes _ probes).mono ?_ (fun _ _ _ probes => probes)
      rintro kind ⟨⟩ log ⟨probes, -⟩
      rw [wp_bind_iff, wp_lift_iff]
      cases S3Vfs.requireDirectory kind with
      | error error => exact probes
      | ok value => exact ih probes

/-- The precondition that protects what the open has seen. -/
def openPrecondition (mode : OpenMode) : Option RemoteFile → Precondition
  | some file => .matching file.etag
  | none => creationPrecondition mode

/-- A handle pins a revision, streams, or stages a buffer. -/
theorem openStaging_cases {mode : OpenMode} {existing : Option RemoteFile} {staging : Staging}
    (staged : S3Vfs.openStaging mode existing = .ok staging) :
    (∃ file, existing = some file ∧ staging = .remote file) ∨
    staging = .stream (Stream.new (openPrecondition mode existing)) ∨
    (∃ bytes dirty, staging = .buffer {
        source := existing, precondition := openPrecondition mode existing, bytes, dirty } ∧
      (bytes = none ∧ dirty = false ∧ existing ≠ none ∧ mode.truncate = false ∨
        bytes = some [] ∧ dirty = true ∧ (existing ≠ none → mode.truncate = true))) := by
  unfold S3Vfs.openStaging S3Vfs.writeStaging S3Vfs.readStaging S3Vfs.stagedBuffer at staged
  split at staged
  · split at staged
    · rw [Call.ite_error_eq_ok_iff] at staged
      obtain ⟨-, staged⟩ := staged
      split_ifs at staged with streams truncates
      · exact .inr (.inl (Except.ok.inj staged).symm)
      · exact .inr (.inr ⟨_, _, (Except.ok.inj staged).symm, .inr ⟨rfl, rfl, fun _ => truncates⟩⟩)
      · exact .inr (.inr ⟨_, _, (Except.ok.inj staged).symm,
          .inl ⟨rfl, rfl, by simp, by simpa using truncates⟩⟩)
    · rw [Call.ite_error_eq_ok_iff] at staged
      obtain ⟨-, staged⟩ := staged
      split_ifs at staged with reads
      · exact .inr (.inr ⟨_, _, (Except.ok.inj staged).symm, .inr ⟨rfl, rfl, by simp⟩⟩)
      · exact .inr (.inl (Except.ok.inj staged).symm)
  · split at staged
    · rw [Call.ite_error_eq_ok_iff] at staged
      exact .inl ⟨_, rfl, (Except.ok.inj staged.2).symm⟩
    · rw [Call.ite_eq_ok_iff_of_error] at staged
      exact .inr (.inr ⟨_, _, (Except.ok.inj staged.2).symm, .inr ⟨rfl, rfl, by simp⟩⟩)

/-- An open stages a handle from the object it has looked at. -/
theorem openHandle_wp (path : Text) (mode : OpenMode) :
    (vfs.openHandle path mode).Wp () []
      (fun cell _ log => Probes log ∧ ∃ components existing staging,
        normalizePath path = .ok components ∧ Seen vfs components existing log ∧
        S3Vfs.openStaging mode existing = .ok staging ∧
        cell = { key := vfs.key components, mode, staging, released := false })
      (fun _ _ log => Probes log) := by
  have start : Probes [] := by simp [Probes]
  unfold S3Vfs.openHandle
  rw [wp_bind_iff, wp_lift_iff]
  cases mode.validate with
  | error error => exact start
  | ok valid =>
  rw [judged_ok, wp_bind_iff, wp_lift_iff]
  cases resolved : normalizePath path with
  | error error => exact start
  | ok components =>
  rw [judged_ok, wp_bind_iff, wp_lift_iff]
  cases (if mode.write ∨ mode.create then vfs.requireWritable else .ok ()) with
  | error error => exact start
  | ok writable =>
  rw [judged_ok, wp_bind_iff, wp_refuse_iff]
  split
  · exact start
  rw [wp_bind_iff]
  refine (validateEnds_probes components _ start).mono ?_ (fun _ _ _ probes => probes)
  rintro ⟨⟩ ⟨⟩ log probes
  rw [wp_bind_iff]
  refine (kindAt_probes components probes).mono ?_ (fun _ _ _ probes => probes)
  rintro kind ⟨⟩ log ⟨probes, seen⟩
  rw [wp_bind_iff, wp_lift_iff]
  cases found : S3Vfs.existingFile kind with
  | error error => exact probes
  | ok existing =>
      rw [judged_ok, wp_bind_iff, wp_lift_iff]
      cases staged : S3Vfs.openStaging mode existing with
      | error error => exact probes
      | ok staging =>
          rw [judged_ok, wp_pure_iff]
          exact ⟨probes, components, existing, staging, rfl, seen existing found, staged, rfl⟩

/-- A new handle is stored under the number it is returned with. -/
theorem open_wp (path : Text) (mode : OpenMode) (state : State) :
    (vfs.open path mode).Wp state []
      (fun handle after log => Probes log ∧ ∃ components existing staging,
        normalizePath path = .ok components ∧ Seen vfs components existing log ∧
        S3Vfs.openStaging mode existing = .ok staging ∧ handle = state.nextHandle ∧
        after.handles = state.handles.insert handle
          { key := vfs.key components, mode, staging, released := false })
      (fun _ _ log => Probes log) := by
  unfold S3Vfs.open S3Vfs.insertHandle
  rw [wp_bind_iff, wp_perform_iff]
  refine (openHandle_wp path mode).mono ?_ (fun _ _ _ probes => probes)
  rintro cell ⟨⟩ log ⟨probes, components, existing, staging, resolved, seen, staged, rfl⟩
  rw [wp_bind_iff, wp_get_iff, wp_bind_iff, wp_lift_iff]
  cases checkedAdd state.nextHandle 1 with
  | none => exact probes
  | some next =>
      rw [Call.okOr_some, judged_ok, wp_bind_iff, wp_set_iff, wp_pure_iff]
      exact ⟨probes, components, existing, staging, resolved, seen, staged, rfl, rfl⟩

end Probing

end TinySandbox.S3
