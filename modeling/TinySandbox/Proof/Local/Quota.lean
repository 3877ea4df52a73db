/-
This file tells exactly when the local filesystem reports that no space is left for a file that does
not grow, and what such a report leaves behind.
-/

import TinySandbox.Construction.Local.Vfs
import TinySandbox.Library.Endings

namespace TinySandbox.Local
open Library Library.Call
open Mem (VfsQuota)

section Quota
variable {posix : Posix} {quota : VfsQuota} {state : State}

/-- The call reports that no space is left. -/
def RunsOut {α : Type} (call : LocalCall α) (state : State) : Prop :=
  ∃ after, outcome call state = some (.error .ENOSPC, after)

/-- The file and the usage numbers are as before. -/
structure Untouched (before after : State) : Prop where
  host : after.host = before.host
  usedBytes : after.usedBytes = before.usedBytes
  fileCount : after.fileCount = before.fileCount

/-- The new length and the new total are within the quota. -/
def Admits (quota : VfsQuota) (usedBytes oldLen newLen : Nat) : Prop :=
  newLen ≤ quota.maxFileSize.toNat ∧ usedBytes - (oldLen - newLen) ≤ quota.maxBytes.toNat

def writeStart (state : State) (file : HandleState) (offset : Nat) : Nat :=
  if file.append then state.host.len file.key else offset

/-- The quota is checked for the new length and the new total, whether the file grows or not. -/
theorem resizedUsage_no_growth {usedBytes oldLen newLen : Nat} (shrinks : newLen ≤ oldLen) :
    resizedUsage quota usedBytes oldLen newLen =
      if newLen ≤ quota.maxFileSize.toNat ∧ usedBytes - (oldLen - newLen) ≤ quota.maxBytes.toNat then
        .ok (usedBytes - (oldLen - newLen))
      else .error .ENOSPC := by
  have total : quota.maxBytes.toNat ≤ u64Max := Nat.le_of_lt_succ quota.maxBytes.toNat_lt
  rw [resizedUsage]
  by_cases long : quota.maxFileSize.toNat < newLen
  · rw [if_pos long, if_neg (by omega)]
  · rw [if_neg long]
    by_cases same : oldLen ≤ newLen
    · have equal : newLen - oldLen = 0 := by omega
      rw [if_pos same, equal, checkedAdd]
      by_cases fits : usedBytes + 0 ≤ u64Max
      · rw [if_pos fits]
        by_cases full : quota.maxBytes.toNat < usedBytes
        · dsimp only
          rw [if_pos (by omega), if_neg (by omega)]
        · dsimp only
          rw [if_neg (by omega), if_pos (by omega)]
          congr 1
          omega
      · rw [if_neg fits, if_neg (by omega)]
    · rw [if_neg same]
      by_cases full : quota.maxBytes.toNat < usedBytes - (oldLen - newLen)
      · dsimp only
        rw [if_pos full, if_neg (by omega)]
      · dsimp only
        rw [if_neg full, if_pos (by omega)]

theorem resizedUsage_admitted {usedBytes oldLen newLen : Nat} (shrinks : newLen ≤ oldLen)
    (admitted : Admits quota usedBytes oldLen newLen) :
    resizedUsage quota usedBytes oldLen newLen = .ok (usedBytes - (oldLen - newLen)) := by
  rw [resizedUsage_no_growth shrinks]
  exact if_pos admitted

theorem resizedUsage_refused {usedBytes oldLen newLen : Nat} (shrinks : newLen ≤ oldLen)
    (refused : ¬ Admits quota usedBytes oldLen newLen) :
    resizedUsage quota usedBytes oldLen newLen = .error .ENOSPC := by
  rw [resizedUsage_no_growth shrinks]
  exact if_neg refused

/-! ## Truncation -/

/-- The outcome of a truncation once its handle is found writable. -/
theorem outcome_truncate {handle len : Nat} {file : HandleState}
    (found : state.handles.get handle = some file) (writable : file.writable = true) :
    outcome (truncate posix quota handle len) state =
      match resizedUsage quota state.usedBytes (state.host.len file.key) len with
      | .error error => some (.error error, state)
      | .ok usedBytes =>
          match posix.setLenFails with
          | some error => some (.error (ioError error), state)
          | none => some (.ok (), { state with
              host := state.host.put file.key (setLen (state.host.data file.key) len)
              usedBytes }) := by
  have allowed : ¬ ¬ file.writable = true := fun refused => refused writable
  rw [truncate, outcome_bind, outcome_get]
  simp only [Option.bind_some]
  rw [found, okOr_some, outcome_lift_bind_ok, outcome_bind, outcome_refuse, if_neg allowed]
  simp only [Option.bind_some]
  cases checked : resizedUsage quota state.usedBytes (state.host.len file.key) len with
  | error error => rw [outcome_lift_bind_error]
  | ok usedBytes =>
      rw [outcome_lift_bind_ok]
      cases failing : posix.setLenFails with
      | none => simp only [Host.setLenAt, failing, osResult, outcome_lift_bind_ok, outcome_set]
      | some error => simp only [Host.setLenAt, failing, osResult, outcome_lift_bind_error]

theorem outcome_truncate_read_only {handle len : Nat} {file : HandleState}
    (found : state.handles.get handle = some file) (readOnly : file.writable = false) :
    outcome (truncate posix quota handle len) state = some (.error .EINVAL, state) := by
  have refused : ¬ file.writable = true := by simp [readOnly]
  rw [truncate, outcome_bind, outcome_get]
  simp only [Option.bind_some]
  rw [found, okOr_some, outcome_lift_bind_ok, outcome_bind, outcome_refuse, if_pos refused]
  rfl

/-- The host does not run out of space by itself when it resizes a file. -/
def ResizeFits (posix : Posix) : Prop :=
  ∀ error, posix.setLenFails = some error → ioError error ≠ .ENOSPC

theorem truncate_fits_iff {handle len : Nat} {file : HandleState}
    (found : state.handles.get handle = some file) (shrinks : len ≤ state.host.len file.key) :
    ¬ RunsOut (truncate posix quota handle len) state ↔
      file.writable = false ∨
        (Admits quota state.usedBytes (state.host.len file.key) len ∧ ResizeFits posix) := by
  cases writable : file.writable with
  | false => simp [RunsOut, outcome_truncate_read_only found writable]
  | true =>
      rw [RunsOut, outcome_truncate found writable]
      by_cases admitted : Admits quota state.usedBytes (state.host.len file.key) len
      · rw [resizedUsage_admitted shrinks admitted]
        cases failing : posix.setLenFails with
        | none => simp [admitted, ResizeFits, failing]
        | some error => simp [admitted, ResizeFits, failing]
      · rw [resizedUsage_refused shrinks admitted]
        simp [admitted]

/-- A refused truncation changes nothing at all. -/
theorem truncate_error {handle len : Nat} {error : Errno} {after : State}
    (failed : outcome (truncate posix quota handle len) state = some (.error error, after)) :
    after = state := by
  cases found : state.handles.get handle with
  | none =>
      rw [truncate, outcome_bind, outcome_get] at failed
      simp only [Option.bind_some] at failed
      rw [found, okOr_none, outcome_lift_bind_error] at failed
      cases failed
      rfl
  | some file =>
      cases writable : file.writable with
      | false =>
          rw [outcome_truncate_read_only found writable] at failed
          cases failed
          rfl
      | true =>
          rw [outcome_truncate found writable] at failed
          split at failed
          · cases failed
            rfl
          · split at failed
            · cases failed
              rfl
            · cases failed

/-! ## Writes -/

/-- The outcome of a write of some data once its handle is found writable. -/
theorem outcome_writeAt {handle offset : Nat} {data : Bytes} {file : HandleState}
    (found : state.handles.get handle = some file) (writable : file.writable = true)
    (nonempty : data ≠ []) (small : writeStart state file offset + data.length ≤ u64Max) :
    outcome (writeAt posix quota handle offset data) state =
      match resizedUsage quota state.usedBytes (state.host.len file.key)
          (max (state.host.len file.key) (writeStart state file offset + data.length)) with
      | .error error => some (.error error, state)
      | .ok usedBytes =>
          match posix.writeFails with
          | none => some (.ok data.length, { state with
              host := state.host.put file.key
                (pwrite (state.host.data file.key) (writeStart state file offset) data)
              usedBytes })
          | some (count, error) =>
              let host := state.host.put file.key
                (pwrite (state.host.data file.key) (writeStart state file offset) (data.take count))
              some (.error (ioError error), { state with
                host
                usedBytes :=
                  resync state.usedBytes (state.host.len file.key) (host.len file.key) }) := by
  have allowed : ¬ ¬ file.writable = true := fun refused => refused writable
  have sum : checkedAdd (writeStart state file offset) data.length =
      some (writeStart state file offset + data.length) := by rw [checkedAdd, if_pos small]
  rw [writeAt, outcome_bind, outcome_get]
  simp only [Option.bind_some]
  rw [found, okOr_some, outcome_lift_bind_ok, outcome_bind, outcome_refuse, if_neg allowed]
  simp only [Option.bind_some]
  rw [if_neg nonempty, ← writeStart, sum, okOr_some, outcome_lift_bind_ok]
  cases checked : resizedUsage quota state.usedBytes (state.host.len file.key)
      (max (state.host.len file.key) (writeStart state file offset + data.length)) with
  | error error => rw [outcome_lift_bind_error]
  | ok usedBytes =>
      rw [outcome_lift_bind_ok]
      cases failing : posix.writeFails with
      | none => simp only [Host.writeAllAt, failing, outcome_set_bind, outcome_pure]
      | some failure => simp only [Host.writeAllAt, failing, outcome_set_bind, outcome_throw]

theorem outcome_writeAt_read_only {handle offset : Nat} {data : Bytes} {file : HandleState}
    (found : state.handles.get handle = some file) (readOnly : file.writable = false) :
    outcome (writeAt posix quota handle offset data) state = some (.error .EBADF, state) := by
  have refused : ¬ file.writable = true := by simp [readOnly]
  rw [writeAt, outcome_bind, outcome_get]
  simp only [Option.bind_some]
  rw [found, okOr_some, outcome_lift_bind_ok, outcome_bind, outcome_refuse, if_pos refused]
  rfl

theorem outcome_writeAt_nil {handle offset : Nat} {file : HandleState}
    (found : state.handles.get handle = some file) (writable : file.writable = true) :
    outcome (writeAt posix quota handle offset []) state = some (.ok 0, state) := by
  have allowed : ¬ ¬ file.writable = true := fun refused => refused writable
  rw [writeAt, outcome_bind, outcome_get]
  simp only [Option.bind_some]
  rw [found, okOr_some, outcome_lift_bind_ok, outcome_bind, outcome_refuse, if_neg allowed]
  simp only [Option.bind_some]
  rw [if_pos trivial, outcome_pure]

theorem outcome_writeAt_overflow {handle offset : Nat} {data : Bytes} {file : HandleState}
    (found : state.handles.get handle = some file) (writable : file.writable = true)
    (nonempty : data ≠ []) (large : u64Max < writeStart state file offset + data.length) :
    outcome (writeAt posix quota handle offset data) state = some (.error .EINVAL, state) := by
  have allowed : ¬ ¬ file.writable = true := fun refused => refused writable
  have overflow : checkedAdd (writeStart state file offset) data.length = none := by
    rw [checkedAdd, if_neg (by omega)]
  rw [writeAt, outcome_bind, outcome_get]
  simp only [Option.bind_some]
  rw [found, okOr_some, outcome_lift_bind_ok, outcome_bind, outcome_refuse, if_neg allowed]
  simp only [Option.bind_some]
  rw [if_neg nonempty, ← writeStart, overflow, okOr_none, outcome_lift_bind_error]

/-- The host does not run out of space by itself when it writes to a file. -/
def WriteFits (posix : Posix) : Prop :=
  ∀ count error, posix.writeFails = some (count, error) → ioError error ≠ .ENOSPC

/-- The write does nothing, or it is refused for another reason before the quota is read. -/
def Skipped (state : State) (file : HandleState) (offset : Nat) (data : Bytes) : Prop :=
  file.writable = false ∨ data = [] ∨ u64Max < writeStart state file offset + data.length

theorem writeAt_fits_iff {handle offset : Nat} {data : Bytes} {file : HandleState}
    (found : state.handles.get handle = some file)
    (inside : writeStart state file offset + data.length ≤ state.host.len file.key) :
    ¬ RunsOut (writeAt posix quota handle offset data) state ↔
      Skipped state file offset data ∨
        (Admits quota state.usedBytes (state.host.len file.key) (state.host.len file.key) ∧
          WriteFits posix) := by
  cases writable : file.writable with
  | false => simp [RunsOut, Skipped, outcome_writeAt_read_only found writable, writable]
  | true =>
      by_cases nonempty : data = []
      · subst nonempty
        simp [RunsOut, Skipped, outcome_writeAt_nil found writable]
      · by_cases small : writeStart state file offset + data.length ≤ u64Max
        · have used : ¬ Skipped state file offset data := by
            simp [Skipped, writable, nonempty, small]
          rw [RunsOut, outcome_writeAt found writable nonempty small, max_eq_left inside]
          by_cases admitted : Admits quota state.usedBytes (state.host.len file.key)
              (state.host.len file.key)
          · rw [resizedUsage_admitted le_rfl admitted]
            cases failing : posix.writeFails with
            | none => simp [used, admitted, WriteFits, failing]
            | some failure =>
                rcases failure with ⟨count, error⟩
                simp [used, admitted, WriteFits, failing]
          · rw [resizedUsage_refused le_rfl admitted]
            simp [used, admitted]
        · have large : u64Max < writeStart state file offset + data.length := by omega
          rw [RunsOut, outcome_writeAt_overflow found writable nonempty large]
          simp [Skipped, large]

/-- The quota itself refuses the write. -/
def OverQuota (quota : VfsQuota) (state : State) (file : HandleState) (offset : Nat)
    (data : Bytes) : Prop :=
  ∃ error, resizedUsage quota state.usedBytes (state.host.len file.key)
    (max (state.host.len file.key) (writeStart state file offset + data.length)) = .error error

/-- What the host wrote before it stopped was there before, and the usage covers the file. -/
def Harmless (posix : Posix) (state : State) (file : HandleState) (offset : Nat)
    (data : Bytes) : Prop :=
  ∀ count error, posix.writeFails = some (count, error) →
    pwrite (state.host.data file.key) (writeStart state file offset) (data.take count) =
        state.host.data file.key ∧
      min (state.host.len file.key) u64Max ≤ state.usedBytes ∧ state.usedBytes ≤ u64Max

theorem Host.put_eq_self_iff {host : Host} {key : FileKey} {bytes : Bytes} :
    host.put key bytes = host ↔ bytes = host.data key := by
  constructor
  · intro same
    have stored : (host.put key bytes).data key = bytes := by simp [Host.put]
    rw [← stored, same]
  · intro same
    rw [same, Host.put, Function.update_eq_self]

/-- The usage stays when it covered the file, and it never exceeds its type. -/
theorem resync_eq_self_iff {usedBytes len : Nat} :
    resync usedBytes len len = usedBytes ↔ min len u64Max ≤ usedBytes ∧ usedBytes ≤ u64Max := by
  unfold resync
  omega

theorem writeAt_untouched_iff {handle offset : Nat} {data : Bytes} {file : HandleState}
    {after : State} (found : state.handles.get handle = some file)
    (failed : outcome (writeAt posix quota handle offset data) state =
      some (.error .ENOSPC, after)) :
    Untouched state after ↔
      OverQuota quota state file offset data ∨ Harmless posix state file offset data := by
  cases writable : file.writable with
  | false =>
      rw [outcome_writeAt_read_only found writable] at failed
      cases failed
  | true =>
      by_cases nonempty : data = []
      · subst nonempty
        rw [outcome_writeAt_nil found writable] at failed
        cases failed
      · by_cases small : writeStart state file offset + data.length ≤ u64Max
        · rw [outcome_writeAt found writable nonempty small] at failed
          cases checked : resizedUsage quota state.usedBytes (state.host.len file.key)
              (max (state.host.len file.key) (writeStart state file offset + data.length)) with
          | error error =>
              have refused : OverQuota quota state file offset data := ⟨error, checked⟩
              rw [checked] at failed
              cases failed
              exact iff_of_true ⟨rfl, rfl, rfl⟩ (.inl refused)
          | ok usedBytes =>
              have within : ¬ OverQuota quota state file offset data := by
                simp [OverQuota, checked]
              rw [checked] at failed
              rw [or_iff_right within]
              cases failing : posix.writeFails with
              | none =>
                  rw [failing] at failed
                  cases failed
              | some failure =>
                  rcases failure with ⟨count, error⟩
                  rw [failing] at failed
                  obtain ⟨-, rfl⟩ := Prod.mk.inj (Option.some.inj failed)
                  constructor
                  · intro untouched reached cause here
                    rw [failing] at here
                    cases here
                    have bytes := Host.put_eq_self_iff.mp untouched.host
                    have usage := untouched.usedBytes
                    dsimp only at usage
                    rw [Host.put_eq_self_iff.mpr bytes] at usage
                    exact ⟨bytes, resync_eq_self_iff.mp usage⟩
                  · intro harmless
                    obtain ⟨bytes, usage⟩ := harmless count error failing
                    have host := Host.put_eq_self_iff.mpr bytes
                    refine ⟨host, ?_, rfl⟩
                    dsimp only
                    rw [host]
                    exact resync_eq_self_iff.mpr usage
        · have large : u64Max < writeStart state file offset + data.length := by omega
          rw [outcome_writeAt_overflow found writable nonempty large] at failed
          cases failed

/-! ## The operations on paths -/

/-- These numbers and the files that a name or a handle uses are as before. -/
structure Spared (before after : State) : Prop where
  usedBytes : after.usedBytes = before.usedBytes
  fileCount : after.fileCount = before.fileCount
  data : ∀ key ∈ before.usedKeys, after.host.data key = before.host.data key

theorem Spared.refl : Spared state state := ⟨rfl, rfl, fun _ _ => rfl⟩

/-- A call that fails leaves the files and the numbers alone. -/
def Spares {α : Type} (call : LocalCall α) (state : State) : Prop :=
  EndsAt (fun _ _ => True) (fun _ => Spared state) call state

theorem osResult_ok {α : Type} {result : Except OsError α} {value : α}
    (succeeded : osResult result = .ok value) : result = .ok value := by
  cases result with
  | ok found =>
      cases succeeded
      rfl
  | error error => cases succeeded

section Steps
variable {α β : Type} {returns : α → State → Prop}

theorem spares_lift_bind {result : VfsResult β} {next : β → LocalCall α}
    (rest : ∀ value, result = .ok value →
      EndsAt returns (fun _ => Spared state) (next value) state) :
    EndsAt returns (fun _ => Spared state) (lift result >>= next) state :=
  endsAt_lift_bind (fun _ _ => Spared.refl) rest

theorem spares_refuse_bind {condition : Prop} [Decidable condition] {error : Errno}
    {next : PUnit → LocalCall α}
    (rest : ¬ condition → EndsAt returns (fun _ => Spared state) (next ⟨⟩) state) :
    EndsAt returns (fun _ => Spared state) (refuse condition error >>= next) state :=
  endsAt_refuse_bind (fun _ => Spared.refl) rest

end Steps

/-- An error of the host stops the call before anything changes. -/
theorem spares_onHost {action : Host → Except OsError Host} :
    EndsAt (fun _ after => ∃ host, after = { state with host }) (fun _ => Spared state)
      (onHost action) state := by
  unfold onHost
  apply endsAt_get_bind
  apply spares_lift_bind
  intro host _
  exact endsAt_set ⟨host, rfl⟩

theorem spares_mkdir {path : Text} : Spares (mkdir posix quota path) state := by
  apply endsAt_get_bind
  apply spares_lift_bind
  intro resolved _
  apply spares_refuse_bind
  intro _
  apply spares_lift_bind
  intro found _
  apply spares_refuse_bind
  intro _
  apply spares_lift_bind
  intro _ _
  apply spares_onHost.bind
  intro _ after _
  apply endsAt_get_bind
  exact endsAt_set trivial

theorem spares_rename {source target : Text} : Spares (rename posix source target) state := by
  apply endsAt_get_bind
  apply spares_lift_bind
  intro source _
  apply spares_lift_bind
  intro target _
  apply spares_refuse_bind
  intro _
  apply spares_lift_bind
  intro found _
  apply spares_lift_bind
  intro kind _
  apply endsAt_ite
  · intro _
    exact endsAt_pure trivial
  · intro _
    apply spares_refuse_bind
    intro _
    apply spares_lift_bind
    intro _ _
    apply spares_lift_bind
    intro replaced _
    apply spares_lift_bind
    intro host _
    exact endsAt_set trivial

theorem spares_unlink {path : Text} : Spares (unlink posix path) state := by
  apply endsAt_get_bind
  apply spares_lift_bind
  intro resolved _
  apply spares_refuse_bind
  intro _
  apply spares_lift_bind
  intro found _
  cases found with
  | none => exact endsAt_throw Spared.refl
  | some entry =>
      cases entry with
      | file key len =>
          apply spares_onHost.bind
          intro _ after _
          apply endsAt_get_bind
          exact endsAt_set trivial
      | directory => exact endsAt_throw Spared.refl
      | other => exact endsAt_throw Spared.refl

theorem spares_rmdir {path : Text} : Spares (rmdir posix path) state := by
  apply endsAt_get_bind
  apply spares_lift_bind
  intro resolved _
  apply spares_refuse_bind
  intro _
  apply spares_lift_bind
  intro found _
  cases found with
  | none => exact endsAt_throw Spared.refl
  | some entry =>
      cases entry with
      | file key len => exact endsAt_throw Spared.refl
      | directory =>
          apply spares_lift_bind
          intro host _
          exact endsAt_set trivial
      | other => exact endsAt_throw Spared.refl

/-- A new file takes a key that no other file uses. -/
theorem createat_data {used : List FileKey} {host after : Host} {dir : Path} {name : Name}
    {key : FileKey} (created : host.createat posix used dir name = .ok (key, after)) :
    ∀ other ∈ used, after.data other = host.data other := by
  intro other member
  unfold Host.createat at created
  obtain ⟨entries, -, created⟩ := bind_eq_ok_iff.mp created
  cases there : Entries.get name entries with
  | some node =>
      rw [there] at created
      cases created
  | none =>
      rw [there] at created
      cases created
      have fresh : other ≠ posix.allocate used := by
        rintro rfl
        exact posix.allocate_fresh _ member
      simp [Host.setEntries, Host.put, fresh]

theorem spares_openFile {resolved : Resolved} {mode : OpenMode} :
    EndsAt (fun _ => Spared state) (fun _ => Spared state) (openFile posix quota resolved mode)
      state := by
  apply endsAt_get_bind
  apply spares_lift_bind
  intro found _
  cases found with
  | none =>
      apply spares_refuse_bind
      intro _
      apply spares_lift_bind
      intro _ _
      apply spares_lift_bind
      intro created here
      rcases created with ⟨key, host⟩
      apply endsAt_set_bind
      apply endsAt_pure
      exact ⟨rfl, rfl, createat_data (osResult_ok here)⟩
  | some entry =>
      cases entry with
      | file key len =>
          apply spares_refuse_bind
          intro _
          apply spares_lift_bind
          intro opened _
          cases opened with
          | none => exact endsAt_throw Spared.refl
          | some key => exact endsAt_pure Spared.refl
      | directory => exact endsAt_throw Spared.refl
      | other => exact endsAt_throw Spared.refl

theorem spares_open {path : Text} {mode : OpenMode} :
    Spares («open» posix quota path mode) state := by
  apply spares_lift_bind
  intro _ _
  apply endsAt_get_bind
  apply spares_lift_bind
  intro resolved _
  apply spares_openFile.bind
  intro opened after spared
  rcases opened with ⟨key, creating⟩
  apply endsAt_get_bind
  dsimp only
  apply endsAt_ite
  · intro _
    apply endsAt_lift_bind
    · intro error failed
      exact spared
    · intro _ _
      exact endsAt_set_bind (endsAt_get_bind (endsAt_set_bind (endsAt_pure trivial)))
  · intro _
    exact endsAt_get_bind (endsAt_set_bind (endsAt_pure trivial))

/-! ## Growth -/

/-- A call that does not grow a file is refused for space exactly when an old limit is exceeded or
the host is full, and a refused call leaves the file unless the host stopped in the middle. -/
theorem only_growth_runs_out_iff {handle : Nat} {file : HandleState}
    (found : state.handles.get handle = some file) :
    (∀ len, len ≤ state.host.len file.key →
      (¬ RunsOut (truncate posix quota handle len) state ↔
        file.writable = false ∨
          (Admits quota state.usedBytes (state.host.len file.key) len ∧ ResizeFits posix))) ∧
    (∀ offset data, writeStart state file offset + data.length ≤ state.host.len file.key →
      (¬ RunsOut (writeAt posix quota handle offset data) state ↔
        Skipped state file offset data ∨
          (Admits quota state.usedBytes (state.host.len file.key) (state.host.len file.key) ∧
            WriteFits posix))) ∧
    (∀ len after, outcome (truncate posix quota handle len) state =
        some (.error .ENOSPC, after) → after = state) ∧
    (∀ offset data after, outcome (writeAt posix quota handle offset data) state =
        some (.error .ENOSPC, after) →
      (Untouched state after ↔
        OverQuota quota state file offset data ∨ Harmless posix state file offset data)) ∧
    ∀ path other mode, Spares («open» posix quota path mode) state ∧
      Spares (mkdir posix quota path) state ∧ Spares (rename posix path other) state ∧
      Spares (unlink posix path) state ∧ Spares (rmdir posix path) state := by
  refine ⟨?_, ?_, ?_, ?_, ?_⟩
  · intro len shrinks
    exact truncate_fits_iff found shrinks
  · intro offset data inside
    exact writeAt_fits_iff found inside
  · intro len after failed
    exact truncate_error failed
  · intro offset data after failed
    exact writeAt_untouched_iff found failed
  · intro path other mode
    exact ⟨spares_open, spares_mkdir, spares_rename, spares_unlink, spares_rmdir⟩

end Quota

section LongFile

/-- The next inode follows the largest one in use. -/
def nextInode (used : List FileKey) : FileKey :=
  toLex (0, (used.map fun key => (ofLex key).2).foldr max 0 + 1)

theorem le_foldr_max {inode : Nat} {inodes : List Nat} (member : inode ∈ inodes) :
    inode ≤ inodes.foldr max 0 := by
  induction inodes with
  | nil => cases member
  | cons first rest ih =>
      rcases List.mem_cons.mp member with rfl | later
      · exact le_max_left _ _
      · exact (ih later).trans (le_max_right _ _)

theorem nextInode_fresh (used : List FileKey) : nextInode used ∉ used := by
  intro member
  have bound := le_foldr_max (List.mem_map_of_mem (f := fun key => (ofLex key).2) member)
  have next : (ofLex (nextInode used)).2 = (used.map fun key => (ofLex key).2).foldr max 0 + 1 := rfl
  rw [next] at bound
  exact absurd bound (Nat.not_succ_le_self _)

/-- This host takes every name and refuses nothing. -/
def roomyHost : Posix where
  accepts := fun _ => true
  accepts_self := rfl
  isUtf8 := fun _ => true
  order := id
  order_perm := List.Perm.refl
  allocate := nextInode
  allocate_fresh := nextInode_fresh
  chunk := id
  chunk_pos := fun _ positive => positive
  notEmpty := .ENOTEMPTY
  notEmpty_cases := .inr rfl
  specialDirectory := .ENOTDIR
  specialDirectory_cases := .inl rfl
  writeFails := none
  setLenFails := none

/-- Files hold at most five bytes. -/
def fiveByteFiles : VfsQuota := { VfsQuota.unlimited with maxFileSize := 5 }

/-- This directory held a file of ten bytes before, and the file is open for writing. -/
def longFileOpen : State where
  host := {
    root := .directory [("a".toList, .file (.regular (toLex (0, 1))))]
    data := fun _ => List.replicate 10 0 }
  handles := OrderedMap.empty.insert 3
    { key := toLex (0, 1), readable := true, writable := true, append := false }
  openFiles := OrderedMap.empty.insert (toLex (0, 1)) { openHandles := 1 }
  nextHandle := 4
  usedBytes := 10
  fileCount := 1

/-- The long file cannot be cut to eight bytes. -/
theorem cut_runs_out : 8 ≤ longFileOpen.host.len (toLex (0, 1)) ∧
    RunsOut (truncate roomyHost fiveByteFiles 3 8) longFileOpen :=
  ⟨by decide, longFileOpen, rfl⟩

/-- The long file can be cut to five bytes. -/
theorem cut_to_limit : 5 ≤ longFileOpen.host.len (toLex (0, 1)) ∧
    ¬ RunsOut (truncate roomyHost fiveByteFiles 3 5) longFileOpen := by
  have found : longFileOpen.handles.get 3 =
      some { key := toLex (0, 1), readable := true, writable := true, append := false } := rfl
  refine ⟨by decide, ((only_growth_runs_out_iff found).1 5 (by decide)).mpr (.inr ⟨?_, ?_⟩)⟩
  · exact ⟨by decide, by decide⟩
  · intro error failing
    cases failing

end LongFile

end TinySandbox.Local
