/-
This file proves what the table of descriptors keeps over every run of host calls.
-/

import TinySandbox.Proof.Js.Responses
import TinySandbox.Specification.Handles

namespace TinySandbox.Js
open Library Library.Task Sandbox

/-! ## One call -/

/-- What a call does to the table. -/
inductive Effect (step : HostStep) : Prop where
  | quiet (unchanged : step.after = step.before)
      (unopened : step.events.filterMap openedHandle = [])
      (unreleased : step.events.filterMap releasedHandle = [])
      (undescribed : step.descriptor = none) (still : ∀ fd count, ¬ step.Moves fd count)
  | opens (handle : Nat) (calls : step.op = .open)
      (room : step.before.fds.size < step.before.maxOpenFiles)
      (fresh : step.before.nextFd ≠ i32Max)
      (opened : step.events.filterMap openedHandle = [handle])
      (unreleased : step.events.filterMap releasedHandle = [])
      (returns : step.result = .ok (natJson step.before.nextFd.toNat))
      (after : step.after = { step.before with
        fds := step.before.fds.insert step.before.nextFd { handle := handle, position := 0 }
        nextFd := step.before.nextFd + 1 })
  | moves (fd : Int) (file : OpenFile) (count : Nat) (moved : step.Moves fd count)
      (found : step.before.fds.get fd = some file)
      (unopened : step.events.filterMap openedHandle = [])
      (unreleased : step.events.filterMap releasedHandle = [])
      (after : step.after = { step.before with
        fds := step.before.fds.insert fd
          { file with position := min (file.position + count) u64Max } })
  | closes (fd : Int) (file : OpenFile) (calls : step.op = .close)
      (names : i32Arg step.args "fd".toList = .ok fd)
      (found : step.before.fds.get fd = some file)
      (unopened : step.events.filterMap openedHandle = [])
      (released : step.events.filterMap releasedHandle = [file.handle])
      (after : step.after = { step.before with fds := step.before.fds.erase fd })

/-- The requests of a call on a descriptor name the handle in the table. -/
def HostStep.Addresses (step : HostStep) : Prop :=
  step.OnDescriptor → ∀ event ∈ step.events, ∃ fd file,
    i32Arg step.args "fd".toList = .ok fd ∧ step.before.fds.get fd = some file ∧
      addressedHandle event.1 = some file.handle

structure HostStep.Spec (step : HostStep) : Prop where
  effect : Effect step
  addresses : step.Addresses

section Calls
variable {state : HostState} {args : Json} {op : HostOp}

/-- A refused call changes nothing and sends nothing. -/
theorem spec_refused (error : NodeError) :
    HostStep.Spec ⟨state, op, args, [], .error error, state⟩ where
  effect := by
    refine .quiet rfl rfl rfl ?_ ?_
    · cases op <;> rfl
    · intro fd count moves
      obtain ⟨value, returned⟩ := moves.succeeds
      cases returned
  addresses := by
    intro onDescriptor event member
    cases member

/-- A call that fails in the filesystem changes nothing. -/
theorem spec_failed {call : FsCall} {response : HostRequest.Response (.fs call)} (error : NodeError)
    (unopened : openedHandle ⟨.fs call, response⟩ = none)
    (unreleased : releasedHandle ⟨.fs call, response⟩ = none)
    (addresses : HostStep.Addresses
      ⟨state, op, args, [⟨.fs call, response⟩], .error error, state⟩) :
    HostStep.Spec ⟨state, op, args, [⟨.fs call, response⟩], .error error, state⟩ where
  effect := by
    refine .quiet rfl ?_ ?_ ?_ ?_
    · exact List.filterMap_cons_none unopened
    · exact List.filterMap_cons_none unreleased
    · cases op <;> rfl
    · intro fd count moves
      obtain ⟨value, returned⟩ := moves.succeeds
      cases returned
  addresses := addresses

/-- The only request of the call names the handle behind its descriptor. -/
theorem addresses_one {fd : Int} {file : OpenFile} {event : HostEvent}
    {result : Except NodeError Json} {after : HostState}
    (names : i32Arg args "fd".toList = .ok fd) (found : state.fds.get fd = some file)
    (addressed : addressedHandle event.1 = some file.handle) :
    HostStep.Addresses ⟨state, op, args, [event], result, after⟩ := by
  intro onDescriptor other member
  obtain rfl := List.mem_singleton.mp member
  exact ⟨fd, file, names, found, addressed⟩

theorem fileOf_ok {fd : Int} {syscall : Text} {file : OpenFile}
    (found : fileOf state fd syscall = .ok file) : state.fds.get fd = some file := by
  rw [fileOf] at found
  split at found
  · cases found
    assumption
  · cases found

/-- A read or a write leaves the table or moves its descriptor. -/
theorem spec_transferred {call : FsCall} {response : HostRequest.Response (.fs call)} {fd : Int}
    {offset : Option Nat} {file : OpenFile} {count : Nat} {value : Json}
    (transfers : op = .read ∨ op = .write) (names : i32Arg args "fd".toList = .ok fd)
    (placed : u64Arg args "position".toList = .ok offset) (found : state.fds.get fd = some file)
    (addressed : addressedHandle (.fs call) = some file.handle)
    (unopened : openedHandle ⟨.fs call, response⟩ = none)
    (unreleased : releasedHandle ⟨.fs call, response⟩ = none)
    (moved : movedBytes ⟨.fs call, response⟩ = some count) :
    HostStep.Spec ⟨state, op, args, [⟨.fs call, response⟩], .ok value,
      state.advance fd file offset count⟩ where
  effect := by
    cases offset with
    | some offset =>
        refine .quiet rfl (List.filterMap_cons_none unopened) (List.filterMap_cons_none unreleased)
          ?_ ?_
        · rcases transfers with rfl | rfl <;> rfl
        · intro other moved moves
          have unplaced := placed.symm.trans moves.unplaced
          cases unplaced
    | none =>
        refine .moves fd file count ⟨transfers, names, placed, ⟨value, rfl⟩, ?_⟩ found
          (List.filterMap_cons_none unopened) (List.filterMap_cons_none unreleased) rfl
        exact List.filterMap_cons_some moved
  addresses := addresses_one names found addressed

theorem hostReadFile_spec :
    Wp (hostReadFile args) state []
      (fun value after events => HostStep.Spec ⟨state, .readFile, args, events, .ok value, after⟩)
      (fun error after events =>
        HostStep.Spec ⟨state, .readFile, args, events, .error error, after⟩) := by
  have elsewhere : ¬ HostStep.OnDescriptor ⟨state, .readFile, args, [], .ok .null, state⟩ := by
    simp [HostStep.OnDescriptor]
  rw [hostReadFile]
  apply wp_lift_bind
  · intro error _
    exact spec_refused error
  · intro path _
    rw [wp_bind_iff, wp_get_iff, wp_bind_iff, wp_request_iff]
    intro response
    apply wp_lift_bind
    · intro error _
      exact spec_failed error rfl rfl fun onDescriptor => absurd onDescriptor elsewhere
    · intro data _
      rw [wp_pure_iff]
      refine ⟨.quiet rfl rfl rfl rfl ?_, fun onDescriptor => absurd onDescriptor elsewhere⟩
      intro fd count moves
      rcases moves.transfers with read | write
      · cases read
      · cases write

theorem hostOpen_spec :
    Wp (hostOpen args) state []
      (fun value after events => HostStep.Spec ⟨state, .open, args, events, .ok value, after⟩)
      (fun error after events =>
        HostStep.Spec ⟨state, .open, args, events, .error error, after⟩) := by
  have elsewhere : ¬ HostStep.OnDescriptor ⟨state, .open, args, [], .ok .null, state⟩ := by
    simp [HostStep.OnDescriptor]
  rw [hostOpen, wp_bind_iff, wp_get_iff, wp_bind_iff, wp_refuse_iff]
  split
  · exact spec_refused _
  · rename_i admitted
    obtain ⟨room, fresh⟩ := not_or.mp admitted
    apply wp_lift_bind
    · intro error _
      exact spec_refused error
    · intro path _
      apply wp_lift_bind
      · intro error _
        exact spec_refused error
      · intro flags _
        apply wp_lift_bind
        · intro error _
          exact spec_refused error
        · intro mode _
          rw [wp_bind_iff, wp_request_iff]
          intro response
          apply wp_lift_bind
          · intro error failed
            cases response with
            | ok handle => cases failed
            | error errno =>
                exact spec_failed error rfl rfl fun onDescriptor => absurd onDescriptor elsewhere
          · intro handle opened
            obtain rfl := vfsResult_ok opened
            rw [wp_bind_iff, wp_set_iff, wp_pure_iff]
            exact ⟨.opens handle rfl (Nat.lt_of_not_le room) fresh rfl rfl rfl rfl,
              fun onDescriptor => absurd onDescriptor elsewhere⟩

theorem hostRead_spec :
    Wp (hostRead args) state []
      (fun value after events => HostStep.Spec ⟨state, .read, args, events, .ok value, after⟩)
      (fun error after events =>
        HostStep.Spec ⟨state, .read, args, events, .error error, after⟩) := by
  rw [hostRead]
  apply wp_lift_bind
  · intro error _
    exact spec_refused error
  · intro fd names
    apply wp_lift_bind
    · intro error _
      exact spec_refused error
    · intro offset placed
      apply wp_lift_bind
      · intro error _
        exact spec_refused error
      · intro len _
        rw [wp_bind_iff, wp_get_iff]
        apply wp_lift_bind
        · intro error _
          exact spec_refused error
        · intro file found
          rw [wp_bind_iff, wp_request_iff]
          intro response
          apply wp_lift_bind
          · intro error _
            exact spec_failed error rfl rfl (addresses_one names (fileOf_ok found) rfl)
          · intro data read
            obtain rfl := vfsResult_ok read
            rw [wp_bind_iff, wp_set_iff, wp_pure_iff]
            exact spec_transferred (.inl rfl) names placed (fileOf_ok found) rfl rfl rfl rfl

theorem hostWrite_spec :
    Wp (hostWrite args) state []
      (fun value after events => HostStep.Spec ⟨state, .write, args, events, .ok value, after⟩)
      (fun error after events =>
        HostStep.Spec ⟨state, .write, args, events, .error error, after⟩) := by
  rw [hostWrite]
  apply wp_lift_bind
  · intro error _
    exact spec_refused error
  · intro fd names
    apply wp_lift_bind
    · intro error _
      exact spec_refused error
    · intro data _
      apply wp_lift_bind
      · intro error _
        exact spec_refused error
      · intro offset placed
        rw [wp_bind_iff, wp_get_iff]
        apply wp_lift_bind
        · intro error _
          exact spec_refused error
        · intro file found
          rw [wp_bind_iff, wp_request_iff]
          intro response
          apply wp_lift_bind
          · intro error _
            exact spec_failed error rfl rfl (addresses_one names (fileOf_ok found) rfl)
          · intro count wrote
            obtain rfl := vfsResult_ok wrote
            rw [wp_bind_iff, wp_set_iff, wp_pure_iff]
            exact spec_transferred (.inr rfl) names placed (fileOf_ok found) rfl rfl rfl rfl

theorem hostFtruncate_spec :
    Wp (hostFtruncate args) state []
      (fun value after events => HostStep.Spec ⟨state, .ftruncate, args, events, .ok value, after⟩)
      (fun error after events =>
        HostStep.Spec ⟨state, .ftruncate, args, events, .error error, after⟩) := by
  rw [hostFtruncate]
  apply wp_lift_bind
  · intro error _
    exact spec_refused error
  · intro fd names
    apply wp_lift_bind
    · intro error _
      exact spec_refused error
    · intro len _
      rw [wp_bind_iff, wp_get_iff]
      apply wp_lift_bind
      · intro error _
        exact spec_refused error
      · intro file found
        rw [wp_bind_iff, wp_request_iff]
        intro response
        apply wp_lift_bind
        · intro error _
          exact spec_failed error rfl rfl (addresses_one names (fileOf_ok found) rfl)
        · intro _ _
          rw [wp_pure_iff]
          refine ⟨.quiet rfl rfl rfl rfl ?_, addresses_one names (fileOf_ok found) rfl⟩
          intro other count moves
          rcases moves.transfers with read | write
          · cases read
          · cases write

theorem hostClose_spec :
    Wp (hostClose args) state []
      (fun value after events => HostStep.Spec ⟨state, .close, args, events, .ok value, after⟩)
      (fun error after events =>
        HostStep.Spec ⟨state, .close, args, events, .error error, after⟩) := by
  rw [hostClose]
  apply wp_lift_bind
  · intro error _
    exact spec_refused error
  · intro fd names
    rw [wp_bind_iff, wp_get_iff]
    apply wp_lift_bind
    · intro error _
      exact spec_refused error
    · intro file found
      rw [wp_bind_iff, wp_set_iff, wp_bind_iff, wp_request_iff]
      intro response
      have erased := fileOf_ok found
      apply wp_lift_bind
      · intro error _
        exact ⟨.closes fd file rfl names erased rfl rfl rfl, addresses_one names erased rfl⟩
      · intro _ _
        rw [wp_pure_iff]
        exact ⟨.closes fd file rfl names erased rfl rfl rfl, addresses_one names erased rfl⟩

end Calls

theorem HostStep.Runs.spec {step : HostStep} (runs : step.Runs) : step.Spec := by
  obtain ⟨state, op, args, events, result, after⟩ := step
  have wp : Wp (handleHostCallResult op args) state []
      (fun value after events => HostStep.Spec ⟨state, op, args, events, .ok value, after⟩)
      (fun error after events =>
        HostStep.Spec ⟨state, op, args, events, .error error, after⟩) := by
    cases op with
    | readFile => exact hostReadFile_spec
    | «open» => exact hostOpen_spec
    | read => exact hostRead_spec
    | write => exact hostWrite_spec
    | ftruncate => exact hostFtruncate_spec
    | close => exact hostClose_spec
  cases result with
  | ok value => exact wp.ok runs
  | error error => exact wp.error runs

/-! ## A run of calls -/

theorem natJson_asI64 {fd : Int} (low : 3 ≤ fd) (high : fd ≤ i32Max) :
    (natJson fd.toNat).asI64 = some fd := by
  unfold i32Max at high
  have small : fd.toNat < 2 ^ 64 := by omega
  have kept : (UInt64.ofNat fd.toNat).toNat = fd.toNat := UInt64.toNat_ofNat_of_lt' small
  rw [natJson, Json.asI64, kept, if_pos (by omega), Int.toNat_of_nonneg (by omega)]

def handleWeight (handle : Nat) (file : OpenFile) : Nat := if file.handle = handle then 1 else 0

/-- Every open handle is in the table once for each time that it was opened and not released. -/
structure TableKept (start : HostState) (steps : List HostStep) (state : HostState) : Prop where
  limit : state.maxOpenFiles = start.maxOpenFiles
  size : state.fds.size ≤ start.maxOpenFiles
  low : 3 ≤ state.nextFd
  high : state.nextFd ≤ i32Max
  handed : ∀ fd ∈ steps.filterMap HostStep.descriptor, 3 ≤ fd ∧ fd < state.nextFd
  distinct : (steps.filterMap HostStep.descriptor).Nodup
  origins : ∀ fd file, state.fds.get fd = some file → ∃ opener ∈ steps,
    opener.descriptor = some fd ∧ opener.events.filterMap openedHandle = [file.handle]
  ledger : ∀ handle, ((stepEvents steps).filterMap openedHandle).count handle =
    ((stepEvents steps).filterMap releasedHandle).count handle +
      state.fds.total (handleWeight handle)

theorem stepEvents_snoc (steps : List HostStep) (step : HostStep) :
    stepEvents (steps ++ [step]) = stepEvents steps ++ step.events := by
  simp [stepEvents]

theorem HostStep.descriptor_eq_none {step : HostStep} (other : step.op ≠ .open) :
    step.descriptor = none := by
  rw [descriptor]
  split
  · contradiction
  · rfl

section Keeps
variable {start : HostState} {steps : List HostStep} {step : HostStep}

/-- A descriptor that was not handed out yet is not in the table. -/
theorem TableKept.unused {state : HostState} (kept : TableKept start steps state) :
    state.fds.get state.nextFd = none := by
  cases found : state.fds.get state.nextFd with
  | none => rfl
  | some file =>
      obtain ⟨opener, member, named, -⟩ := kept.origins _ _ found
      have below := (kept.handed _ (List.mem_filterMap.mpr ⟨opener, member, named⟩)).2
      omega

/-- A call that hands out no descriptor keeps the table when the parts that it changes are kept. -/
theorem TableKept.silent (kept : TableKept start steps step.before)
    (undescribed : step.descriptor = none)
    (limit : step.after.maxOpenFiles = step.before.maxOpenFiles)
    (next : step.after.nextFd = step.before.nextFd)
    (size : step.after.fds.size ≤ step.before.fds.size)
    (handles : ∀ fd file, step.after.fds.get fd = some file →
      ∃ earlier, step.before.fds.get fd = some earlier ∧ earlier.handle = file.handle)
    (unopened : step.events.filterMap openedHandle = [])
    (ledger : ∀ handle, step.before.fds.total (handleWeight handle) =
      (step.events.filterMap releasedHandle).count handle +
        step.after.fds.total (handleWeight handle)) :
    TableKept start (steps ++ [step]) step.after := by
  have same : (steps ++ [step]).filterMap HostStep.descriptor =
      steps.filterMap HostStep.descriptor := by
    rw [List.filterMap_append, List.filterMap_cons_none undescribed, List.filterMap_nil,
      List.append_nil]
  refine ⟨limit.trans kept.limit, le_trans size kept.size, ?_, ?_, ?_, ?_, ?_, ?_⟩
  · rw [next]
    exact kept.low
  · rw [next]
    exact kept.high
  · rw [same, next]
    exact kept.handed
  · rw [same]
    exact kept.distinct
  · intro fd file found
    obtain ⟨earlier, there, handle⟩ := handles fd file found
    obtain ⟨opener, member, named, opened⟩ := kept.origins fd earlier there
    rw [handle] at opened
    exact ⟨opener, List.mem_append_left _ member, named, opened⟩
  · intro handle
    have before := kept.ledger handle
    have change := ledger handle
    rw [stepEvents_snoc, List.filterMap_append, List.filterMap_append, unopened, List.append_nil,
      List.count_append]
    omega

theorem TableKept.opened (kept : TableKept start steps step.before) {handle : Nat}
    (calls : step.op = .open) (room : step.before.fds.size < step.before.maxOpenFiles)
    (fresh : step.before.nextFd ≠ i32Max)
    (opened : step.events.filterMap openedHandle = [handle])
    (unreleased : step.events.filterMap releasedHandle = [])
    (returns : step.result = .ok (natJson step.before.nextFd.toNat))
    (after : step.after = { step.before with
      fds := step.before.fds.insert step.before.nextFd { handle := handle, position := 0 }
      nextFd := step.before.nextFd + 1 }) :
    TableKept start (steps ++ [step]) step.after := by
  have low := kept.low
  have high := kept.high
  have named : step.descriptor = some step.before.nextFd := by
    rw [HostStep.descriptor, calls, returns]
    exact natJson_asI64 low high
  have unused := kept.unused
  have grown : (steps ++ [step]).filterMap HostStep.descriptor =
      steps.filterMap HostStep.descriptor ++ [step.before.nextFd] := by
    rw [List.filterMap_append, List.filterMap_cons_some named, List.filterMap_nil]
  rw [after]
  refine ⟨kept.limit, ?_, ?_, ?_, ?_, ?_, ?_, ?_⟩
  · have balance := step.before.fds.size_insert step.before.nextFd
      { handle := handle, position := 0 }
    have limit := kept.limit
    rw [unused] at balance
    simp only [Option.map_none, Option.getD_none] at balance
    change (step.before.fds.insert _ _).size ≤ _
    omega
  · change 3 ≤ step.before.nextFd + 1
    omega
  · change step.before.nextFd + 1 ≤ i32Max
    omega
  · intro fd member
    change 3 ≤ fd ∧ fd < step.before.nextFd + 1
    rw [grown] at member
    rcases List.mem_append.mp member with earlier | now
    · have bounds := kept.handed fd earlier
      omega
    · rw [List.mem_singleton.mp now]
      omega
  · rw [grown]
    refine List.nodup_append.mpr ⟨kept.distinct, List.nodup_singleton _, ?_⟩
    intro fd earlier other now
    have bound := (kept.handed fd earlier).2
    rw [List.mem_singleton.mp now]
    omega
  · intro fd file found
    change (step.before.fds.insert _ _).get fd = some file at found
    rw [OrderedMap.get_insert] at found
    split at found
    · rename_i same
      cases found
      rw [same]
      exact ⟨step, by simp, named, opened⟩
    · obtain ⟨opener, member, here, its⟩ := kept.origins fd file found
      exact ⟨opener, List.mem_append_left _ member, here, its⟩
  · intro other
    have before := kept.ledger other
    have balance := step.before.fds.total_insert (handleWeight other) step.before.nextFd
      { handle := handle, position := 0 }
    rw [unused] at balance
    simp only [Option.map_none, Option.getD_none] at balance
    change _ = _ + (step.before.fds.insert _ _).total _
    rw [stepEvents_snoc, List.filterMap_append, List.filterMap_append, opened, unreleased,
      List.append_nil, List.count_append, List.count_singleton]
    have weight : handleWeight other { handle := handle, position := 0 } =
        if handle == other then 1 else 0 := by
      simp [handleWeight]
    omega

theorem TableKept.after_step (kept : TableKept start steps step.before) (runs : step.Runs) :
    TableKept start (steps ++ [step]) step.after := by
  cases runs.spec.effect with
  | quiet unchanged unopened unreleased undescribed still =>
      apply kept.silent undescribed
      · rw [unchanged]
      · rw [unchanged]
      · rw [unchanged]
      · intro fd file found
        rw [unchanged] at found
        exact ⟨file, found, rfl⟩
      · exact unopened
      · intro handle
        rw [unreleased, unchanged]
        simp
  | opens handle calls room fresh opened unreleased returns after =>
      exact kept.opened calls room fresh opened unreleased returns after
  | moves fd file count moved found unopened unreleased after =>
      have other : step.op ≠ .open := by
        rcases moved.transfers with read | write
        · simp [read]
        · simp [write]
      apply kept.silent (HostStep.descriptor_eq_none other)
      · rw [after]
      · rw [after]
      · have balance := step.before.fds.size_insert fd
          { file with position := min (file.position + count) u64Max }
        rw [found] at balance
        simp only [Option.map_some, Option.getD_some] at balance
        rw [after]
        change (step.before.fds.insert _ _).size ≤ _
        omega
      · intro named here reached
        rw [after] at reached
        change (step.before.fds.insert _ _).get named = some here at reached
        rw [OrderedMap.get_insert] at reached
        split at reached
        · rename_i same
          cases reached
          exact ⟨file, by rw [same, found], rfl⟩
        · exact ⟨here, reached, rfl⟩
      · exact unopened
      · intro handle
        have balance := step.before.fds.total_insert (handleWeight handle) fd
          { file with position := min (file.position + count) u64Max }
        have weight : handleWeight handle
            { file with position := min (file.position + count) u64Max } =
              handleWeight handle file := rfl
        rw [found] at balance
        simp only [Option.map_some, Option.getD_some] at balance
        rw [unreleased, after]
        change _ = _ + (step.before.fds.insert _ _).total _
        rw [List.count_nil]
        omega
  | closes fd file calls names found unopened released after =>
      have other : step.op ≠ .open := by simp [calls]
      apply kept.silent (HostStep.descriptor_eq_none other)
      · rw [after]
      · rw [after]
      · have balance := step.before.fds.size_erase fd
        rw [after]
        change (step.before.fds.erase _).size ≤ _
        omega
      · intro named here reached
        rw [after] at reached
        change (step.before.fds.erase _).get named = some here at reached
        rw [OrderedMap.get_erase] at reached
        split at reached
        · cases reached
        · exact ⟨here, reached, rfl⟩
      · exact unopened
      · intro handle
        have balance := step.before.fds.total_erase (handleWeight handle) fd
        rw [found] at balance
        simp only [Option.map_some, Option.getD_some] at balance
        rw [released, after]
        change _ = _ + (step.before.fds.erase _).total _
        rw [List.count_singleton]
        have weight : handleWeight handle file = if file.handle == handle then 1 else 0 := by
          simp [handleWeight]
        omega

end Keeps

theorem HostRun.keeps {hostResponseBytes hostInputBytes maxOpenFiles : Nat}
    {steps : List HostStep} {last : HostState}
    (run : HostRun (.new hostResponseBytes hostInputBytes maxOpenFiles) steps last) :
    TableKept (.new hostResponseBytes hostInputBytes maxOpenFiles) steps last := by
  induction run with
  | nil =>
      have start : (3 : Int) ≤ i32Max := by decide
      refine ⟨rfl, Nat.zero_le _, le_rfl, start, by simp, by simp, ?_, ?_⟩
      · intro fd file found
        cases found
      · intro handle
        rfl
  | snoc run runs ih => exact ih.after_step runs

/-- The position of a descriptor changes only by a call that moves it. -/
theorem HostStep.Runs.position {start : HostState} {steps : List HostStep} {step : HostStep}
    (kept : TableKept start steps step.before) (runs : step.Runs) {fd : Int}
    {file later : OpenFile} (found : step.before.fds.get fd = some file)
    (reached : step.after.fds.get fd = some later) :
    later.handle = file.handle ∧
      (∀ count, step.Moves fd count → later.position = min (file.position + count) u64Max) ∧
      ((∀ count, ¬ step.Moves fd count) → later.position = file.position) := by
  cases runs.spec.effect with
  | quiet unchanged unopened unreleased undescribed still =>
      rw [unchanged, found] at reached
      cases reached
      exact ⟨rfl, fun count moved => absurd moved (still fd count), fun _ => rfl⟩
  | opens handle calls room fresh opened unreleased returns after =>
      have other : fd ≠ step.before.nextFd := by
        rintro rfl
        rw [kept.unused] at found
        cases found
      rw [after] at reached
      change (step.before.fds.insert _ _).get fd = some later at reached
      rw [OrderedMap.get_insert, if_neg other, found] at reached
      cases reached
      refine ⟨rfl, ?_, fun _ => rfl⟩
      intro count moved
      rcases moved.transfers with read | write
      · rw [calls] at read
        cases read
      · rw [calls] at write
        cases write
  | moves named its count moved there unopened unreleased after =>
      rw [after] at reached
      change (step.before.fds.insert _ _).get fd = some later at reached
      rw [OrderedMap.get_insert] at reached
      by_cases same : fd = named
      · subst same
        rw [if_pos rfl] at reached
        cases reached
        rw [there] at found
        cases found
        refine ⟨rfl, ?_, fun still => absurd moved (still count)⟩
        intro other also
        have equal := moved.moved.symm.trans also.moved
        cases equal
        rfl
      · rw [if_neg same, found] at reached
        cases reached
        refine ⟨rfl, ?_, fun _ => rfl⟩
        intro other also
        have equal := also.names.symm.trans moved.names
        cases equal
        exact absurd rfl same
  | closes named its calls names there unopened released after =>
      rw [after] at reached
      change (step.before.fds.erase _).get fd = some later at reached
      rw [OrderedMap.get_erase] at reached
      split at reached
      · cases reached
      · rw [found] at reached
        cases reached
        refine ⟨rfl, ?_, fun _ => rfl⟩
        intro count moved
        rcases moved.transfers with read | write
        · rw [calls] at read
          cases read
        · rw [calls] at write
          cases write

/-! ## The end -/

theorem ClosesForCommit.append {commit : Option Bool} {first rest : List HostEvent}
    (here : ClosesForCommit commit first) (later : ClosesForCommit commit rest) :
    ClosesForCommit commit (first ++ rest) := by
  intro before handle response behind cut
  rcases List.append_eq_append_iff.mp cut with ⟨middle, rfl, inside⟩ | ⟨middle, inside, ends⟩
  · obtain ⟨committed, earlier, asked⟩ := later middle handle response behind inside
    exact ⟨committed, first ++ earlier, by rw [asked, List.append_assoc]⟩
  · cases middle with
    | nil =>
        rw [List.append_nil] at inside
        obtain ⟨committed, earlier, asked⟩ := later [] handle response behind ends.symm
        cases earlier <;> cases asked
    | cons event middle =>
        obtain ⟨same, -⟩ := List.cons.inj ends
        exact here before handle response middle (by rw [inside, same])

/-- The events that finish files with these handles. -/
structure Finished (commit : Bool) (handles : List Nat) (events : List HostEvent) : Prop where
  unopened : events.filterMap openedHandle = []
  released : events.filterMap releasedHandle = handles
  closes : ClosesForCommit (some commit) events

theorem Finished.nil (commit : Bool) : Finished commit [] [] where
  unopened := rfl
  released := rfl
  closes := by
    intro before handle response later cut
    cases before <;> cases cut

theorem Finished.append {commit : Bool} {handles others : List Nat} {first rest : List HostEvent}
    (here : Finished commit handles first) (later : Finished commit others rest) :
    Finished commit (handles ++ others) (first ++ rest) where
  unopened := by rw [List.filterMap_append, here.unopened, later.unopened, List.nil_append]
  released := by rw [List.filterMap_append, here.released, later.released]
  closes := here.closes.append later.closes

theorem Finished.aborts (commit : Bool) (handle : Nat) (response : VfsResult Unit) :
    Finished commit [handle] [⟨.fs (.abort handle), response⟩] where
  unopened := rfl
  released := rfl
  closes := by
    intro before other answer later cut
    rcases before with _ | ⟨_, _ | _⟩ <;> cases cut

theorem Finished.asks (commit cancelled : Bool) : Finished commit [] [⟨.isCancelled, cancelled⟩] where
  unopened := rfl
  released := rfl
  closes := by
    intro before other answer later cut
    rcases before with _ | ⟨_, _ | _⟩ <;> cases cut

/-- Nothing is closed when the files are not committed. -/
theorem ClosesForCommit.never {events : List HostEvent}
    (closes : ClosesForCommit (some false) events) (commit : Option Bool) :
    ClosesForCommit commit events := by
  intro before handle response later cut
  have impossible := (closes before handle response later cut).1
  cases impossible

def openArgs : Json := .object [("path".toList, .string ['f']), ("flags".toList, .string "r+".toList)]

/-- The opened file is at the start. -/
def openedState : HostState :=
  { HostState.new 128 0 1 with
    fds := (∅ : OrderedMap Int OpenFile).insert 3 { handle := 7, position := 0 }
    nextFd := 4 }

def openStep : HostStep where
  before := HostState.new 128 0 1
  op := .open
  args := openArgs
  events := [⟨.fs (.open ['f'] .readWrite), .ok 7⟩]
  result := .ok (natJson 3)
  after := openedState

end TinySandbox.Js
