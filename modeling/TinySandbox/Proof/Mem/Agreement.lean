/-
This file says what it means that a call agrees with the flat filesystem.
One agreement gives the result, the next invariant, and the state after a failure.
-/

import TinySandbox.Proof.Mem.Invariant

namespace TinySandbox.Mem
open Library Library.Call DirectoryTree

/-- At most one file gets a new buffer, which is free or held by no other `Arc`. -/
def ArcStep (arcs : Arcs) (before after : OrderedMap Inode FileNode) : Prop :=
  ∃ touched : Option Inode,
    (∀ inode file, after.get inode = some file → touched ≠ some inode →
      ∃ old, before.get inode = some old ∧ old.data = file.data) ∧
    ∀ inode file, after.get inode = some file → touched = some inode →
      (arcs.fresh ≤ file.data.addr ∧ file.data.addr < arcs.fresh + 2) ∨
        ∃ old, before.get inode = some old ∧ old.data.addr = file.data.addr ∧
          arcs.strongCount old.data.addr ≤ 1

/-- A call that keeps every buffer touches none. -/
theorem ArcStep.same {before after : OrderedMap Inode FileNode} (arcs : Arcs)
    (kept : ∀ inode file, after.get inode = some file →
      ∃ old, before.get inode = some old ∧ old.data = file.data) :
    ArcStep arcs before after :=
  ⟨none, fun inode file found _ => kept inode file found, fun _ _ _ touched => by cases touched⟩

theorem ArcStep.refl (arcs : Arcs) (files : OrderedMap Inode FileNode) : ArcStep arcs files files :=
  .same arcs fun _ file found => ⟨file, found, rfl⟩

/-- Steps that keep every buffer may follow a step that moves one. -/
theorem ArcStep.trans_same {arcs : Arcs} {before middle after : OrderedMap Inode FileNode}
    (step : ArcStep arcs before middle)
    (kept : ∀ inode file, after.get inode = some file →
      ∃ old, middle.get inode = some old ∧ old.data = file.data) :
    ArcStep arcs before after := by
  obtain ⟨touched, others, moved⟩ := step
  refine ⟨touched, ?_, ?_⟩
  · intro inode file found different
    obtain ⟨old, between, same⟩ := kept inode file found
    obtain ⟨first, earlier, equal⟩ := others inode old between different
    exact ⟨first, earlier, equal.trans same⟩
  · intro inode file found equal
    obtain ⟨old, between, same⟩ := kept inode file found
    rw [← same]
    exact moved inode old between equal

/-- A failed call leaves the state. A successful call gives the flat result and the invariant. -/
def Agrees {α : Type} (quota : VfsQuota) (arcs : Arcs) (state : State) (panics : Prop)
    (reached : Option (VfsResult α × State)) (expected : VfsResult (α × FlatFs)) : Prop :=
  match reached with
  | none => panics
  | some (.error error, after) => expected = .error error ∧ after = state
  | some (.ok value, after) =>
      expected = .ok (value, after.flat) ∧ Invariant quota after ∧
        ArcStep arcs state.files after.files

theorem Agrees.mono {α : Type} {quota : VfsQuota} {arcs : Arcs} {state : State}
    {panics weaker : Prop} {reached : Option (VfsResult α × State)}
    {expected : VfsResult (α × FlatFs)} (agreed : Agrees quota arcs state panics reached expected)
    (implies : panics → weaker) : Agrees quota arcs state weaker reached expected := by
  rcases reached with _ | ⟨_ | value, after⟩
  · exact implies agreed
  · exact agreed
  · exact agreed

section Rules
variable {α β γ : Type} {quota : VfsQuota} {arcs : Arcs} {state : State} {panics : Prop}

/-- A call that returns a value and keeps the state agrees with a flat result that does the same. -/
theorem agrees_pure (invariant : Invariant quota state) (value : α) :
    Agrees quota arcs state panics (some (.ok value, state)) (.ok (value, state.flat)) :=
  ⟨rfl, invariant, .refl arcs _⟩

theorem agrees_error (error : Errno) :
    Agrees (α := α) quota arcs state panics (some (.error error, state)) (.error error) :=
  ⟨rfl, rfl⟩

/-- A check agrees when the flat check is its image. -/
theorem agrees_lift_map {result : VfsResult β} {expectedResult : VfsResult γ} (image : β → γ)
    (translated : expectedResult = result.map image) {next : β → MemCall α}
    {expected : γ → VfsResult (α × FlatFs)}
    (continues : ∀ value, result = .ok value →
      Agrees quota arcs state panics (outcome (next value) state) (expected (image value))) :
    Agrees quota arcs state panics (outcome (lift result >>= next) state)
      (expectedResult >>= expected) := by
  subst translated
  cases result with
  | error error => exact ⟨rfl, rfl⟩
  | ok value => exact continues value rfl

/-- Both sides make the same check. -/
theorem agrees_lift {result expectedResult : VfsResult β} (same : expectedResult = result)
    {next : β → MemCall α} {expected : β → VfsResult (α × FlatFs)}
    (continues : ∀ value, result = .ok value →
      Agrees quota arcs state panics (outcome (next value) state) (expected value)) :
    Agrees quota arcs state panics (outcome (lift result >>= next) state)
      (expectedResult >>= expected) := by
  refine agrees_lift_map id ?_ continues
  rw [same]
  cases result <;> rfl

theorem agrees_refuse {condition other : Prop} [Decidable condition] [Decidable other]
    (same : condition ↔ other) (error : Errno) {next : PUnit → MemCall α}
    {expected : VfsResult (α × FlatFs)}
    (continues : ¬ condition →
      Agrees quota arcs state panics (outcome (next ⟨⟩) state) expected) :
    Agrees quota arcs state panics (outcome (refuse condition error >>= next) state)
      (if other then .error error else expected) := by
  rw [outcome_bind, outcome_refuse]
  by_cases holds : condition
  · rw [if_pos holds, if_pos (same.mp holds)]
    exact ⟨rfl, rfl⟩
  · rw [if_neg holds, if_neg (mt same.mpr holds)]
    exact continues holds

theorem agrees_get {next : State → MemCall α} {expected : VfsResult (α × FlatFs)}
    (continues : Agrees quota arcs state panics (outcome (next state) state) expected) :
    Agrees quota arcs state panics (outcome (get >>= next) state) expected :=
  continues

/-- The reply of a call is a function of its value. -/
theorem agrees_map {call : MemCall α} {expected : VfsResult (α × FlatFs)}
    (agreed : Agrees quota arcs state panics (outcome call state) expected) (reply : α → β) :
    Agrees quota arcs state panics (outcome (reply <$> call) state)
      (expected.map fun pair => (reply pair.1, pair.2)) := by
  rw [outcome_map]
  generalize outcome call state = reached at agreed
  rcases reached with _ | ⟨_ | value, after⟩
  · exact agreed
  · obtain ⟨rfl, rfl⟩ := agreed
    exact ⟨rfl, rfl⟩
  · obtain ⟨rfl, invariant, step⟩ := agreed
    exact ⟨rfl, invariant, step⟩

/-- A second call that cannot fail completes the first, and both sides continue alike. -/
theorem agrees_bind {first : MemCall α} {expected : VfsResult (α × FlatFs)}
    (agreed : Agrees quota arcs state panics (outcome first state) expected)
    {next : α → MemCall β} {expectedNext : α × FlatFs → VfsResult (β × FlatFs)}
    (continues : ∀ value after, expected = .ok (value, after.flat) → Invariant quota after →
      (outcome (next value) after = none ∧ panics) ∨
        ∃ reply final, outcome (next value) after = some (.ok reply, final) ∧
          expectedNext (value, after.flat) = .ok (reply, final.flat) ∧ Invariant quota final ∧
          ∀ inode file, final.files.get inode = some file →
            ∃ old, after.files.get inode = some old ∧ old.data = file.data) :
    Agrees quota arcs state panics (outcome (first >>= next) state) (expected >>= expectedNext) := by
  rw [outcome_bind]
  generalize outcome first state = reached at agreed
  rcases reached with _ | ⟨_ | value, after⟩
  · exact agreed
  · obtain ⟨rfl, rfl⟩ := agreed
    exact ⟨rfl, rfl⟩
  · obtain ⟨rfl, invariant, step⟩ := agreed
    rw [Option.bind_some]
    rcases continues value after rfl invariant with
      ⟨failed, panicked⟩ | ⟨reply, final, reached, flat, settled, kept⟩
    · simp only [failed]
      exact panicked
    · simp only [reached]
      exact ⟨flat, settled, step.trans_same kept⟩

end Rules

section Reroot
variable {quota : VfsQuota} {state : State}

/-- A new tree keeps the invariant when it is well formed and holds the same files. -/
theorem Invariant.reroot (invariant : Invariant quota state) {root : Node} {fileCount : Nat}
    (wellRooted : WellRooted root)
    (count : fileCount + 1 = root.directories + state.files.size)
    (maxFiles : fileCount ≤ quota.maxFiles.toNat)
    (same : ∀ inode, (∃ path, root.view path = some (.file inode)) ↔ Reachable state inode) :
    Invariant quota { state with root, fileCount } :=
  { wellRooted with
    maxFiles
    usedBytes := invariant.usedBytes
    fileCount := count
    linked := fun inode reachable => invariant.linked inode ((same inode).mp reachable)
    unlinked := fun inode file found unreachable =>
      invariant.unlinked inode file found (mt (same inode).mpr unreachable)
    openHandles := invariant.openHandles
    handleFile := invariant.handleFile
    inodeBelow := invariant.inodeBelow
    handleBelow := invariant.handleBelow
    maxBytes := invariant.maxBytes
    maxFileSize := invariant.maxFileSize
    held := fun inode file found unreachable =>
      invariant.held inode file found (mt (same inode).mpr unreachable) }

end Reroot

end TinySandbox.Mem
