/-
This file shows which backend handle stands behind each handle of a mounted filesystem.
The owner of a handle is read from the steps so far, not from the table of the code.
-/

import TinySandbox.Proof.Mounted.Routing

namespace TinySandbox.Mounted
open Library Library.Task Mem MountedVfs

/-- The handle that a call uses. -/
def handle? : VfsCall → Option Nat
  | .readAt handle _ _ => some handle
  | .writeAt handle _ _ => some handle
  | .truncate handle _ => some handle
  | .close handle => some handle
  | .abort handle => some handle
  | _ => none

/-- The handle that a call gives back. -/
def released? : VfsCall → Option Nat
  | .close handle => some handle
  | .abort handle => some handle
  | _ => none

/-- The handle that a successful open returned. -/
def Step.opened : Step → Option Nat
  | ⟨.open _ _, _, .ok outer⟩ => some outer
  | _ => none

/-- The backend and its handle in the answer to an open. -/
def openedInner : List MountEvent → Option MountedHandle
  | [⟨⟨mount, .open _ _⟩, .ok inner⟩] => some { mount, inner }
  | _ => none

/-- A step changes the owner of the handle that it opens or releases. -/
def Step.owner (step : Step) (handle : Nat) (before : Option MountedHandle) :
    Option MountedHandle :=
  if step.opened = some handle then openedInner step.events
  else if released? step.call = some handle then none
  else before

/-- The last step that opened or released the handle decides who owns it. -/
def owner (steps : List Step) (handle : Nat) : Option MountedHandle :=
  steps.foldl (fun before step => step.owner handle before) none

/-- The call is sent once, to the owner, and its answer is the reply. -/
def Forwards (mounted : MountedHandle) : Step → Prop
  | ⟨.readAt _ offset bufLen, events, reply⟩ =>
      events = [⟨⟨mounted.mount, .readAt mounted.inner offset bufLen⟩, reply⟩]
  | ⟨.writeAt _ offset data, events, reply⟩ =>
      events = [⟨⟨mounted.mount, .writeAt mounted.inner offset data⟩, reply⟩]
  | ⟨.truncate _ len, events, reply⟩ =>
      events = [⟨⟨mounted.mount, .truncate mounted.inner len⟩, reply⟩]
  | ⟨.close _, events, reply⟩ => events = [⟨⟨mounted.mount, .close mounted.inner⟩, reply⟩]
  | ⟨.abort _, events, reply⟩ => events = [⟨⟨mounted.mount, .abort mounted.inner⟩, reply⟩]
  | _ => False

/-- The call fails, and no backend is called. -/
def Step.Rejected (step : Step) : Prop := step.events = [] ∧ step.reply = .error .EBADF

/-- A use of a handle goes to its owner, and without an owner it is rejected. -/
def Step.Follows (step : Step) : Option MountedHandle → Prop
  | some mounted => Forwards mounted step
  | none => step.Rejected

/-- Every use of a handle follows its owner, and an open returns a handle that has none. -/
def ForwardsHandles (steps : List Step) : Prop :=
  ∀ before step later, steps = before ++ step :: later →
    (∀ handle, handle? step.call = some handle → step.Follows (owner before handle)) ∧
    ∀ outer, step.opened = some outer →
      owner before outer = none ∧ ∃ mounted, openedInner step.events = some mounted

/-- No two opens return one handle, and a released handle is rejected for ever. -/
def NeverReuses (steps : List Step) : Prop :=
  (steps.filterMap Step.opened).Nodup ∧
    ∀ before release middle use later, steps = before ++ release :: (middle ++ use :: later) →
      ∀ handle, released? release.call = some handle → owner before handle ≠ none →
        handle? use.call = some handle → use.Rejected

section Runs
variable {before after : State} {events : List MountEvent} {α : Type}

theorem runs_forward_iff {mount : Name} {call : VfsCall} {reply : VfsResult call.Value} :
    Runs (forward mount call) before events reply after ↔
      events = [⟨⟨mount, call⟩, reply⟩] ∧ after = before := by
  unfold forward
  constructor
  · intro runs
    rcases runs_bind_iff.mp runs with ⟨error, failed, rfl⟩ |
      ⟨first, second, response, middle, rfl, sent, lifted⟩
    · obtain ⟨response, -, impossible, -⟩ := runs_request_iff.mp failed
      cases impossible
    · obtain ⟨found, rfl, same, rfl⟩ := runs_request_iff.mp sent
      obtain rfl := Except.ok.inj same
      obtain ⟨rfl, rfl, rfl⟩ := runs_lift_iff.mp lifted
      exact ⟨rfl, rfl⟩
  · intro ends
    obtain ⟨rfl, rfl⟩ := ends
    apply runs_bind_iff.mpr
    right
    exact ⟨[_], [], reply, after, rfl, runs_request_iff.mpr ⟨reply, rfl, rfl, rfl⟩,
      runs_lift_iff.mpr ⟨rfl, rfl, rfl⟩⟩

theorem runs_handle_bind_iff {handle : Nat} {use : MountedHandle → MountTask α}
    {reply : VfsResult α} :
    Runs (MountedVfs.handle handle >>= use) before events reply after ↔
      match before.handles.get handle with
      | none => events = [] ∧ reply = .error .EBADF ∧ after = before
      | some mounted => Runs (use mounted) before events reply after := by
  have same : Runs (MountedVfs.handle handle >>= use) before events reply after ↔
      Runs (lift (Call.okOr .EBADF (before.handles.get handle)) >>= use)
        before events reply after := Iff.rfl
  rw [same]
  cases before.handles.get handle with
  | none => exact runs_throw_iff
  | some mounted => exact Iff.rfl

theorem runs_removeHandle_bind_iff {handle : Nat} {use : MountedHandle → MountTask α}
    {reply : VfsResult α} :
    Runs (removeHandle handle >>= use) before events reply after ↔
      match before.handles.get handle with
      | none => events = [] ∧ reply = .error .EBADF ∧ after = before
      | some mounted =>
          Runs (use mounted) { before with handles := before.handles.erase handle } events reply
            after := by
  unfold removeHandle
  rw [bind_assoc, runs_handle_bind_iff]
  cases before.handles.get handle with
  | none => exact Iff.rfl
  | some mounted => exact Iff.rfl

theorem insertHandle_exec (mount : Name) (inner : Nat) {outer : Nat}
    (found : vacant before.handles (before.handles.size + 2) before.nextHandle = some outer) :
    (insertHandle mount inner).exec before = .pure (.ok outer, {
      handles := before.handles.insert outer { mount, inner }
      nextHandle := (outer + 1) % 2 ^ 64 }) := by
  rw [MountedVfs.insertHandle, exec_get_bind, found]
  rfl

/-- An insertion takes a number that is not live. -/
theorem runs_insertHandle {mount : Name} {inner : Nat} {reply : VfsResult Nat}
    (runs : Runs (insertHandle mount inner) before events reply after) :
    ∃ outer, vacant before.handles (before.handles.size + 2) before.nextHandle = some outer ∧
      events = [] ∧ reply = .ok outer ∧
      after = {
        handles := before.handles.insert outer { mount, inner }
        nextHandle := (outer + 1) % 2 ^ 64 } := by
  unfold Runs at runs
  cases found : vacant before.handles (before.handles.size + 2) before.nextHandle with
  | none =>
      rw [MountedVfs.insertHandle, exec_get_bind, found] at runs
      exact runs.elim
  | some outer =>
      rw [insertHandle_exec mount inner found] at runs
      exact ⟨outer, rfl, runs_pure_iff.mp runs⟩

end Runs

theorem vacant_free {handles : OrderedMap Nat MountedHandle} {fuel raw outer : Nat}
    (found : vacant handles fuel raw = some outer) : outer ≠ 0 ∧ handles.get outer = none := by
  induction fuel generalizing raw with
  | zero => cases found
  | succ fuel ih =>
      unfold vacant at found
      split_ifs at found with free
      · obtain rfl := Option.some.inj found
        exact free
      · exact ih found

/-- The table of the code holds the owner of every handle. -/
def Tracks (steps : List Step) (state : State) : Prop :=
  ∀ handle, state.handles.get handle = owner steps handle

theorem owner_snoc (steps : List Step) (step : Step) (handle : Nat) :
    owner (steps ++ [step]) handle = step.owner handle (owner steps handle) := by
  simp [owner, List.foldl_append]

/-- A step that neither opens nor releases leaves every owner. -/
theorem tracks_same {steps : List Step} {state : State} {step : Step} (tracks : Tracks steps state)
    (unopened : step.opened = none) (unreleased : released? step.call = none) :
    Tracks (steps ++ [step]) state := by
  intro handle
  rw [owner_snoc, Step.owner, if_neg (by simp [unopened]), if_neg (by simp [unreleased])]
  exact tracks handle

theorem tracks_erase {steps : List Step} {state : State} {step : Step} {handle : Nat}
    (tracks : Tracks steps state) (unopened : step.opened = none)
    (released : released? step.call = some handle) :
    Tracks (steps ++ [step]) { state with handles := state.handles.erase handle } := by
  intro other
  rw [owner_snoc, Step.owner, if_neg (by simp [unopened]), released, OrderedMap.get_erase]
  by_cases same : other = handle
  · rw [if_pos same, if_pos (by rw [same])]
  · rw [if_neg same, if_neg (fun equal => same (Option.some.inj equal).symm)]
    exact tracks other

theorem tracks_insert {steps : List Step} {state : State} {step : Step} {outer next : Nat}
    {mounted : MountedHandle} (tracks : Tracks steps state) (opened : step.opened = some outer)
    (inner : openedInner step.events = some mounted) (unreleased : released? step.call = none) :
    Tracks (steps ++ [step]) { handles := state.handles.insert outer mounted, nextHandle := next } := by
  intro other
  rw [owner_snoc, Step.owner, opened, inner, OrderedMap.get_insert]
  by_cases same : other = outer
  · rw [if_pos same, if_pos (by rw [same])]
  · rw [if_neg same, if_neg (fun equal => same (Option.some.inj equal).symm),
      if_neg (by simp [unreleased])]
    exact tracks other

/-- This is what one step does to the table, and what its reply shows of it. -/
structure StepTracks (steps : List Step) (step : Step) (before after : State) : Prop where
  tracks : Tracks (steps ++ [step]) after
  follows : ∀ handle, handle? step.call = some handle → step.Follows (owner steps handle)
  fresh : ∀ outer, step.opened = some outer →
    owner steps outer = none ∧ ∃ mounted, openedInner step.events = some mounted
  counter : step.opened = none → after.nextHandle = before.nextHandle
  taken : ∀ outer, step.opened = some outer →
    vacant before.handles (before.handles.size + 2) before.nextHandle = some outer ∧
      after.nextHandle = (outer + 1) % 2 ^ 64

section Steps
variable {vfs : MountedVfs} {steps : List Step} {before after : State}

theorem stepTracks_unopened {step : Step} (tracks : Tracks steps before)
    (unopened : step.opened = none) (next : Tracks (steps ++ [step]) after)
    (follows : ∀ handle, handle? step.call = some handle →
      step.Follows (before.handles.get handle))
    (counter : after.nextHandle = before.nextHandle) : StepTracks steps step before after where
  tracks := next
  follows handle uses := by
    rw [← tracks]
    exact follows handle uses
  fresh outer opened := by
    rw [unopened] at opened
    cases opened
  counter _ := counter
  taken outer opened := by
    rw [unopened] at opened
    cases opened

/-- The task ends in the state it started in. -/
def Leaves {α : Type} (task : MountTask α) : Prop :=
  ∀ before events reply after, Runs task before events reply after → after = before

theorem leaves_throw {α : Type} (error : Errno) : Leaves (throw error : MountTask α) :=
  fun _ _ _ _ runs => (runs_throw_iff.mp runs).2.2

theorem leaves_pure {α : Type} (value : α) : Leaves (pure value : MountTask α) :=
  fun _ _ _ _ runs => (runs_pure_iff.mp runs).2.2

theorem leaves_forward (mount : Name) (call : VfsCall) : Leaves (forward mount call) :=
  fun _ _ _ _ runs => (runs_forward_iff.mp runs).2

theorem leaves_lift_bind {α β : Type} (result : VfsResult α) {next : α → MountTask β}
    (leaves : ∀ value, Leaves (next value)) : Leaves (lift result >>= next) := by
  cases result with
  | error error => exact leaves_throw error
  | ok value => exact leaves value

theorem leaves_refuse_bind {β : Type} (condition : Prop) [Decidable condition] (error : Errno)
    {next : PUnit → MountTask β} (leaves : Leaves (next ⟨⟩)) :
    Leaves (refuse condition error >>= next) := by
  by_cases refused : condition
  · rw [refuse_bind_of refused]
    exact leaves_throw error
  · rw [refuse_bind_of_not refused]
    exact leaves

theorem stat_leaves (path : Text) : Leaves (vfs.stat path) := by
  apply leaves_lift_bind
  intro mounted
  cases mounted with
  | none => exact leaves_pure _
  | some path => exact leaves_forward _ _

theorem readdir_leaves (path : Text) : Leaves (vfs.readdir path) := by
  apply leaves_lift_bind
  intro mounted
  cases mounted with
  | none => exact leaves_pure _
  | some path => exact leaves_forward _ _

/-- A call that is refused at a mount is forwarded below it. -/
theorem leaves_atMount (path : MountedPath) (error : Errno) (call : VfsCall) :
    Leaves (if path.atMount then throw error else forward path.mount call) := by
  split
  · exact leaves_throw error
  · exact leaves_forward _ _

theorem mkdir_leaves (path : Text) : Leaves (vfs.mkdir path) := by
  unfold MountedVfs.mkdir
  split
  · exact leaves_atMount _ _ _
  · exact leaves_throw _
  · exact leaves_throw _

theorem unlink_leaves (path : Text) : Leaves (vfs.unlink path) := by
  apply leaves_lift_bind
  intro mounted
  cases mounted with
  | none => exact leaves_throw _
  | some path => exact leaves_atMount _ _ _

theorem rmdir_leaves (path : Text) : Leaves (vfs.rmdir path) := by
  apply leaves_lift_bind
  intro mounted
  cases mounted with
  | none => exact leaves_throw _
  | some path => exact leaves_atMount _ _ _

theorem rename_leaves (source target : Text) : Leaves (vfs.rename source target) := by
  apply leaves_lift_bind
  intro first
  apply leaves_lift_bind
  intro source
  apply leaves_refuse_bind
  apply leaves_lift_bind
  intro second
  apply leaves_lift_bind
  intro target
  apply leaves_refuse_bind
  apply leaves_refuse_bind
  exact leaves_forward _ _

theorem stepTracks_leaves {step : Step} {task : MountTask step.call.Value} (leaves : Leaves task)
    (runs : Runs task before step.events step.reply after) (tracks : Tracks steps before)
    (unopened : step.opened = none) (unused : handle? step.call = none)
    (unreleased : released? step.call = none) : StepTracks steps step before after := by
  obtain rfl := leaves _ _ _ _ runs
  apply stepTracks_unopened tracks unopened (tracks_same tracks unopened unreleased) _ rfl
  intro handle uses
  rw [unused] at uses
  cases uses

/-- An open fails and leaves the table, or it takes a vacant number for what a backend opened. -/
theorem runs_open {path : Text} {mode : OpenMode} {events : List MountEvent}
    {reply : VfsResult Nat} (runs : Runs (vfs.open path mode) before events reply after) :
    (∃ error, reply = .error error ∧ after = before) ∨
    ∃ mounted inner outer,
      events = [⟨⟨mounted.mount, .open inner mode⟩, .ok mounted.inner⟩] ∧ reply = .ok outer ∧
      vacant before.handles (before.handles.size + 2) before.nextHandle = some outer ∧
      after = {
        handles := before.handles.insert outer mounted
        nextHandle := (outer + 1) % 2 ^ 64 } := by
  have failed : ∀ error, Runs (throw error : MountTask Nat) before events reply after →
      ∃ error, reply = .error error ∧ after = before := by
    intro error thrown
    obtain ⟨-, same, kept⟩ := runs_throw_iff.mp thrown
    exact ⟨error, same, kept⟩
  unfold MountedVfs.open at runs
  cases found : vfs.mountedPath path with
  | error error =>
      rw [found, lift_error_bind] at runs
      exact .inl (failed error runs)
  | ok mounted =>
      rw [found, lift_ok_bind] at runs
      cases mounted with
      | none => exact .inl (failed .EISDIR runs)
      | some mounted =>
          rw [Call.okOr_some, lift_ok_bind] at runs
          by_cases atMount : mounted.atMount = true
          · rw [refuse_bind_of atMount] at runs
            exact .inl (failed .EISDIR runs)
          · rw [refuse_bind_of_not atMount] at runs
            rcases runs_bind_iff.mp runs with ⟨error, sent, same⟩ |
              ⟨first, second, inner, middle, rfl, sent, inserted⟩
            · exact .inl ⟨error, same, (runs_forward_iff.mp sent).2⟩
            · obtain ⟨rfl, rfl⟩ := runs_forward_iff.mp sent
              obtain ⟨outer, free, rfl, same, kept⟩ := runs_insertHandle inserted
              exact .inr ⟨{ mount := mounted.mount, inner }, mounted.inner, outer, rfl, same, free,
                kept⟩

theorem open_tracks {path : Text} {mode : OpenMode} {events : List MountEvent}
    {reply : VfsResult Nat} (tracks : Tracks steps before)
    (runs : Runs (vfs.open path mode) before events reply after) :
    StepTracks steps ⟨.open path mode, events, reply⟩ before after := by
  rcases runs_open runs with ⟨error, rfl, rfl⟩ | ⟨mounted, inner, outer, rfl, rfl, free, rfl⟩
  · apply stepTracks_unopened tracks rfl (tracks_same tracks rfl rfl) _ rfl
    intro handle uses
    cases uses
  · have unused := (vacant_free free).2
    constructor
    · exact tracks_insert tracks rfl rfl rfl
    · intro handle uses
      cases uses
    · intro other opened
      obtain rfl := Option.some.inj opened
      rw [← tracks]
      exact ⟨unused, mounted, rfl⟩
    · intro unopened
      cases unopened
    · intro other opened
      obtain rfl := Option.some.inj opened
      exact ⟨free, rfl⟩

/-- A use of a handle leaves the table and follows the owner. -/
theorem use_tracks {step : Step} {handle : Nat} {use : MountedHandle → MountTask step.call.Value}
    (tracks : Tracks steps before)
    (runs : Runs (MountedVfs.handle handle >>= use) before step.events step.reply after)
    (forwards : ∀ mounted, Runs (use mounted) before step.events step.reply after →
      Forwards mounted step ∧ after = before)
    (unopened : step.opened = none) (uses : handle? step.call = some handle)
    (unreleased : released? step.call = none) : StepTracks steps step before after := by
  rw [runs_handle_bind_iff] at runs
  have ends : step.Follows (before.handles.get handle) ∧ after = before := by
    cases found : before.handles.get handle with
    | none =>
        rw [found] at runs
        exact ⟨⟨runs.1, runs.2.1⟩, runs.2.2⟩
    | some mounted =>
        rw [found] at runs
        exact forwards mounted runs
  obtain ⟨follows, rfl⟩ := ends
  apply stepTracks_unopened tracks unopened (tracks_same tracks unopened unreleased) _ rfl
  intro other found
  obtain rfl := Option.some.inj (uses.symm.trans found)
  exact follows

theorem erase_missing {state : State} {handle : Nat} (missing : state.handles.get handle = none) :
    state = { state with handles := state.handles.erase handle } := by
  have same : state.handles.erase handle = state.handles := by
    ext1 other
    rw [OrderedMap.get_erase]
    split
    · rw [‹other = handle›, missing]
    · rfl
  rw [same]

/-- A release takes the handle out of the table and follows the owner. -/
theorem release_tracks {step : Step} {handle : Nat}
    {use : MountedHandle → MountTask step.call.Value} (tracks : Tracks steps before)
    (runs : Runs (removeHandle handle >>= use) before step.events step.reply after)
    (forwards : ∀ mounted middle, Runs (use mounted) middle step.events step.reply after →
      Forwards mounted step ∧ after = middle)
    (unopened : step.opened = none) (uses : handle? step.call = some handle)
    (released : released? step.call = some handle) : StepTracks steps step before after := by
  rw [runs_removeHandle_bind_iff] at runs
  have ends : step.Follows (before.handles.get handle) ∧
      after = { before with handles := before.handles.erase handle } := by
    cases found : before.handles.get handle with
    | none =>
        rw [found] at runs
        exact ⟨⟨runs.1, runs.2.1⟩, runs.2.2.trans (erase_missing found)⟩
    | some mounted =>
        rw [found] at runs
        exact forwards mounted _ runs
  obtain ⟨follows, rfl⟩ := ends
  apply stepTracks_unopened tracks unopened (tracks_erase tracks unopened released) _ rfl
  intro other found
  obtain rfl := Option.some.inj (uses.symm.trans found)
  exact follows

theorem step_tracks {step : Step} (tracks : Tracks steps before)
    (runs : Runs (vfs.call step.call) before step.events step.reply after) :
    StepTracks steps step before after := by
  obtain ⟨call, events, reply⟩ := step
  cases call with
  | stat path => exact stepTracks_leaves (stat_leaves path) runs tracks rfl rfl rfl
  | readdir path => exact stepTracks_leaves (readdir_leaves path) runs tracks rfl rfl rfl
  | mkdir path => exact stepTracks_leaves (mkdir_leaves path) runs tracks rfl rfl rfl
  | rename source target =>
      exact stepTracks_leaves (rename_leaves source target) runs tracks rfl rfl rfl
  | unlink path => exact stepTracks_leaves (unlink_leaves path) runs tracks rfl rfl rfl
  | rmdir path => exact stepTracks_leaves (rmdir_leaves path) runs tracks rfl rfl rfl
  | «open» path mode => exact open_tracks tracks runs
  | readAt handle offset bufLen =>
      exact use_tracks tracks runs (fun _ sent => runs_forward_iff.mp sent) rfl rfl rfl
  | writeAt handle offset data =>
      exact use_tracks tracks runs (fun _ sent => runs_forward_iff.mp sent) rfl rfl rfl
  | truncate handle len =>
      exact use_tracks tracks runs (fun _ sent => runs_forward_iff.mp sent) rfl rfl rfl
  | close handle =>
      exact release_tracks tracks runs (fun _ _ sent => runs_forward_iff.mp sent) rfl rfl rfl
  | abort handle =>
      exact release_tracks tracks runs (fun _ _ sent => runs_forward_iff.mp sent) rfl rfl rfl

end Steps

end TinySandbox.Mounted
