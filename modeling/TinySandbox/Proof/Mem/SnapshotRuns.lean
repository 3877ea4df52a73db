/-
This file follows one snapshot through every later run.
-/

import TinySandbox.Proof.Mem.Runs

namespace TinySandbox.Mem
open Library Library.Call DirectoryTree

variable {world next : World} {action : Action} {reply : VfsResult Reply} {index : Nat}

/-- Snapshots never change and never leave the world. -/
theorem Transition.snapshots (transition : Transition world action reply next) :
    world.snapshots <+: next.snapshots := by
  cases transition with
  | captured named taken => exact List.prefix_append _ _
  | _ => exact List.prefix_refl _

/-- An action leaves every filesystem but its own as it was. -/
theorem Transition.others (transition : Transition world action reply next) {other : Nat}
    (different : other ≠ action.index) {vfs : InMemoryVfs}
    (present : world.filesystems[other]? = some vfs) : next.filesystems[other]? = some vfs := by
  have put (holder : InMemoryVfs) (after : State) :
      (world.put action.index holder after).filesystems[other]? = some vfs := by
    simp only [World.put]
    rw [List.getElem?_set_ne (Ne.symm different), present]
  cases transition with
  | idle => exact present
  | called named ran => exact put _ _
  | captured named taken => exact present
  | refused named error => exact put _ _
  | restored named fits => exact put _ _
  | branched named fits =>
      rw [List.getElem?_append_left (List.getElem?_eq_some_iff.mp present).1, present]

theorem put_named {vfs : InMemoryVfs} (named : world.filesystems[index]? = some vfs)
    (after : State) :
    (world.put index vfs after).filesystems[index]? = some { vfs with state := after } := by
  simp only [World.put, List.getElem?_set, if_pos, (List.getElem?_eq_some_iff.mp named).1]

/-- A filesystem keeps its quota, its handle counter never falls, and no old number comes back. -/
structure Ages (before after : InMemoryVfs) : Prop where
  quota : after.quota = before.quota
  nextHandle : before.state.nextHandle ≤ after.state.nextHandle
  handles : ∀ number handle, after.state.handles.get number = some handle →
    before.state.handles.get number = some handle ∨ before.state.nextHandle ≤ number

theorem Ages.refl (vfs : InMemoryVfs) : Ages vfs vfs := ⟨rfl, le_rfl, fun _ _ found => .inl found⟩

theorem Ages.trans {first second third : InMemoryVfs} (left : Ages first second)
    (right : Ages second third) : Ages first third where
  quota := right.quota.trans left.quota
  nextHandle := left.nextHandle.trans right.nextHandle
  handles := fun number handle found => by
    rcases right.handles number handle found with earlier | fresh
    · exact left.handles number handle earlier
    · exact .inr (left.nextHandle.trans fresh)

theorem Transition.ages (transition : Transition world action reply next) (sound : world.Sound)
    {vfs : InMemoryVfs} (present : world.filesystems[index]? = some vfs) :
    ∃ after, next.filesystems[index]? = some after ∧ Ages vfs after := by
  by_cases same : index = action.index
  · subst same
    cases transition with
    | idle => exact ⟨vfs, present, .refl vfs⟩
    | @called index vfs' call _ after named ran =>
        obtain rfl := Option.some.inj (present.symm.trans named)
        obtain ⟨flat, settled, -⟩ :=
          VfsCall.run_call (sound.filesystems vfs (List.mem_of_getElem? named)) ran
        refine ⟨_, put_named named after, rfl, ?_, ?_⟩
        · have grown := FlatFs.call_nextHandle vfs.quota vfs.state.flat call
          rw [flat] at grown
          exact grown
        · intro number handle found
          have origin := FlatFs.call_handles vfs.quota vfs.state.flat call
            (by rw [flat]; exact found)
          rcases origin with before | rfl
          · exact .inl before
          · exact .inr le_rfl
    | captured named taken => exact ⟨vfs, present, .refl vfs⟩
    | @refused index number vfs' named error =>
        obtain rfl := Option.some.inj (present.symm.trans named)
        exact ⟨_, put_named named vfs.state, .refl vfs⟩
    | @restored index number vfs' snapshot named stored fits =>
        obtain rfl := Option.some.inj (present.symm.trans named)
        exact ⟨_, put_named named _, rfl, le_rfl, fun number handle found => by cases found⟩
    | branched named stored fits =>
        refine ⟨vfs, ?_, .refl vfs⟩
        rw [List.getElem?_append_left (List.getElem?_eq_some_iff.mp present).1, present]
  · exact ⟨vfs, transition.others same present, .refl vfs⟩

/-- A run keeps the snapshots and ages every filesystem. -/
theorem World.run_ages {actions : List Action} {replies : List (VfsResult Reply)} {final : World}
    (sound : world.Sound) (ran : world.run actions = some (replies, final)) :
    final.Sound ∧ world.snapshots <+: final.snapshots ∧
      ∀ (index : Nat) (vfs : InMemoryVfs), world.filesystems[index]? = some vfs →
        ∃ after, final.filesystems[index]? = some after ∧ Ages vfs after := by
  refine World.run_keeps (fun reached => reached.Sound ∧
    world.snapshots <+: reached.snapshots ∧
    ∀ (index : Nat) (vfs : InMemoryVfs), world.filesystems[index]? = some vfs →
      ∃ after, reached.filesystems[index]? = some after ∧ Ages vfs after) ?_
    ⟨sound, List.prefix_refl _, fun index vfs present => ⟨vfs, present, .refl vfs⟩⟩ ran
  rintro middle action reply next ⟨settled, kept, aged⟩ transition
  refine ⟨settled.step transition, kept.trans transition.snapshots, fun index vfs present => ?_⟩
  obtain ⟨between, there, earlier⟩ := aged index vfs present
  obtain ⟨after, here, later⟩ := transition.ages settled there
  exact ⟨after, here, earlier.trans later⟩

/-- An open in the run returned this handle of the filesystem. -/
def Minted (actions : List Action) (replies : List (VfsResult Reply)) (index number : Nat) : Prop :=
  ∃ call, (Action.call index call, Except.ok (Reply.handle number)) ∈ actions.zip replies

/-- A minted handle is at least the counter before the run and lies below it for ever. -/
theorem World.minted_between {actions : List Action} {replies : List (VfsResult Reply)}
    {final : World} (sound : world.Sound) (ran : world.run actions = some (replies, final))
    {number : Nat} (minted : Minted actions replies index number) :
    (∃ vfs, final.filesystems[index]? = some vfs ∧ number < vfs.state.nextHandle) ∧
      ∀ vfs, world.filesystems[index]? = some vfs → vfs.state.nextHandle ≤ number := by
  induction actions generalizing world replies with
  | nil =>
      obtain ⟨call, member⟩ := minted
      simp at member
  | cons action rest ih =>
      rw [World.run] at ran
      obtain ⟨⟨reply, middle⟩, stepped, ran⟩ := Option.bind_eq_some_iff.mp ran
      obtain ⟨⟨answers, reached⟩, remaining, same⟩ := Option.map_eq_some_iff.mp ran
      obtain ⟨rfl, rfl⟩ := Prod.mk.inj same
      have transition := World.step_transition stepped
      have settled := sound.step transition
      obtain ⟨call, member⟩ := minted
      rw [List.zip_cons_cons] at member
      rcases List.mem_cons.mp member with here | later
      · obtain ⟨rfl, answer⟩ := Prod.mk.inj here
        generalize replied : (Except.ok (Reply.handle number) : VfsResult Reply) = reply at answer
        subst answer
        cases transition with
        | idle => cases replied
        | @called index vfs call _ after named outcome =>
            obtain ⟨flat, -⟩ :=
              VfsCall.run_call (sound.filesystems vfs (List.mem_of_getElem? named)) outcome
            have fresh := FlatFs.call_minted vfs.quota vfs.state.flat
              (by rw [flat, replied] :
                (vfs.state.flat.call vfs.quota call).1 = .ok (.handle number))
            rw [flat] at fresh
            obtain ⟨-, -, aged⟩ := World.run_ages settled remaining
            obtain ⟨last, there, ages⟩ := aged index _ (put_named named after)
            refine ⟨⟨last, there, lt_of_lt_of_le fresh.2 ages.nextHandle⟩, fun other present => ?_⟩
            obtain rfl := Option.some.inj (named.symm.trans present)
            exact fresh.1.ge
      · obtain ⟨below, above⟩ := ih settled remaining ⟨call, later⟩
        refine ⟨below, fun vfs present => ?_⟩
        obtain ⟨between, there, ages⟩ := transition.ages sound present
        exact ages.nextHandle.trans (above between there)

/-- In every continuation the handle is refused and never minted again. -/
def HandleDead (world : World) (index number : Nat) : Prop :=
  ∀ actions replies final, world.run actions = some (replies, final) →
    ¬ Minted actions replies index number ∧
      ∀ call, FlatFs.UsesHandle number call →
        ∃ next, final.step (.call index call) = some (.error .EBADF, next)

/-- A call on a number without a handle is refused and does not panic. -/
theorem step_dead {vfs : InMemoryVfs} (named : world.filesystems[index]? = some vfs)
    (invariant : Invariant vfs.quota vfs.state) {number : Nat}
    (dead : vfs.state.handles.get number = none) {call : VfsCall}
    (uses : FlatFs.UsesHandle number call) :
    ∃ next, world.step (.call index call) = some (.error .EBADF, next) := by
  have agreed := VfsCall.run_agrees world.arcs invariant call
  rw [FlatFs.attempt_dead vfs.quota vfs.state.flat dead uses] at agreed
  simp only [World.step, named]
  generalize outcome (call.run vfs.quota world.arcs) vfs.state = reached at agreed
  rcases reached with _ | ⟨error | value, after⟩
  · exfalso
    cases call <;> try exact agreed
    case «open» path mode => exact uses
    case writeAt used offset data =>
      obtain rfl : used = number := uses
      obtain ⟨handle, file, present, -⟩ := agreed
      rw [dead] at present
      cases present
    case truncate used len =>
      obtain ⟨rfl, -⟩ : used = number ∧ _ := uses
      exact agreed.1 dead
  · obtain ⟨same, -⟩ := agreed
    obtain rfl := Except.error.inj same
    exact ⟨_, rfl⟩
  · cases agreed.1

/-- A filesystem without handles has given up every number below its counter. -/
theorem handleDead_of_below (sound : world.Sound) {vfs : InMemoryVfs}
    (named : world.filesystems[index]? = some vfs) (closed : vfs.state.handles = ∅) {number : Nat}
    (below : number < vfs.state.nextHandle) : HandleDead world index number := by
  intro actions replies final ran
  obtain ⟨settled, -, aged⟩ := World.run_ages sound ran
  obtain ⟨last, present, ages⟩ := aged index vfs named
  constructor
  · intro minted
    have above := (World.minted_between sound ran minted).2 vfs named
    omega
  · intro call uses
    refine step_dead present (settled.filesystems last (List.mem_of_getElem? present)) ?_ uses
    by_contra opened
    obtain ⟨handle, found⟩ := Option.ne_none_iff_exists'.mp opened
    rcases ages.handles number handle found with before | above
    · rw [closed] at before
      cases before
    · omega

/-- The restored state shows the source, and its counters count what the source showed. -/
def ShowsSnapshot (source restored : State) : Prop :=
  restored.visible = source.visible ∧
    restored.fileCount = {path | path ≠ [] ∧ source.visible path ≠ none}.ncard ∧
    restored.usedBytes = ∑ᶠ path, visibleLength (source.visible path)

theorem Captures.shows {quota other : VfsQuota} {state : State} {snapshot : SnapshotState}
    (captures : Captures state snapshot) (invariant : Invariant other state)
    (fits : ensureSnapshotFitsQuota snapshot quota = .ok ()) (nextHandle : Nat) :
    ShowsSnapshot state (State.fromSnapshot snapshot nextHandle) := by
  obtain ⟨fileCount, usedBytes⟩ := (captures.invariant invariant fits nextHandle).counts_visible rfl
  rw [captures.visible nextHandle] at fileCount usedBytes
  exact ⟨captures.visible nextHandle, fileCount, usedBytes⟩

theorem ensureSnapshotFitsQuota_error {quota : VfsQuota} {snapshot : SnapshotState} {error : Errno}
    (failed : ensureSnapshotFitsQuota snapshot quota = .error error) : error = .ENOSPC := by
  unfold ensureSnapshotFitsQuota at failed
  split at failed
  · exact (Except.error.inj failed).symm
  · split at failed
    · exact (Except.error.inj failed).symm
    · cases failed

/-- The restore shows the snapshot and kills the old handles, or it fails for want of space. -/
def RestoreSpec (source target : InMemoryVfs) (world : World) (index number : Nat)
    (minted : Nat → Prop) : Prop :=
  ∃ reply restored, world.step (.restore index number) = some (reply, restored) ∧
    ((reply = .error .ENOSPC ∧ target.quota ≠ source.quota ∧
        restored.filesystems = world.filesystems) ∨
      (reply = .ok .unit ∧
        (∃ state, restored.filesystems[index]? = some ⟨target.quota, state⟩ ∧
          ShowsSnapshot source.state state) ∧
        ∀ dead, minted dead → HandleDead restored index dead))

/-- The branch is a new filesystem that shows the snapshot, or it fails for want of space. -/
def BranchSpec (source target : InMemoryVfs) (world : World) (index number : Nat) : Prop :=
  ∃ reply branched, world.step (.branch index number) = some (reply, branched) ∧
    ((reply = .error .ENOSPC ∧ target.quota ≠ source.quota ∧ branched = world) ∨
      (reply = .ok (.count world.filesystems.length) ∧
        ∃ state, branched.filesystems = world.filesystems ++ [⟨target.quota, state⟩] ∧
          ShowsSnapshot source.state state))

/-- An action changes no snapshot and no other filesystem, and all shared buffers still agree. -/
def Isolated (world : World) : Prop :=
  ∀ action reply next, world.step action = some (reply, next) →
    next.Coherent ∧ world.snapshots <+: next.snapshots ∧
      ∀ (other : Nat) (vfs : InMemoryVfs), other ≠ action.index →
        world.filesystems[other]? = some vfs → next.filesystems[other]? = some vfs

/--
A snapshot can be restored or branched after any later run.
Both show what its source showed, and no action reaches across filesystems or snapshots.
-/
theorem snapshot_survives_runs (quotas : List VfsQuota) (before between : List Action)
    (earlier replies : List (VfsResult Reply)) (taken captured later : World)
    (index number target : Nat) (source vfs : InMemoryVfs)
    (reached : (World.new quotas).run before = some (earlier, taken))
    (named : taken.filesystems[index]? = some source)
    (snapshot : taken.step (.snapshot index) = some (.ok (.count number), captured))
    (continued : captured.run between = some (replies, later))
    (live : later.filesystems[target]? = some vfs) :
    RestoreSpec source vfs later target number
        (fun dead => Minted before earlier target dead ∨ Minted between replies target dead) ∧
      BranchSpec source vfs later target number ∧ Isolated later := by
  have sound := World.run_sound reached
  have transition := World.step_transition snapshot
  have capturedSound := sound.step transition
  obtain ⟨settled, kept, aged⟩ := World.run_ages capturedSound continued
  have invariant := sound.filesystems source (List.mem_of_getElem? named)
  obtain ⟨stored, fromState, captures, bytes, entries⟩ :=
    SnapshotState.fromState_captures invariant
  have present : later.snapshots[number]? = some stored := by
    generalize replied : (Except.ok (Reply.count number) : VfsResult Reply) = reply at transition
    cases transition with
    | idle => cases replied
    | @captured index vfs' snapshot named' taken' =>
        obtain rfl := Option.some.inj (named.symm.trans named')
        obtain rfl := Except.ok.inj (fromState.symm.trans taken')
        obtain rfl := Reply.count.inj (Except.ok.inj replied)
        obtain ⟨rest, same⟩ := kept
        rw [← same, List.getElem?_append_left (by simp)]
        simp
  have fits (same : vfs.quota = source.quota) :
      ensureSnapshotFitsQuota stored vfs.quota = .ok () := by
    rw [same]
    exact captures.fits invariant bytes entries
  have below (dead : Nat)
      (minted : Minted before earlier target dead ∨ Minted between replies target dead) :
      dead < vfs.state.nextHandle := by
    rcases minted with first | second
    · obtain ⟨⟨old, there, bound⟩, -⟩ := World.minted_between (.new quotas) reached first
      obtain ⟨middle, here, ages⟩ := transition.ages sound there
      obtain ⟨last, final, more⟩ := aged target middle here
      obtain rfl := Option.some.inj (final.symm.trans live)
      exact lt_of_lt_of_le bound (ages.trans more).nextHandle
    · obtain ⟨⟨last, final, bound⟩, -⟩ := World.minted_between capturedSound continued second
      obtain rfl := Option.some.inj (final.symm.trans live)
      exact bound
  refine ⟨?_, ?_, ?_⟩
  · cases room : ensureSnapshotFitsQuota stored vfs.quota with
    | error error =>
        obtain rfl := ensureSnapshotFitsQuota_error room
        refine ⟨_, later.put target vfs vfs.state, ?_, .inl ⟨rfl, ?_, put_self live⟩⟩
        · simp only [World.step, live, present, outcome_restore, room]
          rfl
        · intro same
          rw [fits same] at room
          cases room
    | ok _ =>
        have stepped : later.step (.restore target number) = some (.ok .unit,
            later.put target vfs (State.fromSnapshot stored vfs.state.nextHandle)) := by
          simp only [World.step, live, present, outcome_restore, room]
          rfl
        refine ⟨_, _, stepped, .inr ⟨rfl, ?_, ?_⟩⟩
        · exact ⟨_, put_named live _, captures.shows invariant room _⟩
        · intro dead minted
          exact handleDead_of_below (settled.step (World.step_transition stepped))
            (put_named live _) rfl (below dead minted)
  · cases room : ensureSnapshotFitsQuota stored vfs.quota with
    | error error =>
        obtain rfl := ensureSnapshotFitsQuota_error room
        refine ⟨_, later, ?_, .inl ⟨rfl, ?_, rfl⟩⟩
        · simp only [World.step, live, present, branch_eq, room]
        · intro same
          rw [fits same] at room
          cases room
    | ok _ =>
        refine ⟨_, { later with filesystems :=
          later.filesystems ++ [⟨vfs.quota, State.fromSnapshot stored 1⟩] }, ?_, .inr ⟨rfl, ?_⟩⟩
        · simp only [World.step, live, present, branch_eq, room]
        · exact ⟨_, rfl, captures.shows invariant room 1⟩
  · intro action reply next stepped
    have move := World.step_transition stepped
    exact ⟨(settled.step move).toCoherent, move.snapshots, fun other vfs different there =>
      move.others different there⟩

theorem snapshot_survives_runs_rmdir :
    ∃ earlier replies taken captured later source vfs,
      (World.new [tinyQuota]).run [.call 0 (.mkdir "/a".toList)] = some (earlier, taken) ∧
        taken.step (.snapshot 0) = some (.ok (.count 0), captured) ∧
        captured.run [.call 0 (.rmdir "/a".toList)] = some (replies, later) ∧
        RestoreSpec source vfs later 0 0 (fun dead =>
          Minted [.call 0 (.mkdir "/a".toList)] earlier 0 dead ∨
            Minted [.call 0 (.rmdir "/a".toList)] replies 0 dead) := by
  let full : State :=
    { State.default with root := .directory [(['a'], .directory [])], fileCount := 1 }
  let stored : SnapshotState :=
    { root := full.root, files := ∅, nextInode := 1, usedBytes := 0, fileCount := 1 }
  let start : World := ⟨[⟨tinyQuota, full⟩], [], 2⟩
  let middle : World := ⟨[⟨tinyQuota, full⟩], [stored], 2⟩
  let last : World := ⟨[⟨tinyQuota, State.default⟩], [stored], 4⟩
  have reached : (World.new [tinyQuota]).run [.call 0 (.mkdir "/a".toList)] =
      some ([.ok .unit], start) := rfl
  have snapshot : start.step (.snapshot 0) = some (.ok (.count 0), middle) := rfl
  have continued : middle.run [.call 0 (.rmdir "/a".toList)] = some ([.ok .unit], last) := rfl
  exact ⟨_, _, start, middle, last, ⟨tinyQuota, full⟩, ⟨tinyQuota, State.default⟩, reached,
    snapshot, continued,
    (snapshot_survives_runs [tinyQuota] _ _ _ _ start middle last 0 0 0 ⟨tinyQuota, full⟩
      ⟨tinyQuota, State.default⟩ reached rfl snapshot continued rfl).1⟩

end TinySandbox.Mem
