/-
This file shows that every call and every run agrees with the flat filesystem.
It says what one action can do to a world, and it lifts invariants from actions to runs.
-/

import TinySandbox.Proof.Mem.OpenAgreement
import TinySandbox.Proof.Mem.RenameAgreement
import TinySandbox.Proof.Mem.Snapshot

namespace TinySandbox.Mem
open Library Library.Call DirectoryTree

variable {quota : VfsQuota} {arcs : Arcs} {state : State}

/-- A call exhausts an identity counter or the address space. -/
def VfsCall.Exhausts (state : State) : VfsCall → Prop
  | .open _ _ => u64Max ≤ state.nextInode ∨ u64Max ≤ state.nextHandle
  | .writeAt number offset data => WriteExhausts state number offset data
  | .truncate number len => TruncateExhausts state number len
  | _ => False

theorem VfsCall.run_agrees (arcs : Arcs) (invariant : Invariant quota state) (call : VfsCall) :
    Agrees quota arcs state (call.Exhausts state) (outcome (call.run quota arcs) state)
      (state.flat.attempt quota call) := by
  cases call with
  | stat path => exact agrees_map (stat_agrees invariant path) Reply.metadata
  | readdir path => exact agrees_map (readdir_agrees invariant path) Reply.entries
  | mkdir path => exact agrees_map (mkdir_agrees invariant path) fun _ => Reply.unit
  | rename source target =>
      exact agrees_map (rename_agrees invariant source target) fun _ => Reply.unit
  | unlink path => exact agrees_map (unlink_agrees invariant path) fun _ => Reply.unit
  | rmdir path => exact agrees_map (rmdir_agrees invariant path) fun _ => Reply.unit
  | «open» path mode => exact agrees_map (open_agrees invariant path mode) Reply.handle
  | readAt number offset bufLen =>
      exact agrees_map (readAt_agrees invariant number offset bufLen) Reply.data
  | writeAt number offset data =>
      exact agrees_map (writeAt_agrees invariant number offset data) Reply.count
  | truncate number len =>
      exact agrees_map (truncate_agrees invariant number len) fun _ => Reply.unit
  | close number => exact agrees_map (close_agrees invariant number) fun _ => Reply.unit
  | abort number => exact agrees_map (close_agrees invariant number) fun _ => Reply.unit

/-- One call gives the reply and the filesystem of the flat call. -/
theorem VfsCall.run_call (invariant : Invariant quota state) {call : VfsCall}
    {reply : VfsResult Reply} {after : State}
    (ran : outcome (call.run quota arcs) state = some (reply, after)) :
    state.flat.call quota call = (reply, after.flat) ∧ Invariant quota after ∧
      ArcStep arcs state.files after.files := by
  have agreed := run_agrees arcs invariant call
  rw [ran] at agreed
  cases reply with
  | error error =>
      obtain ⟨expected, rfl⟩ := agreed
      refine ⟨?_, invariant, .refl arcs _⟩
      simp only [FlatFs.call, expected]
  | ok value =>
      obtain ⟨expected, settled, step⟩ := agreed
      refine ⟨?_, settled, step⟩
      simp only [FlatFs.call, expected]

/-- An action does nothing, runs one call, or takes, restores, or branches a snapshot. -/
inductive Transition (world : World) : Action → VfsResult Reply → World → Prop
  | idle (action : Action) (error : Errno) : Transition world action (.error error) world
  | called {index : Nat} {vfs : InMemoryVfs} {call : VfsCall} {reply : VfsResult Reply}
      {after : State} (named : world.filesystems[index]? = some vfs)
      (ran : outcome (call.run vfs.quota world.arcs) vfs.state = some (reply, after)) :
      Transition world (.call index call) reply (world.put index vfs after)
  | captured {index : Nat} {vfs : InMemoryVfs} {snapshot : SnapshotState}
      (named : world.filesystems[index]? = some vfs)
      (taken : SnapshotState.fromState vfs.state = .ok snapshot) :
      Transition world (.snapshot index) (.ok (.count world.snapshots.length))
        { world with snapshots := world.snapshots ++ [snapshot] }
  | refused {index number : Nat} {vfs : InMemoryVfs} (named : world.filesystems[index]? = some vfs)
      (error : Errno) :
      Transition world (.restore index number) (.error error) (world.put index vfs vfs.state)
  | restored {index number : Nat} {vfs : InMemoryVfs} {snapshot : SnapshotState}
      (named : world.filesystems[index]? = some vfs)
      (present : world.snapshots[number]? = some snapshot)
      (fits : ensureSnapshotFitsQuota snapshot vfs.quota = .ok ()) :
      Transition world (.restore index number) (.ok .unit)
        (world.put index vfs (State.fromSnapshot snapshot vfs.state.nextHandle))
  | branched {index number : Nat} {vfs : InMemoryVfs} {snapshot : SnapshotState}
      (named : world.filesystems[index]? = some vfs)
      (present : world.snapshots[number]? = some snapshot)
      (fits : ensureSnapshotFitsQuota snapshot vfs.quota = .ok ()) :
      Transition world (.branch index number) (.ok (.count world.filesystems.length))
        { world with
          filesystems := world.filesystems ++ [⟨vfs.quota, State.fromSnapshot snapshot 1⟩] }

variable {world next : World} {action : Action} {reply : VfsResult Reply}

/-- The outcome of a restore depends only on whether the snapshot fits. -/
theorem outcome_restore (quota : VfsQuota) (snapshot : SnapshotState) (state : State) :
    outcome (restore quota snapshot) state =
      match ensureSnapshotFitsQuota snapshot quota with
      | .error error => some (.error error, state)
      | .ok _ => some (.ok (), State.fromSnapshot snapshot state.nextHandle) := by
  unfold restore
  cases ensureSnapshotFitsQuota snapshot quota <;> rfl

theorem branch_eq (quota : VfsQuota) (snapshot : SnapshotState) :
    branch quota snapshot =
      match ensureSnapshotFitsQuota snapshot quota with
      | .error error => .error error
      | .ok _ => .ok (State.fromSnapshot snapshot 1) := by
  unfold branch
  cases ensureSnapshotFitsQuota snapshot quota <;> rfl

theorem World.step_transition (stepped : world.step action = some (reply, next)) :
    Transition world action reply next := by
  cases action with
  | call index call =>
      simp only [World.step] at stepped
      cases named : world.filesystems[index]? with
      | none =>
          rw [named] at stepped
          obtain ⟨rfl, rfl⟩ := Prod.mk.inj (Option.some.inj stepped)
          exact .idle _ _
      | some vfs =>
          simp only [named] at stepped
          obtain ⟨reached, ran, same⟩ := Option.map_eq_some_iff.mp stepped
          obtain ⟨rfl, rfl⟩ := Prod.mk.inj same
          exact .called named ran
  | snapshot index =>
      simp only [World.step] at stepped
      cases named : world.filesystems[index]? with
      | none =>
          rw [named] at stepped
          obtain ⟨rfl, rfl⟩ := Prod.mk.inj (Option.some.inj stepped)
          exact .idle _ _
      | some vfs =>
          simp only [named] at stepped
          cases taken : SnapshotState.fromState vfs.state with
          | error error =>
              rw [taken] at stepped
              obtain ⟨rfl, rfl⟩ := Prod.mk.inj (Option.some.inj stepped)
              exact .idle _ _
          | ok snapshot =>
              rw [taken] at stepped
              obtain ⟨rfl, rfl⟩ := Prod.mk.inj (Option.some.inj stepped)
              exact .captured named taken
  | restore index number =>
      simp only [World.step] at stepped
      cases named : world.filesystems[index]? with
      | none =>
          rw [named] at stepped
          obtain ⟨rfl, rfl⟩ := Prod.mk.inj (Option.some.inj stepped)
          exact .idle _ _
      | some vfs =>
          cases present : world.snapshots[number]? with
          | none =>
              rw [named, present] at stepped
              obtain ⟨rfl, rfl⟩ := Prod.mk.inj (Option.some.inj stepped)
              exact .idle _ _
          | some snapshot =>
              simp only [named, present, outcome_restore] at stepped
              cases fits : ensureSnapshotFitsQuota snapshot vfs.quota with
              | error error =>
                  simp only [fits, Option.map_some, Option.some.injEq, Prod.mk.injEq] at stepped
                  obtain ⟨rfl, rfl⟩ := stepped
                  exact .refused named error
              | ok _ =>
                  simp only [fits, Option.map_some, Option.some.injEq, Prod.mk.injEq] at stepped
                  obtain ⟨rfl, rfl⟩ := stepped
                  exact .restored named present fits
  | branch index number =>
      simp only [World.step] at stepped
      cases named : world.filesystems[index]? with
      | none =>
          rw [named] at stepped
          obtain ⟨rfl, rfl⟩ := Prod.mk.inj (Option.some.inj stepped)
          exact .idle _ _
      | some vfs =>
          cases present : world.snapshots[number]? with
          | none =>
              rw [named, present] at stepped
              obtain ⟨rfl, rfl⟩ := Prod.mk.inj (Option.some.inj stepped)
              exact .idle _ _
          | some snapshot =>
              simp only [named, present, branch_eq] at stepped
              cases fits : ensureSnapshotFitsQuota snapshot vfs.quota with
              | error error =>
                  simp only [fits, Option.some.injEq, Prod.mk.injEq] at stepped
                  obtain ⟨rfl, rfl⟩ := stepped
                  exact .idle _ _
              | ok _ =>
                  simp only [fits, Option.some.injEq, Prod.mk.injEq] at stepped
                  obtain ⟨rfl, rfl⟩ := stepped
                  exact .branched named present fits

/-- What every transition keeps holds after every run. -/
theorem World.run_keeps (Holds : World → Prop)
    (kept : ∀ world action reply next, Holds world → Transition world action reply next →
      Holds next)
    {actions : List Action} {replies : List (VfsResult Reply)} {final : World}
    (start : Holds world) (ran : world.run actions = some (replies, final)) : Holds final := by
  induction actions generalizing world replies with
  | nil =>
      obtain ⟨-, rfl⟩ := Prod.mk.inj (Option.some.inj ran)
      exact start
  | cons action rest ih =>
      rw [World.run] at ran
      obtain ⟨⟨reply, next⟩, stepped, ran⟩ := Option.bind_eq_some_iff.mp ran
      obtain ⟨⟨answers, last⟩, remaining, same⟩ := Option.map_eq_some_iff.mp ran
      obtain ⟨-, rfl⟩ := Prod.mk.inj same
      exact ih (kept _ _ _ _ start (step_transition stepped)) remaining

/-- One file of a table holds the buffer. -/
def TableHolds (files : OrderedMap Inode FileNode) (arc : Arc) : Prop :=
  ∃ inode file, files.get inode = some file ∧ file.data = arc

/-- A filesystem or a snapshot of the world holds the buffer. -/
def World.Holds (world : World) (arc : Arc) : Prop :=
  (∃ vfs ∈ world.filesystems, TableHolds vfs.state.files arc) ∨
    ∃ snapshot ∈ world.snapshots, TableHolds snapshot.files arc

/-- All holders of one buffer agree on its bytes, so no write reached a shared buffer. -/
structure World.Coherent (world : World) : Prop where
  agree : ∀ first second, world.Holds first → world.Holds second → first.addr = second.addr →
    first.bytes = second.bytes
  below : ∀ arc, world.Holds arc → arc.addr < world.nextAddr

/-- Every filesystem meets its invariant, and every snapshot captured such a state. -/
structure World.Sound (world : World) : Prop extends World.Coherent world where
  filesystems : ∀ vfs ∈ world.filesystems, Invariant vfs.quota vfs.state
  snapshots : ∀ snapshot ∈ world.snapshots, ∃ quota state,
    Invariant quota state ∧ Captures state snapshot

theorem World.Sound.new (quotas : List VfsQuota) : (World.new quotas).Sound := by
  have nothing (arc : Arc) : ¬ (World.new quotas).Holds arc := by
    rintro (⟨vfs, member, inode, file, found, -⟩ | ⟨snapshot, member, -⟩)
    · obtain ⟨quota, -, rfl⟩ := List.mem_map.mp member
      cases found
    · cases member
  exact
    { agree := fun first _ held => absurd held (nothing first)
      below := fun arc held => absurd held (nothing arc)
      filesystems := fun vfs member => by
        obtain ⟨quota, -, rfl⟩ := List.mem_map.mp member
        exact Invariant.default quota
      snapshots := fun snapshot member => by cases member }

/-- A world that gains no new buffer stays coherent. -/
theorem World.Coherent.mono (coherent : world.Coherent) (counter : world.nextAddr ≤ next.nextAddr)
    (held : ∀ arc, next.Holds arc → world.Holds arc) : next.Coherent where
  agree := fun first second left right => coherent.agree first second (held first left) (held second right)
  below := fun arc holds => lt_of_lt_of_le (coherent.below arc (held arc holds)) counter

theorem sum_two_le {counts : List Nat} {first second left right : Nat}
    (here : counts[first]? = some left) (there : counts[second]? = some right)
    (apart : first ≠ second) : left + right ≤ counts.sum := by
  induction counts generalizing first second with
  | nil => simp at here
  | cons count rest ih =>
      have bound {position value : Nat} (found : rest[position]? = some value) : value ≤ rest.sum :=
        List.le_sum_of_mem (List.mem_of_getElem? found)
      rw [List.sum_cons]
      cases first with
      | zero =>
          cases second with
          | zero => exact absurd rfl apart
          | succ second =>
              simp only [List.getElem?_cons_zero, List.getElem?_cons_succ] at here there
              have := bound there
              have := Option.some.inj here
              omega
      | succ first =>
          cases second with
          | zero =>
              simp only [List.getElem?_cons_zero, List.getElem?_cons_succ] at here there
              have := bound here
              have := Option.some.inj there
              omega
          | succ second =>
              simp only [List.getElem?_cons_succ] at here there
              have := ih here there (fun same => apart (congrArg (· + 1) same))
              omega

theorem arcCount_pos {files : OrderedMap Inode FileNode} {inode : Inode} {file : FileNode}
    (found : files.get inode = some file) : 1 ≤ arcCount files file.data.addr := by
  have bound := files.weight_le_total
    (fun other => if other.data.addr = file.data.addr then 1 else 0) found
  rwa [if_pos rfl] at bound

theorem arcCount_two {files : OrderedMap Inode FileNode} {first second : Inode}
    {left right : FileNode} (here : files.get first = some left)
    (there : files.get second = some right) (apart : first ≠ second)
    (same : left.data.addr = right.data.addr) : 2 ≤ arcCount files left.data.addr := by
  have balance := files.total_erase
    (fun other => if other.data.addr = left.data.addr then 1 else 0) first
  have remains : (files.erase first).get second = some right := by
    rw [OrderedMap.get_erase, if_neg (Ne.symm apart), there]
  have bound := (files.erase first).weight_le_total
    (fun other => if other.data.addr = left.data.addr then 1 else 0) remains
  rw [if_pos same.symm] at bound
  simp only [here, Option.map_some, Option.getD_some, if_pos] at balance
  simp only [arcCount]
  omega

/-- A buffer that one `Arc` holds is held by one file of one filesystem. -/
theorem World.alone {index : Nat} {vfs : InMemoryVfs}
    (named : world.filesystems[index]? = some vfs) {inode : Inode} {file : FileNode}
    (found : vfs.state.files.get inode = some file)
    (single : world.strongCount file.data.addr ≤ 1) :
    (∀ other vfs', world.filesystems[other]? = some vfs' → ∀ inode' file',
      vfs'.state.files.get inode' = some file' → file'.data.addr = file.data.addr →
      other = index ∧ inode' = inode) ∧
    ∀ snapshot ∈ world.snapshots, ∀ inode' file', snapshot.files.get inode' = some file' →
      file'.data.addr ≠ file.data.addr := by
  have counted : (world.filesystems.map fun vfs =>
      arcCount vfs.state.files file.data.addr)[index]? =
      some (arcCount vfs.state.files file.data.addr) := by
    rw [List.getElem?_map, named]
    rfl
  have own := arcCount_pos found
  have live : arcCount vfs.state.files file.data.addr ≤
      (world.filesystems.map fun vfs => arcCount vfs.state.files file.data.addr).sum :=
    List.le_sum_of_mem (List.mem_of_getElem? counted)
  unfold World.strongCount at single
  constructor
  · intro other vfs' present inode' file' stored same
    by_cases equal : other = index
    · subst equal
      obtain rfl := Option.some.inj (named.symm.trans present)
      refine ⟨rfl, ?_⟩
      by_contra different
      have two := arcCount_two found stored (Ne.symm different) same.symm
      omega
    · have also : (world.filesystems.map fun vfs =>
          arcCount vfs.state.files file.data.addr)[other]? =
          some (arcCount vfs'.state.files file.data.addr) := by
        rw [List.getElem?_map, present]
        rfl
      have second := arcCount_pos stored
      rw [same] at second
      have two := sum_two_le counted also (Ne.symm equal)
      omega
  · intro snapshot member inode' file' stored same
    have second := arcCount_pos stored
    rw [same] at second
    have bound : arcCount snapshot.files file.data.addr ≤
        (world.snapshots.map fun snapshot => arcCount snapshot.files file.data.addr).sum :=
      List.le_sum_of_mem (List.mem_map.mpr ⟨snapshot, member, rfl⟩)
    omega

section Called
variable {index : Nat} {vfs : InMemoryVfs} {after : State}

/-- A holder of the old world other than one file of one filesystem. -/
def World.Stale (world : World) (index : Nat) (touched : Option Inode) (arc : Arc) : Prop :=
  (∃ other vfs inode file, world.filesystems[other]? = some vfs ∧
    vfs.state.files.get inode = some file ∧ file.data = arc ∧
    ¬ (other = index ∧ touched = some inode)) ∨
  ∃ snapshot ∈ world.snapshots, TableHolds snapshot.files arc

theorem World.Stale.holds {touched : Option Inode} {arc : Arc}
    (stale : world.Stale index touched arc) : world.Holds arc := by
  rcases stale with ⟨other, vfs, inode, file, present, found, same, -⟩ | snapshot
  · exact .inl ⟨vfs, List.mem_of_getElem? present, inode, file, found, same⟩
  · exact .inr snapshot

/-- After a call every buffer has an old holder or belongs to the touched file. -/
theorem World.put_holds (named : world.filesystems[index]? = some vfs) {touched : Option Inode}
    (others : ∀ inode file, after.files.get inode = some file → touched ≠ some inode →
      ∃ old, vfs.state.files.get inode = some old ∧ old.data = file.data) {arc : Arc}
    (held : (world.put index vfs after).Holds arc) :
    world.Stale index touched arc ∨
      ∃ inode file, touched = some inode ∧ after.files.get inode = some file ∧ file.data = arc := by
  rcases held with ⟨holder, member, inode, file, found, same⟩ | snapshot
  · obtain ⟨other, present⟩ := List.mem_iff_getElem?.mp member
    simp only [World.put, List.getElem?_set] at present
    split at present
    · rename_i equal
      subst equal
      split at present
      · obtain rfl := Option.some.inj present
        by_cases changed : touched = some inode
        · exact .inr ⟨inode, file, changed, found, same⟩
        · obtain ⟨old, before, data⟩ := others inode file found changed
          exact .inl (.inl ⟨index, vfs, inode, old, named, before, data.trans same,
            fun both => changed both.2⟩)
      · cases present
    · rename_i different
      exact .inl (.inl ⟨other, holder, inode, file, present, found, same,
        fun both => different both.1.symm⟩)
  · exact .inl (.inr snapshot)

theorem World.Coherent.called (coherent : world.Coherent)
    (named : world.filesystems[index]? = some vfs)
    (step : ArcStep world.arcs vfs.state.files after.files) :
    (world.put index vfs after).Coherent := by
  obtain ⟨touched, others, moved⟩ := step
  have apart {inode : Inode} {file : FileNode} {arc : Arc} (changed : touched = some inode)
      (found : after.files.get inode = some file) (stale : world.Stale index touched arc) :
      file.data.addr ≠ arc.addr := by
    intro same
    rcases moved inode file found changed with ⟨fresh, -⟩ | ⟨old, before, equal, single⟩
    · have below := coherent.below arc stale.holds
      simp only [World.arcs] at fresh
      omega
    · obtain ⟨live, snapshots⟩ := World.alone named before single
      rcases stale with ⟨other, vfs', inode', file', present, stored, rfl, elsewhere⟩ |
        ⟨snapshot, member, inode', file', stored, rfl⟩
      · obtain ⟨rfl, rfl⟩ := live other vfs' present inode' file' stored (by omega)
        exact elsewhere ⟨rfl, changed⟩
      · exact snapshots snapshot member inode' file' stored (by omega)
  constructor
  · intro first second left right same
    rcases World.put_holds named others left with stale | ⟨inode, file, changed, found, rfl⟩ <;>
      rcases World.put_holds named others right with
        stale' | ⟨inode', file', changed', found', rfl⟩
    · exact coherent.agree first second stale.holds stale'.holds same
    · exact absurd same.symm (apart changed' found' stale)
    · exact absurd same (apart changed found stale')
    · obtain rfl := Option.some.inj (changed.symm.trans changed')
      obtain rfl := Option.some.inj (found.symm.trans found')
      rfl
  · intro arc held
    change arc.addr < world.nextAddr + 2
    rcases World.put_holds named others held with stale | ⟨inode, file, changed, found, rfl⟩
    · have below := coherent.below arc stale.holds
      omega
    · rcases moved inode file found changed with ⟨-, fresh⟩ | ⟨old, before, equal, -⟩
      · exact fresh
      · have below := coherent.below old.data
          (.inl ⟨vfs, List.mem_of_getElem? named, inode, old, before, rfl⟩)
        omega

end Called

/-- A snapshot holds only buffers of the filesystem that it was taken from. -/
theorem World.holds_captured {index : Nat} {vfs : InMemoryVfs} {snapshot : SnapshotState}
    (named : world.filesystems[index]? = some vfs) (captures : Captures vfs.state snapshot) {arc : Arc}
    (held : ({ world with snapshots := world.snapshots ++ [snapshot] } : World).Holds arc) :
    world.Holds arc := by
  rcases held with held | ⟨holder, member, inode, file, found, rfl⟩
  · exact .inl held
  · rcases List.mem_append.mp member with old | new
    · exact .inr ⟨holder, old, inode, file, found, rfl⟩
    · obtain rfl := List.mem_singleton.mp new
      by_cases reachable : Reachable vfs.state inode
      · rw [captures.reachable inode reachable] at found
        obtain ⟨before, present, rfl⟩ := Option.map_eq_some_iff.mp found
        exact .inl ⟨vfs, List.mem_of_getElem? named, inode, before, present, rfl⟩
      · rw [captures.unreachable inode reachable] at found
        cases found

/-- A restored filesystem holds only buffers of the snapshot. -/
theorem World.holds_restored {index number : Nat} {vfs : InMemoryVfs} {snapshot : SnapshotState}
    (present : world.snapshots[number]? = some snapshot) {nextHandle : Nat} {arc : Arc}
    (held : (world.put index vfs (State.fromSnapshot snapshot nextHandle)).Holds arc) :
    world.Holds arc := by
  rcases held with ⟨holder, member, table⟩ | held
  · rcases List.mem_or_eq_of_mem_set member with before | rfl
    · exact .inl ⟨holder, before, table⟩
    · exact .inr ⟨snapshot, List.mem_of_getElem? present, table⟩
  · exact .inr held

theorem World.holds_branched {number : Nat} {quota : VfsQuota} {snapshot : SnapshotState}
    (present : world.snapshots[number]? = some snapshot) {nextHandle : Nat} {arc : Arc}
    (held : ({ world with filesystems :=
      world.filesystems ++ [⟨quota, State.fromSnapshot snapshot nextHandle⟩] } : World).Holds arc) :
    world.Holds arc := by
  rcases held with ⟨holder, member, table⟩ | held
  · rcases List.mem_append.mp member with old | new
    · exact .inl ⟨holder, old, table⟩
    · obtain rfl := List.mem_singleton.mp new
      exact .inr ⟨snapshot, List.mem_of_getElem? present, table⟩
  · exact .inr held

/-- Every action keeps a sound world sound. -/
theorem World.Sound.step (sound : world.Sound) (transition : Transition world action reply next) :
    next.Sound := by
  have live {index : Nat} {vfs : InMemoryVfs} (named : world.filesystems[index]? = some vfs) :=
    sound.filesystems vfs (List.mem_of_getElem? named)
  have put {index : Nat} {vfs : InMemoryVfs} {after : State}
      (settled : Invariant vfs.quota after) (other : InMemoryVfs)
      (member : other ∈ (world.put index vfs after).filesystems) :
      Invariant other.quota other.state := by
    rcases List.mem_or_eq_of_mem_set member with before | rfl
    · exact sound.filesystems other before
    · exact settled
  cases transition with
  | idle => exact sound
  | called named ran =>
      obtain ⟨-, settled, arcs⟩ := VfsCall.run_call (live named) ran
      exact { sound.toCoherent.called named arcs with
        filesystems := put settled
        snapshots := sound.snapshots }
  | @captured index vfs snapshot named taken =>
      obtain ⟨captured, equal, captures, -⟩ := SnapshotState.fromState_captures (live named)
      obtain rfl := Except.ok.inj (taken.symm.trans equal)
      have coherent : World.Coherent { world with snapshots := world.snapshots ++ [snapshot] } :=
        sound.toCoherent.mono le_rfl fun _ held => World.holds_captured named captures held
      exact { coherent with
        filesystems := sound.filesystems
        snapshots := fun other member => by
          rcases List.mem_append.mp member with old | new
          · exact sound.snapshots other old
          · obtain rfl := List.mem_singleton.mp new
            exact ⟨vfs.quota, vfs.state, live named, captures⟩ }
  | refused named error =>
      exact { sound.toCoherent.called named (.refl _ _) with
        filesystems := put (live named)
        snapshots := sound.snapshots }
  | @restored index number vfs snapshot named present fits =>
      obtain ⟨quota, state, invariant, captures⟩ :=
        sound.snapshots snapshot (List.mem_of_getElem? present)
      have coherent : World.Coherent (world.put index vfs
          (State.fromSnapshot snapshot vfs.state.nextHandle)) :=
        sound.toCoherent.mono (Nat.le_add_right _ 2) fun _ held => World.holds_restored present held
      exact { coherent with
        filesystems := put (captures.invariant invariant fits _)
        snapshots := sound.snapshots }
  | @branched index number vfs snapshot named present fits =>
      obtain ⟨quota, state, invariant, captures⟩ :=
        sound.snapshots snapshot (List.mem_of_getElem? present)
      have coherent : World.Coherent { world with filesystems :=
          world.filesystems ++ [⟨vfs.quota, State.fromSnapshot snapshot 1⟩] } :=
        sound.toCoherent.mono le_rfl fun _ held => World.holds_branched present held
      exact { coherent with
        filesystems := fun other member => by
          rcases List.mem_append.mp member with old | new
          · exact sound.filesystems other old
          · obtain rfl := List.mem_singleton.mp new
            exact captures.invariant invariant fits 1
        snapshots := sound.snapshots }

/-- Every world that a run reaches is sound. -/
theorem World.run_sound {quotas : List VfsQuota} {actions : List Action}
    {replies : List (VfsResult Reply)}
    (ran : (World.new quotas).run actions = some (replies, world)) : world.Sound :=
  run_keeps World.Sound (fun _ _ _ _ sound transition => sound.step transition) (.new quotas) ran

end TinySandbox.Mem
