/-
This file gives the invariant of the shared handles. A handle that is in use is in the table, or
one caller is about to release it, or it was released, and only one of these holds.
-/

import TinySandbox.Proof.S3.Probes
import TinySandbox.Proof.S3.UploadLogs

namespace TinySandbox.S3
open Library Library.Task

/-- The caller is about to close or abort the handle. -/
def Caller.releases (handle : Nat) : Caller → Bool
  | .waiting number op => number = handle && op.releases
  | .fetching .. => false

/-- The number of ways in which the handle can still be released, or was. -/
def Shared.tickets (shared : Shared) (handle : Nat) (cell : HandleState) : Nat :=
  shared.table.count handle + shared.callers.countP (Caller.releases handle) + cell.released.toNat

def Caller.Known (cells : Nat → Option HandleState) : Caller → Prop
  | .waiting handle _ => cells handle ≠ none
  | .fetching handle _ _ _ _ => ∃ cell file, cells handle = some cell ∧ cell.staging = .remote file

structure Shared.Valid (vfs : S3Vfs) (shared : Shared) : Prop where
  unused : ∀ handle, shared.nextHandle ≤ handle → shared.cells handle = none
  silent : ∀ handle, shared.cells handle = none → shared.logOf handle = []
  listed : ∀ handle ∈ shared.table, shared.cells handle ≠ none
  known : ∀ caller ∈ shared.callers, caller.Known shared.cells
  once : shared.dropped = false → ∀ handle cell, shared.cells handle = some cell →
    shared.tickets handle cell = 1
  sent : ∀ handle cell, shared.cells handle = some cell →
    ∃ precondition, Sent vfs shared.dropped precondition cell (shared.logOf handle)

section Logs

/-- The events of one handle among those of all handles. -/
def eventsOf (handle : Nat) (log : List (Nat × S3Event)) : List S3Event :=
  log.filterMap fun entry => if entry.1 = handle then some entry.2 else none

theorem logOf_eq (shared : Shared) (handle : Nat) :
    shared.logOf handle = eventsOf handle shared.log := rfl

theorem eventsOf_append (handle : Nat) (first second : List (Nat × S3Event)) :
    eventsOf handle (first ++ second) = eventsOf handle first ++ eventsOf handle second :=
  List.filterMap_append

theorem eventsOf_tagged (handle number : Nat) (events : List S3Event) :
    eventsOf handle (events.map (number, ·)) = if number = handle then events else [] := by
  unfold eventsOf
  rw [List.filterMap_map]
  split
  · rename_i same
    simp [same]
  · rename_i other
    simp [other]

end Logs

section Bodies
variable {vfs : S3Vfs} {cell : HandleState} {log : List S3Event}

/-- A pinned revision stays pinned. -/
theorem body_remote (op : HandleOp) {file : RemoteFile} (pinned : cell.staging = .remote file) :
    (op.body vfs).Wp cell log (fun _ after _ => after.staging = .remote file)
      (fun _ after _ => after.staging = .remote file) := by
  obtain ⟨key, mode, staging, released⟩ := cell
  obtain rfl : staging = .remote file := pinned
  cases op with
  | read offset bufLen =>
      unfold HandleOp.body S3Vfs.readResolved
      rw [wp_map_iff, wp_bind_iff, wp_get_iff, wp_bind_iff, wp_refuse_iff]
      split
      · rfl
      · rw [wp_bind_iff, wp_refuse_iff]
        split
        · rfl
        · refine wp_perform_iff.mpr ?_
          intro events result after ran
          cases result <;> rfl
  | write offset data =>
      unfold HandleOp.body S3Vfs.writeResolved
      rw [wp_map_iff, wp_bind_iff, wp_get_iff, wp_bind_iff, wp_refuse_iff]
      split
      · rfl
      · rw [wp_bind_iff, wp_refuse_iff]
        split
        · rfl
        · show Wp (if data = [] then pure 0 else throw Errno.EBADF) _ _ _ _
          split
          · exact wp_pure_iff.mpr rfl
          · exact wp_throw_iff.mpr rfl
  | truncate len =>
      unfold HandleOp.body S3Vfs.truncateResolved
      rw [wp_bind_iff, wp_get_iff, wp_bind_iff, wp_refuse_iff]
      split
      · rfl
      · rw [wp_bind_iff, wp_refuse_iff]
        split
        · rfl
        · exact wp_throw_iff.mpr rfl
  | close =>
      unfold HandleOp.body S3Vfs.closeResolved S3Vfs.commit
      rw [wp_bind_iff, wp_get_iff, wp_bind_iff, wp_set_iff, wp_bind_iff, wp_get_iff]
      exact wp_pure_iff.mpr rfl
  | abort =>
      unfold HandleOp.body S3Vfs.abortResolved
      rw [wp_bind_iff, wp_get_iff, wp_bind_iff, wp_set_iff]
      exact wp_pure_iff.mpr rfl

/-- A new handle has sent nothing. -/
theorem openStaging_sent {key : Text} {mode : OpenMode} {existing : Option RemoteFile}
    {staging : Staging} (staged : S3Vfs.openStaging mode existing = .ok staging) :
    Sent vfs false (openPrecondition mode existing) { key, mode, staging, released := false } [] := by
  have empty : Gets [] := by simp [Gets]
  rcases openStaging_cases staged with ⟨file, -, rfl⟩ | rfl | ⟨bytes, dirty, rfl, -⟩
  · exact empty
  · exact ⟨[], [], Stream.new_live vfs key _⟩
  · exact ⟨empty, rfl⟩

end Bodies

section Steps
variable {vfs : S3Vfs} {shared after : Shared}

theorem Shared.new_valid (vfs : S3Vfs) : Shared.new.Valid vfs where
  unused := fun _ _ => rfl
  silent := fun _ _ => rfl
  listed := fun _ member => by cases member
  known := fun _ member => by cases member
  once := fun _ _ _ found => by cases found
  sent := fun _ _ found => by cases found

/-- Nobody can release an unused handle. -/
theorem Shared.Valid.tickets_unused (valid : shared.Valid vfs) {handle : Nat}
    (free : shared.cells handle = none) :
    shared.table.count handle = 0 ∧ shared.callers.countP (Caller.releases handle) = 0 := by
  constructor
  · exact List.count_eq_zero.mpr fun member => valid.listed handle member free
  · refine List.countP_eq_zero.mpr fun caller member => ?_
    have known := valid.known caller member
    cases caller with
    | fetching => simp [Caller.releases]
    | waiting number op =>
        have other : number ≠ handle := fun same => known (same ▸ free)
        simp [Caller.releases, other]

theorem Caller.Known.update {cells : Nat → Option HandleState} {caller : Caller}
    (known : caller.Known cells) {handle : Nat} {next : HandleState}
    (pinned : ∀ cell file, cells handle = some cell → cell.staging = .remote file →
      next.staging = .remote file) :
    caller.Known (Function.update cells handle (some next)) := by
  cases caller with
  | waiting number op =>
      by_cases same : number = handle
      · simp [Caller.Known, same]
      · simpa [Caller.Known, same] using known
  | fetching number key file offset bufLen =>
      obtain ⟨cell, file, found, remote⟩ := known
      by_cases same : number = handle
      · exact ⟨next, file, by simp [same], pinned cell file (same ▸ found) remote⟩
      · exact ⟨cell, file, by simpa [same] using found, remote⟩

theorem valid_opens (valid : shared.Valid vfs) (alive : shared.dropped = false)
    {cell : HandleState} (unreleased : cell.released = false)
    {precondition : Precondition} (sent : Sent vfs false precondition cell []) :
    Shared.Valid vfs
      { shared with
        nextHandle := shared.nextHandle + 1
        table := shared.table ++ [shared.nextHandle]
        cells := Function.update shared.cells shared.nextHandle (some cell) } := by
  have free := valid.unused shared.nextHandle le_rfl
  obtain ⟨absent, unreleasing⟩ := valid.tickets_unused free
  constructor
  · intro handle above
    have other : handle ≠ shared.nextHandle := by
      have := (show shared.nextHandle + 1 ≤ handle from above)
      omega
    simpa [other] using valid.unused handle (show shared.nextHandle ≤ handle by
      have := (show shared.nextHandle + 1 ≤ handle from above)
      omega)
  · intro handle missing
    by_cases same : handle = shared.nextHandle
    · simp [same] at missing
    · exact valid.silent handle (by simpa [same] using missing)
  · intro handle member
    rcases List.mem_append.mp member with old | new
    · by_cases same : handle = shared.nextHandle
      · simp [same]
      · simpa [same] using valid.listed handle old
    · simp [List.mem_singleton.mp new]
  · intro caller member
    refine (valid.known caller member).update ?_
    intro old file found
    exact absurd (found.symm.trans free) (by simp)
  · intro _ handle other found
    by_cases same : handle = shared.nextHandle
    · obtain rfl : cell = other := by simpa [same] using found
      simp [Shared.tickets, same, absent, unreleasing, unreleased]
    · have before := valid.once alive handle other (by simpa [same] using found)
      have counted : (shared.table ++ [shared.nextHandle]).count handle = shared.table.count handle := by
        rw [List.count_append, List.count_singleton]
        simp [Ne.symm same]
      simpa [Shared.tickets, counted] using before
  · intro handle other found
    by_cases same : handle = shared.nextHandle
    · obtain rfl : cell = other := by simpa [same] using found
      have empty := valid.silent shared.nextHandle free
      rw [logOf_eq] at empty ⊢
      simp only [same, empty, alive]
      exact ⟨precondition, sent⟩
    · exact valid.sent handle other (by simpa [same] using found)

theorem valid_resolves (valid : shared.Valid vfs) {handle : Nat} {op : HandleOp}
    (present : handle ∈ shared.table) (keeps : op.releases = false) :
    Shared.Valid vfs { shared with callers := .waiting handle op :: shared.callers } := by
  refine ⟨valid.unused, valid.silent, valid.listed, ?_, ?_, valid.sent⟩
  · intro caller member
    rcases List.mem_cons.mp member with rfl | old
    · exact valid.listed handle present
    · exact valid.known caller old
  · intro alive number cell found
    have before := valid.once alive number cell found
    simpa [Shared.tickets, Caller.releases, keeps] using before

theorem count_filter_ne (table : List Nat) (handle number : Nat) :
    (table.filter (· ≠ handle)).count number = if number = handle then 0 else table.count number := by
  split
  · rename_i same
    rw [List.count_eq_zero]
    intro member
    simpa [same] using (List.mem_filter.mp member).2
  · rename_i other
    exact List.count_filter (by simpa using other)

theorem valid_removes (valid : shared.Valid vfs) {handle : Nat} {op : HandleOp}
    (present : handle ∈ shared.table) (releases : op.releases = true) :
    Shared.Valid vfs
      { shared with
        table := shared.table.filter (· ≠ handle)
        callers := .waiting handle op :: shared.callers } := by
  refine ⟨valid.unused, valid.silent, ?_, ?_, ?_, valid.sent⟩
  · exact fun number member => valid.listed number (List.mem_of_mem_filter member)
  · intro caller member
    rcases List.mem_cons.mp member with rfl | old
    · exact valid.listed handle present
    · exact valid.known caller old
  · intro alive number cell found
    have before := valid.once alive number cell found
    have counted := count_filter_ne shared.table handle number
    unfold Shared.tickets at before ⊢
    simp only [counted, List.countP_cons, Caller.releases, releases, Bool.and_true]
    rcases eq_or_ne number handle with rfl | other
    · have positive : 0 < shared.table.count number := List.count_pos_iff.mpr present
      simp only [if_true, decide_true]
      omega
    · simpa [other, other.symm] using before

/-- Nobody waits to release a handle that was released. -/
theorem Shared.Valid.released_keeps (valid : shared.Valid vfs) (alive : shared.dropped = false)
    {handle : Nat} {op : HandleOp} {before later : List Caller} {cell : HandleState}
    (waits : shared.callers = before ++ .waiting handle op :: later)
    (found : shared.cells handle = some cell) (released : cell.released = true) :
    op.releases = false := by
  have tickets := valid.once alive handle cell found
  by_contra releases
  simp only [Shared.tickets, waits, List.countP_append, List.countP_cons, Caller.releases,
    released] at tickets
  simp [releases] at tickets

/-- A caller that gets the lock keeps the invariant. -/
theorem valid_runs (valid : shared.Valid vfs) (alive : shared.dropped = false) {handle : Nat}
    {op : HandleOp} {before later : List Caller} {cell next : HandleState}
    {events : List S3Event} {result : VfsResult Unit}
    (waits : shared.callers = before ++ .waiting handle op :: later)
    (found : shared.cells handle = some cell)
    (ran : (op.body vfs).Runs cell events result next) :
    Shared.Valid vfs
      { shared with
        cells := Function.update shared.cells handle (some next)
        callers := before ++ later
        log := shared.log ++ events.map (handle, ·) } := by
  obtain ⟨precondition, sent⟩ := valid.sent handle cell found
  rw [alive] at sent
  have tickets := valid.once alive handle cell found
  -- The body releases the handle exactly when its caller was counted, and a released handle is
  -- counted already.
  obtain ⟨released, kept⟩ : next.released.toNat = cell.released.toNat + op.releases.toNat ∧
      Sent vfs false precondition next (shared.logOf handle ++ events) := by
    cases free : cell.released with
    | false =>
        obtain ⟨-, released, kept⟩ := (body_sent op free sent).either ran
        exact ⟨by simp [released], kept⟩
    | true =>
        have keeps := valid.released_keeps alive waits found free
        have body : (op.body vfs).Wp cell (shared.logOf handle) _ _ := body_released op free keeps
        cases result with
        | ok value => exact (body.ok ran).elim
        | error error =>
            obtain ⟨rfl, silent⟩ := body.error ran
            refine ⟨by simp [keeps, free], ?_⟩
            rw [silent]
            exact sent
  constructor
  · intro number above
    have other : number ≠ handle := by
      rintro rfl
      simp [valid.unused number above] at found
    simpa [other] using valid.unused number above
  · intro number missing
    by_cases same : number = handle
    · simp [same] at missing
    · have quiet := valid.silent number (by simpa [same] using missing)
      rw [logOf_eq] at quiet ⊢
      simp only [eventsOf_append, eventsOf_tagged, quiet, if_neg (Ne.symm same), List.append_nil]
  · intro number member
    by_cases same : number = handle
    · simp [same]
    · simpa [same] using valid.listed number member
  · intro caller member
    have old : caller ∈ shared.callers := by
      rw [waits]
      rcases List.mem_append.mp member with front | back
      · exact List.mem_append_left _ front
      · exact List.mem_append_right _ (List.mem_cons_of_mem _ back)
    refine (valid.known caller old).update ?_
    intro other file same remote
    obtain rfl := Option.some.inj (same.symm.trans found)
    have body : (op.body vfs).Wp other [] _ _ := body_remote op remote
    exact body.either ran
  · intro _ number other present
    by_cases same : number = handle
    · obtain rfl : next = other := by simpa [same] using present
      subst same
      simp only [Shared.tickets, waits, List.countP_append, List.countP_cons, Caller.releases,
        decide_true, Bool.true_and] at tickets ⊢
      cases releases : op.releases <;> simp [releases] at tickets released ⊢ <;> omega
    · have counted := valid.once alive number other (by simpa [same] using present)
      simpa [Shared.tickets, waits, List.countP_append, List.countP_cons, Caller.releases,
        Ne.symm same] using counted
  · intro number other present
    rw [logOf_eq]
    simp only [eventsOf_append, eventsOf_tagged, alive]
    by_cases same : number = handle
    · obtain rfl : next = other := by simpa [same] using present
      subst same
      rw [if_pos rfl]
      exact ⟨precondition, kept⟩
    · rw [if_neg (Ne.symm same), List.append_nil]
      have old := valid.sent number other (by simpa [same] using present)
      rwa [alive] at old

theorem valid_pins (valid : shared.Valid vfs) {handle offset bufLen : Nat}
    {before later : List Caller} {cell : HandleState} {file : RemoteFile}
    (waits : shared.callers = before ++ .waiting handle (.read offset bufLen) :: later)
    (found : shared.cells handle = some cell) (pinned : PinsRead cell file) :
    Shared.Valid vfs
      { shared with callers := before ++ .fetching handle cell.key file offset bufLen :: later } := by
  refine ⟨valid.unused, valid.silent, valid.listed, ?_, ?_, valid.sent⟩
  · intro caller member
    rcases List.mem_append.mp member with front | back
    · exact valid.known caller (by rw [waits]; exact List.mem_append_left _ front)
    · rcases List.mem_cons.mp back with rfl | old
      · exact ⟨cell, file, found, pinned.2.2⟩
      · exact valid.known caller (by
          rw [waits]
          exact List.mem_append_right _ (List.mem_cons_of_mem _ old))
  · intro alive number other present
    have counted := valid.once alive number other present
    simpa [Shared.tickets, waits, List.countP_append, List.countP_cons, Caller.releases,
      HandleOp.releases] using counted

theorem valid_fetches (valid : shared.Valid vfs) {handle : Nat} {key : Text} {file : RemoteFile}
    {offset bufLen : Nat} {before later : List Caller} {events : List S3Event}
    (waits : shared.callers = before ++ .fetching handle key file offset bufLen :: later)
    (gets : Gets events) :
    Shared.Valid vfs
      { shared with
        callers := before ++ later
        log := shared.log ++ events.map (handle, ·) } := by
  obtain ⟨cell, pinned, found, remote⟩ := valid.known (.fetching handle key file offset bufLen)
    (by rw [waits]; simp)
  refine ⟨valid.unused, ?_, valid.listed, ?_, ?_, ?_⟩
  · intro number missing
    have other : handle ≠ number := by
      rintro rfl
      simp [found] at missing
    have quiet := valid.silent number missing
    rw [logOf_eq] at quiet ⊢
    simp only [eventsOf_append, eventsOf_tagged, quiet, if_neg other, List.append_nil]
  · intro caller member
    refine valid.known caller ?_
    rw [waits]
    rcases List.mem_append.mp member with front | back
    · exact List.mem_append_left _ front
    · exact List.mem_append_right _ (List.mem_cons_of_mem _ back)
  · intro alive number other present
    have counted := valid.once alive number other present
    simpa [Shared.tickets, waits, List.countP_append, List.countP_cons, Caller.releases] using counted
  · intro number other present
    obtain ⟨precondition, old⟩ := valid.sent number other present
    refine ⟨precondition, ?_⟩
    rw [logOf_eq] at old ⊢
    simp only [eventsOf_append, eventsOf_tagged]
    split
    · rename_i same
      subst same
      obtain rfl := Option.some.inj (present.symm.trans found)
      unfold Sent at old ⊢
      rw [remote] at old ⊢
      intro event member
      rcases List.mem_append.mp member with past | new
      · exact old event past
      · exact gets event new
    · rw [List.append_nil]
      exact old

/-- A drop runs once for every handle of the table. -/
theorem drops_eventsOf {cells : Nat → Option HandleState} {table : List Nat}
    {log : List (Nat × S3Event)} (dropped : Drops vfs cells table log) {handle : Nat}
    {cell : HandleState} (found : cells handle = some cell) :
    (table.count handle = 0 → eventsOf handle log = []) ∧
    (table.count handle = 1 →
      ∃ result, vfs.dropResolved.Runs cell (eventsOf handle log) result cell) := by
  induction table generalizing log with
  | nil =>
      obtain rfl := dropped
      exact ⟨fun _ => rfl, by simp⟩
  | cons first rest ih =>
      obtain ⟨events, later, rfl, ran, -, others⟩ := dropped
      obtain ⟨absent, present⟩ := ih others
      rw [eventsOf_append, eventsOf_tagged, List.count_cons]
      rcases eq_or_ne first handle with rfl | other
      · rw [if_pos rfl]
        refine ⟨by simp, fun once => ?_⟩
        have zero : rest.count first = 0 := by simpa using once
        obtain ⟨result, runs⟩ := ran cell found
        rw [absent zero, List.append_nil]
        exact ⟨result, runs⟩
      · rw [if_neg other]
        simpa [other] using ⟨absent, present⟩

theorem Sent.released_gone {precondition : Precondition} {cell : HandleState} {log : List S3Event}
    (released : cell.released = true) (sent : Sent vfs false precondition cell log) :
    Sent vfs true precondition cell log := by
  unfold Sent at sent ⊢
  simpa [released] using sent

theorem valid_drops (valid : shared.Valid vfs) (alive : shared.dropped = false)
    (idle : shared.callers = []) {events : List (Nat × S3Event)}
    (dropped : Drops vfs shared.cells shared.table events)
    (owned : ∀ handle, shared.cells handle = none → eventsOf handle events = []) :
    Shared.Valid vfs
      { shared with table := [], log := shared.log ++ events, dropped := true } := by
  refine ⟨valid.unused, ?_, by simp, valid.known, by simp, ?_⟩
  · intro handle missing
    have quiet := valid.silent handle missing
    rw [logOf_eq] at quiet ⊢
    simp only [eventsOf_append, quiet, owned handle missing, List.append_nil]
  · intro handle cell found
    obtain ⟨precondition, sent⟩ := valid.sent handle cell found
    refine ⟨precondition, ?_⟩
    have tickets := valid.once alive handle cell found
    obtain ⟨absent, present⟩ := drops_eventsOf dropped found
    rw [alive] at sent
    rw [logOf_eq] at sent ⊢
    simp only [eventsOf_append]
    simp only [Shared.tickets, idle, List.countP_nil, Nat.add_zero] at tickets
    cases free : cell.released with
    | true =>
        rw [free] at tickets
        rw [absent (by simpa using tickets), List.append_nil]
        exact sent.released_gone free
    | false =>
        rw [free] at tickets
        obtain ⟨result, ran⟩ := present (by simpa using tickets)
        have body := dropResolved_sent free sent
        cases result with
        | ok value => exact (body.ok ran).2
        | error error => exact (body.error ran).elim

theorem drops_owned {cells : Nat → Option HandleState} {table : List Nat}
    {log : List (Nat × S3Event)} (dropped : Drops vfs cells table log) {handle : Nat}
    (missing : cells handle = none) : eventsOf handle log = [] := by
  induction table generalizing log with
  | nil =>
      obtain rfl := dropped
      rfl
  | cons first rest ih =>
      obtain ⟨events, later, rfl, -, unused, others⟩ := dropped
      rw [eventsOf_append, eventsOf_tagged, ih others, List.append_nil]
      split
      · rename_i same
        exact unused (same ▸ missing)
      · rfl

/-- Every step of the shared handles keeps the invariant. -/
theorem Shared.Step.valid (step : Shared.Step vfs shared after) (valid : shared.Valid vfs) :
    after.Valid vfs := by
  cases step with
  | opens alive opened =>
      obtain ⟨-, components, existing, staging, -, -, staged, rfl⟩ :=
        (openHandle_wp _ _).ok opened
      exact valid_opens valid alive rfl (openStaging_sent staged)
  | resolves op alive present keeps => exact valid_resolves valid present keeps
  | removes op alive present releases => exact valid_removes valid present releases
  | runs alive waits found locked ran => exact valid_runs valid alive waits found ran
  | pins alive waits found pinned => exact valid_pins valid waits found pinned
  | fetches alive waits ran =>
      have empty : Gets [] := by simp [Gets]
      exact valid_fetches valid waits ((readRemote_gets _ _ _ _ empty).either ran)
  | drops alive idle dropped =>
      exact valid_drops valid alive idle dropped fun _ missing => drops_owned dropped missing

theorem Shared.Reaches.valid (reaches : Shared.Reaches vfs shared after)
    (valid : shared.Valid vfs) : after.Valid vfs := by
  induction reaches with
  | refl => exact valid
  | tail _ step ih => exact step.valid ih

end Steps

end TinySandbox.S3
