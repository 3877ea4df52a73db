/-
This file shows that a redirect delivers what it accepts, in order and once, or reports an error.
-/

import TinySandbox.Specification.Streams

namespace TinySandbox.Sandbox
open Library Mem

namespace RedirectLog

section Append
variable (first second : RedirectLog)

@[simp] theorem accepted_append : accepted (first ++ second) = accepted first ++ accepted second :=
  List.flatMap_append

@[simp] theorem received_append : received (first ++ second) = received first ++ received second :=
  List.flatMap_append

@[simp] theorem failures_append : failures (first ++ second) = failures first ++ failures second :=
  List.filterMap_append

@[simp] theorem releases_append : releases (first ++ second) = releases first ++ releases second :=
  List.filterMap_append

@[simp] theorem finishes_append : finishes (first ++ second) = finishes first ++ finishes second :=
  List.filterMap_append

end Append

/-- Until the first release nothing fails and nothing finishes. -/
structure Calm (log : RedirectLog) : Prop where
  failures : failures log = []
  releases : releases log = []
  finishes : finishes log = []

theorem Calm.append {log later : RedirectLog} (calm : Calm log) (more : Calm later) :
    Calm (log ++ later) where
  failures := by rw [failures_append, calm.failures, more.failures, List.append_nil]
  releases := by rw [releases_append, calm.releases, more.releases, List.append_nil]
  finishes := by rw [finishes_append, calm.finishes, more.finishes, List.append_nil]

/-- The bytes behind the received ones are accepted and not written yet. -/
def Pending (log : RedirectLog) (data : Bytes) : Prop := received log ++ data = accepted log

def position (log : RedirectLog) : Nat := min (received log).length u64Max

section Silent
variable {log later : RedirectLog}

theorem position_append (silent : received later = []) : position (log ++ later) = position log := by
  unfold position
  rw [received_append, silent, List.append_nil]

theorem Pending.append {data : Bytes} (pending : Pending log data) (silent : received later = [])
    (idle : accepted later = []) : Pending (log ++ later) data := by
  unfold Pending at pending ⊢
  rw [received_append, accepted_append, silent, idle, List.append_nil, List.append_nil, pending]

end Silent

end RedirectLog

open RedirectLog

/-- The log of a redirect and the state that it leads to. -/
inductive Phase (handle : Nat) : RedirectLog → SharedRedirect → Prop
  | idle {log} (calm : Calm log) (pending : Pending log []) :
      Phase handle log ⟨⟨some handle, position log, none⟩, .free⟩
  | writing {log data} (calm : Calm log) (pending : Pending log data) (filled : data ≠ []) :
      Phase handle log ⟨⟨some handle, position log, some Errno.EIO⟩, .writing handle data⟩
  | checking {log data} (calm : Calm log) (pending : Pending log data) :
      Phase handle log ⟨⟨some handle, position log, some Errno.EIO⟩, .checking handle data⟩
  | closing {log cancelled} (calm : Calm log) (pending : Pending log []) :
      Phase handle log
        ⟨⟨none, position log, none⟩, .finishing handle cancelled cancelled⟩
  | closed {log cancelled} (pending : Pending log []) (failures : failures log = [])
      (released : releases log = [⟨handle, cancelled, cancelled, .ok ()⟩])
      (finished : ∀ result ∈ finishes log, result = .ok ()) :
      Phase handle log ⟨⟨none, position log, none⟩, .free⟩
  | unclosed {log before offset error after cancelled}
      (split : log = before ++ .failed error :: after) (calm : failures before = [])
      (released : releases before = [⟨handle, cancelled, cancelled, .error error⟩])
      (unfinished : finishes before = [])
      (quiet : ∀ event ∈ after, event.Quiet error) (once : releases after = []) :
      Phase handle log ⟨⟨none, offset, some error⟩, .free⟩
  | broken {log before offset error after} (split : log = before ++ .failed error :: after)
      (calm : Calm before) (quiet : ∀ event ∈ after, event.Quiet error)
      (unreleased : releases after = []) (unfinished : finishes after = []) :
      Phase handle log ⟨⟨some handle, offset, some error⟩, .free⟩
  | aborting {log before offset error after cancelled}
      (split : log = before ++ .failed error :: after) (calm : Calm before)
      (quiet : ∀ event ∈ after, event.Quiet error)
      (unreleased : releases after = []) (unfinished : finishes after = []) :
      Phase handle log ⟨⟨none, offset, some error⟩, .finishing handle true cancelled⟩
  | aborted {log before offset error after release}
      (split : log = before ++ .failed error :: after) (calm : Calm before)
      (quiet : ∀ event ∈ after, event.Quiet error)
      (released : releases after = [release]) (own : release.handle = handle) :
      Phase handle log ⟨⟨none, offset, some error⟩, .free⟩

theorem RedirectLog.Calm.single {event : RedirectEvent} (failure : event.failure = none)
    (release : event.release = none) (finish : event.finish = none) : Calm [event] where
  failures := List.filterMap_cons_none failure
  releases := List.filterMap_cons_none release
  finishes := List.filterMap_cons_none finish

section Quiet
variable {error : Errno} {after : RedirectLog} (quiet : ∀ event ∈ after, event.Quiet error)
include quiet

theorem quiet_append {later : RedirectLog} (more : ∀ event ∈ later, event.Quiet error) :
    ∀ event ∈ after ++ later, event.Quiet error := by
  intro event member
  rcases List.mem_append.mp member with old | new
  · exact quiet event old
  · exact more event new

theorem failures_quiet : failures after = [] := by
  apply List.filterMap_eq_nil_iff.mpr
  intro event member
  have here := quiet event member
  cases event with
  | failed other => exact here.elim
  | _ => rfl

end Quiet

namespace Phase
variable {handle : Nat} {log : RedirectLog} {file : SharedRedirect}

theorem same (phase : Phase handle log file) : Phase handle (log ++ []) file := by
  rwa [List.append_nil]

/-- A chunk is accepted when the file is open and nobody holds the lock. -/
theorem pollWrite_idle (calm : Calm log) (pending : Pending log []) (buf : Bytes) :
    Phase handle
      (log ++ (SharedRedirect.pollWrite ⟨⟨some handle, position log, none⟩, .free⟩ buf).1)
      (SharedRedirect.pollWrite ⟨⟨some handle, position log, none⟩, .free⟩ buf).2 := by
  have kept (chunk : Bytes) : Calm (log ++ [.accepted chunk]) := calm.append (.single rfl rfl rfl)
  have place (chunk : Bytes) : position (log ++ [.accepted chunk]) = position log :=
    position_append rfl
  have later (chunk : Bytes) : Pending (log ++ [.accepted chunk]) chunk := by
    unfold Pending at pending ⊢
    rw [received_append, accepted_append, ← pending, List.append_nil]
    change received log ++ [] ++ chunk = received log ++ (chunk ++ [])
    rw [List.append_nil, List.append_nil]
  unfold SharedRedirect.pollWrite
  dsimp only
  split
  · rw [← place []]
    exact .idle (kept []) (later [])
  · next filled =>
      dsimp only
      rw [← place (buf.take (min buf.length streamChunkBytes))]
      exact .writing (kept _) (later _) filled

theorem broken_of {before : RedirectLog} {error : Errno} {offset : Nat} (calm : Calm before) :
    Phase handle (before ++ [.failed error]) ⟨⟨some handle, offset, some error⟩, .free⟩ :=
  .broken rfl calm (by simp) rfl rfl

/-- A count moves the offset, and no count or a failure is the first error. -/
theorem wroteAt_writing {data : Bytes} (calm : Calm log) (pending : Pending log data)
    (result : VfsResult Nat) :
    Phase handle
      (log ++ (SharedRedirect.wroteAt
        ⟨⟨some handle, position log, some Errno.EIO⟩, .writing handle data⟩ handle data result).1)
      (SharedRedirect.wroteAt
        ⟨⟨some handle, position log, some Errno.EIO⟩, .writing handle data⟩ handle data result).2 := by
  have kept : Calm (log ++ [.wrote handle (position log) data result]) :=
    calm.append (.single rfl rfl rfl)
  unfold SharedRedirect.wroteAt
  dsimp only
  cases bounded : SharedRedirect.boundedCount data result with
  | error error =>
      dsimp only
      rw [List.append_cons]
      exact broken_of kept
  | ok count =>
      dsimp only
      split
      · rw [List.append_cons]
        exact broken_of kept
      · have receives : received (log ++ [.wrote handle (position log) data result]) =
            received log ++ data.take count := by
          rw [received_append]
          congr 1
          change RedirectEvent.receives _ ++ [] = _
          unfold RedirectEvent.receives
          dsimp only
          rw [bounded, List.append_nil]
        have fits : count ≤ data.length := by
          unfold SharedRedirect.boundedCount at bounded
          split at bounded
          · split at bounded
            · cases bounded
            · next small => rw [← Except.ok.inj bounded]; omega
          · cases bounded
        have place : position (log ++ [.wrote handle (position log) data result]) =
            min (position log + count) u64Max := by
          have length : (received (log ++ [.wrote handle (position log) data result])).length =
              (received log).length + count := by
            rw [receives, List.length_append, List.length_take, min_eq_left fits]
          unfold RedirectLog.position at length ⊢
          rw [length]
          omega
        dsimp only
        rw [← place]
        apply Phase.checking kept
        unfold Pending at pending ⊢
        rw [receives, List.append_assoc, List.take_append_drop, pending, accepted_append]
        exact (List.append_nil _).symm

theorem finish_idle (calm : Calm log) (pending : Pending log []) (cancelled : Bool) :
    Phase handle log
      ⟨⟨none, position log, none⟩, .finishing handle (false || cancelled) cancelled⟩ :=
  .closing calm pending

/-- Without an earlier error the release decides how every `finish` ends. -/
theorem released_closing {earlier : Bool} (calm : Calm log) (pending : Pending log [])
    (later : Bool) (result : VfsResult Unit) :
    Phase handle
      (log ++ (SharedRedirect.released
        ⟨⟨none, position log, none⟩, .finishing handle earlier earlier⟩ handle earlier earlier later
        result).1)
      (SharedRedirect.released
        ⟨⟨none, position log, none⟩, .finishing handle earlier earlier⟩ handle earlier earlier later
        result).2 := by
  unfold SharedRedirect.released
  cases result with
  | error error =>
      dsimp only
      rw [List.append_cons]
      apply Phase.unclosed rfl
      · rw [failures_append, calm.failures]
        rfl
      · rw [releases_append, calm.releases]
        rfl
      · rw [finishes_append, calm.finishes]
        rfl
      · intro event member
        rw [List.mem_singleton.mp member]
        rfl
      · rfl
  | ok _ =>
      have place : position (log ++ [.released ⟨handle, earlier || later, earlier || later, .ok ()⟩,
          .finished (.ok ())]) = position log := position_append rfl
      change Phase handle (log ++ [.released ⟨handle, earlier || later, earlier || later, .ok ()⟩,
        .finished (.ok ())]) ⟨⟨none, position log, none⟩, .free⟩
      rw [← place]
      apply Phase.closed (pending.append rfl rfl)
      · rw [failures_append, calm.failures]
        rfl
      · rw [releases_append, calm.releases]
        rfl
      · rw [finishes_append, calm.finishes]
        intro result member
        exact List.mem_singleton.mp member

theorem released_aborting {before after : RedirectLog} {error : Errno} {offset : Nat}
    {earlier : Bool} (calm : Calm before) (quiet : ∀ event ∈ after, event.Quiet error)
    (unreleased : releases after = []) (later : Bool) (result : VfsResult Unit) :
    Phase handle
      (before ++ .failed error :: after ++ (SharedRedirect.released
        ⟨⟨none, offset, some error⟩, .finishing handle true earlier⟩ handle true earlier later
        result).1)
      (SharedRedirect.released
        ⟨⟨none, offset, some error⟩, .finishing handle true earlier⟩ handle true earlier later
        result).2 := by
  have ended : SharedRedirect.released
      ⟨⟨none, offset, some error⟩, .finishing handle true earlier⟩ handle true earlier later result =
      ([.released ⟨handle, true, earlier || later, result⟩, .finished (.error error)],
        ⟨⟨none, offset, some error⟩, .free⟩) := by
    cases result with
    | ok _ => rfl
    | error _ => rfl
  rw [ended, List.append_assoc, List.cons_append]
  apply Phase.aborted rfl calm
  · apply quiet_append quiet
    intro event member
    rcases List.mem_cons.mp member with release | finish
    · rw [release]
      rfl
    · rw [List.mem_singleton.mp finish]
      rfl
  · rw [releases_append, unreleased]
    rfl
  · rfl

/-- A released file answers, and what it answers changes nothing. -/
theorem closed_later {cancelled : Bool} {event : RedirectEvent} (pending : Pending log [])
    (failures : failures log = [])
    (released : releases log = [⟨handle, cancelled, cancelled, .ok ()⟩])
    (finished : ∀ result ∈ finishes log, result = .ok ())
    (quiet : event.receives = [] ∧ event.accepts = [] ∧ event.failure = none ∧
      event.release = none ∧ ∀ result, event.finish = some result → result = .ok ()) :
    Phase handle (log ++ [event]) ⟨⟨none, position log, none⟩, .free⟩ := by
  obtain ⟨receives, accepts, failure, release, finish⟩ := quiet
  have silent : received [event] = [] := by
    unfold RedirectLog.received
    rw [List.flatMap_cons, receives]
    rfl
  have idle : accepted [event] = [] := by
    unfold RedirectLog.accepted
    rw [List.flatMap_cons, accepts]
    rfl
  rw [← position_append silent]
  apply Phase.closed (pending.append silent idle)
  · rw [failures_append, failures]
    exact List.filterMap_cons_none failure
  · rw [releases_append, released]
    exact congrArg (_ ++ ·) (List.filterMap_cons_none release)
  · rw [finishes_append]
    intro result member
    rcases List.mem_append.mp member with old | new
    · exact finished result old
    · obtain ⟨other, here, same⟩ := List.mem_filterMap.mp new
      rw [List.mem_singleton.mp here] at same
      exact finish result same

/-- What a broken file answers is the first error, and it releases nothing. -/
structure Answers (error : Errno) (event : RedirectEvent) : Prop where
  quiet : event.Quiet error
  release : event.release = none

theorem broken_later {before after : RedirectLog} {event : RedirectEvent} {error : Errno}
    {offset : Nat} (calm : Calm before) (quiet : ∀ event ∈ after, event.Quiet error)
    (unreleased : releases after = []) (unfinished : finishes after = [])
    (answers : Answers error event) (finish : event.finish = none) :
    Phase handle (before ++ .failed error :: after ++ [event])
      ⟨⟨some handle, offset, some error⟩, .free⟩ := by
  rw [List.append_assoc, List.cons_append]
  apply Phase.broken rfl calm
  · exact quiet_append quiet fun other member => List.mem_singleton.mp member ▸ answers.quiet
  · rw [releases_append, unreleased]
    exact List.filterMap_cons_none answers.release
  · rw [finishes_append, unfinished]
    exact List.filterMap_cons_none finish

theorem aborted_later {before after : RedirectLog} {event : RedirectEvent} {error : Errno}
    {offset : Nat} {release : Release} (calm : Calm before)
    (quiet : ∀ event ∈ after, event.Quiet error) (released : releases after = [release])
    (own : release.handle = handle) (answers : Answers error event) :
    Phase handle (before ++ .failed error :: after ++ [event])
      ⟨⟨none, offset, some error⟩, .free⟩ := by
  rw [List.append_assoc, List.cons_append]
  apply Phase.aborted rfl calm
  · exact quiet_append quiet fun other member => List.mem_singleton.mp member ▸ answers.quiet
  · rw [releases_append, released]
    exact congrArg (_ ++ ·) (List.filterMap_cons_none answers.release)
  · exact own

theorem unclosed_later {before after : RedirectLog} {event : RedirectEvent} {error : Errno}
    {offset : Nat} {cancelled : Bool} (calm : failures before = [])
    (released : releases before = [⟨handle, cancelled, cancelled, .error error⟩])
    (unfinished : finishes before = [])
    (quiet : ∀ event ∈ after, event.Quiet error) (once : releases after = [])
    (answers : Answers error event) :
    Phase handle (before ++ .failed error :: after ++ [event])
      ⟨⟨none, offset, some error⟩, .free⟩ := by
  rw [List.append_assoc, List.cons_append]
  apply Phase.unclosed rfl calm released unfinished
  · exact quiet_append quiet fun other member => List.mem_singleton.mp member ▸ answers.quiet
  · rw [releases_append, once]
    exact List.filterMap_cons_none answers.release

/-- Every action leads from one phase to one phase. -/
theorem step (phase : Phase handle log file) (action : RedirectAction) :
    Phase handle (log ++ (file.step action).1) (file.step action).2 := by
  cases phase with
  | idle calm pending =>
      cases action with
      | pollWrite buf => exact pollWrite_idle calm pending buf
      | pollFlush =>
          have place : position (log ++ [.flushed (.ok ())]) = position log := position_append rfl
          change Phase handle (log ++ [.flushed (.ok ())]) ⟨⟨some handle, position log, none⟩, .free⟩
          rw [← place]
          exact .idle (calm.append (.single rfl rfl rfl)) (pending.append rfl rfl)
      | finish cancelled => exact (finish_idle calm pending cancelled).same
      | _ => exact (Phase.idle calm pending).same
  | writing calm pending filled =>
      cases action with
      | wroteAt result => exact wroteAt_writing calm pending result
      | discardTask => exact broken_of calm
      | _ => exact (Phase.writing calm pending filled).same
  | @checking data calm pending =>
      cases action with
      | checkpoint result =>
          cases result with
          | error error => exact broken_of calm
          | ok _ =>
              change Phase handle (log ++ (if data = [] then _ else _ : _ × _).1)
                (if data = [] then _ else _ : _ × _).2
              split
              · next written =>
                  rw [written] at pending
                  exact (Phase.idle calm pending).same
              · next filled => exact (Phase.writing calm pending filled).same
      | discardTask => exact broken_of calm
      | _ => exact (Phase.checking calm pending).same
  | closing calm pending =>
      cases action with
      | released later result => exact released_closing calm pending later result
      | _ => exact (Phase.closing calm pending).same
  | closed pending failures released finished =>
      cases action with
      | pollWrite buf =>
          exact closed_later pending failures released finished ⟨rfl, rfl, rfl, rfl, nofun⟩
      | pollFlush =>
          exact closed_later pending failures released finished ⟨rfl, rfl, rfl, rfl, nofun⟩
      | finish cancelled =>
          exact closed_later pending failures released finished
            ⟨rfl, rfl, rfl, rfl, fun result same => (Option.some.inj same).symm⟩
      | _ => exact (Phase.closed pending failures released finished).same
  | unclosed split calm released unfinished quiet once =>
      rw [split]
      cases action with
      | pollWrite buf =>
          exact unclosed_later calm released unfinished quiet once ⟨rfl, rfl⟩
      | pollFlush =>
          exact unclosed_later calm released unfinished quiet once ⟨rfl, rfl⟩
      | finish cancelled =>
          exact unclosed_later calm released unfinished quiet once ⟨rfl, rfl⟩
      | _ => exact (Phase.unclosed rfl calm released unfinished quiet once).same
  | broken split calm quiet unreleased unfinished =>
      rw [split]
      cases action with
      | pollWrite buf =>
          exact broken_later calm quiet unreleased unfinished ⟨rfl, rfl⟩ rfl
      | pollFlush =>
          exact broken_later calm quiet unreleased unfinished ⟨rfl, rfl⟩ rfl
      | finish cancelled => exact (Phase.aborting rfl calm quiet unreleased unfinished).same
      | _ => exact (Phase.broken rfl calm quiet unreleased unfinished).same
  | aborting split calm quiet unreleased unfinished =>
      cases action with
      | released later result =>
          rw [split]
          exact released_aborting calm quiet unreleased later result
      | _ => exact (Phase.aborting split calm quiet unreleased unfinished).same
  | aborted split calm quiet released own =>
      rw [split]
      cases action with
      | pollWrite buf => exact aborted_later calm quiet released own ⟨rfl, rfl⟩
      | pollFlush => exact aborted_later calm quiet released own ⟨rfl, rfl⟩
      | finish cancelled => exact aborted_later calm quiet released own ⟨rfl, rfl⟩
      | _ => exact (Phase.aborted rfl calm quiet released own).same

theorem run (actions : List RedirectAction) (phase : Phase handle log file) :
    Phase handle (log ++ (file.run actions).1) (file.run actions).2 := by
  induction actions generalizing log file with
  | nil => exact phase.same
  | cons action rest ih =>
      have later := ih (phase.step action)
      rw [List.append_assoc] at later
      exact later

theorem new (handle : Nat) : Phase handle [] (SharedRedirect.new handle) :=
  .idle ⟨rfl, rfl, rfl⟩ rfl

/-- Only the task that owns the lock writes, to the handle and behind what was received. -/
theorem writing_eq {number : Nat} {data : Bytes} (phase : Phase handle log file)
    (holds : file.holder = .writing number data) :
    number = handle ∧ file.state.offset = position log := by
  cases phase with
  | writing calm pending filled => cases holds; exact ⟨rfl, rfl⟩
  | _ => cases holds

end Phase

section Writes
variable {handle : Nat}

/-- Such an event is no write of the backend. -/
def NoWrite : RedirectEvent → Prop
  | .wrote _ _ _ _ => False
  | _ => True

theorem noWrite_pollWrite (file : SharedRedirect) (buf : Bytes) :
    ∀ event ∈ (file.pollWrite buf).1, NoWrite event := by
  unfold SharedRedirect.pollWrite
  split
  · simp [NoWrite]
  · simp [NoWrite]
  · dsimp only
    split
    · simp [NoWrite]
    · simp [NoWrite]

theorem noWrite_checkpoint (file : SharedRedirect) (handle : Nat) (data : Bytes)
    (result : VfsResult Unit) : ∀ event ∈ (file.checkpoint handle data result).1, NoWrite event := by
  cases result with
  | error error => simp [SharedRedirect.checkpoint, NoWrite]
  | ok _ =>
      unfold SharedRedirect.checkpoint
      dsimp only
      split
      · simp
      · simp

theorem noWrite_released (file : SharedRedirect) (handle : Nat) (abort earlier later : Bool)
    (result : VfsResult Unit) :
    ∀ event ∈ (file.released handle abort earlier later result).1, NoWrite event := by
  unfold SharedRedirect.released
  dsimp only
  split
  · simp [NoWrite]
  · simp [NoWrite]

theorem noWrite_finish (file : SharedRedirect) (cancelled : Bool) :
    ∀ event ∈ (file.finish cancelled).1, NoWrite event := by
  unfold SharedRedirect.finish
  split
  · simp [NoWrite]
  · simp

theorem wroteAt_first (file : SharedRedirect) (number : Nat) (data : Bytes) (result : VfsResult Nat) :
    ∃ rest, (file.wroteAt number data result).1 =
      .wrote number file.state.offset data result :: rest ∧ ∀ event ∈ rest, NoWrite event := by
  unfold SharedRedirect.wroteAt
  dsimp only
  split
  · exact ⟨_, rfl, by simp [NoWrite]⟩
  · split
    · exact ⟨_, rfl, by simp [NoWrite]⟩
    · exact ⟨[], rfl, by simp⟩

/-- A step writes nothing, or the task that owns the lock makes its first event a write. -/
theorem step_writes (file : SharedRedirect) (action : RedirectAction) :
    (∀ event ∈ (file.step action).1, NoWrite event) ∨
      ∃ number data result rest, file.holder = .writing number data ∧
        (file.step action).1 = .wrote number file.state.offset data result :: rest ∧
        ∀ event ∈ rest, NoWrite event := by
  unfold SharedRedirect.step
  cases action with
  | wroteAt result =>
      cases file.holder with
      | writing number data =>
          obtain ⟨rest, first, quiet⟩ := wroteAt_first file number data result
          exact .inr ⟨number, data, result, rest, rfl, first, quiet⟩
      | _ => exact .inl (by simp)
  | pollWrite buf =>
      cases file.holder with
      | free => exact .inl (noWrite_pollWrite file buf)
      | _ => exact .inl (by simp)
  | pollFlush =>
      cases file.holder with
      | free => exact .inl (by simp [NoWrite])
      | _ => exact .inl (by simp)
  | checkpoint result =>
      cases file.holder with
      | checking number data => exact .inl (noWrite_checkpoint file number data result)
      | _ => exact .inl (by simp)
  | discardTask =>
      cases file.holder with
      | writing number data => exact .inl (by simp [NoWrite])
      | checking number data => exact .inl (by simp [NoWrite])
      | _ => exact .inl (by simp)
  | finish cancelled =>
      cases file.holder with
      | free => exact .inl (noWrite_finish file cancelled)
      | _ => exact .inl (by simp)
  | released cancelled result =>
      cases file.holder with
      | finishing number abort earlier =>
          exact .inl (noWrite_released file number abort earlier cancelled result)
      | _ => exact .inl (by simp)

theorem contiguous_append {log later : RedirectLog} (contiguous : Contiguous handle log)
    (quiet : ∀ event ∈ later, NoWrite event) : Contiguous handle (log ++ later) := by
  intro before number offset data result after split
  rcases List.append_eq_append_iff.mp split with ⟨middle, same, rest⟩ | ⟨middle, same, rest⟩
  · have here : RedirectEvent.wrote number offset data result ∈ later := by
      rw [rest]
      simp
    exact (quiet _ here).elim
  · cases middle with
    | nil =>
        rw [List.nil_append] at rest
        have here : RedirectEvent.wrote number offset data result ∈ later := by
          rw [← rest]
          exact List.mem_cons_self
        exact (quiet _ here).elim
    | cons event middle =>
        obtain ⟨rfl, rfl⟩ := List.cons.inj rest
        exact contiguous before number offset data result middle same

theorem contiguous_wrote {log : RedirectLog} {data : Bytes} {result : VfsResult Nat}
    (contiguous : Contiguous handle log) :
    Contiguous handle (log ++ [.wrote handle (position log) data result]) := by
  intro before number offset other answer after split
  rcases List.append_eq_append_iff.mp split with ⟨middle, same, rest⟩ | ⟨middle, same, rest⟩
  · cases middle with
    | nil =>
        obtain ⟨here, -⟩ := List.cons.inj rest
        obtain ⟨rfl, rfl, -, -⟩ := RedirectEvent.wrote.inj here
        rw [List.append_nil] at same
        rw [same]
        exact ⟨rfl, rfl⟩
    | cons event middle =>
        obtain ⟨-, last⟩ := List.cons.inj rest
        simp at last
  · cases middle with
    | nil =>
        obtain ⟨here, -⟩ := List.cons.inj rest
        obtain ⟨rfl, rfl, -, -⟩ := RedirectEvent.wrote.inj here
        rw [List.append_nil] at same
        rw [← same]
        exact ⟨rfl, rfl⟩
    | cons event middle =>
        obtain ⟨rfl, -⟩ := List.cons.inj rest
        exact contiguous before number offset other answer middle same

theorem contiguous_step {log : RedirectLog} {file : SharedRedirect} (contiguous : Contiguous handle log)
    (phase : Phase handle log file) (action : RedirectAction) :
    Contiguous handle (log ++ (file.step action).1) := by
  rcases step_writes file action with quiet | ⟨number, data, result, rest, holds, events, quiet⟩
  · exact contiguous_append contiguous quiet
  · obtain ⟨rfl, place⟩ := phase.writing_eq holds
    rw [events, place, List.append_cons]
    exact contiguous_append (contiguous_wrote contiguous) quiet

theorem contiguous_run {log : RedirectLog} {file : SharedRedirect} (actions : List RedirectAction)
    (contiguous : Contiguous handle log) (phase : Phase handle log file) :
    Contiguous handle (log ++ (file.run actions).1) := by
  induction actions generalizing log file with
  | nil =>
      rw [SharedRedirect.run, List.append_nil]
      exact contiguous
  | cons action rest ih =>
      have later := ih (contiguous_step contiguous phase action) (phase.step action)
      rw [List.append_assoc] at later
      exact later

end Writes

/-- A log with one failure splits at it in one way. -/
theorem failure_split {before after first last : RedirectLog} {error other : Errno}
    (calm : failures before = []) (quiet : failures after = [])
    (same : before ++ .failed error :: after = first ++ .failed other :: last) :
    first = before ∧ other = error ∧ last = after := by
  have reported {log rest tail : RedirectLog} {error : Errno}
      (split : log = rest ++ .failed error :: tail) : failures log ≠ [] := by
    rw [split, failures_append]
    exact List.append_ne_nil_of_right_ne_nil _ (List.cons_ne_nil error _)
  rcases List.append_eq_append_iff.mp same with ⟨middle, start, rest⟩ | ⟨middle, start, rest⟩
  · cases middle with
    | nil =>
        obtain ⟨here, tail⟩ := List.cons.inj rest
        exact ⟨by rw [start, List.append_nil], (RedirectEvent.failed.inj here).symm, tail.symm⟩
    | cons event middle => exact absurd quiet (reported (List.cons.inj rest).2)
  · cases middle with
    | nil =>
        obtain ⟨here, tail⟩ := List.cons.inj rest
        exact ⟨by rw [start, List.append_nil], RedirectEvent.failed.inj here, tail⟩
    | cons event middle =>
        rw [← (List.cons.inj rest).1] at start
        exact absurd calm (reported start)

/-- These are the events of a redirect whose file was just opened. -/
def SharedRedirect.log (handle : Nat) (actions : List RedirectAction) : RedirectLog :=
  ((SharedRedirect.new handle).run actions).1

/-- After the first failure nothing is accepted or written, everybody gets its error, and the
handle is aborted once by the time that a `finish` has ended, unless its release was what failed. -/
structure FailsWith (handle : Nat) (before : RedirectLog) (error : Errno) (after : RedirectLog) :
    Prop where
  first : failures before = []
  unfinished : finishes before = []
  quiet : ∀ event ∈ after, event.Quiet error
  released : (releases before = [] ∧ (finishes after = [] ∧ releases after = [] ∨
      ∃ release, releases after = [release] ∧ release.handle = handle)) ∨
    ∃ cancelled, releases before = [⟨handle, cancelled, cancelled, .error error⟩] ∧
      releases after = []

section Ends
variable {handle : Nat} {log : RedirectLog} {file : SharedRedirect}

theorem finishes_failed {before : RedirectLog} (unfinished : finishes before = []) (error : Errno)
    (after : RedirectLog) : finishes (before ++ .failed error :: after) = finishes after := by
  rw [finishes_append, unfinished]
  rfl

theorem finishes_quiet {error : Errno} {after : RedirectLog}
    (quiet : ∀ event ∈ after, event.Quiet error) :
    ∀ result ∈ finishes after, result = .error error := by
  intro result member
  obtain ⟨event, inside, same⟩ := List.mem_filterMap.mp member
  have here := quiet event inside
  cases event with
  | finished other =>
      rw [← Option.some.inj same]
      exact here
  | _ => cases same

theorem not_fine {error : Errno} {after : RedirectLog} (quiet : ∀ event ∈ after, event.Quiet error)
    (ended : finishes after ≠ []) (fine : ∀ result ∈ finishes after, result = .ok ()) : False := by
  obtain ⟨result, member⟩ := List.exists_mem_of_ne_nil _ ended
  cases (fine result member).symm.trans (finishes_quiet quiet result member)

/-- When every `finish` succeeds, everything accepted was received and the handle was released. -/
theorem Phase.delivered (phase : Phase handle log file) (ended : finishes log ≠ [])
    (fine : ∀ result ∈ finishes log, result = .ok ()) :
    received log = accepted log ∧
      ∃ cancelled, releases log = [⟨handle, cancelled, cancelled, .ok ()⟩] := by
  cases phase with
  | idle calm pending => exact absurd calm.finishes ended
  | writing calm pending filled => exact absurd calm.finishes ended
  | checking calm pending => exact absurd calm.finishes ended
  | closing calm pending => exact absurd calm.finishes ended
  | closed pending failures released finished =>
      unfold Pending at pending
      rw [List.append_nil] at pending
      exact ⟨pending, _, released⟩
  | unclosed split calm released unfinished quiet once =>
      rw [split, finishes_failed unfinished] at ended fine
      exact (not_fine quiet ended fine).elim
  | broken split calm quiet unreleased unfinished =>
      rw [split, finishes_failed calm.finishes] at ended
      exact absurd unfinished ended
  | aborting split calm quiet unreleased unfinished =>
      rw [split, finishes_failed calm.finishes] at ended
      exact absurd unfinished ended
  | aborted split calm quiet released own =>
      rw [split, finishes_failed calm.finishes] at ended fine
      exact (not_fine quiet ended fine).elim

/-- An error that a `finish` returns was the failure of a write or of the release. -/
theorem Phase.reported (phase : Phase handle log file) {error : Errno}
    (finished : .error error ∈ finishes log) : .failed error ∈ log := by
  have found {before after : RedirectLog} {other : Errno}
      (split : log = before ++ .failed other :: after) (unfinished : finishes before = [])
      (quiet : ∀ event ∈ after, event.Quiet other) : .failed error ∈ log := by
    rw [split, finishes_failed unfinished] at finished
    have same := finishes_quiet quiet _ finished
    rw [Except.error.inj same, split]
    exact List.mem_append_right _ List.mem_cons_self
  cases phase with
  | idle calm pending => rw [calm.finishes] at finished; cases finished
  | writing calm pending filled => rw [calm.finishes] at finished; cases finished
  | checking calm pending => rw [calm.finishes] at finished; cases finished
  | closing calm pending => rw [calm.finishes] at finished; cases finished
  | closed pending failures released fine => cases fine _ finished
  | unclosed split calm released unfinished quiet once => exact found split unfinished quiet
  | broken split calm quiet unreleased unfinished => exact found split calm.finishes quiet
  | aborting split calm quiet unreleased unfinished => exact found split calm.finishes quiet
  | aborted split calm quiet released own => exact found split calm.finishes quiet

theorem Phase.fails (phase : Phase handle log file) {before after : RedirectLog} {error : Errno}
    (failure : log = before ++ .failed error :: after) : FailsWith handle before error after := by
  have untold (calm : failures log = []) : FailsWith handle before error after := by
    rw [failure, failures_append] at calm
    exact absurd calm (List.append_ne_nil_of_right_ne_nil _ (List.cons_ne_nil error _))
  cases phase with
  | idle calm pending => exact untold calm.failures
  | writing calm pending filled => exact untold calm.failures
  | checking calm pending => exact untold calm.failures
  | closing calm pending => exact untold calm.failures
  | closed pending failures released fine => exact untold failures
  | unclosed split calm released unfinished quiet once =>
      obtain ⟨rfl, rfl, rfl⟩ := failure_split calm (failures_quiet quiet) (split.symm.trans failure)
      exact ⟨calm, unfinished, quiet, .inr ⟨_, released, once⟩⟩
  | broken split calm quiet unreleased unfinished =>
      obtain ⟨rfl, rfl, rfl⟩ :=
        failure_split calm.failures (failures_quiet quiet) (split.symm.trans failure)
      exact ⟨calm.failures, calm.finishes, quiet,
        .inl ⟨calm.releases, .inl ⟨unfinished, unreleased⟩⟩⟩
  | aborting split calm quiet unreleased unfinished =>
      obtain ⟨rfl, rfl, rfl⟩ :=
        failure_split calm.failures (failures_quiet quiet) (split.symm.trans failure)
      exact ⟨calm.failures, calm.finishes, quiet,
        .inl ⟨calm.releases, .inl ⟨unfinished, unreleased⟩⟩⟩
  | aborted split calm quiet released own =>
      obtain ⟨rfl, rfl, rfl⟩ :=
        failure_split calm.failures (failures_quiet quiet) (split.symm.trans failure)
      exact ⟨calm.failures, calm.finishes, quiet, .inl ⟨calm.releases, .inr ⟨_, released, own⟩⟩⟩

end Ends

/-- A redirect delivers everything in order and once, or it reports the first failure. -/
theorem delivers (handle : Nat) (actions : List RedirectAction) :
    Contiguous handle (SharedRedirect.log handle actions) ∧
    (finishes (SharedRedirect.log handle actions) ≠ [] →
      (∀ result ∈ finishes (SharedRedirect.log handle actions), result = .ok ()) →
        received (SharedRedirect.log handle actions) = accepted (SharedRedirect.log handle actions) ∧
        ∃ cancelled, releases (SharedRedirect.log handle actions) =
          [⟨handle, cancelled, cancelled, .ok ()⟩]) ∧
    (∀ error, .error error ∈ finishes (SharedRedirect.log handle actions) →
      .failed error ∈ SharedRedirect.log handle actions) ∧
    ∀ before error after, SharedRedirect.log handle actions = before ++ .failed error :: after →
      FailsWith handle before error after := by
  have phase := (Phase.new handle).run actions
  have start : Contiguous handle [] := by
    intro before number offset data result after split
    simp at split
  have contiguous := contiguous_run actions start (Phase.new handle)
  rw [List.nil_append] at phase contiguous
  exact ⟨contiguous, phase.delivered, fun _ finished => phase.reported finished,
    fun _ _ _ failure => phase.fails failure⟩

/-- A `finish` in a cancelled execution succeeds, and it has aborted the handle. -/
theorem finish_cancelled_aborts :
    finishes (SharedRedirect.log 7 [.finish true, .released false (.ok ())]) = [.ok ()] ∧
    releases (SharedRedirect.log 7 [.finish true, .released false (.ok ())]) =
      [{ handle := 7, abort := true, cancelled := true, result := .ok () }] := ⟨rfl, rfl⟩

end TinySandbox.Sandbox
