/-
This file shows when the awaited transfers on one descriptor cover each byte of the file once.
-/

import TinySandbox.Specification.Handles

namespace TinySandbox.Portable
open Library Library.Task Library.Cursor

variable {settings : Settings} {mode : Mode} {world after : World} {stop : Stop} {fd : Nat}

section Transfers

/-- This is what a transfer does behind its call of the `Vfs`. -/
def transferred (fd bound : Nat) (syscall : String) (value : Reply → Nat → HostValue)
    (answer : Answer) : Running HostValue :=
  (do
    let reply ← answered syscall none answer
    let count ← lift (checkedCount reply bound syscall)
    advance fd none count
    pure (value reply count) : VfsOperation HostValue).exec ()

/-- The value of a transfer acknowledges what the `Vfs` counted. -/
def Transfers (fd : Nat) (next : Answer → Running HostValue) : Prop :=
  ∃ bound syscall value, next = transferred fd bound syscall value ∧
    ∀ reply count, (value reply count).count = count

/-- A transfer that returns has moved the descriptor by its count, and one that fails has not. -/
theorem Transfers.runs {next : Answer → Running HostValue} {answer : Answer}
    (transfers : Transfers fd next) (runs : Runs settings mode (next answer) world stop after) :
    (∃ error, stop = .done (.error error) ∧ after = world) ∨
      ∃ value, stop = .done (.ok value) ∧
        world.table settings (.advance fd value.count) = some ((), after) := by
  obtain ⟨bound, syscall, value, rfl, counts⟩ := transfers
  cases answer with
  | failed code =>
      change Runs settings mode (.pure (.error _, ())) world stop after at runs
      cases runs
      exact .inl ⟨_, rfl, rfl⟩
  | wouldBlock =>
      change Runs settings mode (.pure (.error _, ())) world stop after at runs
      cases runs
      exact .inl ⟨_, rfl, rfl⟩
  | returned reply =>
      have shape : transferred fd bound syscall value (.returned reply) =
          (lift (checkedCount reply bound syscall) >>= fun count =>
            advance fd none count >>= fun _ => pure (value reply count) :
              VfsOperation HostValue).exec () := rfl
      rw [shape] at runs
      cases counted : checkedCount reply bound syscall with
      | error error =>
          rw [counted] at runs
          change Runs settings mode (.pure (.error _, ())) world stop after at runs
          cases runs
          exact .inl ⟨_, rfl, rfl⟩
      | ok count =>
          rw [counted] at runs
          change Runs settings mode (.call (.advance fd count) fun _ =>
            .pure (.ok (value reply count), ())) world stop after at runs
          cases runs with
          | table found rest =>
              cases rest
              refine .inr ⟨_, rfl, ?_⟩
              rw [counts]
              exact found

section Dispatch
variable {arguments : Arguments} {file : OpenFile}

/-- A transfer fails without a call, or it calls the `Vfs` at the position of the descriptor. -/
def StartsAt (settings : Settings) (mode : Mode) (fd : Nat) (file : OpenFile) (world : World)
    (stop : Stop) (after : World) : Prop :=
  (∃ error, stop = .done (.error error) ∧ after = world) ∨
    ∃ call next, call.offset = file.position ∧ Transfers fd next ∧
      Runs settings mode (.call (.vfs call) next) world stop after

theorem runs_dispatchRead (descriptor : checkedInteger arguments.fd "tinysandbox" = .ok fd)
    (unplaced : checkedNullable arguments.position "tinysandbox" = .ok none)
    (opened : world.files.get fd = some file)
    (runs : Runs settings mode ((dispatchRead settings arguments).exec ()) world stop after) :
    StartsAt settings mode fd file world stop after := by
  unfold dispatchRead lookup at runs
  rw [descriptor, unplaced] at runs
  change Runs settings mode (.call (.lookup fd) _) world stop after at runs
  cases runs with
  | table found rest =>
      cases found
      rw [opened] at rest
      cases wanted : checkedInteger arguments.length "tinysandbox" with
      | error error =>
          rw [wanted] at rest
          change Runs settings mode (.pure (.error error, ())) world stop after at rest
          cases rest
          exact .inl ⟨_, rfl, rfl⟩
      | ok length =>
          rw [wanted] at rest
          refine .inr ⟨.readAt file.handle file.position
            (min (min maxHostReadBytes (readBytes settings)) length),
            transferred fd (min (min maxHostReadBytes (readBytes settings)) length) "read"
              fun reply count => .read count (encodeBase64 (reply.buffer.takeD count 0)),
            rfl, ⟨_, _, _, rfl, fun _ _ => rfl⟩, ?_⟩
          exact rest

theorem runs_dispatchWrite (descriptor : checkedInteger arguments.fd "tinysandbox" = .ok fd)
    (unplaced : checkedNullable arguments.position "tinysandbox" = .ok none)
    (opened : world.files.get fd = some file)
    (runs : Runs settings mode ((dispatchWrite settings arguments).exec ()) world stop after) :
    StartsAt settings mode fd file world stop after := by
  unfold dispatchWrite lookup at runs
  rw [descriptor, unplaced] at runs
  change Runs settings mode (.call (.lookup fd) _) world stop after at runs
  cases runs with
  | table found rest =>
      cases found
      rw [opened] at rest
      cases decoded : decodeBase64 arguments.data settings.hostInputBytes with
      | error error =>
          rw [decoded] at rest
          change Runs settings mode (.pure (.error error, ())) world stop after at rest
          cases rest
          exact .inl ⟨_, rfl, rfl⟩
      | ok data =>
          rw [decoded] at rest
          refine .inr ⟨.writeAt file.handle file.position data,
            transferred fd data.length "write" fun _ count => .number count,
            rfl, ⟨_, _, _, rfl, fun _ _ => rfl⟩, ?_⟩
          exact rest

theorem IsTransfer.runs {op : HostOp} {fuel : Nat} (transfer : IsTransfer fd op arguments)
    (opened : world.files.get fd = some file)
    (runs : Runs settings mode ((dispatch settings arguments fuel op).exec ()) world stop after) :
    StartsAt settings mode fd file world stop after := by
  obtain ⟨kind, descriptor, unplaced⟩ := transfer
  change Runs settings mode (.call .checkpoint _) world stop after at runs
  cases runs with
  | table found rest => cases found
  | checkpoint passes rest =>
      cases passes with
      | false =>
          change Runs settings mode (.pure (.error .cancelled, ())) world stop after at rest
          cases rest
          exact .inl ⟨_, rfl, rfl⟩
      | true =>
          rcases kind with rfl | rfl
          · exact runs_dispatchRead descriptor unplaced opened rest
          · exact runs_dispatchWrite descriptor unplaced opened rest

end Dispatch

end Transfers

section Numbers

/-- A promised operation is the work of a world. -/
def World.Awaits (world : World) (call : BoundCall) (number : Nat)
    (next : Answer → Running HostValue) : Prop := .operation call number next ∈ world.works

/-- The counter of calls does not go back, and an operation that is new has a new number. -/
structure Extends (world after : World) : Prop where
  calls : world.calls ≤ after.calls
  works : ∀ call number next, after.Awaits call number next →
    world.Awaits call number next ∨ (world.calls ≤ number ∧ number < after.calls)

theorem Extends.refl (world : World) : Extends world world :=
  ⟨Nat.le_refl _, fun _ _ _ inside => .inl inside⟩

theorem Extends.trans {middle : World} (first : Extends world middle)
    (second : Extends middle after) : Extends world after := by
  refine ⟨first.calls.trans second.calls, ?_⟩
  intro call number next inside
  rcases second.works call number next inside with old | ⟨low, high⟩
  · rcases first.works call number next old with older | ⟨low, high⟩
    · exact .inl older
    · exact .inr ⟨low, Nat.lt_of_lt_of_le high second.calls⟩
  · exact .inr ⟨first.calls.trans low, high⟩

/-- Nothing is awaited that was not awaited before. -/
theorem Extends.of_works (calls : world.calls ≤ after.calls)
    (works : ∀ call number next, after.Awaits call number next → world.Awaits call number next) :
    Extends world after :=
  ⟨calls, fun call number next inside => .inl (works call number next inside)⟩

theorem extends_start (call : BoundCall) : Extends world (world.start call) :=
  .of_works (Nat.le_succ _) fun _ _ _ inside => inside

theorem extends_record (events : List VfsEvent) : Extends world (world.record events) :=
  .of_works (Nat.le_refl _) fun _ _ _ inside => inside

theorem extends_fail {events : List VfsEvent} {error : Thrown} :
    Extends world ((world.record events).fail error) :=
  .of_works (Nat.le_refl _) fun _ _ _ inside => inside

/-- Work that nobody awaits is tracked. -/
theorem extends_track {work : Work}
    (free : ∀ call number next, work ≠ .operation call number next) :
    Extends world (world.track work) := by
  refine Extends.of_works (Nat.le_refl world.calls) ?_
  intro call number next inside
  rcases List.mem_append.mp inside with old | new
  · exact old
  · exact absurd (List.mem_singleton.mp new).symm (free call number next)

theorem extends_drop {before behind : List Work} {work : Work}
    (works : world.works = before ++ work :: behind) :
    Extends world { world with works := before ++ behind } := by
  refine Extends.of_works (Nat.le_refl world.calls) ?_
  intro call number next inside
  change _ ∈ world.works
  rw [works]
  rcases List.mem_append.mp inside with early | late
  · exact List.mem_append_left _ early
  · exact List.mem_append_right _ (List.mem_cons_of_mem _ late)

theorem extends_table {request : Request} {response : request.Response}
    (found : world.table settings request = some (response, after)) : Extends world after := by
  cases request <;> cases found
  all_goals exact .of_works (Nat.le_refl _) fun _ _ _ inside => inside

theorem lateWork_free (call : BoundCall) (number : Nat) (other : BoundCall) (number' : Nat)
    (next : Answer → Running HostValue) : lateWork call number ≠ .operation other number' next := by
  cases call <;> exact fun same => by cases same

/-- An operation that suspends itself does so with a new number. -/
theorem Runs.extends {program : Running HostValue}
    (runs : Runs settings mode program world stop after) : Extends world (after.park stop) := by
  induction runs with
  | done result world => exact .refl world
  | checkpoint passes rest ih => exact ih
  | table found rest ih => exact (extends_table found).trans ih
  | direct settles rest ih => exact ((extends_start _).trans (extends_record _)).trans ih
  | later inline rest ih =>
      exact ((extends_start _).trans (extends_track (lateWork_free _ _))).trans ih
  | @suspends call next world awaitable =>
      refine ⟨Nat.le_succ _, ?_⟩
      intro other number rest inside
      rcases List.mem_append.mp inside with old | new
      · exact .inl old
      · cases List.mem_singleton.mp new
        exact .inr ⟨Nat.le_refl _, Nat.lt_succ_self _⟩

theorem Closes.extends {commit : Bool} {files : List OpenFile}
    (closes : Closes settings commit files world after) : Extends world after := by
  induction closes with
  | nil world => exact .refl world
  | returned rest ih => exact (extends_start _).trans ih
  | failed code rest ih => exact ((extends_start _).trans extends_fail).trans ih
  | later rest ih =>
      exact ((extends_start _).trans (extends_track fun _ _ _ same => by cases same)).trans ih

theorem Step.extends (step : Step settings world after) : Extends world after := by
  cases step with
  | calls mode op arguments fuel running runs => exact runs.extends
  | resumes work settles runs =>
      exact ((extends_drop work).trans (extends_record _)).trans runs.extends
  | opensNothing work settles nothing => exact (extends_drop work).trans (extends_record _)
  | discards settled work settles opened direct =>
      exact (((extends_drop work).trans (extends_record _)).trans (extends_start _)).trans
        (extends_record _)
  | discardsLater work settles opened =>
      exact (((extends_drop work).trans (extends_record _)).trans (extends_start _)).trans
        (extends_track fun _ _ _ same => by cases same)
  | closed work settles returned => exact extends_drop work
  | closeFailed code work => exact (extends_drop work).trans extends_fail
  | waited settled work outcome => exact (extends_drop work).trans (extends_record _)
  | finishes commit running => exact .of_works (Nat.le_refl _) fun _ _ _ inside => inside
  | closesAll commit expired settling settled closes =>
      exact closes.extends.trans (.of_works (Nat.le_refl _) fun _ _ _ inside => inside)
  | returns expired late closing settled =>
      exact .of_works (Nat.le_refl _) fun _ _ _ inside => inside

/-- Every operation that waits has a number below the counter. -/
def World.Numbered (world : World) : Prop :=
  ∀ call number next, world.Awaits call number next → number < world.calls

theorem World.Numbered.extends (numbered : world.Numbered) (extended : Extends world after) :
    after.Numbered := by
  intro call number next inside
  rcases extended.works call number next inside with old | ⟨-, high⟩
  · exact Nat.lt_of_lt_of_le (numbered call number next old) extended.calls
  · exact high

theorem Reaches.numbered (reaches : Reaches settings world) : world.Numbered := by
  induction reaches with
  | refl =>
      intro call number next inside
      exact absurd inside List.not_mem_nil
  | tail sofar step ih => exact ih.extends step.extends

end Numbers

section Runs
variable {start : World} {marks : List (Mark Nat)} {file : OpenFile}

/-- The descriptor has moved by the settled transfers, and the ones that wait know their offsets. -/
structure Watched (fd : Nat) (file : OpenFile) (marks : List (Mark Nat)) (world : World) :
    Prop where
  shared : Shared file.position marks
  placed : world.files.get fd = some { file with position := file.position + moved marks }
  issued : ∀ number offset, (callsOf marks).offsets number = some offset → number < world.calls
  numbered : world.Numbered
  transfers : ∀ call number next offset, world.Awaits call number next →
    (callsOf marks).offsets number = some offset → Transfers fd next

theorem Watched.nothing (opened : world.files.get fd = some file) (numbered : world.Numbered) :
    Watched fd file [] world where
  shared := .nothing
  placed := opened
  issued := fun number offset issued => by cases issued
  numbered := numbered
  transfers := fun call number next offset _ issued => by cases issued

/-- A step that keeps the entry of the descriptor keeps what is known. -/
theorem Watched.extends (watched : Watched fd file marks world) (extended : Extends world after)
    (kept : after.files.get fd = world.files.get fd) : Watched fd file marks after where
  shared := watched.shared
  placed := kept.trans watched.placed
  issued := fun number offset issued =>
    Nat.lt_of_lt_of_le (watched.issued number offset issued) extended.calls
  numbered := watched.numbered.extends extended
  transfers := by
    intro call number next offset inside issued
    rcases extended.works call number next inside with old | ⟨low, -⟩
    · exact watched.transfers call number next offset old issued
    · exact absurd (watched.issued number offset issued) (Nat.not_lt.mpr low)

/-- A transfer that acknowledges bytes moves the descriptor by their number. -/
theorem moved_by {count : Nat}
    (moved' : world.files.get fd = some { file with position := file.position + moved marks })
    (advances : world.table settings (.advance fd count) = some ((), after)) :
    after.files.get fd =
        some { file with position := file.position + moved marks + count } ∧
      after.calls = world.calls ∧ after.works = world.works ∧ after.log = world.log := by
  simp only [World.table, moved', Option.some.injEq, Prod.mk.injEq, true_and] at advances
  subst advances
  exact ⟨(OrderedMap.get_insert _ _ _ _).trans (if_pos rfl), rfl, rfl, rfl⟩

/-- The call with the next number is issued at the position of the descriptor. -/
theorem Watched.issue (watched : Watched fd file marks world) (extended : Extends world after)
    (kept : after.files.get fd = world.files.get fd) (counted : world.calls < after.calls)
    (transfers : ∀ call next, after.Awaits call world.calls next → Transfers fd next) :
    Watched fd file (marks ++ [.issue world.calls (file.position + moved marks)]) after := by
  have same := watched.extends extended kept
  have fresh : (callsOf marks).offsets world.calls = none := by
    cases found : (callsOf marks).offsets world.calls with
    | none => rfl
    | some offset => exact absurd (watched.issued _ _ found) (Nat.lt_irrefl _)
  refine ⟨watched.shared.issue fresh, ?_, ?_, same.numbered, ?_⟩
  · rw [moved_append]
    exact same.placed
  · intro number offset issued
    rw [offsets_issue] at issued
    split at issued
    · next here =>
        rw [here]
        exact counted
    · exact same.issued number offset issued
  · intro call number next offset inside issued
    rw [offsets_issue] at issued
    split at issued
    · next here =>
        subst here
        exact transfers call next inside
    · exact same.transfers call number next offset inside issued

theorem Watched.settle {number offset count : Nat} (watched : Watched fd file marks world)
    (issued : (callsOf marks).offsets number = some offset)
    (advances : world.table settings (.advance fd count) = some ((), after)) :
    Watched fd file (marks ++ [.settle number count]) after := by
  obtain ⟨there, calls, works, -⟩ := moved_by watched.placed advances
  have awaits : ∀ call number next, after.Awaits call number next →
      world.Awaits call number next := by
    intro call number next inside
    unfold World.Awaits at inside ⊢
    rw [← works]
    exact inside
  refine ⟨watched.shared.settle issued count, ?_, ?_, ?_, ?_⟩
  · have counted : moved [Mark.settle number count] = count := Nat.add_zero count
    rw [moved_append, counted, ← Nat.add_assoc]
    exact there
  · rw [offsets_settle, calls]
    exact watched.issued
  · exact watched.numbered.extends (.of_works calls.ge awaits)
  · rw [offsets_settle]
    intro call number next offset inside
    exact watched.transfers call number next offset (awaits call number next inside)

theorem offsetBetween_eq {call : BoundCall} {events : List VfsEvent}
    (logged : after.log = world.log ++ .started call :: events) :
    offsetBetween world after = call.offset := by
  unfold offsetBetween
  rw [logged, List.drop_left]
  rfl

/-- A transfer that suspends itself is issued, and one that returns at once settles too. -/
theorem Watched.calls {op : HostOp} {arguments : Arguments} {fuel : Nat}
    (watched : Watched fd file marks world) (transfer : IsTransfer fd op arguments)
    (runs : Runs settings .awaitable ((dispatch settings arguments fuel op).exec ()) world stop
      after) :
    Watched fd file (marks ++ issueMarks world after stop) (after.park stop) := by
  rcases transfer.runs watched.placed runs with
    ⟨error, rfl, rfl⟩ | ⟨call, next, placed, transfers, ran⟩
  · rw [issueMarks, List.append_nil]
    exact watched
  · change call.offset = file.position + moved marks at placed
    cases ran with
    | table found rest => cases found
    | later inline rest => cases inline
    | @direct _ _ _ _ _ answer settles rest =>
        have begun := (@extends_start world call).trans
          (extends_record (outcome call answer))
        rcases transfers.runs rest with ⟨error, rfl, rfl⟩ | ⟨value, rfl, advances⟩
        · rw [issueMarks, List.append_nil]
          exact watched.extends begun rfl
        · have opened := watched.issue begun rfl (Nat.lt_succ_self _) fun other rest inside =>
            absurd (watched.numbered other world.calls rest inside) (Nat.lt_irrefl _)
          have known := (offsets_issue marks world.calls world.calls
            (file.position + moved marks)).trans (if_pos rfl)
          obtain ⟨-, -, -, logged⟩ := moved_by opened.placed advances
          have offset : offsetBetween world after = file.position + moved marks :=
            (offsetBetween_eq (logged.trans (List.append_assoc _ _ _))).trans placed
          have settled := opened.settle known advances
          rw [List.append_assoc] at settled
          rw [issueMarks, offset]
          exact settled
    | suspends awaitable =>
        rw [issueMarks, placed]
        refine watched.issue runs.extends rfl (Nat.lt_succ_self _) ?_
        intro other rest inside
        rcases List.mem_append.mp inside with old | new
        · exact absurd (watched.numbered other world.calls rest old) (Nat.lt_irrefl _)
        · cases List.mem_singleton.mp new
          exact transfers

theorem Interleaves.watched (run : Interleaves settings fd start marks world)
    (reaches : Reaches settings start) (opened : start.files.get fd = some file) :
    Watched fd file marks world := by
  induction run with
  | nothing => exact .nothing opened reaches.numbered
  | issues op arguments fuel sofar transfer running runs ih => exact ih.calls transfer runs
  | @settles marks world call number offset next before behind answer stop after sofar work issued
      settles runs ih =>
      have waits : world.Awaits call number next := by
        unfold World.Awaits
        rw [work]
        exact List.mem_append_right _ List.mem_cons_self
      have woken :=
        ih.extends ((extends_drop work).trans (extends_record (outcome call answer))) rfl
      rcases (ih.transfers call number next offset waits issued).runs runs with
        ⟨error, rfl, rfl⟩ | ⟨value, rfl, advances⟩
      · have nothing : settleMarks number (.done (.error error)) = [] := rfl
        rw [nothing, List.append_nil]
        exact woken
      · exact woken.settle issued advances
  | other sofar step kept ih => exact ih.extends step.extends kept

/-- The awaited transfers that return on a descriptor cover each byte between its first and its last
position once, exactly when none of them waits while another one moves the descriptor. -/
theorem transfers_tile_iff (reaches : Reaches settings start)
    (opened : start.files.get fd = some file) (run : Interleaves settings fd start marks after) :
    ∃ position, after.files.get fd = some { file with position } ∧
      (Tiles file.position position (rangesOf marks) ↔ ¬ Overtaken marks) := by
  have watched := run.watched reaches opened
  exact ⟨_, watched.placed, watched.shared.tiles_iff⟩

/-- The guest awaits two writes of one byte, and both are issued before one of them settles. -/
theorem exists_two_writes : ∃ start after, Reaches {} start ∧
    start.files.get 3 = some { handle := { value := .integer 7, call := 0 }, position := 0 } ∧
      Interleaves {} 3 start [.issue 1 0, .issue 2 0, .settle 1 1, .settle 2 1] after := by
  let handle : Handle := { value := .integer 7, call := 0 }
  let mode : OpenMode := { write := true, create := true, truncate := true }
  let log : List VfsEvent := [.started (.open ['/', 'f'] mode), .opened handle]
  let opened : World := { World.new with
    files := (∅ : OrderedMap Nat OpenFile).insert 3 { handle, position := 0 }
    nextFd := 4, calls := 1, log }
  have opens : Runs {} .awaitable
      ((dispatch {} { path := .string ['/', 'f'], flags := .string ['w'] } 0 .open).exec ()) .new
      (.done (.ok (.number 3))) opened := by
    apply Runs.checkpoint true
    refine Runs.table (show World.table {} _ .isFull = some (false, _) from rfl) ?_
    refine Runs.table (show World.table {} _ .reserve = some ((), _) from rfl) ?_
    refine @Runs.direct {} .awaitable _ _ _ _ _ (.returned { value := .integer 7, call := 0 })
      (.returned _ _) ?_
    refine Runs.table (show World.table {} _ .unreserve = some ((), _) from rfl) ?_
    apply Runs.checkpoint true
    refine Runs.table (show World.table {} _ (.store handle) = some (3, _) from rfl) ?_
    exact Runs.done _ _
  have reaches : Reaches {} opened := .single (.calls .awaitable .open _ 0 rfl opens)
  let arguments : Arguments :=
    { fd := .integer 3, position := .null, data := .string ['Y', 'Q', '=', '='] }
  let write : BoundCall := .writeAt handle 0 [97]
  let next : Answer → Running HostValue := transferred 3 1 "write" fun _ count => .number count
  have transfer : IsTransfer 3 .write arguments := ⟨.inr rfl, rfl, rfl⟩
  have issues : ∀ world : World, world.files = opened.files →
      Runs {} .awaitable ((dispatch {} arguments 0 .write).exec ()) world
        (.suspended write world.calls next) (world.start write) := by
    intro world same
    apply Runs.checkpoint true
    refine Runs.table (show World.table {} world (.lookup 3) =
      some (some { handle, position := 0 }, world) from ?_) ?_
    · change some (world.files.get 3, world) = _
      rw [same]
      rfl
    · exact Runs.suspends rfl
  have settles : ∀ (world after : World) (number : Nat),
      world.table {} (.advance 3 1) = some ((), after) →
        Runs {} .awaitable (next (.returned { value := .integer 1, call := number })) world
          (.done (.ok (.number 1))) after := by
    intro world after number found
    exact Runs.table found (Runs.done _ _)
  have first := Interleaves.nothing.issues .write arguments 0 transfer rfl (issues opened rfl)
  have second := first.issues .write arguments 0 transfer rfl (issues _ rfl)
  have third := @Interleaves.settles {} 3 opened _ _ write 1 0 next [] _ _ _ _ second rfl rfl
    (.returned _ _) (settles _ _ 1 rfl)
  have fourth := @Interleaves.settles {} 3 opened _ _ write 2 0 next [] _ _ _ _ third rfl rfl
    (.returned _ _) (settles _ _ 2 rfl)
  exact ⟨_, _, reaches, rfl, fourth⟩

theorem transfers_tile_iff_two_writes : ∃ start after position, Reaches {} start ∧
    after.files.get 3 = some { handle := { value := .integer 7, call := 0 }, position } ∧
      Interleaves {} 3 start [.issue 1 0, .issue 2 0, .settle 1 1, .settle 2 1] after ∧
        (Tiles 0 position [⟨0, 1⟩, ⟨0, 1⟩] ↔
          ¬ Overtaken [.issue 1 0, .issue 2 0, .settle 1 1, .settle 2 1]) := by
  obtain ⟨start, after, reaches, opened, run⟩ := exists_two_writes
  obtain ⟨position, placed, tiles⟩ := transfers_tile_iff reaches opened run
  exact ⟨start, after, position, reaches, placed, run, tiles⟩

/-- The second of the two writes lands on the byte of the first one. -/
theorem not_transfers_tile : ¬ ∀ (settings : Settings) (fd : Nat) (start after : World)
    (file : OpenFile) (marks : List (Mark Nat)), Reaches settings start →
      start.files.get fd = some file → Interleaves settings fd start marks after →
        ∃ position, after.files.get fd = some { file with position } ∧
          Tiles file.position position (rangesOf marks) := by
  intro claimed
  obtain ⟨start, after, reaches, opened, run⟩ := exists_two_writes
  obtain ⟨position, -, tiles⟩ := claimed _ _ _ _ _ _ reaches opened run
  have disjoint := (List.pairwise_pair.mp tiles.disjoint) 0
  exact disjoint ⟨Nat.le_refl 0, Nat.zero_lt_one⟩ ⟨Nat.le_refl 0, Nat.zero_lt_one⟩

end Runs

end TinySandbox.Portable
