/-
This file proves when a refused pipeline stops its program.
Everything but a refusal leaves the flag and the counters alone and adds its own events.
-/

import TinySandbox.Construction.Sandbox.Exec

namespace TinySandbox.Sandbox
open Library Shell Exec

section Tasks
variable {ω α β : Type}

/-- The task added these events and refused nothing. -/
structure Advances (before after : ExecState ω) (events : List ExecEvent) : Prop where
  trace : after.trace = before.trace ++ events
  admitted : .refused ∉ events
  lastStatus : after.lastStatus = before.lastStatus
  commandCount : after.commandCount = before.commandCount
  limitHit : after.limitHit = before.limitHit

/-- A task that settles refuses nothing, and its value is good for the events it added. -/
def Settles (task : Exec ω α) (good : α → List ExecEvent → Prop) : Prop :=
  ∀ before, ∃ events, Advances before.exec (task before).2.exec events ∧ good (task before).1 events

abbrev Quiet (task : Exec ω α) : Prop := Settles task fun _ _ => True

/-- Status 125 is the one of a command that ran. -/
def Excused (status : Int) (events : List ExecEvent) : Prop :=
  status = 125 → ∃ name, .ran name ∈ events

theorem Advances.refl (exec : ExecState ω) : Advances exec exec [] :=
  ⟨(List.append_nil _).symm, List.not_mem_nil, rfl, rfl, rfl⟩

theorem Advances.trans {first second third : ExecState ω} {earlier later : List ExecEvent}
    (left : Advances first second earlier) (right : Advances second third later) :
    Advances first third (earlier ++ later) where
  trace := by rw [right.trace, left.trace, List.append_assoc]
  admitted := fun member => (List.mem_append.mp member).elim left.admitted right.admitted
  lastStatus := right.lastStatus.trans left.lastStatus
  commandCount := right.commandCount.trans left.commandCount
  limitHit := right.limitHit.trans left.limitHit

theorem Settles.bind {task : Exec ω α} {next : α → Exec ω β}
    {middle : α → List ExecEvent → Prop} {good : β → List ExecEvent → Prop}
    (settles : Settles task middle)
    (rest : ∀ value, Settles (next value) fun result later =>
      ∀ earlier, middle value earlier → good result (earlier ++ later)) :
    Settles (task >>= next) good := by
  intro before
  obtain ⟨earlier, left, reached⟩ := settles before
  obtain ⟨later, right, holds⟩ := rest (task before).1 (task before).2
  exact ⟨earlier ++ later, left.trans right, holds earlier reached⟩

theorem Settles.mono {task : Exec ω α} {good better : α → List ExecEvent → Prop}
    (settles : Settles task good) (implies : ∀ value events, good value events → better value events) :
    Settles task better := by
  intro before
  obtain ⟨events, advances, holds⟩ := settles before
  exact ⟨events, advances, implies _ _ holds⟩

theorem Quiet.bind {task : Exec ω α} {next : α → Exec ω β} (quiet : Quiet task)
    (rest : ∀ value, Quiet (next value)) : Quiet (task >>= next) :=
  Settles.bind quiet fun value => (rest value).mono fun _ _ _ _ _ => trivial

theorem settles_pure {value : α} {good : α → List ExecEvent → Prop} (holds : good value []) :
    Settles (pure value : Exec ω α) good :=
  fun before => ⟨[], .refl before.exec, holds⟩

theorem quiet_pure (value : α) : Quiet (pure value : Exec ω α) := settles_pure trivial

theorem quiet_ask (operation : ω → α × ω) : Quiet (ask operation) :=
  fun _ => ⟨[], ⟨(List.append_nil _).symm, List.not_mem_nil, rfl, rfl, rfl⟩, trivial⟩

theorem quiet_look (question : ω → α) : Quiet (look question) :=
  fun before => ⟨[], .refl before.exec, trivial⟩

theorem quiet_tell (operation : ω → ω) : Quiet (tell operation) :=
  fun _ => ⟨[], ⟨(List.append_nil _).symm, List.not_mem_nil, rfl, rfl, rfl⟩, trivial⟩

theorem quiet_get : Quiet (get : Exec ω (Execution ω)) :=
  fun before => ⟨[], .refl before.exec, trivial⟩

theorem settles_note {event : ExecEvent} (admitted : event ≠ .refused) :
    Settles (note event : Exec ω Unit) fun _ events => events = [event] :=
  fun _ => ⟨[event],
    ⟨rfl, fun member => admitted (List.mem_singleton.mp member).symm, rfl, rfl, rfl⟩, rfl⟩

theorem quiet_note {event : ExecEvent} (admitted : event ≠ .refused) :
    Quiet (note event : Exec ω Unit) :=
  (settles_note admitted).mono fun _ _ _ => trivial

theorem quiet_recordPeak (bytes : Option Nat) :
    Quiet (recordPeakWasmMemory bytes : Exec ω Unit) := by
  intro before
  cases bytes with
  | none => exact ⟨[], .refl before.exec, trivial⟩
  | some bytes => exact ⟨[], ⟨(List.append_nil _).symm, List.not_mem_nil, rfl, rfl, rfl⟩, trivial⟩

theorem quiet_recordTiming (name : Text) (status : Int) :
    Quiet (recordTiming name status : Exec ω Unit) :=
  fun _ => ⟨[], ⟨(List.append_nil _).symm, List.not_mem_nil, rfl, rfl, rfl⟩, trivial⟩

theorem quiet_recordPipeBytes (counts : List Nat) :
    Quiet (recordPipeBytes counts : Exec ω Unit) :=
  fun _ => ⟨[], ⟨(List.append_nil _).symm, List.not_mem_nil, rfl, rfl, rfl⟩, trivial⟩

end Tasks

section Redirects
variable {ω : Type} (host : ExecHost ω)

theorem openTraced_quiet (cwd path : Text) (mode : OpenMode) :
    Quiet (openTraced host cwd path mode) :=
  (quiet_note ExecEvent.noConfusion).bind fun _ => quiet_ask _

theorem openInput_quiet (cwd path : Text) (preparing : Preparing) :
    Quiet (openInput host cwd path preparing) := by
  apply (openTraced_quiet host cwd path .readOnly).bind
  intro answer
  cases answer with
  | error error => exact quiet_pure _
  | ok handle =>
      dsimp only
      split
      · exact quiet_pure _
      · exact (quiet_ask _).bind fun closed => quiet_pure _

theorem openOutput_quiet (cwd path : Text) (fd : Nat) (op : RedirectOp) (preparing : Preparing) :
    Quiet (openOutput host cwd path fd op preparing) := by
  apply (openTraced_quiet host cwd path (outputMode op)).bind
  intro answer
  cases answer with
  | error error => exact quiet_pure _
  | ok handle => exact quiet_pure _

theorem prepareTarget_quiet (cwd : Text) (redirect : Redirect) (words : List Text)
    (preparing : Preparing) : Quiet (prepareTarget host cwd redirect words preparing) := by
  unfold prepareTarget
  split
  · exact quiet_pure _
  · exact quiet_pure _
  · split
    · exact openInput_quiet host cwd _ preparing
    all_goals first
      | exact openOutput_quiet host cwd _ _ _ preparing
      | exact quiet_pure _

theorem prepareRedirect_quiet (cwd : Text) (redirect : Redirect) (words : List Text)
    (preparing : Preparing) : Quiet (prepareRedirect host cwd redirect words preparing) := by
  apply (quiet_ask host.checkpoint).bind
  intro answer
  cases answer with
  | error error => exact quiet_pure _
  | ok _ =>
      dsimp only
      split
      · split
        · exact quiet_pure _
        · exact quiet_pure _
      · exact prepareTarget_quiet host cwd redirect words preparing

theorem prepareLoop_quiet (cwd : Text) (redirects : List (Redirect × List Text))
    (preparing : Preparing) : Quiet (prepareLoop host cwd redirects preparing) := by
  induction redirects generalizing preparing with
  | nil => exact quiet_pure _
  | cons first rest ih =>
      apply (prepareRedirect_quiet host cwd first.1 first.2 preparing).bind
      intro answer
      obtain ⟨result, preparing⟩ := answer
      cases result with
      | error error => exact quiet_pure _
      | ok _ => exact ih preparing

theorem finishUnused_quiet (redirects : PreparedRedirects) (files : List RedirectFile)
    (result : Except RedirectError Unit) : Quiet (finishUnused host redirects files result) := by
  induction files generalizing result with
  | nil => exact quiet_pure _
  | cons file rest ih =>
      unfold finishUnused
      split
      · exact (quiet_ask _).bind fun close => ih _
      · exact ih _

theorem closeStdinRedirect_quiet (redirect : Option InputRedirect) :
    Quiet (closeStdinRedirect host redirect) := by
  cases redirect with
  | none => exact quiet_pure _
  | some redirect => exact (quiet_ask _).bind fun _ => quiet_pure _

theorem prepareRedirects_quiet (cwd : Text) (simple : SimpleCommand) (targets : List (List Text)) :
    Quiet (prepareRedirects host cwd simple targets) := by
  apply (prepareLoop_quiet host cwd _ {}).bind
  intro answer
  obtain ⟨result, preparing⟩ := answer
  apply (finishUnused_quiet host preparing.redirects preparing.openedFiles result).bind
  intro finished
  cases finished with
  | error error => exact (closeStdinRedirect_quiet host _).bind fun _ => quiet_pure _
  | ok _ => exact quiet_pure _

theorem finishRedirects_quiet (files : List RedirectFile) (result : Except RedirectError Unit) :
    Quiet (finishRedirects host files result) := by
  induction files generalizing result with
  | nil => exact quiet_pure _
  | cons file rest ih => exact (quiet_ask _).bind fun close => ih _

theorem awaitSinks_quiet (name : Text) (files : List RedirectFile) :
    Quiet (awaitSinks host name files) := by
  induction files with
  | nil => exact quiet_pure _
  | cons file rest ih =>
      apply (quiet_ask (host.finish file)).bind
      intro close
      apply ih.bind
      intro later
      cases close with
      | error error => exact quiet_pure _
      | ok _ => exact quiet_pure _

theorem writeLines_quiet (lines : List Text) : Quiet (writeLines host lines) := by
  induction lines with
  | nil => exact quiet_pure _
  | cons line rest ih => exact (quiet_tell _).bind fun _ => ih

end Redirects

section Stages
variable {ω α : Type} (host : ExecHost ω)

theorem excused_of_ne {status : Int} (other : status ≠ 125) (events : List ExecEvent) :
    Excused status events :=
  fun same => absurd same other

theorem Excused.append {status : Int} {earlier : List ExecEvent} (excused : Excused status earlier)
    (later : List ExecEvent) : Excused status (earlier ++ later) := by
  intro same
  obtain ⟨name, member⟩ := excused same
  exact ⟨name, List.mem_append_left _ member⟩

theorem Excused.prepend {status : Int} {later : List ExecEvent} (excused : Excused status later)
    (earlier : List ExecEvent) : Excused status (earlier ++ later) := by
  intro same
  obtain ⟨name, member⟩ := excused same
  exact ⟨name, List.mem_append_right _ member⟩

/-- Whatever a command that ran answers is excused. -/
theorem ran_excused {rest : Exec ω α} (name : Text) (quiet : Quiet rest) (status : α → Int) :
    Settles (note (.ran name) >>= fun _ => rest) fun value events =>
      Excused (status value) events := by
  apply Settles.bind (settles_note ExecEvent.noConfusion)
  intro _
  apply quiet.mono
  intro value later _ earlier noted _
  rw [noted]
  exact ⟨name, List.mem_append_left _ (List.mem_singleton_self _)⟩

theorem runRegisteredStage_excused (stage : PreparedStage) :
    Settles (runRegisteredStage host stage) fun result events =>
      Excused result.exitCode events := by
  unfold runRegisteredStage
  split
  · apply ran_excused stage.name
    apply (quiet_ask _).bind
    intro answer
    apply (quiet_ask _).bind
    intro written
    split
    · apply (quiet_ask _).bind
      intro reported
      split
      · exact quiet_pure _
      · exact quiet_pure _
    · exact quiet_pure _
  · exact ran_excused stage.name (quiet_ask _) CommandResult.exitCode
  · apply Settles.bind (quiet_ask _)
    intro _
    exact settles_pure fun _ _ => excused_of_ne (by decide) _

theorem runStageKind_excused (stage : PreparedStage) :
    Settles (runStageKind host stage) fun result events => Excused result.exitCode events := by
  unfold runStageKind
  split
  · apply Settles.bind (quiet_ask _)
    intro _
    exact settles_pure fun _ _ => excused_of_ne (by decide) _
  · exact settles_pure (excused_of_ne (by decide) _)
  · exact runRegisteredStage_excused host stage

theorem runStageTask_excused (total index : Nat) (stage : PreparedStage) :
    Settles (runStageTask host total index stage) fun outcome events =>
      Excused outcome.exitCode events := by
  apply (runStageKind_excused host stage).bind
  intro result
  apply Settles.bind (awaitSinks_quiet host stage.name _)
  intro redirectErrors
  apply Settles.bind (quiet_look _)
  intro broken
  apply settles_pure
  intro looked _ sinks _ ran excused
  change Excused (if _ then 1 else if _ then 141 else result.exitCode) _
  split
  · exact excused_of_ne (show (1 : Int) ≠ 125 by decide) _
  · split
    · exact excused_of_ne (show (141 : Int) ≠ 125 by decide) _
    · exact excused.append _

theorem joinTask_excused (total : Nat) (task : Nat × PreparedStage) :
    Settles (joinTask host total task) fun outcome events => Excused outcome.exitCode events := by
  apply (runStageTask_excused host total task.1 task.2).bind
  intro outcome
  apply Settles.bind (quiet_look _)
  intro error
  cases error with
  | none =>
      apply settles_pure
      intro looked _ ran excused
      rw [List.append_nil]
      exact excused.append looked
  | some message => exact settles_pure fun _ _ _ _ => excused_of_ne (show (1 : Int) ≠ 125 by decide) _

/-- Every outcome that was not there before is excused. -/
theorem joinTasks_excused (total : Nat) (tasks : List (Nat × PreparedStage))
    (outcomes : List (Option StageOutcome)) :
    Settles (joinTasks host total tasks outcomes) fun joined events =>
      ∀ outcome, some outcome ∈ joined →
        some outcome ∈ outcomes ∨ Excused outcome.exitCode events := by
  induction tasks generalizing outcomes with
  | nil => exact settles_pure fun outcome member => .inl member
  | cons task rest ih =>
      apply (joinTask_excused host total task).bind
      intro ended
      apply (ih (outcomes.set ended.index (some ended))).mono
      intro joined later holds earlier excused outcome member
      cases holds outcome member with
      | inr late => exact .inr (late.prepend earlier)
      | inl known =>
          cases List.mem_or_eq_of_mem_set known with
          | inl old => exact .inl old
          | inr same =>
              obtain rfl := Option.some.inj same
              exact .inr (excused.append later)

/-- The status of a pipeline is 0 or the exit code of one of its stages. -/
theorem reportOutcomes_status (outcomes : List StageOutcome) (status : Int) :
    Settles (reportOutcomes host outcomes status) fun reported _ =>
      reported = status ∨ ∃ outcome ∈ outcomes, reported = outcome.exitCode := by
  induction outcomes generalizing status with
  | nil => exact settles_pure (.inl rfl)
  | cons outcome rest ih =>
      have later : Settles (reportOutcomes host rest outcome.exitCode) fun reported _ =>
          reported = status ∨ ∃ found ∈ outcome :: rest, reported = found.exitCode := by
        apply (ih outcome.exitCode).mono
        intro reported _ found
        right
        cases found with
        | inl same => exact ⟨outcome, List.mem_cons_self, same⟩
        | inr other =>
            obtain ⟨stage, member, same⟩ := other
            exact ⟨stage, List.mem_cons_of_mem _ member, same⟩
      apply Settles.bind (writeLines_quiet host outcome.redirectErrors)
      intro _
      apply Settles.bind (quiet_recordPeak _)
      intro _
      split
      · apply Settles.bind (quiet_recordTiming _ _)
        intro _
        exact later.mono fun _ _ found _ _ _ _ _ _ => found
      · exact later.mono fun _ _ found _ _ _ _ => found

theorem runPipelineStages_excused (stages : List PreparedStage) :
    Settles (runPipelineStages host stages) Excused := by
  unfold runPipelineStages
  split
  · exact settles_pure (excused_of_ne (by decide) _)
  · apply Settles.bind (quiet_look _)
    intro rank
    apply (joinTasks_excused host stages.length _ _).bind
    intro joined
    apply (reportOutcomes_status host _ 0).bind
    intro status
    apply Settles.bind (quiet_look _)
    intro counts
    apply Settles.bind (quiet_recordPipeBytes counts)
    intro _
    apply settles_pure
    intro recorded _ looked _ reported found joining excused ranked _
    rw [List.append_nil]
    cases found with
    | inl none => exact excused_of_ne (by rw [none]; decide) _
    | inr known =>
        obtain ⟨outcome, member, same⟩ := known
        obtain ⟨slot, held, inside⟩ := List.mem_filterMap.mp member
        obtain rfl : slot = some outcome := inside
        cases excused outcome held with
        | inl initial => exact absurd (List.eq_of_mem_replicate initial) nofun
        | inr known =>
            rw [same]
            exact (known.append _).prepend ranked

theorem prepareStage_quiet (expanded : ExpandedCommand) : Quiet (prepareStage host expanded) := by
  apply quiet_get.bind
  intro current
  apply (prepareRedirects_quiet host _ _ _).bind
  intro prepared
  cases prepared with
  | error error => exact quiet_pure _
  | ok redirects => exact quiet_pure _

end Stages

section Commands
variable {ω : Type} (host : ExecHost ω)

theorem quiet_setSession (session : Session) : Quiet (setSession session : Exec ω Unit) :=
  fun before => ⟨[], .refl before.exec, trivial⟩

theorem finishNullCommand_excused (redirects : PreparedRedirects) :
    Settles (finishNullCommand host redirects) Excused := by
  apply Settles.bind (closeStdinRedirect_quiet host _)
  intro _
  apply Settles.bind (finishRedirects_quiet host _ _)
  intro result
  cases result with
  | error error =>
      apply Settles.bind (quiet_tell _)
      intro _
      exact settles_pure fun _ _ _ _ _ _ => excused_of_ne (by decide) _
  | ok _ => exact settles_pure fun _ _ _ _ => excused_of_ne (by decide) _

theorem runShellBuiltin_excused (name : Text) (args : List Text) (env : Env)
    (redirects : PreparedRedirects) (builtin : ShellBuiltin) :
    Settles (runShellBuiltin host name args env redirects builtin) Excused := by
  apply Settles.bind quiet_get
  intro current
  refine (ran_excused name ?quiet id).mono fun _ _ excused earlier _ => excused.prepend earlier
  case quiet =>
    apply (quiet_ask _).bind
    intro answer
    apply (quiet_setSession _).bind
    intro _
    apply (closeStdinRedirect_quiet host _).bind
    intro _
    apply (quiet_ask _).bind
    intro _
    apply (quiet_ask _).bind
    intro _
    exact quiet_pure _

theorem runWords_excused (stage : PreparedStage) : Settles (runWords host stage) Excused := by
  unfold runWords
  split
  · exact runShellBuiltin_excused host _ _ _ _ _
  · apply (runRegisteredStage_excused host stage).bind
    intro result
    apply Settles.bind (quiet_recordPeak _)
    intro _
    apply settles_pure
    intro recorded _ ran excused
    rw [List.append_nil]
    exact excused.append recorded

theorem runSingleCommand_excused (expanded : ExpandedCommand) (redirects : PreparedRedirects) :
    Settles (runSingleCommand host expanded redirects) Excused := by
  apply Settles.bind quiet_get
  intro current
  apply (runWords_excused host _).bind
  intro status
  apply Settles.bind (awaitSinks_quiet host _ _)
  intro errors
  apply Settles.bind (writeLines_quiet host errors)
  intro _
  apply Settles.bind (quiet_recordTiming _ _)
  intro _
  apply settles_pure
  intro timed _ written _ awaited _ ran excused got _
  change Excused (if _ then 1 else status) _
  split
  · exact excused_of_ne (show (1 : Int) ≠ 125 by decide) _
  · exact (excused.append _).prepend got

theorem performRedirected_excused (expanded : ExpandedCommand) (cwd : Text) :
    Settles (performRedirected host expanded cwd) Excused := by
  apply Settles.bind (prepareRedirects_quiet host _ _ _)
  intro prepared
  cases prepared with
  | error error =>
      apply Settles.bind (quiet_tell _)
      intro _
      exact settles_pure fun _ _ _ _ => excused_of_ne (by decide) _
  | ok redirects =>
      dsimp only
      split
      · apply (finishNullCommand_excused host redirects).mono
        exact fun _ _ excused earlier _ => excused.prepend earlier
      · apply (runSingleCommand_excused host expanded redirects).mono
        exact fun _ _ excused earlier _ => excused.prepend earlier

theorem performSimple_excused (expanded : ExpandedCommand) :
    Settles (performSimple host expanded) Excused := by
  apply Settles.bind quiet_get
  intro current
  apply Settles.bind (quiet_setSession _)
  intro _
  apply (performRedirected_excused host expanded _).mono
  intro _ _ excused stored _ got _
  exact (excused.prepend stored).prepend got

end Commands

section Pipelines
variable {ω : Type} (host : ExecHost ω) (limits : ExecLimits)

/-- The expansion adds no event, and it keeps the number of commands. -/
theorem expandCommands_settles (commands : List Command) (left : Nat)
    (expanded : List ExpandedCommand) :
    Settles (expandCommands host commands left expanded) fun admission events =>
      events = [] ∧ ∀ all, admission = .expanded all →
        all.length = expanded.length + commands.length := by
  induction commands generalizing left expanded with
  | nil =>
      apply settles_pure
      apply And.intro rfl
      intro all same
      rw [Admission.expanded.inj same]
      rfl
  | cons command rest ih =>
      obtain ⟨simple⟩ := command
      have yielded : Settles (yieldNow host) fun _ events => events = [] :=
        fun _ => ⟨[], ⟨(List.append_nil _).symm, List.not_mem_nil, rfl, rfl, rfl⟩, rfl⟩
      have looked : Settles (isCancelled host) fun _ events => events = [] :=
        fun before => ⟨[], .refl before.exec, rfl⟩
      have got : Settles (get : Exec ω (Execution ω)) fun _ events => events = [] :=
        fun before => ⟨[], .refl before.exec, rfl⟩
      apply yielded.bind
      intro _
      apply looked.bind
      intro cancelled
      split
      · apply settles_pure
        intro first none second empty
        rw [none, empty]
        exact ⟨rfl, nofun⟩
      · apply got.bind
        intro current
        split
        · apply settles_pure
          intro first none second empty third nothing
          rw [none, empty, nothing]
          exact ⟨rfl, nofun⟩
        · next command budget found =>
            apply (ih budget (expanded ++ [command])).mono
            intro admission events holds first none second empty third nothing
            rw [none, empty, nothing, holds.1]
            apply And.intro rfl
            intro all same
            rw [holds.2 all same, List.length_append, List.length_cons, List.length_cons]
            simp only [List.length_nil]
            omega

/-- An admission adds no event, and what it admits fits in what is left of the commands. -/
theorem admitPipeline_cases (pipeline : Pipeline) (before : Execution ω) :
    Advances before.exec (admitPipeline host limits pipeline before).2.exec [] ∧
      ∀ all, (admitPipeline host limits pipeline before).1 = .expanded all →
        all.length = pipeline.commands.length ∧
          pipeline.commands.length ≤ limits.maxCommands - before.exec.commandCount := by
  have yielded : Advances before.exec (yieldNow host before).2.exec [] :=
    ⟨(List.append_nil _).symm, List.not_mem_nil, rfl, rfl, rfl⟩
  by_cases cancelled : host.isCancelled (host.yieldNow before.exec.world) = true
  · have ends : admitPipeline host limits pipeline before =
        (.cancelled, (yieldNow host before).2) := by
      change (if host.isCancelled (host.yieldNow before.exec.world) = true
        then pure Admission.cancelled else _ : Exec ω Admission) (yieldNow host before).2 = _
      rw [if_pos cancelled]
      rfl
    rw [ends]
    exact ⟨yielded, nofun⟩
  · by_cases many : limits.maxCommands - before.exec.commandCount < pipeline.commands.length
    · have ends : admitPipeline host limits pipeline before =
          (.refused commandCountMessage, (yieldNow host before).2) := by
        change (if host.isCancelled (host.yieldNow before.exec.world) = true
          then pure Admission.cancelled else _ : Exec ω Admission) (yieldNow host before).2 = _
        rw [if_neg cancelled]
        change (if limits.maxCommands - before.exec.commandCount < pipeline.commands.length
          then pure (Admission.refused commandCountMessage) else _ : Exec ω Admission)
            (yieldNow host before).2 = _
        rw [if_pos many]
        rfl
      rw [ends]
      exact ⟨yielded, nofun⟩
    · have goes : admitPipeline host limits pipeline before =
          expandCommands host pipeline.commands
            (max limits.shellInputBytes limits.hostInputBytes) [] (yieldNow host before).2 := by
        change (if host.isCancelled (host.yieldNow before.exec.world) = true
          then pure Admission.cancelled else _ : Exec ω Admission) (yieldNow host before).2 = _
        rw [if_neg cancelled]
        change (if limits.maxCommands - before.exec.commandCount < pipeline.commands.length
          then pure (Admission.refused commandCountMessage) else _ : Exec ω Admission)
            (yieldNow host before).2 = _
        rw [if_neg many]
      rw [goes]
      obtain ⟨events, advances, none, counted⟩ := expandCommands_settles host pipeline.commands
        (max limits.shellInputBytes limits.hostInputBytes) [] (yieldNow host before).2
      obtain rfl := none
      apply And.intro (yielded.trans advances)
      intro all same
      have length := counted all same
      rw [List.length_nil, Nat.zero_add] at length
      exact ⟨length, Nat.le_of_not_lt many⟩

theorem prepareStages_settles (commands : List ExpandedCommand) (stages : List PreparedStage) :
    Settles (prepareStages host commands stages) fun prepared _ =>
      ∀ all, prepared = some all → all.length = stages.length + commands.length := by
  induction commands generalizing stages with
  | nil =>
      apply settles_pure
      intro all same
      rw [Option.some.inj same]
      rfl
  | cons command rest ih =>
      apply Settles.bind (quiet_tell _)
      intro _
      apply Settles.bind (quiet_look _)
      intro cancelled
      split
      · exact settles_pure fun _ _ _ _ => nofun
      · apply Settles.bind (prepareStage_quiet host command)
        intro stage
        apply (ih (stages ++ [stage])).mono
        intro prepared _ counted _ _ _ _ _ _ all same
        rw [counted all same, List.length_append, List.length_cons, List.length_cons]
        simp only [List.length_nil]
        omega

/-- This is the state of an execution after it counted some more commands. -/
def counting (exec : ExecState ω) (count : Nat) : ExecState ω :=
  { exec with commandCount := exec.commandCount + count }

/-- What was admitted runs without another refusal, and it is counted at most once. -/
theorem runExpanded_cases (commands : List ExpandedCommand) (before : Execution ω)
    (room : commands.length ≤ limits.maxCommands - before.exec.commandCount) :
    ∃ count events, count ≤ commands.length ∧
      Advances (counting before.exec count) (runExpanded host limits commands before).2.exec events ∧
        Excused (runExpanded host limits commands before).1 events := by
  unfold runExpanded
  split
  · next expanded =>
      have fits : ¬ limits.maxCommands ≤ before.exec.commandCount := by
        simp only [List.length_cons, List.length_nil] at room
        omega
      have goes : execSingleSimple host limits expanded before =
          performSimple host expanded { before with exec := counting before.exec 1 } := by
        change (if limits.maxCommands ≤ before.exec.commandCount
          then refuse host commandCountMessage else _ : Exec ω Int) before = _
        rw [if_neg fits]
        rfl
      rw [goes]
      obtain ⟨events, advances, excused⟩ :=
        performSimple_excused host expanded { before with exec := counting before.exec 1 }
      exact ⟨1, events, Nat.le_refl _, advances, excused⟩
  · obtain ⟨prepared, advances, counted⟩ := prepareStages_settles host commands [] before
    change ∃ count events, _ ∧ Advances _
      (runPrepared host (prepareStages host commands [] before).1
        (prepareStages host commands [] before).2).2.exec events ∧
      Excused (runPrepared host (prepareStages host commands [] before).1
        (prepareStages host commands [] before).2).1 events
    cases found : (prepareStages host commands [] before).1 with
    | none =>
        exact ⟨0, prepared, Nat.zero_le _, advances,
          excused_of_ne (show (124 : Int) ≠ 125 by decide) _⟩
    | some stages =>
        obtain ⟨ran, advanced, excused⟩ := runPipelineStages_excused host stages
          { (prepareStages host commands [] before).2 with
            exec := counting (prepareStages host commands [] before).2.exec stages.length }
        have length := counted stages found
        rw [List.length_nil, Nat.zero_add] at length
        have moved : Advances (counting before.exec stages.length)
            (counting (prepareStages host commands [] before).2.exec stages.length) prepared :=
          ⟨advances.trace, advances.admitted, advances.lastStatus,
            congrArg (· + stages.length) advances.commandCount, advances.limitHit⟩
        exact ⟨stages.length, prepared ++ ran, length.le, moved.trans advanced,
          excused.prepend prepared⟩

end Pipelines

section Lists
variable {ω : Type}

/-- After a refusal nothing is opened and nothing runs, and the exit code is 125. -/
structure RefusalStops (limits : ExecLimits) (exec : ExecState ω) : Prop where
  counted : exec.commandCount ≤ limits.maxCommands
  silent : ∀ earlier later, exec.trace = earlier ++ .refused :: later →
    ∀ event ∈ later, event = .refused
  stopped : .refused ∈ exec.trace → exec.lastStatus = 125

/-- This is the state in which a list goes on after its first pipeline was refused. -/
def refusedWith (host : ExecHost ω) (message : Text) (current : Execution ω) : Execution ω :=
  { current with exec := { current.exec with
    world := host.writeStderr message current.exec.world
    limitHit := true
    trace := current.exec.trace ++ [.refused]
    lastStatus := 125 } }

/-- The first pipeline would be refused, and an alternative to it would not be. -/
def slips (host : ExecHost ω) (limits : ExecLimits) (list : AndOrList) (current : Execution ω) :
    Bool :=
  match admitPipeline host limits list.first current, list.rest with
  | (.refused message, admitted), item :: _ =>
      item.op = .or &&
        ! (admitPipeline host limits item.pipeline (refusedWith host message admitted)).1.isRefused
  | _, _ => false

/-- Some list slips in the state in which the program starts it. -/
def anySlips (host : ExecHost ω) (limits : ExecLimits) : List AndOrList → Execution ω → Bool
  | [], _ => false
  | list :: rest, current =>
      let started := (yieldNow host current).2
      let next := (execList host limits list started).2
      ! host.isCancelled started.exec.world &&
        (slips host limits list started ||
          (! next.exec.limitHit && anySlips host limits rest next))

/-- Nothing was refused so far. -/
structure Unrefused (limits : ExecLimits) (exec : ExecState ω) : Prop where
  counted : exec.commandCount ≤ limits.maxCommands
  unset : exec.limitHit = false
  admitted : .refused ∉ exec.trace

/-- The refusals are the last events. -/
structure Refused (limits : ExecLimits) (exec : ExecState ω) : Prop where
  counted : exec.commandCount ≤ limits.maxCommands
  set : exec.limitHit = true
  stopped : ∃ earlier refusals, exec.trace = earlier ++ .refused :: refusals ∧
    .refused ∉ earlier ∧ ∀ event ∈ refusals, event = .refused

/-- A part of a program reached a status, and it was not refused or it stopped there. -/
def Keeps (limits : ExecLimits) (reached : Int × Execution ω) : Prop :=
  Unrefused limits reached.2.exec ∨ Refused limits reached.2.exec ∧ reached.1 = 125

/-- Something else came after a refusal, unless a status other than 125 did. -/
structure Slipped (limits : ExecLimits) (exec : ExecState ω) (status : Int) : Prop where
  counted : exec.commandCount ≤ limits.maxCommands
  set : exec.limitHit = true
  passed : ∃ earlier later, exec.trace = earlier ++ .refused :: later ∧ Excused status later

section Pipeline
variable {limits : ExecLimits} {before : Execution ω} {pipeline : Pipeline}
  (host : ExecHost ω)

theorem execPipeline_refused {message : Text} {held : Execution ω}
    (refused : admitPipeline host limits pipeline before = (.refused message, held)) :
    execStatus host limits pipeline before = (125, refusedWith host message held) := by
  change (do
    let status ← runAdmitted host limits (admitPipeline host limits pipeline before).1
    setLastStatus status
    pure status : Exec ω Int) (admitPipeline host limits pipeline before).2 = _
  rw [refused]
  rfl

theorem execStatus_admitted (room : before.exec.commandCount ≤ limits.maxCommands)
    (admitted : (admitPipeline host limits pipeline before).1.isRefused = false) :
    ∃ events, .refused ∉ events ∧
      (execStatus host limits pipeline before).2.exec.trace = before.exec.trace ++ events ∧
      (execStatus host limits pipeline before).2.exec.limitHit = before.exec.limitHit ∧
      (execStatus host limits pipeline before).2.exec.commandCount ≤ limits.maxCommands ∧
      (execStatus host limits pipeline before).2.exec.lastStatus =
        (execStatus host limits pipeline before).1 ∧
      Excused (execStatus host limits pipeline before).1 events := by
  obtain ⟨advances, counted⟩ := admitPipeline_cases host limits pipeline before
  change ∃ events, _ ∧
    (runAdmitted host limits (admitPipeline host limits pipeline before).1
      (admitPipeline host limits pipeline before).2).2.exec.trace = _ ∧
    (runAdmitted host limits (admitPipeline host limits pipeline before).1
      (admitPipeline host limits pipeline before).2).2.exec.limitHit = _ ∧
    (runAdmitted host limits (admitPipeline host limits pipeline before).1
      (admitPipeline host limits pipeline before).2).2.exec.commandCount ≤ _ ∧ _ = _ ∧
    Excused (runAdmitted host limits (admitPipeline host limits pipeline before).1
      (admitPipeline host limits pipeline before).2).1 events
  cases found : (admitPipeline host limits pipeline before).1 with
  | cancelled =>
      exact ⟨[], List.not_mem_nil, advances.trace, advances.limitHit,
        advances.commandCount.trans_le room, rfl,
        excused_of_ne (show (124 : Int) ≠ 125 by decide) _⟩
  | refused message =>
      rw [found] at admitted
      cases admitted
  | expanded commands =>
      obtain ⟨length, fits⟩ := counted commands found
      have room' : commands.length ≤ limits.maxCommands -
          (admitPipeline host limits pipeline before).2.exec.commandCount := by
        rw [advances.commandCount, length]
        exact fits
      obtain ⟨count, events, bound, ran, excused⟩ :=
        runExpanded_cases host limits commands _ room'
      have total : (runAdmitted host limits (.expanded commands)
          (admitPipeline host limits pipeline before).2).2.exec.commandCount ≤
            limits.maxCommands := by
        have counts := ran.commandCount
        have same := advances.commandCount
        change _ = (admitPipeline host limits pipeline before).2.exec.commandCount + count at counts
        change (runExpanded host limits commands _).2.exec.commandCount ≤ _
        omega
      have trace := ran.trace
      change _ = (admitPipeline host limits pipeline before).2.exec.trace ++ events at trace
      rw [advances.trace, List.append_nil] at trace
      exact ⟨events, ran.admitted, trace, ran.limitHit.trans advances.limitHit, total, rfl, excused⟩

end Pipeline

section Items
variable {limits : ExecLimits} {before : Execution ω} {list : AndOrList} (host : ExecHost ω)

theorem refused_refusedWith (unrefused : Unrefused limits before.exec) {message : Text}
    {held : Execution ω} {pipeline : Pipeline}
    (found : admitPipeline host limits pipeline before = (.refused message, held)) :
    Refused limits (refusedWith host message held).exec := by
  have advances := (admitPipeline_cases host limits pipeline before).1
  rw [found] at advances
  constructor
  case counted => exact advances.commandCount.trans_le unrefused.counted
  case set => rfl
  case stopped =>
      refine ⟨before.exec.trace, [], ?_, unrefused.admitted, nofun⟩
      change held.exec.trace ++ [.refused] = _
      rw [advances.trace, List.append_nil]

theorem Unrefused.admits (unrefused : Unrefused limits before.exec) {pipeline : Pipeline}
    (admitted : (admitPipeline host limits pipeline before).1.isRefused = false) :
    Unrefused limits (execStatus host limits pipeline before).2.exec := by
  obtain ⟨events, clean, trace, unset, counted, -, -⟩ :=
    execStatus_admitted host unrefused.counted admitted
  constructor
  case counted => exact counted
  case unset => exact unset.trans unrefused.unset
  case admitted =>
      rw [trace]
      exact fun member => (List.mem_append.mp member).elim unrefused.admitted clean

/-- A pipeline that starts without a refusal ends without one, or it is the one refused. -/
theorem Unrefused.status (unrefused : Unrefused limits before.exec) (pipeline : Pipeline) :
    Keeps limits (execStatus host limits pipeline before) := by
  cases found : admitPipeline host limits pipeline before with
  | mk admission held =>
      cases admission with
      | refused message =>
          rw [execPipeline_refused host found]
          exact .inr ⟨refused_refusedWith host unrefused found, rfl⟩
      | cancelled => exact .inl (unrefused.admits host (by rw [found]; rfl))
      | expanded commands => exact .inl (unrefused.admits host (by rw [found]; rfl))

theorem execItems_cons (item : AndOr) (rest : List AndOr) (status : Int) :
    execItems host limits (item :: rest) status before =
      if (execItem host limits item status before).2.exec.limitHit then
        execItem host limits item status before
      else
        execItems host limits rest (execItem host limits item status before).1
          (execItem host limits item status before).2 := by
  change (if (execItem host limits item status before).2.exec.limitHit = true
    then pure _ else _ : Exec ω Int) (execItem host limits item status before).2 = _
  split
  · rfl
  · rfl

theorem Unrefused.items (unrefused : Unrefused limits before.exec) (items : List AndOr)
    (status : Int) :
    Keeps limits (execItems host limits items status before) := by
  induction items generalizing before status with
  | nil => exact .inl unrefused
  | cons item rest ih =>
      rw [execItems_cons]
      unfold execItem
      by_cases runs : shouldRun item.op status = true
      · rw [if_pos runs]
        cases unrefused.status host item.pipeline with
        | inl clean =>
            rw [clean.unset]
            exact ih clean _
        | inr refused =>
            rw [refused.1.set]
            exact .inr refused
      · rw [if_neg runs]
        change Keeps limits (if before.exec.limitHit then (status, before) else
          execItems host limits rest status before)
        rw [unrefused.unset]
        exact ih unrefused status

/-- A second refusal only adds to the refusals. -/
theorem Refused.status (refused : Refused limits before.exec) {pipeline : Pipeline}
    (again : (admitPipeline host limits pipeline before).1.isRefused = true) :
    Refused limits (execStatus host limits pipeline before).2.exec ∧
      (execStatus host limits pipeline before).1 = 125 := by
  have advances := (admitPipeline_cases host limits pipeline before).1
  cases found : admitPipeline host limits pipeline before with
  | mk admission held =>
      rw [found] at again advances
      cases admission with
      | cancelled => cases again
      | expanded commands => cases again
      | refused message =>
          rw [execPipeline_refused host found]
          obtain ⟨earlier, refusals, trace, clean, all⟩ := refused.stopped
          apply And.intro _ rfl
          constructor
          case counted => exact advances.commandCount.trans_le refused.counted
          case set => rfl
          case stopped =>
              refine ⟨earlier, refusals ++ [.refused], ?_, clean, ?_⟩
              · change held.exec.trace ++ [.refused] = _
                rw [advances.trace, List.append_nil, trace, List.append_assoc, List.cons_append]
              · intro event member
                exact (List.mem_append.mp member).elim (all event) List.mem_singleton.mp

theorem Refused.items (refused : Refused limits before.exec) (items : List AndOr)
    (kept : ∀ item rest, items = item :: rest → item.op = .or →
      (admitPipeline host limits item.pipeline before).1.isRefused = true) :
    Keeps limits (execItems host limits items 125 before) := by
  cases items with
  | nil => exact .inr ⟨refused, rfl⟩
  | cons item rest =>
      rw [execItems_cons]
      unfold execItem
      cases op : item.op with
      | and =>
          change Keeps limits (if before.exec.limitHit then (125, before) else _)
          rw [refused.set]
          exact .inr ⟨refused, rfl⟩
      | or =>
          have again := refused.status host (kept item rest rfl op)
          change Keeps limits (if (execStatus host limits item.pipeline before).2.exec.limitHit then
            execStatus host limits item.pipeline before else _)
          rw [again.1.set]
          exact .inr again

/-- An alternative that is admitted after a refusal breaks the promise. -/
theorem Refused.slipped (refused : Refused limits before.exec) {item : AndOr} (rest : List AndOr)
    (op : item.op = .or)
    (admitted : (admitPipeline host limits item.pipeline before).1.isRefused = false) :
    Slipped limits (execItems host limits (item :: rest) 125 before).2.exec
      (execItems host limits (item :: rest) 125 before).1 := by
  obtain ⟨events, clean, trace, set, counted, -, excused⟩ :=
    execStatus_admitted host refused.counted admitted
  have ends : execItems host limits (item :: rest) 125 before =
      execStatus host limits item.pipeline before := by
    rw [execItems_cons]
    unfold execItem
    rw [op]
    change (if (execStatus host limits item.pipeline before).2.exec.limitHit then
      execStatus host limits item.pipeline before else _) = _
    rw [set.trans refused.set]
    rfl
  rw [ends]
  obtain ⟨earlier, refusals, held, -, all⟩ := refused.stopped
  constructor
  case counted => exact counted
  case set => exact set.trans refused.set
  case passed =>
      refine ⟨earlier, refusals ++ events, ?_, excused.prepend refusals⟩
      rw [trace, held, List.append_assoc, List.cons_append]

theorem execAndOrList_refused {message : Text} {held : Execution ω}
    (found : admitPipeline host limits list.first before = (.refused message, held)) :
    execAndOrList host limits list before =
      execItems host limits list.rest 125 (refusedWith host message held) := by
  change execItems host limits list.rest (execStatus host limits list.first before).1
    (execStatus host limits list.first before).2 = _
  rw [execPipeline_refused host found]

/-- A list that does not slip keeps the promise. -/
theorem Unrefused.andOrList (unrefused : Unrefused limits before.exec)
    (kept : slips host limits list before = false) :
    Keeps limits (execAndOrList host limits list before) := by
  cases found : admitPipeline host limits list.first before with
  | mk admission held =>
      cases admission with
      | refused message =>
          rw [execAndOrList_refused host found]
          apply (refused_refusedWith host unrefused found).items host
          intro item rest items op
          unfold slips at kept
          rw [found, items] at kept
          simpa [op] using kept
      | cancelled =>
          have admitted : (admitPipeline host limits list.first before).1.isRefused = false := by
            rw [found]
            rfl
          exact (unrefused.admits host admitted).items host list.rest _
      | expanded commands =>
          have admitted : (admitPipeline host limits list.first before).1.isRefused = false := by
            rw [found]
            rfl
          exact (unrefused.admits host admitted).items host list.rest _

theorem Unrefused.slipped (unrefused : Unrefused limits before.exec)
    (slipped : slips host limits list before = true) :
    Slipped limits (execAndOrList host limits list before).2.exec
      (execAndOrList host limits list before).1 := by
  unfold slips at slipped
  split at slipped
  · next message held item rest found items =>
      rw [execAndOrList_refused host found, items]
      obtain ⟨op, admitted⟩ := Bool.and_eq_true_iff.mp slipped
      exact (refused_refusedWith host unrefused found).slipped host rest (of_decide_eq_true op)
        (by simpa using admitted)
  · cases slipped

end Items

section Programs
variable {limits : ExecLimits} {exec : ExecState ω}

theorem Unrefused.stops (unrefused : Unrefused limits exec) : RefusalStops limits exec where
  counted := unrefused.counted
  silent := by
    intro earlier later trace
    apply absurd _ unrefused.admitted
    rw [trace]
    exact List.mem_append_right _ List.mem_cons_self
  stopped := fun member => absurd member unrefused.admitted

theorem Refused.stops (refused : Refused limits exec) (status : exec.lastStatus = 125) :
    RefusalStops limits exec where
  counted := refused.counted
  silent := by
    intro earlier later trace event member
    obtain ⟨first, refusals, held, clean, all⟩ := refused.stopped
    rw [held] at trace
    cases List.append_eq_append_iff.mp trace with
    | inl longer =>
        obtain ⟨between, -, same⟩ := longer
        cases between with
        | nil => exact all event ((List.cons.inj same).2 ▸ member)
        | cons head rest =>
            apply all event
            rw [(List.cons.inj same).2]
            exact List.mem_append_right _ (List.mem_cons_of_mem _ member)
    | inr shorter =>
        obtain ⟨between, split, same⟩ := shorter
        cases between with
        | nil => exact all event ((List.cons.inj same).2.symm ▸ member)
        | cons head rest =>
            apply absurd _ clean
            rw [split, ← (List.cons.inj same).1]
            exact List.mem_append_right _ List.mem_cons_self
  stopped := fun _ => status

theorem Slipped.breaks {status : Int} (slipped : Slipped limits exec status)
    (last : exec.lastStatus = status) : ¬ RefusalStops limits exec := by
  intro stops
  obtain ⟨earlier, later, trace, excused⟩ := slipped.passed
  have refused : .refused ∈ exec.trace := by
    rw [trace]
    exact List.mem_append_right _ List.mem_cons_self
  obtain ⟨name, ran⟩ := excused (last.symm.trans (stops.stopped refused))
  cases stops.silent earlier later trace _ ran

variable (host : ExecHost ω)

theorem execLists_cons (list : AndOrList) (rest : List AndOrList) (before : Execution ω) :
    execLists host limits (list :: rest) before =
      let started := (yieldNow host before).2
      let next := (execList host limits list started).2
      if host.isCancelled started.exec.world then ((), started)
      else if next.exec.limitHit then ((), next)
      else execLists host limits rest next := by
  change (if host.isCancelled (yieldNow host before).2.exec.world = true then pure ()
    else _ : Exec ω Unit) (yieldNow host before).2 = _
  dsimp only
  by_cases cancelled : host.isCancelled (yieldNow host before).2.exec.world = true
  · rw [if_pos cancelled, if_pos cancelled]
    rfl
  · rw [if_neg cancelled, if_neg cancelled]
    generalize (yieldNow host before).2 = started
    change (if (execList host limits list started).2.exec.limitHit = true
      then pure () else _ : Exec ω Unit) (execList host limits list started).2 = _
    generalize (execList host limits list started).2 = next
    by_cases set : next.exec.limitHit = true
    · rw [if_pos set, if_pos set]
      rfl
    · rw [if_neg set, if_neg set]

theorem Slipped.list {list : AndOrList} {before : Execution ω}
    (slipped : Slipped limits (execAndOrList host limits list before).2.exec
      (execAndOrList host limits list before).1) :
    (execList host limits list before).2.exec.limitHit = true ∧
      ¬ RefusalStops limits (execList host limits list before).2.exec := by
  apply And.intro slipped.set
  exact Slipped.breaks ⟨slipped.counted, slipped.set, slipped.passed⟩ rfl

theorem Keeps.list {list : AndOrList} {before : Execution ω}
    (keeps : Keeps limits (execAndOrList host limits list before)) :
    Unrefused limits (execList host limits list before).2.exec ∨
      (execList host limits list before).2.exec.limitHit = true ∧
        RefusalStops limits (execList host limits list before).2.exec := by
  cases keeps with
  | inl clean => exact .inl ⟨clean.counted, clean.unset, clean.admitted⟩
  | inr refused =>
      obtain ⟨held, status⟩ := refused
      exact .inr ⟨held.set, Refused.stops ⟨held.counted, held.set, held.stopped⟩ status⟩

theorem execLists_stops_iff (lists : List AndOrList) {before : Execution ω}
    (unrefused : Unrefused limits before.exec) :
    RefusalStops limits (execLists host limits lists before).2.exec ↔
      anySlips host limits lists before = false := by
  induction lists generalizing before with
  | nil => exact iff_of_true unrefused.stops rfl
  | cons list rest ih =>
      have started : Unrefused limits (yieldNow host before).2.exec :=
        ⟨unrefused.counted, unrefused.unset, unrefused.admitted⟩
      rw [execLists_cons]
      unfold anySlips
      dsimp only
      by_cases cancelled : host.isCancelled (yieldNow host before).2.exec.world = true
      · rw [if_pos cancelled, cancelled]
        exact iff_of_true started.stops rfl
      · rw [if_neg cancelled, Bool.eq_false_of_not_eq_true cancelled]
        by_cases slipped : slips host limits list (yieldNow host before).2 = true
        · obtain ⟨set, broken⟩ := (started.slipped host slipped).list host
          rw [if_pos set, slipped]
          exact iff_of_false broken nofun
        · rw [Bool.eq_false_of_not_eq_true slipped]
          have keeps := started.andOrList host (Bool.eq_false_of_not_eq_true slipped)
          cases keeps.list host with
          | inl clean =>
              rw [clean.unset]
              exact ih clean
          | inr stopped =>
              rw [stopped.1]
              exact iff_of_true stopped.2 rfl

/-- A refusal stops the program exactly when no list of it slips: the first pipeline of a list
is not refused while an alternative to it is admitted. -/
theorem refusal_stops_iff (limits : ExecLimits) (program : Program) (session : Session)
    (world : ω) :
    RefusalStops limits (execProgram host limits program session world).exec ↔
      anySlips host limits program.lists (.start session world) = false :=
  execLists_stops_iff host program.lists ⟨Nat.zero_le _, rfl, List.not_mem_nil⟩

/-- Every command of this host succeeds, and nothing is ever cancelled. -/
def succeedingHost : ExecHost Unit where
  commands := OrderedMap.empty.insert "echo".toList .handler
  yieldNow := id
  isCancelled := fun _ => false
  writeStderr := fun _ => id
  checkpoint := fun world => (.ok (), world)
  openFile := fun _ _ _ world => (.ok 0, world)
  closeFile := fun _ world => (.ok (), world)
  finish := fun _ world => (.ok (), world)
  writeAll := fun _ _ world => (true, world)
  runBuiltin := fun _ _ session _ world => ((0, session, [], []), world)
  runHandler := fun _ world => ({ exitCode := 0 }, world)
  taskError := fun _ _ => none
  taskOrder := fun index _ => index
  pipeBroken := fun _ _ => false
  pipeBytes := fun _ _ => 0

def echoCommand : Command :=
  .simple { words := [{ segments := [.literal "echo".toList false] }] }

/-- This is `echo | echo | echo || echo`. -/
def threeOrOne : Program where
  lists := [{
    first := { commands := [echoCommand, echoCommand, echoCommand] }
    rest := [{ op := .or, pipeline := { commands := [echoCommand] } }] }]

/-- With two commands allowed the pipeline of three is refused, and the alternative runs. -/
theorem threeOrOne_goes_on :
    ¬ ∀ (limits : ExecLimits) (program : Program) (session : Session),
      RefusalStops limits (execProgram succeedingHost limits program session ()).exec := by
  intro stops
  have ended : (execProgram succeedingHost { maxCommands := 2 } threeOrOne
      { cwd := ['/'], env := OrderedMap.empty, lastStatus := 0 } ()).exec.trace =
        [.refused, .ran "echo".toList] := by
    decide +kernel
  have silent := (stops _ _ _).silent [] [.ran "echo".toList] ended
  cases silent _ (List.mem_singleton_self _)

end Programs

end Lists

end TinySandbox.Sandbox
