/-
This file shows that the redirects of a command connect its streams as the machine of descriptors.
-/

import TinySandbox.Specification.FdMachine

namespace TinySandbox.Sandbox
open Library Shell Exec

section Runs
variable {α β : Type} {world middle after : HandleWorld} {value : α} {result : β}

/-- The task gives this value and leaves this world, whatever else the execution holds. -/
def Yields (task : Exec HandleWorld α) (world : HandleWorld) (value : α) (after : HandleWorld) :
    Prop :=
  ∀ current, current.exec.world = world →
    (task current).1 = value ∧ (task current).2.exec.world = after

theorem yields_pure (value : α) : Yields (pure value) world value world :=
  fun _ same => ⟨rfl, same⟩

theorem Yields.bind {task : Exec HandleWorld α} {next : α → Exec HandleWorld β}
    (first : Yields task world value middle) (second : Yields (next value) middle result after) :
    Yields (task >>= next) world result after := by
  intro current same
  obtain ⟨given, left⟩ := first current same
  subst given
  exact second (task current).2 left

theorem yields_ask (operation : HandleWorld → α × HandleWorld) :
    Yields (ask operation) world (operation world).1 (operation world).2 := by
  rintro current rfl
  exact ⟨rfl, rfl⟩

theorem yields_note (event : ExecEvent) : Yields (note event) world () world :=
  fun _ same => ⟨rfl, same⟩

end Runs

section Logs
variable (log : List HandleEvent)

@[simp] theorem attemptsOf_append (later : List HandleEvent) :
    attemptsOf (log ++ later) = attemptsOf log ++ attemptsOf later :=
  List.filterMap_append

@[simp] theorem openedOf_append (later : List HandleEvent) :
    openedOf (log ++ later) = openedOf log ++ openedOf later :=
  List.filterMap_append

@[simp] theorem finishedOf_append (later : List HandleEvent) :
    finishedOf (log ++ later) = finishedOf log ++ finishedOf later :=
  List.filterMap_append

end Logs

/-- The description behind a destination while the redirects are prepared. -/
def describe (total index : Nat) : OutputDestination → Description
  | .capture .stdout => if index + 1 < total then .pipe index else .captured .stdout
  | .capture .stderr => .captured .stderr
  | .file target => .opened target.handle

def describeInput (index : Nat) : Option InputRedirect → Description
  | none => if index = 0 then .empty else .pipe (index - 1)
  | some redirect => .opened redirect.handle

def inputHandles (redirects : PreparedRedirects) : List Nat :=
  (redirects.stdin.map (·.handle)).toList

/-- The prepared redirects stand for the descriptors of the machine, and every handle that was
opened is finished or still in use. -/
structure Mirrors (total index : Nat) (preparing : Preparing) (world : HandleWorld)
    (machine : FdMachine) : Prop where
  steps : world.checkpoints = machine.steps
  opens : world.opens = machine.attempts.length
  attempts : attemptsOf world.log = machine.attempts
  stdin : describeInput index preparing.redirects.stdin = machine.descriptors.stdin
  stdout : describe total index preparing.redirects.stdout = machine.descriptors.stdout
  stderr : describe total index preparing.redirects.stderr = machine.descriptors.stderr
  outputs : preparing.openedFiles.map RedirectFile.handle = machine.outputs
  numbers : preparing.openedFiles.map RedirectFile.number =
    List.range preparing.openedFiles.length
  known : ∀ file ∈ outputFiles preparing.redirects, file ∈ preparing.openedFiles
  files : world.files = ∅
  fresh : ∀ handle ∈ openedOf world.log, handle < world.opens
  distinct : (openedOf world.log).Nodup
  ledger : (openedOf world.log).Perm
    (finishedOf world.log ++ (inputHandles preparing.redirects ++
      preparing.openedFiles.map RedirectFile.handle))

theorem mirrors_start (total index : Nat) :
    Mirrors total index {} {} (FdMachine.start total index) where
  steps := rfl
  opens := rfl
  attempts := rfl
  stdin := rfl
  stdout := rfl
  stderr := rfl
  outputs := rfl
  numbers := rfl
  known := nofun
  files := rfl
  fresh := nofun
  distinct := List.nodup_nil
  ledger := List.Perm.nil

section Steps
variable {total index : Nat} {preparing : Preparing} {world : HandleWorld} {machine : FdMachine}
  {answers : Answers}

theorem Mirrors.checked (mirrors : Mirrors total index preparing world machine) :
    Mirrors total index preparing { world with checkpoints := world.checkpoints + 1 }
      { machine with steps := machine.steps + 1 } :=
  { mirrors with steps := congrArg (· + 1) mirrors.steps }

/-- An open that fails is only an attempt. -/
theorem Mirrors.attempted (mirrors : Mirrors total index preparing world machine) (path : Text)
    (mode : OpenMode) :
    Mirrors total index preparing
      { world with opens := world.opens + 1, log := world.log ++ [.attempted path mode] }
      { machine with attempts := machine.attempts ++ [(path, mode)] } where
  steps := mirrors.steps
  opens := by
    rw [List.length_append, ← mirrors.opens]
    rfl
  attempts := by
    rw [attemptsOf_append, mirrors.attempts]
    rfl
  stdin := mirrors.stdin
  stdout := mirrors.stdout
  stderr := mirrors.stderr
  outputs := mirrors.outputs
  numbers := mirrors.numbers
  known := mirrors.known
  files := mirrors.files
  fresh := by
    intro handle member
    rw [openedOf_append, List.mem_append] at member
    rcases member with old | new
    · exact Nat.lt_succ_of_lt (mirrors.fresh handle old)
    · cases new
  distinct := by
    rw [openedOf_append]
    exact (List.append_nil _).symm ▸ mirrors.distinct
  ledger := by
    rw [openedOf_append, finishedOf_append]
    have none : openedOf [.attempted path mode] = [] := rfl
    have nothing : finishedOf [.attempted path mode] = [] := rfl
    rw [none, nothing, List.append_nil, List.append_nil]
    exact mirrors.ledger

/-- The world after an open that succeeds. -/
def HandleWorld.opened (world : HandleWorld) (path : Text) (mode : OpenMode) : HandleWorld :=
  { world with
    opens := world.opens + 1
    log := world.log ++ [.attempted path mode, .opened world.opens] }

section Opened
variable (world : HandleWorld) (path : Text) (mode : OpenMode)

theorem attemptsOf_opened :
    attemptsOf (world.opened path mode).log = attemptsOf world.log ++ [(path, mode)] :=
  attemptsOf_append _ _

theorem openedOf_opened :
    openedOf (world.opened path mode).log = openedOf world.log ++ [world.opens] :=
  openedOf_append _ _

theorem finishedOf_opened : finishedOf (world.opened path mode).log = finishedOf world.log := by
  rw [← List.append_nil (finishedOf world.log)]
  exact finishedOf_append _ _

end Opened

theorem Mirrors.opens_opened (mirrors : Mirrors total index preparing world machine) (path : Text)
    (mode : OpenMode) :
    (world.opened path mode).opens = (machine.attempts ++ [(path, mode)]).length := by
  rw [List.length_append, ← mirrors.opens]
  rfl

theorem Mirrors.fresh_opened (mirrors : Mirrors total index preparing world machine) (path : Text)
    (mode : OpenMode) :
    (∀ handle ∈ openedOf (world.opened path mode).log, handle < (world.opened path mode).opens) ∧
      (openedOf (world.opened path mode).log).Nodup := by
  rw [openedOf_opened]
  constructor
  · intro handle member
    rcases List.mem_append.mp member with old | new
    · exact Nat.lt_succ_of_lt (mirrors.fresh handle old)
    · rw [List.mem_singleton.mp new]
      exact Nat.lt_succ_self _
  · apply List.Nodup.append mirrors.distinct (List.nodup_singleton _)
    intro handle old new
    rw [List.mem_singleton.mp new] at old
    exact Nat.lt_irrefl _ (mirrors.fresh _ old)

/-- The files that a command writes to, after a new one is installed. -/
def Preparing.withOutput (preparing : Preparing) (path : Text) (handle fd : Nat) : Preparing :=
  let target : RedirectFile := { path, handle, number := preparing.openedFiles.length }
  let redirects := preparing.redirects
  { redirects :=
      if fd = 1 then { redirects with stdout := .file target }
      else { redirects with stderr := .file target }
    openedFiles := preparing.openedFiles ++ [target] }

theorem mem_outputFiles {redirects : PreparedRedirects} {file : RedirectFile} :
    file ∈ outputFiles redirects ↔
      redirects.stdout = .file file ∨ redirects.stderr = .file file := by
  unfold outputFiles
  rcases redirects with ⟨stdin, _ | out, _ | err⟩ <;> simp [eq_comm]

theorem Mirrors.withOutput (mirrors : Mirrors total index preparing world machine) (path : Text)
    (mode : OpenMode) {fd : Nat} (output : fd ≠ 0) :
    Mirrors total index (preparing.withOutput path world.opens fd) (world.opened path mode)
      (FdMachine.install answers
        { machine with attempts := machine.attempts ++ [(path, mode)] } fd machine.attempts.length).1 := by
  obtain ⟨fresh, distinct⟩ := mirrors.fresh_opened path mode
  have opens := mirrors.opens_opened path mode
  have attempts : attemptsOf (world.opened path mode).log = machine.attempts ++ [(path, mode)] := by
    rw [attemptsOf_opened, mirrors.attempts]
  have outputs : (preparing.withOutput path world.opens fd).openedFiles.map RedirectFile.handle =
      machine.outputs ++ [machine.attempts.length] := by
    rw [← mirrors.outputs, ← mirrors.opens]
    exact List.map_append
  have numbers : (preparing.withOutput path world.opens fd).openedFiles.map RedirectFile.number =
      List.range (preparing.withOutput path world.opens fd).openedFiles.length := by
    change (preparing.openedFiles ++ [_]).map _ = List.range (preparing.openedFiles ++ [_]).length
    rw [List.map_append, mirrors.numbers, List.length_append]
    exact List.range_succ.symm
  have input : inputHandles (preparing.withOutput path world.opens fd).redirects =
      inputHandles preparing.redirects := by
    unfold Preparing.withOutput
    dsimp only
    split_ifs <;> rfl
  have ledger : (openedOf (world.opened path mode).log).Perm
      (finishedOf (world.opened path mode).log ++
        (inputHandles (preparing.withOutput path world.opens fd).redirects ++
          (preparing.withOutput path world.opens fd).openedFiles.map RedirectFile.handle)) := by
    rw [finishedOf_opened, openedOf_opened, input, outputs, ← mirrors.outputs, ← mirrors.opens, ← List.append_assoc,
      ← List.append_assoc]
    apply List.Perm.append_right
    rw [List.append_assoc]
    exact mirrors.ledger
  have known : ∀ file ∈ outputFiles (preparing.withOutput path world.opens fd).redirects,
      file ∈ (preparing.withOutput path world.opens fd).openedFiles := by
    intro file member
    rw [mem_outputFiles] at member
    change file ∈ preparing.openedFiles ++ [_]
    rw [List.mem_append, List.mem_singleton]
    unfold Preparing.withOutput at member
    dsimp only at member
    split_ifs at member
    · rcases member with new | old
      · exact .inr (OutputDestination.file.inj new).symm
      · exact .inl (mirrors.known file (mem_outputFiles.mpr (.inr old)))
    · rcases member with old | new
      · exact .inl (mirrors.known file (mem_outputFiles.mpr (.inl old)))
      · exact .inr (OutputDestination.file.inj new).symm
  match fd, output with
  | 1, _ =>
      exact ⟨mirrors.steps, opens, attempts, mirrors.stdin, congrArg _ mirrors.opens, mirrors.stderr,
        outputs, numbers, known, mirrors.files, fresh, distinct, ledger⟩
  | fd + 2, _ =>
      exact ⟨mirrors.steps, opens, attempts, mirrors.stdin, mirrors.stdout, congrArg _ mirrors.opens,
        outputs, numbers, known, mirrors.files, fresh, distinct, ledger⟩

/-- The input that is replaced is closed at once. -/
def Preparing.withInput (preparing : Preparing) (path : Text) (handle : Nat) : Preparing :=
  { preparing with redirects := { preparing.redirects with stdin := some { path, handle } } }

def HandleWorld.closedInput (world : HandleWorld) : Option InputRedirect → HandleWorld
  | none => world
  | some redirect => { world with log := world.log ++ [.closed redirect.handle] }

theorem Mirrors.withInput (mirrors : Mirrors total index preparing world machine) (path : Text)
    (mode : OpenMode) :
    Mirrors total index (preparing.withInput path world.opens)
      ((world.opened path mode).closedInput preparing.redirects.stdin)
      (FdMachine.install answers
        { machine with attempts := machine.attempts ++ [(path, mode)] } 0 machine.attempts.length).1 := by
  obtain ⟨fresh, distinct⟩ := mirrors.fresh_opened path mode
  have opens := mirrors.opens_opened path mode
  have attempts : attemptsOf (world.opened path mode).log = machine.attempts ++ [(path, mode)] := by
    rw [attemptsOf_opened, mirrors.attempts]
  have input : inputHandles (preparing.withInput path world.opens).redirects = [world.opens] := rfl
  have ledger := mirrors.ledger
  unfold inputHandles at ledger
  cases previous : preparing.redirects.stdin with
  | none =>
      rw [previous] at ledger
      have balanced : (openedOf (world.opened path mode).log).Perm
          (finishedOf (world.opened path mode).log ++ ([world.opens] ++
            preparing.openedFiles.map RedirectFile.handle)) := by
        rw [finishedOf_opened, openedOf_opened]
        apply (ledger.append_right _).trans
        rw [List.append_assoc]
        exact List.perm_append_comm.append_left _
      exact ⟨mirrors.steps, opens, attempts, congrArg _ mirrors.opens, mirrors.stdout,
        mirrors.stderr, mirrors.outputs, mirrors.numbers, mirrors.known, mirrors.files, fresh,
        distinct, balanced⟩
  | some redirect =>
      rw [previous] at ledger
      let opened := world.opened path mode
      have attempts' : attemptsOf (opened.log ++ [.closed redirect.handle]) =
          machine.attempts ++ [(path, mode)] := by
        rw [attemptsOf_append, attempts]
        exact List.append_nil _
      have same : openedOf (opened.log ++ [.closed redirect.handle]) = openedOf opened.log := by
        rw [openedOf_append]
        exact List.append_nil _
      have balanced : (openedOf (opened.log ++ [.closed redirect.handle])).Perm
          (finishedOf (opened.log ++ [.closed redirect.handle]) ++ ([world.opens] ++
            preparing.openedFiles.map RedirectFile.handle)) := by
        rw [same, finishedOf_append, finishedOf_opened, openedOf_opened]
        apply (ledger.append_right _).trans
        rw [← List.append_assoc, List.append_assoc]
        exact List.perm_append_comm.append_left _
      exact ⟨mirrors.steps, opens, attempts', congrArg _ mirrors.opens, mirrors.stdout,
        mirrors.stderr, mirrors.outputs, mirrors.numbers, mirrors.known, mirrors.files,
        same ▸ fresh, same ▸ distinct, balanced⟩

variable {host : ExecHost HandleWorld} {cwd : Text}

theorem openFile_error {number : Nat} {error : Errno} (fails : answers.openFile number = .error error)
    (opens : world.opens = number) (path : Text) (mode : OpenMode) :
    world.openFile answers path mode = (.error error, { world with
      opens := world.opens + 1, log := world.log ++ [.attempted path mode] }) := by
  subst opens
  unfold HandleWorld.openFile
  dsimp only
  rw [fails]

theorem openFile_ok {number : Nat} {done : Unit} (succeeds : answers.openFile number = .ok done)
    (opens : world.opens = number) (path : Text) (mode : OpenMode) :
    world.openFile answers path mode = (.ok world.opens, world.opened path mode) := by
  subst opens
  unfold HandleWorld.openFile HandleWorld.opened
  dsimp only
  rw [succeeds]
  simp

/-- A step of the code and one of the machine end alike. -/
def StepMirrors (total index : Nat) (task : Exec HandleWorld (Except RedirectError Unit × Preparing))
    (world : HandleWorld) (stepped : FdMachine × Bool) : Prop :=
  ∃ result preparing after, Yields task world (result, preparing) after ∧
    Mirrors total index preparing after stepped.1 ∧ result.isOk = stepped.2

theorem openTraced_yields (path : Text) (mode : OpenMode) :
    Yields (openTraced (withAnswers host answers) cwd path mode) world
      (world.openFile answers path mode).1 (world.openFile answers path mode).2 :=
  (yields_note _).bind (yields_ask _)

theorem openOutput_mirrors (mirrors : Mirrors total index preparing world machine) (path : Text)
    {fd : Nat} (output : fd = 1 ∨ fd = 2) {op : RedirectOp} {mode : OpenMode}
    (mode_eq : outputMode op = mode) :
    StepMirrors total index (openOutput (withAnswers host answers) cwd path fd op preparing) world
      (machine.openAt answers fd path mode) := by
  subst mode_eq
  have nonzero : fd ≠ 0 := by omega
  have traced := @openTraced_yields world answers host cwd path (outputMode op)
  unfold FdMachine.openAt
  dsimp only
  cases opened : answers.openFile machine.attempts.length with
  | error error =>
      rw [openFile_error opened mirrors.opens] at traced
      refine ⟨.error (path, error), preparing, _, traced.bind (yields_pure _),
        mirrors.attempted path (outputMode op), rfl⟩
  | ok done =>
      rw [openFile_ok opened mirrors.opens] at traced
      have installed : ∀ attempted : FdMachine,
          (attempted.install answers fd machine.attempts.length).2 = true := by
        intro attempted
        rcases output with rfl | rfl <;> rfl
      refine ⟨.ok (), preparing.withOutput path world.opens fd, _, traced.bind (yields_pure _),
        mirrors.withOutput path (outputMode op) nonzero, ?_⟩
      exact (installed _).symm

theorem openInput_mirrors (mirrors : Mirrors total index preparing world machine) (path : Text) :
    StepMirrors total index (openInput (withAnswers host answers) cwd path preparing) world
      (machine.openAt answers 0 path .readOnly) := by
  have traced := @openTraced_yields world answers host cwd path .readOnly
  unfold FdMachine.openAt
  dsimp only
  cases opened : answers.openFile machine.attempts.length with
  | error error =>
      rw [openFile_error opened mirrors.opens] at traced
      exact ⟨.error (path, error), preparing, _, traced.bind (yields_pure _),
        mirrors.attempted path .readOnly, rfl⟩
  | ok done =>
      rw [openFile_ok opened mirrors.opens] at traced
      have after := @Mirrors.withInput total index preparing world machine answers mirrors path .readOnly
      have input := mirrors.stdin
      cases previous : preparing.redirects.stdin with
      | none =>
          rw [previous] at after input
          refine ⟨.ok (), preparing.withInput path world.opens, _, ?_, after, ?_⟩
          · apply traced.bind
            dsimp only
            rw [previous]
            exact yields_pure _
          · change true = _
            simp only [Except.isOk, Except.toBool, if_true, FdMachine.install]
            rw [← input, describeInput]
            split_ifs <;> rfl
      | some redirect =>
          rw [previous] at after input
          refine ⟨(answers.finish redirect.handle).mapError fun error => (redirect.path, error),
            preparing.withInput path world.opens, _, ?_, after, ?_⟩
          · apply traced.bind
            dsimp only
            rw [previous]
            exact (yields_ask _).bind (yields_pure _)
          · simp only [Except.isOk, Except.toBool, if_true, FdMachine.install]
            rw [← input, describeInput]
            dsimp only
            cases answers.finish redirect.handle <;> rfl

/-- Copies of destinations name no file that was not opened. -/
theorem Mirrors.copied (mirrors : Mirrors total index preparing world machine)
    {stdout stderr : OutputDestination}
    (out : stdout = preparing.redirects.stdout ∨ stdout = preparing.redirects.stderr)
    (err : stderr = preparing.redirects.stdout ∨ stderr = preparing.redirects.stderr) :
    Mirrors total index
      { preparing with redirects := { preparing.redirects with stdout, stderr } } world
      { machine with descriptors := { machine.descriptors with
        stdout := describe total index stdout
        stderr := describe total index stderr } } := by
  have known : ∀ file ∈ outputFiles { preparing.redirects with stdout, stderr },
      file ∈ preparing.openedFiles := by
    intro file member
    apply mirrors.known
    rw [mem_outputFiles] at member ⊢
    rcases member with rfl | rfl
    · exact out.imp Eq.symm Eq.symm
    · exact err.imp Eq.symm Eq.symm
  exact ⟨mirrors.steps, mirrors.opens, mirrors.attempts, mirrors.stdin, rfl, rfl, mirrors.outputs,
    mirrors.numbers, known, mirrors.files, mirrors.fresh, mirrors.distinct, mirrors.ledger⟩

/-- A copy of a descriptor is one of the machine, and what the machine refuses the code refuses. -/
theorem applyFd_mirrors (mirrors : Mirrors total index preparing world machine) (redirect : Redirect)
    (source : Nat) :
    (∃ error, applyFdRedirect preparing.redirects redirect source = .error error ∧
      FdMachine.dup2 machine.descriptors source (redirect.fd.getD 1) = none) ∨
    ∃ redirects descriptors, applyFdRedirect preparing.redirects redirect source = .ok redirects ∧
      FdMachine.dup2 machine.descriptors source (redirect.fd.getD 1) = some descriptors ∧
      Mirrors total index { preparing with redirects } world { machine with descriptors } := by
  unfold applyFdRedirect
  dsimp only
  generalize redirect.fd.getD 1 = fd
  by_cases valid : (fd = 1 ∨ fd = 2) ∧ (source = 1 ∨ source = 2)
  · right
    have stdout := mirrors.stdout
    have stderr := mirrors.stderr
    obtain ⟨rfl | rfl, rfl | rfl⟩ := valid
    · refine ⟨_, _, rfl, rfl, ?_⟩
      have copied := mirrors.copied (.inl rfl) (.inr rfl)
      rw [stdout, stderr] at copied
      exact copied
    · refine ⟨_, _, rfl, rfl, ?_⟩
      have copied := mirrors.copied (.inr rfl) (.inr rfl)
      rw [stderr] at copied
      exact copied
    · refine ⟨_, _, rfl, rfl, ?_⟩
      have copied := mirrors.copied (.inl rfl) (.inl rfl)
      rw [stdout] at copied
      exact copied
    · refine ⟨_, _, rfl, rfl, ?_⟩
      have copied := mirrors.copied (.inl rfl) (.inr rfl)
      rw [stdout, stderr] at copied
      exact copied
  · left
    refine ⟨_, if_pos (not_and_or.mp valid), ?_⟩
    unfold FdMachine.dup2
    rcases source with _ | _ | _ | source
    · rfl
    · rcases fd with _ | _ | _ | fd
      · rfl
      · exact absurd ⟨.inl rfl, .inl rfl⟩ valid
      · exact absurd ⟨.inr rfl, .inl rfl⟩ valid
      · rfl
    · rcases fd with _ | _ | _ | fd
      · rfl
      · exact absurd ⟨.inl rfl, .inr rfl⟩ valid
      · exact absurd ⟨.inr rfl, .inr rfl⟩ valid
      · rfl
    · rfl

theorem prepareTarget_mirrors (mirrors : Mirrors total index preparing world machine)
    (redirect : Redirect) (words : List Text) {target : Word} (word : redirect.target = .word target) :
    StepMirrors total index (prepareTarget (withAnswers host answers) cwd redirect words preparing)
      world (machine.execute answers redirect words) := by
  have refused : ∀ error, StepMirrors total index
      (pure (.error error, preparing)) world (machine, false) :=
    fun error => ⟨.error error, preparing, world, yields_pure _, mirrors, rfl⟩
  obtain ⟨fd, op, target⟩ := redirect
  obtain rfl : target = .word _ := word
  unfold prepareTarget FdMachine.execute
  match words with
  | [] => exact refused _
  | first :: second :: rest => exact refused _
  | [path] =>
      dsimp only
      -- Without a descriptor the operator chooses it, and it chooses one that fits.
      rcases op with _ | _ | _
      · rcases fd with _ | _ | _ | _ | fd
        · exact openInput_mirrors mirrors path
        · exact openInput_mirrors mirrors path
        all_goals exact refused _
      · rcases fd with _ | _ | _ | _ | fd
        · exact openOutput_mirrors mirrors path (.inl rfl) rfl
        · exact refused _
        · exact openOutput_mirrors mirrors path (.inl rfl) rfl
        · exact openOutput_mirrors mirrors path (.inr rfl) rfl
        · exact refused _
      · rcases fd with _ | _ | _ | _ | fd
        · exact openOutput_mirrors mirrors path (.inl rfl) rfl
        · exact refused _
        · exact openOutput_mirrors mirrors path (.inl rfl) rfl
        · exact openOutput_mirrors mirrors path (.inr rfl) rfl
        · exact refused _

theorem FdMachine.execute_fd {machine : FdMachine} {redirect : Redirect} {source : Nat}
    (target : redirect.target = .fd source) (words : List Text) :
    machine.execute answers redirect words =
      ((FdMachine.dup2 machine.descriptors source (redirect.fd.getD 1)).map fun descriptors =>
        ({ machine with descriptors }, true)).getD (machine, false) := by
  obtain ⟨fd, op, goal⟩ := redirect
  obtain rfl : goal = .fd source := target
  have same : machine.execute answers { fd, op, target := .fd source } words =
      machine.execute answers { fd, op, target := .fd source } [] := by
    rcases words with _ | ⟨first, _ | ⟨second, rest⟩⟩ <;> rfl
  rw [same]
  unfold FdMachine.execute
  dsimp only
  cases FdMachine.dup2 machine.descriptors source (fd.getD 1) with
  | none => rfl
  | some descriptors => rfl

/-- The step of the simulation. -/
theorem prepareRedirect_mirrors (mirrors : Mirrors total index preparing world machine)
    (redirect : Redirect) (words : List Text) :
    StepMirrors total index (prepareRedirect (withAnswers host answers) cwd redirect words preparing)
      world (machine.step answers redirect words) := by
  have asked : Yields (ask (withAnswers host answers).checkpoint) world
      (answers.checkpoint machine.steps) { world with checkpoints := world.checkpoints + 1 } := by
    rw [← mirrors.steps]
    exact yields_ask _
  have checked := mirrors.checked
  unfold FdMachine.step
  dsimp only
  cases passed : answers.checkpoint machine.steps with
  | error error =>
      rw [passed] at asked
      exact ⟨.error ("redirect".toList, error), preparing, _, asked.bind (yields_pure _), checked, rfl⟩
  | ok done =>
      have goes_on : (Except.ok done : VfsResult Unit).isOk = true := rfl
      rw [passed] at asked
      rw [if_pos goes_on]
      cases target : redirect.target with
      | word word =>
          obtain ⟨result, next, after, yields, mirrored, same⟩ :=
            @prepareTarget_mirrors total index preparing _ _ answers host cwd checked redirect words
              word target
          refine ⟨result, next, after, ?_, mirrored, same⟩
          apply asked.bind
          dsimp only
          rw [target]
          exact yields
      | fd source =>
          rw [FdMachine.execute_fd target]
          rcases applyFd_mirrors checked redirect source with
            ⟨error, refused, same⟩ | ⟨redirects, descriptors, applied, same, mirrored⟩
          · rw [same]
            refine ⟨.error error, preparing, _, ?_, checked, rfl⟩
            apply asked.bind
            dsimp only
            rw [target]
            dsimp only
            rw [refused]
            exact yields_pure _
          · rw [same]
            refine ⟨.ok (), { preparing with redirects }, _, ?_, mirrored, rfl⟩
            apply asked.bind
            dsimp only
            rw [target]
            dsimp only
            rw [applied]
            exact yields_pure _

/-- The run of the simulation, by induction on the redirects. -/
theorem prepareLoop_mirrors (mirrors : Mirrors total index preparing world machine)
    (redirects : List (Redirect × List Text)) :
    StepMirrors total index (prepareLoop (withAnswers host answers) cwd redirects preparing) world
      (machine.run answers redirects) := by
  induction redirects generalizing preparing world machine with
  | nil => exact ⟨.ok (), preparing, world, yields_pure _, mirrors, rfl⟩
  | cons first rest ih =>
      obtain ⟨redirect, words⟩ := first
      obtain ⟨result, next, middle, yields, mirrored, same⟩ :=
        @prepareRedirect_mirrors total index preparing world machine answers host cwd mirrors redirect
          words
      unfold FdMachine.run
      rcases stepped : machine.step answers redirect words with ⟨after, passed⟩
      rw [stepped] at mirrored same
      cases result with
      | error error =>
          obtain rfl : false = passed := same
          exact ⟨.error error, next, middle, yields.bind (yields_pure _), mirrored, rfl⟩
      | ok done =>
          obtain rfl : true = passed := same
          obtain ⟨result, last, world, later, held, alike⟩ := ih mirrored
          exact ⟨result, last, world, yields.bind later, held, alike⟩

end Steps

/-- The destinations of a command keep this file in use. -/
def Live (redirects : PreparedRedirects) (file : RedirectFile) : Prop :=
  redirects.stdout = .file file ∨ redirects.stderr = .file file

instance (redirects : PreparedRedirects) (file : RedirectFile) : Decidable (Live redirects file) :=
  inferInstanceAs (Decidable (_ ∨ _))

/-- The files that are finished in their order, and whether there was no error. -/
def swept (answers : Answers) (redirects : PreparedRedirects) :
    List RedirectFile → Bool → List RedirectFile × Bool
  | [], passed => ([], passed)
  | file :: rest, passed =>
      if passed = false ∨ ¬ Live redirects file then
        let (later, ended) := swept answers redirects rest
          (passed && (answers.finish file.handle).isOk)
        (file :: later, ended)
      else swept answers redirects rest passed

section Sweeps
variable {world : HandleWorld} {answers : Answers} {host : ExecHost HandleWorld}
  {redirects : PreparedRedirects}

/-- A file that was not finished gives its handle back. -/
theorem finish_fresh {file : RedirectFile} (unfinished : world.files.get file.number = none) :
    ∃ event state, (event = .closed file.handle ∨ event = .aborted file.handle) ∧
      world.finish answers file =
        ((answers.finish file.handle).mapError fun error => (file.path, error),
          { world with
            files := world.files.insert file.number state, log := world.log ++ [event] }) := by
  have state : world.stateOf file = { handle := some file.handle, offset := 0, error := none } := by
    unfold HandleWorld.stateOf
    rw [unfinished]
    rfl
  unfold HandleWorld.finish
  rw [state]
  dsimp only
  refine ⟨_, _, ?_, Prod.ext ?_ rfl⟩
  · split_ifs
    · exact .inr rfl
    · exact .inl rfl
  · cases answers.finish file.handle <;> rfl

theorem isOk_mapError {error error' α : Type} (result : Except error α) (convert : error → error') :
    (result.mapError convert).isOk = result.isOk := by
  cases result <;> rfl

/-- The loop over the opened files finishes the swept ones, each of them once. -/
theorem finishUnused_yields {files : List RedirectFile}
    (unfinished : ∀ file ∈ files, world.files.get file.number = none)
    (distinct : (files.map RedirectFile.number).Nodup) (result : Except RedirectError Unit) :
    ∃ ended after, Yields (finishUnused (withAnswers host answers) redirects files result) world
        ended after ∧
      attemptsOf after.log = attemptsOf world.log ∧ openedOf after.log = openedOf world.log ∧
      finishedOf after.log = finishedOf world.log ++
        (swept answers redirects files result.isOk).1.map RedirectFile.handle ∧
      ended.isOk = (swept answers redirects files result.isOk).2 := by
  induction files generalizing world result with
  | nil => exact ⟨result, world, yields_pure _, rfl, rfl, (List.append_nil _).symm, rfl⟩
  | cons file rest ih =>
      obtain ⟨other, distinct⟩ := List.nodup_cons.mp distinct
      unfold finishUnused swept
      by_cases unused : result.isOk = false ∨ ¬ Live redirects file
      · have skipped : result.isOk = false ∨
            (redirects.stdout ≠ .file file ∧ redirects.stderr ≠ .file file) :=
          unused.imp_right not_or.mp
        rw [if_pos skipped, if_pos unused]
        obtain ⟨event, state, finished, step⟩ :=
          @finish_fresh world answers file (unfinished file List.mem_cons_self)
        have asked := @yields_ask _ world ((withAnswers host answers).finish file)
        change Yields _ world (world.finish answers file).1 (world.finish answers file).2 at asked
        rw [step] at asked
        have later : ∀ next ∈ rest, (world.files.insert file.number state).get next.number = none := by
          intro next member
          have distinct_number : next.number ≠ file.number := by
            intro same
            exact other (same ▸ List.mem_map_of_mem member)
          rw [OrderedMap.get_insert, if_neg distinct_number]
          exact unfinished next (List.mem_cons_of_mem _ member)
        obtain ⟨ended, after, yields, attempts, opened, swept_rest, same⟩ := @ih
          { world with files := world.files.insert file.number state, log := world.log ++ [event] }
          later distinct (if result.isOk then (answers.finish file.handle).mapError
            fun error => (file.path, error) else result)
        have passed : (if result.isOk then (answers.finish file.handle).mapError
              fun error => (file.path, error) else result).isOk =
            (result.isOk && (answers.finish file.handle).isOk) := by
          cases result with
          | error error => rfl
          | ok done => exact isOk_mapError _ _
        rw [passed] at swept_rest same
        have quiet : attemptsOf [event] = [] ∧ openedOf [event] = [] ∧
            finishedOf [event] = [file.handle] := by
          rcases finished with rfl | rfl <;> exact ⟨rfl, rfl, rfl⟩
        refine ⟨ended, after, asked.bind yields, ?_, ?_, ?_, same⟩
        · rw [attempts, attemptsOf_append, quiet.1, List.append_nil]
        · rw [opened, openedOf_append, quiet.2.1, List.append_nil]
        · rw [swept_rest, finishedOf_append, quiet.2.2, List.append_assoc]
          rfl
      · have kept : ¬ (result.isOk = false ∨
            (redirects.stdout ≠ .file file ∧ redirects.stderr ≠ .file file)) :=
          fun skipped => unused (skipped.imp_right not_or.mpr)
        rw [if_neg kept, if_neg unused]
        exact ih (fun file member => unfinished file (List.mem_cons_of_mem _ member)) distinct result

theorem closeStdin_yields (input : Option InputRedirect) :
    Yields (closeStdinRedirect (withAnswers host answers) input) world () (world.closedInput input) := by
  cases input with
  | none => exact yields_pure ()
  | some redirect => exact (yields_ask _).bind (yields_pure ())

theorem closedInput_log (input : Option InputRedirect) :
    attemptsOf (world.closedInput input).log = attemptsOf world.log ∧
      openedOf (world.closedInput input).log = openedOf world.log ∧
      finishedOf (world.closedInput input).log =
        finishedOf world.log ++ (input.map (·.handle)).toList := by
  cases input with
  | none => exact ⟨rfl, rfl, (List.append_nil _).symm⟩
  | some redirect =>
      refine ⟨?_, ?_, finishedOf_append _ _⟩
      · exact (attemptsOf_append _ _).trans (List.append_nil _)
      · exact (openedOf_append _ _).trans (List.append_nil _)

/-- What is prepared and which calls are made for it, in terms of the run of the machine. -/
theorem prepareWith_cases (host : ExecHost HandleWorld) (answers : Answers) (cwd : Text)
    (simple : SimpleCommand) (targets : List (List Text)) (current : Execution HandleWorld)
    (total index : Nat) :
    let stopped := (FdMachine.start total index).run answers (simple.redirects.zip targets)
    let prepared := prepareWith host answers cwd simple targets current
    ∃ preparing world, Mirrors total index preparing world stopped.1 ∧
      attemptsOf prepared.2.log = stopped.1.attempts ∧
      openedOf prepared.2.log = openedOf world.log ∧
      let sweep := swept answers preparing.redirects preparing.openedFiles stopped.2
      if sweep.2 then
        prepared.1 = .ok preparing.redirects ∧
          finishedOf prepared.2.log =
            finishedOf world.log ++ sweep.1.map RedirectFile.handle
      else
        prepared.1.isOk = false ∧
          finishedOf prepared.2.log = finishedOf world.log ++
            sweep.1.map RedirectFile.handle ++ inputHandles preparing.redirects := by
  intro stopped prepared
  obtain ⟨result, preparing, world, looped, mirrored, same⟩ :=
    @prepareLoop_mirrors total index {} {} _ answers host cwd (mirrors_start total index)
      (simple.redirects.zip targets)
  have distinct : (preparing.openedFiles.map RedirectFile.number).Nodup := by
    rw [mirrored.numbers]
    exact List.nodup_range
  have unfinished : ∀ file ∈ preparing.openedFiles, world.files.get file.number = none := by
    intro file _
    rw [mirrored.files]
    rfl
  obtain ⟨ended, after, swept_all, attempts, opened, finished, passed⟩ :=
    @finishUnused_yields world answers host preparing.redirects _ unfinished distinct result
  refine ⟨preparing, world, mirrored, ?_⟩
  rw [same] at finished passed
  let start : Execution HandleWorld := { current with exec := { current.exec with world := {} } }
  cases ended with
  | ok done =>
      have yields : Yields (prepareRedirects (withAnswers host answers) cwd simple targets) {}
          (.ok preparing.redirects) after :=
        looped.bind (swept_all.bind (yields_pure _))
      obtain ⟨value, left⟩ := yields start rfl
      have whole : prepared = (.ok preparing.redirects, after) := Prod.ext value left
      rw [whole]
      refine ⟨attempts.trans mirrored.attempts, opened, ?_⟩
      have swept_ok : (swept answers preparing.redirects preparing.openedFiles stopped.2).2 = true :=
        passed.symm
      dsimp only
      rw [if_pos swept_ok]
      exact ⟨rfl, finished⟩
  | error error =>
      have yields : Yields (prepareRedirects (withAnswers host answers) cwd simple targets) {}
          (.error error) (after.closedInput preparing.redirects.stdin) :=
        looped.bind (swept_all.bind ((closeStdin_yields _).bind (yields_pure _)))
      obtain ⟨value, left⟩ := yields start rfl
      have whole : prepared = (.error error, after.closedInput preparing.redirects.stdin) :=
        Prod.ext value left
      obtain ⟨attempted, reopened, closed⟩ := @closedInput_log after preparing.redirects.stdin
      rw [whole]
      refine ⟨attempted.trans (attempts.trans mirrored.attempts), reopened.trans opened, ?_⟩
      have swept_failed : (swept answers preparing.redirects preparing.openedFiles stopped.2).2 = false :=
        passed.symm
      dsimp only
      rw [if_neg (Bool.eq_false_iff.mp swept_failed), closed, finished]
      exact ⟨rfl, rfl⟩

/-- The sweep only ends without an error when the redirects did. -/
theorem swept_false (files : List RedirectFile) :
    swept answers redirects files false = (files, false) := by
  induction files with
  | nil => rfl
  | cons file rest ih =>
      rw [swept, if_pos (.inl rfl), Bool.false_and, ih]

end Sweeps

section Connections
variable {total index : Nat} {preparing : Preparing} {world : HandleWorld} {machine : FdMachine}

theorem description_stdin (index : Nat) (input : Option InputRedirect) :
    (stdinFor (if index = 0 then .empty else .pipe (index - 1)) input).description =
      describeInput index input := by
  cases input with
  | none =>
      unfold stdinFor describeInput
      dsimp only
      split_ifs <;> rfl
  | some redirect => rfl

theorem description_writer (total index : Nat) (destination : OutputDestination) :
    (writerForDestination destination
      (if index + 1 < total then some index else none)).description =
        describe total index destination := by
  rcases destination with ⟨_ | _⟩ | target
  · unfold writerForDestination describe
    dsimp only
    split_ifs <;> rfl
  · rfl
  · rfl

/-- Only the captured output stands for the pipe, so the errors see it as the output does. -/
theorem stderr_writer (total index : Nat) (redirects : PreparedRedirects) :
    (stageStreams total index redirects).stderr = writerForDestination redirects.stderr
      (if index + 1 < total then some index else none) := by
  rcases redirects with ⟨stdin, stdout, ⟨_ | _⟩ | target⟩ <;> rfl

/-- The writers of a stage refer to the descriptors of the machine. -/
theorem Mirrors.descriptors (mirrors : Mirrors total index preparing world machine) :
    (stageStreams total index preparing.redirects).descriptors = machine.descriptors := by
  have stdin := (description_stdin index preparing.redirects.stdin).trans mirrors.stdin
  have stdout := (description_writer total index preparing.redirects.stdout).trans mirrors.stdout
  have stderr : (stageStreams total index preparing.redirects).stderr.description =
      machine.descriptors.stderr := by
    rw [stderr_writer, description_writer]
    exact mirrors.stderr
  unfold Streams.descriptors
  rw [stderr]
  exact congrArg₂ (Descriptors.mk · · _) stdin stdout

theorem Mirrors.handles_distinct (mirrors : Mirrors total index preparing world machine) :
    (preparing.openedFiles.map RedirectFile.handle).Nodup :=
  (mirrors.ledger.nodup_iff.mp mirrors.distinct).of_append_right.of_append_right

theorem Writer.eq_of_description {first second : Writer}
    (same : first.description = second.description) :
    first = second ∨ ∃ left right, first = .file left ∧ second = .file right ∧
      left.handle = right.handle := by
  rcases first with fd | number | left <;> rcases second with fd' | number' | right
  · exact .inl (congrArg _ (Description.captured.inj same))
  · cases same
  · cases same
  · cases same
  · exact .inl (congrArg _ (Description.pipe.inj same))
  · cases same
  · cases same
  · cases same
  · exact .inr ⟨left, right, rfl, rfl, Description.opened.inj same⟩

theorem file_of_writer {destination : OutputDestination} {pipe : Option Nat} {target : RedirectFile}
    (writes : writerForDestination destination pipe = .file target) : destination = .file target := by
  rcases destination with ⟨_ | _⟩ | other
  · cases pipe <;> cases writes
  · cases writes
  · exact congrArg _ (Writer.file.inj writes)

/-- Two outputs share their description in the code exactly when they do in the machine. -/
theorem Mirrors.shares (mirrors : Mirrors total index preparing world machine) :
    (stageStreams total index preparing.redirects).stdout =
        (stageStreams total index preparing.redirects).stderr ↔
      machine.descriptors.stdout = machine.descriptors.stderr := by
  rw [← mirrors.stdout, ← mirrors.stderr, stderr_writer]
  change writerForDestination preparing.redirects.stdout _ = _ ↔ _
  rw [← description_writer, ← description_writer]
  constructor
  · intro same
    rw [same]
  · intro same
    rcases Writer.eq_of_description same with equal | ⟨left, right, out, err, handles⟩
    · exact equal
    · have first := mirrors.known left (mem_outputFiles.mpr (.inl (file_of_writer out)))
      have second := mirrors.known right (mem_outputFiles.mpr (.inr (file_of_writer err)))
      rw [out, err, List.inj_on_of_nodup_map mirrors.handles_distinct first second handles]

/-- A command that runs alone is a stage without a pipe. -/
theorem singleStreams_eq (redirects : PreparedRedirects) :
    singleStreams redirects = stageStreams 1 0 redirects := by
  rcases redirects with ⟨stdin, stdout, ⟨_ | _⟩ | target⟩ <;> rfl

/-- A command only goes on with the redirects that were prepared. -/
theorem ended_ok {prepared : Except RedirectError PreparedRedirects}
    {redirects left : PreparedRedirects} {passed : Bool} {finished unfinished : Prop}
    (ok : prepared = .ok redirects)
    (ended : if passed then prepared = .ok left ∧ finished
      else prepared.isOk = false ∧ unfinished) : redirects = left := by
  subst ok
  cases passed with
  | true => exact Except.ok.inj ended.1
  | false => cases ended.1

/-- The prepared redirects connect a command as the machine does, whether it runs alone or as a
stage, and every file up to the first redirect that fails is opened once. -/
theorem redirects_connect (host : ExecHost HandleWorld) (answers : Answers) (cwd : Text)
    (simple : SimpleCommand) (targets : List (List Text)) (current : Execution HandleWorld)
    (total index : Nat) :
    let stopped := (FdMachine.start total index).run answers (simple.redirects.zip targets)
    let alone := (FdMachine.start 1 0).run answers (simple.redirects.zip targets)
    let prepared := prepareWith host answers cwd simple targets current
    attemptsOf prepared.2.log = stopped.1.attempts ∧
    (stopped.2 = false → prepared.1.isOk = false) ∧
    ∀ redirects, prepared.1 = .ok redirects →
      (stageStreams total index redirects).descriptors = stopped.1.descriptors ∧
      ((stageStreams total index redirects).stdout = (stageStreams total index redirects).stderr ↔
        stopped.1.descriptors.stdout = stopped.1.descriptors.stderr) ∧
      (singleStreams redirects).descriptors = alone.1.descriptors ∧
      ((singleStreams redirects).stdout = (singleStreams redirects).stderr ↔
        alone.1.descriptors.stdout = alone.1.descriptors.stderr) := by
  intro stopped alone prepared
  obtain ⟨preparing, world, mirrors, attempts, -, ended⟩ :=
    prepareWith_cases host answers cwd simple targets current total index
  obtain ⟨single, other, mirrors_alone, -, -, ended_alone⟩ :=
    prepareWith_cases host answers cwd simple targets current 1 0
  refine ⟨attempts, ?_, ?_⟩
  · intro failed
    have stays : (swept answers preparing.redirects preparing.openedFiles stopped.2).2 = false := by
      rw [failed, swept_false]
    dsimp only at ended
    rw [if_neg (Bool.eq_false_iff.mp stays)] at ended
    exact ended.1
  · intro redirects ok
    obtain rfl := ended_ok ok ended
    have same := ended_ok ok ended_alone
    refine ⟨mirrors.descriptors, mirrors.shares, ?_, ?_⟩
    · rw [same, singleStreams_eq]
      exact mirrors_alone.descriptors
    · rw [same, singleStreams_eq]
      exact mirrors_alone.shares

end Connections
end TinySandbox.Sandbox
