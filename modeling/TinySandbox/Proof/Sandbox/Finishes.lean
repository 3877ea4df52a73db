/-
This file shows when the preparation of redirects finishes every file that it opened.
The loop at its end passes over a file in use as long as nothing has failed.
-/

import TinySandbox.Proof.Sandbox.Redirects

namespace TinySandbox.Sandbox
open Library Shell

section Sweeps
variable {answers : Answers} {redirects : PreparedRedirects}

/-- A superseded file whose last call fails ends the preparation with an error. -/
def Fails (answers : Answers) (redirects : PreparedRedirects) (file : RedirectFile) : Prop :=
  ¬ Live redirects file ∧ (answers.finish file.handle).isOk = false

/-- A file in use stands before every file that fails. -/
def Skips (answers : Answers) (redirects : PreparedRedirects) (files : List RedirectFile) : Prop :=
  ∃ before kept after, files = before ++ kept :: after ∧ Live redirects kept ∧
    ∀ file ∈ before, ¬ Fails answers redirects file

theorem swept_live {file : RedirectFile} (live : Live redirects file) (rest : List RedirectFile) :
    swept answers redirects (file :: rest) true = swept answers redirects rest true := by
  rw [swept, if_neg]
  rintro (impossible | dead)
  · cases impossible
  · exact dead live

theorem swept_dead {file : RedirectFile} (dead : ¬ Live redirects file) (rest : List RedirectFile) :
    swept answers redirects (file :: rest) true =
      let later := swept answers redirects rest (answers.finish file.handle).isOk
      (file :: later.1, later.2) := by
  rw [swept, if_pos (.inr dead)]
  rfl

/-- What is finished well does not fail. -/
theorem not_fails {file : RedirectFile} (finish : (answers.finish file.handle).isOk = true) :
    ¬ Fails answers redirects file := by
  intro fails
  rw [fails.2] at finish
  cases finish

theorem swept_passes (files : List RedirectFile) :
    (swept answers redirects files true).2 = true ↔ ∀ file ∈ files, ¬ Fails answers redirects file := by
  induction files with
  | nil => exact iff_of_true rfl (List.forall_mem_nil _)
  | cons file rest ih =>
      rw [List.forall_mem_cons]
      by_cases live : Live redirects file
      · rw [swept_live live, ih]
        exact (and_iff_right fun fails => fails.1 live).symm
      · rw [swept_dead live]
        dsimp only
        cases finish : (answers.finish file.handle).isOk with
        | true =>
            rw [ih]
            exact (and_iff_right (not_fails finish)).symm
        | false =>
            rw [swept_false]
            exact iff_of_false Bool.false_ne_true fun fine => fine.1 ⟨live, finish⟩

theorem swept_passed (files : List RedirectFile)
    (fine : ∀ file ∈ files, ¬ Fails answers redirects file) :
    (swept answers redirects files true).1 = files.filter fun file => ¬ Live redirects file := by
  induction files with
  | nil => rfl
  | cons file rest ih =>
      obtain ⟨first, later⟩ := List.forall_mem_cons.mp fine
      rw [List.filter_cons]
      by_cases live : Live redirects file
      · rw [swept_live live, ih later, if_neg (by simp [live])]
      · have finish : (answers.finish file.handle).isOk = true := by
          by_contra failed
          exact first ⟨live, Bool.eq_false_iff.mpr failed⟩
        rw [swept_dead live, finish, if_pos (by simp [live])]
        exact congrArg _ (ih later)

theorem swept_sublist (files : List RedirectFile) (passed : Bool) :
    (swept answers redirects files passed).1.Sublist files := by
  induction files generalizing passed with
  | nil => exact List.Sublist.slnil
  | cons file rest ih =>
      rw [swept]
      split_ifs
      · exact (ih _).cons_cons file
      · exact (ih _).cons file

/-- The loop finishes all files unless it passes over one. -/
theorem swept_all (files : List RedirectFile) :
    (swept answers redirects files true).1 = files ↔ ¬ Skips answers redirects files := by
  induction files with
  | nil =>
      apply iff_of_true rfl
      rintro ⟨before, kept, after, split, -⟩
      cases before <;> cases split
  | cons file rest ih =>
      by_cases live : Live redirects file
      · rw [swept_live live]
        apply iff_of_false
        · intro same
          have short := (@swept_sublist answers redirects rest true).length_le
          rw [same] at short
          exact Nat.not_succ_le_self _ short
        · exact not_not_intro ⟨[], file, rest, rfl, live, List.forall_mem_nil _⟩
      · rw [swept_dead live]
        dsimp only
        cases finish : (answers.finish file.handle).isOk with
        | true =>
            rw [List.cons_inj_right, ih, not_iff_not]
            constructor
            · rintro ⟨before, kept, after, rfl, used, passed⟩
              exact ⟨file :: before, kept, after, rfl, used,
                List.forall_mem_cons.mpr ⟨not_fails finish, passed⟩⟩
            · rintro ⟨before, kept, after, split, used, passed⟩
              cases before with
              | nil =>
                  obtain ⟨rfl, rfl⟩ := List.cons.inj split
                  exact absurd used live
              | cons first before =>
                  obtain ⟨rfl, rfl⟩ := List.cons.inj split
                  exact ⟨before, kept, after, rfl, used, (List.forall_mem_cons.mp passed).2⟩
        | false =>
            rw [swept_false]
            apply iff_of_true rfl
            rintro ⟨before, kept, after, split, used, passed⟩
            cases before with
            | nil =>
                obtain ⟨rfl, rfl⟩ := List.cons.inj split
                exact live used
            | cons first before =>
                obtain ⟨rfl, rfl⟩ := List.cons.inj split
                exact passed _ List.mem_cons_self ⟨live, finish⟩

end Sweeps

section Accounts
variable {total index : Nat} {preparing : Preparing} {world : HandleWorld} {machine : FdMachine}
  {answers : Answers}

/-- The files in use are the outputs that the machine refers to. -/
theorem Mirrors.live_iff (mirrors : Mirrors total index preparing world machine)
    {file : RedirectFile} (opened : file ∈ preparing.openedFiles) :
    Live preparing.redirects file ↔ machine.InUse file.handle := by
  have of_description : ∀ destination : OutputDestination,
      (∀ target, destination = .file target → target ∈ outputFiles preparing.redirects) →
      (destination = .file file ↔ describe total index destination = .opened file.handle) := by
    intro destination known
    rcases destination with ⟨_ | _⟩ | target
    · unfold describe
      apply iff_of_false nofun
      split_ifs <;> nofun
    · exact iff_of_false nofun nofun
    · have member := mirrors.known target (known target rfl)
      constructor
      · intro same
        exact congrArg _ (congrArg _ (OutputDestination.file.inj same))
      · intro same
        exact congrArg _ (List.inj_on_of_nodup_map mirrors.handles_distinct member opened
          (Description.opened.inj same))
  unfold Live FdMachine.InUse
  rw [← mirrors.stdout, ← mirrors.stderr]
  apply or_congr
  · exact of_description _ fun target same => mem_outputFiles.mpr (.inl same)
  · exact of_description _ fun target same => mem_outputFiles.mpr (.inr same)

theorem Mirrors.fails_iff (mirrors : Mirrors total index preparing world machine)
    {file : RedirectFile} (opened : file ∈ preparing.openedFiles) :
    Fails answers preparing.redirects file ↔ machine.Spoils answers file.handle := by
  unfold Fails FdMachine.Spoils
  rw [mirrors.live_iff opened]

/-- The loop passes over a file and ends with an error exactly when the machine leaks one. -/
theorem Mirrors.leaks_iff (mirrors : Mirrors total index preparing world machine) :
    machine.Leaks answers ↔ Skips answers preparing.redirects preparing.openedFiles ∧
      ∃ file ∈ preparing.openedFiles, Fails answers preparing.redirects file := by
  constructor
  · rintro ⟨before, kept, after, split, used, passed, bad, late, spoils⟩
    rw [← mirrors.outputs] at split
    obtain ⟨first, rest, files, rfl, same⟩ := List.map_eq_append_iff.mp split
    obtain ⟨file, last, rfl, rfl, rfl⟩ := List.map_eq_cons_iff.mp same
    have opened : file ∈ preparing.openedFiles := by simp [files]
    obtain ⟨spoiled, member, rfl⟩ := List.mem_map.mp late
    have reached : spoiled ∈ preparing.openedFiles := by simp [files, member]
    refine ⟨⟨first, file, last, files, (mirrors.live_iff opened).mpr used, ?_⟩, spoiled, reached,
      (mirrors.fails_iff reached).mpr spoils⟩
    intro earlier member
    have found : earlier ∈ preparing.openedFiles := by simp [files, member]
    rw [mirrors.fails_iff found]
    exact passed _ (List.mem_map_of_mem member)
  · rintro ⟨⟨before, kept, after, files, used, passed⟩, bad, member, fails⟩
    have opened : kept ∈ preparing.openedFiles := by simp [files]
    refine ⟨before.map RedirectFile.handle, kept.handle, after.map RedirectFile.handle, ?_,
      (mirrors.live_iff opened).mp used, ?_, bad.handle, ?_, (mirrors.fails_iff member).mp fails⟩
    · rw [← mirrors.outputs, files, List.map_append, List.map_cons]
    · intro number listed
      obtain ⟨earlier, early, rfl⟩ := List.mem_map.mp listed
      have found : earlier ∈ preparing.openedFiles := by simp [files, early]
      rw [← mirrors.fails_iff found]
      exact passed earlier early
    · apply List.mem_map_of_mem
      rw [files] at member
      rcases List.mem_append.mp member with early | late
      · exact absurd fails (passed bad early)
      · rcases List.mem_cons.mp late with rfl | later
        · exact absurd used fails.1
        · exact later

/-- What was opened is finished, or it is the input, or it is an output. -/
theorem Mirrors.count (mirrors : Mirrors total index preparing world machine) (handle : Nat) :
    (openedOf world.log).count handle = (finishedOf world.log).count handle +
      ((inputHandles preparing.redirects).count handle +
        (preparing.openedFiles.map RedirectFile.handle).count handle) := by
  rw [mirrors.ledger.count_eq, List.count_append, List.count_append]

/-- The handles that a command goes on with are its input and the files in use. -/
theorem Mirrors.referenced (mirrors : Mirrors total index preparing world machine) (handle : Nat) :
    (inputHandles preparing.redirects).count handle +
        ((preparing.openedFiles.filter fun file => Live preparing.redirects file).map
          RedirectFile.handle).count handle =
      if handle ∈ referenced (.ok preparing.redirects) then 1 else 0 := by
  let live := preparing.openedFiles.filter fun file => Live preparing.redirects file
  have distinct : (inputHandles preparing.redirects ++ live.map RedirectFile.handle).Nodup := by
    have all := (mirrors.ledger.nodup_iff.mp mirrors.distinct).of_append_right
    exact all.sublist ((List.filter_sublist.map _).append_left _)
  have same : handle ∈ inputHandles preparing.redirects ++ live.map RedirectFile.handle ↔
      handle ∈ TinySandbox.Sandbox.referenced (.ok preparing.redirects) := by
    unfold TinySandbox.Sandbox.referenced
    rw [List.mem_append, List.mem_append]
    apply or_congr Iff.rfl
    constructor
    · intro member
      obtain ⟨file, kept, rfl⟩ := List.mem_map.mp member
      have used := (List.mem_filter.mp kept).2
      exact List.mem_map_of_mem (mem_outputFiles.mpr (of_decide_eq_true used))
    · intro member
      obtain ⟨file, output, rfl⟩ := List.mem_map.mp member
      apply List.mem_map_of_mem
      exact List.mem_filter.mpr ⟨mirrors.known file output, decide_eq_true (mem_outputFiles.mp output)⟩
  rw [← List.count_append, distinct.count]
  exact if_congr same rfl rfl

/-- A file is in use or it is superseded. -/
theorem count_files (files : List RedirectFile) (redirects : PreparedRedirects) (handle : Nat) :
    (files.map RedirectFile.handle).count handle =
      ((files.filter fun file => Live redirects file).map RedirectFile.handle).count handle +
        ((files.filter fun file => ¬ Live redirects file).map RedirectFile.handle).count handle := by
  have split := List.filter_append_perm (fun file => decide (Live redirects file)) files
  rw [← (split.map RedirectFile.handle).count_eq, List.map_append, List.count_append]
  simp only [decide_not]

/-- Lists with the same handles are equal when one is a part of the other. -/
theorem eq_of_counts {part files : List RedirectFile} (sublist : part.Sublist files)
    (same : ∀ handle, (files.map RedirectFile.handle).count handle =
      (part.map RedirectFile.handle).count handle) : part = files := by
  apply sublist.eq_of_length
  have perm : (files.map RedirectFile.handle).Perm (part.map RedirectFile.handle) :=
    List.perm_iff_count.mpr same
  have lengths := perm.length_eq
  rw [List.length_map, List.length_map] at lengths
  exact lengths.symm

theorem isOk_false {result : Except RedirectError PreparedRedirects} (failed : result.isOk = false) :
    referenced result = [] := by
  cases result with
  | error error => rfl
  | ok redirects => cases failed

end Accounts

/-- The preparation is tidy unless every redirect passes and the machine leaks an output. -/
theorem prepares_tidy_iff (host : ExecHost HandleWorld) (answers : Answers) (cwd : Text)
    (simple : SimpleCommand) (targets : List (List Text)) (current : Execution HandleWorld) :
    let stopped := (FdMachine.start 1 0).run answers (simple.redirects.zip targets)
    let prepared := prepareWith host answers cwd simple targets current
    Tidy prepared.1 prepared.2.log ↔ ¬ (stopped.2 = true ∧ stopped.1.Leaks answers) := by
  intro stopped prepared
  obtain ⟨preparing, world, mirrors, -, opened, ended⟩ :=
    prepareWith_cases host answers cwd simple targets current 1 0
  change openedOf prepared.2.log = _ at opened
  have distinct : (openedOf prepared.2.log).Nodup := by
    rw [opened]
    exact mirrors.distinct
  dsimp only at ended
  split_ifs at ended with passed
  · -- Nothing failed, so every file in use stays open and the others are finished.
    obtain ⟨result, finished⟩ := ended
    change prepared.1 = _ at result
    change finishedOf prepared.2.log = _ at finished
    change (swept answers _ _ stopped.2).2 = true at passed
    have went_on : stopped.2 = true := by
      by_contra failed
      rw [Bool.eq_false_iff.mpr failed, swept_false] at passed
      cases passed
    change finishedOf _ = _ ++ List.map _ (swept _ _ _ stopped.2).1 at finished
    rw [went_on] at passed finished
    have fine := (swept_passes _).mp passed
    apply iff_of_true
    · refine ⟨distinct, fun handle => ?_⟩
      rw [opened, result, finished, swept_passed _ fine, mirrors.count, List.count_append,
        ← mirrors.referenced, count_files _ preparing.redirects]
      omega
    · rintro ⟨-, leaks⟩
      obtain ⟨-, file, member, fails⟩ := mirrors.leaks_iff.mp leaks
      exact fine file member fails
  · -- An error came up, and all files are finished unless the loop was past one by then.
    obtain ⟨result, finished⟩ := ended
    change prepared.1.isOk = _ at result
    change finishedOf prepared.2.log = _ at finished
    have counts : Tidy prepared.1 prepared.2.log ↔
        (swept answers preparing.redirects preparing.openedFiles stopped.2).1 =
          preparing.openedFiles := by
      constructor
      · intro tidy
        apply eq_of_counts (swept_sublist _ _)
        intro handle
        have balanced := tidy.accounts handle
        rw [opened, isOk_false result, finished, mirrors.count, List.count_append,
          List.count_append, if_neg List.not_mem_nil] at balanced
        change _ = _ + List.count handle (List.map _ (swept _ _ _ stopped.2).1) + _ + 0 at balanced
        omega
      · intro all
        refine ⟨distinct, fun handle => ?_⟩
        change finishedOf _ = _ ++ List.map _ (swept _ _ _ stopped.2).1 ++ _ at finished
        rw [opened, isOk_false result, finished, all, mirrors.count, List.count_append,
          List.count_append, if_neg List.not_mem_nil]
        omega
    rw [counts]
    change ¬ (swept answers _ _ stopped.2).2 = true at passed
    cases went_on : stopped.2 with
    | false =>
        rw [swept_false]
        exact iff_of_true rfl fun leaks => Bool.false_ne_true leaks.1
    | true =>
        rw [went_on, swept_passes] at passed
        push Not at passed
        rw [swept_all, not_iff_not, mirrors.leaks_iff]
        constructor
        · intro skips
          exact ⟨rfl, skips, passed⟩
        · rintro ⟨-, skips, -⟩
          exact skips

/-- No command is registered at this host, and nobody else does anything. -/
def stillHost : ExecHost HandleWorld where
  commands := ∅
  yieldNow := id
  isCancelled := fun _ => false
  writeStderr := fun _ => id
  checkpoint := fun world => (.ok (), world)
  openFile := fun _ _ _ world => (.ok 0, world)
  closeFile := fun _ world => (.ok (), world)
  finish := fun _ world => (.ok (), world)
  writeAll := fun _ _ world => (true, world)
  runBuiltin := fun _ _ session _ world => ((0, session, [], []), world)
  runHandler := fun _ world => ({ exitCode := 0 }, world)
  taskError := fun _ _ => none
  taskOrder := fun index _ => index
  pipeBroken := fun _ _ => false
  pipeBytes := fun _ _ => 0

def stillExecution : Execution HandleWorld where
  session := { cwd := ['/'], env := ∅, lastStatus := 0 }
  exec := {
    world := {}
    timings := []
    pipeBytes := []
    lastStatus := 0
    commandCount := 0
    limitHit := false
    peakWasmMemoryBytes := none
    trace := [] }

/-- This is `>a 2>b 2>c`. -/
def threeOutputs : SimpleCommand where
  redirects := [
    { fd := none, op := .write, target := .word { segments := [.literal ['a'] false] } },
    { fd := some 2, op := .write, target := .word { segments := [.literal ['b'] false] } },
    { fd := some 2, op := .write, target := .word { segments := [.literal ['c'] false] } }]

/-- The second of the three files cannot be closed. -/
def secondFails : Answers where
  checkpoint := fun _ => .ok ()
  openFile := fun _ => .ok ()
  finish := fun handle => if handle = 1 then .error Errno.EIO else .ok ()
  cancelled := fun _ => false

def threeTargets : List (List Text) :=
  [[['a']], [['b']], [['c']]]

theorem threeOutputs_log :
    let prepared := prepareWith stillHost secondFails ['/'] threeOutputs threeTargets stillExecution
    openedOf prepared.2.log = [0, 1, 2] ∧ finishedOf prepared.2.log = [1, 2] ∧
      referenced prepared.1 = [] := by
  decide +kernel

/-- The close of `b` fails, and `a` stays open behind the error. -/
theorem threeOutputs_leaks :
    ¬ ∀ (answers : Answers) (simple : SimpleCommand) (targets : List (List Text))
      (current : Execution HandleWorld),
      Tidy (prepareWith stillHost answers ['/'] simple targets current).1
        (prepareWith stillHost answers ['/'] simple targets current).2.log := by
  intro tidy
  have tidied := tidy secondFails threeOutputs threeTargets stillExecution
  have log := threeOutputs_log
  dsimp only at log
  generalize prepareWith stillHost secondFails ['/'] threeOutputs threeTargets stillExecution =
    prepared at tidied log
  obtain ⟨opened, finished, failed⟩ := log
  have accounts := tidied.accounts 0
  rw [opened, finished, failed] at accounts
  revert accounts
  decide

end TinySandbox.Sandbox
