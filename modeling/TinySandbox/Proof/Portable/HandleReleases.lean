/-
This file proves that the portable dispatcher releases every handle once.
-/

import TinySandbox.Proof.Portable.Dispatches

namespace TinySandbox.Portable
open Library

section Growth
variable {settings : Settings} {mode : Mode} {world after : World}

/-- The log only grows, and an operation does not change the phase. -/
structure Grows (world after : World) : Prop where
  phase : after.phase = world.phase
  log : world.log <+: after.log

theorem Grows.trans {last : World} (first : Grows world after) (second : Grows after last) :
    Grows world last :=
  ⟨second.phase.trans first.phase, first.log.trans second.log⟩

theorem grows_table {request : Request} {response : request.Response}
    (found : world.table settings request = some (response, after)) : Grows world after := by
  cases request <;> cases found
  case remove fd => exact ⟨rfl, List.prefix_append _ _⟩
  all_goals exact ⟨rfl, List.prefix_rfl⟩

theorem grows_start (call : BoundCall) : Grows world (world.start call) :=
  ⟨rfl, List.prefix_append _ _⟩

theorem grows_record (events : List VfsEvent) : Grows world (world.record events) :=
  ⟨rfl, List.prefix_append _ _⟩

theorem Runs.grows {program : Running HostValue} {stop : Stop}
    (runs : Runs settings mode program world stop after) : Grows world after := by
  induction runs with
  | done result world => exact ⟨rfl, List.prefix_rfl⟩
  | checkpoint passes rest ih => exact ih
  | table found rest ih => exact (grows_table found).trans ih
  | direct settles rest ih => exact (grows_start _).trans ((grows_record _).trans ih)
  | @later call next world after stop inline rest ih =>
      have tracked : Grows (world.start call)
          ((world.start call).track (lateWork call world.calls)) := ⟨rfl, List.prefix_rfl⟩
      exact (grows_start call).trans (tracked.trans ih)
  | suspends awaitable => exact grows_start _

theorem Runs.grows_park {program : Running HostValue} {stop : Stop}
    (runs : Runs settings mode program world stop after) : Grows world (after.park stop) := by
  cases stop with
  | done result => exact runs.grows
  | suspended call number next => exact ⟨runs.grows.phase, runs.grows.log⟩

theorem Closes.log {commit : Bool} {files : List OpenFile}
    (closes : Closes settings commit files world after) : world.log <+: after.log := by
  induction closes with
  | nil world => exact List.prefix_rfl
  | returned rest ih => exact (List.prefix_append _ _).trans ih
  | failed code rest ih =>
      exact (List.prefix_append _ _).trans ((List.prefix_append _ _).trans ih)
  | later rest ih => exact (List.prefix_append _ _).trans ih

theorem Step.log (step : Step settings world after) : world.log <+: after.log := by
  cases step with
  | calls mode op arguments fuel running runs => exact runs.grows_park.log
  | resumes work settles runs => exact (List.prefix_append _ _).trans runs.grows_park.log
  | opensNothing work settles nothing => exact List.prefix_append _ _
  | discards settled work settles opened direct =>
      exact (List.prefix_append _ _).trans
        ((List.prefix_append _ _).trans (List.prefix_append _ _))
  | discardsLater work settles opened =>
      exact (List.prefix_append _ _).trans (List.prefix_append _ _)
  | closed work settles returned => exact List.prefix_rfl
  | closeFailed code work => exact List.prefix_append _ _
  | waited settled work outcome => exact List.prefix_append _ _
  | finishes commit running => exact List.prefix_rfl
  | closesAll commit expired settling settled closes => exact closes.log
  | returns expired late closing settled => exact List.prefix_rfl

end Growth

/-- After a finish in time only closes are left, and nothing when it has returned. -/
structure World.Rests (world : World) : Prop where
  closing : world.phase = .closing false ∨ world.phase = .finished false →
    world.files = ∅ ∧ ∀ work ∈ world.works, ∃ call, work = .closing call
  finished : world.phase = .finished false → world.works = []

section Rests
variable {settings : Settings} {world after : World}

theorem rests_of_phase (busy : world.phase ≠ .closing false ∧ world.phase ≠ .finished false) :
    world.Rests where
  closing ended := by
    rcases ended with closing | finished
    · exact absurd closing busy.1
    · exact absurd finished busy.2
  finished ended := absurd ended busy.2

/-- While something other than a close is left, the run has not finished in time. -/
theorem World.Rests.busy {before behind : List Work} {work : Work} (rests : world.Rests)
    (works : world.works = before ++ work :: behind) (other : ∀ call, work ≠ .closing call) :
    world.phase ≠ .closing false ∧ world.phase ≠ .finished false := by
  have member : work ∈ world.works := by
    rw [works]
    exact List.mem_append_right _ List.mem_cons_self
  constructor
  · intro closing
    obtain ⟨call, same⟩ := (rests.closing (.inl closing)).2 work member
    exact other call same
  · intro finished
    obtain ⟨call, same⟩ := (rests.closing (.inr finished)).2 work member
    exact other call same

/-- A close that settles leaves the other closes. -/
theorem World.Rests.settles {before behind : List Work} {work : Work} (rests : world.Rests)
    (works : world.works = before ++ work :: behind) (files : after.files = world.files)
    (phase : after.phase = world.phase) (left : after.works = before ++ behind) : after.Rests where
  closing ended := by
    rw [phase] at ended
    obtain ⟨empty, closes⟩ := rests.closing ended
    refine ⟨files.trans empty, ?_⟩
    intro other member
    apply closes
    rw [left] at member
    rw [works]
    rcases List.mem_append.mp member with first | later
    · exact List.mem_append_left _ first
    · exact List.mem_append_right _ (List.mem_cons_of_mem _ later)
  finished ended := by
    rw [phase] at ended
    have none := rests.finished ended
    rw [works] at none
    simp at none

theorem World.Rests.step (rests : world.Rests) (step : Step settings world after) :
    after.Rests := by
  cases step with
  | calls mode op arguments fuel running runs =>
      apply rests_of_phase
      rw [runs.grows_park.phase, running]
      exact ⟨nofun, nofun⟩
  | resumes work settles runs =>
      apply rests_of_phase
      rw [runs.grows_park.phase]
      exact rests.busy work nofun
  | opensNothing work settles nothing => exact rests_of_phase (rests.busy work nofun)
  | discards settled work settles opened direct => exact rests_of_phase (rests.busy work nofun)
  | discardsLater work settles opened => exact rests_of_phase (rests.busy work nofun)
  | closed work settles returned => exact rests.settles work rfl rfl rfl
  | closeFailed code work => exact rests.settles work rfl rfl rfl
  | waited settled work outcome => exact rests_of_phase (rests.busy work nofun)
  | finishes commit running => exact rests_of_phase ⟨nofun, nofun⟩
  | closesAll commit expired settling settled closes =>
      constructor
      · intro ended
        have inTime : expired = false := by
          rcases ended with closing | finished
          · exact Phase.closing.inj closing
          · cases finished
        obtain ⟨-, -, -, calls, works⟩ := closes.frame
        rw [settled inTime, List.nil_append] at works
        refine ⟨rfl, ?_⟩
        intro work member
        change work ∈ World.works _ at member
        rw [works] at member
        obtain ⟨call, -, rfl⟩ := List.mem_map.mp member
        exact ⟨call, rfl⟩
      · nofun
  | returns expired late closing settled =>
      have inTime : Phase.finished (expired || late) = .finished false →
          expired = false ∧ late = false := by
        intro same
        exact Bool.or_eq_false_iff.mp (Phase.finished.inj same)
      constructor
      · intro ended
        rcases ended with closing' | finished
        · cases closing'
        · obtain ⟨rfl, rfl⟩ := inTime finished
          exact rests.closing (.inl closing)
      · intro finished
        exact settled (inTime finished).2

end Rests

section Reaches
variable {settings : Settings} {world : World}

theorem sound_new : Sound settings .new .idle 0 := by
  refine ⟨[], .nil, ?_⟩
  constructor
  · exact ledger_new
  · rfl
  · exact Nat.zero_le _
  · trivial
  · intro fd _
    rfl

theorem Reaches.sound (reaches : Reaches settings world) : Sound settings world .idle 0 := by
  induction reaches with
  | refl => exact sound_new
  | tail earlier step ih => exact ih.step step

theorem Reaches.rests (reaches : Reaches settings world) : world.Rests := by
  induction reaches with
  | refl => exact rests_of_phase ⟨nofun, nofun⟩
  | tail earlier step ih => exact ih.step step

end Reaches

section Discards
variable {settings : Settings} {world after : World} {handle : Handle}

theorem releases_grown {log later : List VfsEvent} (grown : log <+: later) :
    releases handle log <+: releases handle later :=
  grown.filterMap _

theorem mem_releases {log : List VfsEvent} {call : BoundCall}
    (release : call.releases handle = true) :
    call ∈ releases handle log ↔ .started call ∈ log := by
  unfold releases
  rw [List.mem_filterMap]
  constructor
  · rintro ⟨event, member, found⟩
    cases event with
    | started other =>
        simp only at found
        split at found
        · exact Option.some.inj found ▸ member
        · cases found
    | _ => cases found
  · intro member
    exact ⟨.started call, member, if_pos release⟩

theorem Sound.lawful (sound : Sound settings world .idle 0) (valid : handle.IsValid) :
    ∃ current, lease handle world.log = some current := by
  obtain ⟨waiting, parks, accounts⟩ := sound
  exact Option.ne_none_iff_exists'.mp (accounts.ledger.lawful handle valid)

/-- A handle is released at most once. -/
theorem Sound.once (sound : Sound settings world .idle 0) (valid : handle.IsValid) :
    releases handle world.log = [] ∨ ReleasedOnce handle world.log := by
  obtain ⟨current, known⟩ := sound.lawful valid
  have tells := tells_of_lease known
  cases current with
  | unborn => exact .inl tells.1
  | alive => exact .inl tells
  | taken => exact .inl tells
  | closing => exact .inr (.inl ⟨_, tells⟩)
  | failed => exact .inr (.inl ⟨_, tells.1⟩)
  | released => exact .inr tells

/-- A handle in the table is valid, and its release has not been started. -/
theorem Sound.listed (sound : Sound settings world .idle 0) (lists : world.Lists handle) :
    handle.IsValid ∧ releases handle world.log = [] := by
  obtain ⟨waiting, parks, accounts⟩ := sound
  obtain ⟨fd, file, present, rfl⟩ := lists
  have entry := mem_tableTokens ((world.files.mem_iff_get fd file).mpr present)
  have member : (file.handle, Lease.alive) ∈ world.tokens (.idle ::ₘ (waiting : Multiset Custody)) :=
    Multiset.mem_add.mpr (.inl entry)
  have alive : lease file.handle world.log = some .alive :=
    (accounts.ledger.known _ member).exact nofun
  exact ⟨accounts.ledger.valid _ member, tells_of_lease alive⟩

/-- The closes of a run that is cut short are aborts. -/
theorem Closes.aborts {files : List OpenFile} (hasAbort : settings.hasAbort = true)
    (closes : Closes settings false files world after) :
    ∃ more, after.log = world.log ++ more ∧ (∀ handle, .started (.close handle) ∉ more) ∧
      ∀ file ∈ files, .started (.abort file.handle) ∈ more := by
  have ends : ∀ handle, endFile settings false handle = .abort handle := by
    intro handle
    simp [endFile, hasAbort]
  induction closes with
  | nil world => exact ⟨[], (List.append_nil _).symm, by simp, by simp⟩
  | @returned file files world after rest ih =>
      obtain ⟨more, log, closes, aborts⟩ := ih
      refine ⟨.started (.abort file.handle) :: more, ?_, by simpa using closes, ?_⟩
      · rw [log, World.start, ends]
        exact List.append_assoc _ _ _
      · intro other member
        rcases List.mem_cons.mp member with rfl | member
        · exact List.mem_cons_self
        · exact List.mem_cons_of_mem _ (aborts other member)
  | @failed code file files world after rest ih =>
      obtain ⟨more, log, closes, aborts⟩ := ih
      refine ⟨.started (.abort file.handle) :: .failed (.abort file.handle) :: more, ?_,
        by simpa using closes, ?_⟩
      · rw [log, ends]
        simp [World.start, World.record, World.fail]
      · intro other member
        rcases List.mem_cons.mp member with rfl | member
        · exact List.mem_cons_self
        · exact List.mem_cons_of_mem _ (List.mem_cons_of_mem _ (aborts other member))
  | @later file files world after rest ih =>
      obtain ⟨more, log, closes, aborts⟩ := ih
      refine ⟨.started (.abort file.handle) :: more, ?_, by simpa using closes, ?_⟩
      · rw [log, ends]
        simp [World.start, World.track]
      · intro other member
        rcases List.mem_cons.mp member with rfl | member
        · exact List.mem_cons_self
        · exact List.mem_cons_of_mem _ (aborts other member)

/-- The descriptors have been released. -/
def World.IsOver (world : World) : Prop :=
  ∃ expired, world.phase = .closing expired ∨ world.phase = .finished expired

theorem World.IsOver.step (ended : world.IsOver) (step : Step settings world after) :
    after.IsOver := by
  obtain ⟨expired, phase⟩ := ended
  cases step with
  | calls mode op arguments fuel running runs => simp [running] at phase
  | resumes work settles runs =>
      refine ⟨expired, ?_⟩
      rw [runs.grows_park.phase]
      exact phase
  | finishes commit running => simp [running] at phase
  | closesAll commit expired settling settled closes => simp [settling] at phase
  | returns expired late closing settled => exact ⟨expired || late, .inr rfl⟩
  | _ => exact ⟨expired, phase⟩

/-- While a run settles, its descriptors stay until all of them are released. -/
theorem Sound.settling {commit : Bool} (sound : Sound settings world .idle 0)
    (settling : world.phase = .settling commit) (lists : world.Lists handle)
    (step : Step settings world after) :
    after.phase = .settling commit ∧ after.Lists handle ∨
      ∃ before expired, Closes settings commit (world.files.entries.map Prod.snd) world before ∧
        after = { before with files := ∅, phase := .closing expired } := by
  cases step with
  | calls mode op arguments fuel running runs => simp [running] at settling
  | resumes work settles runs =>
      obtain ⟨state, continues, taken⟩ := sound.takes work
      refine .inl ⟨runs.grows_park.phase.trans settling, ?_⟩
      have settled := taken.settles continues.1 settles
      exact settled.lists_runs runs (continues.2 _) (continues.1.late _) lists
  | finishes other running => simp [running] at settling
  | @closesAll other expired before settles settled closes =>
      rw [settling] at settles
      obtain rfl := Phase.settling.inj settles
      exact .inr ⟨before, expired, closes, rfl⟩
  | returns expired late closing settled => simp [closing] at settling
  | _ => exact .inl ⟨settling, lists⟩

/-- A descriptor of a run that is cut short is in the table, or it has been aborted. -/
def World.Discarded (world : World) (handle : Handle) : Prop :=
  world.phase = .settling false ∧ world.Lists handle ∨
    world.IsOver ∧ releases handle world.log = [.abort handle]

theorem Sound.discards_step (sound : Sound settings world .idle 0) (hasAbort : settings.hasAbort = true)
    (valid : handle.IsValid) (discarded : world.Discarded handle)
    (step : Step settings world after) : after.Discarded handle := by
  have once := (sound.step step).once valid
  rcases discarded with ⟨settling, lists⟩ | ⟨ended, aborted⟩
  · rcases sound.settling settling lists step with stays | ⟨before, expired, closes, rfl⟩
    · exact .inl stays
    · refine .inr ⟨⟨expired, .inl rfl⟩, ?_⟩
      obtain ⟨more, log, noClose, aborts⟩ := closes.aborts hasAbort
      obtain ⟨fd, file, present, rfl⟩ := lists
      have nothing := (sound.listed ⟨fd, file, present, rfl⟩).2
      have entry := (world.files.mem_iff_get fd file).mpr present
      have abort := aborts file (List.mem_map_of_mem entry)
      have whole : releases file.handle before.log = releases file.handle more := by
        rw [log]
        unfold releases at nothing ⊢
        rw [List.filterMap_append, nothing, List.nil_append]
      have started : .abort file.handle ∈ releases file.handle before.log := by
        rw [whole]
        exact (mem_releases (by simp [BoundCall.releases])).mpr abort
      change releases file.handle before.log = _
      change releases file.handle before.log = [] ∨ ReleasedOnce file.handle before.log at once
      rcases once with none | ⟨call, single⟩ | ⟨both, _⟩
      · rw [none] at started
        cases started
      · rw [single] at started ⊢
        rw [List.mem_singleton.mp started]
      · exfalso
        have close : .close file.handle ∈ releases file.handle more := by
          rw [← whole, both]
          exact List.mem_cons_self
        exact noClose _ ((mem_releases (by simp [BoundCall.releases])).mp close)
  · refine .inr ⟨ended.step step, ?_⟩
    have grown := @releases_grown handle _ _ step.log
    rw [aborted] at grown
    rcases once with none | ⟨call, single⟩ | ⟨both, _⟩
    · rw [none] at grown
      simp at grown
    · rw [single] at grown ⊢
      obtain ⟨more, same⟩ := grown
      rw [(List.cons.inj same).1]
    · rw [both] at grown
      simp at grown

/-- The descriptors of a run that is cut short are aborted and never closed. -/
theorem Sound.discardsAll (sound : Sound settings world .idle 0) (hasAbort : settings.hasAbort = true)
    (settling : world.phase = .settling false) : world.Discards settings := by
  intro after reaches entry member
  have lists : world.Lists entry.2.handle :=
    ⟨entry.1, entry.2, (world.files.mem_iff_get _ _).mp member, rfl⟩
  have valid := (sound.listed lists).1
  have kept : Sound settings after .idle 0 ∧ after.Discarded entry.2.handle := by
    induction reaches with
    | refl => exact ⟨sound, .inl ⟨settling, lists⟩⟩
    | tail earlier step ih => exact ⟨ih.1.step step, ih.1.discards_step hasAbort valid ih.2 step⟩
  obtain ⟨sound, discarded⟩ := kept
  have closes : BoundCall.releases entry.2.handle (.close entry.2.handle) = true := by
    simp [BoundCall.releases]
  have aborts : BoundCall.releases entry.2.handle (.abort entry.2.handle) = true := by
    simp [BoundCall.releases]
  rw [← mem_releases closes, ← mem_releases aborts]
  rcases discarded with ⟨phase, lists⟩ | ⟨ended, aborted⟩
  · constructor
    · rw [(sound.listed lists).2]
      exact List.not_mem_nil
    · intro expired finished
      rw [phase] at finished
      cases finished
  · rw [aborted]
    constructor
    · simp
    · intro expired finished
      exact List.mem_singleton.mpr rfl

end Discards

/-- Every handle that the `Vfs` opened for the dispatcher is released once, and only handles that
are not released are used. -/
theorem calls_release_handles (settings : Settings) (world : World)
    (reaches : Reaches settings world) : world.ReleasesOnce settings := by
  have sound := reaches.sound
  have rests := reaches.rests
  constructor
  · intro handle valid
    obtain ⟨current, known⟩ := sound.lawful valid
    rw [known]
    nofun
  · intro handle valid
    exact sound.once valid
  · intro finished handle valid opened
    obtain ⟨current, known⟩ := sound.lawful valid
    have tells := tells_of_lease known
    obtain ⟨waiting, parks, accounts⟩ := sound
    have files := (rests.closing (.inr finished)).1
    have works := rests.finished finished
    have empty : waiting = [] := by
      rw [works] at parks
      cases parks
      rfl
    have ledger := accounts.ledger
    subst empty
    have nothing : world.tokens (.idle ::ₘ (([] : List Custody) : Multiset Custody)) = 0 := by
      rw [tokens_of_none rfl]
      unfold World.tokens
      rw [files]
      rfl
    rw [nothing] at ledger
    obtain ⟨alive, taken⟩ := ledger.released_of_no_tokens valid
    cases current with
    | unborn => exact absurd opened tells.2
    | alive => exact absurd known alive
    | taken => exact absurd known taken
    | closing => exact .inl ⟨_, tells⟩
    | failed => exact .inl ⟨_, tells.1⟩
    | released => exact tells
  · obtain ⟨waiting, parks, accounts⟩ := sound
    exact accounts.capacity
  · intro settling hasAbort
    exact sound.discardsAll hasAbort settling

/-- An open whose promise settles after the end of the run gives its handle back. -/
theorem calls_release_handles_late : ∃ world : World,
    world.phase = .finished false ∧
      .opened { value := .integer 7, call := 0 } ∈ world.log ∧ world.ReleasesOnce {} := by
  let path : Text := ['/', 'f']
  let mode : OpenMode := { write := true, create := true, truncate := true }
  let arguments : Arguments := { path := .string path, flags := .string ['w'] }
  let handle : Handle := { value := .integer 7, call := 0 }
  let waits : World := { World.new with
    works := [.abandoned path mode 0], calls := 1, log := [.started (.open path mode)] }
  have opens : Runs {} .inline ((dispatch {} arguments 0 .open).exec ()) .new
      (.done (.error (wouldBlockFailure "open" (some path)))) waits := by
    apply Runs.checkpoint true
    refine Runs.table (show World.table {} _ .isFull = some (false, _) from rfl) ?_
    refine Runs.table (show World.table {} _ .reserve = some ((), _) from rfl) ?_
    apply Runs.later rfl
    refine Runs.table (show World.table {} _ .unreserve = some ((), _) from rfl) ?_
    exact Runs.done _ _
  have opened : Reaches {} waits := .single (.calls .inline .open arguments 0 rfl opens)
  have ended : Reaches {} { waits with phase := .settling false } :=
    opened.tail (.finishes false rfl)
  have given : Reaches {} { waits with
      works := [], calls := 2, phase := .settling false
      log := [.started (.open path mode), .opened handle, .started (.abort handle)] } :=
    ended.tail (@Step.discards {} { waits with phase := .settling false } path mode 0 [] [] handle
      (.returned { value := .integer 7, call := 0 }) [] rfl (.returned _ _) rfl (.inl rfl))
  have closing := given.tail (.closesAll false false rfl (fun _ => rfl) (.nil _))
  have finished := closing.tail (.returns false false rfl fun _ => rfl)
  exact ⟨_, rfl, List.mem_cons_of_mem _ List.mem_cons_self, calls_release_handles {} _ finished⟩
end TinySandbox.Portable
