/-
This file keeps the accounts while operations run, wait and go on, and while a run ends.
-/

import TinySandbox.Proof.Portable.Accounts

namespace TinySandbox.Portable
open Library

/-- A suspended operation goes on from its custody with every answer. -/
def Continues (call : BoundCall) (next : Answer → Running HostValue) (state : Custody) : Prop :=
  state.Awaits call ∧ ∀ answer, (next answer).Follows custody (fun _ last => last.Ended)
    (state.settles call answer)

/-- Only an operation is responsible for something while it waits. -/
def Parks : Work → Custody → Prop
  | .operation call _ next, state => Continues call next state
  | _, state => state = .idle

/-- The accounts are right with some custody for every promise. -/
def Sound (settings : Settings) (world : World) (running : Custody) (pending : Multiset Nat) : Prop :=
  ∃ waiting : List Custody, List.Forall₂ Parks world.works waiting ∧
    Accounts settings world running (waiting : Multiset Custody) (pending + world.births)

section Accounts
variable {settings : Settings} {world : World} {state : Custody} {waiting : Multiset Custody}
  {births : Multiset Nat}

theorem Accounts.parks (accounts : Accounts settings world state waiting births) :
    Accounts settings world .idle (state ::ₘ waiting) births where
  ledger := by
    rw [tokens_of_none rfl]
    exact accounts.ledger
  opening := by
    rw [Multiset.countP_cons]
    exact accounts.opening
  capacity := accounts.capacity
  fits := trivial
  free := accounts.free

theorem Accounts.wakes (accounts : Accounts settings world .idle (state ::ₘ waiting) births)
    (waits : state.Waits) : Accounts settings world state waiting births where
  ledger := by
    have ledger := accounts.ledger
    rw [tokens_of_none rfl] at ledger
    exact ledger
  opening := by
    have counted := accounts.opening
    rw [Multiset.countP_cons] at counted
    exact counted
  capacity := accounts.capacity
  fits := waits.fits settings world
  free := accounts.free

theorem Custody.Fits.same {after : World} (fits : state.Fits settings world)
    (files : after.files = world.files) (opening : after.opening = world.opening) :
    state.Fits settings after := by
  unfold Custody.Fits at fits ⊢
  rw [files, opening]
  exact fits

/-- The list of promises is no part of the accounts. -/
theorem Accounts.tracked (accounts : Accounts settings world state waiting births)
    (works : List Work) : Accounts settings { world with works } state waiting births where
  ledger := accounts.ledger
  opening := accounts.opening
  capacity := accounts.capacity
  fits := accounts.fits.same rfl rfl
  free := accounts.free

/-- A promise of nobody is one more that waits. -/
theorem Accounts.idles (accounts : Accounts settings world state waiting births) :
    Accounts settings world state (.idle ::ₘ waiting) births where
  ledger := by
    rw [Multiset.cons_swap, tokens_of_none rfl]
    exact accounts.ledger
  opening := by
    rw [Multiset.cons_swap, Multiset.countP_cons]
    exact accounts.opening
  capacity := accounts.capacity
  fits := accounts.fits
  free := accounts.free

/-- The caller of a synchronous operation does not wait for the promise. -/
theorem Accounts.late (accounts : Accounts settings world state waiting births) {call : BoundCall}
    (awaits : state.Awaits call) (number : Nat) :
    Accounts settings world (state.settles call (lateAnswer call number)) waiting births := by
  unfold lateAnswer
  split
  · next detach =>
      apply accounts.returns awaits
      rintro path mode rfl
      cases detach
  · next attached =>
      cases awaits with
      | idle =>
          cases call <;> exact accounts
      | reserved =>
          cases call <;> exact accounts
      | closing same => exact absurd (same ▸ rfl) attached
      | owned about => exact accounts

end Accounts

theorem lateWork_births (call : BoundCall) (number : Nat) :
    (lateWork call number).births = call.births number := by
  cases call <;> rfl

theorem parks_lateWork (call : BoundCall) (number : Nat) : Parks (lateWork call number) .idle := by
  cases call <;> rfl

/-- The table has an entry with the handle. -/
def World.Lists (world : World) (handle : Handle) : Prop :=
  ∃ fd file, world.files.get fd = some file ∧ file.handle = handle

/-- The operation has waited before. -/
def Custody.Late : Custody → Prop
  | .fresh => False
  | .borrowed _ _ => False
  | _ => True

theorem Custody.Awaits.late {call : BoundCall} {state : Custody} (awaits : state.Awaits call)
    (answer : Answer) : (state.settles call answer).Late := by
  cases awaits with
  | idle =>
      unfold Custody.settles
      cases Custody.born call answer <;> trivial
  | reserved =>
      unfold Custody.settles
      cases Custody.born call answer <;> trivial
  | closing same => cases answer <;> trivial
  | owned about => trivial

namespace Sound

variable {settings : Settings} {mode : Mode} {world : World} {state after : Custody}
  {call : BoundCall} {answer : Answer} {number : Nat}

/-- A change of the world that keeps the promises keeps them accounted for. -/
theorem mapped {middle : World} {pending pending' : Multiset Nat}
    (sound : Sound settings world state pending) (works : middle.works = world.works)
    (maps : ∀ waiting births, Accounts settings world state waiting (pending + births) →
      Accounts settings middle after waiting (pending' + births)) :
    Sound settings middle after pending' := by
  obtain ⟨waiting, parks, accounts⟩ := sound
  have births : middle.births = world.births := by
    unfold World.births
    rw [works]
  refine ⟨waiting, works ▸ parks, ?_⟩
  rw [births]
  exact maps _ _ accounts

theorem starts (sound : Sound settings world state 0) (calls : state.calls call = some after) :
    Sound settings (world.start call) after (call.births world.calls) := by
  have works : (world.start call).works = world.works := rfl
  apply sound.mapped works
  intro waiting births accounts
  have started := accounts.starts calls
  rwa [zero_add] at started

theorem settles (sound : Sound settings world state (call.births number))
    (awaits : state.Awaits call) (settles : Settles number answer) :
    Sound settings (world.record (outcome call answer)) (state.settles call answer) 0 := by
  have works : (world.record (outcome call answer)).works = world.works := rfl
  apply sound.mapped works
  intro waiting births accounts
  rw [zero_add]
  exact accounts.settles awaits settles

theorem late {pending : Multiset Nat} (sound : Sound settings world state pending)
    (awaits : state.Awaits call) (number : Nat) :
    Sound settings world (state.settles call (lateAnswer call number)) pending := by
  apply sound.mapped rfl
  intro waiting births accounts
  exact accounts.late awaits number

theorem coe_snoc (waiting : List Custody) (state : Custody) :
    ((waiting ++ [state] : List Custody) : Multiset Custody) =
      state ::ₘ (waiting : Multiset Custody) := by
  rw [← Multiset.coe_add, ← Multiset.singleton_add, add_comm]
  rfl

/-- A promise is tracked with its custody. -/
theorem tracks {pending : Multiset Nat} (sound : Sound settings world state pending) {work : Work}
    (births : work.births = pending) (parks : Parks work state) :
    Sound settings (world.track work) .idle 0 := by
  obtain ⟨waiting, parked, accounts⟩ := sound
  refine ⟨waiting ++ [state], List.rel_append parked (.cons parks .nil), ?_⟩
  rw [coe_snoc, World.births_track, births, zero_add, add_comm]
  exact accounts.parks.tracked _

/-- A promise of nobody is tracked while the operation runs on. -/
theorem leaves {pending : Multiset Nat} (sound : Sound settings world state pending) {work : Work}
    (births : work.births = pending) (parks : Parks work .idle) :
    Sound settings (world.track work) state 0 := by
  obtain ⟨waiting, parked, accounts⟩ := sound
  refine ⟨waiting ++ [.idle], List.rel_append parked (.cons parks .nil), ?_⟩
  rw [coe_snoc, World.births_track, births, zero_add, add_comm]
  exact accounts.idles.tracked _

theorem table {request : Request} {response : request.Response} {middle : World}
    (sound : Sound settings world state 0) (sends : state.sends request = some after)
    (found : world.table settings request = some (response, middle)) :
    Sound settings middle (after.takes request response) 0 := by
  have works : middle.works = world.works := by
    cases request <;> cases found <;> rfl
  apply sound.mapped works
  intro waiting births accounts
  exact accounts.table sends found

theorem ended (sound : Sound settings world state 0) (ended : state.Ended) :
    Sound settings world .idle 0 := by
  apply sound.mapped rfl
  intro waiting births accounts
  exact accounts.ended ended

/-- An operation that has waited neither looks into the table nor takes a handle out. -/
theorem lists_table {request : Request} {response : request.Response} {middle : World}
    {handle : Handle} (sound : Sound settings world state 0) (late : state.Late)
    (sends : state.sends request = some after)
    (found : world.table settings request = some (response, middle)) :
    (after.takes request response).Late ∧ (world.Lists handle → middle.Lists handle) := by
  obtain ⟨waiting, parks, accounts⟩ := sound
  cases request with
  | checkpoint => cases found
  | vfs call => cases found
  | isFull =>
      simp only [Custody.sends] at sends
      split at sends
      · next fresh => exact (fresh ▸ late).elim
      · cases sends
  | reserve =>
      obtain ⟨-, rfl⟩ := Prod.mk.inj (Option.some.inj found)
      simp only [Custody.sends] at sends
      split at sends
      · obtain rfl := Option.some.inj sends
        exact ⟨trivial, id⟩
      · cases sends
  | unreserve =>
      obtain ⟨-, rfl⟩ := Prod.mk.inj (Option.some.inj found)
      simp only [Custody.sends] at sends
      split at sends
      · obtain rfl := Option.some.inj sends
        exact ⟨trivial, id⟩
      · obtain rfl := Option.some.inj sends
        exact ⟨trivial, id⟩
      · cases sends
  | store stored =>
      obtain ⟨rfl, rfl⟩ := Prod.mk.inj (Option.some.inj found)
      simp only [Custody.sends] at sends
      split at sends
      · obtain rfl := Option.some.inj sends
        refine ⟨trivial, ?_⟩
        rintro ⟨fd, file, present, same⟩
        have apart : fd ≠ world.nextFd := by
          rintro rfl
          rw [accounts.free world.nextFd le_rfl] at present
          cases present
        refine ⟨fd, file, ?_, same⟩
        change (world.files.insert world.nextFd _).get fd = some file
        rw [OrderedMap.get_insert, if_neg apart]
        exact present
      · cases sends
  | lookup fd =>
      simp only [Custody.sends] at sends
      split at sends
      · next fresh => exact (fresh ▸ late).elim
      · cases sends
  | remove fd =>
      cases state with
      | borrowed held handle => exact late.elim
      | _ => cases sends
  | advance fd count =>
      obtain ⟨-, rfl⟩ := Prod.mk.inj (Option.some.inj found)
      simp only [Custody.sends] at sends
      split at sends
      · obtain rfl := Option.some.inj sends
        refine ⟨trivial, ?_⟩
        rintro ⟨other, file, present, rfl⟩
        cases read : world.files.get fd with
        | none => exact ⟨other, file, present, rfl⟩
        | some old =>
            by_cases same : other = fd
            · subst same
              rw [read] at present
              obtain rfl := Option.some.inj present
              refine ⟨other, { old with position := old.position + count }, ?_, rfl⟩
              change (world.files.insert other _).get other = _
              rw [OrderedMap.get_insert, if_pos rfl]
            · refine ⟨other, file, ?_, rfl⟩
              change (world.files.insert fd _).get other = _
              rw [OrderedMap.get_insert, if_neg same]
              exact present
      · cases sends

/-- An operation that runs until it is done or waits keeps the accounts. -/
theorem runs {program : Running HostValue} {last : World} {stop : Stop}
    (runs : Runs settings mode program world stop last)
    (follows : program.Follows custody (fun _ final => final.Ended) state)
    (sound : Sound settings world state 0) : Sound settings (last.park stop) .idle 0 := by
  induction runs generalizing state with
  | done result world => exact sound.ended follows
  | checkpoint passes rest ih =>
      obtain ⟨waiting, sent, later⟩ := follows
      obtain rfl : state = waiting := Option.some.inj sent
      exact ih (later passes) sound
  | table found rest ih =>
      obtain ⟨waiting, sent, later⟩ := follows
      exact ih (later _) (sound.table sent found)
  | direct settles rest ih =>
      obtain ⟨waiting, sent, later⟩ := follows
      have awaits := (Custody.moves sent).1
      exact ih (later _) ((sound.starts sent).settles awaits settles)
  | later inline rest ih =>
      obtain ⟨waiting, sent, later⟩ := follows
      have awaits := (Custody.moves sent).1
      have started := (sound.starts sent).late awaits
      exact ih (later _) ((started _).leaves (lateWork_births _ _) (parks_lateWork _ _))
  | suspends awaitable =>
      obtain ⟨waiting, sent, later⟩ := follows
      have continues : Continues _ _ waiting := ⟨(Custody.moves sent).1, later⟩
      exact (sound.starts sent).tracks rfl continues

/-- An operation that goes on leaves the handles in the table. -/
theorem lists_runs {program : Running HostValue} {last : World} {stop : Stop} {handle : Handle}
    (runs : Runs settings mode program world stop last)
    (follows : program.Follows custody (fun _ final => final.Ended) state) (late : state.Late)
    (sound : Sound settings world state 0) (lists : world.Lists handle) :
    (last.park stop).Lists handle := by
  induction runs generalizing state with
  | done result world => exact lists
  | checkpoint passes rest ih =>
      obtain ⟨waiting, sent, later⟩ := follows
      obtain rfl : state = waiting := Option.some.inj sent
      exact ih (later passes) late sound lists
  | table found rest ih =>
      obtain ⟨waiting, sent, later⟩ := follows
      obtain ⟨stays, kept⟩ := sound.lists_table late sent found
      exact ih (later _) stays (sound.table sent found) (kept lists)
  | direct settles rest ih =>
      obtain ⟨waiting, sent, later⟩ := follows
      have awaits := (Custody.moves sent).1
      exact ih (later _) (awaits.late _) ((sound.starts sent).settles awaits settles) lists
  | later inline rest ih =>
      obtain ⟨waiting, sent, later⟩ := follows
      have awaits := (Custody.moves sent).1
      have started := (sound.starts sent).late awaits
      exact ih (later _) (awaits.late _)
        ((started _).leaves (lateWork_births _ _) (parks_lateWork _ _)) lists
  | suspends awaitable => exact lists

/-- A promise that settles is taken out with its custody. -/
theorem takes {before behind : List Work} {work : Work} (sound : Sound settings world .idle 0)
    (works : world.works = before ++ work :: behind) :
    ∃ state, Parks work state ∧
      Sound settings { world with works := before ++ behind } state work.births := by
  obtain ⟨waiting, parked, accounts⟩ := sound
  rw [works] at parked
  have births : world.births = work.births +
      World.births { world with works := before ++ behind } := by
    unfold World.births
    rw [works]
    simp only [List.map_append, List.map_cons, List.sum_append, List.sum_cons]
    exact add_left_comm _ _ _
  rw [births, zero_add] at accounts
  have left := (List.forall₂_take_append waiting before (work :: behind) parked.flip).flip
  have right := (List.forall₂_drop_append waiting before (work :: behind) parked.flip).flip
  cases found : waiting.drop before.length with
  | nil =>
      rw [found] at right
      cases right
  | cons state rest =>
      rw [found] at right
      obtain ⟨parks, right⟩ := List.forall₂_cons.mp right
      have waits : state.Waits := by
        cases work with
        | operation call number next => exact parks.1.waits
        | _ => exact parks ▸ trivial
      refine ⟨state, parks, waiting.take before.length ++ rest, List.rel_append left right, ?_⟩
      have split : waiting = waiting.take before.length ++ state :: rest := by
        rw [← found, List.take_append_drop]
      have same : (waiting : Multiset Custody) =
          state ::ₘ ((waiting.take before.length ++ rest : List Custody) : Multiset Custody) :=
        Multiset.coe_eq_coe.mpr ((List.Perm.of_eq split).trans List.perm_middle)
      rw [same] at accounts
      exact (accounts.wakes waits).tracked _

/-- An open whose handle nobody wants gives the handle back. -/
theorem discards {path : Text} {mode : OpenMode} {handle : Handle}
    (sound : Sound settings world .idle {number}) (settles : Settles number answer)
    (opened : outcome (.open path mode) answer = [.opened handle]) :
    Sound settings ((world.record [.opened handle]).start (discardHandle settings handle)) .idle
      0 := by
  have awaits : Custody.Awaits (.open path mode) .idle := .idle
  have settled := Sound.settles sound awaits settles
  rw [opened] at settled
  have owned : Custody.settles .idle (.open path mode) answer = .owned .none handle := by
    cases settles with
    | failed code => cases opened
    | returned value buffer =>
        simp only [outcome] at opened
        split at opened
        · next valid =>
            obtain rfl := VfsEvent.opened.inj (List.cons.inj opened).1
            simp [Custody.settles, Custody.born, valid]
        · cases opened
  rw [owned] at settled
  have releases : (discardHandle settings handle).releases handle = true := by
    unfold discardHandle
    split <;> simp [BoundCall.releases]
  have calls : Custody.calls (.owned .none handle) (discardHandle settings handle) = some .idle := by
    simp [Custody.calls, releases]
  have started := settled.starts calls
  have births : (discardHandle settings handle).births (world.record [.opened handle]).calls = 0 := by
    unfold discardHandle
    split <;> rfl
  rwa [births] at started

/-- The failure of a promise that nobody owns is only written down. -/
theorem reports (sound : Sound settings world .idle 0) {settled : List VfsEvent}
    (outcome : settled = [] ∨ settled = [.failed call]) :
    Sound settings (world.record settled) .idle 0 := by
  rcases outcome with rfl | rfl
  · rwa [Accounts.record_nil]
  · have works : (world.record [.failed call]).works = world.works := rfl
    apply sound.mapped works
    intro waiting births accounts
    exact accounts.fails trivial call

end Sound

section Closes
variable {settings : Settings} {commit : Bool} {files : List OpenFile} {world after : World}

theorem releases_endFile (settings : Settings) (commit : Bool) (handle : Handle) :
    (endFile settings commit handle).releases handle = true := by
  unfold endFile
  split <;> simp [BoundCall.releases]

/-- Every descriptor of the run is released. -/
theorem Closes.ledger (closes : Closes settings commit files world after)
    {tokens : Multiset (Handle × Lease)} {births : Multiset Nat}
    (ledger : Ledger world.log world.calls
      ((files.map fun file => (file.handle, Lease.alive) : Multiset (Handle × Lease)) + tokens)
      births) : Ledger after.log after.calls tokens births := by
  have step : ∀ {file : OpenFile} {files : List OpenFile} {world : World},
      Ledger world.log world.calls (((file :: files).map fun file => (file.handle, Lease.alive) :
        Multiset (Handle × Lease)) + tokens) births →
      Ledger (world.start (endFile settings commit file.handle)).log
        (world.start (endFile settings commit file.handle)).calls
        ((files.map fun file => (file.handle, Lease.alive) : Multiset (Handle × Lease)) + tokens)
        births := by
    intro file files world ledger
    rw [List.map_cons, ← Multiset.cons_coe, Multiset.cons_add] at ledger
    have releases := releases_endFile settings commit file.handle
    have about : (VfsEvent.started (endFile settings commit file.handle)).handle =
        some file.handle := BoundCall.handle_of_releases releases
    have starts : Lease.starts .alive (endFile settings commit file.handle) = some .released := by
      rw [Lease.starts_alive about, releases]
      rfl
    have moved := ledger.moves about nofun (lease_started about starts)
    exact (moved.drops nofun nofun).numbered
  induction closes with
  | nil world =>
      rw [List.map_nil, Multiset.coe_nil, zero_add] at ledger
      exact ledger
  | returned rest ih => exact ih (step ledger)
  | failed code rest ih => exact ih ((step ledger).fails _)
  | later rest ih => exact ih (step ledger)

/-- The closes of a run are the only new promises. -/
theorem Closes.frame (closes : Closes settings commit files world after) :
    after.files = world.files ∧ after.nextFd = world.nextFd ∧ after.opening = world.opening ∧
      ∃ calls : List BoundCall, after.works = world.works ++ calls.map Work.closing := by
  induction closes with
  | nil world => exact ⟨rfl, rfl, rfl, [], (List.append_nil _).symm⟩
  | returned rest ih => exact ih
  | failed code rest ih => exact ih
  | @later file files world after rest ih =>
      obtain ⟨same, next, opening, calls, works⟩ := ih
      refine ⟨same, next, opening, endFile settings commit file.handle :: calls, ?_⟩
      rw [works]
      exact List.append_assoc _ _ _

end Closes

section Steps
variable {settings : Settings} {world after : World}

/-- A change of the phase or of the failure is no matter of the accounts. -/
theorem Sound.aside {world after : World} (sound : Sound settings world .idle 0)
    (files : after.files = world.files) (nextFd : after.nextFd = world.nextFd)
    (opening : after.opening = world.opening) (works : after.works = world.works)
    (calls : after.calls = world.calls) (log : after.log = world.log) :
    Sound settings after .idle 0 := by
  apply sound.mapped works
  intro waiting births accounts
  constructor
  · unfold World.tokens
    rw [files, calls, log]
    exact accounts.ledger
  · rw [opening]
    exact accounts.opening
  · rw [files, opening]
    exact accounts.capacity
  · trivial
  · rw [files, nextFd]
    exact accounts.free

/-- Closes that go on after the end of a run are owned by nobody. -/
theorem Sound.closings (sound : Sound settings world .idle 0) (calls : List BoundCall) :
    Sound settings { world with works := world.works ++ calls.map Work.closing } .idle 0 := by
  induction calls generalizing world with
  | nil =>
      rw [List.map_nil, List.append_nil]
      exact sound
  | cons call calls ih =>
      have births : (Work.closing call).births = 0 := rfl
      have tracked := sound.leaves births rfl
      have whole := ih tracked
      simp only [World.track, List.append_assoc, List.singleton_append] at whole
      exact whole

/-- The end of a run releases every descriptor. -/
theorem Sound.closesAll {commit expired : Bool} (sound : Sound settings world .idle 0)
    (closes : Closes settings commit (world.files.entries.map Prod.snd) world after) :
    Sound settings { after with files := ∅, phase := .closing expired } .idle 0 := by
  obtain ⟨-, -, opening, calls, works⟩ := closes.frame
  have emptied : Sound settings { after with
      files := ∅, phase := .closing expired, works := world.works } .idle 0 := by
    have same : { after with
      files := ∅, phase := .closing expired, works := world.works }.works = world.works := rfl
    apply sound.mapped same
    intro waiting births accounts
    have ledger := accounts.ledger
    unfold World.tokens at ledger
    rw [tableTokens_eq] at ledger
    have capacity := accounts.capacity
    constructor
    · have left := closes.ledger ledger
      change Ledger after.log after.calls (tableTokens ∅ + _) _
      rw [show tableTokens ∅ = 0 from rfl, zero_add]
      exact left
    · rw [opening]
      exact accounts.opening
    · change 0 + after.opening ≤ settings.maxOpenFiles
      omega
    · trivial
    · intro fd _
      rfl
  have whole := emptied.closings calls
  rw [← works] at whole
  exact whole

/-- An open without a handle leaves nothing. -/
theorem settles_nothing {path : Text} {mode : OpenMode} {number : Nat} {answer : Answer}
    (settles : Settles number answer) (nothing : ∀ handle,
      outcome (.open path mode) answer ≠ [.opened handle]) :
    Custody.settles .idle (.open path mode) answer = .idle := by
  cases settles with
  | failed code => rfl
  | returned value buffer =>
      have invalid : ¬ Handle.IsValid { value, call := number } := by
        intro valid
        exact nothing _ (if_pos valid)
      simp [Custody.settles, Custody.born, invalid]

theorem Sound.step (sound : Sound settings world .idle 0) (step : Step settings world after) :
    Sound settings after .idle 0 := by
  cases step with
  | calls mode op arguments fuel running runs =>
      have fresh : Sound settings world .fresh 0 := by
        apply sound.mapped rfl
        intro waiting births accounts
        exact accounts.becomes rfl rfl trivial
      apply fresh.runs runs
      apply Program.Follows.mono (settled_dispatch settings arguments fuel op)
      rintro ⟨result, nothing⟩ last ends
      cases result <;> exact ends
  | resumes work settles runs =>
      obtain ⟨state, continues, taken⟩ := sound.takes work
      exact (taken.settles continues.1 settles).runs runs (continues.2 _)
  | @opensNothing path mode number before behind answer work settles nothing =>
      obtain ⟨state, rfl, taken⟩ := sound.takes work
      have awaits : Custody.Awaits (.open path mode) .idle := .idle
      have settled := Sound.settles taken awaits settles
      rw [settles_nothing settles] at settled
      · exact settled
      · rintro handle opened
        rcases nothing with none | ⟨call, failed⟩
        · rw [opened] at none
          cases none
        · rw [opened] at failed
          cases failed
  | discards settled work settles opened direct =>
      obtain ⟨state, rfl, taken⟩ := sound.takes work
      exact (taken.discards settles opened).reports direct
  | discardsLater work settles opened =>
      obtain ⟨state, rfl, taken⟩ := sound.takes work
      exact (taken.discards settles opened).leaves rfl rfl
  | closed work settles returned =>
      obtain ⟨state, rfl, taken⟩ := sound.takes work
      exact taken
  | closeFailed code work =>
      obtain ⟨state, rfl, taken⟩ := sound.takes work
      exact (taken.reports (.inr rfl)).aside rfl rfl rfl rfl rfl rfl
  | waited settled work outcome =>
      obtain ⟨state, rfl, taken⟩ := sound.takes work
      exact taken.reports outcome
  | finishes commit running => exact sound.aside rfl rfl rfl rfl rfl rfl
  | closesAll commit expired settling settled closes => exact sound.closesAll closes
  | returns expired late closing settled => exact sound.aside rfl rfl rfl rfl rfl rfl

end Steps

end TinySandbox.Portable
