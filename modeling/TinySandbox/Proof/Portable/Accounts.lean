/-
This file keeps the accounts of the portable dispatcher.
A handle that is not released is in the table, or one operation is responsible for it.
-/

import TinySandbox.Proof.Portable.Custody
import TinySandbox.Proof.Portable.Leases

namespace TinySandbox.Portable
open Library

/-- The handle that the operation is responsible for. -/
def Custody.token : Custody → Option (Handle × Lease)
  | .taken handle => some (handle, .taken)
  | .closing handle => some (handle, .closing)
  | .failed handle => some (handle, .failed)
  | .owned _ handle => some (handle, .alive)
  | _ => none

def Custody.isReserved : Custody → Bool
  | .reserved => true
  | .owned .reserved _ => true
  | _ => false

/-- The table is responsible for its handles. -/
def tableTokens (files : OrderedMap Nat OpenFile) : Multiset (Handle × Lease) :=
  Entries.total (fun entry => {(entry.2.handle, Lease.alive)}) files.entries

section Table
variable {files : OrderedMap Nat OpenFile} {fd : Nat} {file : OpenFile}

theorem tableTokens_insert (free : files.get fd = none) (file : OpenFile) :
    tableTokens (files.insert fd file) = (file.handle, Lease.alive) ::ₘ tableTokens files := by
  have balance := Entries.total_insert
    (fun entry : Nat × OpenFile => ({(entry.2.handle, Lease.alive)} : Multiset _)) files.sorted fd file
  have absent : Entries.get fd files.entries = none := free
  rw [absent] at balance
  simp only [Option.map_none, Option.getD_none, add_zero] at balance
  rw [← Multiset.singleton_add, add_comm]
  exact balance

/-- Another position leaves the handle where it is. -/
theorem tableTokens_replace {old : OpenFile} (found : files.get fd = some old)
    (same : file.handle = old.handle) : tableTokens (files.insert fd file) = tableTokens files := by
  have balance := Entries.total_insert
    (fun entry : Nat × OpenFile => ({(entry.2.handle, Lease.alive)} : Multiset _)) files.sorted fd file
  have present : Entries.get fd files.entries = some old := found
  rw [present] at balance
  simp only [Option.map_some, Option.getD_some, same] at balance
  exact add_right_cancel balance

theorem tableTokens_erase (found : files.get fd = some file) :
    tableTokens files = (file.handle, Lease.alive) ::ₘ tableTokens (files.erase fd) := by
  have balance := Entries.total_erase
    (fun entry : Nat × OpenFile => ({(entry.2.handle, Lease.alive)} : Multiset _)) files.sorted fd
  have present : Entries.get fd files.entries = some file := found
  rw [present] at balance
  simp only [Option.map_some, Option.getD_some] at balance
  rw [← Multiset.singleton_add, add_comm]
  exact balance.symm

theorem tableTokens_eq :
    tableTokens files = ((files.entries.map Prod.snd).map fun file => (file.handle, Lease.alive) :
      Multiset (Handle × Lease)) := by
  unfold tableTokens Entries.total
  rw [List.map_map]
  induction files.entries with
  | nil => rfl
  | cons entry rest ih =>
      rw [List.map_cons, List.sum_cons, ih, List.map_cons, ← Multiset.cons_coe]
      rfl

theorem mem_tableTokens {entry : Nat × OpenFile} (member : entry ∈ files.entries) :
    (entry.2.handle, Lease.alive) ∈ tableTokens files := by
  rw [tableTokens_eq]
  exact Multiset.mem_coe.mpr (List.mem_map_of_mem (List.mem_map_of_mem member))

end Table

def BoundCall.births (call : BoundCall) (number : Nat) : Multiset Nat :=
  match call with
  | .open _ _ => {number}
  | _ => 0

/-- The open that gives a handle when it settles. -/
def Work.births : Work → Multiset Nat
  | .operation call number _ => call.births number
  | .abandoned _ _ number => {number}
  | _ => 0

namespace World

def tokens (world : World) (custodies : Multiset Custody) : Multiset (Handle × Lease) :=
  tableTokens world.files + custodies.filterMap Custody.token

def births (world : World) : Multiset Nat := (world.works.map Work.births).sum

@[simp] theorem births_track (world : World) (work : Work) :
    (world.track work).births = world.births + work.births := by
  simp [births, track]

end World

/-- What an operation relies on until it waits. -/
def Custody.Fits (settings : Settings) (world : World) : Custody → Prop
  | .cleared => world.files.size + world.opening < settings.maxOpenFiles
  | .owned .room _ => world.files.size + world.opening < settings.maxOpenFiles
  | .borrowed fd handle => ∃ file, world.files.get fd = some file ∧ file.handle = handle
  | _ => True

structure Accounts (settings : Settings) (world : World) (running : Custody)
    (waiting : Multiset Custody) (births : Multiset Nat) : Prop where
  ledger : Ledger world.log world.calls (world.tokens (running ::ₘ waiting)) births
  opening : world.opening = (running ::ₘ waiting).countP fun state => state.isReserved
  capacity : world.files.size + world.opening ≤ settings.maxOpenFiles
  fits : running.Fits settings world
  free : ∀ fd, world.nextFd ≤ fd → world.files.get fd = none

section Tokens
variable {world : World} {running : Custody} {waiting : Multiset Custody}

theorem tokens_of_none (nothing : running.token = none) :
    world.tokens (running ::ₘ waiting) = world.tokens waiting := by
  unfold World.tokens
  rw [Multiset.filterMap_cons_none _ _ nothing]

theorem tokens_of_some {token : Handle × Lease} (some : running.token = some token) :
    world.tokens (running ::ₘ waiting) = token ::ₘ world.tokens waiting := by
  unfold World.tokens
  rw [Multiset.filterMap_cons_some _ _ _ some, Multiset.add_cons]

end Tokens

/-- An operation that waits relies on nothing in the table. -/
def Custody.Waits : Custody → Prop
  | .idle => True
  | .reserved => True
  | .closing _ => True
  | .owned .none _ => True
  | _ => False

theorem Custody.Waits.fits {state : Custody} (waits : state.Waits) (settings : Settings)
    (world : World) : state.Fits settings world := by
  cases state with
  | owned slot handle => cases slot <;> trivial
  | _ => trivial

/-- This is what a call does to the custody of the operation that makes it. -/
inductive Custody.Moves (running after : Custody) (call : BoundCall) : Prop where
  | plain (plain : ∀ handle, call.handle = some handle → ¬ handle.IsValid)
      (token : after.token = running.token)
  | uses {handle : Handle} (about : call.handle = some handle)
      (keeps : call.releases handle = false) (token : after.token = running.token)
      (alive : running.token = some (handle, .alive) ∨ ∃ fd, running = .borrowed fd handle)
  | releases {handle : Handle} {lease : Lease} (about : call.handle = some handle)
      (token : running.token = some (handle, lease)) (nothing : after.token = none)
      (starts : lease.starts call = some .released)
  | closes {handle : Handle} (same : call = .close handle)
      (token : running.token = some (handle, .taken)) (closing : after = .closing handle)

theorem BoundCall.handle_of_releases {call : BoundCall} {handle : Handle}
    (releases : call.releases handle = true) : call.handle = some handle := by
  rcases of_decide_eq_true releases with rfl | rfl <;> rfl

theorem Lease.starts_alive {call : BoundCall} {handle : Handle} (about : call.handle = some handle) :
    Lease.starts .alive call = some (if call.releases handle then .released else .alive) := by
  cases call <;> cases about <;> simp [Lease.starts, BoundCall.releases]

/-- An operation without a handle calls with no valid handle. -/
theorem vacant_calls {call : BoundCall} {after : Custody}
    (calls : Custody.calls .idle call = some after) :
    after = .idle ∧ ∀ handle, call.handle = some handle → ¬ handle.IsValid := by
  cases about : call.handle with
  | none =>
      simp only [Custody.calls, about] at calls
      refine ⟨(Option.some.inj calls).symm, ?_⟩
      rintro handle same
      cases same
  | some found =>
      simp only [Custody.calls, about] at calls
      split at calls
      · next both =>
          refine ⟨(Option.some.inj calls).symm, ?_⟩
          rintro handle same
          exact Option.some.inj same ▸ both.2
      · cases calls

/-- An operation waits for this call. -/
inductive Custody.Awaits (call : BoundCall) : Custody → Prop where
  | idle : Awaits call .idle
  | reserved : Awaits call .reserved
  | closing {handle : Handle} (same : call = .close handle) : Awaits call (.closing handle)
  | owned {handle : Handle} (about : call.handle = some handle) : Awaits call (.owned .none handle)

theorem Custody.Awaits.waits {call : BoundCall} {state : Custody} (awaits : state.Awaits call) :
    state.Waits := by
  cases awaits <;> trivial

theorem Custody.moves {running after : Custody} {call : BoundCall}
    (calls : running.calls call = some after) :
    after.Awaits call ∧ after.isReserved = running.isReserved ∧ running.Moves after call := by
  cases running with
  | fresh =>
      obtain ⟨rfl, plain⟩ := vacant_calls calls
      exact ⟨.idle, rfl, .plain plain rfl⟩
  | idle =>
      obtain ⟨rfl, plain⟩ := vacant_calls calls
      exact ⟨.idle, rfl, .plain plain rfl⟩
  | cleared => cases calls
  | reserved =>
      cases call with
      | «open» path mode =>
          obtain rfl := Option.some.inj calls
          exact ⟨.reserved, rfl, .plain nofun rfl⟩
      | close handle =>
          simp only [Custody.calls] at calls
          split at calls
          · cases calls
          · next invalid =>
              obtain rfl := Option.some.inj calls
              refine ⟨.reserved, rfl, .plain ?_ rfl⟩
              rintro other same
              exact Option.some.inj same ▸ invalid
      | _ => cases calls
  | borrowed fd handle =>
      simp only [Custody.calls] at calls
      split at calls
      · next use =>
          obtain rfl := Option.some.inj calls
          exact ⟨.idle, rfl, .uses use.1 use.2 rfl (.inr ⟨fd, rfl⟩)⟩
      · cases calls
  | taken handle =>
      simp only [Custody.calls] at calls
      split at calls
      · next same =>
          obtain rfl := Option.some.inj calls
          exact ⟨.closing same, rfl, .closes same rfl rfl⟩
      · cases calls
  | closing handle => cases calls
  | failed handle =>
      simp only [Custody.calls] at calls
      split at calls
      · next same =>
          obtain rfl := Option.some.inj calls
          subst same
          exact ⟨.idle, rfl, .releases rfl rfl rfl rfl⟩
      · cases calls
  | owned slot handle =>
      have released : call.releases handle = true →
          (Custody.owned slot handle).Moves .idle call := by
        intro releases
        have about := BoundCall.handle_of_releases releases
        apply Moves.releases about rfl rfl
        rw [Lease.starts_alive about, releases]
        rfl
      cases slot with
      | none =>
          simp only [Custody.calls] at calls
          split at calls
          · next releases =>
              obtain rfl := Option.some.inj calls
              exact ⟨.idle, rfl, released releases⟩
          · next keeps =>
              split at calls
              · next about =>
                  obtain rfl := Option.some.inj calls
                  exact ⟨.owned about, rfl, .uses about (Bool.eq_false_iff.mpr keeps) rfl (.inl rfl)⟩
              · cases calls
      | reserved => cases calls
      | room =>
          simp only [Custody.calls] at calls
          split at calls
          · next releases =>
              obtain rfl := Option.some.inj calls
              exact ⟨.idle, rfl, released releases⟩
          · cases calls

/-- A new call takes the next number. -/
theorem Ledger.counts {log : List VfsEvent} {calls : Nat} {tokens : Multiset (Handle × Lease)}
    {births : Multiset Nat} (ledger : Ledger log calls tokens births) (call : BoundCall) :
    Ledger log (calls + 1) tokens (call.births calls + births) := by
  cases call with
  | «open» path mode => exact ledger.conceives
  | _ =>
      change Ledger log (calls + 1) tokens (0 + births)
      rw [zero_add]
      exact ledger.numbered

namespace Accounts

variable {settings : Settings} {world : World} {running after : Custody}
  {waiting : Multiset Custody} {births births' : Multiset Nat} {number : Nat}
  {call : BoundCall} {answer : Answer}

/-- The custody of the running operation changes, and nothing else. -/
theorem becomes (accounts : Accounts settings world running waiting births)
    (token : after.token = running.token) (reserved : after.isReserved = running.isReserved)
    (fits : after.Fits settings world) : Accounts settings world after waiting births where
  ledger := by
    have same : world.tokens (after ::ₘ waiting) = world.tokens (running ::ₘ waiting) := by
      unfold World.tokens
      rw [← Multiset.singleton_add after, ← Multiset.singleton_add running]
      simp only [Multiset.filterMap_add]
      have alone : ({after} : Multiset Custody).filterMap Custody.token =
          ({running} : Multiset Custody).filterMap Custody.token := by
        cases found : running.token with
        | none =>
            rw [← Multiset.cons_zero after, ← Multiset.cons_zero running,
              Multiset.filterMap_cons_none _ _ (token.trans found),
              Multiset.filterMap_cons_none _ _ found]
        | some pair =>
            rw [← Multiset.cons_zero after, ← Multiset.cons_zero running,
              Multiset.filterMap_cons_some _ _ _ (token.trans found),
              Multiset.filterMap_cons_some _ _ _ found]
      rw [alone]
    rw [same]
    exact accounts.ledger
  opening := by
    have counted := accounts.opening
    rw [Multiset.countP_cons] at counted ⊢
    rw [counted, reserved]
  capacity := accounts.capacity
  fits := fits
  free := accounts.free

/-- Nobody is responsible for a handle whose release has been started. -/
theorem drops (accounts : Accounts settings world running waiting births) {handle : Handle}
    {lease : Lease} (token : running.token = some (handle, lease)) (alive : lease ≠ .alive)
    (taken : lease ≠ .taken) (reserved : running.isReserved = false) :
    Accounts settings world .idle waiting births where
  ledger := by
    have ledger := accounts.ledger
    rw [tokens_of_some token] at ledger
    rw [tokens_of_none rfl]
    exact ledger.drops alive taken
  opening := by
    have counted := accounts.opening
    rw [Multiset.countP_cons] at counted ⊢
    rw [counted, reserved]
    rfl
  capacity := accounts.capacity
  fits := trivial
  free := accounts.free

/-- An operation that may end is responsible for nothing that matters. -/
theorem ended (accounts : Accounts settings world running waiting births) (ended : running.Ended) :
    Accounts settings world .idle waiting births := by
  cases running with
  | fresh => exact accounts.becomes rfl rfl trivial
  | idle => exact accounts
  | cleared => exact accounts.becomes rfl rfl trivial
  | reserved => exact ended.elim
  | borrowed fd handle => exact accounts.becomes rfl rfl trivial
  | taken handle => exact ended.elim
  | closing handle => exact ended.elim
  | failed handle => exact accounts.drops rfl nofun nofun rfl
  | owned slot handle => exact ended.elim

/-- A call changes the custody, and the accounts stay right. -/
theorem starts (accounts : Accounts settings world running waiting births) {call : BoundCall}
    (calls : running.calls call = some after) :
    Accounts settings (world.start call) after waiting (call.births world.calls + births) := by
  obtain ⟨awaits, reserved, moves⟩ := Custody.moves calls
  have waits := awaits.waits
  have same : ∀ custodies, (world.start call).tokens custodies = world.tokens custodies :=
    fun _ => rfl
  have ledger : Ledger (world.log ++ [.started call]) world.calls
      (world.tokens (after ::ₘ waiting)) births := by
    cases moves with
    | plain plain token =>
        have unchanged := accounts.becomes token reserved (waits.fits settings world)
        exact unchanged.ledger.plain plain
    | @uses handle about keeps token alive =>
        have unchanged := accounts.becomes token reserved (waits.fits settings world)
        have member : (handle, Lease.alive) ∈ world.tokens (after ::ₘ waiting) := by
          rcases alive with found | ⟨fd, rfl⟩
          · rw [tokens_of_some (token.trans found)]
            exact Multiset.mem_cons_self _ _
          · obtain ⟨file, present, rfl⟩ := accounts.fits
            apply Multiset.mem_add.mpr
            exact .inl (mem_tableTokens ((world.files.mem_iff_get fd file).mpr present))
        have event : (VfsEvent.started call).handle = some handle := about
        apply unchanged.ledger.stays event member nofun
        apply lease_started about
        rw [Lease.starts_alive about, keeps]
        rfl
    | @releases handle lease about token nothing starts =>
        have ledger := accounts.ledger
        rw [tokens_of_some token] at ledger
        rw [tokens_of_none nothing]
        have event : (VfsEvent.started call).handle = some handle := about
        have settled : lease ≠ .closing := by
          rintro rfl
          cases starts
        have released := ledger.moves event settled (lease_started about starts)
        exact released.drops nofun nofun
    | closes same token closing =>
        subst same
        subst closing
        have ledger := accounts.ledger
        rw [tokens_of_some token] at ledger
        rw [tokens_of_some rfl]
        exact ledger.moves rfl nofun (lease_started rfl rfl)
  constructor
  · exact ledger.counts call
  · have counted := accounts.opening
    rw [Multiset.countP_cons] at counted ⊢
    rw [reserved]
    exact counted
  · exact accounts.capacity
  · exact waits.fits settings _
  · exact accounts.free

/-- An open that settles makes its operation responsible for the handle. -/
theorem bears (accounts : Accounts settings world running waiting ({number} + births))
    {handle : Handle} (call : handle.call = number) (valid : handle.IsValid)
    (nothing : running.token = none) (token : after.token = some (handle, .alive))
    (reserved : after.isReserved = running.isReserved)
    (fits : after.Fits settings (world.record [.opened handle])) :
    Accounts settings (world.record [.opened handle]) after waiting births where
  ledger := by
    have ledger := accounts.ledger
    rw [tokens_of_none nothing, ← call] at ledger
    have same : (world.record [.opened handle]).tokens (after ::ₘ waiting) =
        world.tokens (after ::ₘ waiting) := rfl
    rw [same, tokens_of_some token]
    exact ledger.bears valid
  opening := by
    have counted := accounts.opening
    rw [Multiset.countP_cons] at counted ⊢
    rw [reserved]
    exact counted
  capacity := accounts.capacity
  fits := fits
  free := accounts.free

/-- A call that gave no handle settles without a birth. -/
theorem settled (accounts : Accounts settings world running waiting (call.births number + births)) :
    Accounts settings world running waiting births where
  ledger := by
    have ledger := accounts.ledger
    cases call with
    | «open» path mode => exact ledger.barren
    | _ =>
        change Ledger _ _ _ (0 + _) at ledger
        rwa [zero_add] at ledger
  opening := accounts.opening
  capacity := accounts.capacity
  fits := accounts.fits
  free := accounts.free

theorem fails (accounts : Accounts settings world running waiting births) (waits : running.Waits)
    (call : BoundCall) :
    Accounts settings (world.record [.failed call]) running waiting births where
  ledger := accounts.ledger.fails call
  opening := accounts.opening
  capacity := accounts.capacity
  fits := waits.fits settings _
  free := accounts.free

theorem fails_close {handle : Handle}
    (accounts : Accounts settings world (.closing handle) waiting births) :
    Accounts settings (world.record [.failed (.close handle)]) (.failed handle) waiting births where
  ledger := by
    have ledger := accounts.ledger
    have same : (world.record [.failed (.close handle)]).tokens (.failed handle ::ₘ waiting) =
        world.tokens (.failed handle ::ₘ waiting) := rfl
    rw [tokens_of_some rfl] at ledger
    rw [same, tokens_of_some rfl]
    exact ledger.fails_close
  opening := by
    have counted := accounts.opening
    rw [Multiset.countP_cons] at counted ⊢
    exact counted
  capacity := accounts.capacity
  fits := trivial
  free := accounts.free

@[simp] theorem record_nil : world.record [] = world := by
  simp [World.record]

/-- A call that is no open leaves nothing new when it returns. -/
theorem returns (accounts : Accounts settings world running waiting births)
    (awaits : running.Awaits call) (other : ∀ path mode, call ≠ .open path mode) (reply : Reply) :
    Accounts settings world (running.settles call (.returned reply)) waiting births := by
  cases awaits with
  | idle =>
      rw [settles_idle other]
      exact accounts
  | reserved =>
      cases call with
      | «open» path mode => exact absurd rfl (other path mode)
      | _ => exact accounts
  | closing same => exact accounts.drops rfl nofun nofun rfl
  | owned about => exact accounts

/-- An answer of the `Vfs` changes the custody of the operation that waits for it. -/
theorem settles (accounts : Accounts settings world running waiting (call.births number + births))
    (awaits : running.Awaits call) (settles : Settles number answer) :
    Accounts settings (world.record (outcome call answer)) (running.settles call answer) waiting
      births := by
  cases settles with
  | failed code =>
      have failed := accounts.settled.fails awaits.waits call
      cases awaits with
      | idle => cases call <;> exact failed
      | reserved => cases call <;> exact failed
      | owned about => exact failed
      | closing same =>
          subst same
          exact accounts.settled.fails_close
  | returned value buffer =>
      by_cases other : ∀ path mode, call ≠ .open path mode
      · have nothing : outcome call (.returned { value, buffer, call := number }) = [] := by
          cases call with
          | «open» path mode => exact absurd rfl (other path mode)
          | _ => rfl
        rw [nothing, record_nil]
        exact accounts.settled.returns awaits other _
      · push Not at other
        obtain ⟨path, mode, rfl⟩ := other
        by_cases valid : Handle.IsValid { value, call := number }
        · cases awaits with
          | idle =>
              simp only [outcome, Custody.settles, Custody.born, if_pos valid]
              exact accounts.bears rfl valid rfl rfl rfl trivial
          | reserved =>
              simp only [outcome, Custody.settles, Custody.born, if_pos valid]
              exact accounts.bears rfl valid rfl rfl rfl trivial
          | closing same => cases same
          | owned about => cases about
        · cases awaits with
          | idle =>
              simp only [outcome, Custody.settles, Custody.born, if_neg valid, record_nil]
              exact accounts.settled
          | reserved =>
              simp only [outcome, Custody.settles, Custody.born, if_neg valid, record_nil]
              exact accounts.settled
          | closing same => cases same
          | owned about => cases about

/-- A request to the table changes the custody with the table. -/
theorem table (accounts : Accounts settings world running waiting births) {request : Request}
    {response : request.Response} {middle : World} (sends : running.sends request = some after)
    (found : world.table settings request = some (response, middle)) :
    Accounts settings middle (after.takes request response) waiting births := by
  have counted := accounts.opening
  rw [Multiset.countP_cons] at counted
  cases request with
  | checkpoint => cases found
  | vfs call => cases found
  | isFull =>
      obtain ⟨rfl, rfl⟩ := Prod.mk.inj (Option.some.inj found)
      simp only [Custody.sends] at sends
      split at sends
      · next fresh =>
          subst fresh
          obtain rfl := Option.some.inj sends
          simp only [Custody.takes]
          split
          · exact accounts.becomes rfl rfl trivial
          · next room =>
              simp only [Bool.or_eq_true, decide_eq_true_eq, not_or, not_le] at room
              have fits : Custody.cleared.Fits settings world := room.1
              exact accounts.becomes rfl rfl fits
      · cases sends
  | reserve =>
      obtain ⟨-, rfl⟩ := Prod.mk.inj (Option.some.inj found)
      simp only [Custody.sends] at sends
      split at sends
      · next cleared =>
          subst cleared
          obtain rfl := Option.some.inj sends
          have room : world.files.size + world.opening < settings.maxOpenFiles := accounts.fits
          have ledger := accounts.ledger
          rw [tokens_of_none rfl] at ledger
          constructor
          · change Ledger world.log world.calls (World.tokens _ (.reserved ::ₘ waiting)) births
            rw [tokens_of_none rfl]
            exact ledger
          · rw [Multiset.countP_cons]
            simpa [Custody.takes, Custody.isReserved] using counted
          · change world.files.size + (world.opening + 1) ≤ settings.maxOpenFiles
            omega
          · trivial
          · exact accounts.free
      · cases sends
  | unreserve =>
      obtain ⟨-, rfl⟩ := Prod.mk.inj (Option.some.inj found)
      have capacity := accounts.capacity
      cases running with
      | reserved =>
          obtain rfl := Option.some.inj sends
          have ledger := accounts.ledger
          rw [tokens_of_none rfl] at ledger
          constructor
          · change Ledger world.log world.calls (World.tokens _ (.idle ::ₘ waiting)) births
            rw [tokens_of_none rfl]
            exact ledger
          · rw [Multiset.countP_cons]
            simp only [Custody.isReserved] at counted
            simp [Custody.takes, Custody.isReserved, counted]
          · change world.files.size + (world.opening - 1) ≤ settings.maxOpenFiles
            omega
          · trivial
          · exact accounts.free
      | owned slot handle =>
          cases slot with
          | reserved =>
              obtain rfl := Option.some.inj sends
              have ledger := accounts.ledger
              rw [tokens_of_some rfl] at ledger
              simp only [Custody.isReserved, if_true] at counted
              constructor
              · change Ledger world.log world.calls
                  (World.tokens _ (.owned .room handle ::ₘ waiting)) births
                rw [tokens_of_some rfl]
                exact ledger
              · rw [Multiset.countP_cons]
                simp [Custody.takes, Custody.isReserved, counted]
              · change world.files.size + (world.opening - 1) ≤ settings.maxOpenFiles
                omega
              · change world.files.size + (world.opening - 1) < settings.maxOpenFiles
                omega
              · exact accounts.free
          | none => cases sends
          | room => cases sends
      | _ => cases sends
  | store handle =>
      obtain ⟨rfl, rfl⟩ := Prod.mk.inj (Option.some.inj found)
      simp only [Custody.sends] at sends
      split at sends
      · next owned =>
          subst owned
          obtain rfl := Option.some.inj sends
          have free := accounts.free world.nextFd le_rfl
          have ledger := accounts.ledger
          rw [tokens_of_some rfl] at ledger
          have room : world.files.size + world.opening < settings.maxOpenFiles := accounts.fits
          constructor
          · change Ledger world.log world.calls (World.tokens _ (.idle ::ₘ waiting)) births
            rw [tokens_of_none rfl]
            unfold World.tokens at ledger ⊢
            rw [tableTokens_insert free, Multiset.cons_add]
            exact ledger
          · rw [Multiset.countP_cons]
            exact counted
          · have grown := world.files.size_insert world.nextFd { handle, position := 0 }
            rw [free] at grown
            simp only [Option.map_none, Option.getD_none, add_zero] at grown
            change (world.files.insert world.nextFd _).size + world.opening ≤ settings.maxOpenFiles
            omega
          · trivial
          · intro fd above
            have apart : fd ≠ world.nextFd := by
              change world.nextFd + 1 ≤ fd at above
              omega
            change (world.files.insert world.nextFd _).get fd = none
            rw [OrderedMap.get_insert, if_neg apart]
            change world.nextFd + 1 ≤ fd at above
            exact accounts.free fd (by omega)
      · cases sends
  | lookup fd =>
      obtain ⟨rfl, rfl⟩ := Prod.mk.inj (Option.some.inj found)
      simp only [Custody.sends] at sends
      split at sends
      · next fresh =>
          subst fresh
          obtain rfl := Option.some.inj sends
          simp only [Custody.takes]
          cases present : world.files.get fd with
          | none => exact accounts.becomes rfl rfl trivial
          | some file => exact accounts.becomes rfl rfl ⟨file, present, rfl⟩
      · cases sends
  | remove fd =>
      obtain ⟨-, rfl⟩ := Prod.mk.inj (Option.some.inj found)
      cases running with
      | borrowed held handle =>
          simp only [Custody.sends] at sends
          split at sends
          · next same =>
              subst same
              obtain rfl := Option.some.inj sends
              obtain ⟨file, present, rfl⟩ := accounts.fits
              have ledger := accounts.ledger
              rw [tokens_of_none rfl] at ledger
              unfold World.tokens at ledger
              rw [tableTokens_erase present, Multiset.cons_add] at ledger
              have event : (VfsEvent.taken file.handle).handle = some file.handle := rfl
              have taken : Lease.turn file.handle .alive (.taken file.handle) = some .taken := by
                simp [Lease.turn]
              have size := world.files.size_erase held
              rw [present] at size
              simp only [Option.map_some, Option.getD_some] at size
              have capacity := accounts.capacity
              constructor
              · simp only [present]
                change Ledger (world.log ++ [.taken file.handle]) world.calls
                  (World.tokens _ (.taken file.handle ::ₘ waiting)) births
                rw [tokens_of_some rfl]
                exact ledger.moves event Lease.noConfusion taken
              · rw [Multiset.countP_cons]
                exact counted
              · change (world.files.erase held).size + world.opening ≤ settings.maxOpenFiles
                omega
              · trivial
              · intro other above
                change (world.files.erase held).get other = none
                rw [OrderedMap.get_erase]
                split
                · rfl
                · exact accounts.free other above
          · cases sends
      | _ => cases sends
  | advance fd count =>
      obtain ⟨-, rfl⟩ := Prod.mk.inj (Option.some.inj found)
      simp only [Custody.sends] at sends
      split at sends
      · next idle =>
          subst idle
          obtain rfl := Option.some.inj sends
          cases present : world.files.get fd with
          | none => exact accounts
          | some file =>
              have grown := world.files.size_insert fd { file with position := file.position + count }
              rw [present] at grown
              simp only [Option.map_some, Option.getD_some] at grown
              have capacity := accounts.capacity
              constructor
              · have same : tableTokens (world.files.insert fd
                    { file with position := file.position + count }) = tableTokens world.files :=
                  tableTokens_replace present rfl
                change Ledger world.log world.calls (tableTokens (world.files.insert fd _) +
                  (Custody.idle ::ₘ waiting).filterMap Custody.token) births
                rw [same]
                exact accounts.ledger
              · exact accounts.opening
              · change (world.files.insert fd _).size + world.opening ≤ settings.maxOpenFiles
                omega
              · trivial
              · intro other above
                change (world.files.insert fd _).get other = none
                rw [OrderedMap.get_insert]
                split
                · next same =>
                    rw [same] at above
                    have absent := accounts.free fd above
                    rw [present] at absent
                    cases absent
                · exact accounts.free other above
      · cases sends

end Accounts

end TinySandbox.Portable
