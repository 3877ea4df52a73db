/-
This file follows an operation of the portable dispatcher with what it must still release.
-/

import TinySandbox.Library.Protocol
import TinySandbox.Specification.Handles

namespace TinySandbox.Portable
open Library Library.Task

/-- An open of the guest first reserves a place in the table and later has room there. -/
inductive Slot where
  | none
  | reserved
  | room
  deriving DecidableEq

/-- A fresh operation has not called the `Vfs`, so the table is as it was. A borrowed handle stays in
the table and serves the next call only. -/
inductive Custody where
  | fresh
  | idle
  | cleared
  | reserved
  | borrowed (fd : Nat) (handle : Handle)
  | taken (handle : Handle)
  | closing (handle : Handle)
  | failed (handle : Handle)
  | owned (slot : Slot) (handle : Handle)
  deriving DecidableEq

namespace Custody

/-- The custody while a call of the `Vfs` is on its way. -/
def calls : Custody → BoundCall → Option Custody
  | .fresh, call =>
      match call.handle with
      | none => some .idle
      | some handle => if call = .close handle ∧ ¬ handle.IsValid then some .idle else none
  | .idle, call =>
      match call.handle with
      | none => some .idle
      | some handle => if call = .close handle ∧ ¬ handle.IsValid then some .idle else none
  | .reserved, .open _ _ => some .reserved
  | .reserved, .close handle => if handle.IsValid then none else some .reserved
  | .borrowed _ handle, call =>
      if call.handle = some handle ∧ call.releases handle = false then some .idle else none
  | .taken handle, call => if call = .close handle then some (.closing handle) else none
  | .failed handle, call => if call = .abort handle then some .idle else none
  | .owned .reserved _, _ => none
  | .owned .room handle, call => if call.releases handle then some .idle else none
  | .owned .none handle, call =>
      if call.releases handle then some .idle
      else if call.handle = some handle then some (.owned .none handle) else none
  | _, _ => none

def sends (custody : Custody) : Request → Option Custody
  | .checkpoint => some custody
  | .isFull => if custody = .fresh then some .fresh else none
  | .reserve => if custody = .cleared then some .reserved else none
  | .unreserve =>
      match custody with
      | .reserved => some .idle
      | .owned .reserved handle => some (.owned .room handle)
      | _ => none
  | .store handle => if custody = .owned .room handle then some .idle else none
  | .lookup _ => if custody = .fresh then some .fresh else none
  | .remove fd =>
      match custody with
      | .borrowed found handle => if found = fd then some (.taken handle) else none
      | _ => none
  | .advance _ _ => if custody = .idle then some .idle else none
  | .vfs call => custody.calls call

/-- An open that gave a valid handle. -/
def born (call : BoundCall) (answer : Answer) : Option Handle :=
  match call, answer with
  | .open _ _, .returned reply =>
      let handle : Handle := { value := reply.value, call := reply.call }
      if handle.IsValid then some handle else none
  | _, _ => none

/-- The custody when a call of the `Vfs` is answered. -/
def settles (custody : Custody) (call : BoundCall) (answer : Answer) : Custody :=
  match custody with
  | .idle => ((born call answer).map (Custody.owned .none)).getD .idle
  | .reserved => ((born call answer).map (Custody.owned .reserved)).getD .reserved
  | .closing handle =>
      match answer with
      | .returned _ => .idle
      | _ => .failed handle
  | custody => custody

def takes (custody : Custody) : (request : Request) → request.Response → Custody
  | .isFull, full => if full then .idle else .cleared
  | .lookup fd, found => (found.map fun file => Custody.borrowed fd file.handle).getD .idle
  | .vfs call, answer => custody.settles call answer
  | _, _ => custody

end Custody

def custody : Protocol Request Request.Response Custody where
  sends := Custody.sends
  takes := Custody.takes

/-- The operation has nothing to release and no place in the table. -/
def Custody.Calm (custody : Custody) : Prop := custody = .fresh ∨ custody = .idle

/-- The operation may end here. -/
def Custody.Ended : Custody → Prop
  | .reserved => False
  | .taken _ => False
  | .closing _ => False
  | .owned _ _ => False
  | _ => True

theorem Custody.Calm.ended {state : Custody} (calm : state.Calm) : state.Ended := by
  rcases calm with rfl | rfl <;> trivial

theorem calm_idle : Custody.Calm .idle := .inr rfl

section Calls
variable {α : Type} {state : Custody} {returns : α → Custody → Prop}
  {fails : Thrown → Custody → Prop}

theorem keeps_checkpoint (calm : Custody → Prop) : Keeps custody calm checkpoint := by
  intro state quiet
  have sent : custody.sends state .checkpoint = some state := rfl
  apply follows_request_bind sent
  intro passes
  exact keeps_refuse _ _ _ quiet

/-- A checkpoint changes no custody. -/
theorem follows_checkpoint_bind {next : Unit → VfsOperation α} (stops : ∀ error, fails error state)
    (passes : Follows custody (next ()) state returns fails) :
    Follows custody (checkpoint >>= next) state returns fails := by
  have stays : Follows custody checkpoint state (fun _ last => last = state) fails :=
    (keeps_checkpoint (· = state) state rfl).mono (fun _ _ same => same) fun error last same =>
      same ▸ stops error
  apply stays.bind
  rintro ⟨⟩ last rfl
  exact passes

/-- A call ends where its answer leaves the custody. -/
theorem follows_callVfs {call : BoundCall} {syscall : String} {path : Option Text}
    {waiting : Custody} {returns : Reply → Custody → Prop}
    (sent : state.calls call = some waiting)
    (returned : ∀ reply, returns reply (waiting.settles call (.returned reply)))
    (failed : ∀ error code, fails error (waiting.settles call (.failed code)))
    (blocked : ∀ error, fails error (waiting.settles call .wouldBlock)) :
    Follows custody (callVfs call syscall path) state returns fails := by
  have sends : custody.sends state (.vfs call) = some waiting := sent
  apply follows_request_bind sends
  intro answer
  cases answer with
  | returned reply => exact returned reply
  | failed code => exact failed _ code
  | wouldBlock => exact blocked _

theorem settles_idle {call : BoundCall} (other : ∀ path mode, call ≠ .open path mode)
    (answer : Answer) : Custody.settles .idle call answer = .idle := by
  have none : Custody.born call answer = none := by
    cases call with
    | «open» path mode => exact absurd rfl (other path mode)
    | _ => rfl
  simp [Custody.settles, none]

/-- These calls neither take a handle nor give one. -/
def BoundCall.onPath : BoundCall → Bool
  | .open _ _ => false
  | call => call.handle = none

theorem keeps_callVfs {call : BoundCall} {syscall : String} {path : Option Text}
    (onPath : call.onPath = true) : Keeps custody Custody.Calm (callVfs call syscall path) := by
  intro state calm
  have free : call.handle = none := by
    cases call <;> first | rfl | cases onPath
  have other : ∀ path mode, call ≠ .open path mode := by
    rintro path mode rfl
    cases onPath
  have sent : state.calls call = some .idle := by
    rcases calm with rfl | rfl <;> simp [Custody.calls, free]
  apply follows_callVfs sent
  · intro reply
    exact .inr (settles_idle other _)
  · intro error code
    exact .inr (settles_idle other _)
  · intro error
    exact .inr (settles_idle other _)

/-- A handle that the operation owns is used any number of times. -/
theorem keeps_use {handle : Handle} {call : BoundCall} {syscall : String} {path : Option Text}
    (about : call.handle = some handle) (keeps : call.releases handle = false) :
    Keeps custody (· = .owned .none handle) (callVfs call syscall path) := by
  rintro state rfl
  have sent : Custody.calls (.owned .none handle) call = some (.owned .none handle) := by
    simp [Custody.calls, about, keeps]
  apply follows_callVfs sent <;> intros <;> rfl

/-- A release leaves nothing, whatever the answer is. -/
theorem follows_release {handle : Handle} {slot : Slot} {call : BoundCall} {syscall : String}
    {path : Option Text} (releases : call.releases handle = true) (free : slot ≠ .reserved) :
    Follows custody (callVfs call syscall path) (.owned slot handle) (fun _ last => last = .idle)
      (fun _ last => last = .idle) := by
  have sent : Custody.calls (.owned slot handle) call = some .idle := by
    cases slot with
    | none => simp [Custody.calls, releases]
    | reserved => exact absurd rfl free
    | room => simp [Custody.calls, releases]
  have other : ∀ path mode, call ≠ .open path mode := by
    rintro path mode rfl
    simp [BoundCall.releases] at releases
  apply follows_callVfs sent
  · intro reply
    exact settles_idle other _
  · intro error code
    exact settles_idle other _
  · intro error
    exact settles_idle other _

/-- An operation that owns nothing may have a place in the table. -/
def Slot.vacant : Slot → Custody
  | .reserved => .reserved
  | _ => .idle

theorem Slot.vacant_settles {slot : Slot} (free : slot ≠ .room) (call : BoundCall) (answer : Answer) :
    slot.vacant.settles call answer =
      ((Custody.born call answer).map (Custody.owned slot)).getD slot.vacant := by
  cases slot with
  | none => rfl
  | reserved => rfl
  | room => exact absurd rfl free

theorem Slot.vacant_calls_close (slot : Slot) {handle : Handle} (invalid : ¬ handle.IsValid) :
    slot.vacant.calls (.close handle) = some slot.vacant := by
  cases slot <;> simp [Slot.vacant, Custody.calls, BoundCall.handle, invalid]

/-- An open gives a valid handle or leaves nothing to release. -/
theorem follows_openVfs {slot : Slot} {path : Text} {mode : OpenMode} (free : slot ≠ .room)
    (sent : state.calls (.open path mode) = some slot.vacant) :
    Follows custody (openVfs path mode) state (fun handle last => last = .owned slot handle)
      (fun _ last => last = slot.vacant) := by
  unfold openVfs
  have opened : Follows custody (callVfs (.open path mode) "open" (some path)) state
      (fun reply last => last = slot.vacant.settles (.open path mode) (.returned reply))
      (fun _ last => last = slot.vacant) := by
    apply follows_callVfs sent
    · intro reply
      rfl
    · intro error code
      exact slot.vacant_settles free _ _
    · intro error
      exact slot.vacant_settles free _ _
  apply opened.bind
  rintro reply last rfl
  rw [slot.vacant_settles free]
  unfold checkedHandle
  by_cases valid : Handle.IsValid { value := reply.value, call := reply.call }
  · rw [if_pos valid]
    simp [Custody.born, valid]
  · rw [if_neg valid]
    simp only [Custody.born, if_neg valid, Option.map_none, Option.getD_none]
    have closed : Follows custody
        (callVfs (.close { value := reply.value, call := reply.call }) "close" none) slot.vacant
        (fun _ last => last = slot.vacant) (fun _ last => last = slot.vacant) := by
      apply follows_callVfs (slot.vacant_calls_close valid)
      · intro reply
        exact slot.vacant_settles free _ _
      · intro error code
        exact slot.vacant_settles free _ _
      · intro error
        exact slot.vacant_settles free _ _
    apply follows_attempt_bind closed
    rintro result last rfl
    rfl

end Calls

section Operations
variable {state : Custody}

theorem Custody.Calm.calls_open (calm : state.Calm) (path : Text) (mode : OpenMode) :
    state.calls (.open path mode) = some Slot.none.vacant := by
  rcases calm with rfl | rfl <;> rfl

theorem keeps_readChunk (handle : Handle) (length maximumBytes : Nat) :
    Keeps custody (· = .owned .none handle) (readChunk handle length maximumBytes) := by
  unfold readChunk
  apply (keeps_checkpoint _).bind
  intro _
  apply (keeps_use rfl (by simp [BoundCall.releases])).bind
  intro reply
  apply (keeps_checkpoint _).bind
  intro _
  apply (keeps_lift _).bind
  intro count
  exact keeps_pure _

theorem keeps_readLoop (handle : Handle) (maximumBytes : Nat) (data : Bytes) :
    Keeps custody (· = .owned .none handle) (readLoop handle maximumBytes data) := by
  rw [readLoop]
  apply (keeps_readChunk handle data.length maximumBytes).bind
  intro chunk
  apply keeps_ite
  · intro _
    exact keeps_pure _
  · intro some
    apply keeps_ite
    · intro _
      exact keeps_throw _
    · intro within
      exact keeps_readLoop handle maximumBytes (data ++ chunk)
termination_by maximumBytes - data.length
decreasing_by
  simp only [List.length_append]
  omega

/-- An operation that opens a file releases it in the end. -/
theorem follows_whole {α β : Type} {handle : Handle} {task : VfsOperation α}
    {call : Except Thrown α → BoundCall} {rest : Except Thrown α → Except Thrown Reply →
      VfsOperation β} (keeps : Keeps custody (· = .owned .none handle) task)
    (releases : ∀ result, (call result).releases handle = true)
    (ends : ∀ result closed, Keeps custody Custody.Calm (rest result closed)) :
    Follows custody (do
      let result ← attempt task
      let closed ← attempt (callVfs (call result) "close" none)
      rest result closed) (.owned .none handle) (fun _ => Custody.Calm)
      (fun _ => Custody.Calm) := by
  apply follows_attempt_bind (keeps _ rfl)
  rintro result last rfl
  have free : Slot.none ≠ .reserved := by decide
  apply follows_attempt_bind (follows_release (releases result) free)
  rintro outcome last rfl
  exact ends result outcome _ calm_idle

theorem keeps_firstError {α : Type} (result : Except Thrown α) (closed : Except Thrown Reply) :
    Keeps custody Custody.Calm (firstError result closed) := by
  cases result with
  | error error => exact keeps_throw _
  | ok value =>
      cases closed with
      | error error => exact keeps_throw _
      | ok reply => exact keeps_pure _

theorem follows_open_bind {α : Type} {path : Text} {mode : OpenMode} {next : Handle → VfsOperation α}
    (calm : state.Calm) (rest : ∀ handle, Follows custody (next handle) (.owned .none handle)
      (fun _ => Custody.Calm) (fun _ => Custody.Calm)) :
    Follows custody (openVfs path mode >>= next) state (fun _ => Custody.Calm)
      (fun _ => Custody.Calm) := by
  have free : Slot.none ≠ .room := by decide
  have opened := follows_openVfs free (calm.calls_open path mode)
  apply Follows.bind (opened.mono (fun _ _ same => same) fun _ _ same => .inr same)
  rintro handle last rfl
  exact rest handle

theorem keeps_readAll (path : Text) (maximumBytes : Nat) :
    Keeps custody Custody.Calm (readAll path maximumBytes) := by
  intro state calm
  unfold readAll
  apply follows_checkpoint_bind fun _ => calm
  apply follows_open_bind calm
  intro handle
  apply follows_whole (keeps_readLoop handle maximumBytes [])
  · intro result
    simp [BoundCall.releases]
  · exact keeps_firstError

theorem keeps_writeChunk (handle : Handle) (data : Bytes) (written : Nat) :
    Keeps custody (· = .owned .none handle) (writeChunk handle data written) := by
  unfold writeChunk
  apply (keeps_checkpoint _).bind
  intro _
  apply (keeps_use rfl (by simp [BoundCall.releases])).bind
  intro reply
  apply (keeps_lift _).bind
  intro count
  apply (keeps_refuse _ _).bind
  intro _
  exact keeps_pure count

theorem keeps_writeLoop (handle : Handle) (data : Bytes) (written : Nat) :
    Keeps custody (· = .owned .none handle) (writeLoop handle data written) := by
  rw [writeLoop]
  split
  · apply (keeps_writeChunk handle data written).bind
    intro count
    split
    · exact keeps_diverge
    · exact keeps_writeLoop handle data (written + count)
  · exact keeps_pure ()
termination_by data.length - written
decreasing_by omega

theorem keeps_writeAll (settings : Settings) (path : Text) (data : Bytes) (append : Bool) :
    Keeps custody Custody.Calm (writeAll settings path data append) := by
  intro state calm
  unfold writeAll
  apply follows_checkpoint_bind fun _ => calm
  apply follows_open_bind calm
  intro handle
  apply follows_whole (keeps_writeLoop handle data 0)
  · intro result
    unfold release
    split <;> simp [BoundCall.releases]
  · exact keeps_firstError

theorem keeps_rangeAsHost {α : Type} (path : Text) (result : Except Thrown α) :
    Keeps custody Custody.Calm (rangeAsHost path result) := by
  unfold rangeAsHost
  split
  · exact keeps_throw _
  · exact keeps_lift _

theorem keeps_readFile (path : Text) (cap : Nat) :
    Keeps custody Custody.Calm (readFile path cap) := by
  unfold readFile
  apply (keeps_readAll path cap).attempt.bind
  intro result
  exact keeps_rangeAsHost path result

theorem keeps_remapHostFailure {α : Type} {operation : VfsOperation α} (syscall : String)
    (path : Text) (keeps : Keeps custody Custody.Calm operation) :
    Keeps custody Custody.Calm (remapHostFailure operation syscall path) := by
  unfold remapHostFailure
  apply keeps.attempt.bind
  intro result
  unfold remapped
  split
  · exact keeps_throw _
  · exact keeps_lift _

theorem keeps_metadata (path : Text) (syscall : String) :
    Keeps custody Custody.Calm (metadata path syscall) := by
  unfold metadata
  apply (keeps_callVfs rfl).bind
  intro reply
  exact keeps_lift _

theorem keeps_madeDirectory (current : Text) (made : Except Thrown Reply) :
    Keeps custody Custody.Calm (madeDirectory current made) := by
  have thrown : Keeps custody Custody.Calm (do
      let _ ← lift made
      pure ()) := (keeps_lift made).bind fun _ => keeps_pure ()
  unfold madeDirectory
  apply keeps_ite
  · intro _
    apply (keeps_metadata current _).bind
    intro info
    exact keeps_ite (fun _ => keeps_pure ()) fun _ => thrown
  · intro _
    exact thrown

theorem keeps_mkdirParts (path current : Text) (parts : List Text) :
    Keeps custody Custody.Calm (mkdirParts path current parts) := by
  induction parts generalizing current with
  | nil => exact keeps_pure ()
  | cons part parts ih =>
      apply (keeps_checkpoint _).bind
      intro _
      apply (keeps_callVfs rfl).attempt.bind
      intro made
      apply (keeps_madeDirectory _ made).bind
      intro _
      exact ih _

theorem keeps_mkdirRecursive (path : Text) : Keeps custody Custody.Calm (mkdirRecursive path) := by
  unfold mkdirRecursive
  apply (keeps_checkpoint _).bind
  intro _
  exact keeps_ite (fun _ => keeps_pure ()) fun _ => keeps_mkdirParts path [] _

theorem keeps_removeEntries {remove : Text → VfsOperation Unit} (path : Text)
    (keeps : ∀ child, Keeps custody Custody.Calm (remove child)) (entries : List ReturnedEntry) :
    Keeps custody Custody.Calm (removeEntries remove path entries) := by
  induction entries with
  | nil => exact keeps_pure ()
  | cons entry entries ih =>
      apply (keeps_lift _).bind
      intro name
      apply (keeps _).bind
      intro _
      exact ih

theorem keeps_removePath (fuel : Nat) (path : Text) (recursive : Bool) :
    Keeps custody Custody.Calm (removePath fuel path recursive) := by
  induction fuel generalizing path recursive with
  | zero => exact keeps_diverge
  | succ fuel ih =>
      apply (keeps_checkpoint _).bind
      intro _
      apply keeps_refuse_bind
      intro _
      apply (keeps_metadata path "rm").bind
      intro info
      apply keeps_ite
      · intro _
        exact (keeps_callVfs rfl).bind fun _ => keeps_pure ()
      · intro _
        apply keeps_refuse_bind
        intro _
        apply (keeps_callVfs rfl).bind
        intro reply
        apply (keeps_lift _).bind
        intro entries
        apply (keeps_removeEntries path (fun child => ih child true) entries).bind
        intro _
        exact (keeps_callVfs rfl).bind fun _ => keeps_pure ()

end Operations

section Dispatch
variable (settings : Settings) (arguments : Arguments) (fuel : Nat)

/-- This follows an operation from its start to its end. -/
def Settled (task : VfsOperation HostValue) : Prop :=
  Follows custody task .fresh (fun _ => Custody.Ended) (fun _ => Custody.Ended)

theorem settled_of_keeps {task : VfsOperation HostValue}
    (keeps : Keeps custody Custody.Calm task) : Settled task :=
  (keeps .fresh (.inl rfl)).mono (fun _ _ calm => calm.ended) fun _ _ calm => calm.ended

/-- An operation that resolves a path first goes on with it. -/
theorem keeps_absolute {value : Argument} {next : Text → VfsOperation HostValue}
    (rest : ∀ path, Keeps custody Custody.Calm (next path)) :
    Keeps custody Custody.Calm (lift (absolute settings value) >>= next) :=
  (keeps_lift _).bind rest

theorem keeps_done {α : Type} {task : VfsOperation α} (keeps : Keeps custody Custody.Calm task)
    (value : HostValue) : Keeps custody Custody.Calm (task >>= fun _ => pure value) :=
  keeps.bind fun _ => keeps_pure value

theorem keeps_dispatchReadFile : Keeps custody Custody.Calm (dispatchReadFile settings arguments) := by
  apply keeps_absolute
  intro path
  apply (keeps_remapHostFailure "open" path (keeps_readFile path _)).bind
  intro data
  exact keeps_pure _

theorem keeps_dispatchWriteAll (append : Bool) :
    Keeps custody Custody.Calm (dispatchWriteAll settings arguments append) := by
  apply keeps_absolute
  intro path
  apply keeps_done
  apply keeps_remapHostFailure
  exact (keeps_lift _).bind fun data => keeps_writeAll settings path data append

theorem keeps_dispatchMkdir : Keeps custody Custody.Calm (dispatchMkdir settings arguments) := by
  apply keeps_absolute
  intro path
  apply keeps_ite
  · intro _
    exact keeps_done (keeps_mkdirRecursive path) _
  · intro _
    exact keeps_done (keeps_callVfs rfl) _

theorem keeps_dispatchReaddir : Keeps custody Custody.Calm (dispatchReaddir settings arguments) := by
  apply keeps_absolute
  intro path
  apply (keeps_callVfs rfl).bind
  intro reply
  apply (keeps_lift _).bind
  intro entries
  exact keeps_lift _

theorem keeps_dispatchStat : Keeps custody Custody.Calm (dispatchStat settings arguments) := by
  apply keeps_absolute
  intro path
  exact (keeps_metadata path _).bind fun _ => keeps_pure _

theorem keeps_dispatchRename : Keeps custody Custody.Calm (dispatchRename settings arguments) := by
  apply keeps_absolute
  intro source
  apply keeps_absolute
  intro target
  exact keeps_done (keeps_callVfs rfl) _

theorem keeps_dispatchRm : Keeps custody Custody.Calm (dispatchRm settings arguments fuel) := by
  apply keeps_absolute
  intro path
  apply (keeps_removePath fuel path _).attempt.bind
  intro result
  exact keeps_done (keeps_lift _) _

theorem keeps_dispatchUnlink : Keeps custody Custody.Calm (dispatchUnlink settings arguments) := by
  apply keeps_absolute
  intro path
  exact keeps_done (keeps_callVfs rfl) _

theorem keeps_dispatchRmdir : Keeps custody Custody.Calm (dispatchRmdir settings arguments fuel) := by
  apply keeps_absolute
  intro path
  apply keeps_ite
  · intro _
    exact keeps_done (keeps_removePath fuel path true) _
  · intro _
    exact keeps_done (keeps_callVfs rfl) _

theorem keeps_dispatchExists : Keeps custody Custody.Calm (dispatchExists settings arguments) := by
  apply ((keeps_lift _).bind fun path => keeps_metadata path _).attempt.bind
  intro result
  cases result with
  | ok info => exact keeps_pure _
  | error error =>
      cases error with
      | host failure => exact keeps_ite (fun _ => keeps_throw _) fun _ => keeps_pure _
      | range => exact keeps_pure _
      | cancelled => exact keeps_pure _

theorem keeps_dispatchCopyFile :
    Keeps custody Custody.Calm (dispatchCopyFile settings arguments) := by
  apply keeps_absolute
  intro source
  apply keeps_absolute
  intro destination
  apply (keeps_remapHostFailure "copyfile" source (keeps_readFile source _)).bind
  intro data
  exact keeps_done (keeps_remapHostFailure _ _ (keeps_writeAll settings destination data false)) _

/-- A guest open checks the table and reserves its place before it waits. -/
theorem settled_dispatchOpen : Settled (dispatchOpen settings arguments) := by
  have clear : custody.sends .fresh .isFull = some .fresh := rfl
  apply follows_request_bind clear
  intro full
  apply follows_refuse_bind
  · rintro rfl
    exact trivial
  intro room
  obtain rfl : full = false := Bool.eq_false_iff.mpr room
  apply follows_lift_bind
  · intro error _
    exact trivial
  intro path _
  apply follows_lift_bind
  · intro error _
    exact trivial
  intro mode _
  have reserves : custody.sends .cleared .reserve = some .reserved := rfl
  apply follows_request_bind reserves
  intro _
  have free : Slot.reserved ≠ .room := by decide
  have sent : Custody.calls .reserved (.open path mode) = some Slot.reserved.vacant := rfl
  have opened := follows_openVfs free sent
  rw [follows_bind_iff, follows_attempt_iff]
  apply opened.mono
  · rintro handle last rfl
    have unreserves : custody.sends (.owned .reserved handle) .unreserve =
        some (.owned .room handle) := rfl
    apply follows_request_bind unreserves
    intro _
    rw [lift_ok_bind]
    have stays := keeps_checkpoint (· = .owned .room handle) _ rfl
    apply follows_attempt_bind stays
    rintro passes last rfl
    cases passes with
    | ok value =>
        have stored : custody.sends (.owned .room handle) (.store handle) = some .idle :=
          if_pos rfl
        apply follows_request_bind stored
        intro fd
        exact trivial
    | error error =>
        have releases : (release settings true handle).releases handle = true := by
          unfold release
          split <;> simp [BoundCall.releases]
        have unreserved : Slot.room ≠ .reserved := by decide
        apply follows_attempt_bind (follows_release releases unreserved)
        rintro result last rfl
        exact trivial
  · rintro error last rfl
    have unreserves : custody.sends .reserved .unreserve = some .idle := rfl
    apply follows_request_bind unreserves
    intro _
    exact trivial

/-- A descriptor is looked up before the operation waits. -/
theorem follows_lookup_bind {syscall : String} {next : Nat × OpenFile → VfsOperation HostValue}
    (rest : ∀ fd file, Follows custody (next (fd, file)) (.borrowed fd file.handle)
      (fun _ => Custody.Ended) (fun _ => Custody.Ended)) :
    Settled (lookup arguments syscall >>= next) := by
  have looked : Follows custody (lookup arguments syscall) .fresh
      (fun found last => last = .borrowed found.1 found.2.handle) (fun _ => Custody.Ended) := by
    apply follows_lift_bind
    · intro error _
      exact trivial
    intro fd _
    have sent : custody.sends .fresh (.lookup fd) = some .fresh := rfl
    apply follows_request_bind sent
    intro found
    cases found with
    | none => exact trivial
    | some file => exact rfl
  apply looked.bind
  rintro ⟨fd, file⟩ last rfl
  exact rest fd file

/-- A borrowed handle serves one call. -/
theorem follows_borrowed {fd : Nat} {handle : Handle} {call : BoundCall} {syscall : String}
    {path : Option Text} (about : call.handle = some handle) (keeps : call.releases handle = false) :
    Follows custody (callVfs call syscall path) (.borrowed fd handle) (fun _ last => last = .idle)
      (fun _ => Custody.Ended) := by
  have sent : Custody.calls (.borrowed fd handle) call = some .idle := if_pos ⟨about, keeps⟩
  have other : ∀ path mode, call ≠ .open path mode := by
    rintro path mode rfl
    cases about
  apply follows_callVfs sent
  · intro reply
    exact settles_idle other _
  · intro error code
    rw [settles_idle other]
    trivial
  · intro error
    rw [settles_idle other]
    trivial

theorem keeps_advance (fd : Nat) (position : Option Nat) (count : Nat) :
    Keeps custody (· = .idle) (advance fd position count) := by
  rintro state rfl
  cases position with
  | none => exact ⟨.idle, rfl, fun _ => rfl⟩
  | some position => exact rfl

/-- A transfer on a descriptor ends when its position is right. -/
theorem follows_transfer {fd : Nat} {handle : Handle} {call : BoundCall} {syscall : String}
    {bound : Nat} {position : Option Nat} {value : Reply → Nat → HostValue}
    (about : call.handle = some handle) (keeps : call.releases handle = false) :
    Follows custody (do
      let reply ← callVfs call syscall none
      let count ← lift (checkedCount reply bound syscall)
      advance fd position count
      pure (value reply count)) (.borrowed fd handle) (fun _ => Custody.Ended)
      (fun _ => Custody.Ended) := by
  apply (follows_borrowed about keeps).bind
  rintro reply last rfl
  apply follows_lift_bind
  · intro error _
    exact trivial
  intro count _
  have advanced := keeps_advance fd position count _ rfl
  have ended : ∀ last, last = Custody.idle → last.Ended := by
    rintro last rfl
    trivial
  apply Follows.bind (advanced.mono (fun _ _ same => same) fun _ last same => ended last same)
  intro _ last same
  exact ended last same

theorem settled_dispatchRead : Settled (dispatchRead settings arguments) := by
  apply follows_lookup_bind
  intro fd file
  apply follows_lift_bind
  · intro error _
    exact trivial
  intro position _
  apply follows_lift_bind
  · intro error _
    exact trivial
  intro wanted _
  exact follows_transfer rfl (by simp [BoundCall.releases])

theorem settled_dispatchWrite : Settled (dispatchWrite settings arguments) := by
  apply follows_lookup_bind
  intro fd file
  apply follows_lift_bind
  · intro error _
    exact trivial
  intro position _
  apply follows_lift_bind
  · intro error _
    exact trivial
  intro data _
  exact follows_transfer rfl (by simp [BoundCall.releases])

theorem settled_dispatchFtruncate : Settled (dispatchFtruncate arguments) := by
  apply follows_lookup_bind
  intro fd file
  apply follows_lift_bind
  · intro error _
    exact trivial
  intro len _
  apply (follows_borrowed rfl (by simp [BoundCall.releases])).bind
  rintro reply last rfl
  exact trivial

/-- A failed close leaves a handle that can be aborted once. -/
theorem settled_dispatchClose : Settled (dispatchClose settings arguments) := by
  apply follows_lookup_bind
  intro fd file
  have removes : custody.sends (.borrowed fd file.handle) (.remove fd) =
      some (.taken file.handle) := if_pos rfl
  apply follows_request_bind removes
  intro _
  have sent : Custody.calls (.taken file.handle) (.close file.handle) =
      some (.closing file.handle) := if_pos rfl
  have closed : Follows custody (callVfs (.close file.handle) "close" none) (.taken file.handle)
      (fun _ last => last = .idle) (fun _ last => last = .failed file.handle) := by
    apply follows_callVfs sent <;> intros <;> rfl
  rw [follows_bind_iff, follows_attempt_iff]
  apply closed.mono
  · rintro reply last rfl
    exact trivial
  · rintro error last rfl
    simp only [discardFailed]
    split
    · have aborts : Custody.calls (.failed file.handle) (.abort file.handle) = some .idle :=
        if_pos rfl
      have aborted : Follows custody (callVfs (.abort file.handle) "close" none)
          (.failed file.handle) (fun _ last => last = .idle) (fun _ last => last = .idle) := by
        apply follows_callVfs aborts <;> intros <;> rfl
      apply follows_attempt_bind aborted
      rintro result last rfl
      exact trivial
    · exact trivial

/-- Every operation follows its custody to the end. -/
theorem settled_dispatch (op : HostOp) : Settled (dispatch settings arguments fuel op) := by
  apply follows_checkpoint_bind fun _ => trivial
  cases op with
  | readFile => exact settled_of_keeps (keeps_dispatchReadFile settings arguments)
  | writeFile => exact settled_of_keeps (keeps_dispatchWriteAll settings arguments false)
  | appendFile => exact settled_of_keeps (keeps_dispatchWriteAll settings arguments true)
  | mkdir => exact settled_of_keeps (keeps_dispatchMkdir settings arguments)
  | readdir => exact settled_of_keeps (keeps_dispatchReaddir settings arguments)
  | stat => exact settled_of_keeps (keeps_dispatchStat settings arguments)
  | rename => exact settled_of_keeps (keeps_dispatchRename settings arguments)
  | rm => exact settled_of_keeps (keeps_dispatchRm settings arguments fuel)
  | unlink => exact settled_of_keeps (keeps_dispatchUnlink settings arguments)
  | rmdir => exact settled_of_keeps (keeps_dispatchRmdir settings arguments fuel)
  | «exists» => exact settled_of_keeps (keeps_dispatchExists settings arguments)
  | «open» => exact settled_dispatchOpen settings arguments
  | read => exact settled_dispatchRead settings arguments
  | write => exact settled_dispatchWrite settings arguments
  | ftruncate => exact settled_dispatchFtruncate arguments
  | close => exact settled_dispatchClose settings arguments
  | copyFile => exact settled_of_keeps (keeps_dispatchCopyFile settings arguments)

end Dispatch

end TinySandbox.Portable
