/-
This file shows that a buffer without anything to download acts as one that is loaded already.
-/

import TinySandbox.Specification.StrictStreams

namespace TinySandbox.S3
open Library Library.Task Mem

/-- The second handle has loaded the empty bytes that the first one would load. -/
inductive Alike : HandleState → HandleState → Prop where
  | same (cell : HandleState) : Alike cell cell
  | loaded (key : Text) (mode : OpenMode) (released : Bool) (buffer : Buffer)
      (none : buffer.bytes = none) (empty : ∀ file, buffer.source = some file → file.len = 0) :
      Alike { key, mode, staging := .buffer buffer, released }
        { key, mode, staging := .buffer { buffer with bytes := some [] }, released }

section Cells
variable {vfs : S3Vfs} {cell other : HandleState} {buffer : Buffer} {key : Text}

theorem sourceBytes_empty {source : Option RemoteFile}
    (empty : ∀ file, source = some file → file.len = 0) :
    vfs.sourceBytes key source = pure [] := by
  unfold S3Vfs.sourceBytes
  cases source with
  | none => rfl
  | some file =>
      have none := empty file rfl
      have small : vfs.checkEditLen 0 = .ok () := by
        unfold S3Vfs.checkEditLen
        exact if_neg (by omega)
      simp only [none, small, S3Vfs.getWhole, if_true]
      rfl

/-- Both buffers hold the same bytes once they are loaded. -/
theorem materialize_exec (none : buffer.bytes = none)
    (empty : ∀ file, buffer.source = some file → file.len = 0) :
    (vfs.materialize key).exec buffer =
      (vfs.materialize key).exec { buffer with bytes := some [] } := by
  have loads : (vfs.materialize key).exec buffer =
      .pure (.ok [], { buffer with bytes := some [] }) := by
    rw [S3Vfs.materialize, exec_get_bind, none, sourceBytes_empty empty]
    rfl
  rw [loads]
  rfl

/-- A task that begins with the bytes of the buffer is the same from both. -/
theorem materialize_bind_exec {α : Type} {next : Bytes → S3Task Buffer α} (none : buffer.bytes = none)
    (empty : ∀ file, buffer.source = some file → file.len = 0) :
    (vfs.materialize key >>= next).exec buffer =
      (vfs.materialize key >>= next).exec { buffer with bytes := some [] } := by
  rw [exec_bind, exec_bind, materialize_exec none empty]

theorem focus_exec {σ τ α : Type} {store : τ → σ} {task : S3Task τ α} {first second : τ}
    (same : task.exec first = task.exec second) (state other : σ) :
    (focus first store task : S3Task σ α).exec state = (focus second store task).exec other := by
  change (task.exec first >>= _) = task.exec second >>= _
  rw [same]

theorem readResolved_simulates (offset bufLen : Nat) (alike : Alike cell other) :
    Simulates Alike (vfs.readResolved offset bufLen) (vfs.readResolved offset bufLen) cell other := by
  cases alike with
  | same => exact simulates_refl .same _ cell
  | loaded key mode released buffer none empty =>
      have alike := Alike.loaded key mode released buffer none empty
      unfold S3Vfs.readResolved
      refine Simulates.get_bind (Simulates.refuse_bind alike fun _ =>
        Simulates.refuse_bind alike fun _ => ?_)
      exact simulates_of_eq .same (focus_exec (materialize_bind_exec none empty) _ _)

theorem writeResolved_simulates (offset : Nat) (data : Bytes) (alike : Alike cell other) :
    Simulates Alike (vfs.writeResolved offset data) (vfs.writeResolved offset data) cell other := by
  cases alike with
  | same => exact simulates_refl .same _ cell
  | loaded key mode released buffer none empty =>
      have alike := Alike.loaded key mode released buffer none empty
      unfold S3Vfs.writeResolved
      refine Simulates.get_bind (Simulates.refuse_bind alike fun _ =>
        Simulates.refuse_bind alike fun _ => ?_)
      by_cases nothing : data = []
      · simp only [nothing, if_true]
        exact simulates_pure 0 alike
      · simp only [nothing, if_false]
        exact simulates_of_eq .same (focus_exec (materialize_bind_exec none empty) _ _)

theorem truncateResolved_simulates (len : Nat) (alike : Alike cell other) :
    Simulates Alike (vfs.truncateResolved len) (vfs.truncateResolved len) cell other := by
  cases alike with
  | same => exact simulates_refl .same _ cell
  | loaded key mode released buffer none empty =>
      have alike := Alike.loaded key mode released buffer none empty
      unfold S3Vfs.truncateResolved
      refine Simulates.get_bind (Simulates.refuse_bind alike fun _ =>
        Simulates.refuse_bind alike fun _ => ?_)
      exact simulates_of_eq .same (focus_exec (materialize_bind_exec none empty) _ _)

theorem abortResolved_simulates (alike : Alike cell other) :
    Simulates Alike vfs.abortResolved vfs.abortResolved cell other := by
  cases alike with
  | same => exact simulates_refl .same _ cell
  | loaded key mode released buffer none empty =>
      unfold S3Vfs.abortResolved
      exact Simulates.get_bind (Simulates.set_bind
        (simulates_pure () (.loaded key mode true buffer none empty)))

/-- A close sends the same bytes from both, and it sends nothing from a clean buffer. -/
theorem closeResolved_simulates (alike : Alike cell other) :
    Simulates Alike vfs.closeResolved vfs.closeResolved cell other := by
  cases alike with
  | same => exact simulates_refl .same _ cell
  | loaded key mode released buffer none empty =>
      unfold S3Vfs.closeResolved S3Vfs.commit
      refine Simulates.get_bind (Simulates.set_bind (Simulates.get_bind ?_))
      by_cases dirty : buffer.dirty = true
      · refine simulates_of_eq .same (focus_exec ?_ _ _)
        unfold S3Vfs.commitBuffer
        change exec (if ¬ buffer.dirty then _ else _) buffer = exec (if ¬ buffer.dirty then _ else _) _
        rw [if_neg (not_not.mpr dirty), if_neg (not_not.mpr dirty), none]
        rfl
      · have clean : ∀ first : Buffer, first.dirty = buffer.dirty →
            (vfs.commitBuffer key).exec first = .pure (.ok (), first) := by
          intro first same
          unfold S3Vfs.commitBuffer
          change exec (if ¬ first.dirty then _ else _) first = _
          rw [same, if_pos dirty]
          rfl
        have parts : Simulates (fun left found => left = buffer ∧ found = { buffer with bytes := some [] })
            (vfs.commitBuffer key) (vfs.commitBuffer key) buffer { buffer with bytes := some [] } := by
          unfold Simulates
          rw [clean buffer rfl, clean { buffer with bytes := some [] } rfl]
          exact .pure ⟨rfl, rfl, rfl⟩
        refine parts.focus ?_
        rintro _ _ ⟨rfl, rfl⟩
        exact .loaded key mode true _ none empty

end Cells

/-- The tables have alike handles under the same numbers. -/
structure AlikeTables (first second : State) : Prop where
  next : first.nextHandle = second.nextHandle
  cells : ∀ number, Option.Rel Alike (first.handles.get number) (second.handles.get number)

section Tables
variable {vfs : S3Vfs} {first second : State} {handle : Nat}

theorem AlikeTables.refl (state : State) : AlikeTables state state where
  next := rfl
  cells number := by
    cases state.handles.get number with
    | none => exact .none
    | some cell => exact .some (.same cell)

theorem AlikeTables.insert (alike : AlikeTables first second) {cell other : HandleState}
    (here : Alike cell other) :
    AlikeTables { first with handles := first.handles.insert handle cell }
      { second with handles := second.handles.insert handle other } where
  next := alike.next
  cells number := by
    rw [OrderedMap.get_insert, OrderedMap.get_insert]
    split
    · exact .some here
    · exact alike.cells number

theorem AlikeTables.erase (alike : AlikeTables first second) :
    AlikeTables { first with handles := first.handles.erase handle }
      { second with handles := second.handles.erase handle } where
  next := alike.next
  cells number := by
    rw [OrderedMap.get_erase, OrderedMap.get_erase]
    split
    · exact .none
    · exact alike.cells number

/-- The handle is missing from both tables, or it is alike in them. -/
theorem AlikeTables.lookup (alike : AlikeTables first second) (handle : Nat) :
    (first.handles.get handle = none ∧ second.handles.get handle = none) ∨
    ∃ cell other, first.handles.get handle = some cell ∧ second.handles.get handle = some other ∧
      Alike cell other := by
  have here := alike.cells handle
  generalize first.handles.get handle = left at here ⊢
  generalize second.handles.get handle = right at here ⊢
  cases here with
  | none => exact .inl ⟨rfl, rfl⟩
  | some same => exact .inr ⟨_, _, rfl, rfl, same⟩

theorem onHandle_simulates {α : Type} {task : S3Task HandleState α}
    (simulates : ∀ cell other, Alike cell other → Simulates Alike task task cell other)
    (alike : AlikeTables first second) :
    Simulates AlikeTables (S3Vfs.onHandle handle task) (S3Vfs.onHandle handle task) first second := by
  unfold S3Vfs.onHandle
  refine Simulates.get_bind ?_
  rcases alike.lookup handle with ⟨left, right⟩ | ⟨cell, other, left, right, here⟩
  · simp only [left, right, Call.okOr_none, lift_error_bind]
    exact simulates_throw _ alike
  · simp only [left, right, Call.okOr_some, lift_ok_bind]
    exact (simulates cell other here).focus fun _ _ kept => alike.insert kept

theorem onRemoved_simulates {α : Type} {task : S3Task HandleState α}
    (simulates : ∀ cell other, Alike cell other → Simulates Alike task task cell other)
    (alike : AlikeTables first second) :
    Simulates AlikeTables (S3Vfs.onRemoved handle task) (S3Vfs.onRemoved handle task) first
      second := by
  unfold S3Vfs.onRemoved
  refine Simulates.get_bind ?_
  rcases alike.lookup handle with ⟨left, right⟩ | ⟨cell, other, left, right, here⟩
  · simp only [left, right, Call.okOr_none, lift_error_bind]
    exact simulates_throw _ alike
  · simp only [left, right, Call.okOr_some, lift_ok_bind]
    exact (simulates cell other here).focus fun _ _ _ => alike.erase

theorem open_simulates (path : Text) (mode : OpenMode) (alike : AlikeTables first second) :
    Simulates AlikeTables (vfs.open path mode) (vfs.open path mode) first second := by
  unfold S3Vfs.open
  refine (simulates_perform _ alike).bind ?_
  intro cell first second alike
  unfold S3Vfs.insertHandle
  refine Simulates.get_bind ?_
  rw [alike.next]
  cases checkedAdd second.nextHandle 1 with
  | none => exact simulates_throw _ alike
  | some next =>
      have stored : AlikeTables
          { first with handles := first.handles.insert second.nextHandle cell }
          { second with handles := second.handles.insert second.nextHandle cell } :=
        alike.insert (.same cell)
      simp only [Call.okOr_some, lift_ok_bind]
      exact Simulates.set_bind (simulates_pure _ ⟨rfl, stored.cells⟩)

/-- Every call sends the same requests from alike tables. -/
theorem call_simulates (call : VfsCall) (alike : AlikeTables first second) :
    Simulates AlikeTables (vfs.call call) (vfs.call call) first second := by
  cases call with
  | «open» path mode => exact (open_simulates path mode alike).map
  | readAt number offset bufLen =>
      exact (onHandle_simulates (fun _ _ => readResolved_simulates offset bufLen) alike).map
  | writeAt number offset data =>
      exact (onHandle_simulates (fun _ _ => writeResolved_simulates offset data) alike).map
  | truncate number len =>
      exact (onHandle_simulates (fun _ _ => truncateResolved_simulates len) alike).map
  | close number => exact (onRemoved_simulates (fun _ _ => closeResolved_simulates) alike).map
  | abort number => exact (onRemoved_simulates (fun _ _ => abortResolved_simulates) alike).map
  | _ => exact (simulates_perform _ alike).map

theorem calls_simulates (later : List VfsCall) (alike : AlikeTables first second) :
    Simulates AlikeTables (vfs.calls later) (vfs.calls later) first second := by
  induction later generalizing first second with
  | nil => exact simulates_pure [] alike
  | cons call rest ih =>
      refine (call_simulates call alike).attempt.bind ?_
      intro reply first second alike
      refine (ih alike).bind ?_
      intro others first second alike
      exact simulates_pure _ alike

theorem AlikeTables.sameLater (alike : AlikeTables first second) : SameLater vfs first second := by
  intro later
  have same : Simulates AlikeTables (vfs.calls later) (vfs.calls later) first second :=
    calls_simulates later alike
  exact same.map_eq fun _ _ reached => reached.1

end Tables

end TinySandbox.S3
