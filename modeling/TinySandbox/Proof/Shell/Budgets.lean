/-
This file shows that an expansion stays within its budget: what it keeps is paid for, its results
are those of every larger budget, and no string on the way is longer than the budget.
-/

import TinySandbox.Construction.Sandbox.Exec
import TinySandbox.Construction.Shell.Expansion
import TinySandbox.Proof.Shell.FieldSplitting

namespace TinySandbox.Shell
open Library Budget

section Observations
variable {α β γ σ : Type}

/-- The log changes nothing of an expansion. -/
def Observes (observed : Observed α) (budget : Budget α) : Prop :=
  ∀ left log, (observed left log).1 = budget left

/-- The logged strings stay below the bound, and what holds of the result is told. -/
def Bounded (bound : Nat) (observed : Observed α) (left : Nat) (post : α → Nat → Prop) : Prop :=
  ∀ log, (∀ text ∈ log, utf8Len text ≤ bound) →
    (∀ text ∈ (observed left log).2, utf8Len text ≤ bound) ∧
      ∀ value rest, (observed left log).1 = some (value, rest) → post value rest

theorem Observed.bind_apply (observed : Observed α) (next : α → Observed β) (left : Nat)
    (log : List Text) :
    (observed >>= next) left log =
      match observed left log with
      | (none, log) => (none, log)
      | (some (value, rest), log) => next value rest log := by
  simp only [Bind.bind, StateT.bind, OptionT.bind, OptionT.mk]
  rcases observed left log with ⟨_ | ⟨value, rest⟩, log⟩ <;> rfl

theorem Observes.pure (value : α) : Observes (Pure.pure value) (Pure.pure value) :=
  fun _ _ => rfl

theorem Observes.charge (bytes : Nat) : Observes (Observed.charge bytes) (Budget.charge bytes) :=
  fun _ _ => rfl

theorem Observes.bind {observed : Observed α} {budget : Budget α} {next : α → Observed β}
    {follow : α → Budget β} (first : Observes observed budget)
    (second : ∀ value, Observes (next value) (follow value)) :
    Observes (observed >>= next) (budget >>= follow) := by
  intro left log
  have same := first left log
  rw [Observed.bind_apply]
  change _ = (budget left).bind fun done => follow done.1 done.2
  rcases step : observed left log with ⟨_ | ⟨value, rest⟩, after⟩
  · rw [step] at same
    rw [← same]
    rfl
  · rw [step] at same
    rw [← same]
    exact second value rest after

theorem Observes.hold {text : Text} {next : Unit → Observed β} {follow : Budget β}
    (second : Observes (next ()) follow) : Observes (Observed.hold text >>= next) follow := by
  intro left log
  rw [Observed.bind_apply]
  exact second left _

theorem Observes.foldlM {step : σ → γ → Observed σ} {move : σ → γ → Budget σ}
    (each : ∀ state item, Observes (step state item) (move state item)) (items : List γ) (state : σ) :
    Observes (items.foldlM step state) (items.foldlM move state) := by
  induction items generalizing state with
  | nil => exact Observes.pure state
  | cons item items ih =>
      rw [List.foldlM_cons, List.foldlM_cons]
      exact (each state item).bind ih

theorem Observes.mapM {step : γ → Observed β} {move : γ → Budget β}
    (each : ∀ item, Observes (step item) (move item)) (items : List γ) :
    Observes (items.mapM step) (items.mapM move) := by
  induction items with
  | nil => exact Observes.pure []
  | cons item items ih =>
      rw [List.mapM_cons, List.mapM_cons]
      apply (each item).bind
      intro value
      apply ih.bind
      intro values
      exact Observes.pure _

theorem Bounded.pure {bound left : Nat} {value : α} {post : α → Nat → Prop}
    (holds : post value left) : Bounded bound (Pure.pure value) left post := by
  intro log short
  refine ⟨short, ?_⟩
  rintro _ _ ⟨⟩
  exact holds

theorem Bounded.bind {bound left : Nat} {observed : Observed α} {next : α → Observed β}
    {middle : α → Nat → Prop} {post : β → Nat → Prop} (first : Bounded bound observed left middle)
    (second : ∀ value rest, middle value rest → Bounded bound (next value) rest post) :
    Bounded bound (observed >>= next) left post := by
  intro log short
  rw [Observed.bind_apply]
  obtain ⟨below, reached⟩ := first log short
  rcases step : observed left log with ⟨_ | ⟨value, rest⟩, after⟩
  · rw [step] at below
    exact ⟨below, nofun⟩
  · rw [step] at below reached
    exact second value rest (reached value rest rfl) after below

theorem Bounded.charged {bound left bytes : Nat} {next : Unit → Observed β}
    {post : β → Nat → Prop} (second : ∀ rest, rest + bytes = left → Bounded bound (next ()) rest post) :
    Bounded bound (Observed.charge bytes >>= next) left post := by
  intro log short
  rw [Observed.bind_apply, Observed.charge]
  split_ifs with enough
  · exact second (left - bytes) (Nat.sub_add_cancel enough) log short
  · exact ⟨short, nofun⟩

theorem Bounded.hold {bound left : Nat} {text : Text} {next : Unit → Observed β}
    {post : β → Nat → Prop} (fits : utf8Len text ≤ bound)
    (second : Bounded bound (next ()) left post) :
    Bounded bound (Observed.hold text >>= next) left post := by
  intro log short
  rw [Observed.bind_apply]
  apply second
  intro other member
  rcases List.mem_append.mp member with old | new
  · exact short other old
  · rw [List.mem_singleton.mp new]
    exact fits

/-- A loop keeps what each of its steps keeps. -/
theorem Bounded.foldlM {bound left : Nat} {step : σ → γ → Observed σ} {holds : σ → Nat → Prop}
    (each : ∀ state item left, holds state left → Bounded bound (step state item) left holds)
    (items : List γ) {state : σ} (start : holds state left) :
    Bounded bound (items.foldlM step state) left holds := by
  induction items generalizing state left with
  | nil => exact Bounded.pure start
  | cons item items ih =>
      rw [List.foldlM_cons]
      apply (each state item left start).bind
      intro next rest kept
      exact ih kept

theorem Bounded.mapM {bound left : Nat} {step : γ → Observed β} {holds : Nat → Prop}
    (each : ∀ item left, holds left → Bounded bound (step item) left fun _ => holds)
    (items : List γ) (start : holds left) :
    Bounded bound (items.mapM step) left fun _ => holds := by
  induction items generalizing left with
  | nil => exact Bounded.pure start
  | cons item items ih =>
      rw [List.mapM_cons]
      apply (each item left start).bind
      intro value rest kept
      apply (ih kept).bind
      intro values later held
      exact Bounded.pure held

end Observations

section Erasure
variable {env : Env} {status : Int}

theorem observes_pushField (state : Fields) :
    Observes (Observed.pushField state) (Budget.pushField state) := by
  apply (Observes.charge _).bind
  intro _
  exact Observes.pure _

theorem observes_splitPart (state : Fields) (part : Text) :
    Observes (Observed.splitPart state part) (Budget.splitPart state part) := by
  unfold Observed.splitPart Budget.splitPart
  dsimp only
  apply Observes.hold
  split_ifs
  · exact observes_pushField _
  · exact Observes.pure _
  · exact observes_pushField _
  · exact Observes.pure _

theorem observes_expandSegment (split : Bool) (state : Fields) (segment : Segment) :
    Observes (Observed.expandSegment env status split state segment)
      (Budget.expandSegment env status split state segment) := by
  unfold Observed.expandSegment Budget.expandSegment
  dsimp only
  apply (Observes.charge _).bind
  intro _
  split_ifs
  · exact Observes.foldlM observes_splitPart _ state
  · apply Observes.hold
    exact Observes.pure _

theorem observes_word (word : Word) (env : Env) (split : Bool) :
    Observes (Observed.word word env status split) (Budget.word word env status split) := by
  apply (Observes.foldlM (observes_expandSegment split) word.segments _).bind
  intro state
  unfold Observed.finishWord
  split_ifs
  · apply (observes_pushField state).bind
    intro pushed
    exact Observes.pure _
  · exact Observes.pure _

theorem observes_chargeEnv (entries : List (Text × Text)) :
    Observes (Observed.chargeEnv entries) (Budget.chargeEnv entries) := by
  induction entries with
  | nil => exact Observes.pure ()
  | cons entry entries ih =>
      apply (Observes.charge _).bind
      intro _
      apply (Observes.charge _).bind
      intro _
      apply (Observes.charge _).bind
      intro _
      exact ih

theorem observes_assign (env : Env) (assignment : Assignment) :
    Observes (Observed.assign status env assignment) (Budget.assign status env assignment) := by
  apply (Observes.charge _).bind
  intro _
  apply (Observes.charge _).bind
  intro _
  apply (observes_word assignment.value env false).bind
  intro fields
  cases fields.getLast? with
  | none => exact fun _ _ => rfl
  | some value => exact Observes.pure _

theorem observes_expandTarget (env : Env) (redirect : Redirect) :
    Observes (Observed.expandTarget env status redirect)
      (Budget.expandTarget env status redirect) := by
  apply (Observes.charge _).bind
  intro _
  cases redirect.target with
  | word target => exact observes_word target env true
  | fd fd => exact Observes.pure _

theorem observes_expand (command : SimpleCommand) (base : Env) :
    Observes (Observed.expand command base status) (Budget.expand command base status) := by
  apply (Observes.charge _).bind
  intro _
  apply (observes_chargeEnv base.entries).bind
  intro _
  apply (Observes.foldlM observes_assign command.assignments base).bind
  intro env
  apply (Observes.mapM (fun word => observes_word word base true) command.words).bind
  intro fields
  apply (Observes.mapM (observes_expandTarget _) command.redirects).bind
  intro targets
  exact Observes.pure _

theorem observes_expandStages (commands : List Command) (env : Env) (status : Int) :
    Observes (Observed.expandStages commands env status) (expandStages commands env status) := by
  apply Observes.mapM
  rintro ⟨simple⟩
  exact observes_expand simple env

end Erasure

section Bounds
variable {env : Env} {status : Int} {bound left : Nat}

/-- The string of the current field and the bytes that are left fit into the budget together. -/
def Fits (bound : Nat) (state : Fields) (left : Nat) : Prop :=
  utf8Len state.current + left ≤ bound

theorem bounded_pushField {room : Nat} {state : Fields} (fits : Fits room state left) :
    Bounded bound (Observed.pushField state) left (Fits room) := by
  apply Bounded.charged
  intro rest paid
  apply Bounded.pure
  unfold Fits at fits ⊢
  change 0 + rest ≤ room
  omega

theorem utf8Len_dropLast (text : Text) : utf8Len text.dropLast ≤ utf8Len text := by
  rcases List.eq_nil_or_concat text with rfl | ⟨front, last, rfl⟩
  · exact Nat.le_refl _
  · rw [List.concat_eq_append, List.dropLast_concat, utf8Len_append]
    exact Nat.le_add_right _ _

/-- The text of a part was charged with the value, so the string may grow by it. -/
theorem bounded_splitPart {room : Nat} (within : room ≤ bound) {state : Fields} {part : Text}
    (fits : utf8Len state.current + utf8Len part + left ≤ room) :
    Bounded bound (Observed.splitPart state part) left (Fits room) := by
  have grown : ∀ text : Text, utf8Len text ≤ utf8Len part → ∀ keep,
      Fits room { state with current := state.current ++ text, keep } left := by
    intro text short keep
    unfold Fits
    rw [utf8Len_append]
    omega
  have fits_text : ∀ text : Text, utf8Len text ≤ utf8Len part →
      utf8Len (state.current ++ text) ≤ bound := by
    intro text short
    rw [utf8Len_append]
    omega
  unfold Observed.splitPart
  dsimp only
  split_ifs with separated keep keep
  · apply Bounded.hold (fits_text _ (utf8Len_dropLast part))
    exact bounded_pushField (grown _ (utf8Len_dropLast part) _)
  · apply Bounded.hold (fits_text _ (utf8Len_dropLast part))
    exact Bounded.pure (grown _ (utf8Len_dropLast part) _)
  · exact absurd keep.1 separated
  · apply Bounded.hold (fits_text _ (Nat.le_refl _))
    exact Bounded.pure (grown _ (Nat.le_refl _) _)

theorem bounded_parts {parts : List Text} {state : Fields}
    (fits : utf8Len state.current + utf8Len parts.flatten + left ≤ bound) :
    Bounded bound (parts.foldlM Observed.splitPart state) left (Fits bound) := by
  induction parts generalizing state left with
  | nil => exact Bounded.pure fits
  | cons part parts ih =>
      rw [List.flatten_cons, utf8Len_append] at fits
      rw [List.foldlM_cons]
      -- The parts that follow keep their share of the bound.
      have room : utf8Len state.current + utf8Len part + left ≤ bound - utf8Len parts.flatten := by
        omega
      apply (bounded_splitPart (Nat.sub_le _ _) room).bind
      intro next rest held
      apply ih
      unfold Fits at held
      omega

theorem bounded_expandSegment (split : Bool) (state : Fields) (segment : Segment) (left : Nat)
    (fits : Fits bound state left) :
    Bounded bound (Observed.expandSegment env status split state segment) left (Fits bound) := by
  unfold Fits at fits
  unfold Observed.expandSegment
  dsimp only
  apply Bounded.charged
  intro rest paid
  have room : utf8Len state.current + utf8Len (segmentValue env status split segment).1 + rest ≤
      bound := by omega
  split_ifs
  · apply bounded_parts
    rw [splitInclusive_eq, flatten_splitAfter]
    exact room
  · have held : utf8Len (state.current ++ (segmentValue env status split segment).1) + rest ≤
        bound := by
      rw [utf8Len_append]
      exact room
    apply Bounded.hold (Nat.le_of_add_right_le held)
    exact Bounded.pure held

theorem bounded_word (word : Word) (env : Env) (split : Bool) (left : Nat) (enough : left ≤ bound) :
    Bounded bound (Observed.word word env status split) left fun _ rest => rest ≤ bound := by
  have start : Fits bound { keep := ! split } left := by
    unfold Fits
    change 0 + left ≤ bound
    omega
  apply (Bounded.foldlM (bounded_expandSegment split) word.segments start).bind
  intro state rest fits
  have within : rest ≤ bound := Nat.le_of_add_left_le fits
  unfold Observed.finishWord
  split_ifs
  · apply (bounded_pushField fits).bind
    intro pushed later held
    exact Bounded.pure (Nat.le_of_add_left_le held)
  · exact Bounded.pure within

theorem bounded_chargeEnv (entries : List (Text × Text)) (enough : left ≤ bound) :
    Bounded bound (Observed.chargeEnv entries) left fun _ rest => rest ≤ bound := by
  induction entries generalizing left with
  | nil => exact Bounded.pure enough
  | cons entry entries ih =>
      apply Bounded.charged
      intro first _
      apply Bounded.charged
      intro second _
      apply Bounded.charged
      intro third _
      exact ih (by omega)

theorem bounded_assign (env : Env) (assignment : Assignment) (left : Nat) (enough : left ≤ bound) :
    Bounded bound (Observed.assign status env assignment) left fun _ rest => rest ≤ bound := by
  apply Bounded.charged
  intro first _
  apply Bounded.charged
  intro second _
  apply (bounded_word assignment.value env false second (by omega)).bind
  intro fields rest within
  cases fields.getLast? with
  | none => exact fun log short => ⟨short, nofun⟩
  | some value => exact Bounded.pure within

theorem bounded_expandTarget (env : Env) (redirect : Redirect) (left : Nat) (enough : left ≤ bound) :
    Bounded bound (Observed.expandTarget env status redirect) left fun _ rest => rest ≤ bound := by
  apply Bounded.charged
  intro rest _
  cases redirect.target with
  | word target => exact bounded_word target env true rest (by omega)
  | fd fd => exact Bounded.pure (by omega)

theorem bounded_expand (command : SimpleCommand) (base : Env) (left : Nat) (enough : left ≤ bound) :
    Bounded bound (Observed.expand command base status) left fun _ rest => rest ≤ bound := by
  apply Bounded.charged
  intro first _
  apply (bounded_chargeEnv base.entries (by omega)).bind
  intro _ second within
  apply (Bounded.foldlM (fun env assignment left enough => bounded_assign env assignment left enough)
    command.assignments within).bind
  intro env third within
  apply (Bounded.mapM (fun word left enough => bounded_word word base true left enough)
    command.words within).bind
  intro fields fourth within
  apply (Bounded.mapM (bounded_expandTarget _) command.redirects within).bind
  intro targets rest within
  exact Bounded.pure within

/-- Every string of a field that the pipeline builds stays below its budget. -/
theorem bounded_expandStages (commands : List Command) (env : Env) (status : Int) (bound : Nat) :
    ∀ text ∈ (Observed.expandStages commands env status bound []).2, utf8Len text ≤ bound := by
  have stages : Bounded bound (Observed.expandStages commands env status) bound
      fun _ rest => rest ≤ bound := by
    apply @Bounded.mapM _ _ bound bound _ (fun rest => rest ≤ bound) _ commands (Nat.le_refl bound)
    rintro ⟨simple⟩ left enough
    exact bounded_expand simple env left enough
  exact (stages [] nofun).1

end Bounds

/-- What a stage keeps: its environment, its words and its targets. -/
def retainedBytes (expanded : ExpandedCommand) : Nat :=
  (expanded.env.entries.map fun entry => utf8Len entry.1 + utf8Len entry.2).sum +
    ((expanded.words.map utf8Len).sum + (expanded.targets.flatten.map utf8Len).sum)

/-- Every assignment, word and target gives its own fields. -/
def producedFields (expanded : ExpandedCommand) : Nat :=
  expanded.syntaxTree.assignments.length + (expanded.words.length + expanded.targets.flatten.length)

section Retained
variable {env : Env} {status : Int}

theorem textOf_cons (mark : Mark) (marks : List Mark) :
    textOf (mark :: marks) = textOf [mark] ++ textOf marks :=
  textOf_append [mark] marks

theorem flatten_piecesOf (marks : List Mark) : ((piecesOf marks).map textOf).flatten = textOf marks := by
  induction marks with
  | nil => rfl
  | cons mark marks ih =>
      by_cases separates : mark = .separator
      · subst separates
        rw [piecesOf_separator, List.map_cons, List.flatten_cons, ih]
        rfl
      · rw [piecesOf_other separates]
        obtain ⟨piece, pieces, split⟩ := List.exists_cons_of_ne_nil
          (show piecesOf marks ≠ [] from List.splitOnP_ne_nil _ _)
        rw [split, List.map_cons, List.flatten_cons] at ih
        rw [split, List.modifyHead_cons, List.map_cons, List.flatten_cons, textOf_cons mark piece,
          textOf_cons mark marks, List.append_assoc, ih]

theorem utf8Len_flatten (texts : List Text) : utf8Len texts.flatten = (texts.map utf8Len).sum := by
  induction texts with
  | nil => rfl
  | cons text texts ih => rw [List.flatten_cons, utf8Len_append, ih, List.map_cons, List.sum_cons]

theorem utf8Len_sublist {first second : Text} (sub : first.Sublist second) :
    utf8Len first ≤ utf8Len second :=
  (sub.map _).sum_le_sum fun _ _ => Nat.zero_le _

theorem textOf_text (text : Text) : textOf (text.map .text) = text := by
  induction text with
  | nil => rfl
  | cons symbol text ih =>
      change symbol :: textOf (text.map .text) = _
      rw [ih]

theorem textOf_markOf (text : Text) : (textOf (text.map markOf)).Sublist text := by
  induction text with
  | nil => exact List.Sublist.slnil
  | cons symbol text ih =>
      rw [List.map_cons, textOf_cons, markOf]
      split_ifs
      · exact ih.cons symbol
      · exact ih.cons_cons symbol

/-- The marks of a segment only lose separators. -/
theorem textOf_marksOf (env : Env) (status : Int) (segment : Segment) :
    (textOf (marksOf env status segment)).Sublist (segmentText env status segment) := by
  unfold marksOf
  split_ifs
  · exact textOf_markOf _
  · change (textOf ((segmentText env status segment).map .text)).Sublist _
    rw [textOf_text]

theorem textOf_segments (env : Env) (status : Int) (segments : List Segment) :
    (textOf (segments.flatMap (marksOf env status))).Sublist
      (segments.flatMap (segmentText env status)) := by
  induction segments with
  | nil => exact List.Sublist.slnil
  | cons segment segments ih =>
      rw [List.flatMap_cons, List.flatMap_cons, textOf_append]
      exact (textOf_marksOf env status segment).append ih

/-- The fields of a word have no more bytes than its values. -/
theorem fields_bytes (env : Env) (status : Int) (word : Word) :
    ((fieldsOf env status word).map utf8Len).sum ≤ utf8Len (plainText env status word) := by
  let marks := word.segments.flatMap (marksOf env status)
  calc ((fieldsOf env status word).map utf8Len).sum
      ≤ (((piecesOf marks).map textOf).map utf8Len).sum :=
        ((List.filter_sublist.map textOf).map utf8Len).sum_le_sum fun _ _ => Nat.zero_le _
    _ = utf8Len (textOf marks) := by rw [← utf8Len_flatten, flatten_piecesOf]
    _ ≤ utf8Len (plainText env status word) :=
        utf8Len_sublist (textOf_segments env status word.segments)

theorem wordCost_pays (env : Env) (status : Int) (word : Word) :
    ((fieldsOf env status word).map utf8Len).sum +
      sizeOfString * (fieldsOf env status word).length ≤ wordCost env status word :=
  Nat.add_le_add_right (fields_bytes env status word) _

def envBytes (env : Env) : Nat := (env.entries.map fun entry => utf8Len entry.1 + utf8Len entry.2).sum

theorem envBytes_insert (env : Env) (name value : Text) :
    envBytes (env.insert name value) ≤ envBytes env + (utf8Len name + utf8Len value) := by
  have traded := Entries.total_insert (fun entry => utf8Len entry.1 + utf8Len entry.2) env.sorted
    name value
  exact Nat.le.intro traded

/-- The environment of a stage is paid for by the base and by the assignments. -/
theorem envBytes_assigned (status : Int) (assignments : List Assignment) (base : Env) :
    envBytes (assignments.foldl (assigned status) base) + sizeOfString * assignments.length ≤
      envBytes base + foldCost (assignCost status) (assigned status) base assignments := by
  induction assignments generalizing base with
  | nil => exact Nat.le_refl _
  | cons assignment assignments ih =>
      have rest := ih (assigned status base assignment)
      have here := envBytes_insert base assignment.name (plainText base status assignment.value)
      rw [List.foldl_cons, List.length_cons, foldCost]
      change envBytes (assigned status base assignment) ≤ _ at here
      have price : assignCost status base assignment = sizeOfString + (utf8Len assignment.name +
        (utf8Len (plainText base status assignment.value) + sizeOfString)) := rfl
      rw [Nat.mul_succ]
      omega

theorem envBytes_le_envCost (base : Env) : envBytes base ≤ envCost base.entries := by
  unfold envBytes envCost
  apply List.sum_le_sum
  intro entry _
  omega

/-- Fields that are paid one list at a time are paid together. -/
theorem fields_paid {γ : Type} {output : γ → List Text} {price : γ → Nat}
    (each : ∀ item, ((output item).map utf8Len).sum + sizeOfString * (output item).length ≤ price item)
    (items : List γ) :
    ((items.flatMap output).map utf8Len).sum + sizeOfString * (items.flatMap output).length ≤
      (items.map price).sum := by
  induction items with
  | nil => exact Nat.le_refl _
  | cons item items ih =>
      have here := each item
      rw [List.flatMap_cons, List.map_append, List.sum_append, List.length_append, List.map_cons,
        List.sum_cons, Nat.mul_add]
      omega

theorem targetCost_pays (env : Env) (status : Int) (redirect : Redirect) :
    ((targetOf env status redirect).map utf8Len).sum +
      sizeOfString * (targetOf env status redirect).length ≤ targetCost env status redirect := by
  unfold targetOf targetCost
  cases redirect.target with
  | word target => exact Nat.le_add_left_of_le (wordCost_pays env status target)
  | fd fd => exact Nat.zero_le _

/-- What a stage keeps is paid for. -/
theorem expandCost_pays (command : SimpleCommand) (base : Env) (status : Int) :
    retainedBytes (expansionOf command base status) +
      sizeOfString * producedFields (expansionOf command base status) ≤
        expandCost command base status := by
  have env := envBytes_assigned status command.assignments base
  have paid := envBytes_le_envCost base
  have words := fields_paid (wordCost_pays base status) command.words
  have targets := fields_paid (targetCost_pays
    (if (expansionOf command base status).words = [] then (expansionOf command base status).env
      else base) status) command.redirects
  have same : (expansionOf command base status).targets.flatten = command.redirects.flatMap
      (targetOf (if (expansionOf command base status).words = [] then
        (expansionOf command base status).env else base) status) := rfl
  unfold retainedBytes producedFields expandCost
  rw [same, Nat.mul_add, Nat.mul_add]
  change envBytes (command.assignments.foldl (assigned status) base) + _ + _ ≤ _
  change _ + (((command.words.flatMap (fieldsOf base status)).map utf8Len).sum + _) +
    (sizeOfString * command.assignments.length +
      (sizeOfString * (command.words.flatMap (fieldsOf base status)).length + _)) ≤ _
  omega

end Retained
section Stages

def stageOf (env : Env) (status : Int) : Command → ExpandedCommand
  | .simple simple => expansionOf simple env status

def stageCost (env : Env) (status : Int) : Command → Nat
  | .simple simple => expandCost simple env status

theorem costs_expandStages (commands : List Command) (env : Env) (status : Int) :
    Costs (expandStages commands env status) (commands.map (stageCost env status)).sum
      (commands.map (stageOf env status)) := by
  apply Costs.mapM
  rintro ⟨simple⟩ _
  exact costs_expandCommand simple env status

theorem stageCost_pays (env : Env) (status : Int) (commands : List Command) :
    ((commands.map (stageOf env status)).map fun expanded =>
      retainedBytes expanded + sizeOfString * producedFields expanded).sum ≤
        (commands.map (stageCost env status)).sum := by
  rw [List.map_map]
  apply List.sum_le_sum
  rintro ⟨simple⟩ _
  exact expandCost_pays simple env status

/-- An expansion that succeeds has its exact cost in the budget. -/
theorem Costs.enough {α : Type} {budget : Budget α} {cost left rest : Nat} {value result : α}
    (costs : Costs budget cost value) (done : budget left = some (result, rest)) :
    cost ≤ left ∧ result = value := by
  have run := costs left
  change budget left = _ at run
  rw [done] at run
  split_ifs at run with enough
  · obtain ⟨same, -⟩ := Prod.mk.inj (Option.some.inj run)
    exact ⟨enough, same⟩

/-- The stages of a pipeline keep no more than the budget, they expand alike under every budget that
is large enough, and the strings on the way stay below the budget even when it runs out. -/
theorem budget_sound (commands : List Command) (env : Env) (status : Int) (bound : Nat) :
    (∀ expanded rest, expandStages commands env status bound = some (expanded, rest) →
      (expanded.map fun stage => retainedBytes stage + sizeOfString * producedFields stage).sum ≤
        bound) ∧
    (∀ other expanded others rest later,
      expandStages commands env status bound = some (expanded, rest) →
        expandStages commands env status other = some (others, later) → others = expanded) ∧
    (∀ larger expanded rest, bound ≤ larger →
      expandStages commands env status bound = some (expanded, rest) →
        ∃ later, expandStages commands env status larger = some (expanded, later)) ∧
    (Observed.expandStages commands env status bound []).1 =
      expandStages commands env status bound ∧
    ∀ text ∈ (Observed.expandStages commands env status bound []).2, utf8Len text ≤ bound := by
  have costs := costs_expandStages commands env status
  refine ⟨?_, ?_, ?_, observes_expandStages commands env status bound [],
    bounded_expandStages commands env status bound⟩
  · intro expanded rest done
    obtain ⟨enough, rfl⟩ := costs.enough done
    exact Nat.le_trans (stageCost_pays env status commands) enough
  · intro other expanded others rest later done again
    rw [(costs.enough done).2, (costs.enough again).2]
  · intro larger expanded rest more done
    obtain ⟨enough, rfl⟩ := costs.enough done
    have run := costs larger
    rw [if_pos (Nat.le_trans enough more)] at run
    exact ⟨_, run⟩

end Stages

section Executions
open Sandbox
variable {ω : Type} (host : ExecHost ω)

theorem expandStages_cons (simple : SimpleCommand) (commands : List Command) (env : Env)
    (status : Int) (left : Nat) :
    expandStages (.simple simple :: commands) env status left =
      match Budget.expand simple env status left with
      | none => none
      | some (command, left) => (expandStages commands env status left).map
          fun later => (command :: later.1, later.2) := by
  have shape : expandStages (.simple simple :: commands) env status = (do
      let command ← Budget.expand simple env status
      let later ← expandStages commands env status
      pure (command :: later)) := List.mapM_cons
  rw [shape]
  change (Budget.expand simple env status left).bind (fun done =>
    (expandStages commands env status done.2).bind fun later =>
      some (done.1 :: later.1, later.2)) = _
  rcases Budget.expand simple env status left with _ | ⟨command, left⟩
  · rfl
  · change (expandStages commands env status left).bind _ = (expandStages commands env status left).map _
    rcases expandStages commands env status left with _ | ⟨later, rest⟩ <;> rfl

theorem expandCommands_cons (simple : SimpleCommand) (commands : List Command) (left : Nat)
    (expanded : List ExpandedCommand) (current : Execution ω) :
    let after : Execution ω :=
      { current with exec := { current.exec with world := host.yieldNow current.exec.world } }
    expandCommands host (.simple simple :: commands) left expanded current =
      if host.isCancelled after.exec.world then (.cancelled, after)
      else
        match Budget.expand simple current.session.env current.exec.lastStatus left with
        | none => (.refused expansionMessage, after)
        | some (command, left) => expandCommands host commands left (expanded ++ [command]) after := by
  intro after
  change (if host.isCancelled after.exec.world = true then pure .cancelled else _ :
    Exec ω Admission) after = _
  split_ifs
  · rfl
  · change (match Budget.expand simple current.session.env current.exec.lastStatus left with
      | none => pure (.refused expansionMessage)
      | some (command, left) => expandCommands host commands left (expanded ++ [command]) :
        Exec ω Admission) after = _
    rcases Budget.expand simple current.session.env current.exec.lastStatus left with
      _ | ⟨command, left⟩ <;> rfl

/-- An execution that is not cancelled expands its pipeline under one budget. -/
theorem expandCommands_stages (commands : List Command) (left : Nat)
    (expanded : List ExpandedCommand) (current : Execution ω) :
    (expandCommands host commands left expanded current).1 = .cancelled ∨
    (expandCommands host commands left expanded current).1 =
      match expandStages commands current.session.env current.exec.lastStatus left with
      | none => .refused expansionMessage
      | some (stages, _) => .expanded (expanded ++ stages) := by
  induction commands generalizing left expanded current with
  | nil =>
      right
      change Admission.expanded expanded = Admission.expanded (expanded ++ [])
      rw [List.append_nil]
  | cons command commands ih =>
      obtain ⟨simple⟩ := command
      rw [expandCommands_cons, expandStages_cons]
      split_ifs
      · exact .inl rfl
      · rcases Budget.expand simple current.session.env current.exec.lastStatus left with
          _ | ⟨command, left⟩
        · exact .inr rfl
        · dsimp only
          rcases ih left (expanded ++ [command]) _ with cancelled | done
          · exact .inl cancelled
          · right
            rw [done]
            dsimp only
            rcases expandStages commands current.session.env current.exec.lastStatus left with
              _ | ⟨later, rest⟩
            · rfl
            · change Admission.expanded _ = Admission.expanded _
              rw [List.append_assoc]
              rfl

end Executions
end TinySandbox.Shell
