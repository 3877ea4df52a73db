/-
This file gives the steps of the parser on its cursor.
-/

import TinySandbox.Construction.Shell.Parser
import TinySandbox.Specification.ShellGrammar

namespace TinySandbox.Shell
open Library Library.Call

def kinds (tokens : List Token) : List TokenKind := tokens.map Token.kind

@[simp] theorem kinds_nil : kinds [] = [] := rfl

@[simp] theorem kinds_cons (token : Token) (tokens : List Token) :
    kinds (token :: tokens) = token.kind :: kinds tokens := rfl

@[simp] theorem kinds_append (first second : List Token) :
    kinds (first ++ second) = kinds first ++ kinds second := List.map_append

/-- Tokens whose kinds are cut in two are cut in two themselves. -/
theorem exists_of_kinds_append {used : List Token} {first second : List TokenKind}
    (cut : kinds used = first ++ second) :
    ∃ left right, used = left ++ right ∧ kinds left = first ∧ kinds right = second :=
  List.map_eq_append_iff.mp cut

theorem exists_of_kinds_cons {used : List Token} {first : TokenKind} {rest : List TokenKind}
    (cut : kinds used = first :: rest) :
    ∃ token later, used = token :: later ∧ token.kind = first ∧ kinds later = rest :=
  List.map_eq_cons_iff.mp cut

/-- The parse returns a value and moves the cursor. -/
def Returns {α : Type} (parse : Parse α) (before : Parser) (value : α) (after : Parser) : Prop :=
  outcome parse before = some (.ok value, after)

/-- The parse returns a value or an error. -/
def Total {α : Type} (parse : Parse α) (before : Parser) : Prop := outcome parse before ≠ none

/-- The cursor moves over the used tokens. -/
structure Moves (before : Parser) (used : List Token) (after : Parser) : Prop where
  rest : before.rest = used ++ after.rest
  consumed : after.consumed = used.reverse ++ before.consumed

/-- The next token, if there is one, is not of the given kinds. -/
def Before (excluded : TokenKind → Bool) (rest : List Token) : Prop :=
  ∀ token, rest.head? = some token → excluded token.kind = false

theorem before_nil (excluded : TokenKind → Bool) : Before excluded [] := by
  intro token found
  cases found

@[simp] theorem before_cons_iff {excluded : TokenKind → Bool} {token : Token}
    {rest : List Token} : Before excluded (token :: rest) ↔ excluded token.kind = false := by
  constructor
  · intro free
    exact free token rfl
  · intro free other found
    obtain rfl := Option.some.inj found
    exact free

section Rules
variable {α β : Type} {before after : Parser}

theorem returns_bind_iff {parse : Parse α} {next : α → Parse β} {value : β} :
    Returns (parse >>= next) before value after ↔
      ∃ found middle, Returns parse before found middle ∧ Returns (next found) middle value after := by
  unfold Returns
  rw [outcome_bind, Option.bind_eq_some_iff]
  constructor
  · intro ran
    obtain ⟨⟨result, middle⟩, first, second⟩ := ran
    cases result with
    | error error => cases second
    | ok found => exact ⟨found, middle, first, second⟩
  · intro ran
    obtain ⟨found, middle, first, second⟩ := ran
    exact ⟨(.ok found, middle), first, second⟩

@[simp] theorem returns_pure_iff {found value : α} :
    Returns (pure found) before value after ↔ value = found ∧ after = before := by
  unfold Returns
  rw [outcome_pure, Option.some.injEq, Prod.mk.injEq, Except.ok.injEq]
  exact and_congr eq_comm eq_comm

@[simp] theorem returns_throw_iff {error : ParseError} {value : α} :
    Returns (throw error : Parse α) before value after ↔ False := by
  unfold Returns
  rw [outcome_throw]
  simp

@[simp] theorem returns_get_iff {value : Parser} :
    Returns (get : Parse Parser) before value after ↔ value = before ∧ after = before := by
  unfold Returns
  rw [outcome_get, Option.some.injEq, Prod.mk.injEq, Except.ok.injEq]
  exact and_congr eq_comm eq_comm

theorem returns_get_bind_iff {next : Parser → Parse α} {value : α} :
    Returns (get >>= next) before value after ↔ Returns (next before) before value after := by
  rw [returns_bind_iff]
  constructor
  · intro ran
    obtain ⟨found, middle, got, ended⟩ := ran
    obtain ⟨rfl, rfl⟩ := returns_get_iff.mp got
    exact ended
  · intro ended
    exact ⟨before, before, returns_get_iff.mpr ⟨rfl, rfl⟩, ended⟩

@[simp] theorem returns_lift_iff {result : Except ParseError α} {value : α} :
    Returns (Call.lift result) before value after ↔ result = .ok value ∧ after = before := by
  unfold Returns
  rw [outcome_lift, Option.some.injEq, Prod.mk.injEq]
  exact and_congr Iff.rfl eq_comm

@[simp] theorem returns_refuse_iff {condition : Prop} [Decidable condition] {error : ParseError}
    {value : PUnit} :
    Returns (Call.refuse condition error) before value after ↔
      ¬ condition ∧ after = before := by
  unfold Returns
  rw [outcome_refuse, Option.some.injEq, Prod.mk.injEq]
  by_cases refused : condition
  · simp [refused]
  · simp [refused, eq_comm]

theorem total_bind {parse : Parse α} {next : α → Parse β} (first : Total parse before)
    (rest : ∀ value middle, Returns parse before value middle → Total (next value) middle) :
    Total (parse >>= next) before := by
  unfold Total
  rw [outcome_bind]
  cases ran : outcome parse before with
  | none => exact absurd ran first
  | some reached =>
      obtain ⟨result, middle⟩ := reached
      cases result with
      | error error => simp
      | ok value => exact rest value middle ran

theorem total_pure (value : α) : Total (pure value) before := by
  simp [Total]

theorem total_throw (error : ParseError) : Total (throw error : Parse α) before := by
  simp [Total]

theorem total_get : Total (get : Parse Parser) before := by
  simp [Total]

end Rules

section Moves
variable {first middle last : Parser}

theorem Moves.refl (parser : Parser) : Moves parser [] parser := ⟨rfl, rfl⟩

theorem Moves.trans {left right : List Token} (earlier : Moves first left middle)
    (later : Moves middle right last) : Moves first (left ++ right) last := by
  constructor
  · rw [earlier.rest, later.rest, List.append_assoc]
  · rw [later.consumed, earlier.consumed, List.reverse_append, List.append_assoc]

/-- A cursor that moves over two parts stands between them in the middle. -/
theorem Moves.split {left right : List Token} (moves : Moves first (left ++ right) last) :
    ∃ middle, Moves first left middle ∧ Moves middle right last := by
  refine ⟨{ consumed := left.reverse ++ first.consumed, rest := right ++ last.rest }, ?_, ?_⟩
  · exact ⟨by rw [moves.rest, List.append_assoc], rfl⟩
  · exact ⟨rfl, by rw [moves.consumed, List.reverse_append, List.append_assoc]⟩

theorem Moves.eq_of_nil (moves : Moves first [] last) : last = first := by
  obtain ⟨consumed, rest⟩ := last
  obtain ⟨rest', consumed'⟩ := moves
  cases first
  simp_all

theorem Moves.length {used : List Token} (moves : Moves first used last) :
    first.rest.length = used.length + last.rest.length := by
  rw [moves.rest, List.length_append]

end Moves

namespace Parser

variable {before after : Parser}

theorem returns_peek_iff {value : Option Token} :
    Returns peek before value after ↔ value = before.rest.head? ∧ after = before := by
  unfold peek
  rw [returns_bind_iff]
  constructor
  · intro ran
    obtain ⟨found, middle, got, ended⟩ := ran
    obtain ⟨rfl, rfl⟩ := returns_get_iff.mp got
    exact returns_pure_iff.mp ended
  · intro ended
    exact ⟨before, before, returns_get_iff.mpr ⟨rfl, rfl⟩, returns_pure_iff.mpr ended⟩

theorem returns_peek_bind_iff {α : Type} {next : Option Token → Parse α} {value : α} :
    Returns (peek >>= next) before value after ↔
      Returns (next before.rest.head?) before value after := by
  rw [returns_bind_iff]
  constructor
  · intro ran
    obtain ⟨found, middle, peeked, ended⟩ := ran
    obtain ⟨rfl, rfl⟩ := returns_peek_iff.mp peeked
    exact ended
  · intro ended
    exact ⟨_, before, returns_peek_iff.mpr ⟨rfl, rfl⟩, ended⟩

/-- A token is in front of the cursor, and the cursor moves behind it. -/
theorem returns_advance {token : Token} {rest : List Token} (next : before.rest = token :: rest) :
    Returns advance before () { consumed := token :: before.consumed, rest } := by
  unfold advance
  rw [returns_bind_iff]
  refine ⟨before, before, returns_get_iff.mpr ⟨rfl, rfl⟩, ?_⟩
  rw [next]
  rfl

theorem returns_advance_bind_iff {α : Type} {token : Token} {rest : List Token}
    (ahead : before.rest = token :: rest) {next : Unit → Parse α} {value : α} :
    Returns (advance >>= next) before value after ↔
      Returns (next ()) { consumed := token :: before.consumed, rest } value after := by
  have moved := returns_advance ahead
  rw [returns_bind_iff]
  constructor
  · intro ran
    obtain ⟨found, middle, advanced, ended⟩ := ran
    obtain ⟨-, rfl⟩ := Prod.mk.inj (Option.some.inj (advanced.symm.trans moved))
    exact ended
  · intro ended
    exact ⟨(), _, moved, ended⟩

theorem moves_one {token : Token} {rest : List Token} (ahead : before.rest = token :: rest) :
    Moves before [token] { consumed := token :: before.consumed, rest } :=
  ⟨ahead, rfl⟩

theorem returns_consumeIf_iff {wanted : TokenKind → Bool} {value : Bool} :
    Returns (consumeIf wanted) before value after ↔
      (value = true ∧ ∃ token, wanted token.kind = true ∧ Moves before [token] after) ∨
        (value = false ∧ Before wanted before.rest ∧ after = before) := by
  unfold consumeIf
  rw [returns_peek_bind_iff]
  obtain ⟨consumed, rest⟩ := before
  cases rest with
  | nil =>
      simp only [List.head?_nil, returns_pure_iff]
      constructor
      · intro ended
        exact .inr ⟨ended.1, before_nil _, ended.2⟩
      · intro cases'
        rcases cases' with ⟨-, token, -, moves⟩ | ⟨same, -, kept⟩
        · cases moves.rest
        · exact ⟨same, kept⟩
  | cons token rest =>
      simp only [List.head?_cons]
      by_cases found : wanted token.kind = true
      · rw [if_pos found, returns_advance_bind_iff rfl, returns_pure_iff]
        constructor
        · intro ended
          exact .inl ⟨ended.1, token, found, by rw [ended.2]; exact moves_one rfl⟩
        · intro cases'
          rcases cases' with ⟨same, other, -, moves⟩ | ⟨-, free, -⟩
          · refine ⟨same, ?_⟩
            have rests := moves.rest
            rw [List.singleton_append, List.cons.injEq] at rests
            obtain ⟨rfl, rfl⟩ := rests
            have consumes := moves.consumed
            cases after
            simpa using consumes
          · rw [before_cons_iff] at free
            rw [free] at found
            cases found
      · rw [if_neg found, returns_pure_iff]
        constructor
        · intro ended
          exact .inr ⟨ended.1, before_cons_iff.mpr (Bool.not_eq_true _ ▸ found), ended.2⟩
        · intro cases'
          rcases cases' with ⟨-, other, wants, moves⟩ | ⟨same, -, kept⟩
          · have rests := moves.rest
            rw [List.singleton_append, List.cons.injEq] at rests
            rw [rests.1] at found
            exact absurd wants found
          · exact ⟨same, kept⟩

theorem total_peek : Total peek before := by
  apply total_bind total_get
  intro parser middle got
  exact total_pure _

theorem total_advance : Total advance before := by
  apply total_bind total_get
  intro parser middle got
  cases parser.rest with
  | nil => exact total_pure ()
  | cons token rest =>
      unfold Total
      simp

theorem total_consumeIf (wanted : TokenKind → Bool) : Total (consumeIf wanted) before := by
  apply total_bind total_peek
  intro token middle peeked
  cases token with
  | none => exact total_pure false
  | some token =>
      dsimp only
      split
      · apply total_bind total_advance
        intro _ _ _
        exact total_pure true
      · exact total_pure false

end Parser

end TinySandbox.Shell
