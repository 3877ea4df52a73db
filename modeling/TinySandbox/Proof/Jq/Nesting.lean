/-
This file proves that the check of the nesting is exact on streams of JSON values, and that it
bounds the open brackets of whatever a parser consumes from other bytes.
-/

import TinySandbox.Construction.Jq.FilterSource
import TinySandbox.Specification.JsonTexts

namespace TinySandbox.Jq

/-! ## The lexemes -/

@[simp] theorem NestingScan.run_nil (scan : NestingScan) : scan.run [] = some scan := rfl

@[simp] theorem NestingScan.run_cons (scan : NestingScan) (byte : UInt8) (rest : Bytes) :
    scan.run (byte :: rest) = (scan.step byte).bind fun next => next.run rest := rfl

theorem NestingScan.run_append (scan : NestingScan) (first rest : Bytes) :
    scan.run (first ++ rest) = (scan.run first).bind fun next => next.run rest := by
  induction first generalizing scan with
  | nil => rfl
  | cons byte first ih =>
      rw [List.cons_append, run_cons, run_cons, Option.bind_assoc]
      exact congrArg _ (funext fun next => ih next)

/-- The depth behind a lexeme. -/
def Lexeme.climb (depth : Nat) : Lexeme → Option Nat
  | .opening _ => if maxJqJsonNesting < depth + 1 then none else some (depth + 1)
  | .closing _ => some (depth - 1)
  | _ => some depth

def climbs (depth : Nat) : List Lexeme → Option Nat
  | [] => some depth
  | lexeme :: rest => (lexeme.climb depth).bind fun next => climbs next rest

@[simp] theorem climbs_nil (depth : Nat) : climbs depth [] = some depth := rfl

@[simp] theorem climbs_cons (depth : Nat) (lexeme : Lexeme) (rest : List Lexeme) :
    climbs depth (lexeme :: rest) = (lexeme.climb depth).bind fun next => climbs next rest := rfl

theorem climbs_append (depth : Nat) (first rest : List Lexeme) :
    climbs depth (first ++ rest) = (climbs depth first).bind fun next => climbs next rest := by
  induction first generalizing depth with
  | nil => rfl
  | cons lexeme first ih =>
      rw [List.cons_append, climbs_cons, climbs_cons, Option.bind_assoc]
      exact congrArg _ (funext fun next => ih next)

theorem run_pieces (depth : Nat) (pieces : List StringPiece) :
    NestingScan.run { depth := depth, inString := true } (pieces.flatMap StringPiece.bytes) =
      some { depth := depth, inString := true } := by
  induction pieces with
  | nil => rfl
  | cons piece pieces ih =>
      rw [List.flatMap_cons, NestingScan.run_append]
      have here : NestingScan.run { depth := depth, inString := true } piece.bytes =
          some { depth := depth, inString := true } := by
        cases piece with
        | plain byte unquoted => simp [StringPiece.bytes, NestingScan.step, unquoted.1, unquoted.2]
        | escaped byte => simp [StringPiece.bytes, NestingScan.step]
      rw [here]
      exact ih

/-- A comment hides its text up to the newline. -/
theorem run_line (depth : Nat) (text : Bytes) (line : 10 ∉ text) :
    NestingScan.run { depth := depth, inComment := true } text =
      some { depth := depth, inComment := true } := by
  induction text with
  | nil => rfl
  | cons byte text ih =>
      obtain ⟨other, later⟩ := List.ne_and_not_mem_of_not_mem_cons line
      simp [NestingScan.step, other.symm, ih later]

theorem run_scalar (depth : Nat) (text : Bytes) (plain : ∀ byte ∈ text, isMeaningful byte = false) :
    NestingScan.run { depth := depth } text = some { depth := depth } := by
  induction text with
  | nil => rfl
  | cons byte text ih =>
      have quiet : isMeaningful byte = false := plain byte (by simp)
      simp only [isMeaningful, List.contains_cons, List.contains_nil, Bool.or_eq_false_iff,
        beq_eq_false_iff_ne] at quiet
      have here : NestingScan.step { depth := depth } byte = some { depth := depth } := by
        simp [NestingScan.step, quiet]
      rw [NestingScan.run_cons, here]
      exact ih fun other member => plain other (by simp [member])

/-- The scan of a lexeme only changes the depth. -/
theorem run_lexeme (depth : Nat) (lexeme : Lexeme) :
    NestingScan.run { depth := depth } lexeme.bytes =
      (lexeme.climb depth).map fun next => { depth := next } := by
  cases lexeme with
  | opening bracket =>
      cases bracket <;> by_cases deep : maxJqJsonNesting < depth + 1 <;>
        simp [Lexeme.bytes, Bracket.openingByte, Lexeme.climb, NestingScan.step, deep]
  | closing bracket =>
      cases bracket <;> simp [Lexeme.bytes, Bracket.closingByte, Lexeme.climb, NestingScan.step]
  | comma => rfl
  | colon => rfl
  | string pieces =>
      have entered : NestingScan.step { depth := depth } 34 =
          some { depth := depth, inString := true } := by
        simp [NestingScan.step]
      rw [Lexeme.bytes, List.cons_append, NestingScan.run_cons, entered, Option.bind_some,
        NestingScan.run_append, run_pieces]
      simp [Lexeme.climb, NestingScan.step]
  | scalar text plain => exact run_scalar depth text plain
  | blank byte space =>
      have quiet : isMeaningful byte = false := by
        simp only [isBlank, decide_eq_true_eq] at space
        rcases space with rfl | rfl | rfl | rfl <;> decide
      exact run_scalar depth [byte] fun other member => by
        rw [List.mem_singleton.mp member]
        exact quiet
  | comment text line =>
      have entered : NestingScan.step { depth := depth } 35 =
          some { depth := depth, inComment := true } := by
        simp [NestingScan.step]
      rw [Lexeme.bytes, List.cons_append, NestingScan.run_cons, entered, Option.bind_some,
        NestingScan.run_append, run_line depth text line]
      simp [Lexeme.climb, NestingScan.step]

theorem run_lexemes (depth : Nat) (lexemes : List Lexeme) :
    NestingScan.run { depth := depth } (lexemeBytes lexemes) =
      (climbs depth lexemes).map fun next => { depth := next } := by
  induction lexemes generalizing depth with
  | nil => rfl
  | cons lexeme lexemes ih =>
      have cut : lexemeBytes (lexeme :: lexemes) = lexeme.bytes ++ lexemeBytes lexemes :=
        List.flatMap_cons
      rw [cut, NestingScan.run_append, run_lexeme, climbs_cons]
      cases lexeme.climb depth with
      | none => rfl
      | some next => exact ih next

/-- The last comment never changes the answer. -/
theorem run_trailing (depth : Nat) {trailing : Bytes} (ends : Trailing trailing) :
    (NestingScan.run { depth := depth } trailing).isSome := by
  rcases ends with rfl | ⟨text, rfl, line⟩
  · rfl
  · have entered : NestingScan.step { depth := depth } 35 =
        some { depth := depth, inComment := true } := by
      simp [NestingScan.step]
    rw [NestingScan.run_cons, entered, Option.bind_some, run_line depth text line]
    rfl

/-! ## The values -/

theorem climbs_gap (depth : Nat) {gap : List Lexeme} (blank : Gap gap) :
    climbs depth gap = some depth := by
  induction gap with
  | nil => rfl
  | cons lexeme gap ih =>
      have here : lexeme.climb depth = some depth := by
        cases blank lexeme (by simp) with
        | blank => rfl
        | comment => rfl
      rw [climbs_cons, here]
      exact ih fun other member => blank other (by simp [member])

/-- The climb through lexemes of this depth, which return to where they start. -/
def Returns (lexemes : List Lexeme) (depth : Nat) : Prop :=
  ∀ start ≤ maxJqJsonNesting,
    climbs start lexemes = if start + depth ≤ maxJqJsonNesting then some start else none

theorem Returns.gap {gap : List Lexeme} (blank : Gap gap) : Returns gap 0 := by
  intro start small
  rw [climbs_gap start blank, if_pos (by omega)]

theorem Returns.append {first rest : List Lexeme} {depth other : Nat} (here : Returns first depth)
    (later : Returns rest other) : Returns (first ++ rest) (max depth other) := by
  intro start small
  rw [climbs_append, here start small]
  by_cases fits : start + depth ≤ maxJqJsonNesting
  · rw [if_pos fits, Option.bind_some, later start small]
    congr 1
    exact propext (by omega)
  · rw [if_neg fits, if_neg (by omega)]
    rfl

theorem Returns.around {lexemes : List Lexeme} {depth : Nat} (inside : Returns lexemes depth)
    (bracket : Bracket) :
    Returns (.opening bracket :: lexemes ++ [.closing bracket]) (depth + 1) := by
  intro start small
  rw [List.cons_append, climbs_cons, Lexeme.climb]
  by_cases deep : maxJqJsonNesting < start + 1
  · rw [if_pos deep, if_neg (by omega)]
    rfl
  · rw [if_neg deep, Option.bind_some, climbs_append, inside (start + 1) (by omega)]
    by_cases fits : start + 1 + depth ≤ maxJqJsonNesting
    · rw [if_pos fits, if_pos (by omega)]
      rfl
    · rw [if_neg fits, if_neg (by omega)]
      rfl

theorem Returns.still {lexeme : Lexeme} (quiet : ∀ depth, lexeme.climb depth = some depth) :
    Returns [lexeme] 0 := by
  intro start small
  rw [climbs_cons, quiet start, if_pos (by omega)]
  rfl

theorem Lexeme.IsAtom.returns {lexeme : Lexeme} (atom : lexeme.IsAtom) : Returns [lexeme] 0 := by
  cases atom with
  | string => exact .still fun _ => rfl
  | scalar => exact .still fun _ => rfl

mutual

theorem ValueOf.returns : ∀ {lexemes : List Lexeme} {depth : Nat},
    ValueOf lexemes depth → Returns lexemes depth
  | _, _, .atom atom => atom.returns
  | _, _, .empty bracket blank => (Returns.gap blank).around bracket
  | _, _, .filled inside => inside.returns.around _

theorem ItemsOf.returns : ∀ {bracket : Bracket} {lexemes : List Lexeme} {depth : Nat},
    ItemsOf bracket lexemes depth → Returns lexemes depth
  | _, _, _, .last here => here.returns
  | _, _, _, .more here later => by
      have comma : Returns [.comma] 0 := .still fun _ => rfl
      have rest := comma.append later.returns
      rw [Nat.zero_max] at rest
      exact here.returns.append rest

theorem ItemOf.returns : ∀ {bracket : Bracket} {lexemes : List Lexeme} {depth : Nat},
    ItemOf bracket lexemes depth → Returns lexemes depth
  | _, _, _, .element first here last => by
      have whole := ((Returns.gap first).append here.returns).append (Returns.gap last)
      rw [Nat.zero_max, Nat.max_zero] at whole
      exact whole
  | _, _, _, @ItemOf.member _ _ _ _ _ key _ first second third here last => by
      have name : Returns [.string key] 0 := .still fun _ => rfl
      have colon : Returns [.colon] 0 := .still fun _ => rfl
      have whole := ((((((Returns.gap first).append name).append (Returns.gap second)).append
        colon).append (Returns.gap third)).append here.returns).append (Returns.gap last)
      simp only [Nat.max_zero, Nat.zero_max] at whole
      simpa only [List.append_assoc, List.cons_append, List.nil_append] using whole

end

/-- A stream passes exactly when all its values are flat enough. -/
theorem StreamOf.climbs_isSome {lexemes : List Lexeme} {depths : List Nat}
    (stream : StreamOf lexemes depths) :
    climbs 0 lexemes = if ∀ depth ∈ depths, depth ≤ maxJqJsonNesting then some 0 else none := by
  induction stream with
  | done blank =>
      rw [climbs_gap 0 blank, if_pos (by simp)]
  | @value gap value rest depth depths blank here later ih =>
      rw [climbs_append, climbs_append, climbs_gap 0 blank, Option.bind_some,
        here.returns 0 (Nat.zero_le _), Nat.zero_add]
      by_cases flat : depth ≤ maxJqJsonNesting
      · rw [if_pos flat, Option.bind_some, ih]
        congr 1
        exact propext (by simp [flat])
      · rw [if_neg flat, if_neg (by simp [flat])]
        rfl

theorem JsonStream.run_isSome {data : Bytes} {depths : List Nat} (stream : JsonStream data depths) :
    (NestingScan.run {} data).isSome ↔ ∀ depth ∈ depths, depth ≤ maxJqJsonNesting := by
  obtain ⟨lexemes, trailing, grammar, ends, rfl⟩ := stream
  rw [NestingScan.run_append, run_lexemes, grammar.climbs_isSome]
  by_cases flat : ∀ depth ∈ depths, depth ≤ maxJqJsonNesting
  · rw [if_pos flat, Option.map_some, Option.bind_some]
    exact iff_of_true (run_trailing 0 ends) flat
  · rw [if_neg flat]
    exact iff_of_false (by simp) flat

/-! ## Other bytes -/

/-- The depth of the scan is never less than the brackets that are open. -/
theorem climbs_bounds {depth reached : Nat} {lexemes : List Lexeme}
    (passed : climbs depth lexemes = some reached) (small : depth ≤ maxJqJsonNesting) :
    reached ≤ maxJqJsonNesting ∧
      depth + lexemes.countP Lexeme.isOpening ≤ reached + lexemes.countP Lexeme.isClosing := by
  induction lexemes generalizing depth with
  | nil =>
      cases passed
      exact ⟨small, le_rfl⟩
  | cons lexeme lexemes ih =>
      rw [climbs_cons] at passed
      obtain ⟨next, here, later⟩ := Option.bind_eq_some_iff.mp passed
      rw [List.countP_cons, List.countP_cons]
      cases lexeme with
      | opening bracket =>
          rw [Lexeme.climb] at here
          split at here
          · cases here
          · cases here
            have bound := ih later (by omega)
            simp only [Lexeme.isOpening, Lexeme.isClosing, if_true, Bool.false_eq_true, if_false]
            omega
      | closing bracket =>
          cases here
          have bound := ih later (by omega)
          simp only [Lexeme.isOpening, Lexeme.isClosing, if_true, Bool.false_eq_true, if_false]
          omega
      | _ =>
          cases here
          exact ih later small

theorem run_unclosed {data consumed : Bytes} {lexemes : List Lexeme}
    (accepted : (NestingScan.run {} data).isSome) (start : consumed <+: data)
    (consumes : Consumes consumed lexemes) : unclosed lexemes ≤ maxJqJsonNesting := by
  obtain ⟨behind, depths, trailing, part, stream, ends, inside, rfl⟩ := consumes
  obtain ⟨rest, rfl⟩ := start
  rw [List.append_assoc, NestingScan.run_append, run_lexemes] at accepted
  cases reached : climbs 0 lexemes with
  | none =>
      rw [reached] at accepted
      cases accepted
  | some depth =>
      have bound := climbs_bounds reached (Nat.zero_le _)
      rw [unclosed]
      omega

/-! ## Both copies -/

theorem validateJqJsonNesting_ok (data : Bytes) :
    validateJqJsonNesting data = .ok () ↔ (NestingScan.run {} data).isSome := by
  rw [validateJqJsonNesting]
  cases NestingScan.run {} data <;> simp

theorem guestValidateJqJsonNesting_ok (data : Bytes) :
    guestValidateJqJsonNesting data = .ok () ↔ (NestingScan.run {} data).isSome := by
  rw [guestValidateJqJsonNesting]
  cases NestingScan.run {} data <;> simp

/-- The host and the guest accept a stream of values exactly when no value is too deep, and nothing
that a parser consumes of accepted bytes has too many open brackets. -/
theorem nesting_guard_exact :
    (∀ data depths, JsonStream data depths →
      (validateJqJsonNesting data = .ok () ↔ ∀ depth ∈ depths, depth ≤ 1024) ∧
      (guestValidateJqJsonNesting data = .ok () ↔ ∀ depth ∈ depths, depth ≤ 1024)) ∧
    (∀ data, validateJqJsonNesting data = .ok () ∨ guestValidateJqJsonNesting data = .ok () →
      ∀ consumed lexemes, consumed <+: data → Consumes consumed lexemes →
        unclosed lexemes ≤ 1024) := by
  constructor
  · intro data depths stream
    rw [validateJqJsonNesting_ok, guestValidateJqJsonNesting_ok]
    exact ⟨stream.run_isSome, stream.run_isSome⟩
  · intro data accepted consumed lexemes start consumes
    rw [validateJqJsonNesting_ok, guestValidateJqJsonNesting_ok, or_self] at accepted
    exact run_unclosed accepted start consumes

end TinySandbox.Jq
