/-
This file shows that the writer of a replacement of `sed` and its check read the same tokens.
-/

import TinySandbox.Library.Serving
import TinySandbox.Specification.SedScripts

namespace TinySandbox.Sandbox
open Library Library.Task

/-- The groups that the tokens refer to, in their order. -/
def groupsOf (tokens : List SedToken) : List Nat :=
  tokens.filterMap fun
    | .literal _ => none
    | .group index => some index

/-- The output after these tokens. -/
def SedOutput.extend (output : SedOutput) (captures : Captures) (tokens : List SedToken) :
    SedOutput where
  written := output.written ++ tokens.flatMap (SedToken.bytes captures)
  asked := output.asked ++ groupsOf tokens

/-- The task writes the tokens and asks for their groups. -/
def Writes (task : SedTask Unit) (tokens : List SedToken) : Prop :=
  ∀ (captures : Captures) (output : SedOutput),
    settle captures.respond task output = some (.ok (), output.extend captures tokens)

section Writers
variable {task first second : SedTask Unit} {tokens later : List SedToken}

theorem extend_append (output : SedOutput) (captures : Captures) (tokens later : List SedToken) :
    output.extend captures (tokens ++ later) =
      (output.extend captures tokens).extend captures later := by
  unfold SedOutput.extend groupsOf
  rw [List.flatMap_append, List.filterMap_append, List.append_assoc, List.append_assoc]

theorem Writes.then (writes : Writes first tokens) (goes : Writes second later) :
    Writes (first >>= fun _ => second) (tokens ++ later) := by
  intro captures output
  rw [settle_bind_ok (writes captures output), goes, extend_append]

theorem settle_writeAll (captures : Captures) (bytes : Bytes) (output : SedOutput) :
    settle captures.respond (writeAll bytes) output =
      some (.ok (), { output with written := output.written ++ bytes }) := rfl

/-- The chunks of a piece are written one after the other. -/
theorem settle_writeSedPiece (captures : Captures) (bytes : Bytes) (output : SedOutput) :
    settle captures.respond (writeSedPiece bytes) output =
      some (.ok (), { output with written := output.written ++ bytes }) := by
  rw [writeSedPiece]
  split
  · next empty =>
      rw [empty, List.append_nil]
      rfl
  · next filled =>
      rw [settle_bind_ok (settle_writeAll captures _ output), settle_writeSedPiece, List.append_assoc,
        List.take_append_drop]
termination_by bytes.length
decreasing_by
  have := List.length_pos_iff.mpr ‹bytes ≠ []›
  rw [List.length_drop]
  exact Nat.sub_lt this (by decide)

def literals (text : Text) : List SedToken := text.map SedToken.literal

theorem flatMap_literals (captures : Captures) (text : Text) :
    (literals text).flatMap (SedToken.bytes captures) = textBytes text := by
  unfold literals textBytes
  rw [List.flatMap_map]
  apply List.flatMap_congr
  intro ch _
  exact List.flatMap_singleton _ _

theorem groupsOf_literals (text : Text) : groupsOf (literals text) = [] := by
  unfold groupsOf literals
  rw [List.filterMap_map]
  exact List.filterMap_eq_nil_iff.mpr fun _ _ => rfl

theorem extend_literals (output : SedOutput) (captures : Captures) (text : Text) :
    output.extend captures (literals text) =
      { output with written := output.written ++ textBytes text } := by
  unfold SedOutput.extend
  rw [flatMap_literals, groupsOf_literals, List.append_nil]

theorem writes_piece (text : Text) : Writes (writeSedPiece (textBytes text)) (literals text) := by
  intro captures output
  rw [settle_writeSedPiece, extend_literals]

theorem writes_all (text : Text) : Writes (writeAll (textBytes text)) (literals text) := by
  intro captures output
  rw [settle_writeAll, extend_literals]

theorem writes_group (index : Nat) : Writes (writeSedGroup index) [.group index] := by
  intro captures output
  have asked : settle captures.respond (request (SedRequest.group index) : SedTask (Option Text)) output =
      some (.ok (captures.get index), { output with asked := output.asked ++ [index] }) := rfl
  have extended : output.extend captures [.group index] =
      { written := output.written ++ textBytes ((captures.get index).getD [])
        asked := output.asked ++ [index] } := by
    unfold SedOutput.extend
    rw [List.flatMap_singleton]
    rfl
  unfold writeSedGroup
  rw [settle_bind_ok asked, extended]
  cases captures.get index with
  | none =>
      have nothing : output.written ++ textBytes ((none : Option Text).getD []) = output.written :=
        List.append_nil _
      rw [nothing]
      rfl
  | some text => exact settle_writeSedPiece captures (textBytes text) _

theorem writes_escape (ch : Char) : Writes (writeSedEscape ch) [escapedToken ch] := by
  unfold writeSedEscape escapedToken sedDigit
  split_ifs with newline tab digit
  · exact writes_all ['\n']
  · exact writes_all ['\t']
  · exact writes_group _
  · exact writes_all [ch]

end Writers

section Tokens
variable {ch : Char} {rest : Text}

theorem sedTokens_plain (plain : isSedSpecial ch = false) (rest : Text) :
    sedTokens (ch :: rest) = .literal ch :: sedTokens rest := by
  unfold isSedSpecial at plain
  rw [decide_eq_false_iff_not, not_or] at plain
  rw [sedTokens]
  · exact fun same _ => plain.2 same
  · exact fun _ _ same _ => plain.2 same
  · exact plain.1

/-- What stands before the first special character stands for itself. -/
theorem sedTokens_split (text : Text) :
    sedTokens text = literals (text.takeWhile (!isSedSpecial ·)) ++
      sedTokens (text.dropWhile (!isSedSpecial ·)) := by
  induction text with
  | nil => rfl
  | cons ch rest ih =>
      cases special : isSedSpecial ch with
      | true =>
          rw [List.takeWhile_cons_of_neg (by simp [special]),
            List.dropWhile_cons_of_neg (by simp [special])]
          rfl
      | false =>
          rw [List.takeWhile_cons_of_pos (by simp [special]),
            List.dropWhile_cons_of_pos (by simp [special]), sedTokens_plain special, ih]
          rfl

/-- The scan stops at an ampersand or at a backslash. -/
theorem backslash_of_dropWhile {text tail : Text}
    (stops : text.dropWhile (!isSedSpecial ·) = ch :: tail) (other : ch ≠ '&') : ch = '\\' := by
  have filled : text.dropWhile (!isSedSpecial ·) ≠ [] := by
    rw [stops]
    exact List.cons_ne_nil _ _
  have first := List.head_dropWhile_not (!isSedSpecial ·) filled
  have special : isSedSpecial ch = true := by simpa [stops] using first
  unfold isSedSpecial at special
  rw [decide_eq_true_iff] at special
  exact special.resolve_left other

end Tokens

/-- The writer writes the tokens of the replacement. -/
theorem writes_replacement (rest : Text) : Writes (writeSedReplacement rest) (sedTokens rest) := by
  rw [sedTokens_split, writeSedReplacement]
  split
  · next none =>
      have whole : rest.takeWhile (!isSedSpecial ·) = rest := by
        have cut := List.takeWhile_append_dropWhile (p := (!isSedSpecial ·)) (l := rest)
        rwa [none, List.append_nil] at cut
      rw [none, whole, sedTokens, List.append_nil]
      exact writes_piece rest
  · next tail found =>
      rw [found]
      have behind := writes_replacement tail
      exact (writes_piece _).then ((writes_group 0).then behind)
  · next last other found =>
      rw [backslash_of_dropWhile found other] at found
      rw [found]
      exact (writes_piece _).then (writes_all ['\\'])
  · next last ch tail other found =>
      rw [backslash_of_dropWhile found other] at found
      rw [found]
      have behind := writes_replacement tail
      exact (writes_piece _).then ((writes_escape ch).then behind)
termination_by rest.length
decreasing_by
  all_goals
    have shorter := (List.dropWhile_sublist (l := rest) (!isSedSpecial ·)).length_le
    rw [‹rest.dropWhile _ = _›] at shorter
    simp only [List.length_cons] at shorter
    omega

theorem groupsOf_cons (token : SedToken) (rest : List SedToken) :
    groupsOf (token :: rest) = groupsOf [token] ++ groupsOf rest := by
  unfold groupsOf
  rw [← List.filterMap_append]
  rfl

theorem sedDigit_ne_zero {ch : Char} {index : Nat} (digit : sedDigit ch = some index) : index ≠ 0 := by
  unfold sedDigit at digit
  split_ifs at digit with inside
  have above : '0'.toNat < ch.toNat := inside.1
  rw [← Option.some.inj digit]
  exact Nat.sub_ne_zero_of_lt above

theorem groupsOf_escapedToken (ch : Char) : groupsOf [escapedToken ch] = (sedDigit ch).toList := by
  unfold escapedToken
  split_ifs with newline tab digit
  · rw [newline]
    rfl
  · rw [tab]
    rfl
  · rw [sedDigit, if_pos digit]
    rfl
  · rw [sedDigit, if_neg digit]
    rfl

/-- A check that passes found a group for every reference but the one to the whole match. -/
theorem validate_iff (capturesLen : Nat) (replacement : Text) :
    validateSedReplacement capturesLen replacement = .ok () ↔
      ∀ index ∈ groupsOf (sedTokens replacement), index ≠ 0 → index < capturesLen := by
  fun_induction validateSedReplacement capturesLen replacement with
  | case1 => exact iff_of_true rfl (by simp [sedTokens, groupsOf])
  | case2 => exact iff_of_true rfl (by simp [sedTokens, groupsOf])
  | case3 ch rest index digit outside =>
      apply iff_of_false nofun
      intro inside
      rw [sedTokens, groupsOf_cons, groupsOf_escapedToken, digit] at inside
      exact absurd (inside index (List.mem_cons_self) (sedDigit_ne_zero digit))
        (Nat.not_lt_of_le outside)
  | case4 ch rest index digit inside ih =>
      rw [sedTokens, groupsOf_cons, groupsOf_escapedToken, digit, ih]
      exact (List.forall_mem_cons.trans
        (and_iff_right fun _ => Nat.lt_of_not_le inside)).symm
  | case5 ch rest other ih =>
      rw [sedTokens, groupsOf_cons, groupsOf_escapedToken, other, ih]
      rfl
  | case6 ch rest single pair ih =>
      have other : ch ≠ '\\' := by
        intro same
        cases rest with
        | nil => exact single same rfl
        | cons next tail => exact pair next tail same rfl
      rw [ih]
      by_cases whole : ch = '&'
      · rw [whole, sedTokens, groupsOf_cons]
        exact (List.forall_mem_cons.trans (and_iff_right (absurd rfl))).symm
      · have plain : isSedSpecial ch = false := decide_eq_false (not_or.mpr ⟨whole, other⟩)
        rw [sedTokens_plain plain, groupsOf_cons]
        rfl

/-- The check passes exactly when the writer asks for no group that the match does not have, and
the writer writes what the tokens of the replacement stand for. -/
theorem sedReplacement_agrees (replacement : Text) (captures : Captures) (written : Bytes) :
    ∃ asked, settle captures.respond (writeSedReplacement replacement) { written, asked := [] } =
        some (.ok (), {
          written := written ++ (sedTokens replacement).flatMap (SedToken.bytes captures), asked }) ∧
      (validateSedReplacement captures.len replacement = .ok () ↔
        ∀ index ∈ asked, index < captures.len) := by
  refine ⟨groupsOf (sedTokens replacement), writes_replacement replacement captures _, ?_⟩
  rw [validate_iff]
  apply forall₂_congr
  intro index _
  by_cases whole : index = 0
  · rw [whole]
    exact iff_of_true (absurd rfl) (Nat.succ_pos _)
  · exact forall_prop_of_true whole

end TinySandbox.Sandbox
