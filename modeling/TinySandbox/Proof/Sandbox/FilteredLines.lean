/-
This file shows when `grep` and `uniq` write their lines unchanged.
Both take a carriage return away from the end of a line.
-/

import TinySandbox.Proof.Sandbox.SortedLines
import TinySandbox.Specification.Streams

namespace TinySandbox.Sandbox
open Library

/-- What is written for a line is its text and a newline. -/
def written (line : Bytes) : Bytes := textBytes (lineTextLossy line ++ ['\n'])

section Endings
variable {line : Bytes} {text : Text}

/-- The last byte of a text is a small one exactly when its last symbol is. -/
theorem getLast?_textBytes {symbol : Char} {byte : UInt8} (small : byte.toNat < 128)
    (plain : String.utf8EncodeChar symbol = [byte]) :
    (textBytes text).getLast? = some byte ↔ text.getLast? = some symbol := by
  rcases List.eq_nil_or_concat text with rfl | ⟨front, last, rfl⟩
  · exact iff_of_false nofun nofun
  · have filled : String.utf8EncodeChar last ≠ [] := by
      intro empty
      have size := String.length_utf8EncodeChar last
      rw [empty, List.length_nil] at size
      exact absurd size.symm last.utf8Size_pos.ne'
    have ends : textBytes (front.concat last) = textBytes front ++ String.utf8EncodeChar last := by
      rw [List.concat_eq_append, textBytes_append, textBytes_cons]
      exact congrArg (textBytes front ++ ·) (List.append_nil _)
    rw [ends, List.getLast?_append_of_ne_nil _ filled, List.concat_eq_append, List.getLast?_concat]
    constructor
    · intro found
      have value := toNat_eq_of_mem_utf8EncodeChar (List.mem_of_getLast? found) small
      have member : byte ∈ String.utf8EncodeChar symbol := by
        rw [plain]
        exact List.mem_singleton_self byte
      have other := toNat_eq_of_mem_utf8EncodeChar member small
      rw [Char.toNat_inj.mp (value.trans other.symm)]
    · intro same
      rw [Option.some.inj same, plain]
      rfl

/-- The text of a line up to its newline. -/
def lineBody (text : Text) : Text := if text.getLast? = some '\n' then text.dropLast else text

theorem lineTextLossy_textBytes (text : Text) :
    lineTextLossy (textBytes text) =
      if (lineBody text).getLast? = some '\r' then (lineBody text).dropLast else lineBody text := by
  unfold lineTextLossy
  rw [fromUtf8Lossy_textBytes]
  rfl

theorem terminated_textBytes (text : Text) :
    terminated (textBytes text) = textBytes (lineBody text) ++ [newline] := by
  unfold terminated lineBody
  have ends := @getLast?_textBytes text '\n' newline (by decide) (by decide)
  by_cases last : text.getLast? = some '\n'
  · rw [if_pos (ends.mpr last), if_pos last]
    have whole : text = text.dropLast ++ ['\n'] := (List.dropLast_append_getLast? _ last).symm
    rw [whole, textBytes_append, List.dropLast_concat]
    rfl
  · rw [if_neg (mt ends.mp last), if_neg last]

theorem endsInReturn_iff (text : Text) :
    EndsInReturn (textBytes text) ↔ (lineBody text).getLast? = some '\r' := by
  unfold EndsInReturn
  rw [terminated_textBytes, List.dropLast_concat]
  exact getLast?_textBytes (by decide) (by decide)

/-- A line that does not end in a carriage return is written as it is. -/
theorem written_eq (keeps : ¬ EndsInReturn (textBytes text)) :
    written (textBytes text) = terminated (textBytes text) := by
  rw [endsInReturn_iff] at keeps
  unfold written
  rw [lineTextLossy_textBytes, if_neg keeps, terminated_textBytes, textBytes_append]
  rfl

/-- A carriage return at the end of a line is lost. -/
theorem written_lt (ends : EndsInReturn (textBytes text)) :
    (written (textBytes text)).length < (terminated (textBytes text)).length := by
  rw [endsInReturn_iff] at ends
  have whole := List.dropLast_append_getLast? _ ends
  unfold written
  rw [lineTextLossy_textBytes, if_pos ends, terminated_textBytes, ← whole, List.dropLast_concat,
    textBytes_append, textBytes_append]
  simp only [List.length_append]
  exact Nat.add_lt_add_right (Nat.lt_add_of_pos_right (by decide)) 1

theorem written_le (text : Text) :
    (written (textBytes text)).length ≤ (terminated (textBytes text)).length := by
  by_cases ends : EndsInReturn (textBytes text)
  · exact (written_lt ends).le
  · rw [written_eq ends]

theorem lineBody_concat (text : Text) : lineBody (lineBody text ++ ['\n']) = lineBody text := by
  conv_lhs => rw [lineBody]
  rw [List.getLast?_concat, if_pos rfl, List.dropLast_concat]

/-- A newline at the end of a line changes neither its text nor what is written for it. -/
theorem lineTextLossy_terminated (text : Text) :
    lineTextLossy (terminated (textBytes text)) = lineTextLossy (textBytes text) := by
  have bytes : terminated (textBytes text) = textBytes (lineBody text ++ ['\n']) := by
    rw [terminated_textBytes, textBytes_append]
    rfl
  rw [bytes, lineTextLossy_textBytes, lineTextLossy_textBytes, lineBody_concat]

end Endings

section Loops
variable {isMatch : Text → Bool} {invert : Bool} {path : Text} {source : LineReader} {stream : Bytes}

theorem grepLoop_eq (lineNo matched : Nat) (stdout : Bytes) :
    grepLoop accept isMatch { invert } path false lineNo matched source stdout =
      match (readLine source).1 with
      | .error error => (.error error, (readLine source).2, stdout)
      | .ok none => (.ok matched, (readLine source).2, stdout)
      | .ok (some line) =>
          if selects isMatch invert line then
            grepLoop accept isMatch { invert } path false (lineNo + 1) (matched + 1)
              (readLine source).2 (stdout ++ written line)
          else
            grepLoop accept isMatch { invert } path false (lineNo + 1) matched (readLine source).2
              stdout := by
  rw [grepLoop]
  split
  · rename_i answer
    rw [answer]
  · rename_i answer
    rw [answer]
  · rename_i line next answer
    rw [answer]
    rfl

/-- The selected lines are written in their order. -/
theorem grepLoop_delivers (delivers : Delivers source stream)
    (short : ∀ line ∈ lines stream, tooLong line = false) (lineNo matched : Nat) (stdout : Bytes) :
    ∃ total left, grepLoop accept isMatch { invert } path false lineNo matched source stdout =
      (.ok total, left, stdout ++ (selectedLines isMatch invert stream).flatMap written) := by
  unfold selectedLines
  induction split : lines stream generalizing source stream lineNo matched stdout with
  | nil =>
      rw [grepLoop_eq]
      rcases readLine_short delivers short with ⟨-, answer⟩ | ⟨line, later, other, -⟩
      · rw [answer]
        exact ⟨matched, _, by rw [List.filter_nil, List.flatMap_nil, List.append_nil]⟩
      · cases split.symm.trans other
  | cons line later ih =>
      rw [grepLoop_eq]
      rcases readLine_short delivers short with ⟨other, -⟩ | ⟨first, rest, other, answer, next, again⟩
      · cases split.symm.trans other
      · obtain ⟨rfl, rfl⟩ := List.cons.inj (split.symm.trans other)
        rw [split] at short
        have fits : ∀ line ∈ lines later.flatten, tooLong line = false := by
          rw [again]
          exact (List.forall_mem_cons.mp short).2
        rw [answer]
        dsimp only
        by_cases selected : selects isMatch invert line
        · obtain ⟨total, left, ran⟩ := ih next fits (lineNo + 1) (matched + 1)
            (stdout ++ written line) again
          rw [if_pos selected, ran, List.filter_cons_of_pos selected, List.flatMap_cons,
            List.append_assoc]
          exact ⟨total, left, rfl⟩
        · obtain ⟨total, left, ran⟩ := ih next fits (lineNo + 1) matched stdout again
          rw [if_neg selected, ran, List.filter_cons_of_neg selected]
          exact ⟨total, left, rfl⟩

theorem uniqLoop_eq (current : Option (Text × Nat)) (stdout : Bytes) :
    uniqLoop accept {} current source stdout =
      match (readLine source).1 with
      | .error error => (.error error, (readLine source).2, stdout)
      | .ok none => (.ok current, (readLine source).2, stdout)
      | .ok (some line) =>
          match current with
          | none => uniqLoop accept {} (some (lineTextLossy line, 1)) (readLine source).2 stdout
          | some (last, times) =>
              if last = lineTextLossy line then
                uniqLoop accept {} (some (last, times + 1)) (readLine source).2 stdout
              else
                uniqLoop accept {} (some (lineTextLossy line, 1)) (readLine source).2
                  (stdout ++ textBytes (last ++ ['\n'])) := by
  rw [uniqLoop]
  split
  · rename_i answer
    rw [answer]
  · rename_i answer
    rw [answer]
  · rename_i line next answer
    rw [answer]
    cases current with
    | none => rfl
    | some current => rfl

/-- The current line stands before the lines that are still to come. -/
theorem uniqLoop_delivers (delivers : Delivers source stream)
    (short : ∀ line ∈ lines stream, tooLong line = false) (last : Text) (times : Nat)
    (stdout : Bytes) :
    ∃ final count left output,
      uniqLoop accept {} (some (last, times)) source stdout = (.ok (some (final, count)), left, output) ∧
      output ++ textBytes (final ++ ['\n']) = stdout ++
        (((lines stream).map lineTextLossy).destutter' (· ≠ ·) last).flatMap fun text =>
          textBytes (text ++ ['\n']) := by
  induction split : lines stream generalizing source stream last times stdout with
  | nil =>
      rw [uniqLoop_eq]
      rcases readLine_short delivers short with ⟨-, answer⟩ | ⟨line, later, other, -⟩
      · rw [answer]
        refine ⟨last, times, _, stdout, rfl, ?_⟩
        rw [List.map_nil, List.destutter'_nil, List.flatMap_singleton]
      · cases split.symm.trans other
  | cons line later ih =>
      rw [uniqLoop_eq]
      rcases readLine_short delivers short with ⟨other, -⟩ | ⟨first, rest, other, answer, next, again⟩
      · cases split.symm.trans other
      · obtain ⟨rfl, rfl⟩ := List.cons.inj (split.symm.trans other)
        rw [split] at short
        have fits : ∀ line ∈ lines later.flatten, tooLong line = false := by
          rw [again]
          exact (List.forall_mem_cons.mp short).2
        rw [answer, List.map_cons]
        dsimp only
        by_cases same : last = lineTextLossy line
        · rw [if_pos same, List.destutter'_cons_neg _ (not_ne_iff.mpr same)]
          exact ih next fits last (times + 1) stdout again
        · obtain ⟨final, count, left, output, ran, written⟩ := ih next fits (lineTextLossy line) 1
            (stdout ++ textBytes (last ++ ['\n'])) again
          rw [if_neg same, List.destutter'_cons_pos _ same]
          refine ⟨final, count, left, output, ran, ?_⟩
          rw [written, List.flatMap_cons, List.append_assoc]

end Loops

section Runs
variable {α β : Type} [DecidableEq α] [DecidableEq β]

/-- Equal neighbours stay equal in the image, so an image has no more runs. -/
theorem sum_destutter'_map_le (image : α → β) (weight : β → Nat) (first : α) (rest : List α) :
    (((rest.map image).destutter' (· ≠ ·) (image first)).map weight).sum ≤
      ((rest.destutter' (· ≠ ·) first).map fun value => weight (image value)).sum := by
  induction rest generalizing first with
  | nil => exact le_rfl
  | cons next rest ih =>
      rw [List.map_cons]
      by_cases same : image first = image next
      · rw [List.destutter'_cons_neg _ (not_ne_iff.mpr same)]
        by_cases equal : first = next
        · rw [List.destutter'_cons_neg _ (not_ne_iff.mpr equal)]
          exact ih first
        · rw [List.destutter'_cons_pos _ equal, List.map_cons, List.sum_cons, same]
          exact (ih next).trans (Nat.le_add_left _ _)
      · have other : first ≠ next := fun equal => same (congrArg image equal)
        rw [List.destutter'_cons_pos _ same, List.destutter'_cons_pos _ other, List.map_cons,
          List.map_cons, List.sum_cons, List.sum_cons]
        exact Nat.add_le_add_left (ih next) _

theorem sum_destutter_map_le (image : α → β) (weight : β → Nat) (values : List α) :
    (((values.map image).destutter (· ≠ ·)).map weight).sum ≤
      ((values.destutter (· ≠ ·)).map fun value => weight (image value)).sum := by
  cases values with
  | nil => exact le_rfl
  | cons first rest => exact sum_destutter'_map_le image weight first rest

end Runs

section Commands
variable {chunks : List Chunk} {text : Text} {line : Bytes}

theorem exists_text_of_mem_lines (inside : line ∈ lines (textBytes text)) :
    ∃ part, line = textBytes part := by
  rw [lines_textBytes] at inside
  obtain ⟨part, -, same⟩ := List.mem_map.mp inside
  exact ⟨part, same.symm⟩

/-- `grep` writes the selected lines, each with what is left of its end. -/
theorem grepReader_output (short : ∀ line ∈ lines (streamOf chunks), tooLong line = false)
    (isMatch : Text → Bool) (invert : Bool) (path : Text) (stdout : Bytes) :
    ∃ found left, grepReader accept isMatch { invert } path false (readsOf chunks) stdout =
      (.ok found, left, stdout ++ (selectedLines isMatch invert (streamOf chunks)).flatMap written) := by
  obtain ⟨total, left, ran⟩ := grepLoop_delivers (delivers_start chunks) short 0 0 stdout
  unfold grepReader
  rw [ran]
  exact ⟨_, left, rfl⟩

/-- `uniq` writes one text for every run of equal texts. -/
theorem uniqReader_output (short : ∀ line ∈ lines (streamOf chunks), tooLong line = false)
    (stdout : Bytes) :
    ∃ left, uniqReader accept {} (readsOf chunks) stdout = (.ok (), left, stdout ++
      (((lines (streamOf chunks)).map lineTextLossy).destutter (· ≠ ·)).flatMap fun text =>
        textBytes (text ++ ['\n'])) := by
  have delivers := delivers_start chunks
  unfold uniqReader
  rw [uniqLoop_eq]
  rcases readLine_short delivers short with ⟨none, answer⟩ | ⟨first, rest, split, answer, next, again⟩
  · rw [answer, none]
    exact ⟨_, by rw [List.map_nil, List.destutter_nil, List.flatMap_nil, List.append_nil]⟩
  · have fits : ∀ line ∈ lines rest.flatten, tooLong line = false := by
      rw [again]
      intro line inside
      exact short line (by rw [split]; exact List.mem_cons_of_mem first inside)
    obtain ⟨final, count, left, output, ran, written⟩ :=
      uniqLoop_delivers next fits (lineTextLossy first) 1 stdout
    rw [answer]
    dsimp only
    rw [ran, split, List.map_cons, List.destutter_cons', ← again, ← written]
    exact ⟨left, rfl⟩

/-- The selected lines are written unchanged exactly when none of them ends in a carriage return. -/
theorem grep_copies_iff (isMatch : Text → Bool) (invert : Bool) (text : Text) :
    (selectedLines isMatch invert (textBytes text)).flatMap written =
        (selectedLines isMatch invert (textBytes text)).flatMap terminated ↔
      ∀ line ∈ selectedLines isMatch invert (textBytes text), ¬ EndsInReturn line := by
  have texts : ∀ line ∈ selectedLines isMatch invert (textBytes text), ∃ part, line = textBytes part :=
    fun line inside => exists_text_of_mem_lines (List.mem_of_mem_filter inside)
  constructor
  · intro same line inside ends
    have lengths := congrArg List.length same
    rw [List.length_flatMap, List.length_flatMap] at lengths
    refine absurd lengths (ne_of_lt (List.sum_lt_sum _ _ ?_ ⟨line, inside, ?_⟩))
    · intro other member
      obtain ⟨part, rfl⟩ := texts other member
      exact written_le part
    · obtain ⟨part, rfl⟩ := texts line inside
      exact written_lt ends
  · intro keeps
    rw [List.flatMap_def, List.flatMap_def]
    refine congrArg List.flatten (List.map_congr_left fun line inside => ?_)
    obtain ⟨part, rfl⟩ := texts line inside
    exact written_eq (keeps _ inside)

/-- Every run is written as its line exactly when no line ends in a carriage return. -/
theorem uniq_copies_iff (text : Text) :
    ((((lines (textBytes text)).map lineTextLossy).destutter (· ≠ ·)).flatMap fun line =>
        textBytes (line ++ ['\n'])) = (distinctLines (textBytes text)).flatten ↔
      ∀ line ∈ lines (textBytes text), ¬ EndsInReturn line := by
  have same : (lines (textBytes text)).map lineTextLossy =
      ((lines (textBytes text)).map terminated).map lineTextLossy := by
    rw [List.map_map]
    refine List.map_congr_left fun line inside => ?_
    obtain ⟨part, rfl⟩ := exists_text_of_mem_lines inside
    exact (lineTextLossy_terminated part).symm
  have texts : ∀ ended ∈ (lines (textBytes text)).map terminated,
      ∃ part, textBytes part ∈ lines (textBytes text) ∧ ended = terminated (textBytes part) ∧
        textBytes (lineTextLossy ended ++ ['\n']) = written (textBytes part) := by
    intro ended member
    obtain ⟨line, inside, rfl⟩ := List.mem_map.mp member
    obtain ⟨part, rfl⟩ := exists_text_of_mem_lines inside
    refine ⟨part, inside, rfl, ?_⟩
    rw [lineTextLossy_terminated]
    rfl
  unfold distinctLines
  rw [same]
  constructor
  · intro equal line inside ends
    have lengths := congrArg List.length equal
    rw [List.length_flatMap, List.length_flatten] at lengths
    have merged := sum_destutter_map_le lineTextLossy
      (fun text => (textBytes (text ++ ['\n'])).length) ((lines (textBytes text)).map terminated)
    refine absurd lengths (ne_of_lt (merged.trans_lt (List.sum_lt_sum _ _ ?_ ⟨terminated line, ?_, ?_⟩)))
    · intro ended member
      obtain ⟨part, -, rfl, copied⟩ := texts ended (mem_destutter_ne.mp member)
      rw [copied]
      exact written_le part
    · exact mem_destutter_ne.mpr (List.mem_map_of_mem inside)
    · obtain ⟨part, rfl⟩ := exists_text_of_mem_lines inside
      rw [lineTextLossy_terminated]
      exact written_lt ends
  · intro keeps
    have injective : Function.Injective fun line : Text => textBytes (line ++ ['\n']) :=
      fun first second equal => List.append_cancel_right (textBytes_injective equal)
    have copies : (((lines (textBytes text)).map terminated).map lineTextLossy).map
        (fun line => textBytes (line ++ ['\n'])) = (lines (textBytes text)).map terminated := by
      rw [List.map_map]
      refine (List.map_congr_left fun ended member => ?_).trans (List.map_id _)
      obtain ⟨part, inside, rfl, copied⟩ := texts ended member
      exact copied.trans (written_eq (keeps _ inside))
    rw [List.flatMap_def, List.map_destutter_ne _ injective, copies]

/-- Both commands copy their lines exactly when the lines they write end in no carriage return. -/
theorem filters_copy_iff (text : Text) (delivered : streamOf chunks = textBytes text)
    (short : ∀ line ∈ lines (textBytes text), tooLong line = false) (isMatch : Text → Bool)
    (invert : Bool) (path : Text) (stdout : Bytes) :
    ((∃ found left, grepReader accept isMatch { invert } path false (readsOf chunks) stdout =
        (.ok found, left, stdout ++
          (selectedLines isMatch invert (textBytes text)).flatMap terminated)) ↔
      ∀ line ∈ selectedLines isMatch invert (textBytes text), ¬ EndsInReturn line) ∧
    ((∃ left, uniqReader accept {} (readsOf chunks) stdout =
        (.ok (), left, stdout ++ (distinctLines (textBytes text)).flatten)) ↔
      ∀ line ∈ lines (textBytes text), ¬ EndsInReturn line) := by
  rw [← delivered] at short
  constructor
  · obtain ⟨found, left, ran⟩ := grepReader_output short isMatch invert path stdout
    rw [ran, delivered, ← grep_copies_iff]
    constructor
    · rintro ⟨_, _, same⟩
      obtain ⟨-, -, output⟩ := Prod.mk.inj same |>.imp id Prod.mk.inj
      exact List.append_cancel_left output
    · intro same
      exact ⟨found, left, by rw [same]⟩
  · obtain ⟨left, ran⟩ := uniqReader_output short stdout
    rw [ran, delivered, ← uniq_copies_iff]
    constructor
    · rintro ⟨_, same⟩
      obtain ⟨-, -, output⟩ := Prod.mk.inj same |>.imp id Prod.mk.inj
      exact List.append_cancel_left output
    · intro same
      exact ⟨left, by rw [same]⟩

/-- The stream of the examples comes in one chunk. -/
def oneChunk (bytes : Bytes) (nonempty : bytes ≠ []) (small : bytes.length ≤ 8192) : List Chunk :=
  [{ bytes, nonempty, small }]

theorem filters_copy_letters :
    (∃ found left, grepReader accept (fun _ => true) {} [] false
        (readsOf (oneChunk [97, 10, 98] (by decide) (by decide))) [] =
      (.ok found, left, [97, 10, 98, 10])) ∧
    ∃ left, uniqReader accept {} (readsOf (oneChunk [97, 10, 98] (by decide) (by decide))) [] =
      (.ok (), left, [97, 10, 98, 10]) := by
  have delivered : streamOf (oneChunk [97, 10, 98] (by decide) (by decide)) =
      textBytes ['a', '\n', 'b'] := by decide
  have both := filters_copy_iff ['a', '\n', 'b'] delivered (by decide) (fun _ => true) false [] []
  have plain : ∀ line ∈ lines (textBytes ['a', '\n', 'b']), ¬ EndsInReturn line := by
    decide
  have selected : ∀ line ∈ selectedLines (fun _ => true) false (textBytes ['a', '\n', 'b']),
      ¬ EndsInReturn line := fun line inside => plain line (List.mem_of_mem_filter inside)
  exact ⟨both.1.mpr selected, both.2.mpr plain⟩

/-- `grep` loses a carriage return, and `uniq` merges two lines that differ in one. -/
theorem filters_drop_returns :
    (∃ found left, grepReader accept (fun _ => true) {} [] false
        (readsOf (oneChunk [97, 13, 10] (by decide) (by decide))) [] = (.ok found, left, [97, 10])) ∧
    (selectedLines (fun _ => true) false [97, 13, 10]).flatMap terminated = [97, 13, 10] ∧
    (∃ left, uniqReader accept {} (readsOf (oneChunk [97, 13, 10, 97, 10] (by decide) (by decide))) [] =
        (.ok (), left, [97, 10])) ∧
    distinctLines [97, 13, 10, 97, 10] = [[97, 13, 10], [97, 10]] := by
  refine ⟨?_, by decide +kernel, ?_, by decide +kernel⟩
  · have short : ∀ line ∈ lines (streamOf (oneChunk [97, 13, 10] (by decide) (by decide))),
        tooLong line = false := by decide
    obtain ⟨found, left, ran⟩ := grepReader_output short (fun _ => true) false [] []
    have output : (selectedLines (fun _ => true) false [97, 13, 10]).flatMap written = [97, 10] := by
      decide +kernel
    exact ⟨found, left, ran.trans (congrArg (fun bytes => (Except.ok found, left, bytes)) output)⟩
  · have short : ∀ line ∈ lines (streamOf (oneChunk [97, 13, 10, 97, 10] (by decide) (by decide))),
        tooLong line = false := by decide
    obtain ⟨left, ran⟩ := uniqReader_output short []
    have output : (((lines [97, 13, 10, 97, 10]).map lineTextLossy).destutter (· ≠ ·)).flatMap
        (fun text => textBytes (text ++ ['\n'])) = [97, 10] := by
      decide +kernel
    exact ⟨left, ran.trans (congrArg (fun bytes => (Except.ok (), left, bytes)) output)⟩

end Commands

end TinySandbox.Sandbox
