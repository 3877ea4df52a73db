/-
This file shows which lines `tail` writes. The flat window holds the last lines that were read,
and its counter is their number.
-/

import TinySandbox.Construction.Sandbox.Lines
import TinySandbox.Proof.Sandbox.Lines

namespace TinySandbox.Sandbox
open Library

/-- The window after the lines of `seen`. -/
def windowOf (limit : Nat) (seen : List Bytes) : TailWindow where
  window := (seen.rtake limit).flatten
  retainedLines := min limit seen.length

theorem windowOf_nil (limit : Nat) : windowOf limit [] = {} := by
  rw [windowOf, List.rtake_nil, List.length_nil, Nat.min_zero]
  rfl

/-- A line that another one follows. -/
def Closed (line : Bytes) : Prop := ∃ body, line = body ++ [newline] ∧ newline ∉ body

section Windows
variable {limit windowBytes : Nat} {seen : List Bytes} {line : Bytes}

theorem popLine_closed (closed : Closed line) (rest : Bytes) : popLine (line ++ rest) = rest := by
  obtain ⟨body, rfl, absent⟩ := closed
  induction body with
  | nil => exact if_pos rfl
  | cons byte body ih =>
      obtain ⟨other, later⟩ := not_or.mp (List.mem_cons.not.mp absent)
      change (if byte = newline then _ else popLine (body ++ [newline] ++ rest)) = rest
      rw [if_neg (Ne.symm other), ih later]

theorem rtake_of_length_le {α : Type} {symbols : List α} {count : Nat}
    (short : symbols.length ≤ count) : symbols.rtake count = symbols := by
  rw [List.rtake, Nat.sub_eq_zero_of_le short, List.drop_zero]

/-- A window that is full loses its oldest line. -/
theorem rtake_succ_of_lt {α : Type} {symbols : List α} {count : Nat}
    (long : count < symbols.length) :
    ∃ first ∈ symbols, symbols.rtake (count + 1) = first :: symbols.rtake count := by
  have inside : symbols.length - (count + 1) < symbols.length := by omega
  have next : symbols.length - (count + 1) + 1 = symbols.length - count := by omega
  refine ⟨symbols[symbols.length - (count + 1)], List.getElem_mem inside, ?_⟩
  rw [List.rtake, List.rtake, List.drop_eq_getElem_cons inside, next]

/-- The window drops its oldest line exactly when it holds as many lines as it may. -/
theorem retain_windowOf (closed : ∀ line ∈ seen, Closed line) :
    (windowOf limit seen).retain limit windowBytes line =
      if windowBytes < ((seen ++ [line]).rtake limit).flatten.length then
        .error .retainedInputTooLarge
      else .ok (windowOf limit (seen ++ [line])) := by
  cases limit with
  | zero =>
      simp only [TailWindow.retain, if_pos, List.rtake_zero, List.flatten_nil, List.length_nil,
        Nat.not_lt_zero, windowOf, Nat.zero_min]
      rfl
  | succ count =>
      have kept : (if (windowOf (count + 1) seen).retainedLines = count + 1 then
            ({ window := popLine (windowOf (count + 1) seen).window
               retainedLines := (windowOf (count + 1) seen).retainedLines - 1 } : TailWindow)
          else windowOf (count + 1) seen) = windowOf count seen := by
        by_cases full : count < seen.length
        · obtain ⟨first, member, split⟩ := rtake_succ_of_lt full
          have counted : min (count + 1) seen.length = count + 1 := Nat.min_eq_left full
          simp only [windowOf, counted, if_pos, split, List.flatten_cons,
            popLine_closed (closed first member), Nat.add_sub_cancel,
            Nat.min_eq_left (Nat.le_of_lt full)]
        · have short : seen.length ≤ count := Nat.le_of_not_lt full
          have counted : min (count + 1) seen.length = seen.length :=
            Nat.min_eq_right (Nat.le_succ_of_le short)
          have room : ¬ seen.length = count + 1 := by omega
          simp only [windowOf, counted, if_neg room, rtake_of_length_le short,
            rtake_of_length_le (Nat.le_succ_of_le short), Nat.min_eq_right short]
      unfold TailWindow.retain
      rw [if_neg (Nat.succ_ne_zero count)]
      dsimp only
      rw [kept, List.rtake_concat_succ, List.flatten_append, List.length_append]
      simp only [windowOf, List.flatten_cons, List.flatten_nil, List.append_nil,
        List.rtake_concat_succ, List.flatten_append, List.length_append, List.length_cons,
        List.length_nil, Nat.succ_min_succ, Nat.zero_add]
      rfl

end Windows

section Loops
variable {source : LineReader} {stream : Bytes}

theorem tailLines_eq (limit windowBytes : Nat) (source : LineReader) (tail : TailWindow) :
    tailLines limit windowBytes source tail =
      match (readLine source).1 with
      | .error error => (.error error, (readLine source).2)
      | .ok none => (.ok tail.window, (readLine source).2)
      | .ok (some line) =>
          match tail.retain limit windowBytes line with
          | .error error => (.error error, (readLine source).2)
          | .ok tail => tailLines limit windowBytes (readLine source).2 tail := by
  rw [tailLines]
  split
  · rename_i answer
    rw [answer]
  · rename_i answer
    rw [answer]
  · rename_i line next answer
    cases retained : tail.retain limit windowBytes line with
    | error error => simp only [answer, retained]
    | ok tail => simp only [answer, retained]

/-- The lines before the last one are closed, so the window can drop them. -/
theorem closed_snoc {seen later : List Bytes} {line : Bytes}
    (closed : ∀ body ∈ (seen ++ line :: later).dropLast, Closed body) :
    (∀ body ∈ seen, Closed body) ∧
      ∀ body ∈ (seen ++ [line] ++ later).dropLast, Closed body := by
  constructor
  · intro body member
    apply closed body
    rw [List.dropLast_append_of_ne_nil (List.cons_ne_nil line later)]
    exact List.mem_append_left _ member
  · rw [List.append_assoc]
    exact closed

theorem tailLines_fits {limit windowBytes : Nat} {seen : List Bytes}
    (delivers : Delivers source stream)
    (closed : ∀ line ∈ (seen ++ lines stream).dropLast, Closed line)
    (short : ∀ line ∈ lines stream, tooLong line = false)
    (fits : ∀ count < (lines stream).length,
      ((seen ++ (lines stream).take (count + 1)).rtake limit).flatten.length ≤ windowBytes) :
    (tailLines limit windowBytes source (windowOf limit seen)).1 =
      .ok ((seen ++ lines stream).rtake limit).flatten := by
  induction split : lines stream generalizing source stream seen with
  | nil =>
      rw [tailLines_eq]
      rcases readLine_cases delivers with ⟨-, answer⟩ | ⟨line, later, other, -⟩ | ⟨line, later, other, -⟩
      · rw [answer, List.append_nil]
        rfl
      · cases split.symm.trans other
      · cases split.symm.trans other
  | cons line later ih =>
      rw [split] at closed short fits
      obtain ⟨old, whole⟩ := closed_snoc closed
      rw [tailLines_eq]
      rcases readLine_cases delivers with
        ⟨other, -⟩ | ⟨first, rest, other, exceeds, -⟩ | ⟨first, rest, other, -, answer, next, rest_lines⟩
      · cases split.symm.trans other
      · obtain ⟨rfl, rfl⟩ := List.cons.inj (split.symm.trans other)
        rw [short line List.mem_cons_self] at exceeds
        cases exceeds
      · obtain ⟨rfl, rfl⟩ := List.cons.inj (split.symm.trans other)
        have room := fits 0 (Nat.zero_lt_succ _)
        rw [List.take_succ_cons, List.take_zero] at room
        rw [answer]
        dsimp only
        rw [retain_windowOf old, if_neg (Nat.not_lt_of_le room)]
        dsimp only
        rw [← rest_lines] at whole short fits
        have ends := ih next whole ?_ ?_ rest_lines
        · rw [ends, List.append_assoc]
          rfl
        · exact fun body member => short body (List.mem_cons_of_mem _ member)
        · intro count inside
          rw [List.append_assoc]
          rw [rest_lines] at inside ⊢
          exact rest_lines ▸ fits (count + 1) (by
            rw [rest_lines]
            exact Nat.succ_lt_succ inside)

theorem tailLines_fails {limit windowBytes : Nat} {seen : List Bytes}
    (delivers : Delivers source stream)
    (closed : ∀ line ∈ (seen ++ lines stream).dropLast, Closed line)
    (fails : (∃ line ∈ lines stream, tooLong line = true) ∨
      ∃ count < (lines stream).length,
        windowBytes < ((seen ++ (lines stream).take (count + 1)).rtake limit).flatten.length) :
    ∃ error, (tailLines limit windowBytes source (windowOf limit seen)).1 = .error error := by
  induction split : lines stream generalizing source stream seen with
  | nil =>
      rw [split] at fails
      rcases fails with ⟨line, member, -⟩ | ⟨count, inside, -⟩
      · cases member
      · cases inside
  | cons line later ih =>
      rw [split] at closed fails
      obtain ⟨old, whole⟩ := closed_snoc closed
      rw [tailLines_eq]
      rcases readLine_cases delivers with
        ⟨other, -⟩ | ⟨first, rest, -, -, answer⟩ |
          ⟨first, rest, other, short, answer, next, rest_lines⟩
      · cases split.symm.trans other
      · rw [answer]
        exact ⟨_, rfl⟩
      · obtain ⟨rfl, rfl⟩ := List.cons.inj (split.symm.trans other)
        rw [answer]
        dsimp only
        rw [retain_windowOf old]
        split_ifs with exceeds
        · exact ⟨_, rfl⟩
        · rw [← rest_lines] at whole
          apply ih next whole _ rest_lines
          rw [rest_lines]
          rcases fails with ⟨body, member, long⟩ | ⟨count, inside, over_window⟩
          · rcases List.mem_cons.mp member with rfl | deeper
            · rw [short] at long
              cases long
            · exact .inl ⟨body, deeper, long⟩
          · cases count with
            | zero => exact absurd over_window exceeds
            | succ count =>
                right
                refine ⟨count, Nat.lt_of_succ_lt_succ inside, ?_⟩
                rw [List.append_assoc]
                exact over_window

theorem linesFrom_eq {ω : Type} (writeAll : Bytes → ω → Except StreamError Unit × ω)
    (start lineNo : Nat) (source : LineReader) (stdout : ω) :
    linesFrom writeAll start lineNo source stdout =
      match (readLine source).1 with
      | .error error => (.error error, (readLine source).2, stdout)
      | .ok none => (.ok (), (readLine source).2, stdout)
      | .ok (some line) =>
          match if start ≤ lineNo then writeAll line stdout else (.ok (), stdout) with
          | (.error error, stdout) => (.error error, (readLine source).2, stdout)
          | (.ok _, stdout) => linesFrom writeAll start (lineNo + 1) (readLine source).2 stdout := by
  rw [linesFrom]
  split
  · rename_i answer
    rw [answer]
  · rename_i answer
    rw [answer]
  · rename_i line next answer
    rcases written : (if start ≤ lineNo then writeAll line stdout else (.ok (), stdout)) with
      ⟨error | accepted, rest⟩
    · simp only [answer, written]
    · simp only [answer, written]

/-- The lines before the first one that is too long are written from their number on. -/
theorem linesFrom_delivers (delivers : Delivers source stream) (start lineNo : Nat)
    (stdout : Bytes) :
    (linesFrom accept start lineNo source stdout).2.2 = stdout ++
        (((lines stream).takeWhile (! tooLong ·)).drop (start - lineNo)).flatten ∧
      (linesFrom accept start lineNo source stdout).1 =
        if (lines stream).any tooLong then .error .lineTooLong else .ok () := by
  induction split : lines stream generalizing source stream lineNo stdout with
  | nil =>
      rw [linesFrom_eq]
      rcases readLine_cases delivers with ⟨-, answer⟩ | ⟨line, later, other, -⟩ | ⟨line, later, other, -⟩
      · rw [answer]
        simp
      · cases split.symm.trans other
      · cases split.symm.trans other
  | cons line later ih =>
      rw [linesFrom_eq]
      rcases readLine_cases delivers with
        ⟨other, -⟩ | ⟨first, rest, other, exceeds, answer⟩ |
          ⟨first, rest, other, short, answer, next, rest_lines⟩
      · cases split.symm.trans other
      · obtain ⟨rfl, rfl⟩ := List.cons.inj (split.symm.trans other)
        rw [answer]
        simp [exceeds]
      · obtain ⟨rfl, rfl⟩ := List.cons.inj (split.symm.trans other)
        rw [answer, List.takeWhile_cons_of_pos (by rw [short]; rfl), List.any_cons, short,
          Bool.false_or]
        by_cases from_here : start ≤ lineNo
        · have behind : start - lineNo = 0 := Nat.sub_eq_zero_of_le from_here
          obtain ⟨written, result⟩ := ih next (lineNo + 1) (stdout ++ line) rest_lines
          simp only [if_pos from_here, accept]
          change (linesFrom accept start (lineNo + 1) _ (stdout ++ line)).2.2 = _ ∧
            (linesFrom accept start (lineNo + 1) _ (stdout ++ line)).1 = _
          rw [written, result, behind, Nat.sub_eq_zero_of_le (Nat.le_succ_of_le from_here)]
          simp
        · have ahead : start - lineNo = start - (lineNo + 1) + 1 := by omega
          obtain ⟨written, result⟩ := ih next (lineNo + 1) stdout rest_lines
          simp only [if_neg from_here]
          rw [written, result, ahead, List.drop_succ_cons]
          exact ⟨rfl, rfl⟩

end Loops

/-- The header of a file, when one is shown. -/
def headerOf (label : Text) (showHeader : Bool) (index : Nat) : Bytes :=
  if showHeader then (headerBytes label index).flatten else []

section Commands

theorem writeEach_accept (parts : List Bytes) (source : LineReader) (stdout : Bytes)
    (next : LineReader → Bytes → StreamResult Bytes) :
    writeEach accept parts source stdout next = next source (stdout ++ parts.flatten) := by
  induction parts generalizing stdout with
  | nil => rw [List.flatten_nil, List.append_nil]; rfl
  | cons bytes rest ih =>
      change writeEach accept rest source (stdout ++ bytes) next = _
      rw [ih, List.flatten_cons, List.append_assoc]

theorem headTailReader_accept (reader : List (Except Errno Bytes)) (stdout : Bytes) (label : Text)
    (showHeader : Bool) (settings : HeadTailSettings) (index : Nat) :
    headTailReader accept reader stdout label showHeader settings index =
      countLines accept settings { reader, pending := .empty }
        (stdout ++ headerOf label showHeader index) := by
  unfold headTailReader headerOf
  rw [writeEach_accept]
  split_ifs <;> rfl

theorem closed_lines (stream : Bytes) : ∀ line ∈ (lines stream).dropLast, Closed line := by
  intro line member
  obtain ⟨body, last, rfl, free, ends⟩ := stopped_of_mem_dropLast member
  refine ⟨body, by rw [of_decide_eq_true ends], ?_⟩
  intro inside
  exact absurd (free newline inside) (by decide)

theorem overflows_iff (limit windowBytes : Nat) (stream : Bytes) :
    Overflows limit windowBytes stream ↔ ∃ count < (lines stream).length,
      windowBytes < (([] ++ (lines stream).take (count + 1)).rtake limit).flatten.length := by
  constructor
  · rintro ⟨count, inside, exceeds⟩
    cases count with
    | zero =>
        rw [List.take_zero, List.rtake_nil] at exceeds
        exact absurd exceeds (Nat.not_lt_zero _)
    | succ count => exact ⟨count, inside, exceeds⟩
  · rintro ⟨count, inside, exceeds⟩
    exact ⟨count + 1, inside, exceeds⟩

/-- The lines that `tail -n` cannot give. -/
def TailFails (limit windowBytes : Nat) (stream : Bytes) : Prop :=
  (∃ line ∈ lines stream, tooLong line = true) ∨ Overflows limit windowBytes stream

variable (chunks : List Chunk) (stdout : Bytes) (label : Text) (showHeader : Bool)
  (index windowBytes : Nat)

theorem tail_last_fails {limit : Nat} (fails : TailFails limit windowBytes (streamOf chunks)) :
    ∃ error source, headTailReader accept (readsOf chunks) stdout label showHeader
        { count := .last limit, headMode := false, windowBytes } index =
      (.error error, source, stdout ++ headerOf label showHeader index) := by
  unfold TailFails at fails
  rw [overflows_iff] at fails
  obtain ⟨error, failed⟩ :=
    tailLines_fails (delivers_start chunks) (closed_lines (streamOf chunks)) fails
  rw [windowOf_nil] at failed
  simp only [headTailReader_accept, countLines, if_neg Bool.false_ne_true]
  rcases tail : tailLines limit windowBytes { reader := readsOf chunks, pending := .empty } {} with
    ⟨result, source⟩
  rw [tail] at failed
  obtain rfl : result = .error error := failed
  exact ⟨error, source, rfl⟩

theorem tail_last_writes {limit : Nat}
    (passes : ¬ TailFails limit windowBytes (streamOf chunks)) :
    ∃ source, headTailReader accept (readsOf chunks) stdout label showHeader
        { count := .last limit, headMode := false, windowBytes } index =
      (.ok (), source, stdout ++ headerOf label showHeader index ++
        ((lines (streamOf chunks)).rtake limit).flatten) := by
  obtain ⟨short, fits⟩ := not_or.mp passes
  rw [overflows_iff] at fits
  have written := @tailLines_fits _ _ limit windowBytes [] (delivers_start chunks)
    (closed_lines (streamOf chunks))
    (fun line member => Bool.not_eq_true _ ▸ fun long => short ⟨line, member, long⟩)
    (fun count inside => Nat.le_of_not_lt fun exceeds => fits ⟨count, inside, exceeds⟩)
  rw [windowOf_nil] at written
  simp only [headTailReader_accept, countLines, if_neg Bool.false_ne_true]
  rcases tail : tailLines limit windowBytes { reader := readsOf chunks, pending := .empty } {} with
    ⟨result, source⟩
  rw [tail] at written
  obtain rfl : result = .ok _ := written
  exact ⟨source, rfl⟩

theorem tail_from (start : Nat) :
    (headTailReader accept (readsOf chunks) stdout label showHeader
        { count := .start start, headMode := false, windowBytes } index).2.2 =
        stdout ++ headerOf label showHeader index ++
          (((lines (streamOf chunks)).takeWhile (! tooLong ·)).drop (max start 1 - 1)).flatten ∧
      (headTailReader accept (readsOf chunks) stdout label showHeader
          { count := .start start, headMode := false, windowBytes } index).1 =
        if (lines (streamOf chunks)).any tooLong then .error .lineTooLong else .ok () := by
  have first : max start 1 - 1 = start - 1 := by omega
  simp only [headTailReader_accept, countLines]
  rw [first]
  exact linesFrom_delivers (delivers_start chunks) start 1 _

/-- The output of `tail -n` is the last lines, or nothing when the command fails. The output of
`tail -n +` is the lines from a number on, up to the first one that is too long. -/
theorem tail_exact (limit start : Nat) :
    (TailFails limit windowBytes (streamOf chunks) →
      ∃ error source, headTailReader accept (readsOf chunks) stdout label showHeader
          { count := .last limit, headMode := false, windowBytes } index =
        (.error error, source, stdout ++ headerOf label showHeader index)) ∧
    (¬ TailFails limit windowBytes (streamOf chunks) →
      ∃ source, headTailReader accept (readsOf chunks) stdout label showHeader
          { count := .last limit, headMode := false, windowBytes } index =
        (.ok (), source, stdout ++ headerOf label showHeader index ++
          ((lines (streamOf chunks)).rtake limit).flatten)) ∧
    (headTailReader accept (readsOf chunks) stdout label showHeader
        { count := .start start, headMode := false, windowBytes } index).2.2 =
        stdout ++ headerOf label showHeader index ++
          (((lines (streamOf chunks)).takeWhile (! tooLong ·)).drop (max start 1 - 1)).flatten ∧
    (headTailReader accept (readsOf chunks) stdout label showHeader
        { count := .start start, headMode := false, windowBytes } index).1 =
      if (lines (streamOf chunks)).any tooLong then .error .lineTooLong else .ok () :=
  ⟨tail_last_fails chunks stdout label showHeader index windowBytes,
    tail_last_writes chunks stdout label showHeader index windowBytes,
    tail_from chunks stdout label showHeader index windowBytes start⟩

end Commands

/-- Every chunk of this stream is full but the last one. -/
def fullChunk : Chunk where
  bytes := List.replicate 8192 120
  nonempty := List.ne_nil_of_length_pos (by
    rw [List.length_replicate]
    decide)
  small := by rw [List.length_replicate]

def overlongChunks : List Chunk := List.replicate 129 fullChunk

theorem lines_overlong :
    ∃ line, tooLong line = true ∧ lines (streamOf overlongChunks) = [line] := by
  have stream : streamOf overlongChunks = List.replicate (129 * 8192) 120 := by
    unfold streamOf overlongChunks
    rw [List.map_replicate]
    exact List.flatten_replicate_replicate
  have long : tooLong (List.replicate (129 * 8192) 120) = true := by
    rw [tooLong, List.length_replicate]
    decide
  refine ⟨List.replicate (129 * 8192) 120, long, ?_⟩
  rw [stream]
  apply lines_last
  · rw [List.mem_replicate]
    decide
  · rintro none
    rw [none] at long
    cases long

/-- A line that is too long is not written, although it is the first one that is asked for. -/
theorem tail_from_overlong :
    (headTailReader accept (readsOf overlongChunks) [] "-".toList false
        { count := .start 1, headMode := false, windowBytes := 1024 * 1024 } 0).2.2 ≠
      ((lines (streamOf overlongChunks)).drop (max 1 1 - 1)).flatten := by
  obtain ⟨line, long, single⟩ := lines_overlong
  rw [(tail_from overlongChunks [] "-".toList false 0 (1024 * 1024) 1).1, single,
    List.takeWhile_cons_of_neg (by rw [long]; decide)]
  intro same
  have nothing : line = [] := by simpa [headerOf] using same.symm
  rw [nothing] at long
  cases long

end TinySandbox.Sandbox
