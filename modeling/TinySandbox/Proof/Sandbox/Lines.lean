/-
This file shows that the line reader gives the lines of its stream for every split into chunks.
-/

import TinySandbox.Specification.Streams

namespace TinySandbox.Sandbox
open Library

section Stream

theorem free_of_not_mem {body : Bytes} (absent : newline ∉ body) : Free (· = newline) body := by
  intro byte member
  apply decide_eq_false
  rintro rfl
  exact absent member

theorem lines_cut {body : Bytes} (absent : newline ∉ body) (tail : Bytes) :
    lines (body ++ newline :: tail) = (body ++ [newline]) :: lines tail :=
  splitAfter_cut (free_of_not_mem absent) (decide_eq_true rfl) tail

theorem lines_last {body : Bytes} (absent : newline ∉ body) (more : body ≠ []) :
    lines body = [body] :=
  splitAfter_free (free_of_not_mem absent) more

theorem flatten_lines (stream : Bytes) : (lines stream).flatten = stream :=
  flatten_splitAfter _ stream

/-- The first line is at least as long as what is known of it. -/
theorem lines_part {body : Bytes} (absent : newline ∉ body) (more : body ≠ []) (tail : Bytes) :
    ∃ line later, lines (body ++ tail) = line :: later ∧ body.length ≤ line.length := by
  unfold lines
  rw [splitAfter_free_append (free_of_not_mem absent) more]
  cases splitAfter (fun byte => decide (byte = newline)) tail with
  | nil => exact ⟨body, [], rfl, Nat.le_refl _⟩
  | cons part later =>
      refine ⟨body ++ part, later, rfl, ?_⟩
      rw [List.length_append]
      exact Nat.le_add_right _ _

end Stream

/-- One call as it looks from the stream: an error takes nothing. -/
def nextLine (stream : Bytes) : LineResult × Bytes :=
  match lines stream with
  | [] => (.ok none, [])
  | line :: later =>
      if tooLong line then (.error .lineTooLong, stream) else (.ok (some line), later.flatten)

/-- A reader stands for the bytes that it has not given out. -/
def Delivers (source : LineReader) (stream : Bytes) : Prop :=
  ∃ chunks : List Chunk, source.reader = readsOf chunks ∧
    stream = source.pending.unread ++ if source.pending.eof then [] else streamOf chunks

section Calls
variable {source : LineReader} {stream : Bytes}

theorem readLine_of_answer {result : LineResult} {pending : LineBuffer}
    (answered : source.pending.scan = (some result, pending)) :
    readLine source = (result, { source with pending }) := by
  rw [readLine]
  split
  · rename_i other next scanned
    rw [answered] at scanned
    cases scanned
    rfl
  · rename_i next waits
    rw [answered] at waits
    cases waits

theorem readLine_of_read {pending : LineBuffer} {chunks : List Chunk}
    (waits : source.pending.scan = (none, pending)) (reader : source.reader = readsOf chunks) :
    readLine source = match chunks with
      | [] => readLine { reader := [], pending := pending.compact.received [] }
      | chunk :: rest =>
          readLine { reader := readsOf rest, pending := pending.compact.received chunk.bytes } := by
  rw [readLine]
  split
  · rename_i other next scanned
    rw [waits] at scanned
    cases scanned
  · rename_i next same
    rw [waits] at same
    cases same
    rcases source with ⟨answers, buffer⟩
    change answers = readsOf chunks at reader
    subst reader
    cases chunks with
    | nil => rfl
    | cons chunk rest => rfl

/-- An answer that needs no read is the one of the stream. -/
theorem delivers_of_answer (delivers : Delivers source stream) {result : LineResult}
    {pending : LineBuffer} (answered : source.pending.scan = (some result, pending)) :
    result = (nextLine stream).1 ∧ Delivers { source with pending } (nextLine stream).2 := by
  obtain ⟨chunks, reader, rfl⟩ := delivers
  have scanned := source.pending.scanned_scan
  rw [answered] at scanned
  unfold nextLine
  cases scanned with
  | exceeds body tail unread absent long =>
      have split := lines_cut absent (tail ++ if source.pending.eof then [] else streamOf chunks)
      have exceeds : tooLong (body ++ [newline]) = true := by
        rw [tooLong, List.length_append]
        exact decide_eq_true long
      rw [unread, List.append_assoc, List.cons_append, split]
      dsimp only
      rw [if_pos exceeds]
      refine ⟨rfl, chunks, reader, ?_⟩
      rw [unread, List.append_assoc, List.cons_append]
  | line body tail next unread absent fits left same =>
      have split := lines_cut absent (tail ++ if source.pending.eof then [] else streamOf chunks)
      have short : ¬ tooLong (body ++ [newline]) = true := by
        rw [tooLong, List.length_append, decide_eq_true_eq]
        exact Nat.not_lt_of_le fits
      rw [unread, List.append_assoc, List.cons_append, split]
      dsimp only
      rw [if_neg short]
      refine ⟨rfl, chunks, reader, ?_⟩
      rw [flatten_lines, left, same]
  | part next absent long left same =>
      have more : source.pending.unread ≠ [] := by
        apply List.ne_nil_of_length_pos
        exact Nat.lt_of_le_of_lt (Nat.zero_le _) long
      obtain ⟨line, later, split, length⟩ :=
        lines_part absent more (if source.pending.eof then [] else streamOf chunks)
      have exceeds : tooLong line = true := decide_eq_true (Nat.lt_of_lt_of_le long length)
      rw [split]
      dsimp only
      rw [if_pos exceeds]
      exact ⟨rfl, chunks, reader, by rw [left, same]⟩
  | last next absent more fits ended left same =>
      have short : ¬ tooLong source.pending.unread = true := by
        rw [tooLong, decide_eq_true_eq]
        exact Nat.not_lt_of_le fits
      rw [if_pos ended, List.append_nil, lines_last absent more]
      dsimp only
      rw [if_neg short]
      exact ⟨rfl, chunks, reader, by rw [left, same, if_pos ended]; rfl⟩
  | done next spent ended left same =>
      rw [if_pos ended, List.append_nil, spent]
      exact ⟨rfl, chunks, reader, by rw [left, same, if_pos ended]; rfl⟩

/-- At the end of the stream the buffer always answers. -/
theorem scan_of_eof (pending : LineBuffer) (ended : pending.eof) :
    ∃ result next, pending.scan = (some result, next) := by
  have scanned := pending.scanned_scan
  cases step : pending.scan with
  | mk result next =>
      cases result with
      | some result => exact ⟨result, next, rfl⟩
      | none =>
          rw [LineBuffer.eof_of_scan step] at ended
          cases ended

/-- A read moves the next chunk into the buffer. -/
theorem delivers_of_read {pending : LineBuffer} {chunks : List Chunk}
    (waits : source.pending.scan = (none, pending))
    (delivered : stream = source.pending.unread ++
      if source.pending.eof then [] else streamOf chunks) :
    match (motive := List Chunk → Prop) chunks with
    | [] => Delivers { reader := [], pending := pending.compact.received [] } stream
    | chunk :: rest => stream =
        (pending.compact.received chunk.bytes).unread ++
          if (pending.compact.received chunk.bytes).eof then [] else streamOf rest := by
  have scanned := source.pending.scanned_scan
  rw [waits] at scanned
  cases scanned with
  | waits next absent fits ended left same =>
      rw [ended, if_neg Bool.false_ne_true] at delivered
      cases chunks with
      | nil =>
          refine ⟨[], rfl, ?_⟩
          rw [LineBuffer.unread_received, LineBuffer.unread_compact, left, delivered,
            List.append_nil]
          rfl
      | cons chunk rest =>
          have open_stream : (pending.compact.received chunk.bytes).eof = false :=
            decide_eq_false chunk.nonempty
          dsimp only
          rw [LineBuffer.unread_received, LineBuffer.unread_compact, left, delivered, open_stream,
            if_neg Bool.false_ne_true, List.append_assoc]
          rfl

/-- The step of every call, for every way the stream comes in chunks. -/
theorem readLine_delivers (delivers : Delivers source stream) :
    (readLine source).1 = (nextLine stream).1 ∧
      Delivers (readLine source).2 (nextLine stream).2 := by
  obtain ⟨chunks, reader, delivered⟩ := delivers
  induction chunks generalizing source with
  | nil =>
      cases step : source.pending.scan with
      | mk result pending =>
          cases result with
          | some result =>
              rw [readLine_of_answer step]
              exact delivers_of_answer ⟨[], reader, delivered⟩ step
          | none =>
              have ended : (pending.compact.received []).eof = true := rfl
              obtain ⟨result, next, answered⟩ := scan_of_eof _ ended
              rw [readLine_of_read step reader]
              dsimp only
              rw [readLine_of_answer answered]
              exact delivers_of_answer (delivers_of_read step delivered) answered
  | cons chunk rest ih =>
      cases step : source.pending.scan with
      | mk result pending =>
          cases result with
          | some result =>
              rw [readLine_of_answer step]
              exact delivers_of_answer ⟨chunk :: rest, reader, delivered⟩ step
          | none =>
              rw [readLine_of_read step reader]
              exact ih rfl (delivers_of_read step delivered)

/-- One call in a loop, with the lines that are left. -/
theorem readLine_cases (delivers : Delivers source stream) :
    (lines stream = [] ∧ (readLine source).1 = .ok none) ∨
    (∃ line later, lines stream = line :: later ∧ tooLong line = true ∧
      (readLine source).1 = .error .lineTooLong) ∨
    ∃ line later, lines stream = line :: later ∧ tooLong line = false ∧
      (readLine source).1 = .ok (some line) ∧
      Delivers (readLine source).2 later.flatten ∧ lines later.flatten = later := by
  obtain ⟨answer, rest⟩ := readLine_delivers delivers
  unfold nextLine at answer rest
  cases split : lines stream with
  | nil =>
      rw [split] at answer
      exact .inl ⟨rfl, answer⟩
  | cons line later =>
      rw [split] at answer rest
      dsimp only at answer rest
      cases exceeds : tooLong line with
      | true =>
          rw [if_pos exceeds] at answer
          exact .inr (.inl ⟨line, later, rfl, exceeds, answer⟩)
      | false =>
          rw [exceeds, if_neg Bool.false_ne_true] at answer rest
          exact .inr (.inr ⟨line, later, rfl, exceeds, answer, rest, splitAfter_later split⟩)

/-- When no line is too long, a call answers with the next line until none is left. -/
theorem readLine_short (delivers : Delivers source stream)
    (short : ∀ line ∈ lines stream, tooLong line = false) :
    (lines stream = [] ∧ (readLine source).1 = .ok none) ∨
    ∃ line later, lines stream = line :: later ∧ (readLine source).1 = .ok (some line) ∧
      Delivers (readLine source).2 later.flatten ∧ lines later.flatten = later := by
  rcases readLine_cases delivers with ended | ⟨line, later, split, exceeds, -⟩ |
    ⟨line, later, split, -, answer, delivered, again⟩
  · exact .inl ended
  · have fits := short line (by rw [split]; exact List.mem_cons_self)
    rw [fits] at exceeds
    cases exceeds
  · exact .inr ⟨line, later, split, answer, delivered, again⟩

theorem delivers_start (chunks : List Chunk) :
    Delivers { reader := readsOf chunks, pending := .empty } (streamOf chunks) :=
  ⟨chunks, rfl, rfl⟩

end Calls

section Runs

theorem lineAnswer_zero (stream : Bytes) : lineAnswer stream 0 = (nextLine stream).1 := by
  unfold lineAnswer nextLine
  cases lines stream with
  | nil => rfl
  | cons line later =>
      simp only [Nat.zero_add, List.take_succ_cons, List.take_zero, List.any_cons, List.any_nil,
        Bool.or_false, List.getElem?_cons_zero]
      split_ifs <;> rfl

/-- The later calls answer for what the first one left. -/
theorem lineAnswer_succ (stream : Bytes) (call : Nat) :
    lineAnswer stream (call + 1) = lineAnswer (nextLine stream).2 call := by
  unfold nextLine
  cases split : lines stream with
  | nil =>
      have spent : lines [] = [] := rfl
      simp [lineAnswer, split, spent]
  | cons line later =>
      dsimp only
      by_cases exceeds : tooLong line = true
      · rw [if_pos exceeds]
        simp [lineAnswer, split, exceeds]
      · have rest : lines later.flatten = later := splitAfter_later split
        rw [if_neg exceeds]
        simp [lineAnswer, split, rest, exceeds]

theorem readLines_delivers {source : LineReader} {stream : Bytes}
    (delivers : Delivers source stream) (count : Nat) :
    readLines source count = (List.range count).map (lineAnswer stream) := by
  induction count generalizing source stream with
  | zero => rfl
  | succ count ih =>
      obtain ⟨answer, later⟩ := readLine_delivers delivers
      rw [List.range_succ_eq_map, List.map_cons, List.map_map, readLines, ih later, answer,
        lineAnswer_zero]
      congr 1
      apply List.map_congr_left
      intro call _
      exact (lineAnswer_succ stream call).symm

/-- Repeated calls give the lines of the stream in order, then nothing, and from a line that is
too long on an error. The lines are the stream, cut behind every newline. -/
theorem readLines_chunks (chunks : List Chunk) (count : Nat) :
    readLines { reader := readsOf chunks, pending := .empty } count =
        (List.range count).map (lineAnswer (streamOf chunks)) ∧
      (lines (streamOf chunks)).flatten = streamOf chunks ∧
      (∀ line ∈ lines (streamOf chunks), line ≠ [] ∧ newline ∉ line.dropLast) ∧
      ∀ line ∈ (lines (streamOf chunks)).dropLast, line.getLast? = some newline := by
  refine ⟨readLines_delivers (delivers_start chunks) count, flatten_lines _, ?_, ?_⟩
  · intro line member
    obtain ⟨more, free⟩ := free_dropLast_of_mem member
    refine ⟨more, ?_⟩
    intro inside
    exact absurd (free newline inside) (by decide)
  · intro line member
    obtain ⟨body, last, rfl, -, ends⟩ := stopped_of_mem_dropLast member
    rw [List.getLast?_concat, of_decide_eq_true ends]

end Runs
end TinySandbox.Sandbox
