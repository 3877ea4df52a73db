/-
This file gives the line reader of the text commands and the common reader of `head` and `tail`.
A stream is the list of the answers to its reads, and behind the list every read is at the end.
What standard output does with the bytes is a parameter.
-/

import TinySandbox.Construction.Types

namespace TinySandbox.Sandbox

inductive StreamError where
  | lineTooLong
  | retainedInputTooLarge
  | inputTooLarge
  | other (error : Errno)
  deriving DecidableEq

def newline : UInt8 := 10

def maxStreamLineBytes : Nat := 1024 * 1024

/-- The bytes between `start` and `scanned` are part of a line that has not ended yet. -/
structure LineBuffer where
  bytes : Bytes
  start : Nat
  scanned : Nat
  eof : Bool
  start_le : start ≤ scanned
  scanned_le : scanned ≤ bytes.length
  searched : newline ∉ (bytes.take scanned).drop start

abbrev LineResult := Except StreamError (Option Bytes)

namespace LineBuffer

/-- This is the default of the source. -/
def empty : LineBuffer where
  bytes := []
  start := 0
  scanned := 0
  eof := false
  start_le := Nat.le_refl 0
  scanned_le := Nat.le_refl 0
  searched := List.not_mem_nil

def unread (pending : LineBuffer) : Bytes := pending.bytes.drop pending.start

/-- The line before `finish` is taken. -/
def consumed (pending : LineBuffer) (finish : Nat) (inside : finish ≤ pending.bytes.length) :
    LineBuffer :=
  { pending with
    start := finish
    scanned := finish
    start_le := Nat.le_refl finish
    scanned_le := inside
    searched := by
      rw [List.drop_of_length_le (List.length_take_le _ _)]
      exact List.not_mem_nil }

theorem unread_eq (pending : LineBuffer) :
    pending.unread = (pending.bytes.take pending.scanned).drop pending.start ++
      pending.bytes.drop pending.scanned := by
  have short : pending.start ≤ (pending.bytes.take pending.scanned).length := by
    rw [List.length_take, min_eq_left pending.scanned_le]
    exact pending.start_le
  rw [← List.drop_append_of_le_length short, List.take_append_drop]
  rfl

theorem not_mem_unread {pending : LineBuffer}
    (absent : newline ∉ pending.bytes.drop pending.scanned) : newline ∉ pending.unread := by
  rw [pending.unread_eq, List.mem_append]
  exact not_or.mpr ⟨pending.searched, absent⟩

def scannedAll (pending : LineBuffer) (absent : newline ∉ pending.bytes.drop pending.scanned) :
    LineBuffer :=
  { pending with
    scanned := pending.bytes.length
    start_le := Nat.le_trans pending.start_le pending.scanned_le
    scanned_le := Nat.le_refl _
    searched := by
      rw [List.take_length]
      exact not_mem_unread absent }

/-- Without a newline only the end of the stream ends a line, and else there is no answer yet. -/
def atEnd (pending : LineBuffer) : Option LineResult × LineBuffer :=
  if maxStreamLineBytes < pending.bytes.length - pending.start then
    (some (.error .lineTooLong), pending)
  else if pending.eof then
    if pending.start = pending.bytes.length then (some (.ok none), pending)
    else (some (.ok (some pending.unread)), pending.consumed pending.bytes.length (Nat.le_refl _))
  else (none, pending)

/-- One pass of the loop goes up to the next read. -/
def scan (pending : LineBuffer) : Option LineResult × LineBuffer :=
  if found : newline ∈ pending.bytes.drop pending.scanned then
    let finish := pending.scanned + (pending.bytes.drop pending.scanned).idxOf newline + 1
    if maxStreamLineBytes < finish - pending.start then (some (.error .lineTooLong), pending)
    else
      (some (.ok (some ((pending.bytes.take finish).drop pending.start))),
        pending.consumed finish (by
          have inside := List.idxOf_lt_length_iff.mpr found
          rw [List.length_drop] at inside
          omega))
  else (pending.scannedAll found).atEnd

def compact (pending : LineBuffer) : LineBuffer :=
  { pending with
    bytes := pending.bytes.drop pending.start
    start := 0
    scanned := pending.scanned - pending.start
    start_le := Nat.zero_le _
    scanned_le := by
      rw [List.length_drop]
      exact Nat.sub_le_sub_right pending.scanned_le _
    searched := by
      rw [List.drop_zero, ← List.drop_take]
      exact pending.searched }

/-- A read of no bytes is the end of the stream. -/
def received (pending : LineBuffer) (chunk : Bytes) : LineBuffer :=
  { pending with
    bytes := pending.bytes ++ chunk
    eof := chunk = []
    scanned_le := by
      rw [List.length_append]
      exact Nat.le_add_right_of_le pending.scanned_le
    searched := by
      rw [List.take_append_of_le_length pending.scanned_le]
      exact pending.searched }

end LineBuffer

/-- A stream with the bytes that were read ahead. -/
structure LineReader where
  reader : List (Except Errno Bytes)
  pending : LineBuffer

namespace LineBuffer

/-- A pass answers with the first unread line, it answers at the end, or it waits for a read. -/
inductive Scanned (pending : LineBuffer) : Option LineResult × LineBuffer → Prop where
  | exceeds (body tail : Bytes) (unread : pending.unread = body ++ newline :: tail)
      (absent : newline ∉ body) (long : maxStreamLineBytes < body.length + 1) :
      Scanned pending (some (.error .lineTooLong), pending)
  | line (body tail : Bytes) (next : LineBuffer) (unread : pending.unread = body ++ newline :: tail)
      (absent : newline ∉ body) (fits : body.length + 1 ≤ maxStreamLineBytes)
      (left : next.unread = tail) (same : next.eof = pending.eof) :
      Scanned pending (some (.ok (some (body ++ [newline]))), next)
  | part (next : LineBuffer) (absent : newline ∉ pending.unread)
      (long : maxStreamLineBytes < pending.unread.length) (left : next.unread = pending.unread)
      (same : next.eof = pending.eof) :
      Scanned pending (some (.error .lineTooLong), next)
  | last (next : LineBuffer) (absent : newline ∉ pending.unread) (more : pending.unread ≠ [])
      (fits : pending.unread.length ≤ maxStreamLineBytes) (ended : pending.eof)
      (left : next.unread = []) (same : next.eof = pending.eof) :
      Scanned pending (some (.ok (some pending.unread)), next)
  | done (next : LineBuffer) (spent : pending.unread = []) (ended : pending.eof)
      (left : next.unread = []) (same : next.eof = pending.eof) :
      Scanned pending (some (.ok none), next)
  | waits (next : LineBuffer) (absent : newline ∉ pending.unread)
      (fits : pending.unread.length ≤ maxStreamLineBytes) (ended : pending.eof = false)
      (left : next.unread = pending.unread) (same : next.eof = pending.eof) :
      Scanned pending (none, next)

/-- The position of the newline cuts the unread bytes behind the first line. -/
theorem unread_cut {pending : LineBuffer} {body tail : Bytes}
    (fresh : pending.bytes.drop pending.scanned = body ++ newline :: tail) (absent : newline ∉ body) :
    ∃ front, newline ∉ front ∧ pending.unread = front ++ newline :: tail ∧
      pending.scanned + (pending.bytes.drop pending.scanned).idxOf newline + 1 =
        pending.start + (front.length + 1) := by
  refine ⟨(pending.bytes.take pending.scanned).drop pending.start ++ body, ?_, ?_, ?_⟩
  · rw [List.mem_append]
    exact not_or.mpr ⟨pending.searched, absent⟩
  · rw [pending.unread_eq, fresh, List.append_assoc]
  · have ordered := pending.start_le
    have inside := pending.scanned_le
    rw [fresh, List.idxOf_append_of_notMem absent, List.idxOf_cons_self, List.length_append,
      List.length_drop, List.length_take]
    omega

theorem scanned_atEnd {pending : LineBuffer}
    (absent : newline ∉ pending.bytes.drop pending.scanned) :
    Scanned pending (pending.scannedAll absent).atEnd := by
  have length : pending.unread.length = pending.bytes.length - pending.start := List.length_drop
  have clean := not_mem_unread absent
  have passed : pending.start ≤ pending.bytes.length :=
    Nat.le_trans pending.start_le pending.scanned_le
  unfold atEnd
  split_ifs with long ended spent
  · exact .part _ clean (length ▸ long) rfl rfl
  · exact .done _ (List.drop_of_length_le (Nat.le_of_eq (Eq.symm spent))) ended
      (List.drop_of_length_le (Nat.le_of_eq (Eq.symm spent))) rfl
  · have more : pending.unread ≠ [] := by
      intro nothing
      exact spent (Nat.le_antisymm passed (List.drop_eq_nil_iff.mp nothing))
    exact .last _ clean more (length ▸ Nat.le_of_not_lt long) ended List.drop_length rfl
  · exact .waits _ clean (length ▸ Nat.le_of_not_lt long) (Bool.not_eq_true _ ▸ ended) rfl rfl

theorem scanned_scan (pending : LineBuffer) : Scanned pending pending.scan := by
  unfold scan
  by_cases found : newline ∈ pending.bytes.drop pending.scanned
  · obtain ⟨body, tail, fresh, absent⟩ := List.eq_append_cons_of_mem found
    obtain ⟨front, clean, unread, finish⟩ := unread_cut fresh absent
    rw [dif_pos found]
    dsimp only
    split_ifs with long
    · rw [finish, Nat.add_sub_cancel_left] at long
      exact .exceeds front tail unread clean long
    · rw [finish, Nat.add_sub_cancel_left] at long
      have line : (pending.bytes.take (pending.start + (front.length + 1))).drop pending.start =
          front ++ [newline] := by
        rw [List.drop_take, Nat.add_sub_cancel_left]
        change pending.unread.take _ = _
        rw [unread, List.take_length_add_append]
        rfl
      have left : pending.bytes.drop (pending.start + (front.length + 1)) = tail := by
        rw [← List.drop_drop]
        change pending.unread.drop _ = _
        rw [unread, List.drop_length_add_append]
        rfl
      rw [← finish] at line left
      rw [line]
      exact .line front tail _ unread clean (Nat.le_of_not_lt long) left rfl
  · rw [dif_neg found]
    exact scanned_atEnd found

@[simp] theorem unread_compact (pending : LineBuffer) : pending.compact.unread = pending.unread :=
  List.drop_zero

@[simp] theorem unread_received (pending : LineBuffer) (chunk : Bytes) :
    (pending.received chunk).unread = pending.unread ++ chunk :=
  List.drop_append_of_le_length (Nat.le_trans pending.start_le pending.scanned_le)

theorem eof_of_scan {pending next : LineBuffer} (waits : pending.scan = (none, next)) :
    pending.eof = false := by
  have scanned := pending.scanned_scan
  rw [waits] at scanned
  cases scanned with
  | waits next absent fits ended left same => exact ended

end LineBuffer

/-- A line ends within the buffer, or the next chunk is read. -/
def readLine (source : LineReader) : LineResult × LineReader :=
  match _ : source.pending.scan with
  | (some result, pending) => (result, { source with pending })
  | (none, pending) =>
      match _ : source.reader with
      | [] => readLine { reader := [], pending := pending.compact.received [] }
      | .error error :: rest => (.error (.other error), { reader := rest, pending := pending.compact })
      | .ok chunk :: rest => readLine { reader := rest, pending := pending.compact.received chunk }
termination_by (source.reader.length, if source.pending.eof then 0 else 1)
decreasing_by
  · rw [LineBuffer.eof_of_scan ‹source.pending.scan = _›, ‹source.reader = []›]
    apply Prod.Lex.right
    exact Nat.zero_lt_one
  · rw [‹source.reader = _›]
    exact Prod.Lex.left _ _ (Nat.lt_succ_self _)

/-- A line that is read is taken from the chunks or from the unread bytes. -/
theorem readLine_decreases {source next : LineReader} {line : Bytes}
    (taken : readLine source = (.ok (some line), next)) :
    Prod.Lex (· < ·) (· < ·) (next.reader.length, next.pending.unread.length)
      (source.reader.length, source.pending.unread.length) := by
  have scanned := source.pending.scanned_scan
  unfold readLine at taken
  split at taken
  · rename_i result pending answered
    obtain ⟨rfl, rfl⟩ := Prod.mk.inj taken
    rw [answered] at scanned
    apply Prod.Lex.right
    cases scanned with
    | line body tail next unread absent fits left same =>
        rw [unread, left, List.length_append, List.length_cons]
        omega
    | last next absent more fits ended left same =>
        rw [left]
        exact List.length_pos_iff.mpr more
  · rename_i pending waits
    rw [waits] at scanned
    cases scanned with
    | waits next absent fits ended left same => ?_
    split at taken
    · rename_i none
      have later := readLine_decreases taken
      rw [LineBuffer.unread_received, LineBuffer.unread_compact, List.append_nil, left] at later
      rw [none]
      exact later
    · cases congrArg Prod.fst taken
    · rename_i chunk rest more
      have later := readLine_decreases taken
      rw [more]
      apply Prod.Lex.left
      rcases Prod.lex_def.mp later with fewer | ⟨equal, -⟩
      · exact Nat.lt_succ_of_lt fewer
      · exact Nat.lt_succ_of_le (Nat.le_of_eq equal)
termination_by (source.reader.length, if source.pending.eof then 0 else 1)
decreasing_by
  · rw [LineBuffer.eof_of_scan ‹source.pending.scan = _›, ‹source.reader = []›]
    apply Prod.Lex.right
    exact Nat.zero_lt_one
  · rw [‹source.reader = _›]
    exact Prod.Lex.left _ _ (Nat.lt_succ_self _)

inductive TailCount where
  | last (limit : Nat)
  | start (line : Nat)
  deriving DecidableEq

structure HeadTailSettings where
  count : TailCount
  headMode : Bool
  windowBytes : Nat

def textBytes (text : Text) : Bytes := text.flatMap String.utf8EncodeChar

section Streams
variable {ω : Type} (writeAll : Bytes → ω → Except StreamError Unit × ω)

abbrev StreamResult (ω : Type) := Except StreamError Unit × LineReader × ω

/-- An output that fails ends the command. -/
def writeThen (bytes : Bytes) (source : LineReader) (stdout : ω)
    (next : LineReader → ω → StreamResult ω) : StreamResult ω :=
  match writeAll bytes stdout with
  | (.error error, stdout) => (.error error, source, stdout)
  | (.ok _, stdout) => next source stdout

def headLines : Nat → LineReader → ω → StreamResult ω
  | 0, source, stdout => (.ok (), source, stdout)
  | count + 1, source, stdout =>
      match readLine source with
      | (.error error, source) => (.error error, source, stdout)
      | (.ok none, source) => (.ok (), source, stdout)
      | (.ok (some line), source) => writeThen writeAll line source stdout (headLines count)

/-- The oldest line of the window ends with its first newline. -/
def popLine : Bytes → Bytes
  | [] => []
  | byte :: rest => if byte = newline then rest else popLine rest

structure TailWindow where
  window : Bytes := []
  retainedLines : Nat := 0

def TailWindow.retain (tail : TailWindow) (limit windowBytes : Nat) (line : Bytes) :
    Except StreamError TailWindow :=
  if limit = 0 then .ok tail
  else
    let kept : TailWindow :=
      if tail.retainedLines = limit then
        { window := popLine tail.window, retainedLines := tail.retainedLines - 1 }
      else tail
    if windowBytes < kept.window.length + line.length then .error .retainedInputTooLarge
    else .ok { window := kept.window ++ line, retainedLines := kept.retainedLines + 1 }

/-- The window is what is left of the lines at the end of the stream. -/
def tailLines (limit windowBytes : Nat) (source : LineReader) (tail : TailWindow) :
    Except StreamError Bytes × LineReader :=
  match _ : readLine source with
  | (.error error, source) => (.error error, source)
  | (.ok none, source) => (.ok tail.window, source)
  | (.ok (some line), next) =>
      match tail.retain limit windowBytes line with
      | .error error => (.error error, next)
      | .ok tail => tailLines limit windowBytes next tail
termination_by (source.reader.length, source.pending.unread.length)
decreasing_by exact readLine_decreases ‹_›

def linesFrom (start lineNo : Nat) (source : LineReader) (stdout : ω) : StreamResult ω :=
  match _ : readLine source with
  | (.error error, source) => (.error error, source, stdout)
  | (.ok none, source) => (.ok (), source, stdout)
  | (.ok (some line), next) =>
      match if start ≤ lineNo then writeAll line stdout else (.ok (), stdout) with
      | (.error error, stdout) => (.error error, next, stdout)
      | (.ok _, stdout) => linesFrom start (lineNo + 1) next stdout
termination_by (source.reader.length, source.pending.unread.length)
decreasing_by exact readLine_decreases ‹_›

def countLines (settings : HeadTailSettings) (source : LineReader) (stdout : ω) : StreamResult ω :=
  match settings.count with
  | .start start => linesFrom writeAll start 1 source stdout
  | .last limit =>
      if settings.headMode then headLines writeAll limit source stdout
      else
        match tailLines limit settings.windowBytes source {} with
        | (.error error, source) => (.error error, source, stdout)
        | (.ok window, source) =>
            writeThen writeAll window source stdout fun source stdout => (.ok (), source, stdout)

/-- A header stands above every file, and an empty line between two of them. -/
def headerBytes (label : Text) (index : Nat) : List Bytes :=
  (if 0 < index then [[newline]] else []) ++ [textBytes ("==> ".toList ++ label ++ " <==\n".toList)]

def writeEach : List Bytes → LineReader → ω → (LineReader → ω → StreamResult ω) → StreamResult ω
  | [], source, stdout, next => next source stdout
  | bytes :: rest, source, stdout, next =>
      writeThen writeAll bytes source stdout fun source stdout => writeEach rest source stdout next

/-- The line buffer of a file starts empty. -/
def headTailReader (reader : List (Except Errno Bytes)) (stdout : ω) (label : Text)
    (showHeader : Bool) (settings : HeadTailSettings) (index : Nat) : StreamResult ω :=
  writeEach writeAll (if showHeader then headerBytes label index else [])
    { reader, pending := .empty } stdout (countLines writeAll settings)

end Streams

end TinySandbox.Sandbox
