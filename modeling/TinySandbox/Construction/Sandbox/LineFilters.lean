/-
This file gives `sort`, and how `grep` and `uniq` read the lines of one input.
The rank of the number of a line and the matcher are parameters, and so is what standard output does
with the bytes.
-/

import Mathlib.Data.List.Destutter
import TinySandbox.Construction.Sandbox.Lines
import TinySandbox.Construction.Sandbox.Streams
import TinySandbox.Library.SplitAfter

namespace TinySandbox.Sandbox
open Library Library.Task Mem

def isContinuation (byte : UInt8) : Bool := 0x80 ≤ byte ∧ byte ≤ 0xBF

/-- A first byte of a character of three or four bytes allows this second byte. -/
def allowsSecond (first second : UInt8) : Bool :=
  if first = 0xE0 then 0xA0 ≤ second ∧ second ≤ 0xBF
  else if first = 0xED then 0x80 ≤ second ∧ second ≤ 0x9F
  else if 0xE1 ≤ first ∧ first ≤ 0xEF then isContinuation second
  else if first = 0xF0 then 0x90 ≤ second ∧ second ≤ 0xBF
  else if 0xF1 ≤ first ∧ first ≤ 0xF3 then isContinuation second
  else if first = 0xF4 then 0x80 ≤ second ∧ second ≤ 0x8F
  else false

/-- The bytes that one replacement character stands for. -/
def invalidLength : Bytes → Nat
  | first :: second :: rest =>
      if allowsSecond first second then if rest.head?.any isContinuation then 3 else 2 else 1
  | _ => 1

theorem invalidLength_pos (bytes : Bytes) : 0 < invalidLength bytes := by
  unfold invalidLength
  split
  · split_ifs <;> decide
  · decide

/-- Bytes that are no character give the replacement character. -/
def fromUtf8Lossy (bytes : Bytes) : Text :=
  if _ : bytes = [] then []
  else
    match bytes.toByteArray.utf8DecodeChar? 0 with
    | some symbol => symbol :: fromUtf8Lossy (bytes.drop symbol.utf8Size)
    | none => '\uFFFD' :: fromUtf8Lossy (bytes.drop (invalidLength bytes))
termination_by bytes.length
decreasing_by
  · have filled := List.length_pos_iff.mpr ‹_›
    have size := symbol.utf8Size_pos
    rw [List.length_drop]
    omega
  · have filled := List.length_pos_iff.mpr ‹_›
    have size := invalidLength_pos bytes
    rw [List.length_drop]
    omega

/-- A newline goes with the carriage return before it. -/
def stripLineEnd (line : Text) : Text :=
  if line.getLast? = some '\n' then
    if line.dropLast.getLast? = some '\r' then line.dropLast.dropLast else line.dropLast
  else line

def textLines (text : Text) : List Text := (splitAfter (· = '\n') text).map stripLineEnd

structure SortFlags where
  reverse : Bool := false
  numeric : Bool := false
  unique : Bool := false

def SortFlags.set (flags : SortFlags) : Char → Option SortFlags
  | 'r' => some { flags with reverse := true }
  | 'n' => some { flags with numeric := true }
  | 'u' => some { flags with unique := true }
  | _ => none

section Numbers
variable (numericKey : Text → Int)

/-- Lines with the same number go by their bytes. -/
def sortBefore (flags : SortFlags) (first second : Text) : Bool :=
  if flags.numeric ∧ numericKey first ≠ numericKey second then numericKey first < numericKey second
  else textBytes first ≤ textBytes second

def sortLines (flags : SortFlags) (lines : List Text) : List Text :=
  let sorted := lines.mergeSort (sortBefore numericKey flags)
  let kept :=
    if flags.unique then
      if flags.numeric then sorted.destutter fun kept line => numericKey kept ≠ numericKey line
      else sorted.destutter (· ≠ ·)
    else sorted
  if flags.reverse then kept.reverse else kept

structure SortExit (ω : Type) where
  exit : Int
  stdout : ω
  stderr : Text

section Output
variable {ε ω : Type} (writeAll : Bytes → ω → Except ε Unit × ω)

/-- There is a checkpoint before every 1024 lines. -/
def checkLine (fs : Fs) (index : Nat) : FsTask (VfsResult Unit) :=
  if index % 1024 = 0 then attempt fs.checkpoint else pure (.ok ())

def writeSorted (fs : Fs) : Nat → List Text → ω → FsTask (SortExit ω)
  | _, [], stdout => pure { exit := 0, stdout, stderr := [] }
  | index, line :: lines, stdout => do
      match ← checkLine fs index with
      | .error _ => pure { exit := 124, stdout, stderr := [] }
      | .ok _ =>
          match writeAll (textBytes line) stdout with
          | (.error _, stdout) => pure { exit := 1, stdout, stderr := [] }
          | (.ok _, stdout) =>
              match writeAll [newline] stdout with
              | (.error _, stdout) => pure { exit := 1, stdout, stderr := [] }
              | (.ok _, stdout) => writeSorted fs (index + 1) lines stdout

/-- All inputs are read before the first line is written. -/
def sortFiles (fs : Fs) (limit : Nat) (awaits : Nat → List (List Nat)) (flags : SortFlags)
    (files : List Text) (stdin : AsyncRead) (stdout : ω) : FsTask (SortExit ω) := do
  match ← readInputs fs files stdin limit "sort".toList awaits with
  | .error (exit, stderr) => pure { exit, stdout, stderr }
  | .ok input =>
      match ← attempt fs.checkpoint with
      | .error _ => pure { exit := 124, stdout, stderr := [] }
      | .ok _ =>
          writeSorted writeAll fs 0 (sortLines numericKey flags (textLines (fromUtf8Lossy input)))
            stdout

def sort (fs : Fs) (limit : Nat) (awaits : Nat → List (List Nat)) (args : List Text)
    (stdin : AsyncRead) (stdout : ω) : FsTask (SortExit ω) :=
  match parseFlags SortFlags.set args {} [] with
  | .error flag => pure { exit := 2, stdout, stderr := unsupportedReport "sort".toList flag }
  | .ok (flags, files) => sortFiles numericKey writeAll fs limit awaits flags files stdin stdout

end Output

end Numbers

/-- The text of a line is without its newline, and then without a carriage return. -/
def lineTextLossy (line : Bytes) : Text :=
  let text := fromUtf8Lossy line
  let body := if text.getLast? = some '\n' then text.dropLast else text
  if body.getLast? = some '\r' then body.dropLast else body

structure GrepFlags where
  invert : Bool := false
  lineNumbers : Bool := false
  count : Bool := false

section Streams
variable {ω : Type} (writeAll : Bytes → ω → Except StreamError Unit × ω)

/-- A write that fails keeps the later ones from being tried. -/
def writeParts : List Bytes → ω → Except StreamError Unit × ω
  | [], stdout => (.ok (), stdout)
  | part :: parts, stdout =>
      match writeAll part stdout with
      | (.error error, stdout) => (.error error, stdout)
      | (.ok _, stdout) => writeParts parts stdout

/-- What stands before a line or a count that `grep` writes. -/
def grepLabel (path : Text) (showPath : Bool) : List Bytes :=
  if showPath then [textBytes (path ++ [':'])] else []

def grepParts (flags : GrepFlags) (path : Text) (showPath : Bool) (lineNo : Nat) (line : Text) :
    List Bytes :=
  grepLabel path showPath ++
    (if flags.lineNumbers then [textBytes ((toString lineNo).toList ++ [':'])] else []) ++
    [textBytes (line ++ ['\n'])]

abbrev GrepResult (ω α : Type) := Except StreamError α × LineReader × ω

/-- The loop counts the lines that were read and those that are selected. -/
def grepLoop (isMatch : Text → Bool) (flags : GrepFlags) (path : Text) (showPath : Bool)
    (lineNo matched : Nat) (source : LineReader) (stdout : ω) : GrepResult ω Nat :=
  match _ : readLine source with
  | (.error error, source) => (.error error, source, stdout)
  | (.ok none, source) => (.ok matched, source, stdout)
  | (.ok (some line), next) =>
      let text := lineTextLossy line
      if isMatch text ^^ flags.invert then
        if flags.count then
          grepLoop isMatch flags path showPath (lineNo + 1) (matched + 1) next stdout
        else
          match writeParts writeAll (grepParts flags path showPath (lineNo + 1) text) stdout with
          | (.error error, stdout) => (.error error, next, stdout)
          | (.ok _, stdout) =>
              grepLoop isMatch flags path showPath (lineNo + 1) (matched + 1) next stdout
      else grepLoop isMatch flags path showPath (lineNo + 1) matched next stdout
termination_by (source.reader.length, source.pending.unread.length)
decreasing_by all_goals exact readLine_decreases ‹_›

def grepReader (isMatch : Text → Bool) (flags : GrepFlags) (path : Text) (showPath : Bool)
    (reader : List (Except Errno Bytes)) (stdout : ω) : GrepResult ω Bool :=
  match grepLoop writeAll isMatch flags path showPath 0 0 { reader, pending := .empty } stdout with
  | (.error error, source, stdout) => (.error error, source, stdout)
  | (.ok matched, source, stdout) =>
      let total := if flags.count then
          grepLabel path showPath ++ [textBytes ((toString matched).toList ++ ['\n'])]
        else []
      match writeParts writeAll total stdout with
      | (.error error, stdout) => (.error error, source, stdout)
      | (.ok _, stdout) => (.ok (0 < matched), source, stdout)

structure UniqFlags where
  count : Bool := false
  repeated : Bool := false
  uniqueOnly : Bool := false

/-- The count is right-aligned in seven columns. -/
def uniqParts (flags : UniqFlags) (line : Text) (times : Nat) : List Bytes :=
  if flags.repeated ∧ times = 1 then []
  else if flags.uniqueOnly ∧ times ≠ 1 then []
  else if flags.count then
    let digits := (toString times).toList
    [textBytes (List.replicate (7 - digits.length) ' ' ++ digits ++ ' ' :: line ++ ['\n'])]
  else [textBytes (line ++ ['\n'])]

/-- The current line is written when a different one comes. -/
def uniqLoop (flags : UniqFlags) (current : Option (Text × Nat)) (source : LineReader) (stdout : ω) :
    GrepResult ω (Option (Text × Nat)) :=
  match _ : readLine source with
  | (.error error, source) => (.error error, source, stdout)
  | (.ok none, source) => (.ok current, source, stdout)
  | (.ok (some line), next) =>
      let text := lineTextLossy line
      match current with
      | none => uniqLoop flags (some (text, 1)) next stdout
      | some (last, times) =>
          if last = text then uniqLoop flags (some (last, times + 1)) next stdout
          else
            match writeParts writeAll (uniqParts flags last times) stdout with
            | (.error error, stdout) => (.error error, next, stdout)
            | (.ok _, stdout) => uniqLoop flags (some (text, 1)) next stdout
termination_by (source.reader.length, source.pending.unread.length)
decreasing_by all_goals exact readLine_decreases ‹_›

def uniqReader (flags : UniqFlags) (reader : List (Except Errno Bytes)) (stdout : ω) :
    GrepResult ω Unit :=
  match uniqLoop writeAll flags none { reader, pending := .empty } stdout with
  | (.error error, source, stdout) => (.error error, source, stdout)
  | (.ok none, source, stdout) => (.ok (), source, stdout)
  | (.ok (some (last, times)), source, stdout) =>
      match writeParts writeAll (uniqParts flags last times) stdout with
      | (.error error, stdout) => (.error error, source, stdout)
      | (.ok _, stdout) => (.ok (), source, stdout)

end Streams

end TinySandbox.Sandbox
