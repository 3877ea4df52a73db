/-
This file gives `cat`. The answers of the reads of its inputs are parameters, and so is what
standard output does with the bytes.
-/

import TinySandbox.Construction.Sandbox.Lines
import TinySandbox.Construction.Sandbox.Streams

namespace TinySandbox.Sandbox

structure CatFlags where
  number : Bool := false
  numberNonblank : Bool := false
  squeeze : Bool := false
  showEnds : Bool := false
  showTabs : Bool := false

def CatFlags.plain (flags : CatFlags) : Bool :=
  !(flags.number || flags.numberNonblank || flags.squeeze || flags.showEnds || flags.showTabs)

/-- The state goes on from file to file. -/
structure CatState where
  line : Nat := 0
  prevBlank : Bool := false

def tab : UInt8 := 9

/-- The number is right-aligned in six columns. -/
def catNumber (line : Nat) : Bytes :=
  textBytes (let digits := (toString line).toList
    List.replicate (6 - digits.length) ' ' ++ digits ++ ['\t'])

def catContent (flags : CatFlags) (content : Bytes) : Bytes :=
  if flags.showTabs then content.flatMap fun byte => if byte = tab then textBytes ['^', 'I'] else [byte]
  else content

def catEnd (flags : CatFlags) : Bytes := if flags.showEnds then textBytes ['$'] ++ [newline] else [newline]

/-- A blank line is numbered by `-n` alone. -/
def catNumbered (flags : CatFlags) (blank : Bool) : Bool :=
  if flags.numberNonblank then !blank else flags.number

/-- A line is written with its number and its end, unless it is squeezed. -/
def catLine (flags : CatFlags) (state : CatState) (content : Bytes) (hadNewline : Bool) :
    Bytes × CatState :=
  let blank := content = [] ∧ hadNewline
  if flags.squeeze ∧ blank ∧ state.prevBlank then ([], state)
  else
    let numbered := catNumbered flags blank
    let line := if numbered then state.line + 1 else state.line
    ((if numbered then catNumber line else []) ++ catContent flags content ++
        if hadNewline then catEnd flags else [],
      { line, prevBlank := blank })

def catTransform (flags : CatFlags) (data : Bytes) (state : CatState) : Bytes × CatState :=
  if _ : data = [] then ([], state)
  else
    match _ : data.dropWhile (· ≠ newline) with
    | [] => catLine flags state data false
    | _ :: rest =>
        let line := catLine flags state (data.takeWhile (· ≠ newline)) true
        let later := catTransform flags rest line.2
        (line.1 ++ later.1, later.2)
termination_by data.length
decreasing_by
  have shorter := (List.dropWhile_sublist (l := data) (· ≠ newline)).length_le
  rw [‹data.dropWhile _ = _›] at shorter
  exact shorter

/-- An output whose reader is gone ends the command without a report. -/
inductive CatError where
  | brokenPipe
  | stream (error : StreamError)

def lineTooLongText : Text := "line too long".toList

/-- The text of an error. Only a reader of a single line reports a line. -/
def StreamError.text : StreamError → Text
  | .lineTooLong => lineTooLongText
  | .retainedInputTooLarge => "retained input too large for tinysandbox tail".toList
  | .inputTooLarge => "input too large".toList
  | .other error => (errnoMessage error).toList

def streamReport (cmd path : Text) (error : StreamError) : Text :=
  cmd ++ ": ".toList ++ path ++ ": ".toList ++ error.text ++ ['\n']

section Streams
variable {ω : Type} (writeAll : Bytes → ω → Except CatError Unit × ω)

/-- The result with what is left of the reads, the output, and the state. -/
structure CatRun (ω : Type) where
  reads : List (Except Errno Bytes)
  stdout : ω
  state : CatState

def catPlain : List (Except Errno Bytes) → ω → CatState → Except CatError Unit × CatRun ω
  | [], stdout, state => (.ok (), { reads := [], stdout, state })
  | .error error :: reads, stdout, state => (.error (.stream (.other error)), { reads, stdout, state })
  | .ok chunk :: reads, stdout, state =>
      if chunk = [] then (.ok (), { reads, stdout, state })
      else
        match writeAll chunk stdout with
        | (.error error, stdout) => (.error error, { reads, stdout, state })
        | (.ok _, stdout) => catPlain reads stdout state

def catLines (flags : CatFlags) (source : LineReader) (stdout : ω) (state : CatState) :
    Except CatError Unit × CatRun ω :=
  match _ : readLine source with
  | (.error error, next) => (.error (.stream error), { reads := next.reader, stdout, state })
  | (.ok none, next) => (.ok (), { reads := next.reader, stdout, state })
  | (.ok (some line), next) =>
      let written := catTransform flags line state
      match writeAll written.1 stdout with
      | (.error error, stdout) =>
          (.error error, { reads := next.reader, stdout, state := written.2 })
      | (.ok _, stdout) => catLines flags next stdout written.2
termination_by (source.reader.length, source.pending.unread.length)
decreasing_by exact readLine_decreases ‹_›

/-- The bytes that were read ahead are dropped with the buffer. -/
def catStream (flags : CatFlags) (reads : List (Except Errno Bytes)) (stdout : ω) (state : CatState) :
    Except CatError Unit × CatRun ω :=
  if flags.plain then catPlain writeAll reads stdout state
  else catLines writeAll flags { reader := reads, pending := .empty } stdout state

/-- The exit code with the output, the text for the standard error, and the state. -/
structure CatExit (ω : Type) where
  exit : Int
  stdout : ω
  stderr : Text
  state : CatState

/-- A file that fails is reported, and the other files go on. -/
def catFiles (openFile : Text → VfsResult (List (Except Errno Bytes))) (flags : CatFlags) :
    List Text → List (Except Errno Bytes) → CatExit ω → CatExit ω
  | [], _, run => run
  | path :: paths, stdin, run =>
      let opened := if path = ['-'] then .ok stdin else openFile path
      match opened with
      | .error error =>
          catFiles openFile flags paths stdin
            { run with exit := 1, stderr := run.stderr ++ streamReport "cat".toList path (.other error) }
      | .ok reads =>
          let (result, after) := catStream writeAll flags reads run.stdout run.state
          let stdin := if path = ['-'] then after.reads else stdin
          let run := { run with stdout := after.stdout, state := after.state }
          match result with
          | .ok _ => catFiles openFile flags paths stdin run
          | .error .brokenPipe => { run with exit := 1 }
          | .error (.stream error) =>
              catFiles openFile flags paths stdin
                { run with exit := 1, stderr := run.stderr ++ streamReport "cat".toList path error }

def CatFlags.set (flags : CatFlags) : Char → Option CatFlags
  | 'n' => some { flags with number := true }
  | 'b' => some { flags with numberNonblank := true }
  | 's' => some { flags with squeeze := true }
  | 'E' => some { flags with showEnds := true }
  | 'T' => some { flags with showTabs := true }
  | _ => none

def cat (openFile : Text → VfsResult (List (Except Errno Bytes))) (args : List Text)
    (stdin : List (Except Errno Bytes)) (stdout : ω) : CatExit ω :=
  match parseFlags CatFlags.set args {} [] with
  | .error flag => { exit := 1, stdout, stderr := unsupportedReport "cat".toList flag, state := {} }
  | .ok (flags, paths) =>
      catFiles writeAll openFile flags (if paths = [] then [['-']] else paths) stdin
        { exit := 0, stdout, stderr := [], state := {} }

end Streams

end TinySandbox.Sandbox
