/-
This file gives a backend whose files do not change while they are read, and says what an exact
delivery of a file or a redirect is. It says what a line of a stream is, what the calls of a line
reader answer, and what the outputs of `sort`, `grep`, `uniq` and `cat` are.
-/

import Mathlib.Data.List.DropRight
import TinySandbox.Construction.Sandbox.Cat
import TinySandbox.Construction.Sandbox.LineFilters
import TinySandbox.Construction.Sandbox.Lines
import TinySandbox.Construction.Sandbox.Redirect
import TinySandbox.Construction.Sandbox.Streams
import TinySandbox.Library.Serving
import TinySandbox.Library.SplitAfter

namespace TinySandbox.Sandbox
open Library Library.Task Mem

/-- A length is a `u64`. -/
abbrev FileContent := { content : Bytes // content.length ≤ u64Max }

/-- A handle is the number of its open. -/
structure ServedFile where
  path : Text
  registered : Bool := false
  finishes : Nat := 0
  deriving DecidableEq

/-- The read with a number gives at most so many bytes, but never none before the end. -/
structure FileServer where
  contents : Text → FileContent
  grants : Nat → Nat
  fast : Nat → Bool
  reads : Nat := 0
  files : List ServedFile := []

namespace FileServer

def change (server : FileServer) (handle : Nat) (update : ServedFile → ServedFile) : FileServer :=
  { server with files := server.files.modify handle update }

def contentOf (server : FileServer) (handle : Nat) : Option Bytes :=
  (server.files[handle]?).map fun file => (server.contents file.path).val

def finished (file : ServedFile) : ServedFile := { file with finishes := file.finishes + 1 }

def registeredAt (server : FileServer) (handle : Nat) : Bool :=
  (server.files[handle]?).any ServedFile.registered

def readAt (server : FileServer) (handle offset bufLen : Nat) : VfsResult Bytes × FileServer :=
  match server.contentOf handle with
  | none => (.error .EBADF, server)
  | some content =>
      (.ok ((content.drop offset).take (min bufLen (max 1 (server.grants server.reads)))),
        { server with reads := server.reads + 1 })

def call (server : FileServer) : (call : VfsCall) → VfsResult call.Value × FileServer
  | .open path _ => (.ok server.files.length, { server with files := server.files ++ [{ path }] })
  | .readAt handle offset bufLen => server.readAt handle offset bufLen
  | .close handle => (.ok (), server.change handle finished)
  | .abort handle => (.ok (), server.change handle finished)
  | _ => (.error .EINVAL, server)

/-- Nothing is cancelled, and every admission is granted. An abandoned handle is aborted. -/
def respond (server : FileServer) : (request : FsRequest) → Option (request.Response × FileServer)
  | .isCancelled => some (false, server)
  | .reserve => some (.ok (), server)
  | .release => some ((), server)
  | .insert handle => some ((), server.change handle fun file => { file with registered := true })
  | .remove handle =>
      if server.registeredAt handle then
        some (.ok (), server.change handle fun file => { file with registered := false })
      else some (.error .EBADF, server)
  | .abandon handle =>
      if server.registeredAt handle then
        some ((), server.change handle fun file => finished { file with registered := false })
      else some ((), server)
  | .isFastPath _ => some (server.fast server.reads, server)
  | .isFastHandle _ => some (server.fast server.reads, server)
  | .acquireWorker => some (true, server)
  | .spawnBlocking => some (true, server)
  | .vfs request => some (server.call request)

/-- A task of the filesystem ends with its result and with the server it leaves. -/
def perform {α : Type} (server : FileServer) (task : FsTask α) : Option (VfsResult α × FileServer) :=
  settle respond task server

end FileServer

/-- The backend is asked for the file. -/
def Fs.Readable (fs : Fs) (path : Text) : Prop :=
  fs.PathPasses (fs.resolve path) ∧ isBinPath (fs.resolve path) = false

instance (fs : Fs) (path : Text) : Decidable (fs.Readable path) :=
  inferInstanceAs (Decidable (_ ∧ _))

/-- The file that was opened, after it was finished once. -/
def spent (path : Text) : ServedFile where
  path := path
  finishes := 1

/-- The polls deliver the content in its order, they leave no byte out, and they say that it is at
its end exactly when it is. -/
def Streamed : Bytes → List (Nat × Nat) → List StreamPoll → Prop
  | _, [], answers => answers = []
  | _, _ :: _, [] => False
  | content, (remaining, completions) :: polls, answer :: answers =>
      match answer with
      | .pending => 0 < remaining ∧ completions = 0 ∧ Streamed content polls answers
      | .failed _ => False
      | .ready bytes =>
          bytes.length ≤ remaining ∧ bytes <+: content ∧
            (bytes = [] → remaining = 0 ∨ content = []) ∧
              Streamed (content.drop bytes.length) polls answers

/-- What the reader still has to deliver. A read in flight asks for the bytes behind `pending`. -/
structure Tracks (server : FileServer) (reader : FsStreamReader) (rest : Bytes) : Prop where
  opened : ∀ handle, reader.handle = some handle → ∃ content,
    server.contentOf handle = some content ∧ content.length ≤ u64Max ∧
      reader.offset ≤ content.length ∧
      rest = reader.pending.drop reader.pendingStart ++ content.drop reader.offset ∧
      (reader.inFlight = none ∨ reader.inFlight = some (handle, reader.offset))
  closed : reader.handle = none →
    rest = reader.pending.drop reader.pendingStart ∧ reader.inFlight = none

/-- A stream that is no file has pieces, and none of them is empty. -/
def Holds (server : FileServer) (rest : Bytes) : AsyncRead → Prop
  | .pieces reader => ∃ pieces : List Bytes,
      reader = pieces.map .ok ∧ [] ∉ pieces ∧ pieces.flatten = rest
  | .file reader _ => Tracks server reader rest

/-- What the inputs have together. The standard input is at its end behind its first turn. -/
def gathered (contents : Text → Bytes) : List Text → Bytes → Bytes
  | [], _ => []
  | file :: rest, stdin =>
      if file = ['-'] then stdin ++ gathered contents rest []
      else contents file ++ gathered contents rest stdin

end TinySandbox.Sandbox

namespace TinySandbox.Sandbox
open Library

/-- A line ends behind its newline, and the last line may have none. -/
def lines (stream : Bytes) : List Bytes := splitAfter (· = newline) stream

def tooLong (line : Bytes) : Bool := maxStreamLineBytes < line.length

/-- A call answers with its own line unless a line up to there is too long. -/
def lineAnswer (stream : Bytes) (call : Nat) : LineResult :=
  if ((lines stream).take (call + 1)).any tooLong then .error .lineTooLong
  else .ok (lines stream)[call]?

/-- The answers of the first calls. -/
def readLines (source : LineReader) : Nat → List LineResult
  | 0 => []
  | count + 1 => (readLine source).1 :: readLines (readLine source).2 count

/-- What a read of the buffer of the source gives. -/
structure Chunk where
  bytes : Bytes
  nonempty : bytes ≠ []
  small : bytes.length ≤ 8192

/-- The stream that a list of chunks delivers. -/
def streamOf (chunks : List Chunk) : Bytes := (chunks.map Chunk.bytes).flatten

def readsOf (chunks : List Chunk) : List (Except Errno Bytes) :=
  chunks.map fun chunk => .ok chunk.bytes

/-- A file ends in the middle of a line, and the files behind it have these bytes. -/
def BrokenLine (contents : List Bytes) (behind : Bytes) : Prop :=
  ∃ before after, contents = before ++ after ∧ behind = after.flatten ∧ behind ≠ [] ∧
    ∃ front byte, before.flatten = front ++ [byte] ∧ byte ≠ newline

/-- The output of a command that nothing keeps from writing. -/
def accept (bytes stdout : Bytes) : Except StreamError Unit × Bytes := (.ok (), stdout ++ bytes)

/-- Some window of the last lines has more bytes than are kept. -/
def Overflows (limit windowBytes : Nat) (stream : Bytes) : Prop :=
  ∃ count ≤ (lines stream).length,
    windowBytes < (((lines stream).take count).rtake limit).flatten.length

/-- The standard input is at its end behind its first turn. -/
def inputContents (contents : Text → Bytes) : List Text → Bytes → List Bytes
  | [], _ => []
  | file :: rest, stdin =>
      if file = ['-'] then stdin :: inputContents contents rest []
      else contents file :: inputContents contents rest stdin

/-- The lines of one input, without their ends. -/
def inputLines (content : Bytes) : List Bytes := (lines content).map (·.takeWhile (· ≠ newline))

def carriageReturn : UInt8 := 13

/-- The content is valid UTF-8 and has no carriage return. -/
def PlainContent (content : Bytes) : Prop := carriageReturn ∉ content ∧ ∃ text, content = textBytes text

/-- Some sorted list of the lines is written. A unique output has each of them once. -/
def SortedOutput (reverse unique : Bool) (lines : List Bytes) (output : Bytes) : Prop :=
  ∃ sorted : List Bytes, output = sorted.flatMap (· ++ [newline]) ∧
    sorted.Pairwise (fun first second => if reverse then second ≤ first else first ≤ second) ∧
    if unique then sorted.Nodup ∧ ∀ line, line ∈ sorted ↔ line ∈ lines else sorted.Perm lines

/-- The last line of a stream may have no newline, and then it gets one. -/
def terminated (line : Bytes) : Bytes :=
  if line.getLast? = some newline then line else line ++ [newline]

/-- The byte before the newline is a carriage return. -/
def EndsInReturn (line : Bytes) : Prop :=
  (terminated line).dropLast.getLast? = some carriageReturn

instance (line : Bytes) : Decidable (EndsInReturn line) := inferInstanceAs (Decidable (_ = _))

/-- The matcher gets the text of the line. -/
def selects (isMatch : Text → Bool) (invert : Bool) (line : Bytes) : Bool :=
  isMatch (lineTextLossy line) ^^ invert

def selectedLines (isMatch : Text → Bool) (invert : Bool) (stream : Bytes) : List Bytes :=
  (lines stream).filter (selects isMatch invert)

/-- One line stands for every run of equal lines. -/
def distinctLines (stream : Bytes) : List Bytes :=
  ((lines stream).map terminated).destutter (· ≠ ·)

/-- The state of `cat` with its place in the line. -/
structure CatCursor extends CatState where
  midLine : Bool := false

/-- A line starts with its number, and a blank line may be squeezed. -/
def catByte (flags : CatFlags) (cursor : CatCursor) (byte : UInt8) : Bytes × CatCursor :=
  if byte = newline then
    if cursor.midLine then (catEnd flags, { cursor with midLine := false })
    else
      let ended := catLine flags cursor.toCatState [] true
      (ended.1, { ended.2 with midLine := false })
  else if cursor.midLine then (catContent flags [byte], cursor)
  else
    let started := catLine flags cursor.toCatState [byte] false
    (started.1, { started.2 with midLine := true })

def catBytes (flags : CatFlags) : Bytes → CatCursor → Bytes × CatCursor
  | [], cursor => ([], cursor)
  | byte :: rest, cursor =>
      let here := catByte flags cursor byte
      let later := catBytes flags rest here.2
      (here.1 ++ later.1, later.2)

/-- The first file goes on from the cursor, and each file behind it starts at the start of a line. -/
def catApart (flags : CatFlags) : List Bytes → CatCursor → Bytes × CatCursor
  | [], cursor => ([], cursor)
  | file :: files, cursor =>
      let here := catBytes flags file cursor
      let later := catApart flags files { here.2 with midLine := false }
      (here.1 ++ later.1, later.2)

/-- A broken line with these bytes behind it does not show in the output. -/
structure CatJoins (flags : CatFlags) (behind : Bytes) : Prop where
  number : flags.number → flags.numberNonblank
  nonblank : flags.numberNonblank → behind.head? = some newline
  squeeze : flags.squeeze → ¬ [newline, newline] <+: behind

/-- The reads give the contents in pieces that fit into the buffer. -/
def Delivered (flags : CatFlags) (contents : Bytes) (reads : List (Except Errno Bytes)) : Prop :=
  ∃ chunks : List Bytes, reads = chunks.map Except.ok ∧ chunks.flatten = contents ∧
    ∀ chunk ∈ chunks, chunk ≠ [] ∧ chunk.length ≤ if flags.plain then 65536 else 8192

/-- A named file opens and gives its contents. -/
def Provides (openFile : Text → VfsResult (List (Except Errno Bytes))) (flags : CatFlags)
    (path : Text) (contents : Bytes) : Prop :=
  path ≠ ['-'] ∧ ∃ reads, openFile path = .ok reads ∧ Delivered flags contents reads

/-- The output of a command that nothing keeps from writing. -/
def catAccept (bytes stdout : Bytes) : Except CatError Unit × Bytes := (.ok (), stdout ++ bytes)

end TinySandbox.Sandbox

namespace TinySandbox.Sandbox
open Library Mem

namespace RedirectEvent

def accepts : RedirectEvent → Bytes
  | .accepted chunk => chunk
  | _ => []

/-- The backend keeps as many bytes as its count says. -/
def receives : RedirectEvent → Bytes
  | .wrote _ _ data result =>
      match SharedRedirect.boundedCount data result with
      | .ok count => data.take count
      | .error _ => []
  | _ => []

def failure : RedirectEvent → Option Errno
  | .failed error => some error
  | _ => none

def release : RedirectEvent → Option Release
  | .released release => some release
  | _ => none

def finish : RedirectEvent → Option (VfsResult Unit)
  | .finished result => some result
  | _ => none

/-- Nothing is accepted or written after an error, everybody gets it, and a release aborts. -/
def Quiet (error : Errno) : RedirectEvent → Prop
  | .accepted _ => False
  | .rejected other => other = error
  | .flushed result => result = .error error
  | .wrote _ _ _ _ => False
  | .failed _ => False
  | .released release => release.abort = true
  | .finished result => result = .error error

end RedirectEvent

abbrev RedirectLog := List RedirectEvent

namespace RedirectLog

def accepted (log : RedirectLog) : Bytes := log.flatMap RedirectEvent.accepts

def received (log : RedirectLog) : Bytes := log.flatMap RedirectEvent.receives

def failures (log : RedirectLog) : List Errno := log.filterMap RedirectEvent.failure

def releases (log : RedirectLog) : List Release := log.filterMap RedirectEvent.release

def finishes (log : RedirectLog) : List (VfsResult Unit) := log.filterMap RedirectEvent.finish

/-- Every write goes to the handle, at the offset behind the bytes that were received before it.
The offset saturates. -/
def Contiguous (handle : Nat) (log : RedirectLog) : Prop :=
  ∀ before number offset data result after,
    log = before ++ .wrote number offset data result :: after →
      number = handle ∧ offset = min (received before).length u64Max

end RedirectLog

end TinySandbox.Sandbox
