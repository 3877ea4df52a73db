/-
This file gives the reader of a file as a stream, the functions that gather whole inputs, and how the
commands over text read the letters of their flags.
A future does all of its work at the poll that completes it.
-/

import TinySandbox.Construction.Sandbox.Exec
import TinySandbox.Construction.Sandbox.Lines

namespace TinySandbox.Sandbox
open Library Library.Task Mem

/-- The bytes of `pending` before `pendingStart` are delivered, and `inFlight` is the handle and the
offset of a read that was started. -/
structure FsStreamReader where
  handle : Option Nat
  offset : Nat
  pending : Bytes
  pendingStart : Nat
  inFlight : Option (Nat × Nat)
  start_le : pendingStart ≤ pending.length

inductive StreamPoll where
  | pending
  | ready (bytes : Bytes)
  | failed (error : Errno)
  deriving DecidableEq

namespace FsStreamReader

theorem start_le_nil : 0 ≤ ([] : Bytes).length := Nat.le_refl 0

def new (handle : Nat) : FsStreamReader where
  handle := some handle
  offset := 0
  pending := []
  pendingStart := 0
  inFlight := none
  start_le := start_le_nil

def closeHandle (reader : FsStreamReader) : FsTask FsStreamReader :=
  match reader.handle with
  | none => pure reader
  | some handle => do
      request (FsRequest.abandon handle)
      pure { reader with handle := none }

def copyPending (reader : FsStreamReader) (remaining : Nat) : Option (Bytes × FsStreamReader) :=
  if reader.pendingStart = reader.pending.length ∨ remaining = 0 then none
  else
    let n := min (reader.pending.length - reader.pendingStart) remaining
    some ((reader.pending.drop reader.pendingStart).take n,
      { reader with
        pendingStart := reader.pendingStart + n
        start_le := by
          have := reader.start_le
          omega })

def received (reader : FsStreamReader) (bytes : Bytes) : FsStreamReader :=
  { reader with
    offset := min (reader.offset + bytes.length) u64Max
    pending := bytes
    pendingStart := 0
    start_le := Nat.zero_le _ }

/-- The read that the loop polls, which it starts with the handle when there is none. -/
def started (reader : FsStreamReader) : Option (Nat × Nat) :=
  reader.inFlight <|> reader.handle.map fun handle => (handle, reader.offset)

/-- The number says how many reads complete before the future is pending. -/
def pollLoop (fs : Fs) (remaining : Nat) : Nat → FsStreamReader → FsTask (StreamPoll × FsStreamReader)
  | completions, reader =>
      match reader.started, completions with
      | none, _ => pure (.ready [], reader)
      | some read, 0 => pure (.pending, { reader with inFlight := some read })
      | some (handle, offset), completions + 1 => do
          match ← attempt (fs.readAt handle offset streamChunkBytes) with
          | .error error => do
              let reader ← closeHandle { reader with inFlight := none }
              pure (.failed error, reader)
          | .ok bytes =>
              if bytes.length = 0 then do
                let reader ← closeHandle { reader with inFlight := none }
                pure (.ready [], reader)
              else
                let reader := received { reader with inFlight := none } bytes
                match reader.copyPending remaining with
                | some (copied, reader) => pure (.ready copied, reader)
                | none => pollLoop fs remaining completions reader

def pollRead (fs : Fs) (remaining completions : Nat) (reader : FsStreamReader) :
    FsTask (StreamPoll × FsStreamReader) :=
  match reader.copyPending remaining with
  | some (copied, reader) => pure (.ready copied, reader)
  | none =>
      if remaining = 0 then pure (.ready [], reader)
      else pollLoop fs remaining completions reader

/-- The caller polls with buffers of these sizes, and then it drops the reader. -/
def pollAll (fs : Fs) : List (Nat × Nat) → FsStreamReader → FsTask (List StreamPoll × FsStreamReader)
  | [], reader => do
      let reader ← reader.closeHandle
      pure ([], reader)
  | (remaining, completions) :: polls, reader => do
      let (poll, reader) ← reader.pollRead fs remaining completions
      let (later, reader) ← pollAll fs polls reader
      pure (poll :: later, reader)

/-- An await goes on until the reader is ready. Behind the list every poll completes a read. -/
def await (fs : Fs) (want : Nat) :
    List Nat → FsStreamReader → FsTask (VfsResult Bytes × FsStreamReader)
  | [], reader => do
      match ← reader.pollRead fs want 1 with
      | (.pending, _) => diverge
      | (.ready bytes, reader) => pure (.ok bytes, reader)
      | (.failed error, reader) => pure (.error error, reader)
  | completions :: later, reader => do
      match ← reader.pollRead fs want completions with
      | (.pending, reader) => await fs want later reader
      | (.ready bytes, reader) => pure (.ok bytes, reader)
      | (.failed error, reader) => pure (.error error, reader)

end FsStreamReader

/-- A stream that is no file answers with pieces of its own, and a file has a list for each await. -/
inductive AsyncRead where
  | pieces (reader : List (VfsResult Bytes))
  | file (reader : FsStreamReader) (awaits : List (List Nat))

namespace AsyncRead

/-- What does not fit into the buffer stays for the next read. -/
def readPiece (want : Nat) : List (VfsResult Bytes) → VfsResult Bytes × List (VfsResult Bytes)
  | [] => (.ok [], [])
  | .error error :: rest => (.error error, rest)
  | .ok piece :: rest =>
      (.ok (piece.take want), if piece.length ≤ want then rest else .ok (piece.drop want) :: rest)

def read (fs : Fs) (want : Nat) : AsyncRead → FsTask (VfsResult Bytes × AsyncRead)
  | .pieces reader =>
      let (answer, reader) := readPiece want reader
      pure (answer, .pieces reader)
  | .file reader awaits => do
      let (answer, reader) ← reader.await fs want (awaits.headD [])
      pure (answer, .file reader awaits.tail)

def drop : AsyncRead → FsTask Unit
  | .pieces _ => pure ()
  | .file reader _ => do
      let _ ← reader.closeHandle
      pure ()

end AsyncRead

/-- One byte past the limit is asked for, to see whether there is more. -/
def probeLength (limit length : Nat) : Nat :=
  min streamChunkBytes (min (limit - length + 1) u64Max)

def readInputBounded (fs : Fs) (limit : Nat) (reader : AsyncRead) (input : Bytes) :
    FsTask (Except StreamError Bytes × AsyncRead) := do
  match ← attempt fs.checkpoint with
  | .error error => pure (.error (.other error), reader)
  | .ok _ => do
      match ← reader.read fs (probeLength limit input.length) with
      | (.error error, reader) => pure (.error (.other error), reader)
      | (.ok bytes, reader) =>
          if _ : bytes.length = 0 then pure (.ok input, reader)
          else if _ : limit - input.length < bytes.length then pure (.error .inputTooLarge, reader)
          else readInputBounded fs limit reader (input ++ bytes)
termination_by limit - input.length
decreasing_by
  simp only [List.length_append]
  omega

/-- A file is opened for its turn, and its reader is dropped behind it. -/
def readOneInput (fs : Fs) (limit : Nat) (awaits : List (List Nat)) (file : Text)
    (stdin : AsyncRead) (input : Bytes) : FsTask (Except StreamError Bytes × AsyncRead) := do
  if file = ['-'] then readInputBounded fs limit stdin input
  else
    match ← attempt (fs.streamReader file) with
    | .error error => pure (.error (.other error), stdin)
    | .ok handle => do
        let (result, reader) ← readInputBounded fs limit (.file (.new handle) awaits) input
        reader.drop
        pure (result, stdin)

def tooLargeReport (cmd : Text) : Text :=
  cmd ++ ": input too large for tinysandbox ".toList ++ cmd ++ ['\n']

def inputReport (cmd file : Text) : StreamError → Text
  | .other error => cmd ++ ": ".toList ++ file ++ ": ".toList ++ (errnoMessage error).toList ++ ['\n']
  | _ => tooLargeReport cmd

/-- The error comes with the exit code and with the text for the standard error. -/
def failedInput (fs : Fs) (cmd file : Text) (error : StreamError) :
    FsTask (Except (Int × Text) Bytes) := do
  let cancelled ← fs.isCancelled
  if cancelled then pure (.error (124, []))
  else pure (.error (2, inputReport cmd file error))

/-- The number of the files behind a file finds the list for its awaits. -/
def readEachInput (fs : Fs) (limit : Nat) (cmd : Text) (awaits : Nat → List (List Nat)) :
    List Text → AsyncRead → Bytes → FsTask (Except (Int × Text) Bytes)
  | [], _, input => pure (.ok input)
  | file :: rest, stdin, input => do
      match ← readOneInput fs limit (awaits rest.length) file stdin input with
      | (.error error, _) => failedInput fs cmd file error
      | (.ok input, stdin) => readEachInput fs limit cmd awaits rest stdin input

def readInputs (fs : Fs) (files : List Text) (stdin : AsyncRead) (limit : Nat) (cmd : Text)
    (awaits : Nat → List (List Nat)) : FsTask (Except (Int × Text) Bytes) :=
  readEachInput fs limit cmd awaits (if files = [] then [['-']] else files) stdin []

section Flags
variable {φ : Type} (set : φ → Char → Option φ)

/-- The error is the first letter that is no flag. -/
def setFlags : Text → φ → Except Char φ
  | [], flags => .ok flags
  | flag :: rest, flags =>
      match set flags flag with
      | none => .error flag
      | some flags => setFlags rest flags

def parseFlags : List Text → φ → List Text → Except Char (φ × List Text)
  | [], flags, paths => .ok (flags, paths)
  | arg :: args, flags, paths =>
      if arg.head? = some '-' ∧ arg ≠ ['-'] then do
        let flags ← setFlags set arg.tail flags
        parseFlags args flags paths
      else parseFlags args flags (paths ++ [arg])

end Flags

def unsupportedReport (cmd : Text) (flag : Char) : Text :=
  cmd ++ ": unsupported option '-".toList ++ [flag] ++ "'\n".toList

end TinySandbox.Sandbox
