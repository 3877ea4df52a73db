/-
This file gives how `sed` reads a substitution and how it writes a replacement.
-/

import TinySandbox.Construction.Sandbox.Fs
import TinySandbox.Construction.Sandbox.Lines

namespace TinySandbox.Sandbox
open Library Library.Task

structure SedSubstitution where
  pattern : Text
  replacement : Text
  global : Bool
  ignoreCase : Bool
  deriving DecidableEq

/-- The third part has all the delimiters that are left. -/
def splitSedLoop (delimiter : Char) : List Text → Text → Text → List Text × Text
  | parts, current, [] => (parts, current)
  | parts, current, '\\' :: [] => (parts, current ++ ['\\'])
  | parts, current, '\\' :: next :: rest =>
      if next = delimiter then splitSedLoop delimiter parts (current ++ [delimiter]) rest
      else splitSedLoop delimiter parts (current ++ ['\\']) (next :: rest)
  | parts, current, ch :: rest =>
      if ch = delimiter ∧ parts.length < 2 then
        splitSedLoop delimiter (parts ++ [current]) [] rest
      else splitSedLoop delimiter parts (current ++ [ch]) rest

def splitSedParts (input : Text) (delimiter : Char) : Option (Text × Text × Text) :=
  match splitSedLoop delimiter [] [] input with
  | ([pattern, replacement], flags) => some (pattern, replacement, flags)
  | _ => none

def parseSedSubstitution : Text → Option SedSubstitution
  | 's' :: delimiter :: rest => do
      let (pattern, replacement, flags) ← splitSedParts rest delimiter
      if flags.all fun flag => flag = 'g' ∨ flag = 'i' then
        some { pattern, replacement, global := 'g' ∈ flags, ignoreCase := 'i' ∈ flags }
      else none
  | _ => none

/-- The writer asks the match for its groups, of which the first one is the whole match. -/
inductive SedRequest where
  | write (bytes : Bytes)
  | group (index : Nat)

abbrev SedRequest.Response : SedRequest → Type
  | .write _ => VfsResult Unit
  | .group _ => Option Text

abbrev SedTask := Task SedRequest SedRequest.Response Errno Unit

def writeAll (bytes : Bytes) : SedTask Unit := do
  let written ← request (SedRequest.write bytes)
  lift written

/-- Long bytes are written as chunks. -/
def writeSedPiece (bytes : Bytes) : SedTask Unit := do
  if _ : bytes = [] then pure ()
  else do
    writeAll (bytes.take streamChunkBytes)
    writeSedPiece (bytes.drop streamChunkBytes)
termination_by bytes.length
decreasing_by
  have := List.length_pos_iff.mpr ‹bytes ≠ []›
  rw [List.length_drop]
  exact Nat.sub_lt this (by decide)

/-- A group that has no part in the match writes nothing. -/
def writeSedGroup (index : Nat) : SedTask Unit := do
  match ← request (SedRequest.group index) with
  | some text => writeSedPiece (textBytes text)
  | none => pure ()

def sedDigit (ch : Char) : Option Nat :=
  if '1' ≤ ch ∧ ch ≤ '9' then some (ch.toNat - '0'.toNat) else none

def writeSedEscape (ch : Char) : SedTask Unit :=
  if ch = 'n' then writeAll [newline]
  else if ch = 't' then writeAll [9]
  else
    match sedDigit ch with
    | some index => writeSedGroup index
    | none => writeAll (textBytes [ch])

def isSedSpecial (ch : Char) : Bool := ch = '&' ∨ ch = '\\'

/-- Everything before the next special character is one piece. -/
def writeSedReplacement (rest : Text) : SedTask Unit :=
  match _ : rest.dropWhile (!isSedSpecial ·) with
  | [] => writeSedPiece (textBytes rest)
  | '&' :: tail => do
      writeSedPiece (textBytes (rest.takeWhile (!isSedSpecial ·)))
      writeSedGroup 0
      writeSedReplacement tail
  | [_] => do
      writeSedPiece (textBytes (rest.takeWhile (!isSedSpecial ·)))
      writeAll (textBytes ['\\'])
  | _ :: ch :: tail => do
      writeSedPiece (textBytes (rest.takeWhile (!isSedSpecial ·)))
      writeSedEscape ch
      writeSedReplacement tail
termination_by rest.length
decreasing_by
  all_goals
    have shorter := (List.dropWhile_sublist (l := rest) (!isSedSpecial ·)).length_le
    rw [‹rest.dropWhile _ = _›] at shorter
    simp only [List.length_cons] at shorter
    omega

/-- The error is the first reference that has no group. -/
def validateSedReplacement (capturesLen : Nat) : Text → Except Nat Unit
  | [] => .ok ()
  | '\\' :: [] => .ok ()
  | '\\' :: ch :: rest =>
      match sedDigit ch with
      | some index => if capturesLen ≤ index then .error index else validateSedReplacement capturesLen rest
      | none => validateSedReplacement capturesLen rest
  | _ :: rest => validateSedReplacement capturesLen rest

end TinySandbox.Sandbox
