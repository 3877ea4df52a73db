/-
This file says where a substitution of `sed` is cut, and what its replacement stands for.
-/

import Mathlib.Data.List.DropRight
import TinySandbox.Construction.Sandbox.Sed

namespace TinySandbox.Sandbox

/-- This counts the backslashes that stand directly behind each other at the end. -/
def backslashes (before : Text) : Nat := (before.rtakeWhile (· = '\\')).length

/-- A delimiter with an even number of backslashes before it is a cut. -/
def sedCuts (delimiter : Char) (input : Text) : List Nat :=
  (List.range input.length).filter fun place =>
    input[place]? = some delimiter ∧ backslashes (input.take place) % 2 = 0

/-- An escaped delimiter stands for itself, and every other pair stays as it is. -/
def bareDelimiters (delimiter : Char) : Text → Text
  | '\\' :: ch :: rest =>
      if ch = delimiter then delimiter :: bareDelimiters delimiter rest
      else '\\' :: ch :: bareDelimiters delimiter rest
  | ch :: rest => ch :: bareDelimiters delimiter rest
  | [] => []

/-- The first two cuts make the parts. -/
def sedParts (delimiter : Char) (input : Text) : Option (Text × Text × Text) :=
  match sedCuts delimiter input with
  | first :: second :: _ =>
      some (bareDelimiters delimiter (input.take first),
        bareDelimiters delimiter ((input.take second).drop (first + 1)),
        bareDelimiters delimiter (input.drop (second + 1)))
  | _ => none

/-- Some delimiter has escaped backslashes before it, and no backslash of its own. -/
def DoublyEscaped (delimiter : Char) (input : Text) : Prop :=
  ∃ before after, input = before ++ delimiter :: after ∧ 0 < backslashes before ∧
    backslashes before % 2 = 0

/-- Every delimiter of the part is escaped, and no backslash is left over at its end. -/
structure EscapedPart (delimiter : Char) (part : Text) : Prop where
  uncut : sedCuts delimiter part = []
  closed : backslashes part % 2 = 0

inductive SedToken where
  | literal (ch : Char)
  | group (index : Nat)
  deriving DecidableEq

/-- What a backslash makes of the character behind it. -/
def escapedToken (ch : Char) : SedToken :=
  if ch = 'n' then .literal '\n'
  else if ch = 't' then .literal '\t'
  else if '1' ≤ ch ∧ ch ≤ '9' then .group (ch.toNat - '0'.toNat)
  else .literal ch

/-- The whole match is the group zero. -/
def sedTokens : Text → List SedToken
  | [] => []
  | ['\\'] => [.literal '\\']
  | '\\' :: ch :: rest => escapedToken ch :: sedTokens rest
  | '&' :: rest => .group 0 :: sedTokens rest
  | ch :: rest => .literal ch :: sedTokens rest

/-- A group behind the whole match has no text when it has no part in the match. -/
structure Captures where
  whole : Text
  groups : List (Option Text)

namespace Captures

def get (captures : Captures) : Nat → Option Text
  | 0 => some captures.whole
  | index + 1 => captures.groups[index]?.join

def len (captures : Captures) : Nat := captures.groups.length + 1

end Captures

def SedToken.bytes (captures : Captures) : SedToken → Bytes
  | .literal ch => textBytes [ch]
  | .group index => textBytes ((captures.get index).getD [])

/-- The output with the groups that were asked for. -/
structure SedOutput where
  written : Bytes
  asked : List Nat

/-- The output takes every write, and the match answers for its groups. -/
def Captures.respond (captures : Captures) (output : SedOutput) :
    (request : SedRequest) → Option (request.Response × SedOutput)
  | .write bytes => some (.ok (), { output with written := output.written ++ bytes })
  | .group index => some (captures.get index, { output with asked := output.asked ++ [index] })

end TinySandbox.Sandbox
