/-
This file says which fields the segments of a word split into, and how a command line spells words
in quotes. It says which byte positions are boundaries of characters, and where tokens and errors
stand.
-/

import TinySandbox.Construction.Shell.Expansion
import TinySandbox.Construction.Shell.Syntax

namespace TinySandbox.Shell

/-- These characters take a backslash between double quotes. -/
def needsEscape (symbol : Char) : Bool := symbol ∈ ['$', '\x60', '"', '\\']

def escapeInDouble (symbol : Char) : Text :=
  if needsEscape symbol then ['\\', symbol] else [symbol]

/-- A fragment cannot be written in quotes that do not hold its text. -/
inductive Fragment where
  | single (text : Text) (free : '\'' ∉ text)
  | double (text : Text)
  | escaped (symbol : Char) (plain : symbol ≠ '\n')

namespace Fragment

def text : Fragment → Text
  | single text _ => text
  | double text => text
  | escaped symbol _ => [symbol]

def render : Fragment → Text
  | single text _ => '\'' :: (text ++ ['\''])
  | double text => '"' :: (text.flatMap escapeInDouble ++ ['"'])
  | escaped symbol _ => ['\\', symbol]

end Fragment

/-- A word has at least one fragment, so the empty string is a pair of quotes. -/
structure QuotedWord where
  first : Fragment
  rest : List Fragment

namespace QuotedWord

def fragments (word : QuotedWord) : List Fragment := word.first :: word.rest

def text (word : QuotedWord) : Text := word.fragments.flatMap Fragment.text

def render (word : QuotedWord) : Text := word.fragments.flatMap Fragment.render

end QuotedWord

/-- One or more blanks stand between two words. -/
structure Blanks where
  text : Text
  filled : text ≠ []
  blank : ∀ symbol ∈ text, symbol = ' ' ∨ symbol = '\t'

/-- A line is a word with more words, each behind its blanks. -/
structure QuotedLine where
  first : QuotedWord
  rest : List (Blanks × QuotedWord)

namespace QuotedLine

def words (line : QuotedLine) : List QuotedWord := line.first :: line.rest.map Prod.snd

def texts (line : QuotedLine) : List Text := line.words.map QuotedWord.text

def renderRest (rest : List (Blanks × QuotedWord)) : Text :=
  rest.flatMap fun next => next.1.text ++ next.2.render

def render (line : QuotedLine) : Text := line.first.render ++ renderRest line.rest

end QuotedLine

/-- An anchor stands for a literal or a quoted segment, also when it has no text. -/
inductive Mark where
  | anchor
  | text (symbol : Char)
  | separator
  deriving DecidableEq

def segmentText (env : Env) (status : Int) : Segment → Text
  | .literal value _ => value
  | .expansion name _ => if name = ['?'] then (toString status).toList else (env.get name).getD []

def splittable : Segment → Bool
  | .literal _ _ => false
  | .expansion _ quoted => ! quoted

def markOf (symbol : Char) : Mark :=
  if Budget.isFieldSeparator symbol then .separator else .text symbol

/-- Only the text of an unquoted expansion has separators. -/
def marksOf (env : Env) (status : Int) (segment : Segment) : List Mark :=
  if splittable segment then (segmentText env status segment).map markOf
  else .anchor :: (segmentText env status segment).map .text

def textOf (piece : List Mark) : Text :=
  piece.filterMap fun
    | .text symbol => some symbol
    | _ => none

/-- A piece without text is kept for the segment that lies in it. -/
def kept (piece : List Mark) : Bool := textOf piece ≠ [] ∨ Mark.anchor ∈ piece

def piecesOf (marks : List Mark) : List (List Mark) := marks.splitOnP (· = .separator)

def fieldsOf (env : Env) (status : Int) (word : Word) : List Text :=
  ((piecesOf (word.segments.flatMap (marksOf env status))).filter kept).map textOf

/-- The expansion that is not split. -/
def plainText (env : Env) (status : Int) (word : Word) : Text :=
  word.segments.flatMap (segmentText env status)

def assigned (status : Int) (env : Env) (assignment : Assignment) : Env :=
  env.insert assignment.name (plainText env status assignment.value)

def targetOf (env : Env) (status : Int) (redirect : Redirect) : List Text :=
  match redirect.target with
  | .word target => fieldsOf env status target
  | .fd _ => []

/-- Each assignment sees the earlier ones, the words see none, and the targets see all of them when
there is no word. -/
def expansionOf (command : SimpleCommand) (base : Env) (status : Int) : ExpandedCommand :=
  let env := command.assignments.foldl (assigned status) base
  let words := command.words.flatMap (fieldsOf base status)
  { syntaxTree := command
    env
    words
    targets := command.redirects.map (targetOf (if words = [] then env else base) status) }

/-- A position between two characters, or at an end of the input, is a boundary. -/
def Boundary (input : Text) (place : Nat) : Prop :=
  ∃ before rest, before ++ rest = input ∧ place = utf8Len before

/-- The place is in front of this rest of the input. -/
structure Stands (input : Text) (place : Nat) (rest : Text) : Prop where
  inside : rest <:+ input
  place : place + utf8Len rest = utf8Len input

/-- Each token starts behind the one before it. -/
def Ordered (tokens : List Token) : Prop :=
  tokens.Pairwise fun earlier later => earlier.position < later.position

/-- The position is a boundary in front of a character. -/
def Token.Starts (input : Text) (token : Token) : Prop :=
  Boundary input token.position ∧ token.position < utf8Len input

end TinySandbox.Shell
