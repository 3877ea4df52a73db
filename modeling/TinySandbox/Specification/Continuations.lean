/-
This file says where a line continuation can be taken out of the input.
The text in front of it is read unit by unit, and no unit looks across the continuation.
-/

import TinySandbox.Construction.Shell.Lexer

namespace TinySandbox.Shell

/-- A backslash and a newline continue the line. -/
def continuation : Text := ['\\', '\n']

def decimal (digits : Text) : Nat :=
  digits.foldl (fun value digit => 10 * value + (digit.toNat - '0'.toNat)) 0

/-- The text starts with digits that belong to a redirect. -/
def Numbered (text : Text) : Prop :=
  ∃ digits symbol rest, text = digits ++ symbol :: rest ∧ digits ≠ [] ∧
    (∀ digit ∈ digits, digit.isDigit = true) ∧ (symbol = '<' ∨ symbol = '>')

def IsVariable (name : Text) : Prop :=
  ∃ first rest, name = first :: rest ∧ isNameStart first = true ∧
    (∀ symbol ∈ rest, isNameContinue symbol = true) ∧ name ≠ ['_']

/-- A dollar sign in front of the symbol is refused. -/
def RefusedBehindDollar (quoted : Bool) (symbol : Char) : Prop :=
  symbol = '(' ∨ symbol.isDigit = true ∨ isRejectedSpecialParameter symbol = true ∨
    (quoted = false ∧ (symbol = '\'' ∨ symbol = '"'))

/-- A dollar sign in front of the symbol stands for itself. -/
def PlainBehindDollar (quoted : Bool) (symbol : Char) : Prop :=
  ¬ RefusedBehindDollar quoted symbol ∧ isNameStart symbol = false ∧ symbol ≠ '{' ∧ symbol ≠ '?'

def refusedInWord : List Char := ['*', '?', '\x60', '(', ')', '{', '}']

/-- These symbols have a rule of their own in a word. -/
def specialInWord : List Char := ['\'', '"', '\\', '$', '[', '~'] ++ refusedInWord

def specialInDouble : List Char := ['"', '\\', '$', '\x60']

/-- This is what the rule for tildes knows of a word. -/
structure Spelling where
  hadContent : Bool := false
  lastUnquotedChar : Option Char := none
  hasUnquotedEquals : Bool := false

namespace Spelling

def quote (spelling : Spelling) : Spelling where
  hadContent := true
  hasUnquotedEquals := spelling.hasUnquotedEquals

def plain (spelling : Spelling) (symbol : Char) : Spelling where
  hadContent := true
  lastUnquotedChar := some symbol
  hasUnquotedEquals := spelling.hasUnquotedEquals || symbol = '='

def TildeExpands (spelling : Spelling) : Prop :=
  spelling.hadContent = false ∨ spelling.lastUnquotedChar = some '=' ∨
    (spelling.lastUnquotedChar = some ':' ∧ spelling.hasUnquotedEquals = true)

end Spelling

inductive Place where
  | gap
  | word (spelling : Spelling)
  | double (spelling : Spelling)

section Units
variable (post : Text)

/-- The symbol behind the unit, when the continuation is taken out, has the property. -/
def NextIs (allowed : Char → Prop) (rest : Text) : Prop :=
  ∀ symbol, (rest ++ post).head? = some symbol → allowed symbol

/-- An operator gives the text behind it, or it is refused. -/
inductive Operator : Text → Option Text → Prop where
  | newline (rest : Text) : Operator ('\n' :: rest) (some rest)
  | semi (rest : Text) : Operator (';' :: rest) (some rest)
  | orIf (rest : Text) : Operator ('|' :: '|' :: rest) (some rest)
  | pipe (rest : Text) (next : NextIs post (· ≠ '|') rest) : Operator ('|' :: rest) (some rest)
  | andIf (rest : Text) : Operator ('&' :: '&' :: rest) (some rest)
  | background (rest : Text) (next : NextIs post (· ≠ '&') rest) : Operator ('&' :: rest) none

/-- A redirect gives the text behind it, or it is refused. -/
inductive Redirection : Text → Option Text → Prop where
  | read (rest : Text) (next : NextIs post (fun symbol => symbol ≠ '<' ∧ symbol ≠ '&') rest) :
      Redirection ('<' :: rest) (some rest)
  | heredoc (rest : Text) : Redirection ('<' :: '<' :: rest) none
  | readFd (rest : Text) : Redirection ('<' :: '&' :: rest) none
  | write (rest : Text) (next : NextIs post (fun symbol => symbol ≠ '>' ∧ symbol ≠ '&') rest) :
      Redirection ('>' :: rest) (some rest)
  | append (rest : Text) (next : NextIs post (· ≠ '&') rest) :
      Redirection ('>' :: '>' :: rest) (some rest)
  | appendFd (rest : Text) : Redirection ('>' :: '>' :: '&' :: rest) none
  | noFd (symbol : Char) (rest : Text) (other : symbol.isDigit = false) :
      Redirection ('>' :: '&' :: symbol :: rest) none
  | fd (digits : Text) (symbol : Char) (rest : Text) (some' : digits ≠ [])
      (numeric : ∀ digit ∈ digits, digit.isDigit = true) (ends : isWordBreak symbol = true)
      (fits : decimal digits < 2 ^ 32) :
      Redirection ('>' :: '&' :: (digits ++ symbol :: rest)) (some (symbol :: rest))
  | largeFd (digits : Text) (symbol : Char) (rest : Text) (some' : digits ≠ [])
      (numeric : ∀ digit ∈ digits, digit.isDigit = true) (ends : isWordBreak symbol = true)
      (large : ¬ decimal digits < 2 ^ 32) :
      Redirection ('>' :: '&' :: (digits ++ symbol :: rest)) none
  | ambiguous (digits : Text) (symbol : Char) (rest : Text) (some' : digits ≠ [])
      (numeric : ∀ digit ∈ digits, digit.isDigit = true) (other : symbol.isDigit = false)
      (joined : isWordBreak symbol = false) :
      Redirection ('>' :: '&' :: (digits ++ symbol :: rest)) none

/-- The text behind a dollar sign gives the text behind the expansion, or it is refused. -/
inductive Expansion (quoted : Bool) : Text → Option Text → Prop where
  | literal (rest : Text) (next : NextIs post (PlainBehindDollar quoted) rest) :
      Expansion quoted rest (some rest)
  | status (rest : Text) : Expansion quoted ('?' :: rest) (some rest)
  | named (name rest : Text) (valid : IsVariable name)
      (next : NextIs post (isNameContinue · = false) rest) :
      Expansion quoted (name ++ rest) (some rest)
  | underscore (rest : Text) (next : NextIs post (isNameContinue · = false) rest) :
      Expansion quoted ('_' :: rest) none
  | refused (symbol : Char) (rest : Text) (refuses : RefusedBehindDollar quoted symbol) :
      Expansion quoted (symbol :: rest) none
  | bracedStatus (rest : Text) : Expansion quoted ('{' :: '?' :: '}' :: rest) (some rest)
  | openStatus (symbol : Char) (rest : Text) (other : symbol ≠ '}') :
      Expansion quoted ('{' :: '?' :: symbol :: rest) none
  | braced (name rest : Text) (valid : IsVariable name) :
      Expansion quoted ('{' :: (name ++ '}' :: rest)) (some rest)
  | bracedUnderscore (rest : Text) : Expansion quoted ('{' :: '_' :: '}' :: rest) none
  | openBraces (first : Char) (name : Text) (symbol : Char) (rest : Text)
      (starts : isNameStart first = true) (continues : ∀ symbol ∈ name, isNameContinue symbol = true)
      (ends : isNameContinue symbol = false) (other : symbol ≠ '}') :
      Expansion quoted ('{' :: first :: (name ++ symbol :: rest)) none
  | noName (symbol : Char) (rest : Text) (other : symbol ≠ '?')
      (ends : isNameStart symbol = false) : Expansion quoted ('{' :: symbol :: rest) none

/-- One unit moves to another place, or the input is refused. -/
inductive ReadsUnit : Place → Text → Option (Place × Text) → Prop where
  | blank (symbol : Char) (rest : Text) (blank : isBlank symbol = true) :
      ReadsUnit .gap (symbol :: rest) (some (.gap, rest))
  | comment (text rest : Text) (free : '\n' ∉ text) :
      ReadsUnit .gap ('#' :: (text ++ '\n' :: rest)) (some (.gap, '\n' :: rest))
  | operator (text : Text) (rest : Option Text) (reads : Operator post text rest) :
      ReadsUnit .gap text (rest.map (Place.gap, ·))
  | redirect (digits text : Text) (rest : Option Text)
      (numeric : ∀ digit ∈ digits, digit.isDigit = true) (fits : decimal digits < 2 ^ 32)
      (reads : Redirection post text rest) :
      ReadsUnit .gap (digits ++ text) (rest.map (Place.gap, ·))
  | largeFd (digits : Text) (symbol : Char) (rest : Text)
      (numeric : ∀ digit ∈ digits, digit.isDigit = true) (large : ¬ decimal digits < 2 ^ 32)
      (redirects : symbol = '<' ∨ symbol = '>') : ReadsUnit .gap (digits ++ symbol :: rest) none
  | start (symbol : Char) (rest : Text) (ends : isWordBreak symbol = false) (other : symbol ≠ '#')
      (free : ¬ Numbered (symbol :: rest ++ post)) :
      ReadsUnit .gap (symbol :: rest) (some (.word {}, symbol :: rest))
  | stop (spelling : Spelling) (symbol : Char) (rest : Text) (ends : isWordBreak symbol = true) :
      ReadsUnit (.word spelling) (symbol :: rest) (some (.gap, symbol :: rest))
  | single (spelling : Spelling) (text rest : Text) (free : '\'' ∉ text) :
      ReadsUnit (.word spelling) ('\'' :: (text ++ '\'' :: rest)) (some (.word spelling.quote, rest))
  | openDouble (spelling : Spelling) (rest : Text) :
      ReadsUnit (.word spelling) ('"' :: rest) (some (.double spelling, rest))
  | escape (spelling : Spelling) (symbol : Char) (rest : Text) (other : symbol ≠ '\n') :
      ReadsUnit (.word spelling) ('\\' :: symbol :: rest) (some (.word spelling.quote, rest))
  | continued (spelling : Spelling) (rest : Text) :
      ReadsUnit (.word spelling) ('\\' :: '\n' :: rest) (some (.word spelling, rest))
  | expansion (spelling : Spelling) (text : Text) (rest : Option Text)
      (reads : Expansion post false text rest) :
      ReadsUnit (.word spelling) ('$' :: text) (rest.map (Place.word spelling.quote, ·))
  | refused (spelling : Spelling) (symbol : Char) (rest : Text)
      (refuses : symbol ∈ refusedInWord) : ReadsUnit (.word spelling) (symbol :: rest) none
  | bracket (spelling : Spelling) (rest : Text)
      (free : hasClosingBracketBeforeWordEnd (rest ++ post) = false) :
      ReadsUnit (.word spelling) ('[' :: rest) (some (.word (spelling.plain '['), rest))
  | glob (spelling : Spelling) (rest : Text) (closes : hasClosingBracketBeforeWordEnd rest = true) :
      ReadsUnit (.word spelling) ('[' :: rest) none
  | tilde (spelling : Spelling) (rest : Text) (plain : ¬ spelling.TildeExpands) :
      ReadsUnit (.word spelling) ('~' :: rest) (some (.word (spelling.plain '~'), rest))
  | home (spelling : Spelling) (rest : Text) (expands : spelling.TildeExpands) :
      ReadsUnit (.word spelling) ('~' :: rest) none
  | plain (spelling : Spelling) (symbol : Char) (rest : Text) (ends : isWordBreak symbol = false)
      (other : symbol ∉ specialInWord) :
      ReadsUnit (.word spelling) (symbol :: rest) (some (.word (spelling.plain symbol), rest))
  | closeDouble (spelling : Spelling) (rest : Text) :
      ReadsUnit (.double spelling) ('"' :: rest) (some (.word spelling.quote, rest))
  | escapeDouble (spelling : Spelling) (symbol : Char) (rest : Text) :
      ReadsUnit (.double spelling) ('\\' :: symbol :: rest) (some (.double spelling, rest))
  | expansionDouble (spelling : Spelling) (text : Text) (rest : Option Text)
      (reads : Expansion post true text rest) :
      ReadsUnit (.double spelling) ('$' :: text) (rest.map (Place.double spelling, ·))
  | backtick (spelling : Spelling) (rest : Text) : ReadsUnit (.double spelling) ('\x60' :: rest) none
  | plainDouble (spelling : Spelling) (symbol : Char) (rest : Text)
      (other : symbol ∉ specialInDouble) :
      ReadsUnit (.double spelling) (symbol :: rest) (some (.double spelling, rest))

/-- The text behind the continuation starts no comment and no redirect with a number, which a
continuation in front of it would turn into a word. -/
def Joins : Place → Prop
  | .gap => NextIs post (· ≠ '#') [] ∧ ¬ Numbered post
  | .word _ => True
  | .double _ => True

/-- Whole units lead from the place through the text to the continuation, or to a refusal. -/
inductive Seam : Place → Text → Prop where
  | here (place : Place) (joins : Joins post place) : Seam place []
  | reads (place next : Place) (text rest : Text) (reads : ReadsUnit post place text (some (next, rest)))
      (seam : Seam next rest) : Seam place text
  | refused (place : Place) (text : Text) (refuses : ReadsUnit post place text none) : Seam place text

end Units

/-- Both scans are refused with the same kind of error, or both give tokens of the same kinds. -/
def SameTokens (first second : Scan (List Token)) : Prop :=
  (∃ left right : ParseError, first.outcome = some (.error left) ∧
    second.outcome = some (.error right) ∧ left.kind = right.kind) ∨
  ∃ left right : List Token, first.outcome = some (.ok left) ∧ second.outcome = some (.ok right) ∧
    left.map Token.kind = right.map Token.kind

end TinySandbox.Shell
