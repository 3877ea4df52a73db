/-
This file gives the syntax trees and the errors of the shell.
-/

import TinySandbox.Construction.Types

namespace TinySandbox.Shell

/-- Literal text and expansions keep whether they came from quoted syntax. -/
inductive Segment where
  | literal (value : Text) (quoted : Bool)
  | expansion (name : Text) (quoted : Bool)
  deriving DecidableEq

structure Word where
  segments : List Segment
  deriving DecidableEq

structure Assignment where
  name : Text
  value : Word
  deriving DecidableEq

inductive RedirectOp where
  | read
  | write
  | append
  deriving DecidableEq

inductive RedirectTarget where
  | word (word : Word)
  | fd (fd : Nat)
  deriving DecidableEq

structure Redirect where
  fd : Option Nat
  op : RedirectOp
  target : RedirectTarget
  deriving DecidableEq

structure SimpleCommand where
  assignments : List Assignment := []
  words : List Word := []
  redirects : List Redirect := []
  deriving DecidableEq

inductive Command where
  | simple (command : SimpleCommand)
  deriving DecidableEq

structure Pipeline where
  commands : List Command
  deriving DecidableEq

inductive AndOrOp where
  | and
  | or
  deriving DecidableEq

structure AndOr where
  op : AndOrOp
  pipeline : Pipeline
  deriving DecidableEq

structure AndOrList where
  first : Pipeline
  rest : List AndOr
  deriving DecidableEq

structure Program where
  lists : List AndOrList
  deriving DecidableEq

inductive QuoteKind where
  | single
  | double
  deriving DecidableEq

inductive UnsupportedConstruct where
  | glob
  | commandSubstitution
  | backticks
  | background
  | subshell
  | braceExpansion
  | heredoc
  | tildeExpansion
  | parameterExpansion
  | redirectFdDup
  | ansiCString
  | localeTranslation
  | appendAssignment
  | pipelineNegation
  deriving DecidableEq

inductive ParseErrorKind where
  | unexpectedEof (expected : String)
  | unexpectedToken (expected found : String)
  | missingRedirectTarget
  | unterminatedQuote (quote : QuoteKind)
  | unterminatedEscape
  | unterminatedBracedExpansion
  | invalidParameterExpansion
  | invalidFileDescriptor
  | ambiguousRedirect
  | unsupported (construct : UnsupportedConstruct)
  deriving DecidableEq

/-- The position counts bytes from the start of the input. -/
structure ParseError where
  position : Nat
  kind : ParseErrorKind
  deriving DecidableEq

/-- A scan fails with an error, or it has no outcome when it panics or never returns. -/
abbrev Scan := ExceptT ParseError Option

namespace Scan

def outcome {α : Type} (scan : Scan α) : Option (Except ParseError α) := ExceptT.run scan

/-- This scan has no outcome. -/
def stuck {α : Type} : Scan α := ExceptT.mk none

def fail {α : Type} (position : Nat) (kind : ParseErrorKind) : Scan α :=
  throw { position, kind }

end Scan

/-- The number of bytes that the text takes in UTF-8. -/
def utf8Len (text : Text) : Nat := (text.map Char.utf8Size).sum

structure RedirectToken where
  fd : Option Nat
  op : RedirectOp
  targetFd : Option Nat
  deriving DecidableEq

inductive TokenKind where
  | word (word : Word)
  | pipe
  | andIf
  | orIf
  | semi
  | newline
  | redirect (redirect : RedirectToken)
  deriving DecidableEq

structure Token where
  kind : TokenKind
  position : Nat
  deriving DecidableEq

def TokenKind.description : TokenKind → String
  | .word _ => "word"
  | .pipe => "`|`"
  | .andIf => "`&&`"
  | .orIf => "`||`"
  | .semi => "`;`"
  | .newline => "newline"
  | .redirect _ => "redirect"

end TinySandbox.Shell
