/-
This file turns the tokens of the shell into a syntax tree.
The loops take fuel, and each round of a loop consumes a token.
-/

import TinySandbox.Construction.Shell.Lexer

namespace TinySandbox.Shell
open Library

/-- The cursor stands between the consumed tokens, latest first, and the rest. -/
structure Parser where
  consumed : List Token
  rest : List Token

abbrev Parse := Call ParseError Parser

/-- The text before the first place where the pattern stands, with the text behind the pattern. -/
def findText (pattern : Text) : Text → Option (Text × Text)
  | [] => none
  | symbol :: rest =>
      if pattern <+: symbol :: rest then some ([], (symbol :: rest).drop pattern.length)
      else (findText pattern rest).map fun found => (symbol :: found.1, found.2)

def isAssignmentName : Text → Bool
  | [] => false
  | first :: rest => isNameStart first && rest.all isNameContinue

/-- The byte in the source that stands for a byte of an unquoted literal. Escaped newlines stand
for nothing. -/
def sourceOffset (target : Nat) : Nat → Text → Nat
  | _, [] => 0
  | literalByte, symbol :: rest =>
      if literalByte = target ∨ isWordBreak symbol then 0
      else
        match symbol, rest with
        | '\\', '\n' :: next => 2 + sourceOffset target literalByte next
        | symbol, rest => symbol.utf8Size + sourceOffset target (literalByte + symbol.utf8Size) rest

/-- The rest of the input that starts at a byte position. -/
def textAt : Nat → Text → Text
  | _, [] => []
  | 0, text => text
  | bytes, symbol :: rest => textAt (bytes - symbol.utf8Size) rest

def sourcePositionForUnquotedLiteralByte (input : Text) (position target : Nat) : Nat :=
  position + sourceOffset target 0 (textAt position input)

/-- A word is an assignment when its first literal is unquoted and starts with a name and `=`. -/
def assignmentFromWord (input : Text) (word : Word) (position : Nat) :
    Except ParseError (Option Assignment) :=
  match word.segments with
  | .literal value false :: more =>
      match findText ['+', '='] value with
      | some (name, _) =>
          if isAssignmentName name then
            .error {
              position := sourcePositionForUnquotedLiteralByte input position (utf8Len name)
              kind := .unsupported .appendAssignment }
          else assignmentAtEquals value more
      | none => assignmentAtEquals value more
  | _ => .ok none
where
  assignmentAtEquals (value : Text) (more : List Segment) : Except ParseError (Option Assignment) :=
    match findText ['='] value with
    | none => .ok none
    | some (name, firstValue) =>
        if ! isAssignmentName name then .ok none
        else
          .ok (some {
            name
            value := {
              segments :=
                (if firstValue = [] then [] else [.literal firstValue false]) ++ more } })

def isPipelineNegationWord : TokenKind → Bool
  | .word { segments := [.literal ['!'] false] } => true
  | _ => false

namespace Parser

def peek : Parse (Option Token) := do
  let parser ← get
  pure parser.rest.head?

/-- This moves the cursor behind one token. -/
def advance : Parse Unit := do
  let parser ← get
  match parser.rest with
  | [] => pure ()
  | token :: rest => set ({ consumed := token :: parser.consumed, rest } : Parser)

def isEof : Parse Bool := do
  let parser ← get
  pure parser.rest.isEmpty

def consumeIf (wanted : TokenKind → Bool) : Parse Bool := do
  let token ← peek
  match token with
  | some token =>
      if wanted token.kind then do
        advance
        pure true
      else pure false
  | none => pure false

def consumeNewlinesLoop : Nat → Parse Unit
  | 0 => Call.orPanic none
  | fuel + 1 => do
      let consumed ← consumeIf (· = .newline)
      if consumed then consumeNewlinesLoop fuel else pure ()

def consumeNewlines : Parse Unit := do
  let parser ← get
  consumeNewlinesLoop (parser.rest.length + 1)

/-- Without a token the position is the end of the input. -/
def unexpected {α : Type} (input : Text) (expected : String) : Parse α := do
  let token ← peek
  match token with
  | some token =>
      throw { position := token.position
              kind := .unexpectedToken expected token.kind.description }
  | none => throw { position := utf8Len input, kind := .unexpectedEof expected }

/-- At the start of the tokens the previous token is the first one. -/
def previousPosition (input : Text) : Parse Nat := do
  let parser ← get
  pure (((parser.consumed.head? <|> parser.rest.head?).map Token.position).getD (utf8Len input))

def startsCommand : Parse Bool := do
  let token ← peek
  match token with
  | some { kind := .word _, .. } => pure true
  | some { kind := .redirect _, .. } => pure true
  | _ => pure false

def consumeAndOr : Parse (Option AndOrOp) := do
  let token ← peek
  match token with
  | some { kind := .andIf, .. } => do
      advance
      pure (some .and)
  | some { kind := .orIf, .. } => do
      advance
      pure (some .or)
  | _ => pure none

def parseRedirect (input : Text) (redirect : RedirectToken) : Parse Redirect :=
  match redirect.targetFd with
  | some fd => pure { fd := redirect.fd, op := redirect.op, target := .fd fd }
  | none => do
      let token ← peek
      match token with
      | some { kind := .word word, .. } => do
          advance
          pure { fd := redirect.fd, op := redirect.op, target := .word word }
      | _ => do
          let position ← previousPosition input
          throw { position, kind := .missingRedirectTarget }

/-- A word in front of the first command word may be an assignment. -/
def addWord (input : Text) (command : SimpleCommand) (word : Word) (position : Nat) :
    Except ParseError SimpleCommand :=
  if command.words = [] then do
    let assignment ← assignmentFromWord input word position
    match assignment with
    | some assignment => .ok { command with assignments := command.assignments ++ [assignment] }
    | none => .ok { command with words := command.words ++ [word] }
  else .ok { command with words := command.words ++ [word] }

def commandLoop (input : Text) : Nat → SimpleCommand → Parse SimpleCommand
  | 0, _ => Call.orPanic none
  | fuel + 1, command => do
      let token ← peek
      match token with
      | some { kind := .word word, position } => do
          advance
          let command ← Call.lift (addWord input command word position)
          commandLoop input fuel command
      | some { kind := .redirect redirect, .. } => do
          advance
          let redirect ← parseRedirect input redirect
          commandLoop input fuel { command with redirects := command.redirects ++ [redirect] }
      | _ => pure command

/-- A pipeline that starts with a lone unquoted `!` is not supported. -/
def refuseNegation : Parse Unit := do
  let token ← peek
  match token with
  | some token =>
      Call.refuse (isPipelineNegationWord token.kind = true)
        { position := token.position, kind := .unsupported .pipelineNegation }
  | none => pure ()

/-- The loop adds at least one element, because a word or a redirect comes first. -/
def parseCommand (input : Text) (expected : String) : Parse Command := do
  let starts ← startsCommand
  if starts then do
    refuseNegation
    let parser ← get
    let command ← commandLoop input (parser.rest.length + 1) {}
    pure (.simple command)
  else unexpected input expected

/-- The loop repeats a step until the step finds nothing to start with. -/
def repeatLoop {α : Type} (step : Parse (Option α)) : Nat → List α → Parse (List α)
  | 0, _ => Call.orPanic none
  | fuel + 1, found => do
      let next ← step
      match next with
      | some value => repeatLoop step fuel (found ++ [value])
      | none => pure found

def pipedCommand (input : Text) : Parse (Option Command) := do
  let piped ← consumeIf (· = .pipe)
  if piped then do
    consumeNewlines
    let command ← parseCommand input "command after pipe"
    pure (some command)
  else pure none

def parsePipeline (input : Text) (expected : String) : Parse Pipeline := do
  let first ← parseCommand input expected
  let parser ← get
  let commands ← repeatLoop (pipedCommand input) (parser.rest.length + 1) [first]
  pure { commands }

def expectedAfter : AndOrOp → String
  | .and => "command after `&&`"
  | .or => "command after `||`"

def conditionalPipeline (input : Text) : Parse (Option AndOr) := do
  let op ← consumeAndOr
  match op with
  | some op => do
      consumeNewlines
      let pipeline ← parsePipeline input (expectedAfter op)
      pure (some { op, pipeline })
  | none => pure none

def parseAndOrList (input : Text) : Parse AndOrList := do
  let first ← parsePipeline input "command"
  let parser ← get
  let rest ← repeatLoop (conditionalPipeline input) (parser.rest.length + 1) []
  pure { first, rest }

/-- After a list comes a separator or the end of the tokens. -/
def endList (input : Text) : Parse Unit := do
  let semi ← consumeIf (· = .semi)
  if semi then consumeNewlines
  else do
    let newline ← consumeIf (· = .newline)
    if newline then consumeNewlines
    else do
      let eof ← isEof
      if eof then pure () else unexpected input "`;`, newline, or end of input"

def programLoop (input : Text) : Nat → List AndOrList → Parse Program
  | 0, _ => Call.orPanic none
  | fuel + 1, lists => do
      let eof ← isEof
      if eof then pure { lists }
      else do
        let list ← parseAndOrList input
        endList input
        programLoop input fuel (lists ++ [list])

def parseProgram (input : Text) : Parse Program := do
  consumeNewlines
  let parser ← get
  programLoop input (parser.rest.length + 1) []

end Parser

/-- The parser starts in front of the first token. -/
def parseTokens (input : Text) (tokens : List Token) : Scan Program :=
  ExceptT.mk ((Call.outcome (Parser.parseProgram input) { consumed := [], rest := tokens }).map
    Prod.fst)

def parse (input : Text) : Scan Program := do
  let tokens ← lex input
  parseTokens input tokens

end TinySandbox.Shell
