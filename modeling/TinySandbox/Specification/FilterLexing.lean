/-
This file gives a lexer of the `jq` language, without the grammar above it.
A comment goes on behind a line that ends in an odd number of backslashes.
-/

import TinySandbox.Construction.Jq.FilterSource

namespace TinySandbox.Jq

/-- These are the contexts that a byte can be in, from the inside out. -/
inductive FilterContext where
  | string
  | inside (delimiter : FilterDelimiter)
  deriving DecidableEq

inductive FilterToken where
  | blank
  | comment (continues : Bool)
  | quote
  | text
  | opening (delimiter : FilterDelimiter)
  | closing (delimiter : FilterDelimiter)
  | word
  | number
  | operator
  | other
  deriving DecidableEq

/-- A token, the contexts behind it, and the number of its bytes after the first. -/
structure NextToken where
  token : FilterToken
  contexts : List FilterContext
  more : Nat

/-- The length of a comment behind its sign, with the end of its last line. -/
def commentLength (odd : Bool) : Bytes → Nat
  | [] => 0
  | byte :: rest =>
      if byte = 10 then if odd then commentLength false rest + 1 else 1
      else commentLength (byte = ascii '\\' && !odd) rest + 1

/-- The first line of the comment ends in an odd number of backslashes. -/
def commentContinues (odd : Bool) : Bytes → Bool
  | [] => false
  | byte :: rest =>
      if byte = 10 then odd else commentContinues (byte = ascii '\\' && !odd) rest

def digitsLength (bytes : Bytes) : Nat := (bytes.takeWhile isAsciiDigit).length

def fractionLength : Bytes → Nat
  | [] => 0
  | byte :: rest => if byte = ascii '.' then digitsLength rest + 1 else 0

/-- The letter, the sign and the digits of an exponent. There is none without digits. -/
def exponentLength : Bytes → Nat
  | [] => 0
  | letter :: rest =>
      let sign := if rest.head? = some (ascii '+') ∨ rest.head? = some (ascii '-') then 1 else 0
      let digits := digitsLength (rest.drop sign)
      if (letter = ascii 'e' ∨ letter = ascii 'E') ∧ digits ≠ 0 then digits + sign + 1 else 0

/-- The length of a number behind its first digit. -/
def numberLength (rest : Bytes) : Nat :=
  let digits := digitsLength rest
  let fraction := fractionLength (rest.drop digits)
  digits + fraction + exponentLength (rest.drop (digits + fraction))

def longOperators : List Bytes :=
  [['/', '/', '='], ['?', '/', '/']].map fun operator => operator.map ascii

def operatorSymbols : Bytes :=
  ['.', '?', '=', ';', ',', ':', '|', '+', '-', '*', '/', '%', '$', '<', '>', '!', '@'].map ascii

/-- An operator is as long as it can be. -/
def operatorLength (bytes : Bytes) : Nat :=
  if ∃ operator ∈ longOperators, bytes.take 3 = operator then 3
  else if ∃ operator ∈ [ascii '.', ascii '.'] :: jqOperators, bytes.take 2 = operator then 2
  else 1

def delimiterOf (byte : UInt8) : Option FilterDelimiter :=
  if byte = ascii '(' then some .paren
  else if byte = ascii '[' then some .bracket
  else if byte = ascii '{' then some .brace
  else none

/-- A closing delimiter ends what the delimiter on the inside began. -/
def closingToken (byte : UInt8) : List FilterContext → Option NextToken
  | .inside delimiter :: contexts =>
      if byte = ascii ')' ∧ (delimiter = .paren ∨ delimiter = .interpolation) ∨
          byte = ascii ']' ∧ delimiter = .bracket ∨ byte = ascii '}' ∧ delimiter = .brace then
        some ⟨.closing delimiter, contexts, 0⟩
      else none
  | _ => none

def isClosing (byte : UInt8) : Bool := byte = ascii ')' ∨ byte = ascii ']' ∨ byte = ascii '}'

def codeToken (contexts : List FilterContext) (byte : UInt8) (rest : Bytes) : Option NextToken :=
  if isAsciiWhitespace byte then some ⟨.blank, contexts, 0⟩
  else if byte = ascii '#' then
    some ⟨.comment (commentContinues false rest), contexts, commentLength false rest⟩
  else if byte = ascii '"' then some ⟨.quote, .string :: contexts, 0⟩
  else if isClosing byte then closingToken byte contexts
  else
    match delimiterOf byte with
    | some delimiter => some ⟨.opening delimiter, .inside delimiter :: contexts, 0⟩
    | none =>
        if isJqIdentStart byte then
          some ⟨.word, contexts, (rest.takeWhile isJqIdentContinue).length⟩
        else if isAsciiDigit byte then some ⟨.number, contexts, numberLength rest⟩
        else if byte ∈ operatorSymbols then
          some ⟨.operator, contexts, operatorLength (byte :: rest) - 1⟩
        else some ⟨.other, contexts, 0⟩

def isStringText (byte : UInt8) : Bool := ¬ (byte = ascii '"' ∨ byte = ascii '\\')

def stringToken (contexts : List FilterContext) (byte : UInt8) (rest : Bytes) : Option NextToken :=
  if byte = ascii '"' then some ⟨.quote, contexts, 0⟩
  else if byte = ascii '\\' then
    match rest with
    | [] => none
    | escaped :: _ =>
        if escaped = ascii '(' then
          some ⟨.opening .interpolation, .inside .interpolation :: .string :: contexts, 1⟩
        else some ⟨.text, .string :: contexts, 1⟩
  else some ⟨.text, .string :: contexts, (rest.takeWhile isStringText).length⟩

def nextToken : List FilterContext → UInt8 → Bytes → Option NextToken
  | .string :: contexts, byte, rest => stringToken contexts byte rest
  | contexts, byte, rest => codeToken contexts byte rest

/-- The number of bytes that still belong to the last token comes first.
There are no tokens when a string or a delimiter stays open, or when delimiters do not match. -/
def lexFilter : Nat → List FilterContext → Bytes → Option (List FilterToken)
  | _, [], [] => some []
  | _, _ :: _, [] => none
  | more + 1, contexts, _ :: rest => lexFilter more contexts rest
  | 0, contexts, byte :: rest => do
      let next ← nextToken contexts byte rest
      let tokens ← lexFilter next.more next.contexts rest
      some (next.token :: tokens)

def FilterToken.counts : FilterToken → Bool
  | .opening _ | .closing _ | .operator => true
  | _ => false

/-- The number of delimiter and operator tokens. -/
def syntaxTokens (tokens : List FilterToken) : Nat := tokens.countP FilterToken.counts

/-- The number of open delimiters behind a token. -/
def FilterToken.depth (depth : Nat) : FilterToken → Nat
  | .opening _ => depth + 1
  | .closing _ => depth - 1
  | _ => depth

/-- The deepest nesting, when some delimiters are open already. -/
def nesting (depth : Nat) : List FilterToken → Nat
  | [] => depth
  | token :: tokens => max depth (nesting (token.depth depth) tokens)

end TinySandbox.Jq
