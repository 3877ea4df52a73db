/-
This file gives the checks that the guest makes before the recursive parsers of `jq` run, one of the
nesting of a JSON input and one of the source of a filter.
-/

import TinySandbox.Construction.Types

namespace TinySandbox.Jq

def maxJqJsonNesting : Nat := 1024

/-- The flags of the scan. A comment hides a string, and an escape is inside a string. -/
structure NestingScan where
  depth : Nat := 0
  inString : Bool := false
  escaped : Bool := false
  inComment : Bool := false
  deriving DecidableEq

/-- One byte. There is no result when the depth exceeds the limit. -/
def NestingScan.step (scan : NestingScan) (byte : UInt8) : Option NestingScan :=
  if scan.inComment then
    if byte = 10 then some { scan with inComment := false } else some scan
  else if scan.inString then
    if scan.escaped then some { scan with escaped := false }
    else if byte = 92 then some { scan with escaped := true }
    else if byte = 34 then some { scan with inString := false }
    else some scan
  else if byte = 34 then some { scan with inString := true }
  else if byte = 35 then some { scan with inComment := true }
  else if byte = 91 ∨ byte = 123 then
    if maxJqJsonNesting < scan.depth + 1 then none else some { scan with depth := scan.depth + 1 }
  else if byte = 93 ∨ byte = 125 then some { scan with depth := scan.depth - 1 }
  else some scan

/-- The scan of some bytes. The closing brackets without an opening one are ignored. -/
def NestingScan.run (scan : NestingScan) : Bytes → Option NestingScan
  | [] => some scan
  | byte :: rest => (scan.step byte).bind fun next => next.run rest

structure JqJsonDepthError where
  max : Nat
  deriving DecidableEq

def JqJsonDepthError.text (error : JqJsonDepthError) : Text :=
  "JSON nesting exceeds maximum depth ".toList ++ (toString error.max).toList

/-- The copy of the host. -/
def validateJqJsonNesting (data : Bytes) : Except JqJsonDepthError Unit :=
  match NestingScan.run {} data with
  | none => .error { max := maxJqJsonNesting }
  | some _ => .ok ()

/-- The copy of the guest. -/
def guestValidateJqJsonNesting (data : Bytes) : Except Text Unit :=
  match NestingScan.run {} data with
  | none => .error (JqJsonDepthError.text { max := maxJqJsonNesting })
  | some _ => .ok ()

def maxJqFilterSourceBytes : Nat := 256 * 1024
def maxJqFilterNesting : Nat := 512
def maxJqFilterSyntaxTokens : Nat := 1024

def ascii (symbol : Char) : UInt8 := symbol.val.toUInt8

/-- The check fails with this error only. -/
inductive JqError where
  | compile (message : Text)
  deriving DecidableEq

def sizeMessage : Text :=
  "jq filter source exceeds maximum size ".toList ++ (toString maxJqFilterSourceBytes).toList ++
    " bytes".toList

def nestingMessage : Text :=
  "jq filter nesting exceeds maximum depth ".toList ++ (toString maxJqFilterNesting).toList

def tokensMessage : Text :=
  "jq filter complexity exceeds maximum token count ".toList ++
    (toString maxJqFilterSyntaxTokens).toList

inductive FilterDelimiter where
  | paren
  | bracket
  | brace
  | interpolation
  deriving DecidableEq

/-- The top of the stack comes first. -/
structure FilterScan where
  stack : List FilterDelimiter := []
  syntaxTokens : Nat := 0
  inString : Bool := false
  escaped : Bool := false
  inComment : Bool := false
  deriving DecidableEq

def isAsciiWhitespace (byte : UInt8) : Bool :=
  byte = 32 ∨ byte = 9 ∨ byte = 10 ∨ byte = 12 ∨ byte = 13

def isAsciiDigit (byte : UInt8) : Bool := ascii '0' ≤ byte ∧ byte ≤ ascii '9'

def isAsciiAlphabetic (byte : UInt8) : Bool :=
  (ascii 'a' ≤ byte ∧ byte ≤ ascii 'z') ∨ (ascii 'A' ≤ byte ∧ byte ≤ ascii 'Z')

def isJqIdentStart (byte : UInt8) : Bool := isAsciiAlphabetic byte || byte = ascii '_'

def isJqIdentContinue (byte : UInt8) : Bool :=
  isAsciiAlphabetic byte || isAsciiDigit byte || byte = ascii '_'

def jqOperators : List Bytes :=
  [['/', '/'], ['=', '='], ['!', '='], ['<', '='], ['>', '='], ['+', '='], ['-', '='], ['*', '='],
    ['/', '='], ['%', '='], ['|', '=']].map fun operator => operator.map ascii

def jqOperatorLen (rest : Bytes) : Nat := if rest.take 2 ∈ jqOperators then 2 else 1

namespace FilterScan

def pushDelimiter (scan : FilterScan) (delimiter : FilterDelimiter) : Except JqError FilterScan :=
  if maxJqFilterNesting < scan.stack.length + 1 then .error (.compile nestingMessage)
  else .ok { scan with stack := delimiter :: scan.stack }

/-- An empty stack counts as a stack with the fallback. -/
def popDelimiter (scan : FilterScan) (fallback : FilterDelimiter) : Bool × FilterScan :=
  ((scan.stack.headD fallback) = .interpolation, { scan with stack := scan.stack.tail })

def bumpSyntaxToken (scan : FilterScan) : Except JqError FilterScan :=
  if maxJqFilterSyntaxTokens < scan.syntaxTokens + 1 then .error (.compile tokensMessage)
  else .ok { scan with syntaxTokens := scan.syntaxTokens + 1 }

def opening (scan : FilterScan) (delimiter : FilterDelimiter) : Except JqError FilterScan := do
  let scan ← scan.pushDelimiter delimiter
  scan.bumpSyntaxToken

/-- A byte inside a string. An escaped parenthesis leaves the string for a while. -/
def stringByte (scan : FilterScan) (byte : UInt8) : Except JqError FilterScan :=
  if scan.escaped then
    if byte = ascii '(' then do
      let scan ← { scan with escaped := false }.opening .interpolation
      .ok { scan with inString := false }
    else .ok { scan with escaped := false }
  else if byte = ascii '\\' then .ok { scan with escaped := true }
  else if byte = ascii '"' then .ok { scan with inString := false }
  else .ok scan

/-- Only a closing parenthesis can go back into a string. -/
def closing (scan : FilterScan) (delimiter : FilterDelimiter) : Except JqError FilterScan := do
  let scan ← scan.bumpSyntaxToken
  let popped := scan.popDelimiter delimiter
  .ok { popped.2 with
    inString := if delimiter = .paren ∧ popped.1 then true else popped.2.inString }

/-- The number counts the bytes that are skipped behind this one. -/
def codeByte (scan : FilterScan) (byte : UInt8) (rest : Bytes) : Except JqError (FilterScan × Nat) :=
  if isAsciiWhitespace byte then .ok (scan, 0)
  else if byte = ascii '#' then .ok ({ scan with inComment := true }, 0)
  else if byte = ascii '"' then do
    let scan ← scan.bumpSyntaxToken
    .ok ({ scan with inString := true }, 0)
  else if byte = ascii '(' then do
    let scan ← scan.opening .paren
    .ok (scan, 0)
  else if byte = ascii '[' then do
    let scan ← scan.opening .bracket
    .ok (scan, 0)
  else if byte = ascii '{' then do
    let scan ← scan.opening .brace
    .ok (scan, 0)
  else if byte = ascii ')' then do
    let scan ← scan.closing .paren
    .ok (scan, 0)
  else if byte = ascii ']' then do
    let scan ← scan.closing .bracket
    .ok (scan, 0)
  else if byte = ascii '}' then do
    let scan ← scan.closing .brace
    .ok (scan, 0)
  else if isJqIdentStart byte then do
    let scan ← scan.bumpSyntaxToken
    .ok (scan, (rest.takeWhile isJqIdentContinue).length)
  else if isAsciiDigit byte then do
    let scan ← scan.bumpSyntaxToken
    .ok (scan, (rest.takeWhile isAsciiDigit).length)
  else do
    let scan ← scan.bumpSyntaxToken
    .ok (scan, jqOperatorLen (byte :: rest) - 1)

def byte (scan : FilterScan) (byte : UInt8) (rest : Bytes) : Except JqError (FilterScan × Nat) :=
  if scan.inComment then
    .ok (if byte = 10 then { scan with inComment := false } else scan, 0)
  else if scan.inString then do
    let scan ← scan.stringByte byte
    .ok (scan, 0)
  else scan.codeByte byte rest

/-- The number of bytes that are still skipped comes first. -/
def run : Nat → FilterScan → Bytes → Except JqError Unit
  | _, _, [] => .ok ()
  | skip + 1, scan, _ :: rest => run skip scan rest
  | 0, scan, byte :: rest => do
      let next ← scan.byte byte rest
      run next.2 next.1 rest

end FilterScan

def validateFilterSource (filter : Bytes) : Except JqError Unit :=
  if maxJqFilterSourceBytes < filter.length then .error (.compile sizeMessage)
  else FilterScan.run 0 {} filter

end TinySandbox.Jq
