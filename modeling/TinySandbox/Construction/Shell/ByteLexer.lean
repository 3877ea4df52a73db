/-
This file gives the lexer of the shell on byte positions, as the host runs it.
The cursors move by numbers of bytes, a slice off the boundaries of characters panics, and a panic
has no outcome. The loops take fuel.
-/

import TinySandbox.Construction.Shell.Parser

namespace TinySandbox.Shell.Bytes

/-- This is `input.get(position..)`, which has a value only on the boundaries of characters. -/
def textFrom : Text → Nat → Option Text
  | text, 0 => some text
  | [], _ + 1 => none
  | symbol :: rest, position + 1 =>
      if symbol.utf8Size ≤ position + 1 then textFrom rest (position + 1 - symbol.utf8Size)
      else none

def peekChar (input : Text) (position : Nat) : Option Char :=
  (textFrom input position).bind List.head?

/-- The first bytes of a text, when they end on a boundary. -/
def textTo : Text → Nat → Option Text
  | _, 0 => some []
  | [], _ + 1 => none
  | symbol :: rest, bytes + 1 =>
      if symbol.utf8Size ≤ bytes + 1 then
        (textTo rest (bytes + 1 - symbol.utf8Size)).map (symbol :: ·)
      else none

/-- This is `input[start..stop]`. -/
def slice (input : Text) (start stop : Nat) : Scan Text :=
  if stop < start then Scan.stuck
  else
    match (textFrom input start).bind fun rest => textTo rest (stop - start) with
    | some text => pure text
    | none => Scan.stuck

/-- This is `input[position..].starts_with(pattern)`. -/
def startsWith (input : Text) (position : Nat) (pattern : Text) : Scan Bool :=
  match textFrom input position with
  | some rest => pure (pattern.isPrefixOf rest)
  | none => Scan.stuck

/-- The cursor moves while the character in front of it is one to keep. -/
def skipWhile (input : Text) (keep : Char → Bool) (step : Char → Nat) : Nat → Nat → Scan Nat
  | 0, _ => Scan.stuck
  | fuel + 1, position =>
      match peekChar input position with
      | some symbol =>
          if keep symbol then skipWhile input keep step fuel (position + step symbol)
          else pure position
      | none => pure position

/-- A loop moves by at least one byte a round. -/
def enough (input : Text) : Nat := utf8Len input + 1

def skipBlanks (input : Text) (position : Nat) : Scan Nat :=
  skipWhile input isBlank Char.utf8Size (enough input) position

def skipComment (input : Text) (position : Nat) : Scan Nat :=
  skipWhile input (· ≠ '\n') Char.utf8Size (enough input) position

/-- The loops over digits and names move by one byte a round. -/
def skipDigits (input : Text) (position : Nat) : Scan Nat :=
  skipWhile input Char.isDigit (fun _ => 1) (enough input) position

def skipName (input : Text) (position : Nat) : Scan Nat :=
  skipWhile input isNameContinue (fun _ => 1) (enough input) position

def parseFd (input : Text) (start stop : Nat) : Scan Nat := do
  let digits ← slice input start stop
  let value := digits.foldl (fun value digit => 10 * value + (digit.toNat - '0'.toNat)) 0
  if digits ≠ [] ∧ value < 2 ^ 32 then pure value else Scan.fail start .invalidFileDescriptor

def scanRedirectOp (input : Text) (position scan : Nat) : Scan (Option (RedirectOp × Nat)) :=
  match peekChar input scan with
  | none => pure none
  | some operator =>
      if operator = '<' then do
        let heredoc ← startsWith input scan ['<', '<']
        if heredoc then Scan.fail position (.unsupported .heredoc)
        else pure (some (.read, scan + 1))
      else if operator = '>' then do
        let appends ← startsWith input scan ['>', '>']
        if appends then pure (some (.append, scan + 2)) else pure (some (.write, scan + 1))
      else pure none

def scanTargetFd (input : Text) (operator : Nat) (op : RedirectOp) (next : Nat) :
    Scan (Option Nat × Nat) :=
  if peekChar input next = some '&' then
    if op ≠ .write then Scan.fail operator (.unsupported .redirectFdDup)
    else do
      let start := next + 1
      let stop ← skipDigits input start
      if stop = start then Scan.fail operator (.unsupported .redirectFdDup)
      else if (peekChar input stop).any fun symbol => ! isWordBreak symbol then
        Scan.fail operator .ambiguousRedirect
      else do
        let fd ← parseFd input start stop
        pure (some fd, stop)
  else pure (none, next)

def scanRedirect (input : Text) (position : Nat) : Scan (Option (RedirectToken × Nat)) := do
  let scan ← skipDigits input position
  let numbered := position < scan ∧
    (peekChar input scan = some '<' ∨ peekChar input scan = some '>')
  let fd ← if numbered then some <$> parseFd input position scan else pure none
  let operator := if numbered then scan else position
  let scanned ← scanRedirectOp input operator operator
  match scanned with
  | none => pure none
  | some (op, next) => do
      let target ← scanTargetFd input operator op next
      pure (some ({ fd, op, targetFd := target.1 }, target.2))

def singleQuotedLoop (input : Text) (quote : Nat) (segments : List Segment) :
    Nat → Nat → Text → Scan (List Segment × Nat)
  | 0, _, _ => Scan.stuck
  | fuel + 1, cursor, literal =>
      match peekChar input cursor with
      | none => Scan.fail quote (.unterminatedQuote .single)
      | some symbol =>
          if symbol = '\'' then pure (pushLiteral segments literal true, cursor + 1)
          else
            singleQuotedLoop input quote segments fuel (cursor + symbol.utf8Size)
              (literal ++ [symbol])

def scanSingleQuoted (input : Text) (position : Nat) (segments : List Segment) :
    Scan (List Segment × Nat) :=
  singleQuotedLoop input position segments (enough input) (position + 1) []

def scanUnquotedEscape (input : Text) (position : Nat) : Nat × Option Char :=
  match peekChar input (position + 1) with
  | none => (position + 1, none)
  | some next =>
      if next = '\n' then (position + 1 + 1, none) else (position + 1 + next.utf8Size, some next)

def scanDoubleQuotedEscape (input : Text) (position : Nat) (literal : Text) : Scan (Text × Nat) :=
  match peekChar input (position + 1) with
  | none => Scan.fail position .unterminatedEscape
  | some next =>
      if next = '\n' then pure (literal, position + 1 + 1)
      else if next ∈ ['$', '\x60', '"', '\\'] then
        pure (literal ++ [next], position + 1 + next.utf8Size)
      else pure (literal ++ ['\\', next], position + 1 + next.utf8Size)

def scanBracedExpansion (input : Text) (position : Nat) (quoted : Bool) (before : Literals) :
    Scan (Literals × Nat) :=
  match peekChar input (position + 2) with
  | none => Scan.fail position .unterminatedBracedExpansion
  | some first =>
      if first = '?' then
        if peekChar input (position + 2 + 1) ≠ some '}' then
          Scan.fail position .invalidParameterExpansion
        else pure (before.expand questionMark quoted, position + 2 + 1 + 1)
      else if first.isDigit || isRejectedSpecialParameter first then
        Scan.fail position (.unsupported .parameterExpansion)
      else if ! isNameStart first then Scan.fail position .invalidParameterExpansion
      else do
        let stop ← skipName input (position + 2 + first.utf8Size)
        match peekChar input stop with
        | some closing =>
            if closing = '}' then do
              let name ← slice input (position + 2) stop
              if name = ['_'] then Scan.fail position (.unsupported .parameterExpansion)
              else pure (before.expand name quoted, stop + 1)
            else Scan.fail position .invalidParameterExpansion
        | none => Scan.fail position .unterminatedBracedExpansion

def scanExpansion (input : Text) (position : Nat) (quoted : Bool) (before : Literals) :
    Scan (Literals × Nat) :=
  match peekChar input (position + 1) with
  | none => pure ({ before with literal := before.literal ++ ['$'] }, position + 1)
  | some next =>
      if next = '(' then Scan.fail position (.unsupported .commandSubstitution)
      else if next = '\'' ∧ ¬ quoted then Scan.fail position (.unsupported .ansiCString)
      else if next = '"' ∧ ¬ quoted then Scan.fail position (.unsupported .localeTranslation)
      else if next = '{' then scanBracedExpansion input position quoted before
      else if next = '?' then pure (before.expand questionMark quoted, position + 1 + 1)
      else if isNameStart next then do
        let stop ← skipName input (position + 1 + next.utf8Size)
        let name ← slice input (position + 1) stop
        if name = ['_'] then Scan.fail position (.unsupported .parameterExpansion)
        else pure (before.expand name quoted, stop)
      else if next.isDigit || isRejectedSpecialParameter next then
        Scan.fail position (.unsupported .parameterExpansion)
      else pure ({ before with literal := before.literal ++ ['$'] }, position + 1)

/-- One round handles one character that does not close the quotes. -/
def doubleQuotedStep (input : Text) (cursor : Nat) (symbol : Char) (scan : DoubleQuoted) :
    Scan (DoubleQuoted × Nat) :=
  if symbol = '\\' then do
    let escaped ← scanDoubleQuotedEscape input cursor scan.literal
    pure ({ scan with
      literal := escaped.1
      hadContent := scan.hadContent || utf8Len escaped.1 ≠ utf8Len scan.literal }, escaped.2)
  else if symbol = '$' then do
    let expanded ← scanExpansion input cursor true scan.toLiterals
    pure ({ toLiterals := expanded.1, hadContent := true }, expanded.2)
  else if symbol = '\x60' then Scan.fail cursor (.unsupported .backticks)
  else
    pure ({ scan with literal := scan.literal ++ [symbol], hadContent := true },
      cursor + symbol.utf8Size)

def doubleQuotedLoop (input : Text) (quote : Nat) : Nat → Nat → DoubleQuoted →
    Scan (List Segment × Nat)
  | 0, _, _ => Scan.stuck
  | fuel + 1, cursor, scan =>
      match peekChar input cursor with
      | none => Scan.fail quote (.unterminatedQuote .double)
      | some symbol =>
          if symbol = '"' then
            if scan.literal ≠ [] ∨ ¬ scan.hadContent then
              pure (pushLiteral scan.segments scan.literal true, cursor + 1)
            else pure (scan.segments, cursor + 1)
          else do
            let stepped ← doubleQuotedStep input cursor symbol scan
            doubleQuotedLoop input quote fuel stepped.2 stepped.1

def scanDoubleQuoted (input : Text) (position : Nat) (segments : List Segment) :
    Scan (List Segment × Nat) :=
  doubleQuotedLoop input position (enough input) (position + 1) { segments }

def closingBracketLoop (input : Text) : Nat → Nat → Scan Bool
  | 0, _ => Scan.stuck
  | fuel + 1, cursor =>
      match peekChar input cursor with
      | none => pure false
      | some symbol =>
          if symbol = ']' then pure true
          else if isWordBreak symbol then pure false
          else closingBracketLoop input fuel (cursor + symbol.utf8Size)

def hasClosingBracketBeforeWordEnd (input : Text) (position : Nat) : Scan Bool :=
  closingBracketLoop input (enough input) (position + 1)

/-- One round handles a character with no rule of its own in front of the tilde. -/
def plainStep (cursor : Nat) (symbol : Char) (scan : WordScan) : Scan (WordScan × Nat) :=
  if symbol = '\x60' then Scan.fail cursor (.unsupported .backticks)
  else if symbol = '(' ∨ symbol = ')' then Scan.fail cursor (.unsupported .subshell)
  else if symbol = '{' ∨ symbol = '}' then Scan.fail cursor (.unsupported .braceExpansion)
  else if symbol = '~' ∧ scan.TildeExpands then Scan.fail cursor (.unsupported .tildeExpansion)
  else
    pure ({ scan with
      literal := scan.literal ++ [symbol]
      hadContent := true
      lastUnquotedChar := some symbol
      hasUnquotedEquals := scan.hasUnquotedEquals || symbol = '=' }, cursor + symbol.utf8Size)

/-- One round handles one character, escape, quotation or expansion. -/
def wordStep (input : Text) (cursor : Nat) (symbol : Char) (scan : WordScan) :
    Scan (WordScan × Nat) :=
  if symbol = '\'' then do
    let quoted ← scanSingleQuoted input cursor scan.flushed
    pure (scan.quote quoted.1, quoted.2)
  else if symbol = '"' then do
    let quoted ← scanDoubleQuoted input cursor scan.flushed
    pure (scan.quote quoted.1, quoted.2)
  else if symbol = '\\' then
    match scanUnquotedEscape input cursor with
    | (behind, some escaped) =>
        pure (scan.quote (pushLiteral scan.flushed [escaped] true), behind)
    | (behind, none) => pure (scan, behind)
  else if symbol = '$' then do
    let expanded ← scanExpansion input cursor false scan.toLiterals
    pure ({ scan with
      toLiterals := expanded.1
      hadContent := true
      lastUnquotedChar := none }, expanded.2)
  else if symbol = '*' ∨ symbol = '?' then Scan.fail cursor (.unsupported .glob)
  else if symbol = '[' then do
    let closes ← hasClosingBracketBeforeWordEnd input cursor
    if closes then Scan.fail cursor (.unsupported .glob) else plainStep cursor symbol scan
  else plainStep cursor symbol scan

def wordLoop (input : Text) : Nat → Nat → WordScan → Scan (WordScan × Nat)
  | 0, _, _ => Scan.stuck
  | fuel + 1, cursor, scan =>
      match peekChar input cursor with
      | none => pure (scan, cursor)
      | some symbol =>
          if isWordBreak symbol then pure (scan, cursor)
          else do
            let stepped ← wordStep input cursor symbol scan
            wordLoop input fuel stepped.2 stepped.1

def scanWord (input : Text) (position : Nat) : Scan (Option Word × Nat) := do
  let scanned ← wordLoop input (enough input) position {}
  if scanned.1.hadContent then pure (some { segments := scanned.1.flushed }, scanned.2)
  else pure (none, scanned.2)

/-- The missing character and the redirect that was not scanned are the panics of the lexer. -/
def scanToken (input : Text) (position : Nat) : Scan (Option TokenKind × Nat) :=
  match peekChar input position with
  | none => Scan.stuck
  | some symbol =>
      if symbol = '\n' then pure (some .newline, position + 1)
      else if symbol = ';' then pure (some .semi, position + 1)
      else if symbol = '|' then do
        let doubled ← startsWith input position ['|', '|']
        if doubled then pure (some .orIf, position + 2) else pure (some .pipe, position + 1)
      else if symbol = '&' then do
        let doubled ← startsWith input position ['&', '&']
        if doubled then pure (some .andIf, position + 2)
        else Scan.fail position (.unsupported .background)
      else if symbol = '<' then do
        let doubled ← startsWith input position ['<', '<']
        if doubled then Scan.fail position (.unsupported .heredoc) else Scan.stuck
      else if symbol = '>' then Scan.stuck
      else do
        let scanned ← scanWord input position
        pure (scanned.1.map .word, scanned.2)

def scanKind (input : Text) (position : Nat) : Scan (Option TokenKind × Nat) := do
  let redirect ← scanRedirect input position
  match redirect with
  | some (redirect, next) => pure (some (.redirect redirect), next)
  | none => scanToken input position

/-- One round of the loop ends it, or it finds at most one token and moves the cursor. -/
def lexRound (input : Text) (start : Nat) : Scan (Option (Option Token × Nat)) := do
  let position ← skipBlanks input start
  if utf8Len input ≤ position then pure none
  else if peekChar input position = some '#' then do
    let next ← skipComment input position
    pure (some (none, next))
  else do
    let scanned ← scanKind input position
    pure (some (scanned.1.map fun kind => { kind, position }, scanned.2))

def lexLoop (input : Text) : Nat → Nat → List Token → Scan (List Token)
  | 0, _, _ => Scan.stuck
  | fuel + 1, position, tokens =>
      if position < utf8Len input then do
        let found ← lexRound input position
        match found with
        | some (token, next) => lexLoop input fuel next (tokens ++ token.toList)
        | none => pure tokens
      else pure tokens

def lex (input : Text) : Scan (List Token) := lexLoop input (enough input) 0 []

def sourceLoop (input : Text) (target : Nat) : Nat → Nat → Nat → Scan Nat
  | 0, _, _ => Scan.stuck
  | fuel + 1, cursor, literalByte =>
      match peekChar input cursor with
      | none => pure cursor
      | some symbol =>
          if literalByte = target ∨ isWordBreak symbol then pure cursor
          else if symbol = '\\' ∧ peekChar input (cursor + symbol.utf8Size) = some '\n' then
            sourceLoop input target fuel (cursor + symbol.utf8Size + 1) literalByte
          else
            sourceLoop input target fuel (cursor + symbol.utf8Size)
              (literalByte + symbol.utf8Size)

def sourcePositionForUnquotedLiteralByte (input : Text) (position target : Nat) : Scan Nat :=
  sourceLoop input target (enough input) position 0

def parse (input : Text) : Scan Program := do
  let tokens ← lex input
  parseTokens input tokens

end TinySandbox.Shell.Bytes
