/-
This file cuts the input of the shell into tokens.
A cursor is the rest of the input, and its position is the number of bytes before it. The loops
take fuel, and each round of a loop consumes a part of the rest.
-/

import TinySandbox.Construction.Shell.Syntax

namespace TinySandbox.Shell

/-- The byte position of a rest of the input. -/
def position (input rest : Text) : Nat := utf8Len input - utf8Len rest

def isNameStart (symbol : Char) : Bool := symbol.isAlpha || symbol = '_'

def isNameContinue (symbol : Char) : Bool := symbol.isAlphanum || symbol = '_'

def isRejectedSpecialParameter (symbol : Char) : Bool :=
  symbol ∈ ['$', '!', '#', '*', '@', '-']

def isWordBreak (symbol : Char) : Bool :=
  symbol ∈ [' ', '\t', '\n', '|', '&', ';', '<', '>']

def isBlank (symbol : Char) : Bool := symbol = ' ' || symbol = '\t'

def skipBlanks (rest : Text) : Text := rest.dropWhile isBlank

def skipComment (rest : Text) : Text := rest.dropWhile (· ≠ '\n')

/-- A literal joins the last segment when both are quoted or both are not. -/
def pushLiteral (segments : List Segment) (literal : Text) (quoted : Bool) : List Segment :=
  if literal = [] ∧ ¬ quoted then segments
  else
    match segments.getLast? with
    | some (.literal value existing) =>
        if literal ≠ [] ∧ existing = quoted then
          segments.dropLast ++ [.literal (value ++ literal) quoted]
        else segments ++ [.literal literal quoted]
    | _ => segments ++ [.literal literal quoted]

def pushLiteralBeforeExpansion (segments : List Segment) (literal : Text) (quoted : Bool) :
    List Segment :=
  if literal = [] then segments else pushLiteral segments literal quoted

/-- The number has to fit in a `u32`. -/
def parseFd (input rest digits : Text) : Scan Nat :=
  let value := digits.foldl (fun value digit => 10 * value + (digit.toNat - '0'.toNat)) 0
  if value < 2 ^ 32 then pure value
  else Scan.fail (position input rest) .invalidFileDescriptor

/-- The operator starts at `rest`. The result is the operator with what follows it. -/
def scanRedirectOp (input rest : Text) : Scan (Option (RedirectOp × Text)) :=
  match rest with
  | '<' :: '<' :: _ => Scan.fail (position input rest) (.unsupported .heredoc)
  | '<' :: next => pure (some (.read, next))
  | '>' :: '>' :: next => pure (some (.append, next))
  | '>' :: next => pure (some (.write, next))
  | _ => pure none

/-- The descriptor behind `>&` ends where a word would end. -/
def scanTargetFd (input operator : Text) (op : RedirectOp) (next : Text) :
    Scan (Option Nat × Text) :=
  match next with
  | '&' :: start =>
      if op ≠ .write then Scan.fail (position input operator) (.unsupported .redirectFdDup)
      else
        let digits := start.takeWhile Char.isDigit
        let stop := start.dropWhile Char.isDigit
        if digits = [] then Scan.fail (position input operator) (.unsupported .redirectFdDup)
        else if stop.head?.any fun symbol => ! isWordBreak symbol then
          Scan.fail (position input operator) .ambiguousRedirect
        else do
          let fd ← parseFd input start digits
          pure (some fd, stop)
  | _ => pure (none, next)

/-- Digits belong to the redirect only when an operator follows them. -/
def scanRedirect (input rest : Text) : Scan (Option (RedirectToken × Text)) := do
  let digits := rest.takeWhile Char.isDigit
  let behind := rest.dropWhile Char.isDigit
  let numbered := digits ≠ [] ∧ (behind.head? = some '<' ∨ behind.head? = some '>')
  let fd ← if numbered then some <$> parseFd input rest digits else pure none
  let operator := if numbered then behind else rest
  let scanned ← scanRedirectOp input operator
  match scanned with
  | none => pure none
  | some (op, next) => do
      let target ← scanTargetFd input operator op next
      pure (some ({ fd, op, targetFd := target.1 }, target.2))

/-- The text up to the closing quote, with what follows the quote. -/
def untilSingleQuote : Text → Option (Text × Text)
  | [] => none
  | symbol :: rest =>
      if symbol = '\'' then some ([], rest)
      else (untilSingleQuote rest).map fun found => (symbol :: found.1, found.2)

def scanSingleQuoted (input rest : Text) (segments : List Segment) : Scan (List Segment × Text) :=
  match untilSingleQuote rest.tail with
  | some (literal, next) => pure (pushLiteral segments literal true, next)
  | none => Scan.fail (position input rest) (.unterminatedQuote .single)

/-- A backslash at the end of the input and an escaped newline stand for nothing. -/
def scanUnquotedEscape (rest : Text) : Text × Option Char :=
  match rest.tail with
  | [] => ([], none)
  | '\n' :: next => (next, none)
  | symbol :: next => (next, some symbol)

/-- A backslash escapes only four characters inside double quotes. -/
def scanDoubleQuotedEscape (input rest literal : Text) : Scan (Text × Text) :=
  match rest.tail with
  | [] => Scan.fail (position input rest) .unterminatedEscape
  | '\n' :: next => pure (literal, next)
  | symbol :: next =>
      if symbol ∈ ['$', '\x60', '"', '\\'] then pure (literal ++ [symbol], next)
      else pure (literal ++ ['\\', symbol], next)

/-- The segments so far, with the literal that is not pushed yet. -/
structure Literals where
  segments : List Segment := []
  literal : Text := []

def Literals.expand (before : Literals) (name : Text) (quoted : Bool) : Literals where
  segments :=
    pushLiteralBeforeExpansion before.segments before.literal quoted ++ [.expansion name quoted]
  literal := []

def questionMark : Text := ['?']

/-- The rest starts at the dollar sign of an expansion in braces. -/
def scanBracedExpansion (input rest : Text) (quoted : Bool) (before : Literals) :
    Scan (Literals × Text) :=
  match rest.drop 2 with
  | [] => Scan.fail (position input rest) .unterminatedBracedExpansion
  | first :: behind =>
      if first = '?' then
        match behind with
        | '}' :: next => pure (before.expand questionMark quoted, next)
        | _ => Scan.fail (position input rest) .invalidParameterExpansion
      else if first.isDigit || isRejectedSpecialParameter first then
        Scan.fail (position input rest) (.unsupported .parameterExpansion)
      else if ! isNameStart first then
        Scan.fail (position input rest) .invalidParameterExpansion
      else
        let name := first :: behind.takeWhile isNameContinue
        match behind.dropWhile isNameContinue with
        | '}' :: next =>
            if name = ['_'] then Scan.fail (position input rest) (.unsupported .parameterExpansion)
            else pure (before.expand name quoted, next)
        | [] => Scan.fail (position input rest) .unterminatedBracedExpansion
        | _ => Scan.fail (position input rest) .invalidParameterExpansion

/-- The rest starts at the dollar sign, which is literal when no expansion follows. -/
def scanExpansion (input rest : Text) (quoted : Bool) (before : Literals) :
    Scan (Literals × Text) :=
  match rest.tail with
  | [] => pure ({ before with literal := before.literal ++ ['$'] }, [])
  | next :: behind =>
      if next = '(' then Scan.fail (position input rest) (.unsupported .commandSubstitution)
      else if next = '\'' ∧ ¬ quoted then
        Scan.fail (position input rest) (.unsupported .ansiCString)
      else if next = '"' ∧ ¬ quoted then
        Scan.fail (position input rest) (.unsupported .localeTranslation)
      else if next = '{' then scanBracedExpansion input rest quoted before
      else if next = '?' then pure (before.expand questionMark quoted, behind)
      else if isNameStart next then
        let name := next :: behind.takeWhile isNameContinue
        if name = ['_'] then Scan.fail (position input rest) (.unsupported .parameterExpansion)
        else pure (before.expand name quoted, behind.dropWhile isNameContinue)
      else if next.isDigit || isRejectedSpecialParameter next then
        Scan.fail (position input rest) (.unsupported .parameterExpansion)
      else pure ({ before with literal := before.literal ++ ['$'] }, next :: behind)

/-- This is the state of the scan between two double quotes. -/
structure DoubleQuoted extends Literals where
  hadContent : Bool := false

/-- One round handles one character that does not close the quotes. -/
def doubleQuotedStep (input rest : Text) (symbol : Char) (next : Text) (scan : DoubleQuoted) :
    Scan (DoubleQuoted × Text) :=
  if symbol = '\\' then do
    let escaped ← scanDoubleQuotedEscape input rest scan.literal
    pure ({ scan with
      literal := escaped.1
      hadContent := scan.hadContent || utf8Len escaped.1 ≠ utf8Len scan.literal }, escaped.2)
  else if symbol = '$' then do
    let expanded ← scanExpansion input rest true scan.toLiterals
    pure ({ toLiterals := expanded.1, hadContent := true }, expanded.2)
  else if symbol = '\x60' then Scan.fail (position input rest) (.unsupported .backticks)
  else pure ({ scan with literal := scan.literal ++ [symbol], hadContent := true }, next)

def doubleQuotedLoop (input quote : Text) : Nat → Text → DoubleQuoted →
    Scan (List Segment × Text)
  | 0, _, _ => Scan.stuck
  | _ + 1, [], _ => Scan.fail (position input quote) (.unterminatedQuote .double)
  | fuel + 1, symbol :: next, scan =>
      if symbol = '"' then
        if scan.literal ≠ [] ∨ ¬ scan.hadContent then
          pure (pushLiteral scan.segments scan.literal true, next)
        else pure (scan.segments, next)
      else do
        let stepped ← doubleQuotedStep input (symbol :: next) symbol next scan
        doubleQuotedLoop input quote fuel stepped.2 stepped.1

def scanDoubleQuoted (input rest : Text) (segments : List Segment) : Scan (List Segment × Text) :=
  doubleQuotedLoop input rest rest.length rest.tail { segments }

def hasClosingBracketBeforeWordEnd : Text → Bool
  | [] => false
  | symbol :: rest =>
      if symbol = ']' then true
      else if isWordBreak symbol then false
      else hasClosingBracketBeforeWordEnd rest

/-- This is the state of the scan of a word. -/
structure WordScan extends Literals where
  hadContent : Bool := false
  lastUnquotedChar : Option Char := none
  hasUnquotedEquals : Bool := false

/-- A tilde expands at the start of a word and behind some characters of an assignment. -/
def WordScan.TildeExpands (scan : WordScan) : Prop :=
  (scan.hadContent = false ∧ scan.segments = [] ∧ scan.literal = []) ∨
    scan.lastUnquotedChar = some '=' ∨
    (scan.lastUnquotedChar = some ':' ∧ scan.hasUnquotedEquals = true)

instance (scan : WordScan) : Decidable scan.TildeExpands :=
  inferInstanceAs (Decidable (_ ∨ _ ∨ _))

/-- Quoted text starts a new segment. -/
def WordScan.quote (scan : WordScan) (segments : List Segment) : WordScan where
  segments := segments
  literal := []
  hadContent := true
  lastUnquotedChar := none
  hasUnquotedEquals := scan.hasUnquotedEquals

/-- This pushes the unquoted literal in front of quoted text. -/
def WordScan.flushed (scan : WordScan) : List Segment :=
  pushLiteral scan.segments scan.literal false

/-- One round handles one character, escape, quotation or expansion. -/
def wordStep (input rest : Text) (symbol : Char) (next : Text) (scan : WordScan) :
    Scan (WordScan × Text) :=
  if symbol = '\'' then do
    let quoted ← scanSingleQuoted input rest scan.flushed
    pure (scan.quote quoted.1, quoted.2)
  else if symbol = '"' then do
    let quoted ← scanDoubleQuoted input rest scan.flushed
    pure (scan.quote quoted.1, quoted.2)
  else if symbol = '\\' then
    match scanUnquotedEscape rest with
    | (behind, some escaped) =>
        pure (scan.quote (pushLiteral scan.flushed [escaped] true), behind)
    | (behind, none) => pure (scan, behind)
  else if symbol = '$' then do
    let expanded ← scanExpansion input rest false scan.toLiterals
    pure ({ scan with
      toLiterals := expanded.1
      hadContent := true
      lastUnquotedChar := none }, expanded.2)
  else if symbol = '*' ∨ symbol = '?' then Scan.fail (position input rest) (.unsupported .glob)
  else if symbol = '[' ∧ hasClosingBracketBeforeWordEnd next then
    Scan.fail (position input rest) (.unsupported .glob)
  else if symbol = '\x60' then Scan.fail (position input rest) (.unsupported .backticks)
  else if symbol = '(' ∨ symbol = ')' then
    Scan.fail (position input rest) (.unsupported .subshell)
  else if symbol = '{' ∨ symbol = '}' then
    Scan.fail (position input rest) (.unsupported .braceExpansion)
  else if symbol = '~' ∧ scan.TildeExpands then
    Scan.fail (position input rest) (.unsupported .tildeExpansion)
  else
    pure ({ scan with
      literal := scan.literal ++ [symbol]
      hadContent := true
      lastUnquotedChar := some symbol
      hasUnquotedEquals := scan.hasUnquotedEquals || symbol = '=' }, next)

def wordLoop (input : Text) : Nat → Text → WordScan → Scan (WordScan × Text)
  | 0, _, _ => Scan.stuck
  | _ + 1, [], scan => pure (scan, [])
  | fuel + 1, symbol :: next, scan =>
      if isWordBreak symbol then pure (scan, symbol :: next)
      else do
        let stepped ← wordStep input (symbol :: next) symbol next scan
        wordLoop input fuel stepped.2 stepped.1

/-- A word that is only escaped newlines is no word. -/
def scanWord (input rest : Text) : Scan (Option Word × Text) := do
  let scanned ← wordLoop input (rest.length + 1) rest {}
  if scanned.1.hadContent then pure (some { segments := scanned.1.flushed }, scanned.2)
  else pure (none, scanned.2)

/-- The redirect scanner has seen every `<` and `>`, so they cannot come here. -/
def scanToken (input rest : Text) : Scan (Option TokenKind × Text) :=
  match rest with
  | [] => Scan.stuck
  | '\n' :: next => pure (some .newline, next)
  | ';' :: next => pure (some .semi, next)
  | '|' :: '|' :: next => pure (some .orIf, next)
  | '|' :: next => pure (some .pipe, next)
  | '&' :: '&' :: next => pure (some .andIf, next)
  | '&' :: _ => Scan.fail (position input rest) (.unsupported .background)
  | '<' :: '<' :: _ => Scan.fail (position input rest) (.unsupported .heredoc)
  | '<' :: _ => Scan.stuck
  | '>' :: _ => Scan.stuck
  | _ => do
      let scanned ← scanWord input rest
      pure (scanned.1.map .word, scanned.2)

/-- A redirect is tried before every other token. -/
def scanKind (input rest : Text) : Scan (Option TokenKind × Text) := do
  let redirect ← scanRedirect input rest
  match redirect with
  | some (redirect, next) => pure (some (.redirect redirect), next)
  | none => scanToken input rest

def lexLoop (input : Text) : Nat → Text → List Token → Scan (List Token)
  | 0, _, _ => Scan.stuck
  | fuel + 1, rest, tokens =>
      match skipBlanks rest with
      | [] => pure tokens
      | '#' :: next => lexLoop input fuel (skipComment ('#' :: next)) tokens
      | rest => do
          let scanned ← scanKind input rest
          let token := scanned.1.map fun kind => { kind, position := position input rest : Token }
          lexLoop input fuel scanned.2 (tokens ++ token.toList)

def lex (input : Text) : Scan (List Token) := lexLoop input (input.length + 1) input []

end TinySandbox.Shell
