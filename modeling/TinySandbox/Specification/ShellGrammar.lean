/-
This file gives the grammar of the shell over the kinds of tokens.
Each rule relates the kinds that it derives to the syntax tree that they stand for.
-/

import TinySandbox.Construction.Shell.Syntax
import TinySandbox.Library.Grammar

namespace TinySandbox.Shell
open Library

def isNameFirst (symbol : Char) : Prop := symbol.isAlpha = true ∨ symbol = '_'

def isNameRest (symbol : Char) : Prop := symbol.isAlphanum = true ∨ symbol = '_'

/-- A name is a letter or underscore followed by letters, digits and underscores. -/
def IsName (name : Text) : Prop :=
  ∃ first rest, name = first :: rest ∧ isNameFirst first ∧ ∀ symbol ∈ rest, isNameRest symbol

/-- The word starts with an unquoted literal `NAME+=`. -/
def Appends (word : Word) : Prop :=
  ∃ name tail more, IsName name ∧ word.segments = .literal (name ++ '+' :: '=' :: tail) false :: more

/-- The word starts with an unquoted literal `NAME=`, and what follows is the value. -/
def Assigns (word : Word) (assignment : Assignment) : Prop :=
  ∃ tail more, IsName assignment.name ∧
    word.segments = .literal (assignment.name ++ '=' :: tail) false :: more ∧
    assignment.value.segments = (if tail = [] then [] else [.literal tail false]) ++ more

/-- The elements of a command. The flag tells whether a command word came before. -/
inductive Elements : Bool → List TokenKind → SimpleCommand → Prop where
  | done (seen : Bool) : Elements seen [] {}
  | assignment {word : Word} {assignment : Assignment} {rest : List TokenKind}
      {command : SimpleCommand} (plain : ¬ Appends word) (assigns : Assigns word assignment)
      (later : Elements false rest command) :
      Elements false (.word word :: rest)
        { command with assignments := assignment :: command.assignments }
  | command {word : Word} {rest : List TokenKind} {command : SimpleCommand}
      (plain : ¬ Appends word) (unassigned : ∀ assignment, ¬ Assigns word assignment)
      (later : Elements true rest command) :
      Elements false (.word word :: rest) { command with words := word :: command.words }
  | argument {word : Word} {rest : List TokenKind} {command : SimpleCommand}
      (later : Elements true rest command) :
      Elements true (.word word :: rest) { command with words := word :: command.words }
  | target {seen : Bool} {redirect : RedirectToken} {word : Word} {rest : List TokenKind}
      {command : SimpleCommand} (undirected : redirect.targetFd = none)
      (later : Elements seen rest command) :
      Elements seen (.redirect redirect :: .word word :: rest)
        { command with
          redirects := ⟨redirect.fd, redirect.op, .word word⟩ :: command.redirects }
  | duplicate {seen : Bool} {redirect : RedirectToken} {fd : Nat} {rest : List TokenKind}
      {command : SimpleCommand} (directed : redirect.targetFd = some fd)
      (later : Elements seen rest command) :
      Elements seen (.redirect redirect :: rest)
        { command with redirects := ⟨redirect.fd, redirect.op, .fd fd⟩ :: command.redirects }

/-- The lone unquoted word `!`. -/
def negation : TokenKind := .word { segments := [.literal ['!'] false] }

/-- A command is a sequence of elements that is not empty and does not start with `!`. -/
def CommandOf (kinds : List TokenKind) : Command → Prop
  | .simple command => kinds ≠ [] ∧ kinds.head? ≠ some negation ∧ Elements false kinds command

/-- Newlines may follow an operator. -/
def Newlines (kinds : List TokenKind) : Prop := ∃ count, kinds = List.replicate count .newline

/-- This is the repeated part of a pipeline. -/
def Piped (kinds : List TokenKind) (command : Command) : Prop :=
  ∃ newlines rest, kinds = .pipe :: (newlines ++ rest) ∧ Newlines newlines ∧ CommandOf rest command

def PipelineOf (kinds : List TokenKind) (pipeline : Pipeline) : Prop :=
  ∃ first rest command commands, kinds = first ++ rest ∧ CommandOf first command ∧
    Repeated Piped rest commands ∧ pipeline.commands = command :: commands

def operator : AndOrOp → TokenKind
  | .and => .andIf
  | .or => .orIf

/-- This is the repeated part of a list. -/
def Conditional (kinds : List TokenKind) (andOr : AndOr) : Prop :=
  ∃ newlines rest, kinds = operator andOr.op :: (newlines ++ rest) ∧ Newlines newlines ∧
    PipelineOf rest andOr.pipeline

def AndOrListOf (kinds : List TokenKind) (list : AndOrList) : Prop :=
  ∃ first rest, kinds = first ++ rest ∧ PipelineOf first list.first ∧
    Repeated Conditional rest list.rest

/-- A separator is `;` or a newline, and newlines may follow it. -/
def Separator (kinds : List TokenKind) : Prop :=
  ∃ newlines, Newlines newlines ∧ (kinds = .semi :: newlines ∨ kinds = .newline :: newlines)

/-- This is the repeated part of a program. -/
def Separated (kinds : List TokenKind) (list : AndOrList) : Prop :=
  ∃ separator rest, kinds = separator ++ rest ∧ Separator separator ∧ AndOrListOf rest list

/-- A program is empty or a sequence of lists with separators between them. -/
def ProgramOf (kinds : List TokenKind) (program : Program) : Prop :=
  ∃ newlines rest, kinds = newlines ++ rest ∧ Newlines newlines ∧
    ((rest = [] ∧ program.lists = []) ∨
      ∃ first others last list lists, rest = first ++ (others ++ last) ∧ AndOrListOf first list ∧
        Repeated Separated others lists ∧ (last = [] ∨ Separator last) ∧
        program.lists = list :: lists)

/-- What a reading of the tokens meets. -/
inductive Item where
  | assignment (assignment : Assignment)
  | word (word : Word)
  | redirect (redirect : Redirect)
  | pipe
  | conditional (op : AndOrOp)
  deriving DecidableEq

/-- The items of the tokens in their order. The flag tells whether a command word of the same
command came before. -/
inductive InOrder : Bool → List TokenKind → List Item → Prop where
  | done (seen : Bool) : InOrder seen [] []
  | semi {seen : Bool} {rest : List TokenKind} {items : List Item}
      (later : InOrder false rest items) : InOrder seen (.semi :: rest) items
  | newline {seen : Bool} {rest : List TokenKind} {items : List Item}
      (later : InOrder false rest items) : InOrder seen (.newline :: rest) items
  | pipe {seen : Bool} {rest : List TokenKind} {items : List Item}
      (later : InOrder false rest items) : InOrder seen (.pipe :: rest) (.pipe :: items)
  | conditional {seen : Bool} {rest : List TokenKind} {items : List Item} (op : AndOrOp)
      (later : InOrder false rest items) :
      InOrder seen (operator op :: rest) (.conditional op :: items)
  | assignment {word : Word} {assignment : Assignment} {rest : List TokenKind} {items : List Item}
      (assigns : Assigns word assignment) (later : InOrder false rest items) :
      InOrder false (.word word :: rest) (.assignment assignment :: items)
  | command {word : Word} {rest : List TokenKind} {items : List Item}
      (unassigned : ∀ assignment, ¬ Assigns word assignment) (later : InOrder true rest items) :
      InOrder false (.word word :: rest) (.word word :: items)
  | argument {word : Word} {rest : List TokenKind} {items : List Item}
      (later : InOrder true rest items) : InOrder true (.word word :: rest) (.word word :: items)
  | target {seen : Bool} {redirect : RedirectToken} {word : Word} {rest : List TokenKind}
      {items : List Item} (undirected : redirect.targetFd = none)
      (later : InOrder seen rest items) :
      InOrder seen (.redirect redirect :: .word word :: rest)
        (.redirect ⟨redirect.fd, redirect.op, .word word⟩ :: items)
  | duplicate {seen : Bool} {redirect : RedirectToken} {fd : Nat} {rest : List TokenKind}
      {items : List Item} (directed : redirect.targetFd = some fd)
      (later : InOrder seen rest items) :
      InOrder seen (.redirect redirect :: rest)
        (.redirect ⟨redirect.fd, redirect.op, .fd fd⟩ :: items)

/-- The items without the redirects. -/
def operandItems (items : List Item) : List Item :=
  items.filter fun item => match item with
    | .redirect _ => false
    | _ => true

/-- The items without the assignments and words. -/
def redirectItems (items : List Item) : List Item :=
  items.filter fun item => match item with
    | .assignment _ => false
    | .word _ => false
    | _ => true

/-- The assignments of a command come first, and the words follow. -/
def SimpleCommand.operands (command : SimpleCommand) : List Item :=
  command.assignments.map .assignment ++ command.words.map .word

def SimpleCommand.redirections (command : SimpleCommand) : List Item :=
  command.redirects.map .redirect

/-- A traversal of the syntax tree visits the commands and the operators between them. -/
def Command.traverse (visit : SimpleCommand → List Item) : Command → List Item
  | .simple command => visit command

def Pipeline.traverse (visit : SimpleCommand → List Item) (pipeline : Pipeline) : List Item :=
  [Item.pipe].intercalate (pipeline.commands.map (Command.traverse visit))

def AndOrList.traverse (visit : SimpleCommand → List Item) (list : AndOrList) : List Item :=
  list.first.traverse visit ++
    list.rest.flatMap fun andOr => .conditional andOr.op :: andOr.pipeline.traverse visit

def Program.traverse (visit : SimpleCommand → List Item) (program : Program) : List Item :=
  program.lists.flatMap (AndOrList.traverse visit)

end TinySandbox.Shell
