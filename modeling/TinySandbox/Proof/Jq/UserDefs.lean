/-
This file shows that the check for definitions visits every term of a `jq` filter.
-/

import Mathlib.Logic.Relation
import TinySandbox.Construction.Jq.Terms

namespace TinySandbox.Jq
open Library

/-- The term stands in the pattern. -/
inductive InPattern (term : Term) : Pattern → Prop where
  | element {pattern : Pattern} {patterns : List Pattern} (member : pattern ∈ patterns)
      (inside : InPattern term pattern) : InPattern term (.arr patterns)
  | key {pattern : Pattern} {entries : List (Term × Pattern)} (member : (term, pattern) ∈ entries) :
      InPattern term (.obj entries)
  | value {key : Term} {pattern : Pattern} {entries : List (Term × Pattern)}
      (member : (key, pattern) ∈ entries) (inside : InPattern term pattern) :
      InPattern term (.obj entries)

/-- The first term stands in the second, with no other term around it. -/
inductive Child : Term → Term → Prop where
  | interpolation {term : Term} {format : Option Text} {parts : List StrPart}
      (member : .term term ∈ parts) : Child term (.str format parts)
  | element {term : Term} : Child term (.arr (some term))
  | key {key : Term} {value : Option Term} {entries : List (Term × Option Term)}
      (member : (key, value) ∈ entries) : Child key (.obj entries)
  | value {key value : Term} {entries : List (Term × Option Term)}
      (member : (key, some value) ∈ entries) : Child value (.obj entries)
  | negated {term : Term} : Child term (.neg term)
  | left {left right : Term} {op : BinaryOp} : Child left (.binOp left op right)
  | right {left right : Term} {op : BinaryOp} : Child right (.binOp left op right)
  | destructured {term left right : Term} {pattern : Pattern} (inside : InPattern term pattern) :
      Child term (.binOp left (.pipe (some pattern)) right)
  | labelled {name : Text} {term : Term} : Child term (.label name term)
  | input {name : Text} {input : Term} {pattern : Pattern} {args : List Term} :
      Child input (.fold name input pattern args)
  | bound {name : Text} {term input : Term} {pattern : Pattern} {args : List Term}
      (inside : InPattern term pattern) : Child term (.fold name input pattern args)
  | folded {name : Text} {term input : Term} {pattern : Pattern} {args : List Term}
      (member : term ∈ args) : Child term (.fold name input pattern args)
  | tried {term : Term} {handler : Option Term} : Child term (.tryCatch term handler)
  | handler {term handler : Term} : Child handler (.tryCatch term (some handler))
  | condition {condition body : Term} {branches : List (Term × Term)} {fallback : Option Term}
      (member : (condition, body) ∈ branches) : Child condition (.ifThenElse branches fallback)
  | branch {condition body : Term} {branches : List (Term × Term)} {fallback : Option Term}
      (member : (condition, body) ∈ branches) : Child body (.ifThenElse branches fallback)
  | fallback {term : Term} {branches : List (Term × Term)} :
      Child term (.ifThenElse branches (some term))
  | body {name : Text} {args : List Text} {body rest : Term} {defs : List Def}
      (member : .«def» name args body ∈ defs) : Child body (.«def» defs rest)
  | rest {rest : Term} {defs : List Def} : Child rest (.«def» defs rest)
  | arg {name : Text} {term : Term} {args : List Term} (member : term ∈ args) :
      Child term (.call name args)
  | head {head : Term} {path : List (Part × Opt)} : Child head (.path head path)
  | index {term head : Term} {opt : Opt} {path : List (Part × Opt)}
      (member : (.index term, opt) ∈ path) : Child term (.path head path)
  | start {term head : Term} {stop : Option Term} {opt : Opt} {path : List (Part × Opt)}
      (member : (.range (some term) stop, opt) ∈ path) : Child term (.path head path)
  | stop {term head : Term} {start : Option Term} {opt : Opt} {path : List (Part × Opt)}
      (member : (.range start (some term), opt) ∈ path) : Child term (.path head path)

/-- The term stands anywhere in the other, which may be the term itself. -/
def Occurs : Term → Term → Prop := Relation.ReflTransGen Child

def Term.IsDef : Term → Prop
  | .«def» _ _ => True
  | _ => False

section Lists

/-- A check that visits a list item by item holds when it holds of one item. -/
theorem any_iff {α : Type} {check : List α → Bool} {one : α → Bool} (nil : check [] = false)
    (cons : ∀ item rest, check (item :: rest) = (one item || check rest)) {items : List α} :
    check items = true ↔ ∃ item ∈ items, one item = true := by
  induction items with
  | nil => simp [nil]
  | cons item rest ih => simp [cons, ih]

theorem optionContainsUserDef_iff {term : Option Term} :
    optionContainsUserDef term = true ↔ ∃ child, term = some child ∧ termContainsUserDef child = true := by
  cases term with
  | none => simp [optionContainsUserDef]
  | some child => simp [optionContainsUserDef]

theorem termsContainUserDef_iff {terms : List Term} :
    termsContainUserDef terms = true ↔ ∃ term ∈ terms, termContainsUserDef term = true :=
  any_iff rfl fun _ _ => rfl

theorem patternsContainUserDef_iff {patterns : List Pattern} :
    patternsContainUserDef patterns = true ↔
      ∃ pattern ∈ patterns, patternContainsUserDef pattern = true :=
  any_iff rfl fun _ _ => rfl

theorem entriesContainUserDef_iff {entries : List (Term × Option Term)} :
    entriesContainUserDef entries = true ↔ ∃ entry ∈ entries,
      (termContainsUserDef entry.1 || optionContainsUserDef entry.2) = true :=
  any_iff rfl fun _ _ => rfl

theorem branchesContainUserDef_iff {branches : List (Term × Term)} :
    branchesContainUserDef branches = true ↔ ∃ branch ∈ branches,
      (termContainsUserDef branch.1 || termContainsUserDef branch.2) = true :=
  any_iff rfl fun _ _ => rfl

theorem patternEntriesContainUserDef_iff {entries : List (Term × Pattern)} :
    patternEntriesContainUserDef entries = true ↔ ∃ entry ∈ entries,
      (termContainsUserDef entry.1 || patternContainsUserDef entry.2) = true :=
  any_iff rfl fun _ _ => rfl

theorem partsContainUserDef_iff {parts : List StrPart} :
    partsContainUserDef parts = true ↔
      ∃ term, .term term ∈ parts ∧ termContainsUserDef term = true := by
  have visits : partsContainUserDef parts = true ↔
      ∃ part ∈ parts, partsContainUserDef [part] = true := by
    refine any_iff rfl fun part rest => ?_
    cases part <;> simp [partsContainUserDef]
  rw [visits]
  constructor
  · rintro ⟨part, member, found⟩
    cases part with
    | term term => exact ⟨term, member, by simpa [partsContainUserDef] using found⟩
    | str text => cases found
    | char symbol => cases found
  · rintro ⟨term, member, found⟩
    exact ⟨_, member, by simpa [partsContainUserDef] using found⟩

/-- The term is an index or a bound of the part. -/
inductive InPart (term : Term) : Part → Prop where
  | index : InPart term (.index term)
  | start {stop : Option Term} : InPart term (.range (some term) stop)
  | stop {start : Option Term} : InPart term (.range start (some term))

theorem pathContainsUserDef_single {part : Part} {opt : Opt} :
    pathContainsUserDef [(part, opt)] = true ↔
      ∃ term, InPart term part ∧ termContainsUserDef term = true := by
  cases part with
  | index term =>
      simp only [pathContainsUserDef, Bool.or_false]
      refine ⟨fun found => ⟨term, .index, found⟩, ?_⟩
      rintro ⟨term, ⟨⟩, found⟩
      exact found
  | range start stop =>
      simp only [pathContainsUserDef, Bool.or_false, Bool.or_eq_true, optionContainsUserDef_iff]
      constructor
      · rintro (⟨term, rfl, found⟩ | ⟨term, rfl, found⟩)
        · exact ⟨term, .start, found⟩
        · exact ⟨term, .stop, found⟩
      · rintro ⟨term, inside, found⟩
        cases inside with
        | start => exact .inl ⟨term, rfl, found⟩
        | stop => exact .inr ⟨term, rfl, found⟩

theorem pathContainsUserDef_iff {path : List (Part × Opt)} :
    pathContainsUserDef path = true ↔ ∃ step ∈ path, pathContainsUserDef [step] = true := by
  refine any_iff rfl fun step rest => ?_
  obtain ⟨part, opt⟩ := step
  cases part <;> simp [pathContainsUserDef]

end Lists

/-- The check of a pattern finds the definitions in the terms of the pattern. -/
theorem patternContainsUserDef_iff (pattern : Pattern) :
    patternContainsUserDef pattern = true ↔
      ∃ term, InPattern term pattern ∧ termContainsUserDef term = true := by
  match pattern with
  | .var name =>
      refine iff_of_false Bool.false_ne_true ?_
      rintro ⟨term, ⟨⟩, -⟩
  | .arr patterns =>
      have below (inner : Pattern) (member : inner ∈ patterns) := patternContainsUserDef_iff inner
      rw [patternContainsUserDef, patternsContainUserDef_iff]
      constructor
      · rintro ⟨inner, member, found⟩
        obtain ⟨term, inside, contains⟩ := (below inner member).mp found
        exact ⟨term, .element member inside, contains⟩
      · rintro ⟨term, ⟨member, inside⟩, contains⟩
        exact ⟨_, member, (below _ member).mpr ⟨term, inside, contains⟩⟩
  | .obj entries =>
      have below (key : Term) (inner : Pattern) (member : (key, inner) ∈ entries) :=
        patternContainsUserDef_iff inner
      simp only [patternContainsUserDef, patternEntriesContainUserDef_iff, Bool.or_eq_true]
      constructor
      · rintro ⟨⟨key, inner⟩, member, found | found⟩
        · exact ⟨key, .key member, found⟩
        · obtain ⟨term, inside, contains⟩ := (below key inner member).mp found
          exact ⟨term, .value member inside, contains⟩
      · rintro ⟨term, inside, contains⟩
        cases inside with
        | key member => exact ⟨_, member, .inl contains⟩
        | value member inside =>
            exact ⟨_, member, .inr ((below _ _ member).mpr ⟨term, inside, contains⟩)⟩
termination_by sizeOf pattern
decreasing_by
  · have smaller := List.sizeOf_lt_of_mem member
    simp only [Pattern.arr.sizeOf_spec]
    omega
  · have smaller := List.sizeOf_lt_of_mem member
    simp only [Pattern.obj.sizeOf_spec, Prod.mk.sizeOf_spec] at smaller ⊢
    omega

theorem binaryOpContainsUserDef_iff {op : BinaryOp} :
    binaryOpContainsUserDef op = true ↔ ∃ pattern, op = .pipe (some pattern) ∧
      ∃ term, InPattern term pattern ∧ termContainsUserDef term = true := by
  constructor
  · intro found
    cases op with
    | pipe pattern =>
        cases pattern with
        | none => cases found
        | some pattern => exact ⟨pattern, rfl, (patternContainsUserDef_iff pattern).mp found⟩
    | _ => cases found
  · rintro ⟨pattern, rfl, found⟩
    exact (patternContainsUserDef_iff pattern).mpr found

theorem InPattern.smaller {term : Term} {pattern : Pattern} (inside : InPattern term pattern) :
    sizeOf term < sizeOf pattern := by
  induction inside with
  | element member inside ih =>
      have := List.sizeOf_lt_of_mem member
      simp only [Pattern.arr.sizeOf_spec]
      omega
  | key member =>
      have := List.sizeOf_lt_of_mem member
      simp only [Pattern.obj.sizeOf_spec, Prod.mk.sizeOf_spec] at this ⊢
      omega
  | value member inside ih =>
      have := List.sizeOf_lt_of_mem member
      simp only [Pattern.obj.sizeOf_spec, Prod.mk.sizeOf_spec] at this ⊢
      omega

theorem Child.smaller {child term : Term} (below : Child child term) : sizeOf child < sizeOf term := by
  have listed {α : Type} [SizeOf α] {item : α} {items : List α} (member : item ∈ items) :=
    List.sizeOf_lt_of_mem member
  cases below with
  | destructured inside | bound inside =>
      have := inside.smaller
      simp only [Term.binOp.sizeOf_spec, Term.fold.sizeOf_spec, BinaryOp.pipe.sizeOf_spec,
        Option.some.sizeOf_spec]
      omega
  | interpolation member | key member | value member | folded member | condition member
  | branch member | body member | arg member | index member | start member | stop member =>
      have := listed member
      simp at this ⊢
      omega
  | _ =>
      simp only [Term.arr.sizeOf_spec, Term.neg.sizeOf_spec, Term.binOp.sizeOf_spec,
        Term.label.sizeOf_spec, Term.fold.sizeOf_spec, Term.tryCatch.sizeOf_spec,
        Term.ifThenElse.sizeOf_spec, Term.def.sizeOf_spec, Term.path.sizeOf_spec,
        Option.some.sizeOf_spec]
      omega

/-- The check finds a term that is a definition or has a child in which the check finds one. -/
theorem exists_child_of_contains {term : Term} (found : termContainsUserDef term = true) :
    term.IsDef ∨ ∃ child, Child child term ∧ termContainsUserDef child = true := by
  cases term with
  | «def» defs rest => exact .inl trivial
  | id => cases found
  | recurse => cases found
  | num text => cases found
  | «break» name => cases found
  | var name => cases found
  | str format parts =>
      obtain ⟨child, member, inner⟩ := partsContainUserDef_iff.mp found
      exact .inr ⟨child, .interpolation member, inner⟩
  | arr term =>
      obtain ⟨child, rfl, inner⟩ := optionContainsUserDef_iff.mp found
      exact .inr ⟨child, .element, inner⟩
  | obj entries =>
      obtain ⟨⟨key, value⟩, member, inner⟩ := entriesContainUserDef_iff.mp found
      rcases Bool.or_eq_true_iff.mp inner with inner | inner
      · exact .inr ⟨key, .key member, inner⟩
      · obtain ⟨child, same, inner⟩ := optionContainsUserDef_iff.mp inner
        obtain rfl : value = some child := same
        exact .inr ⟨child, .value member, inner⟩
  | neg term => exact .inr ⟨term, .negated, found⟩
  | label name term => exact .inr ⟨term, .labelled, found⟩
  | binOp left op right =>
      simp only [termContainsUserDef, Bool.or_eq_true, binaryOpContainsUserDef_iff] at found
      rcases found with (inner | ⟨pattern, rfl, child, inside, inner⟩) | inner
      · exact .inr ⟨left, .left, inner⟩
      · exact .inr ⟨child, .destructured inside, inner⟩
      · exact .inr ⟨right, .right, inner⟩
  | fold name input pattern args =>
      simp only [termContainsUserDef, Bool.or_eq_true, patternContainsUserDef_iff,
        termsContainUserDef_iff] at found
      rcases found with (inner | ⟨child, inside, inner⟩) | ⟨child, member, inner⟩
      · exact .inr ⟨input, .input, inner⟩
      · exact .inr ⟨child, .bound inside, inner⟩
      · exact .inr ⟨child, .folded member, inner⟩
  | tryCatch term handler =>
      cases handler with
      | none => exact .inr ⟨term, .tried, found⟩
      | some handler =>
          rcases Bool.or_eq_true_iff.mp found with inner | inner
          · exact .inr ⟨term, .tried, inner⟩
          · exact .inr ⟨handler, .handler, inner⟩
  | ifThenElse branches fallback =>
      simp only [termContainsUserDef, Bool.or_eq_true, branchesContainUserDef_iff,
        optionContainsUserDef_iff] at found
      rcases found with ⟨⟨condition, body⟩, member, inner | inner⟩ | ⟨child, rfl, inner⟩
      · exact .inr ⟨condition, .condition member, inner⟩
      · exact .inr ⟨body, .branch member, inner⟩
      · exact .inr ⟨child, .fallback, inner⟩
  | call name args =>
      obtain ⟨child, member, inner⟩ := termsContainUserDef_iff.mp found
      exact .inr ⟨child, .arg member, inner⟩
  | path head path =>
      rcases Bool.or_eq_true_iff.mp found with inner | inner
      · exact .inr ⟨head, .head, inner⟩
      · obtain ⟨⟨part, opt⟩, member, inner⟩ := pathContainsUserDef_iff.mp inner
        obtain ⟨child, inside, below⟩ := pathContainsUserDef_single.mp inner
        cases inside with
        | index => exact .inr ⟨child, .index member, below⟩
        | start => exact .inr ⟨child, .start member, below⟩
        | stop => exact .inr ⟨child, .stop member, below⟩

/-- What the check finds in a child, it finds in the term. -/
theorem Child.contains {child term : Term} (below : Child child term)
    (inner : termContainsUserDef child = true) : termContainsUserDef term = true := by
  have inPath {head : Term} {path : List (Part × Opt)} {part : Part} {opt : Opt}
      (member : (part, opt) ∈ path) (inside : InPart child part) :
      termContainsUserDef (.path head path) = true :=
    Bool.or_eq_true_iff.mpr (.inr (pathContainsUserDef_iff.mpr
      ⟨_, member, pathContainsUserDef_single.mpr ⟨child, inside, inner⟩⟩))
  cases below with
  | interpolation member => exact partsContainUserDef_iff.mpr ⟨child, member, inner⟩
  | element => exact inner
  | key member =>
      exact entriesContainUserDef_iff.mpr ⟨_, member, Bool.or_eq_true_iff.mpr (.inl inner)⟩
  | value member =>
      exact entriesContainUserDef_iff.mpr ⟨_, member, Bool.or_eq_true_iff.mpr (.inr inner)⟩
  | negated => exact inner
  | labelled => exact inner
  | left => simp only [termContainsUserDef, inner, Bool.true_or]
  | right => simp only [termContainsUserDef, inner, Bool.or_true]
  | destructured inside =>
      have found := (patternContainsUserDef_iff _).mpr ⟨child, inside, inner⟩
      simp only [termContainsUserDef, binaryOpContainsUserDef, found, Bool.or_true, Bool.true_or]
  | input => simp only [termContainsUserDef, inner, Bool.true_or]
  | bound inside =>
      have found := (patternContainsUserDef_iff _).mpr ⟨child, inside, inner⟩
      simp only [termContainsUserDef, found, Bool.or_true, Bool.true_or]
  | folded member =>
      have found := termsContainUserDef_iff.mpr ⟨child, member, inner⟩
      simp only [termContainsUserDef, found, Bool.or_true]
  | @tried _ handler =>
      cases handler with
      | none => exact inner
      | some handler => simp only [termContainsUserDef, inner, Bool.true_or]
  | handler => simp only [termContainsUserDef, inner, Bool.or_true]
  | condition member =>
      have found := branchesContainUserDef_iff.mpr ⟨_, member, Bool.or_eq_true_iff.mpr (.inl inner)⟩
      simp only [termContainsUserDef, found, Bool.true_or]
  | branch member =>
      have found := branchesContainUserDef_iff.mpr ⟨_, member, Bool.or_eq_true_iff.mpr (.inr inner)⟩
      simp only [termContainsUserDef, found, Bool.true_or]
  | fallback => simp only [termContainsUserDef, optionContainsUserDef, inner, Bool.or_true]
  | body member => rfl
  | rest => rfl
  | arg member => exact termsContainUserDef_iff.mpr ⟨child, member, inner⟩
  | head => simp only [termContainsUserDef, inner, Bool.true_or]
  | index member => exact inPath member .index
  | start member => exact inPath member .start
  | stop member => exact inPath member .stop

theorem exists_definition {term : Term} (found : termContainsUserDef term = true) :
    ∃ defs rest, Occurs (.«def» defs rest) term := by
  induction size : sizeOf term using Nat.strong_induction_on generalizing term with
  | _ bound ih =>
      rcases exists_child_of_contains found with here | ⟨child, below, inner⟩
      · cases term with
        | «def» defs rest => exact ⟨defs, rest, .refl⟩
        | _ => exact here.elim
      · obtain ⟨defs, rest, occurs⟩ := ih _ (size ▸ below.smaller) inner rfl
        exact ⟨defs, rest, occurs.tail below⟩

theorem Occurs.contains {inner term : Term} (occurs : Occurs inner term)
    (found : termContainsUserDef inner = true) : termContainsUserDef term = true := by
  induction occurs with
  | refl => exact found
  | tail occurs below ih => exact below.contains ih

/-- The check holds exactly of the filters with a definition anywhere in them. -/
theorem termContainsUserDef_iff (term : Term) :
    termContainsUserDef term = true ↔ ∃ defs rest, Occurs (.«def» defs rest) term := by
  constructor
  · exact exists_definition
  · rintro ⟨defs, rest, occurs⟩
    exact occurs.contains rfl

/-- An accepted filter that parses has no definition anywhere. -/
theorem no_definition_of_accepted {parse : Bytes → Option Term} {filter : Bytes} {term : Term}
    (accepted : validateFilterPolicy parse filter = .ok ()) (parsed : parse filter = some term)
    (defs : List Def) (rest : Term) : ¬ Occurs (.«def» defs rest) term := by
  intro occurs
  obtain ⟨⟨⟩, -, passed⟩ := Call.bind_eq_ok_iff.mp accepted
  rw [parsed] at passed
  simp only [occurs.contains rfl, if_true] at passed
  cases passed

end TinySandbox.Jq
