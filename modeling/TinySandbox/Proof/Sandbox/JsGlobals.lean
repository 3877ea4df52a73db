/-
This file proves that the registry of host functions stays well-formed.
Entries are merged one by one, and still their order does not matter.
-/

import TinySandbox.Proof.Shell.Commands
import TinySandbox.Specification.GlobalPaths

namespace TinySandbox.Sandbox
open Library

section Names
variable {name outer inner : Text}

theorem isAssignmentName_iff : isAssignmentName name = true ↔ Shell.IsName name :=
  Shell.isAssignmentName_iff

theorem nested_irrefl (name : Text) : ¬ Nested name name := by
  intro nested
  obtain ⟨rest, same⟩ := nested
  have lengths := congrArg List.length same
  simp at lengths

theorem isInside_iff : isInside outer inner = true ↔ Nested outer inner := by
  unfold isInside Nested
  simp only [Bool.and_eq_true, decide_eq_true_eq]
  constructor
  · intro inside
    obtain ⟨⟨-, dot⟩, rest, rfl⟩ := inside
    rw [List.getElem?_append_right le_rfl, Nat.sub_self] at dot
    cases rest with
    | nil => cases dot
    | cons first rest =>
        obtain rfl := Option.some.inj dot
        exact ⟨rest, rfl⟩
  · intro nested
    obtain ⟨rest, rfl⟩ := nested
    constructor
    · constructor
      · simp
      · rw [List.getElem?_append_right le_rfl, Nat.sub_self]
        rfl
    · exact List.prefix_append _ _

theorem pathsConflict_iff :
    pathsConflict outer inner = true ↔
      outer = inner ∨ Nested outer inner ∨ Nested inner outer := by
  simp only [pathsConflict, Bool.or_eq_true, decide_eq_true_eq, isInside_iff, or_assoc]

theorem isJsGlobalName_iff :
    isJsGlobalName name = true ↔ ∀ segment ∈ name.splitOn '.', Shell.IsName segment := by
  unfold isJsGlobalName
  rw [Bool.and_eq_true, List.all_eq_true]
  simp only [isAssignmentName_iff, decide_eq_true_eq]
  constructor
  · exact And.right
  · intro named
    constructor
    · intro empty
      subst empty
      obtain ⟨first, rest, same, -⟩ := named [] (by simp)
      cases same
    · exact named

theorem IsName.undotted {segment : Text} (named : Shell.IsName segment) : '.' ∉ segment := by
  obtain ⟨first, rest, rfl, start, continues⟩ := named
  intro member
  cases List.mem_cons.mp member with
  | inl same =>
      rw [← same] at start
      exact absurd start (by unfold Shell.isNameFirst; decide)
  | inr later => exact absurd (continues '.' later) (by unfold Shell.isNameRest; decide)

/-- The check accepts the names of the specification. -/
theorem checkJsGlobalName_iff : checkJsGlobalName name = .ok () ↔ GlobalName name := by
  unfold checkJsGlobalName GlobalName
  obtain ⟨root, segments, parts⟩ := List.exists_cons_of_ne_nil (List.splitOn_ne_nil '.' name)
  constructor
  · intro checked
    split at checked
    · cases checked
    · next valid =>
        simp only [] at checked
        split at checked
        · cases checked
        · next free =>
            rw [parts] at free
            rw [Bool.not_eq_true, Bool.not_eq_false', isJsGlobalName_iff, parts] at valid
            refine ⟨root, segments, ?_, valid, free⟩
            rw [← parts]
            exact (List.intercalate_splitOn '.').symm
  · intro named
    obtain ⟨first, rest, rfl, valid, free⟩ := named
    have cut : (['.'].intercalate (first :: rest)).splitOn '.' = first :: rest :=
      List.splitOn_intercalate '.' (fun segment member => IsName.undotted (valid segment member))
        (List.cons_ne_nil _ _)
    have accepted : isJsGlobalName (['.'].intercalate (first :: rest)) = true := by
      rw [isJsGlobalName_iff, cut]
      exact valid
    rw [if_neg (by simp [accepted]), cut]
    exact if_neg free

end Names

section Merge
variable {γ : Type} {registry merged result : JsGlobalRegistry γ} {entries : List (Text × γ)}

theorem conflict_eq_none_iff (others : JsGlobalRegistry γ) (name : Text)
    (absent : others.get name = none) :
    ((others.entries.map Prod.fst).find? fun other => pathsConflict other name) = none ↔
      ∀ other, others.get other ≠ none → ¬ Nested name other ∧ ¬ Nested other name := by
  have keys : ∀ other, other ∈ others.entries.map Prod.fst ↔ others.get other ≠ none := by
    intro other
    rw [List.mem_map]
    constructor
    · intro stored
      obtain ⟨⟨key, value⟩, member, rfl⟩ := stored
      rw [(others.mem_iff_get key value).mp member]
      exact Option.some_ne_none value
    · intro present
      obtain ⟨value, found⟩ := Option.ne_none_iff_exists'.mp present
      exact ⟨(other, value), (others.mem_iff_get other value).mpr found, rfl⟩
  rw [List.find?_eq_none]
  constructor
  · intro free other present
    have apart := free other ((keys other).mpr present)
    rw [pathsConflict_iff, not_or, not_or] at apart
    exact ⟨apart.2.2, apart.2.1⟩
  · intro free other member
    have present := (keys other).mp member
    obtain ⟨left, right⟩ := free other present
    rw [pathsConflict_iff, not_or, not_or]
    refine ⟨?_, right, left⟩
    intro same
    rw [same] at present
    exact present absent

/-- The loop succeeds exactly on names that fit together and into what it has merged. -/
theorem mergeEntries_ok_iff (added : List Text) :
    (∃ result, mergeEntries merged added entries = .ok result) ↔
      Acceptable merged (entries.map Prod.fst) ∧ ∀ name ∈ entries.map Prod.fst, name ∉ added := by
  induction entries generalizing merged added with
  | nil =>
      constructor
      · intro _
        constructor
        · exact ⟨by simp, List.nodup_nil, by simp, by simp⟩
        · simp
      · intro _
        exact ⟨merged, rfl⟩
  | cons entry entries ih =>
      obtain ⟨name, global⟩ := entry
      have absent : (merged.erase name).get name = none := by simp
      have others : ∀ other, other ≠ name →
          ((merged.erase name).insert name global).get other = merged.get other := by
        intro other different
        simp [different]
      have here : ((merged.erase name).insert name global).get name ≠ none := by simp
      rw [mergeEntries]
      constructor
      · intro succeeded
        obtain ⟨result, succeeded⟩ := succeeded
        obtain ⟨_, valid, succeeded⟩ := Call.bind_eq_ok_iff.mp succeeded
        rw [Call.ite_error_eq_ok_iff] at succeeded
        obtain ⟨new, succeeded⟩ := succeeded
        simp only [] at succeeded
        cases conflict : (((merged.erase name).entries.map Prod.fst).find? fun other =>
            pathsConflict other name) with
        | some other =>
            rw [conflict] at succeeded
            cases succeeded
        | none =>
            rw [conflict] at succeeded
            have free := (conflict_eq_none_iff _ name absent).mp conflict
            obtain ⟨accepted, fresh⟩ := (ih (name :: added)).mp ⟨result, succeeded⟩
            have distinct : name ∉ entries.map Prod.fst := by
              intro member
              exact fresh name member List.mem_cons_self
            have beside : ∀ other, merged.get other ≠ none →
                ¬ Nested name other ∧ ¬ Nested other name := by
              intro other present
              by_cases same : other = name
              · rw [same]
                exact ⟨nested_irrefl name, nested_irrefl name⟩
              · exact free other (by simpa [same] using present)
            constructor
            · constructor
              case valid =>
                  intro other member
                  cases List.mem_cons.mp member with
                  | inl same =>
                      rw [same]
                      exact checkJsGlobalName_iff.mp valid
                  | inr later => exact accepted.valid other later
              case distinct => exact List.nodup_cons.mpr ⟨distinct, accepted.distinct⟩
              case apart =>
                  intro outer left inner right
                  cases List.mem_cons.mp left with
                  | inl same =>
                      rw [same]
                      cases List.mem_cons.mp right with
                      | inl same' =>
                          rw [same']
                          exact nested_irrefl name
                      | inr later => exact (accepted.free inner later name here).2
                  | inr later =>
                      cases List.mem_cons.mp right with
                      | inl same' =>
                          rw [same']
                          exact (accepted.free outer later name here).1
                      | inr later' => exact accepted.apart outer later inner later'
              case free =>
                  intro first member other present
                  cases List.mem_cons.mp member with
                  | inl same =>
                      rw [same]
                      exact beside other present
                  | inr later =>
                      by_cases same : other = name
                      · rw [same]
                        exact accepted.free first later name here
                      · apply accepted.free first later other
                        rwa [others other same]
            · intro first member
              cases List.mem_cons.mp member with
              | inl same =>
                  rw [same]
                  exact new
              | inr later =>
                  intro before
                  exact fresh first later (List.mem_cons_of_mem _ before)
      · intro fits
        obtain ⟨accepted, fresh⟩ := fits
        have distinct := List.nodup_cons.mp accepted.distinct
        have valid := checkJsGlobalName_iff.mpr (accepted.valid name List.mem_cons_self)
        have free : ∀ other, (merged.erase name).get other ≠ none →
            ¬ Nested name other ∧ ¬ Nested other name := by
          intro other present
          apply accepted.free name List.mem_cons_self other
          by_cases same : other = name
          · rw [same] at present
            exact absurd absent present
          · simpa [same] using present
        have new := fresh name List.mem_cons_self
        simp only [valid, bind, Except.bind, if_neg new,
          (conflict_eq_none_iff _ name absent).mpr free]
        apply (ih (name :: added)).mpr
        constructor
        · constructor
          case valid =>
              intro other member
              exact accepted.valid other (List.mem_cons_of_mem _ member)
          case distinct => exact distinct.2
          case apart =>
              intro outer left inner right
              exact accepted.apart outer (List.mem_cons_of_mem _ left) inner
                (List.mem_cons_of_mem _ right)
          case free =>
              intro first member other present
              by_cases same : other = name
              · rw [same]
                have later := List.mem_cons_of_mem name member
                exact ⟨accepted.apart first later name List.mem_cons_self,
                  accepted.apart name List.mem_cons_self first later⟩
              · rw [others other same] at present
                exact accepted.free first (List.mem_cons_of_mem _ member) other present
        · intro first member before
          cases List.mem_cons.mp before with
          | inl same =>
              rw [same] at member
              exact distinct.1 member
          | inr earlier => exact fresh first (List.mem_cons_of_mem _ member) earlier

/-- The entries win over what was registered under their names. -/
theorem mergeEntries_get {added : List Text} (ran : mergeEntries merged added entries = .ok result)
    (name : Text) (value : γ) :
    result.get name = some value ↔
      (name, value) ∈ entries ∨ (name ∉ entries.map Prod.fst ∧ merged.get name = some value) := by
  have accepted := (mergeEntries_ok_iff added).mp ⟨result, ran⟩
  induction entries generalizing merged added with
  | nil =>
      obtain rfl := Except.ok.inj ran
      simp
  | cons entry entries ih =>
      obtain ⟨first, global⟩ := entry
      rw [mergeEntries] at ran
      obtain ⟨_, -, ran⟩ := Call.bind_eq_ok_iff.mp ran
      rw [Call.ite_error_eq_ok_iff] at ran
      obtain ⟨-, ran⟩ := ran
      simp only [] at ran
      cases conflict : (((merged.erase first).entries.map Prod.fst).find? fun other =>
          pathsConflict other first) with
      | some other =>
          rw [conflict] at ran
          cases ran
      | none =>
          rw [conflict] at ran
          have distinct := List.nodup_cons.mp accepted.1.distinct
          refine (ih ran ((mergeEntries_ok_iff _).mp ⟨result, ran⟩)).trans ?_
          by_cases same : name = first
          · subst same
            have unlisted : ∀ other, (name, other) ∉ entries := by
              intro other member
              exact distinct.1 (List.mem_map.mpr ⟨(name, other), member, rfl⟩)
            simp [unlisted, distinct.1, eq_comm]
          · simp [same]

theorem mergeJsGlobals_ok_iff :
    (∃ result, mergeJsGlobals registry entries = .ok result) ↔
      Acceptable registry (entries.map Prod.fst) := by
  rw [mergeJsGlobals, mergeEntries_ok_iff]
  simp

theorem mergeJsGlobals_wellFormed (wellFormed : WellFormed registry)
    (ran : mergeJsGlobals registry entries = .ok result) : WellFormed result := by
  have accepted := mergeJsGlobals_ok_iff.mp ⟨result, ran⟩
  have present : ∀ name, result.get name ≠ none →
      name ∈ entries.map Prod.fst ∨ registry.get name ≠ none := by
    intro name stored
    obtain ⟨value, found⟩ := Option.ne_none_iff_exists'.mp stored
    cases (mergeEntries_get ran name value).mp found with
    | inl member => exact .inl (List.mem_map_of_mem member)
    | inr kept =>
        right
        rw [kept.2]
        exact Option.some_ne_none value
  constructor
  case valid =>
      intro name stored
      cases present name stored with
      | inl member => exact accepted.valid name member
      | inr kept => exact wellFormed.valid name kept
  case apart =>
      intro outer inner left right
      cases present outer left with
      | inl member =>
          cases present inner right with
          | inl other => exact accepted.apart outer member inner other
          | inr kept => exact (accepted.free outer member inner kept).1
      | inr kept =>
          cases present inner right with
          | inl member => exact (accepted.free inner member outer kept).2
          | inr other => exact wellFormed.apart outer inner kept other

/-- The order of the entries changes neither the verdict nor the registry. -/
theorem mergeJsGlobals_perm {permuted : List (Text × γ)} (same : entries.Perm permuted)
    (ran : mergeJsGlobals registry entries = .ok result) :
    mergeJsGlobals registry permuted = .ok result := by
  have accepted := mergeJsGlobals_ok_iff.mp ⟨result, ran⟩
  have names := same.map Prod.fst
  have fits : Acceptable registry (permuted.map Prod.fst) := by
    constructor
    case valid =>
        intro name member
        exact accepted.valid name (names.mem_iff.mpr member)
    case distinct => exact names.nodup_iff.mp accepted.distinct
    case apart =>
        intro outer left inner right
        exact accepted.apart outer (names.mem_iff.mpr left) inner (names.mem_iff.mpr right)
    case free =>
        intro name member
        exact accepted.free name (names.mem_iff.mpr member)
  obtain ⟨other, ran'⟩ := mergeJsGlobals_ok_iff.mpr fits
  rw [ran']
  apply congrArg Except.ok
  apply OrderedMap.ext
  intro name
  apply Option.ext
  intro value
  rw [mergeEntries_get ran' name value, mergeEntries_get ran name value, same.mem_iff,
    names.mem_iff]

end Merge

section Runs
variable {γ : Type} {registry : JsGlobalRegistry γ}

theorem wellFormed_empty : WellFormed (∅ : JsGlobalRegistry γ) where
  valid name stored := absurd (OrderedMap.get_empty name) stored
  apart outer _ stored := absurd (OrderedMap.get_empty outer) stored

/-- A rejected change keeps the registry, and an accepted one is a merge. -/
theorem mutateJsGlobals_cases
    (change : JsGlobalRegistry γ → Except JsGlobalError (JsGlobalRegistry γ)) :
    (∃ error, mutateJsGlobals change registry = (.error error, registry)) ∨
      ∃ next, change registry = .ok next ∧ mutateJsGlobals change registry = (.ok (), next) := by
  unfold mutateJsGlobals
  cases changed : change registry with
  | error error => exact .inl ⟨error, rfl⟩
  | ok next => exact .inr ⟨next, rfl, rfl⟩

theorem removeJsGlobal_wellFormed (wellFormed : WellFormed registry) (name : Text) :
    WellFormed (removeJsGlobal name registry).2 := by
  unfold removeJsGlobal
  cases registry.get name with
  | none => exact wellFormed
  | some global =>
      have kept : ∀ other, (registry.erase name).get other ≠ none → registry.get other ≠ none := by
        intro other stored
        rw [OrderedMap.get_erase] at stored
        split at stored
        · exact absurd rfl stored
        · exact stored
      constructor
      case valid =>
          intro other stored
          exact wellFormed.valid other (kept other stored)
      case apart =>
          intro outer inner left right
          exact wellFormed.apart outer inner (kept outer left) (kept inner right)

/-- A call that changes the registry by a merge keeps it well-formed. -/
theorem mutated_step {base : JsGlobalRegistry γ} {entries : List (Text × γ)}
    (wellFormed : WellFormed registry) (start : WellFormed base) :
    WellFormed (mutateJsGlobals (fun _ => mergeJsGlobals base entries) registry).2 ∧
      ((JsGlobalReply.mutated
          (mutateJsGlobals (fun _ => mergeJsGlobals base entries) registry).1).Rejects →
        (mutateJsGlobals (fun _ => mergeJsGlobals base entries) registry).2 = registry) := by
  obtain ⟨error, rejected⟩ | ⟨next, merged, accepted⟩ :=
    @mutateJsGlobals_cases _ registry fun _ => mergeJsGlobals base entries
  · rw [rejected]
    exact ⟨wellFormed, fun _ => rfl⟩
  · rw [accepted]
    exact ⟨mergeJsGlobals_wellFormed start merged, False.elim⟩

theorem call_step (wellFormed : WellFormed registry) (call : JsGlobalCall γ) :
    WellFormed (call.run registry).2 ∧
      ((call.run registry).1.Rejects → (call.run registry).2 = registry) := by
  cases call with
  | set name global => exact mutated_step wellFormed wellFormed
  | extend entries => exact mutated_step wellFormed wellFormed
  | replace entries => exact mutated_step wellFormed wellFormed_empty
  | remove name => exact ⟨removeJsGlobal_wellFormed wellFormed name, False.elim⟩

theorem runJsGlobalCalls_wellFormed (wellFormed : WellFormed registry)
    (calls : List (JsGlobalCall γ)) : WellFormed (runJsGlobalCalls registry calls) := by
  induction calls generalizing registry with
  | nil => exact wellFormed
  | cons call calls ih => exact ih (call_step wellFormed call).1

/-- Every run keeps the registry well-formed, every rejected call keeps the registry, and a merge
depends only on the set of its entries. -/
theorem registry_stays_wellFormed (entries : List (Text × γ))
    (built : buildJsGlobalRegistry entries = some registry) (calls : List (JsGlobalCall γ)) :
    WellFormed (runJsGlobalCalls registry calls) ∧
      (∀ call : JsGlobalCall γ, (call.run (runJsGlobalCalls registry calls)).1.Rejects →
        (call.run (runJsGlobalCalls registry calls)).2 = runJsGlobalCalls registry calls) ∧
      ∀ merged : List (Text × γ),
        ((∃ result, mergeJsGlobals (runJsGlobalCalls registry calls) merged = .ok result) ↔
          Acceptable (runJsGlobalCalls registry calls) (merged.map Prod.fst)) ∧
        ∀ permuted, merged.Perm permuted → ∀ result,
          mergeJsGlobals (runJsGlobalCalls registry calls) merged = .ok result ↔
            mergeJsGlobals (runJsGlobalCalls registry calls) permuted = .ok result := by
  have start : WellFormed registry := by
    unfold buildJsGlobalRegistry at built
    cases ran : mergeJsGlobals ∅ entries with
    | error error =>
        rw [ran] at built
        cases built
    | ok result =>
        rw [ran] at built
        obtain rfl := Option.some.inj built
        exact mergeJsGlobals_wellFormed wellFormed_empty ran
  have reached := runJsGlobalCalls_wellFormed start calls
  refine ⟨reached, fun call => (call_step reached call).2, fun merged => ⟨mergeJsGlobals_ok_iff, ?_⟩⟩
  intro permuted same result
  exact ⟨mergeJsGlobals_perm same, mergeJsGlobals_perm same.symm⟩

/-- A namespace may grow, and a name inside a function is rejected. -/
theorem registry_stays_wellFormed_tools :
    ∃ registry : JsGlobalRegistry Nat,
      buildJsGlobalRegistry [("tools.read".toList, 1)] = some registry ∧
        WellFormed (runJsGlobalCalls registry
          [.set "tools.write".toList 2, .set "tools.read.all".toList 3]) ∧
        Acceptable (runJsGlobalCalls registry
          [.set "tools.write".toList 2, .set "tools.read.all".toList 3]) ["fs".toList] := by
  have built : buildJsGlobalRegistry [("tools.read".toList, 1)] =
      some ((∅ : JsGlobalRegistry Nat).insert "tools.read".toList 1) := rfl
  obtain ⟨wellFormed, -, merges⟩ := registry_stays_wellFormed _ built
    [.set "tools.write".toList 2, .set "tools.read.all".toList 3]
  exact ⟨_, built, wellFormed, (merges [("fs".toList, 4)]).1.mp ⟨_, rfl⟩⟩

end Runs

end TinySandbox.Sandbox
