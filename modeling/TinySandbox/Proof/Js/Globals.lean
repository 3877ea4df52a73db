/-
This file shows that the installed host functions stand at their paths.
-/

import TinySandbox.Construction.Js.Codecs

namespace TinySandbox.Js.Guest
open Library

section Places
variable {γ : Type} (globals : CodeUnits → Option γ)

def Installation.Known (state : Installation γ) (id : Nat) : Prop := id = 0 ∨ id ∈ state.created

/-- Every node has a place, and its fields are the functions and the namespaces that continue it. -/
structure Installed (state : Installation γ) (place : Nat → List CodeUnits)
    (spaces : List (List CodeUnits)) (leaves : List CodeUnits) : Prop where
  root : place 0 = []
  fresh : ∀ id, state.Known id → id < state.heap.next
  above : 0 ∉ state.created
  apart : ∀ id other, state.Known id → state.Known other → place id = place other → id = other
  placed : ∀ id ∈ state.created, place id ∈ spaces
  unborn : ∀ id name, state.heap.next ≤ id → state.heap.fields id name = none
  nested : ∀ front name, front ≠ [] → front ++ [name] ∈ spaces → front ∈ spaces
  closed : ∀ path ∈ leaves, ∀ front name, front ≠ [] → pathParts path = front ++ [name] →
    front ∈ spaces
  leaf : ∀ id name path, state.Known id → path ∈ leaves → pathParts path = place id ++ [name] →
    state.heap.fields id name = some (.host path)
  space : ∀ id name, state.Known id → place id ++ [name] ∈ spaces →
    ∃ child ∈ state.created, state.heap.fields id name = some (.object child) ∧
      place child = place id ++ [name]
  other : ∀ id name, state.Known id → place id ++ [name] ∉ spaces →
    (∀ path ∈ leaves, pathParts path ≠ place id ++ [name]) →
    state.heap.fields id name = if id = 0 then (globals name).map .existing else none

variable {globals} {state : Installation γ} {place : Nat → List CodeUnits}
  {spaces : List (List CodeUnits)} {leaves : List CodeUnits}

theorem installed_new : Installed globals { heap := Heap.new globals } (fun _ => []) [] [] where
  root := rfl
  fresh id known := by
    rcases known with rfl | inside
    · exact Nat.zero_lt_one
    · cases inside
  above := List.not_mem_nil
  apart id other left right _ := by
    rcases left with rfl | inside
    · rcases right with rfl | inside
      · rfl
      · cases inside
    · cases inside
  placed id inside := by cases inside
  unborn id name later := if_neg (Nat.ne_of_gt later)
  nested front name _ inside := by cases inside
  closed path inside := by cases inside
  leaf id name path _ inside := by cases inside
  space id name _ inside := by cases inside
  other id name _ _ _ := rfl

theorem Installation.fields_set (heap : Heap γ) (id : Nat) (name : CodeUnits) (value : Value γ)
    (other : Nat) (field : CodeUnits) :
    (heap.set id name value).fields other field =
      if other = id ∧ field = name then some value else heap.fields other field := by
  change Function.update heap.fields id (Function.update (heap.fields id) name (some value)) other
    field = _
  by_cases same : other = id
  · subst same
    rw [Function.update_self]
    by_cases here : field = name
    · subst here
      rw [Function.update_self, if_pos ⟨rfl, rfl⟩]
    · rw [Function.update_of_ne here, if_neg fun both => here both.2]
  · rw [Function.update_of_ne same, if_neg fun both => same both.1]

/-- A function is installed at a free place. -/
theorem Installed.setLeaf (installed : Installed globals state place spaces leaves) {node : Nat}
    {name path : CodeUnits} (known : state.Known node)
      (here : pathParts path = place node ++ [name])
    (unspaced : pathParts path ∉ spaces)
      (unused : ∀ other ∈ leaves, pathParts other ≠ pathParts path) :
    Installed globals { state with heap := state.heap.set node name (.host path) } place spaces
      (path :: leaves) where
  root := installed.root
  fresh := installed.fresh
  above := installed.above
  apart := installed.apart
  placed := installed.placed
  unborn id field later := by
    rw [Installation.fields_set, if_neg]
    · exact installed.unborn id field later
    · rintro ⟨rfl, -⟩
      exact Nat.not_lt.mpr later (installed.fresh id known)
  nested := installed.nested
  closed other inside front field filled same := by
    rcases List.mem_cons.mp inside with rfl | inside
    · have both := (List.append_inj' (here.symm.trans same) rfl).1
      rcases known with rfl | made
      · rw [installed.root] at both
        exact absurd both.symm filled
      · rw [← both]
        exact installed.placed node made
    · exact installed.closed other inside front field filled same
  leaf id field other known' inside same := by
    rw [Installation.fields_set]
    rcases List.mem_cons.mp inside with rfl | inside
    · have both := List.append_inj' (here.symm.trans same) rfl
      have equal := installed.apart node id known known' both.1
      rw [if_pos ⟨equal.symm, (List.cons.inj both.2).1.symm⟩]
    · rw [if_neg]
      · exact installed.leaf id field other known' inside same
      · rintro ⟨rfl, rfl⟩
        exact unused other inside (same.trans here.symm)
  space id field known' inside := by
    obtain ⟨child, made, value, placed⟩ := installed.space id field known' inside
    refine ⟨child, made, ?_, placed⟩
    rw [Installation.fields_set, if_neg]
    · exact value
    · rintro ⟨rfl, rfl⟩
      exact unspaced (here ▸ inside)
  other id field known' absent free := by
    rw [Installation.fields_set, if_neg]
    · exact installed.other id field known' absent fun other inside =>
        free other (List.mem_cons_of_mem _ inside)
    · rintro ⟨rfl, rfl⟩
      exact free path List.mem_cons_self here

/-- A namespace is made at a free place. -/
theorem Installed.create (installed : Installed globals state place spaces leaves) {node : Nat}
    {name : CodeUnits} (known : state.Known node) (unspaced : place node ++ [name] ∉ spaces)
    (unused : ∀ path ∈ leaves, pathParts path ≠ place node ++ [name]) :
    Installed globals (state.create node name)
      (Function.update place state.heap.next (place node ++ [name]))
      ((place node ++ [name]) :: spaces) leaves := by
  have new {id : Nat} (known : state.Known id) : id ≠ state.heap.next :=
    Nat.ne_of_lt (installed.fresh id known)
  have old {id : Nat} (known' : state.Known id) :
      Function.update place state.heap.next (place node ++ [name]) id = place id :=
    Function.update_of_ne (new known') _ _
  have split {id : Nat} (known' : (state.create node name).Known id) :
      id = state.heap.next ∨ state.Known id := by
    rcases known' with rfl | inside
    · exact .inr (.inl rfl)
    · rcases List.mem_cons.mp inside with same | inside
      · exact .inl same
      · exact .inr (.inr inside)
  have fields (id : Nat) (field : CodeUnits) :
      (state.create node name).heap.fields id field =
        if id = node ∧ field = name then some (.object state.heap.next)
        else state.heap.fields id field := Installation.fields_set _ _ _ _ _ _
  have unplaced {id : Nat} (known' : state.Known id) : place id ≠ place node ++ [name] := by
    intro same
    rcases known' with rfl | made
    · rw [installed.root] at same
      exact absurd same.symm (List.concat_ne_nil _ _)
    · exact unspaced (same ▸ installed.placed id made)
  have inner (field : CodeUnits) : place node ++ [name] ++ [field] ∉ spaces := fun inside =>
    unspaced (installed.nested _ field (List.concat_ne_nil _ _) inside)
  constructor
  · rw [old (.inl rfl)]
    exact installed.root
  · intro id known'
    change id < state.heap.next + 1
    rcases split known' with rfl | known'
    · exact Nat.lt_succ_self _
    · exact Nat.lt_succ_of_lt (installed.fresh id known')
  · intro inside
    rcases List.mem_cons.mp inside with same | inside
    · exact new (.inl rfl) same
    · exact installed.above inside
  · intro id other left right same
    rcases split left with rfl | left
    · rcases split right with rfl | right
      · rfl
      · rw [Function.update_self, old right] at same
        exact absurd same.symm (unplaced right)
    · rcases split right with rfl | right
      · rw [Function.update_self, old left] at same
        exact absurd same (unplaced left)
      · rw [old left, old right] at same
        exact installed.apart id other left right same
  · intro id inside
    rcases List.mem_cons.mp inside with rfl | inside
    · rw [Function.update_self]
      exact List.mem_cons_self
    · rw [old (.inr inside)]
      exact List.mem_cons_of_mem _ (installed.placed id inside)
  · intro id field later
    change state.heap.next + 1 ≤ id at later
    rw [fields, if_neg]
    · exact installed.unborn id field (by omega)
    · rintro ⟨rfl, -⟩
      have early := installed.fresh id known
      omega
  · intro front field filled inside
    rcases List.mem_cons.mp inside with same | inside
    · rw [(List.append_inj' same rfl).1] at filled ⊢
      rcases known with rfl | made
      · exact absurd installed.root filled
      · exact List.mem_cons_of_mem _ (installed.placed node made)
    · exact List.mem_cons_of_mem _ (installed.nested front field filled inside)
  · intro path inside front field filled same
    exact List.mem_cons_of_mem _ (installed.closed path inside front field filled same)
  · intro id field path known' inside same
    rcases split known' with rfl | known'
    · rw [Function.update_self] at same
      exact absurd (installed.closed path inside _ field (List.concat_ne_nil _ _) same) unspaced
    · rw [old known'] at same
      rw [fields, if_neg]
      · exact installed.leaf id field path known' inside same
      · rintro ⟨rfl, rfl⟩
        exact unused path inside same
  · intro id field known' inside
    rcases split known' with rfl | known'
    · rw [Function.update_self] at inside
      rcases List.mem_cons.mp inside with same | inside
      · have longer := congrArg List.length same
        rw [List.length_append, List.length_singleton] at longer
        omega
      · exact absurd inside (inner field)
    · rw [old known'] at inside ⊢
      rcases List.mem_cons.mp inside with same | stored
      · have both := List.append_inj' same rfl
        have equal := installed.apart id node known' known both.1
        refine ⟨state.heap.next, List.mem_cons_self, ?_, ?_⟩
        · rw [fields, if_pos ⟨equal, (List.cons.inj both.2).1⟩]
        · rw [Function.update_self, same]
      · obtain ⟨child, made, value, placed⟩ := installed.space id field known' stored
        refine ⟨child, List.mem_cons_of_mem _ made, ?_, ?_⟩
        · rw [fields, if_neg]
          · exact value
          · rintro ⟨rfl, rfl⟩
            exact unspaced stored
        · rw [old (.inr made)]
          exact placed
  · intro id field known' absent free
    rcases split known' with rfl | known'
    · rw [fields, if_neg fun both => new known both.1.symm, if_neg (new (.inl rfl)).symm]
      exact installed.unborn _ field le_rfl
    · rw [old known'] at absent free
      rw [fields, if_neg]
      · exact installed.other id field known' (fun inside => absent (List.mem_cons_of_mem _ inside))
          free
      · rintro ⟨rfl, rfl⟩
        exact absent List.mem_cons_self

/-- The parts of a path can be entered when no function and no value of the runtime is in the
way. -/
theorem enterSpaces_ok (path : CodeUnits) {taken parts : List CodeUnits} {node : Nat}
    (installed : Installed globals state place spaces leaves) (known : state.Known node)
    (here : place node = taken)
    (unused : ∀ front, front <+: taken ++ parts → ∀ other ∈ leaves, pathParts other ≠ front)
    (free : ∀ root rest, taken ++ parts = root :: rest → globals root = none) :
    ∃ last state' place' spaces', enterSpaces path taken node parts state = .ok (last, state') ∧
      Installed globals state' place' spaces' leaves ∧ state'.Known last ∧
      place' last = taken ++ parts ∧
      ∀ space ∈ spaces', space ∈ spaces ∨ space <+: taken ++ parts := by
  induction parts generalizing taken node state place spaces with
  | nil =>
      refine ⟨node, state, place, spaces, rfl, installed, known, ?_, fun _ => .inl⟩
      rw [here, List.append_nil]
  | cons part parts ih =>
      have whole : taken ++ part :: parts = taken ++ [part] ++ parts := List.append_cons _ _ _
      have front : taken ++ [part] <+: taken ++ part :: parts := ⟨parts, whole.symm⟩
      rw [enterSpaces]
      by_cases spaced : taken ++ [part] ∈ spaces
      · obtain ⟨child, made, value, placed⟩ := installed.space node part known (here ▸ spaced)
        rw [value]
        dsimp only
        rw [if_pos (List.contains_iff_mem.mpr made), whole]
        exact ih installed (.inr made) (by rw [placed, here]) (whole ▸ unused) (whole ▸ free)
      · have absent : ∀ other ∈ leaves, pathParts other ≠ place node ++ [part] := by
          rw [here]
          exact unused _ front
        have missing : state.heap.fields node part = none := by
          rw [installed.other node part known (here ▸ spaced) absent]
          split_ifs with root
          · subst root
            rw [installed.root] at here
            rw [← here] at free
            rw [free part parts rfl]
            rfl
          · rfl
        rw [missing]
        dsimp only
        have grown := installed.create known (here ▸ spaced) absent
        obtain ⟨last, state', place', spaces', entered, installed', known', place, sources⟩ :=
          ih grown (.inr List.mem_cons_self)
            (by rw [Function.update_self, here]) (whole ▸ unused) (whole ▸ free)
        rw [whole]
        refine ⟨last, state', place', spaces', entered, installed', known', place, ?_⟩
        intro space inside
        rcases sources space inside with old | prefixed
        · rcases List.mem_cons.mp old with rfl | old
          · exact .inr (by rw [here]; exact List.prefix_append _ _)
          · exact .inl old
        · exact .inr prefixed

/-- Every namespace is the start of a path. -/
def Sourced (spaces : List (List CodeUnits)) (leaves : List CodeUnits) : Prop :=
  ∀ space ∈ spaces, ∃ path ∈ leaves, ∃ more, more ≠ [] ∧ pathParts path = space ++ more

theorem installGlobal_ok {path : CodeUnits}
    (installed : Installed globals state place spaces leaves) (sourced : Sourced spaces leaves)
    (apart : ∀ other ∈ leaves, ¬ pathParts other <+: pathParts path ∧
      ¬ pathParts path <+: pathParts other)
    (free : ∀ root rest, pathParts path = root :: rest → globals root = none) :
    ∃ state' place' spaces', installGlobal state path = .ok state' ∧
      Installed globals state' place' spaces' (path :: leaves) ∧ Sourced spaces'
        (path :: leaves) := by
  have filled : pathParts path ≠ [] := List.splitOn_ne_nil _ _
  obtain ⟨front, leaf, split⟩ : ∃ front leaf, pathParts path = front ++ [leaf] :=
    ⟨_, _, (List.dropLast_append_getLast filled).symm⟩
  have fresh : ∀ other ∈ leaves, pathParts other ≠ pathParts path := fun other inside same =>
    (apart other inside).1 (same ▸ List.prefix_refl _)
  obtain ⟨node, entered, place', spaces', ran, installed', known, here, sources⟩ :=
    @enterSpaces_ok _ globals state place spaces leaves path [] front 0 installed (.inl rfl)
      installed.root (fun start before other inside same =>
        (apart other inside).1 (by
          rw [same, split]
          exact before.trans (List.prefix_append front [leaf])))
      (fun root rest same => free root (rest ++ [leaf]) (by
        rw [split]
        exact congrArg (· ++ [leaf]) same))
  rw [List.nil_append] at here sources
  have place : pathParts path = place' node ++ [leaf] := by rw [here, split]
  have unspaced : pathParts path ∉ spaces' := by
    intro inside
    rcases sources _ inside with old | before
    · obtain ⟨other, listed, more, -, same⟩ := sourced _ old
      exact (apart other listed).2 ⟨more, same.symm⟩
    · have short := before.length_le
      rw [split, List.length_append, List.length_singleton] at short
      omega
  have missing : entered.heap.fields node leaf = none := by
    rw [installed'.other node leaf known (place ▸ unspaced) (place ▸ fresh)]
    split_ifs with root
    · subst root
      rw [installed'.root] at place
      rw [free leaf [] place]
      rfl
    · rfl
  refine ⟨_, place', spaces', ?_, installed'.setLeaf known place unspaced fresh, ?_⟩
  · unfold installGlobal
    dsimp only
    rw [split, List.dropLast_concat, ran, List.getLastD_concat]
    dsimp only [bind, Except.bind]
    rw [missing]
    rfl
  · intro space inside
    rcases sources space inside with old | before
    · obtain ⟨other, listed, more, more', same⟩ := sourced _ old
      exact ⟨other, List.mem_cons_of_mem _ listed, more, more', same⟩
    · obtain ⟨rest, same⟩ := before
      refine ⟨path, List.mem_cons_self, rest ++ [leaf], List.concat_ne_nil _ _, ?_⟩
      rw [split, ← same, List.append_assoc]

/-- The paths fit on the global object one by one, in any order. -/
theorem installAll_ok {paths : List CodeUnits}
    (installed : Installed globals state place spaces leaves) (sourced : Sourced spaces leaves)
    (apart : (paths.reverse ++ leaves).Pairwise fun left right =>
      ¬ pathParts left <+: pathParts right ∧ ¬ pathParts right <+: pathParts left)
    (free : ∀ path ∈ paths, ∀ root rest, pathParts path = root :: rest → globals root = none) :
    ∃ state' place' spaces', paths.foldlM installGlobal state = .ok state' ∧
      Installed globals state' place' spaces' (paths.reverse ++ leaves) ∧
      Sourced spaces' (paths.reverse ++ leaves) := by
  induction paths generalizing state place spaces leaves with
  | nil => exact ⟨state, place, spaces, rfl, installed, sourced⟩
  | cons path paths ih =>
      have same : (path :: paths).reverse ++ leaves = paths.reverse ++ path :: leaves := by
        rw [List.reverse_cons, List.append_assoc]
        rfl
      rw [same] at apart ⊢
      have behind := (List.pairwise_append.mp apart).2.1
      have beside := (List.pairwise_cons.mp behind).1
      obtain ⟨state', place', spaces', ran, installed', sourced'⟩ :=
        installGlobal_ok installed sourced (fun other inside => (beside other inside).symm)
          (free path List.mem_cons_self)
      rw [List.foldlM_cons, ran]
      exact ih installed' sourced' apart fun other inside =>
        free other (List.mem_cons_of_mem _ inside)

theorem resolve_object {heap : Heap γ} {id child : Nat} {name : CodeUnits} (names : List CodeUnits)
    (value : heap.fields id name = some (.object child)) :
    heap.resolve id (name :: names) = heap.resolve child names := by
  rw [Heap.resolve, value]

/-- Every start of a path is a namespace. -/
theorem Installed.start_mem (installed : Installed globals state place spaces leaves)
    {path : CodeUnits} (listed : path ∈ leaves) {front more : List CodeUnits} (filled : front ≠ [])
    (proper : more ≠ []) (same : pathParts path = front ++ more) : front ∈ spaces := by
  have shorten {more : List CodeUnits} (inside : front ++ more ∈ spaces) : front ∈ spaces := by
    induction more using List.reverseRecOn with
    | nil => rwa [List.append_nil] at inside
    | append_singleton more name ih =>
        rw [← List.append_assoc] at inside
        exact ih (installed.nested _ name (List.append_ne_nil_of_left_ne_nil filled more) inside)
  obtain ⟨more, name, rfl⟩ := List.eq_nil_or_concat more |>.resolve_left proper
  rw [List.concat_eq_append, ← List.append_assoc] at same
  exact shorten (installed.closed path listed _ name
    (List.append_ne_nil_of_left_ne_nil filled more) same)

/-- A path leads to its function from every namespace on its way. -/
theorem resolve_leaf (installed : Installed globals state place spaces leaves) {path : CodeUnits}
    (listed : path ∈ leaves) {names : List CodeUnits} (filled : names ≠ []) {id : Nat}
    (known : state.Known id) (here : pathParts path = place id ++ names) :
    state.heap.resolve id names = some (.host path) := by
  induction names generalizing id with
  | nil => exact absurd rfl filled
  | cons name names ih =>
      cases names with
      | nil =>
          rw [Heap.resolve, installed.leaf id name path known listed here]
          rfl
      | cons next names =>
          rw [List.append_cons] at here
          have spaced := installed.start_mem listed (List.concat_ne_nil _ _)
            (List.cons_ne_nil next names) here
          obtain ⟨child, made, value, placed⟩ := installed.space id name known spaced
          rw [resolve_object _ value]
          exact ih (List.cons_ne_nil _ _) (.inr made) (by rw [placed, here])

/-- A function is found only at its own path. -/
theorem host_resolved (installed : Installed globals state place spaces leaves) {path : CodeUnits}
    {names : List CodeUnits} {id : Nat} (known : state.Known id)
    (found : state.heap.resolve id names = some (.host path)) :
    path ∈ leaves ∧ pathParts path = place id ++ names := by
  induction names generalizing id with
  | nil => cases found
  | cons name names ih =>
      by_cases spaced : place id ++ [name] ∈ spaces
      · obtain ⟨child, made, value, placed⟩ := installed.space id name known spaced
        rw [resolve_object _ value] at found
        obtain ⟨listed, same⟩ := ih (.inr made) found
        exact ⟨listed, by rw [same, placed, List.append_assoc]; rfl⟩
      · by_cases used : ∃ other ∈ leaves, pathParts other = place id ++ [name]
        · obtain ⟨other, listed, same⟩ := used
          rw [Heap.resolve, installed.leaf id name other known listed same] at found
          cases names with
          | nil =>
              cases found
              exact ⟨listed, same⟩
          | cons next names => cases found
        · have value := installed.other id name known spaced fun other listed same =>
            used ⟨other, listed, same⟩
          have plain : state.heap.fields id name = none ∨
              ∃ kept, state.heap.fields id name = some (.existing kept) := by
            rw [value]
            split_ifs with root
            · cases globals name with
              | none => exact .inl rfl
              | some kept => exact .inr ⟨kept, rfl⟩
            · exact .inl rfl
          rw [Heap.resolve] at found
          rcases plain with missing | ⟨kept, stored⟩
          · rw [missing] at found
            cases names <;> cases found
          · rw [stored] at found
            cases names <;> cases found

/-- A field of the runtime keeps its value. -/
theorem existing_resolved (installed : Installed globals state place spaces leaves)
    (sourced : Sourced spaces leaves)
    (free : ∀ path ∈ leaves, ∀ root rest, pathParts path = root :: rest → globals root = none)
    {name : CodeUnits} {value : γ} (known : globals name = some value) :
    state.heap.resolve 0 [name] = some (.existing value) := by
  have missing {path : CodeUnits} {rest : List CodeUnits} (listed : path ∈ leaves) :
      pathParts path ≠ name :: rest := by
    intro same
    have none := free path listed name rest same
    rw [known] at none
    cases none
  have field : state.heap.fields 0 name = some (.existing value) := by
    rw [installed.other 0 name (.inl rfl), if_pos rfl, known]
    · rfl
    · rw [installed.root]
      intro inside
      obtain ⟨path, listed, more, -, same⟩ := sourced _ inside
      exact missing listed same
    · rw [installed.root]
      exact fun path listed => missing listed
  rw [Heap.resolve, field]
  rfl

/-- Paths that fit together are all installed, and nothing else changes. -/
theorem installGlobals_ok {paths : List CodeUnits} (globals : CodeUnits → Option γ)
    (apart : paths.Pairwise fun left right =>
      ¬ pathParts left <+: pathParts right ∧ ¬ pathParts right <+: pathParts left)
    (free : ∀ path ∈ paths, ∀ root rest, pathParts path = root :: rest → globals root = none) :
    ∃ state, installGlobals paths (Heap.new globals) = .ok state ∧
      (∀ path ∈ paths, state.heap.resolve 0 (pathParts path) = some (.host path)) ∧
      (∀ path names, state.heap.resolve 0 names = some (.host path) →
        path ∈ paths ∧ names = pathParts path) ∧
      ∀ name value, globals name = some value →
        state.heap.resolve 0 [name] = some (.existing value) := by
  have both : (paths.reverse ++ []).Pairwise fun left right =>
      ¬ pathParts left <+: pathParts right ∧ ¬ pathParts right <+: pathParts left := by
    rw [List.append_nil, List.pairwise_reverse]
    exact apart.imp And.symm
  obtain ⟨state, place, spaces, ran, installed, sourced⟩ :=
    installAll_ok installed_new (fun _ inside => absurd inside List.not_mem_nil) both free
  have listed (path : CodeUnits) : path ∈ paths.reverse ++ [] ↔ path ∈ paths := by
    rw [List.append_nil, List.mem_reverse]
  refine ⟨state, ran, ?_, ?_, ?_⟩
  · intro path inside
    refine resolve_leaf installed ((listed path).mpr inside) (List.splitOn_ne_nil _ _) (.inl rfl) ?_
    rw [installed.root]
    rfl
  · intro path names found
    obtain ⟨inside, same⟩ := host_resolved installed (.inl rfl) found
    rw [installed.root] at same
    exact ⟨(listed path).mp inside, same.symm⟩
  · intro name value known
    exact existing_resolved installed sourced
      (fun path inside => free path ((listed path).mp inside))
      known

end Places

end TinySandbox.Js.Guest
