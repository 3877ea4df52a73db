/-
This file shows where the scanner of `sed` cuts a substitution.
It takes a delimiter behind escaped backslashes for an escaped one.
-/

import TinySandbox.Specification.SedScripts

namespace TinySandbox.Sandbox

/-- A text is read as single characters and as pairs behind a backslash. -/
theorem unit_induction {motive : Text → Prop} (nil : motive []) (lone : motive ['\\'])
    (pair : ∀ ch rest, motive rest → motive ('\\' :: ch :: rest))
    (plain : ∀ ch rest, ch ≠ '\\' → motive rest → motive (ch :: rest)) (text : Text) :
    motive text :=
  match text with
  | [] => nil
  | [ch] =>
      if same : ch = '\\' then same ▸ lone else plain ch [] same nil
  | ch :: next :: rest =>
      if same : ch = '\\' then same ▸ pair next rest (unit_induction nil lone pair plain rest)
      else plain ch (next :: rest) same (unit_induction nil lone pair plain (next :: rest))

section Backslashes
variable {ch next : Char} {before : Text}

theorem backslashes_concat (before : Text) (ch : Char) :
    backslashes (before ++ [ch]) = if ch = '\\' then backslashes before + 1 else 0 := by
  unfold backslashes
  split_ifs with same
  · rw [List.rtakeWhile_concat_pos (· = '\\') _ _ (decide_eq_true same), List.length_append]
    rfl
  · rw [List.rtakeWhile_concat_neg (· = '\\') _ _ (by simpa using same)]
    rfl

/-- A character that is no backslash ends every run before it. -/
theorem backslashes_plain (plain : ch ≠ '\\') (before : Text) :
    backslashes (ch :: before) = backslashes before := by
  induction before using List.reverseRecOn with
  | nil => exact (backslashes_concat [] ch).trans (if_neg plain)
  | append_singleton before last ih =>
      rw [← List.cons_append, backslashes_concat, backslashes_concat, ih]

/-- An escape pair does not change whether a run behind it is even. -/
theorem backslashes_pair (next : Char) (before : Text) :
    backslashes ('\\' :: next :: before) % 2 = backslashes before % 2 := by
  induction before using List.reverseRecOn with
  | nil =>
      have alone : backslashes ['\\'] = 1 := rfl
      change backslashes (['\\'] ++ [next]) % 2 = 0
      rw [backslashes_concat, alone]
      split_ifs <;> rfl
  | append_singleton before last ih =>
      rw [← List.cons_append, ← List.cons_append, backslashes_concat, backslashes_concat]
      split_ifs
      · omega
      · rfl

end Backslashes

section Cuts
variable {delimiter ch : Char} {rest : Text}

theorem sedCuts_cons (delimiter ch : Char) (rest : Text) :
    sedCuts delimiter (ch :: rest) =
      (if ch = delimiter then [0] else []) ++
        ((List.range rest.length).filter fun place => rest[place]? = some delimiter ∧
          backslashes (ch :: rest.take place) % 2 = 0).map (· + 1) := by
  unfold sedCuts
  rw [List.length_cons, List.range_succ_eq_map, List.filter_cons, List.filter_map]
  split_ifs with first same same
  · rfl
  · simp at first
    exact absurd first.1 same
  · simp [same, backslashes] at first
  · rfl

theorem sedCuts_plain (plain : ch ≠ '\\') :
    sedCuts delimiter (ch :: rest) =
      (if ch = delimiter then [0] else []) ++ (sedCuts delimiter rest).map (· + 1) := by
  rw [sedCuts_cons]
  unfold sedCuts
  congr 2
  apply List.filter_congr
  intro place _
  rw [backslashes_plain plain]

theorem sedCuts_pair (other : delimiter ≠ '\\') :
    sedCuts delimiter ('\\' :: ch :: rest) = (sedCuts delimiter rest).map (· + 2) := by
  have alone : backslashes ['\\'] = 1 := rfl
  rw [sedCuts_cons, if_neg (Ne.symm other), List.nil_append, List.length_cons, List.range_succ_eq_map,
    List.filter_cons, List.filter_map, if_neg (by simp [alone]), List.map_map]
  unfold sedCuts
  congr 1
  apply List.filter_congr
  intro place _
  change decide (rest[place]? = some delimiter ∧
    backslashes ('\\' :: ch :: rest.take place) % 2 = 0) = _
  rw [backslashes_pair]

/-- The text before the first cut, and the text behind it. Pairs are read as they stand. -/
def firstCut (delimiter : Char) : Text → Option (Text × Text)
  | [] => none
  | ['\\'] => none
  | '\\' :: ch :: rest =>
      (firstCut delimiter rest).map fun sides => ('\\' :: ch :: sides.1, sides.2)
  | ch :: rest =>
      if ch = delimiter then some ([], rest)
      else (firstCut delimiter rest).map fun sides => (ch :: sides.1, sides.2)

theorem firstCut_plain (plain : ch ≠ '\\') (rest : Text) :
    firstCut delimiter (ch :: rest) =
      if ch = delimiter then some ([], rest)
      else (firstCut delimiter rest).map fun sides => (ch :: sides.1, sides.2) := by
  rw [firstCut]
  · exact fun same _ => plain same
  · exact fun _ _ same _ => plain same

theorem bareDelimiters_plain (plain : ch ≠ '\\') (rest : Text) :
    bareDelimiters delimiter (ch :: rest) = ch :: bareDelimiters delimiter rest := by
  rw [bareDelimiters]
  exact fun _ _ same _ => plain same

theorem firstCut_eq {input front back : Text} (cut : firstCut delimiter input = some (front, back)) :
    input = front ++ delimiter :: back := by
  induction input using unit_induction generalizing front with
  | nil => cases cut
  | lone => cases cut
  | pair ch rest ih =>
      obtain ⟨sides, inside, same⟩ := Option.map_eq_some_iff.mp cut
      obtain ⟨rfl, rfl⟩ := Prod.mk.inj same
      rw [ih inside]
      rfl
  | plain ch rest plain ih =>
      rw [firstCut_plain plain] at cut
      split_ifs at cut with first
      · obtain ⟨rfl, rfl⟩ := Prod.mk.inj (Option.some.inj cut)
        rw [first]
        rfl
      · obtain ⟨sides, inside, same⟩ := Option.map_eq_some_iff.mp cut
        obtain ⟨rfl, rfl⟩ := Prod.mk.inj same
        rw [ih inside]
        rfl

/-- The first cut of the pairs is the first place of the cuts. -/
theorem sedCuts_eq (other : delimiter ≠ '\\') (input : Text) :
    sedCuts delimiter input =
      match firstCut delimiter input with
      | none => []
      | some (front, back) =>
          front.length :: (sedCuts delimiter back).map (front.length + 1 + ·) := by
  have deeper (places : List Nat) (front extra : Nat) :
      (places.map (front + 1 + ·)).map (· + extra) = places.map (front + extra + 1 + ·) := by
    rw [List.map_map]
    apply List.map_congr_left
    intro place _
    change front + 1 + place + extra = _
    omega
  induction input using unit_induction with
  | nil => rfl
  | lone =>
      rw [sedCuts_cons, if_neg (Ne.symm other)]
      rfl
  | pair ch rest ih =>
      rw [sedCuts_pair other, ih, firstCut]
      cases firstCut delimiter rest with
      | none => rfl
      | some sides =>
          dsimp only [Option.map_some]
          rw [List.map_cons, deeper]
          rfl
  | plain ch rest plain ih =>
      rw [sedCuts_plain plain, firstCut_plain plain]
      split_ifs with first
      · dsimp only
        rw [List.singleton_append]
        congr 2
        funext place
        exact Nat.add_comm _ _
      · rw [ih, List.nil_append]
        cases firstCut delimiter rest with
        | none => rfl
        | some sides =>
            dsimp only [Option.map_some]
            rw [List.map_cons, deeper]
            rfl

theorem sedParts_eq (other : delimiter ≠ '\\') (input : Text) :
    sedParts delimiter input =
      (firstCut delimiter input).bind fun first =>
        (firstCut delimiter first.2).map fun second =>
          (bareDelimiters delimiter first.1, bareDelimiters delimiter second.1,
            bareDelimiters delimiter second.2) := by
  unfold sedParts
  rw [sedCuts_eq other]
  cases cut : firstCut delimiter input with
  | none => rfl
  | some first =>
      obtain ⟨front, rest⟩ := first
      dsimp only [Option.bind_some]
      rw [sedCuts_eq other rest]
      cases again : firstCut delimiter rest with
      | none => rfl
      | some second =>
          obtain ⟨middle, back⟩ := second
          rw [List.map_cons]
          dsimp only [Option.map_some]
          have whole : input = front ++ delimiter :: (middle ++ delimiter :: back) := by
            rw [firstCut_eq cut, firstCut_eq again]
          have upto : input.take (front.length + 1 + middle.length) = front ++ delimiter :: middle := by
            rw [whole, Nat.add_assoc, Nat.add_comm 1, List.take_length_add_append, List.take_succ_cons,
              List.take_left]
          have behind : input.drop (front.length + 1 + middle.length + 1) = back := by
            have cuts : input = (front ++ delimiter :: (middle ++ [delimiter])) ++ back := by
              rw [whole, List.append_assoc, List.cons_append, List.append_assoc]
              rfl
            rw [cuts]
            apply List.drop_left'
            simp only [List.length_append, List.length_cons, List.length_nil]
            omega
          have before : input.take front.length = front := by rw [whole, List.take_left]
          have between : (front ++ delimiter :: middle).drop (front.length + 1) = middle := by
            rw [List.drop_length_add_append]
            rfl
          rw [upto, behind, before, between]

end Cuts

/-- This is the scan that reads pairs. -/
def pairLoop (delimiter : Char) : List Text → Text → Text → List Text × Text
  | parts, current, [] => (parts, current)
  | parts, current, ['\\'] => (parts, current ++ ['\\'])
  | parts, current, '\\' :: ch :: rest =>
      pairLoop delimiter parts (current ++ bareDelimiters delimiter ['\\', ch]) rest
  | parts, current, ch :: rest =>
      if ch = delimiter ∧ parts.length < 2 then pairLoop delimiter (parts ++ [current]) [] rest
      else pairLoop delimiter parts (current ++ [ch]) rest

section Loops
variable {delimiter ch : Char} {parts : List Text} {current rest : Text}

theorem pairLoop_plain (plain : ch ≠ '\\') :
    pairLoop delimiter parts current (ch :: rest) =
      if ch = delimiter ∧ parts.length < 2 then pairLoop delimiter (parts ++ [current]) [] rest
      else pairLoop delimiter parts (current ++ [ch]) rest := by
  rw [pairLoop]
  · exact fun same _ => plain same
  · exact fun _ _ same _ => plain same

theorem bareDelimiters_pair (ch : Char) (rest : Text) :
    bareDelimiters delimiter ('\\' :: ch :: rest) =
      bareDelimiters delimiter ['\\', ch] ++ bareDelimiters delimiter rest := by
  rw [bareDelimiters, bareDelimiters]
  split_ifs <;> rfl

/-- Up to the first cut the loop collects one part. -/
theorem pairLoop_firstCut (few : parts.length < 2) (input : Text) :
    pairLoop delimiter parts current input =
      match firstCut delimiter input with
      | none => (parts, current ++ bareDelimiters delimiter input)
      | some (front, back) =>
          pairLoop delimiter (parts ++ [current ++ bareDelimiters delimiter front]) [] back := by
  induction input using unit_induction generalizing current with
  | nil => rw [pairLoop, firstCut, bareDelimiters, List.append_nil]
  | lone => rfl
  | pair ch rest ih =>
      rw [pairLoop, ih, firstCut]
      cases firstCut delimiter rest with
      | none => rw [bareDelimiters_pair ch rest, Option.map_none, List.append_assoc]
      | some sides =>
          dsimp only [Option.map_some]
          rw [bareDelimiters_pair ch sides.1, List.append_assoc]
  | plain ch rest plain ih =>
      rw [pairLoop_plain plain, firstCut_plain plain]
      by_cases first : ch = delimiter
      · rw [if_pos ⟨first, few⟩, if_pos first]
        dsimp only
        rw [bareDelimiters, List.append_nil]
      · rw [if_neg fun both => first both.1, if_neg first, ih]
        cases firstCut delimiter rest with
        | none => rw [bareDelimiters_plain plain, Option.map_none, List.append_assoc]; rfl
        | some sides =>
            dsimp only [Option.map_some]
            rw [bareDelimiters_plain plain, List.append_assoc]
            rfl

/-- Behind the second cut the rest is one part. -/
theorem pairLoop_full (full : ¬ parts.length < 2) (input : Text) :
    pairLoop delimiter parts current input = (parts, current ++ bareDelimiters delimiter input) := by
  induction input using unit_induction generalizing current with
  | nil => rw [pairLoop, bareDelimiters, List.append_nil]
  | lone => rfl
  | pair ch rest ih => rw [pairLoop, ih, bareDelimiters_pair ch rest, List.append_assoc]
  | plain ch rest plain ih =>
      rw [pairLoop_plain plain, if_neg fun both => full both.2, ih, bareDelimiters_plain plain,
        List.append_assoc]
      rfl

/-- The parts of a scan that found both cuts. -/
def threeParts : List Text × Text → Option (Text × Text × Text)
  | ([pattern, replacement], flags) => some (pattern, replacement, flags)
  | _ => none

theorem sedParts_pairLoop (other : delimiter ≠ '\\') (input : Text) :
    sedParts delimiter input = threeParts (pairLoop delimiter [] [] input) := by
  rw [sedParts_eq other, pairLoop_firstCut (show ([] : List Text).length < 2 from Nat.zero_lt_two)]
  cases firstCut delimiter input with
  | none => rfl
  | some first =>
      dsimp only [Option.bind_some]
      rw [pairLoop_firstCut (show ([] ++ [_] : List Text).length < 2 from Nat.one_lt_two)]
      cases firstCut delimiter first.2 with
      | none => rfl
      | some second =>
          dsimp only [Option.map_some]
          rw [pairLoop_full (show ¬ ([] ++ [_] ++ [_] : List Text).length < 2 from Nat.lt_irrefl 2)]
          rfl

theorem pairLoop_few (other : delimiter ≠ '\\') {input : Text}
    (few : sedParts delimiter input = none) : (pairLoop delimiter [] [] input).1.length < 2 := by
  rw [sedParts_eq other] at few
  rw [pairLoop_firstCut (show ([] : List Text).length < 2 from Nat.zero_lt_two)]
  cases cut : firstCut delimiter input with
  | none => exact Nat.zero_lt_two
  | some first =>
      rw [cut, Option.bind_some, Option.map_eq_none_iff] at few
      dsimp only
      rw [pairLoop_firstCut (show ([] ++ [_] : List Text).length < 2 from Nat.one_lt_two), few]
      exact Nat.one_lt_two

theorem threeParts_few {scanned : List Text × Text} (few : scanned.1.length < 2) :
    threeParts scanned = none := by
  unfold threeParts
  split
  · exact absurd few (Nat.lt_irrefl 2)
  · rfl

theorem splitSedParts_eq (input : Text) (delimiter : Char) :
    splitSedParts input delimiter = threeParts (splitSedLoop delimiter [] [] input) := rfl

theorem splitSedLoop_plain (plain : ch ≠ '\\') :
    splitSedLoop delimiter parts current (ch :: rest) =
      if ch = delimiter ∧ parts.length < 2 then
        splitSedLoop delimiter (parts ++ [current]) [] rest
      else splitSedLoop delimiter parts (current ++ [ch]) rest := by
  rw [splitSedLoop]
  · exact fun same _ => plain same
  · exact fun _ _ same _ => plain same

end Loops

section Escapes
variable {delimiter ch : Char} {rest : Text}

theorem backslashes_pair_pos (ch : Char) (before : Text) :
    0 < backslashes ('\\' :: ch :: before) ↔ 0 < backslashes before ∨ before = [] ∧ ch = '\\' := by
  induction before using List.reverseRecOn with
  | nil =>
      have alone : backslashes ['\\'] = 1 := rfl
      have none : backslashes [] = 0 := rfl
      change 0 < backslashes (['\\'] ++ [ch]) ↔ _
      rw [backslashes_concat, alone, none]
      split_ifs with same
      · simp [same]
      · simp [same]
  | append_singleton before last ih =>
      rw [← List.cons_append, ← List.cons_append, backslashes_concat, backslashes_concat]
      split_ifs
      · simp
      · simp

theorem doublyEscaped_pair (other : delimiter ≠ '\\') :
    DoublyEscaped delimiter ('\\' :: ch :: rest) ↔
      ch = '\\' ∧ rest.head? = some delimiter ∨ DoublyEscaped delimiter rest := by
  constructor
  · rintro ⟨before, after, same, filled, even⟩
    match before with
    | [] => exact absurd (List.cons.inj same).1.symm other
    | [first] =>
        rw [← (List.cons.inj same).1] at even
        cases even
    | first :: second :: before =>
        obtain ⟨head, tail⟩ := List.cons.inj same
        obtain ⟨next, tail⟩ := List.cons.inj tail
        rw [← head, ← next] at filled even
        rw [backslashes_pair] at even
        rcases (backslashes_pair_pos ch before).mp filled with inside | ⟨empty, double⟩
        · exact .inr ⟨before, after, tail, inside, even⟩
        · rw [empty] at tail
          exact .inl ⟨double, congrArg List.head? tail⟩
  · rintro (⟨rfl, first⟩ | ⟨before, after, rfl, filled, even⟩)
    · obtain ⟨after, rfl⟩ := List.head?_eq_some_iff.mp first
      exact ⟨['\\', '\\'], after, rfl, by decide, by decide⟩
    · refine ⟨'\\' :: ch :: before, after, rfl, ?_, ?_⟩
      · exact (backslashes_pair_pos ch before).mpr (.inl filled)
      · rw [backslashes_pair]
        exact even

theorem doublyEscaped_plain (plain : ch ≠ '\\') :
    DoublyEscaped delimiter (ch :: rest) ↔ DoublyEscaped delimiter rest := by
  constructor
  · rintro ⟨before, after, same, filled, even⟩
    cases before with
    | nil => cases filled
    | cons first before =>
        obtain ⟨head, tail⟩ := List.cons.inj same
        rw [← head, backslashes_plain plain] at filled even
        exact ⟨before, after, tail, filled, even⟩
  · rintro ⟨before, after, rfl, filled, even⟩
    refine ⟨ch :: before, after, rfl, ?_, ?_⟩
    · rwa [backslashes_plain plain]
    · rwa [backslashes_plain plain]

theorem not_doublyEscaped_nil : ¬ DoublyEscaped delimiter [] := by
  rintro ⟨before, after, same, -, -⟩
  exact List.append_ne_nil_of_right_ne_nil _ (List.cons_ne_nil _ _) same.symm

theorem not_doublyEscaped_lone (other : delimiter ≠ '\\') : ¬ DoublyEscaped delimiter ['\\'] := by
  rintro ⟨before, after, same, -, -⟩
  cases before with
  | nil => exact other (List.cons.inj same).1.symm
  | cons first before =>
      exact List.append_ne_nil_of_right_ne_nil _ (List.cons_ne_nil _ _) (List.cons.inj same).2.symm

/-- Both scans agree where no delimiter stands behind escaped backslashes. -/
theorem splitSedLoop_eq (other : delimiter ≠ '\\') {input : Text}
    (single : ¬ DoublyEscaped delimiter input) (parts : List Text) (current : Text) :
    splitSedLoop delimiter parts current input = pairLoop delimiter parts current input := by
  induction input using unit_induction generalizing parts current with
  | nil => rw [splitSedLoop, pairLoop]
  | lone => rfl
  | pair ch rest ih =>
      rw [doublyEscaped_pair other, not_or, not_and] at single
      obtain ⟨head, single⟩ := single
      rw [splitSedLoop, pairLoop, ← ih single, bareDelimiters]
      split_ifs with escaped
      · rfl
      · by_cases double : ch = '\\'
        · subst double
          cases rest with
          | nil => rw [splitSedLoop, splitSedLoop, List.append_assoc]; rfl
          | cons next tail =>
              have apart : next ≠ delimiter := fun same => head rfl (congrArg some same)
              rw [splitSedLoop, if_neg apart, List.append_assoc]
              rfl
        · rw [splitSedLoop_plain double, if_neg fun both => escaped both.1, List.append_assoc]
          rfl
  | plain ch rest plain ih =>
      rw [doublyEscaped_plain plain] at single
      rw [splitSedLoop_plain plain, pairLoop_plain plain, ih single, ih single]

/-- The characters of the parts, with the cuts between them. -/
def weigh (scanned : List Text × Text) : Nat :=
  (scanned.1.map fun part => part.length + 1).sum + scanned.2.length

theorem weigh_cut (parts : List Text) (current : Text) :
    weigh (parts ++ [current], []) = weigh (parts, current) + 1 := by
  unfold weigh
  rw [List.map_append, List.sum_append]
  rfl

theorem weigh_append (parts : List Text) (current more : Text) :
    weigh (parts, current ++ more) = weigh (parts, current) + more.length := by
  unfold weigh
  rw [List.length_append, Nat.add_assoc]

/-- These are the backslashes that the scan takes away. -/
def splitEscapes (delimiter : Char) : Text → Nat
  | '\\' :: ch :: rest =>
      if ch = delimiter then splitEscapes delimiter rest + 1 else splitEscapes delimiter (ch :: rest)
  | _ :: rest => splitEscapes delimiter rest
  | [] => 0

def pairEscapes (delimiter : Char) : Text → Nat
  | '\\' :: ch :: rest => (if ch = delimiter then 1 else 0) + pairEscapes delimiter rest
  | _ :: rest => pairEscapes delimiter rest
  | [] => 0

theorem splitEscapes_plain (plain : ch ≠ '\\') :
    splitEscapes delimiter (ch :: rest) = splitEscapes delimiter rest := by
  rw [splitEscapes]
  exact fun _ _ same _ => plain same

theorem pairEscapes_plain (plain : ch ≠ '\\') :
    pairEscapes delimiter (ch :: rest) = pairEscapes delimiter rest := by
  rw [pairEscapes]
  exact fun _ _ same _ => plain same

theorem weigh_splitSedLoop (delimiter : Char) (parts : List Text) (current input : Text) :
    weigh (splitSedLoop delimiter parts current input) + splitEscapes delimiter input =
      weigh (parts, current) + input.length := by
  fun_induction splitSedLoop delimiter parts current input with
  | case1 parts current => rfl
  | case2 parts current =>
      rw [weigh_append]
      rfl
  | case3 parts current rest ih =>
      rw [splitEscapes, if_pos rfl, ← Nat.add_assoc, ih, weigh_append]
      simp only [List.length_cons, List.length_nil]
      omega
  | case4 parts current ch rest other ih =>
      rw [splitEscapes, if_neg other, ih, weigh_append]
      exact Nat.add_right_comm _ _ _
  | case5 parts current ch rest lone pair cut ih =>
      have plain : ch ≠ '\\' := by
        intro same
        cases rest with
        | nil => exact lone same rfl
        | cons next tail => exact pair next tail same rfl
      rw [splitEscapes_plain plain, ih, weigh_cut]
      exact Nat.add_right_comm _ _ _
  | case6 parts current ch rest lone pair uncut ih =>
      have plain : ch ≠ '\\' := by
        intro same
        cases rest with
        | nil => exact lone same rfl
        | cons next tail => exact pair next tail same rfl
      rw [splitEscapes_plain plain, ih, weigh_append]
      exact Nat.add_right_comm _ _ _

theorem weigh_pairLoop (delimiter : Char) (parts : List Text) (current input : Text) :
    weigh (pairLoop delimiter parts current input) + pairEscapes delimiter input =
      weigh (parts, current) + input.length := by
  induction input using unit_induction generalizing parts current with
  | nil => rw [pairLoop]; rfl
  | lone => exact weigh_append _ _ _
  | pair ch rest ih =>
      rw [pairLoop, pairEscapes, Nat.add_left_comm, ih, weigh_append, bareDelimiters]
      split_ifs
      · simp only [bareDelimiters, List.length_cons, List.length_nil]
        omega
      · simp only [bareDelimiters, List.length_cons, List.length_nil]
        omega
  | plain ch rest plain ih =>
      rw [pairLoop_plain plain, pairEscapes_plain plain]
      split_ifs
      · rw [ih, weigh_cut]
        exact Nat.add_right_comm _ _ _
      · rw [ih, weigh_append]
        exact Nat.add_right_comm _ _ _

/-- The scan takes more backslashes away than there are escaped delimiters. -/
theorem pairEscapes_le (other : delimiter ≠ '\\') (input : Text) :
    pairEscapes delimiter input ≤ splitEscapes delimiter input ∧
      (DoublyEscaped delimiter input →
        pairEscapes delimiter input < splitEscapes delimiter input) := by
  induction input using unit_induction with
  | nil => exact ⟨Nat.le_refl _, fun double => absurd double not_doublyEscaped_nil⟩
  | lone => exact ⟨Nat.le_refl _, fun double => absurd double (not_doublyEscaped_lone other)⟩
  | plain ch rest plain ih =>
      rwa [pairEscapes_plain plain, splitEscapes_plain plain, doublyEscaped_plain plain]
  | pair ch rest ih =>
      rw [pairEscapes, splitEscapes, doublyEscaped_pair other]
      split_ifs with escaped
      · have apart : ¬ (ch = '\\' ∧ rest.head? = some delimiter) := fun both =>
          other (escaped.symm.trans both.1)
        rw [Nat.add_comm]
        exact ⟨Nat.succ_le_succ ih.1, fun double =>
          Nat.succ_lt_succ (ih.2 (double.resolve_left apart))⟩
      · rw [Nat.zero_add]
        by_cases double : ch = '\\'
        · subst double
          cases rest with
          | nil => exact ⟨ih.1, fun either => ih.2 (either.resolve_left nofun)⟩
          | cons next tail =>
              rw [splitEscapes]
              split_ifs with first
              · rw [first] at ih ⊢
                rw [splitEscapes_plain other] at ih
                exact ⟨Nat.le_succ_of_le ih.1, fun _ => Nat.lt_succ_of_le ih.1⟩
              · exact ⟨ih.1, fun either => ih.2 (either.resolve_left fun both =>
                  first (Option.some.inj both.2))⟩
        · rw [splitEscapes_plain double]
          exact ⟨ih.1, fun either => ih.2 (either.resolve_left fun both => double both.1)⟩

theorem weigh_threeParts {scanned : List Text × Text} {parts : Text × Text × Text}
    (split : threeParts scanned = some parts) :
    weigh scanned = parts.1.length + parts.2.1.length + parts.2.2.length + 2 := by
  unfold threeParts at split
  split at split
  · rw [← Option.some.inj split]
    simp only [weigh, List.map_cons, List.map_nil, List.sum_cons, List.sum_nil]
    omega
  · cases split

/-- More parts at the start give no fewer parts at the end. -/
theorem splitSedLoop_mono (input : Text) {parts more : List Text} (few : parts.length ≤ more.length)
    (current later : Text) :
    (splitSedLoop delimiter parts current input).1.length ≤
      (splitSedLoop delimiter more later input).1.length := by
  fun_induction splitEscapes delimiter input generalizing parts more current later with
  | case1 rest ih =>
      rw [splitSedLoop, splitSedLoop, if_pos rfl, if_pos rfl]
      exact ih few _ _
  | case2 ch rest other ih =>
      rw [splitSedLoop, splitSedLoop, if_neg other, if_neg other]
      exact ih few _ _
  | case3 ch rest pair ih =>
      by_cases lone : ch = '\\'
      · cases rest with
        | nil =>
            rw [lone]
            exact few
        | cons next tail => exact absurd rfl (pair next tail lone)
      · rw [splitSedLoop_plain lone, splitSedLoop_plain lone]
        split_ifs with cut again again
        · apply ih
          rw [List.length_append, List.length_append]
          exact Nat.succ_le_succ few
        · apply ih
          rw [List.length_append]
          exact Nat.le_trans cut.2 (Nat.le_of_not_lt fun small => again ⟨cut.1, small⟩)
        · apply ih
          rw [List.length_append]
          exact Nat.le_succ_of_le few
        · exact ih few _ _
  | case4 => exact few

/-- The scan never finds more cuts than there are. -/
theorem splitSedLoop_parts_le (other : delimiter ≠ '\\') (input : Text) {parts more : List Text}
    (few : parts.length ≤ more.length) (current later : Text) :
    (splitSedLoop delimiter parts current input).1.length ≤
      (pairLoop delimiter more later input).1.length := by
  induction input using unit_induction generalizing parts more current later with
  | nil =>
      rw [splitSedLoop, pairLoop]
      exact few
  | lone => exact few
  | pair ch rest ih =>
      rw [splitSedLoop, pairLoop]
      split_ifs with escaped
      · exact ih few _ _
      · by_cases double : ch = '\\'
        · subst double
          cases rest with
          | nil => exact ih few _ _
          | cons next tail =>
              rw [splitSedLoop]
              split_ifs with first
              · subst first
                refine Nat.le_trans ?_ (ih few current _)
                rw [splitSedLoop_plain other]
                split_ifs with cut
                · apply splitSedLoop_mono
                  rw [List.length_append]
                  exact Nat.le_succ _
                · exact splitSedLoop_mono _ (Nat.le_refl _) _ _
              · exact ih few _ _
        · rw [splitSedLoop_plain double, if_neg fun both => escaped both.1]
          exact ih few _ _
  | plain ch rest plain ih =>
      rw [splitSedLoop_plain plain, pairLoop_plain plain]
      split_ifs with cut again again
      · apply ih
        rw [List.length_append, List.length_append]
        exact Nat.succ_le_succ few
      · apply ih
        rw [List.length_append]
        exact Nat.le_trans cut.2 (Nat.le_of_not_lt fun small => again ⟨cut.1, small⟩)
      · apply ih
        rw [List.length_append]
        exact Nat.le_succ_of_le few
      · exact ih few _ _

end Escapes

section Parts
variable {delimiter : Char} {part rest : Text}

theorem sedCuts_length_lt (delimiter : Char) (input : Text) :
    (sedCuts delimiter input).length < 2 ↔ sedParts delimiter input = none := by
  unfold sedParts
  split
  · next first second later cuts =>
      rw [cuts]
      exact iff_of_false (Nat.not_lt_of_le (Nat.le_add_left 2 _)) nofun
  · next few =>
      apply iff_of_true _ rfl
      match cuts : sedCuts delimiter input with
      | [] => exact Nat.zero_lt_two
      | [_] => exact Nat.one_lt_two
      | first :: second :: later => exact absurd cuts (few first second later)

/-- A part without a cut goes up to the delimiter behind it. -/
theorem EscapedPart.firstCut (other : delimiter ≠ '\\') (escaped : EscapedPart delimiter part)
    (rest : Text) : firstCut delimiter (part ++ delimiter :: rest) = some (part, rest) := by
  obtain ⟨uncut, closed⟩ := escaped
  induction part using unit_induction with
  | nil => exact (firstCut_plain other rest).trans (if_pos rfl)
  | lone => cases closed
  | pair ch tail ih =>
      rw [sedCuts_pair other, List.map_eq_nil_iff] at uncut
      rw [backslashes_pair] at closed
      have below := ih uncut closed
      rw [List.cons_append, List.cons_append, TinySandbox.Sandbox.firstCut, below]
      rfl
  | plain ch tail plain ih =>
      rw [sedCuts_plain plain, List.append_eq_nil_iff, List.map_eq_nil_iff] at uncut
      rw [backslashes_plain plain] at closed
      have apart : ch ≠ delimiter := by
        intro same
        rw [if_pos same] at uncut
        cases uncut.1
      have below := ih uncut.2 closed
      rw [List.cons_append, firstCut_plain plain, if_neg apart, below]
      rfl

theorem EscapedPart.doublyEscaped (other : delimiter ≠ '\\') (escaped : EscapedPart delimiter part)
    (rest : Text) : DoublyEscaped delimiter (part ++ delimiter :: rest) ↔
      0 < backslashes part ∨ DoublyEscaped delimiter rest := by
  obtain ⟨uncut, closed⟩ := escaped
  induction part using unit_induction with
  | nil =>
      have none : ¬ 0 < backslashes [] := by decide
      rw [List.nil_append, doublyEscaped_plain other, or_iff_right none]
  | lone => cases closed
  | pair ch tail ih =>
      rw [sedCuts_pair other, List.map_eq_nil_iff] at uncut
      rw [backslashes_pair] at closed
      rw [List.cons_append, List.cons_append, doublyEscaped_pair other, ih uncut closed,
        backslashes_pair_pos, ← or_assoc, or_comm (a := ch = '\\' ∧ _)]
      have head : (tail ++ delimiter :: rest).head? = some delimiter ↔ tail = [] := by
        cases tail with
        | nil => exact iff_of_true rfl rfl
        | cons first tail =>
            apply iff_of_false _ (List.cons_ne_nil _ _)
            intro same
            rw [Option.some.inj same, sedCuts_plain other, if_pos rfl] at uncut
            cases uncut
      rw [head, and_comm]
  | plain ch tail plain ih =>
      rw [sedCuts_plain plain, List.append_eq_nil_iff, List.map_eq_nil_iff] at uncut
      rw [backslashes_plain plain] at closed
      rw [List.cons_append, doublyEscaped_plain plain, ih uncut.2 closed, backslashes_plain plain]

theorem bareDelimiters_clean {flags : Text} (clean : '\\' ∉ flags) :
    bareDelimiters delimiter flags = flags := by
  induction flags with
  | nil => rw [bareDelimiters]
  | cons ch flags ih =>
      obtain ⟨plain, clean⟩ := not_or.mp (mt List.mem_cons.mpr clean)
      rw [bareDelimiters_plain (Ne.symm plain), ih clean]

theorem not_doublyEscaped_clean {flags : Text} (clean : '\\' ∉ flags) :
    ¬ DoublyEscaped delimiter flags := by
  rintro ⟨before, after, rfl, filled, -⟩
  unfold backslashes at filled
  obtain ⟨ch, inside⟩ := List.exists_mem_of_length_pos filled
  have same := List.mem_rtakeWhile_imp inside
  rw [decide_eq_true_iff] at same
  rw [same] at inside
  exact clean (List.mem_append_left _ ((List.rtakeWhile_suffix _ _).subset inside))

end Parts

/-- The scanner cuts as it should exactly when the text has too few cuts for any substitution, or
no delimiter stands behind escaped backslashes. Two parts and their flags are read back exactly
when neither part ends with a backslash. -/
theorem splitSedParts_iff {delimiter : Char} (other : delimiter ≠ '\\') :
    (∀ input, splitSedParts input delimiter = sedParts delimiter input ↔
      (sedCuts delimiter input).length < 2 ∨ ¬ DoublyEscaped delimiter input) ∧
    ∀ pattern replacement flags, EscapedPart delimiter pattern →
      EscapedPart delimiter replacement → '\\' ∉ flags →
      (splitSedParts (pattern ++ delimiter :: (replacement ++ delimiter :: flags)) delimiter =
          some (bareDelimiters delimiter pattern, bareDelimiters delimiter replacement, flags) ↔
        backslashes pattern = 0 ∧ backslashes replacement = 0) := by
  have exactly (input : Text) : splitSedParts input delimiter = sedParts delimiter input ↔
      (sedCuts delimiter input).length < 2 ∨ ¬ DoublyEscaped delimiter input := by
    rw [sedCuts_length_lt delimiter]
    constructor
    · intro same
      by_contra neither
      obtain ⟨cut, double⟩ := not_or.mp neither
      obtain ⟨parts, split⟩ := Option.ne_none_iff_exists'.mp cut
      -- Both scans read the same characters, but one of them took more backslashes away.
      have lost := (pairEscapes_le other input).2 (not_not.mp double)
      have scanned := weigh_splitSedLoop delimiter [] [] input
      have paired := weigh_pairLoop delimiter [] [] input
      rw [weigh_threeParts (same.trans split)] at scanned
      rw [sedParts_pairLoop other] at split
      rw [weigh_threeParts split] at paired
      omega
    · rintro (few | single)
      · have scanned := splitSedLoop_parts_le other input (Nat.le_refl ([] : List Text).length) [] []
        rw [few, splitSedParts_eq, threeParts_few (scanned.trans_lt (pairLoop_few other few))]
      · rw [splitSedParts_eq, splitSedLoop_eq other single, sedParts_pairLoop other]
  refine ⟨exactly, ?_⟩
  intro pattern replacement flags first second clean
  have parts : sedParts delimiter (pattern ++ delimiter :: (replacement ++ delimiter :: flags)) =
      some (bareDelimiters delimiter pattern, bareDelimiters delimiter replacement, flags) := by
    rw [sedParts_eq other, first.firstCut other, Option.bind_some, second.firstCut other,
      Option.map_some, bareDelimiters_clean clean]
  rw [← parts, exactly, sedCuts_length_lt delimiter, parts, first.doublyEscaped other,
    second.doublyEscaped other, not_or, not_or]
  rw [or_iff_right nofun, Nat.not_lt, Nat.le_zero, Nat.not_lt, Nat.le_zero,
    and_iff_left (not_doublyEscaped_clean clean)]

/-- `s/a\\/b/` has the pattern `a\\`, with a backslash that is escaped. -/
theorem escapedBackslash_unsplit : sedParts '/' "a\\\\/b/".toList ≠ none ∧
    splitSedParts "a\\\\/b/".toList '/' = none := by
  decide

theorem splitSedParts_slash :
    splitSedParts ("a".toList ++ '/' :: ("b".toList ++ '/' :: "g".toList)) '/' =
        some (bareDelimiters '/' "a".toList, bareDelimiters '/' "b".toList, "g".toList) ↔
      backslashes "a".toList = 0 ∧ backslashes "b".toList = 0 :=
  (splitSedParts_iff (by decide)).2 "a".toList "b".toList "g".toList ⟨by decide, by decide⟩
    ⟨by decide, by decide⟩ (by decide)

end TinySandbox.Sandbox
