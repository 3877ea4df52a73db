/-
This file shows when `cat` treats its inputs as one stream.
A file that ends in the middle of a line starts the next file at a new line.
-/

import TinySandbox.Library.Text
import TinySandbox.Proof.Sandbox.CatInputs

namespace TinySandbox.Sandbox
open Library

section Bytes
variable {flags : CatFlags} {cursor joined apart : CatCursor} {byte : UInt8}

theorem catByte_content (other : byte ≠ newline) (inside : cursor.midLine) :
    catByte flags cursor byte = (catContent flags [byte], cursor) := by
  unfold catByte
  rw [if_neg other, if_pos inside]

/-- The number that a line of the kind is given. -/
def catPrefix (flags : CatFlags) (blank : Bool) (line : Nat) : Bytes :=
  if catNumbered flags blank then catNumber (line + 1) else []

def catNext (flags : CatFlags) (blank : Bool) (line : Nat) : Nat :=
  if catNumbered flags blank then line + 1 else line

theorem catByte_start (other : byte ≠ newline) (outside : cursor.midLine = false) :
    catByte flags cursor byte = (catPrefix flags false cursor.line ++ catContent flags [byte], {
      line := catNext flags false cursor.line
      prevBlank := false
      midLine := true }) := by
  unfold catByte catLine catPrefix catNext
  rw [if_neg other, if_neg (by rw [outside]; exact Bool.false_ne_true)]
  cases numbered : catNumbered flags false <;> simp [numbered]

theorem catByte_squeezed (outside : cursor.midLine = false) (squeeze : flags.squeeze)
    (blank : cursor.prevBlank) : catByte flags cursor newline = ([], cursor) := by
  rw [catByte_blank outside, catLine, if_pos ⟨squeeze, ⟨rfl, rfl⟩, blank⟩]
  obtain ⟨state, midLine⟩ := cursor
  subst outside
  rfl

theorem catByte_kept (outside : cursor.midLine = false)
    (kept : ¬ (flags.squeeze ∧ cursor.prevBlank)) :
    catByte flags cursor newline = (catPrefix flags true cursor.line ++ catEnd flags, {
      line := catNext flags true cursor.line
      prevBlank := true
      midLine := false }) := by
  rw [catByte_blank outside]
  unfold catLine catPrefix catNext catContent
  rw [if_neg fun ⟨squeeze, _, blank⟩ => kept ⟨squeeze, blank⟩]
  cases numbered : catNumbered flags true <;> simp [numbered]

/-- A blank line ends what it is in. -/
theorem catByte_quiet (quiet : cursor.midLine → cursor.prevBlank = false) (byte : UInt8)
    (inside : (catByte flags cursor byte).2.midLine) :
    (catByte flags cursor byte).2.prevBlank = false := by
  by_cases other : byte = newline
  · rw [other, catByte_newline] at inside
    cases inside
  · cases here : cursor.midLine with
    | true =>
        rw [catByte_content other here]
        exact quiet here
    | false => rw [catByte_start other here]

/-- The cursor of the joined files and the cursor of the separate files write the same. -/
inductive Level (flags : CatFlags) (behind : Bytes) : CatCursor → CatCursor → Prop
  | same {cursor : CatCursor} (quiet : cursor.midLine → cursor.prevBlank = false) :
      Level flags behind cursor cursor
  | broken {line : Nat} (joins : behind ≠ [] → CatJoins flags behind) :
      Level flags behind { line, prevBlank := false, midLine := true }
        { line, prevBlank := false, midLine := false }
  | blank {line : Nat} (squeeze : flags.squeeze → behind.head? ≠ some newline) :
      Level flags behind { line, prevBlank := false, midLine := false }
        { line, prevBlank := true, midLine := false }

theorem level_step {behind : Bytes} (level : Level flags (byte :: behind) joined apart) :
    (catByte flags joined byte).1 = (catByte flags apart byte).1 ∧
      Level flags behind (catByte flags joined byte).2 (catByte flags apart byte).2 := by
  cases level with
  | same quiet => exact ⟨rfl, .same (catByte_quiet quiet byte)⟩
  | broken joins =>
      obtain ⟨number, nonblank, squeeze⟩ := joins (List.cons_ne_nil _ _)
      by_cases ends : byte = newline
      · subst ends
        have plain : catNumbered flags true = false := by
          unfold catNumbered
          cases every : flags.number with
          | true => rw [number every]; rfl
          | false => exact ite_self false
        rw [catByte_end rfl, catByte_kept rfl fun ⟨_, blank⟩ => Bool.false_ne_true blank]
        unfold catPrefix catNext
        rw [plain]
        refine ⟨rfl, .blank fun squeezed head => squeeze squeezed ?_⟩
        obtain ⟨rest, rfl⟩ := List.head?_eq_some_iff.mp head
        exact ⟨rest, rfl⟩
      · have plain : catNumbered flags false = false := by
          unfold catNumbered
          cases some : flags.numberNonblank with
          | true => exact absurd (Option.some.inj (nonblank some)) ends
          | false =>
              cases every : flags.number with
              | true => rw [number every] at some; cases some
              | false => rfl
        rw [catByte_content ends rfl, catByte_start ends rfl]
        unfold catPrefix catNext
        rw [plain]
        exact ⟨rfl, .same fun _ => rfl⟩
  | blank squeeze =>
      by_cases ends : byte = newline
      · subst ends
        have kept (blank : Bool) : ¬ (flags.squeeze ∧ blank) := fun ⟨squeezed, _⟩ =>
          squeeze squeezed rfl
        rw [catByte_kept rfl (kept _), catByte_kept rfl (kept _)]
        exact ⟨rfl, .same fun _ => by contradiction⟩
      · rw [catByte_start ends rfl, catByte_start ends rfl]
        exact ⟨rfl, .same fun _ => rfl⟩

theorem level_run {stream behind : Bytes} (level : Level flags (stream ++ behind) joined apart) :
    (catBytes flags stream joined).1 = (catBytes flags stream apart).1 ∧
      Level flags behind (catBytes flags stream joined).2 (catBytes flags stream apart).2 := by
  induction stream generalizing joined apart with
  | nil => exact ⟨rfl, level⟩
  | cons byte rest ih =>
      obtain ⟨same, next⟩ := level_step level
      obtain ⟨later, last⟩ := ih next
      exact ⟨congrArg₂ (· ++ ·) same later, last⟩

theorem level_boundary {behind : Bytes} (level : Level flags behind joined apart)
    (joins : joined.midLine → behind ≠ [] → CatJoins flags behind) :
    Level flags behind joined { apart with midLine := false } := by
  cases level with
  | same quiet =>
      obtain ⟨⟨line, prevBlank⟩, midLine⟩ := joined
      cases midLine with
      | false => exact .same quiet
      | true =>
          obtain rfl : prevBlank = false := quiet rfl
          exact .broken (joins rfl)
  | broken before => exact .broken before
  | blank squeeze => exact .blank squeeze

/-- The place in the line is told by the last byte. -/
theorem midLine_iff (stream : Bytes) :
    (catBytes flags stream {}).2.midLine ↔
      ∃ front byte, stream = front ++ [byte] ∧ byte ≠ newline := by
  rcases List.eq_nil_or_concat stream with rfl | ⟨front, last, rfl⟩
  · refine iff_of_false Bool.false_ne_true ?_
    rintro ⟨front, byte, other, -⟩
    exact List.append_ne_nil_of_right_ne_nil _ (List.cons_ne_nil _ _) other.symm
  · rw [List.concat_eq_append, catBytes_append, catBytes_single]
    by_cases ends : last = newline
    · rw [ends, catByte_newline]
      refine iff_of_false Bool.false_ne_true ?_
      rintro ⟨other, byte, same, different⟩
      exact different (List.head_eq_of_cons_eq (List.append_inj_right' same rfl)).symm
    · refine iff_of_true ?_ ⟨front, last, rfl, ends⟩
      generalize (catBytes flags front {}).2 = cursor
      cases inside : cursor.midLine with
      | true => rwa [catByte_content ends inside]
      | false => rw [catByte_start ends inside]

/-- The files apart write what the joined files write when no broken line shows. -/
theorem catApart_joins (done : List Bytes) {files : List Bytes}
    (joins : ∀ behind, BrokenLine (done ++ files) behind → CatJoins flags behind)
    (level : Level flags files.flatten (catBytes flags done.flatten {}).2 apart) :
    (catApart flags files apart).1 =
      (catBytes flags files.flatten (catBytes flags done.flatten {}).2).1 := by
  induction files generalizing done apart with
  | nil => rfl
  | cons file files ih =>
      rw [List.flatten_cons] at level ⊢
      obtain ⟨same, next⟩ := level_run level
      have whole : (catBytes flags file (catBytes flags done.flatten {}).2).2 =
          (catBytes flags (done ++ [file]).flatten {}).2 := by
        rw [List.flatten_append, List.flatten_singleton, catBytes_append]
      rw [catBytes_append, catApart, same]
      rw [whole] at next ⊢
      have again : done ++ file :: files = done ++ [file] ++ files := by simp
      rw [again] at joins
      refine congrArg (_ ++ ·) (ih _ joins (level_boundary next fun inside filled => ?_))
      exact joins _ ⟨done ++ [file], files, rfl, rfl, filled, (midLine_iff _).mp inside⟩

end Bytes

section Marks
variable {flags : CatFlags} {cursor joined apart : CatCursor} {byte : UInt8}

/-- The tabs of some output beyond its newlines. -/
def marks (bytes : Bytes) : Int := (bytes.count tab : Int) - bytes.count newline

theorem marks_append (first second : Bytes) : marks (first ++ second) = marks first + marks second := by
  unfold marks
  rw [List.count_append, List.count_append]
  push_cast
  omega

theorem marks_eq_zero {bytes : Bytes} (noTab : tab ∉ bytes) (noNewline : newline ∉ bytes) :
    marks bytes = 0 := by
  unfold marks
  rw [List.count_eq_zero.mpr noTab, List.count_eq_zero.mpr noNewline]
  rfl

/-- A space or a digit has no mark. -/
theorem utf8_plain {symbol : Char} (plain : symbol = ' ' ∨ symbol.isDigit) {byte : UInt8}
    (inside : byte ∈ String.utf8EncodeChar symbol) : byte ≠ tab ∧ byte ≠ newline := by
  have range : 32 ≤ symbol.toNat ∧ symbol.toNat ≤ 57 := by
    rcases plain with rfl | digit
    · decide
    · have ends := Char.isDigit_iff_toNat.mp digit
      rw [show '0'.toNat = 48 from rfl, show '9'.toNat = 57 from rfl] at ends
      omega
  constructor
  · rintro rfl
    have same := toNat_eq_of_mem_utf8EncodeChar inside (by decide)
    exact absurd (range.1.trans_eq same) (by decide)
  · rintro rfl
    have same := toNat_eq_of_mem_utf8EncodeChar inside (by decide)
    exact absurd (range.1.trans_eq same) (by decide)

/-- The tab behind the number is its only mark. -/
theorem marks_number (line : Nat) : marks (catNumber line) = 1 := by
  have quiet (digits : Text) (plain : ∀ digit ∈ digits, digit = ' ' ∨ digit.isDigit) :
      marks (textBytes digits) = 0 := by
    refine marks_eq_zero ?_ ?_
    · intro inside
      obtain ⟨digit, found, byte⟩ := List.mem_flatMap.mp inside
      exact (utf8_plain (plain digit found) byte).1 rfl
    · intro inside
      obtain ⟨digit, found, byte⟩ := List.mem_flatMap.mp inside
      exact (utf8_plain (plain digit found) byte).2 rfl
  unfold catNumber textBytes
  rw [List.flatMap_append, marks_append]
  have front := quiet (List.replicate (6 - (toString line).toList.length) ' ' ++ (toString line).toList)
    fun digit inside => ?_
  · exact (congrArg (· + _) front).trans (by decide)
  · rcases List.mem_append.mp inside with padding | number
    · exact .inl (List.eq_of_mem_replicate padding)
    · refine .inr (Nat.isDigit_of_mem_toDigits (by omega) le_rfl (n := line) ?_)
      rwa [← Nat.toList_repr]

theorem marks_numbering (flags : CatFlags) (blank : Bool) (line : Nat) :
    marks (catPrefix flags blank line) = if catNumbered flags blank then 1 else 0 := by
  unfold catPrefix
  split_ifs
  · exact marks_number _
  · rfl

theorem marks_end (flags : CatFlags) : marks (catEnd flags) = -1 := by
  unfold catEnd
  split_ifs
  · decide
  · decide

/-- The separate files are at a new line or in the middle of the same one. -/
structure Behind (joined apart : CatCursor) : Prop where
  blank : joined.prevBlank → apart.prevBlank
  quiet : joined.midLine → joined.prevBlank = false
  inside : apart.midLine → joined.midLine

theorem marks_numbering_nonneg (flags : CatFlags) (blank : Bool) (line : Nat) :
    0 ≤ marks (catPrefix flags blank line) := by
  rw [marks_numbering]
  split_ifs <;> decide

theorem behind_newline (flags : CatFlags) (behind : Behind joined apart) :
    marks (catByte flags joined newline).1 ≤ marks (catByte flags apart newline).1 ∧
      Behind (catByte flags joined newline).2 (catByte flags apart newline).2 := by
  obtain ⟨blank, quiet, inside⟩ := behind
  cases there : apart.midLine with
  | true =>
      rw [catByte_end there, catByte_end (inside there)]
      exact ⟨le_rfl, blank, nofun, nofun⟩
  | false =>
      have numbered := marks_numbering_nonneg flags true apart.line
      cases here : joined.midLine with
      | true =>
          rw [catByte_end here]
          by_cases squeezed : flags.squeeze ∧ apart.prevBlank
          · rw [catByte_squeezed there squeezed.1 squeezed.2]
            refine ⟨?_, blank, nofun, fun other => by rwa [there] at other⟩
            exact (marks_end flags).trans_le (show (-1 : Int) ≤ 0 by decide)
          · rw [catByte_kept there squeezed]
            refine ⟨?_, fun _ => rfl, nofun, nofun⟩
            rw [marks_append]
            exact le_add_of_nonneg_left numbered
      | false =>
          by_cases squeezed : flags.squeeze ∧ apart.prevBlank
          · rw [catByte_squeezed there squeezed.1 squeezed.2]
            by_cases also : flags.squeeze ∧ joined.prevBlank
            · rw [catByte_squeezed here also.1 also.2]
              exact ⟨le_rfl, blank, quiet, inside⟩
            · rw [catByte_kept here also]
              refine ⟨?_, fun _ => squeezed.2, nofun, fun other => by rwa [there] at other⟩
              rw [marks_append, marks_end, marks_numbering]
              change _ ≤ (0 : Int)
              split_ifs <;> decide
          · rw [catByte_kept there squeezed,
              catByte_kept here fun ⟨squeeze, was⟩ => squeezed ⟨squeeze, blank was⟩]
            refine ⟨?_, fun _ => rfl, nofun, nofun⟩
            rw [marks_append, marks_append, marks_numbering, marks_numbering]

theorem behind_content (behind : Behind joined apart) (other : byte ≠ newline) :
    marks (catByte flags joined byte).1 ≤ marks (catByte flags apart byte).1 ∧
      Behind (catByte flags joined byte).2 (catByte flags apart byte).2 := by
  obtain ⟨blank, quiet, inside⟩ := behind
  cases there : apart.midLine with
  | true =>
      rw [catByte_content other there, catByte_content other (inside there)]
      exact ⟨le_rfl, blank, quiet, inside⟩
  | false =>
      rw [catByte_start other there]
      cases here : joined.midLine with
      | true =>
          rw [catByte_content other here]
          refine ⟨?_, fun was => ?_, quiet, fun _ => here⟩
          · have numbered := marks_numbering_nonneg flags false apart.line
            rw [marks_append]
            exact le_add_of_nonneg_left numbered
          · rw [quiet here] at was
            cases was
      | false =>
          rw [catByte_start other here]
          refine ⟨?_, nofun, fun _ => rfl, fun _ => rfl⟩
          rw [marks_append, marks_append, marks_numbering, marks_numbering]

/-- The separate files never fall behind in marks. -/
theorem behind_step (flags : CatFlags) (behind : Behind joined apart) (byte : UInt8) :
    marks (catByte flags joined byte).1 ≤ marks (catByte flags apart byte).1 ∧
      Behind (catByte flags joined byte).2 (catByte flags apart byte).2 := by
  by_cases ends : byte = newline
  · rw [ends]
    exact behind_newline flags behind
  · exact behind_content behind ends

theorem behind_run (flags : CatFlags) (behind : Behind joined apart) (stream : Bytes) :
    marks (catBytes flags stream joined).1 ≤ marks (catBytes flags stream apart).1 ∧
      Behind (catBytes flags stream joined).2 (catBytes flags stream apart).2 := by
  induction stream generalizing joined apart with
  | nil => exact ⟨le_rfl, behind⟩
  | cons byte rest ih =>
      obtain ⟨here, next⟩ := behind_step flags behind byte
      obtain ⟨later, last⟩ := ih next
      rw [catBytes, catBytes, marks_append, marks_append]
      exact ⟨add_le_add here later, last⟩

theorem behind_files (flags : CatFlags) (behind : Behind joined apart) (files : List Bytes) :
    marks (catBytes flags files.flatten joined).1 ≤ marks (catApart flags files apart).1 ∧
      Behind (catBytes flags files.flatten joined).2 (catApart flags files apart).2 := by
  induction files generalizing joined apart with
  | nil => exact ⟨le_rfl, behind⟩
  | cons file files ih =>
      obtain ⟨here, next⟩ := behind_run flags behind file
      have moved : Behind (catBytes flags file joined).2
          { (catBytes flags file apart).2 with midLine := false } := ⟨next.blank, next.quiet, nofun⟩
      obtain ⟨later, last⟩ := ih moved
      rw [List.flatten_cons, catBytes_append, catApart, marks_append, marks_append]
      exact ⟨add_le_add here later, last⟩

theorem catApart_outside {files : List Bytes} (outside : cursor.midLine = false) :
    (catApart flags files cursor).2.midLine = false := by
  induction files generalizing cursor with
  | nil => exact outside
  | cons file files ih => exact ih rfl

theorem catApart_append (first second : List Bytes) (cursor : CatCursor) :
    catApart flags (first ++ second) cursor =
      ((catApart flags first cursor).1 ++ (catApart flags second (catApart flags first cursor).2).1,
        (catApart flags second (catApart flags first cursor).2).2) := by
  induction first generalizing cursor with
  | nil => rfl
  | cons file files ih => rw [List.cons_append, catApart, ih, catApart, List.append_assoc]

/-- From the start of a line the empty files change nothing. -/
theorem catApart_byte (flags : CatFlags) {files : List Bytes} {behind : Bytes}
    (split : files.flatten = byte :: behind) (outside : cursor.midLine = false) :
    ∃ left, left.flatten = behind ∧ (catApart flags files cursor).1 =
      (catByte flags cursor byte).1 ++ (catApart flags left (catByte flags cursor byte).2).1 := by
  induction files with
  | nil => cases split
  | cons file files ih =>
      cases file with
      | nil =>
          obtain ⟨left, whole, same⟩ := ih split
          refine ⟨left, whole, ?_⟩
          rw [← same, catApart, catBytes]
          obtain ⟨state, midLine⟩ := cursor
          subst outside
          rfl
      | cons first rest =>
          obtain ⟨rfl, whole⟩ := List.cons.inj split
          refine ⟨rest :: files, whole, ?_⟩
          rw [catApart, catBytes, catApart, List.append_assoc]

/-- The second of two newlines shows that the first ended no blank line. -/
theorem catApart_squeezes {files : List Bytes} {stream : Bytes} (behind : Behind joined apart)
    (squeeze : flags.squeeze) (split : files.flatten = newline :: stream)
    (kept : joined.prevBlank = false) (blank : apart.prevBlank)
    (here : joined.midLine = false) (there : apart.midLine = false)
    (plain : catNumbered flags true = false) :
    marks (catBytes flags files.flatten joined).1 < marks (catApart flags files apart).1 := by
  obtain ⟨left, rest, ran⟩ := catApart_byte flags split there
  have next := (behind_newline flags behind).2
  have later := (behind_files flags next left).1
  rw [split, catBytes, ran, marks_append, marks_append, ← rest]
  refine add_lt_add_of_lt_of_le ?_ later
  rw [catByte_squeezed there squeeze blank,
    catByte_kept here fun both => Bool.false_ne_true (kept.symm.trans both.2), marks_append,
    marks_numbering, marks_end, plain, if_neg Bool.false_ne_true]
  exact show (0 : Int) + -1 < 0 by decide

/-- A broken line that shows leaves a mark. -/
theorem catApart_breaks {files : List Bytes} (behind : Behind joined apart)
    (inside : joined.midLine) (outside : apart.midLine = false) (filled : files.flatten ≠ [])
    (breaks : ¬ CatJoins flags files.flatten) :
    marks (catBytes flags files.flatten joined).1 < marks (catApart flags files apart).1 := by
  obtain ⟨byte, stream, split⟩ := List.exists_cons_of_ne_nil filled
  obtain ⟨left, rest, ran⟩ := catApart_byte flags split outside
  obtain ⟨here, next⟩ := behind_step flags behind byte
  have later := (behind_files flags next left).1
  rw [split] at breaks
  rw [split, catBytes, ran, marks_append, marks_append, ← rest]
  by_cases ends : byte = newline
  · subst ends
    by_cases squeezed : flags.squeeze ∧ apart.prevBlank
    · refine add_lt_add_of_lt_of_le ?_ later
      rw [catByte_end inside, catByte_squeezed outside squeezed.1 squeezed.2]
      exact (marks_end flags).trans_lt (show (-1 : Int) < 0 by decide)
    · cases numbered : catNumbered flags true with
      | true =>
          refine add_lt_add_of_lt_of_le ?_ later
          rw [catByte_end inside, catByte_kept outside squeezed, marks_append, marks_numbering, numbered]
          exact lt_add_of_pos_left _ (show (0 : Int) < 1 by decide)
      | false =>
          have pair : flags.squeeze ∧ [newline, newline] <+: newline :: stream := by
            by_contra none
            refine breaks ⟨fun every => ?_, fun _ => rfl, fun squeeze pair => none ⟨squeeze, pair⟩⟩
            unfold catNumbered at numbered
            cases some : flags.numberNonblank with
            | true => rfl
            | false =>
                rw [some, every] at numbered
                cases numbered
          obtain ⟨squeeze, tail, second⟩ := pair
          have whole : left.flatten = newline :: tail := rest.trans (List.cons.inj second).2.symm
          refine add_lt_add_of_le_of_lt here ?_
          refine catApart_squeezes next squeeze whole ?_ ?_ (catByte_newline _) (catByte_newline _)
            numbered
          · rw [catByte_end inside]
            exact behind.quiet inside
          · rw [catByte_kept outside squeezed]
  · refine add_lt_add_of_lt_of_le ?_ later
    have numbered : catNumbered flags false = true := by
      by_contra plain
      refine breaks ⟨fun every => ?_, fun some => ?_, fun _ pair => ?_⟩
      · unfold catNumbered at plain
        rw [every] at plain
        refine absurd ?_ plain
        cases flags.numberNonblank <;> rfl
      · unfold catNumbered at plain
        rw [if_pos some] at plain
        exact absurd rfl plain
      · obtain ⟨tail, same⟩ := pair
        exact absurd (List.cons.inj same).1.symm ends
    rw [catByte_content ends inside, catByte_start ends outside, marks_append, marks_numbering, numbered]
    exact lt_add_of_pos_left _ (show (0 : Int) < 1 by decide)

theorem catApart_eq_iff (flags : CatFlags) (contents : List Bytes) :
    (catApart flags contents {}).1 = (catBytes flags contents.flatten {}).1 ↔
      ∀ behind, BrokenLine contents behind → CatJoins flags behind := by
  constructor
  · rintro same behind ⟨before, files, rfl, rfl, filled, ends⟩
    by_contra breaks
    have start : Behind {} {} := ⟨nofun, nofun, nofun⟩
    obtain ⟨here, reached⟩ := behind_files flags start before
    have later := catApart_breaks reached ((midLine_iff _).mpr ends) (catApart_outside rfl) filled breaks
    rw [catApart_append, List.flatten_append, catBytes_append] at same
    have equal := congrArg marks same
    rw [marks_append, marks_append] at equal
    omega
  · intro joins
    have level : Level flags contents.flatten (catBytes flags ([] : List Bytes).flatten {}).2 {} :=
      .same nofun
    exact catApart_joins [] joins level

end Marks

section Files
variable {flags : CatFlags} {openFile : Text → VfsResult (List (Except Errno Bytes))}
  {stdin : List (Except Errno Bytes)}

theorem catFiles_plain (plain : flags.plain) {paths : List Text} {contents : List Bytes}
    (holds : List.Forall₂ (Provides openFile flags) paths contents) (run : CatExit Bytes) :
    (catFiles catAccept openFile flags paths stdin run).stdout = run.stdout ++ contents.flatten := by
  induction holds generalizing run with
  | nil => rw [catFiles, List.flatten_nil, List.append_nil]
  | cons here _ ih =>
      obtain ⟨named, reads, opened, delivered⟩ := here
      obtain ⟨left, ran⟩ := catStream_plain plain delivered run.stdout run.state
      rw [catFiles, if_neg named, opened]
      dsimp only
      rw [ran]
      dsimp only
      rw [if_neg named, ih, List.flatten_cons, List.append_assoc]

theorem catFiles_delivers (fancy : ¬ flags.plain) {paths : List Text} {contents : List Bytes}
    (holds : List.Forall₂ (Provides openFile flags) paths contents)
    (short : ∀ content ∈ contents, ∀ line ∈ lines content, tooLong line = false)
    (run : CatExit Bytes) :
    (catFiles catAccept openFile flags paths stdin run).stdout =
      run.stdout ++ (catApart flags contents { run.state with midLine := false }).1 := by
  induction holds generalizing run with
  | nil => rw [catFiles, catApart, List.append_nil]
  | cons here _ ih =>
      obtain ⟨named, reads, opened, delivered⟩ := here
      obtain ⟨fits, rest⟩ := List.forall_mem_cons.mp short
      obtain ⟨left, ran⟩ := catStream_delivers fancy delivered fits run.stdout run.state
      rw [catFiles, if_neg named, opened]
      dsimp only
      rw [ran]
      dsimp only
      rw [if_neg named, ih rest, catApart, List.append_assoc]

/-- The files write what their one joined file writes when no broken line shows. -/
theorem catFiles_joined_iff (flags : CatFlags) (contents : List Bytes)
    (short : ∀ content ∈ contents.flatten :: contents, ∀ line ∈ lines content, tooLong line = false)
    (paths : List Text) (holds : List.Forall₂ (Provides openFile flags) paths contents)
    (joined : Text) (whole : Provides openFile flags joined contents.flatten)
    (stdin : List (Except Errno Bytes)) :
    (catFiles catAccept openFile flags paths stdin
        { exit := 0, stdout := [], stderr := [], state := {} }).stdout =
        (catFiles catAccept openFile flags [joined] stdin
          { exit := 0, stdout := [], stderr := [], state := {} }).stdout ↔
      ∀ behind, BrokenLine contents behind → CatJoins flags behind := by
  have one := List.Forall₂.cons whole List.Forall₂.nil
  obtain ⟨single, each⟩ := List.forall_mem_cons.mp short
  by_cases plain : flags.plain
  · rw [catFiles_plain plain holds, catFiles_plain plain one, List.flatten_singleton]
    refine iff_of_true rfl fun behind _ => ?_
    unfold CatFlags.plain at plain
    simp only [Bool.not_eq_true', Bool.or_eq_false_iff] at plain
    obtain ⟨⟨⟨⟨number, nonblank⟩, squeeze⟩, -⟩, -⟩ := plain
    refine ⟨?_, ?_, ?_⟩
    · rw [number]; exact nofun
    · rw [nonblank]; exact nofun
    · rw [squeeze]; exact nofun
  · rw [catFiles_delivers plain holds each, catFiles_delivers plain one (by simpa using single),
      List.append_cancel_left_eq]
    refine Iff.trans (Eq.congr_right ?_) (catApart_eq_iff flags contents)
    rw [catApart, catApart, List.append_nil]

/-- The first file has no newline, and the last file is the two files joined. -/
def twoFiles (path : Text) : VfsResult (List (Except Errno Bytes)) :=
  if path = ['f'] then .ok [.ok [97]]
  else if path = ['g'] then .ok [.ok [98, 10]]
  else .ok [.ok [97, 98, 10]]

theorem twoFiles_holds (flags : CatFlags) :
    List.Forall₂ (Provides twoFiles flags) [['f'], ['g']] [[97], [98, 10]] ∧
      Provides twoFiles flags ['w'] [97, 98, 10] := by
  have fits (chunk : Bytes) (small : chunk ≠ [] ∧ chunk.length ≤ 8192) :
      ∀ other ∈ [chunk], other ≠ [] ∧ other.length ≤ if flags.plain then 65536 else 8192 := by
    intro other inside
    rw [List.mem_singleton.mp inside]
    refine ⟨small.1, ?_⟩
    split_ifs
    · exact small.2.trans (by decide)
    · exact small.2
  refine ⟨.cons ⟨by decide, _, rfl, [[97]], rfl, rfl, fits _ (by decide)⟩
    (.cons ⟨by decide, _, rfl, [[98, 10]], rfl, rfl, fits _ (by decide)⟩ .nil), ?_⟩
  exact ⟨by decide, _, rfl, [[97, 98, 10]], rfl, rfl, fits _ (by decide)⟩

theorem catFiles_ends_joined :
    (catFiles catAccept twoFiles { showEnds := true } [['f'], ['g']] []
        { exit := 0, stdout := [], stderr := [], state := {} }).stdout =
      (catFiles catAccept twoFiles { showEnds := true } [['w']] []
        { exit := 0, stdout := [], stderr := [], state := {} }).stdout :=
  (catFiles_joined_iff { showEnds := true } [[97], [98, 10]] (by decide) _ (twoFiles_holds _).1 _
    (twoFiles_holds _).2 []).mpr fun _ _ => ⟨nofun, nofun, nofun⟩

/-- The number of the second file stands in the middle of the line. -/
theorem catFiles_number_apart :
    (catFiles catAccept twoFiles { number := true } [['f'], ['g']] []
        { exit := 0, stdout := [], stderr := [], state := {} }).stdout =
      textBytes "     1\ta     2\tb\n".toList ∧
    (catFiles catAccept twoFiles { number := true } [['w']] []
        { exit := 0, stdout := [], stderr := [], state := {} }).stdout =
      textBytes "     1\tab\n".toList ∧
    textBytes "     1\ta     2\tb\n".toList ≠ textBytes "     1\tab\n".toList := by
  have fancy : ¬ CatFlags.plain { number := true } := by decide
  refine ⟨?_, ?_, by decide⟩
  · rw [catFiles_delivers fancy (twoFiles_holds _).1 (by decide)]
    decide
  · rw [catFiles_delivers fancy (.cons (twoFiles_holds _).2 .nil) (by decide)]
    decide

end Files

end TinySandbox.Sandbox
