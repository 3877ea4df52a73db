/-
This file shows when `sort` writes the lines of its inputs in their order.
The inputs are joined before they are cut, so a file must not end in the middle of a line.
-/

import TinySandbox.Library.Text
import TinySandbox.Proof.Sandbox.Lines
import TinySandbox.Proof.Sandbox.Reads
import TinySandbox.Specification.Streams

namespace TinySandbox.Sandbox
open Library Library.Task

section Decoding

theorem textBytes_cons (symbol : Char) (text : Text) :
    textBytes (symbol :: text) = String.utf8EncodeChar symbol ++ textBytes text := rfl

/-- Valid bytes are decoded to their text. -/
theorem fromUtf8Lossy_textBytes (text : Text) : fromUtf8Lossy (textBytes text) = text := by
  induction text with
  | nil =>
      rw [fromUtf8Lossy, dif_pos]
      rfl
  | cons symbol text ih =>
      have size := String.length_utf8EncodeChar symbol
      have filled : textBytes (symbol :: text) ≠ [] := by
        have positive := symbol.utf8Size_pos
        rw [textBytes_cons]
        intro empty
        rw [(List.append_eq_nil_iff.mp empty).1, List.length_nil] at size
        omega
      rw [fromUtf8Lossy, dif_neg filled]
      have first : (textBytes (symbol :: text)).toByteArray.utf8DecodeChar? 0 = some symbol := by
        rw [textBytes_cons, List.toByteArray_append]
        exact ByteArray.utf8DecodeChar?_utf8EncodeChar_append
      rw [first]
      dsimp only
      rw [textBytes_cons, ← size, List.drop_left, ih]

theorem textBytes_injective : Function.Injective textBytes :=
  Function.LeftInverse.injective fromUtf8Lossy_textBytes

theorem textBytes_append (first second : Text) :
    textBytes (first ++ second) = textBytes first ++ textBytes second := List.flatMap_append

theorem mem_of_mem_textBytes {text : Text} {byte : UInt8} (inside : byte ∈ textBytes text)
    (small : byte.toNat < 128) : Char.ofNat byte.toNat ∈ text := by
  obtain ⟨symbol, found, here⟩ := List.mem_flatMap.mp inside
  rw [← toNat_eq_of_mem_utf8EncodeChar here small, Char.ofNat_toNat]
  exact found

theorem newline_not_mem_textBytes {text : Text} (free : Free (· = '\n') text) :
    newline ∉ textBytes text := fun inside => by
  have stops := free _ (mem_of_mem_textBytes inside (by decide))
  exact absurd stops (by decide)

/-- The lines of the bytes are the bytes of the lines. -/
theorem lines_textBytes (text : Text) :
    lines (textBytes text) = (splitAfter (· = '\n') text).map textBytes := by
  induction text using parts_induction (· = '\n') with
  | nil => rfl
  | free body free filled =>
      have more : textBytes body ≠ [] := fun empty => filled (textBytes_injective empty)
      rw [lines_last (newline_not_mem_textBytes free) more, splitAfter_free free filled]
      rfl
  | cut body symbol tail free ends ih =>
      have stop : textBytes (body ++ symbol :: tail) = textBytes body ++ newline :: textBytes tail := by
        rw [textBytes_append, of_decide_eq_true ends]
        rfl
      rw [stop, lines_cut (newline_not_mem_textBytes free), ih, splitAfter_cut free ends,
        of_decide_eq_true ends, List.map_cons, textBytes_append]
      rfl

theorem takeWhile_line {body : Bytes} (absent : newline ∉ body) (tail : Bytes) :
    (body ++ newline :: tail).takeWhile (· ≠ newline) = body := by
  have keeps : ∀ byte ∈ body, decide (byte ≠ newline) = true := by
    intro byte inside
    rw [decide_eq_true_eq]
    rintro rfl
    exact absent inside
  rw [List.takeWhile_append_of_pos keeps, List.takeWhile_cons_of_neg (by simp), List.append_nil]

theorem textBytes_stripLineEnd {text line : Text} (returns : '\r' ∉ text)
    (inside : line ∈ splitAfter (· = '\n') text) :
    textBytes (stripLineEnd line) = (textBytes line).takeWhile (· ≠ newline) := by
  obtain ⟨filled, free⟩ := free_dropLast_of_mem inside
  have part : ∀ symbol ∈ line, symbol ∈ text := by
    intro symbol here
    rw [← flatten_splitAfter (· = '\n') text]
    exact List.mem_flatten.mpr ⟨line, inside, here⟩
  have absent := newline_not_mem_textBytes free
  obtain ⟨body, last, rfl⟩ : ∃ body last, line = body ++ [last] :=
    ⟨_, _, (List.dropLast_append_getLast filled).symm⟩
  rw [List.dropLast_concat] at absent
  unfold stripLineEnd
  rw [List.getLast?_concat, List.dropLast_concat]
  by_cases ends : last = '\n'
  · have kept : body.getLast? ≠ some '\r' := fun found =>
      returns (part _ (List.mem_append_left _ (List.mem_of_getLast? found)))
    rw [ends, if_pos rfl, if_neg kept, textBytes_append]
    exact (takeWhile_line absent []).symm
  · rw [if_neg fun same => ends (Option.some.inj same)]
    refine (List.takeWhile_eq_self_iff.mpr fun byte here => ?_).symm
    rw [decide_eq_true_eq]
    rintro rfl
    rw [textBytes_append] at here
    rcases List.mem_append.mp here with before | closing
    · exact absent before
    · have found := mem_of_mem_textBytes closing (by decide)
      exact ends (List.mem_singleton.mp found).symm

theorem inputLines_textBytes {text : Text} (returns : '\r' ∉ text) :
    inputLines (textBytes text) = (textLines text).map textBytes := by
  unfold inputLines textLines
  rw [lines_textBytes, List.map_map, List.map_map]
  exact List.map_congr_left fun line inside => (textBytes_stripLineEnd returns inside).symm

end Decoding

section Joining

theorem brokenLine_cons {content : Bytes} {contents : List Bytes} {behind : Bytes}
    (broken : BrokenLine contents behind) : BrokenLine (content :: contents) behind := by
  obtain ⟨before, after, rfl, rest, filled, front, byte, ends, other⟩ := broken
  refine ⟨content :: before, after, rfl, rest, filled, content ++ front, byte, ?_, other⟩
  rw [List.flatten_cons, ends, List.append_assoc]

/-- The lines of a first input come before the lines of the rest unless it ends in one. -/
theorem lines_append {content rest : Bytes} :
    lines (content ++ rest) = lines content ++ lines rest ∨
      rest ≠ [] ∧ (∃ front byte, content = front ++ [byte] ∧ byte ≠ newline) ∧
        (lines (content ++ rest)).length + 1 = (lines content).length + (lines rest).length := by
  by_cases empty : rest = []
  · rw [empty, List.append_nil]
    exact .inl (List.append_nil _).symm
  · rcases List.eq_nil_or_concat content with rfl | ⟨front, byte, rfl⟩
    · exact .inl rfl
    · rw [List.concat_eq_append, List.append_assoc]
      by_cases ends : byte = newline
      · exact .inl (splitAfter_append_stopped front (decide_eq_true ends) rest)
      · exact .inr ⟨empty, ⟨front, byte, rfl, ends⟩,
          length_splitAfter_append front (decide_eq_false ends) empty⟩

theorem inputLines_flatten {contents : List Bytes}
    (whole : ∀ behind, ¬ BrokenLine contents behind) :
    inputLines contents.flatten = contents.flatMap inputLines := by
  induction contents with
  | nil => rfl
  | cons content contents ih =>
      have later := ih fun behind broken => whole behind (brokenLine_cons broken)
      rw [List.flatten_cons, List.flatMap_cons, ← later]
      rcases @lines_append content contents.flatten with joined | ⟨filled, ends, -⟩
      · unfold inputLines
        rw [joined, List.map_append]
      · refine absurd ⟨[content], contents, rfl, rfl, filled, ?_⟩ (whole contents.flatten)
        rwa [List.flatten_singleton]

theorem length_inputLines (content : Bytes) : (inputLines content).length = (lines content).length :=
  List.length_map ..

theorem length_inputLines_flatten (contents : List Bytes) :
    (inputLines contents.flatten).length ≤ (contents.flatMap inputLines).length := by
  induction contents with
  | nil => exact Nat.le_refl 0
  | cons content contents ih =>
      rw [List.flatten_cons, List.flatMap_cons, List.length_append, length_inputLines]
      rw [length_inputLines] at ih ⊢
      rcases @lines_append content contents.flatten with joined | ⟨-, -, fewer⟩
      · rw [joined, List.length_append]
        omega
      · omega

/-- A broken line costs a line. -/
theorem length_inputLines_broken {contents : List Bytes} {behind : Bytes}
    (broken : BrokenLine contents behind) :
    (inputLines contents.flatten).length < (contents.flatMap inputLines).length := by
  obtain ⟨before, after, rfl, rfl, filled, front, byte, ends, other⟩ := broken
  have first := length_inputLines_flatten before
  have second := length_inputLines_flatten after
  rw [List.flatten_append, List.flatMap_append, List.length_append, length_inputLines]
  rw [length_inputLines] at first second
  rw [ends, List.append_assoc]
  have fewer := @length_splitAfter_append _ (· = newline) byte _ front (decide_eq_false other) filled
  rw [ends] at first
  unfold lines at *
  rw [List.singleton_append]
  omega

end Joining

section Sorting
variable (numericKey : Text → Int) {flags : SortFlags}

theorem sortBefore_bytes (bytewise : flags.numeric = false) (first second : Text) :
    sortBefore numericKey flags first second = decide (textBytes first ≤ textBytes second) := by
  unfold sortBefore
  rw [bytewise]
  exact if_neg fun ⟨numeric, _⟩ => Bool.false_ne_true numeric

theorem pairwise_sorted (flags : SortFlags) (bytewise : flags.numeric = false) (lines : List Text) :
    (lines.mergeSort (sortBefore numericKey flags)).Pairwise fun first second =>
      textBytes first ≤ textBytes second := by
  refine (List.pairwise_mergeSort ?_ ?_ lines).imp fun before => ?_
  · intro first second third
    simp only [sortBefore_bytes numericKey bytewise, decide_eq_true_eq]
    exact List.le_trans
  · intro first second
    simp only [sortBefore_bytes numericKey bytewise, Bool.or_eq_true, decide_eq_true_eq]
    exact List.le_total _ _
  · rw [sortBefore_bytes numericKey bytewise] at before
    exact of_decide_eq_true before

theorem mem_destutter_ne {α : Type} [DecidableEq α] {lines : List α} {line : α} :
    line ∈ lines.destutter (· ≠ ·) ↔ line ∈ lines := by
  have behind (kept : α) (lines : List α) :
      line ∈ lines.destutter' (· ≠ ·) kept ↔ line = kept ∨ line ∈ lines := by
    induction lines generalizing kept with
    | nil => rw [List.destutter'_nil, List.mem_singleton, or_iff_left List.not_mem_nil]
    | cons next lines ih =>
        by_cases other : kept ≠ next
        · rw [List.destutter'_cons_pos _ other, List.mem_cons, ih, List.mem_cons]
        · rw [List.destutter'_cons_neg _ other, ih, List.mem_cons, not_ne_iff.mp other]
          tauto
  cases lines with
  | nil => rfl
  | cons first lines => rw [List.destutter_cons', behind, List.mem_cons]

/-- Equal lines stand together in a sorted list. -/
theorem nodup_destutter {lines : List Text}
    (ordered : lines.Pairwise fun first second => textBytes first ≤ textBytes second) :
    (lines.destutter (· ≠ ·)).Nodup := by
  let Before (first second : Text) : Prop := textBytes first ≤ textBytes second ∧ first ≠ second
  have trans : IsTrans Text Before := by
    constructor
    intro first second third before after
    refine ⟨List.le_trans before.1 after.1, ?_⟩
    rintro rfl
    exact before.2 (textBytes_injective (List.le_antisymm before.1 after.1))
  have kept := ordered.sublist (List.destutter_sublist (· ≠ ·) lines)
  have chain : (lines.destutter (· ≠ ·)).IsChain Before := by
    have apart := List.isChain_destutter (· ≠ ·) lines
    rw [List.isChain_iff_getElem] at apart ⊢
    rw [List.pairwise_iff_getElem] at kept
    exact fun place inside => ⟨kept _ _ (by omega) inside (by omega), apart place inside⟩
  exact (List.isChain_iff_pairwise.mp chain).imp fun before => before.2

/-- The lines of the output are sorted, and they are the lines of the input. -/
theorem sortLines_output (reverse unique : Bool) (lines : List Text) :
    SortedOutput reverse unique (lines.map textBytes)
      ((sortLines numericKey { reverse, unique } lines).flatMap fun line => textBytes line ++ [newline]) := by
  let flags : SortFlags := { reverse, unique }
  let sorted := lines.mergeSort (sortBefore numericKey flags)
  let kept := if unique then sorted.destutter (· ≠ ·) else sorted
  have shape : sortLines numericKey flags lines = if reverse then kept.reverse else kept := rfl
  have ordered := pairwise_sorted numericKey flags rfl lines
  have same : sorted.Perm lines := List.mergeSort_perm lines _
  have part : kept.Sublist sorted := by
    cases unique with
    | true => exact List.destutter_sublist _ _
    | false => exact List.Sublist.refl _
  have turned : (sortLines numericKey flags lines).Perm kept := by
    rw [shape]
    split_ifs
    · exact List.reverse_perm kept
    · exact List.Perm.refl kept
  refine ⟨(sortLines numericKey flags lines).map textBytes, ?_, ?_, ?_⟩
  · rw [List.flatMap_map]
  · rw [List.pairwise_map, shape]
    cases reverse with
    | true =>
        rw [if_pos rfl, List.pairwise_reverse]
        exact (ordered.sublist part).imp fun before => before
    | false => exact ordered.sublist part
  · cases unique with
    | true =>
        refine ⟨List.Nodup.map textBytes_injective (turned.nodup_iff.mpr (nodup_destutter ordered)), ?_⟩
        intro line
        have members : ∀ text, text ∈ sortLines numericKey flags lines ↔ text ∈ lines := fun text =>
          turned.mem_iff.trans (mem_destutter_ne.trans same.mem_iff)
        rw [List.mem_map, List.mem_map]
        exact exists_congr fun text => and_congr_left fun _ => members text
    | false => exact (turned.trans same).map textBytes

end Sorting

section Files
variable (numericKey : Text → Int) {fs : Fs} {server : FileServer}

theorem settle_checkpoint :
    settle FileServer.respond fs.checkpoint server = some (.ok (), server) := settle_check

theorem settle_checkLine (index : Nat) :
    settle FileServer.respond (checkLine fs index) server = some (.ok (.ok ()), server) := by
  unfold checkLine
  split_ifs
  · exact settle_attempt settle_checkpoint
  · rfl

theorem settle_writeSorted (lines : List Text) (index : Nat) (stdout : Bytes) :
    settle FileServer.respond (writeSorted accept fs index lines stdout) server =
      some (.ok {
        exit := 0
        stdout := stdout ++ lines.flatMap fun line => textBytes line ++ [newline]
        stderr := [] }, server) := by
  induction lines generalizing index stdout with
  | nil =>
      rw [List.flatMap_nil, List.append_nil]
      rfl
  | cons line lines ih =>
      unfold writeSorted
      rw [settle_bind_ok (settle_checkLine index)]
      refine (ih (index + 1) (stdout ++ textBytes line ++ [newline])).trans ?_
      rw [List.flatMap_cons, List.append_assoc, List.append_assoc, List.append_assoc]

theorem gathered_flatten (contents : Text → Bytes) (files : List Text) (stdin : Bytes) :
    gathered contents files stdin = (inputContents contents files stdin).flatten := by
  induction files generalizing stdin with
  | nil => rfl
  | cons file files ih =>
      unfold gathered inputContents
      split_ifs <;> rw [List.flatten_cons, ih]

theorem plainContent_flatten {contents : List Bytes} (plain : ∀ content ∈ contents, PlainContent content) :
    PlainContent contents.flatten := by
  induction contents with
  | nil => exact ⟨List.not_mem_nil, [], rfl⟩
  | cons content contents ih =>
      obtain ⟨⟨clean, first, rfl⟩, rest⟩ := List.forall_mem_cons.mp plain
      obtain ⟨others, second, whole⟩ := ih rest
      rw [List.flatten_cons]
      refine ⟨fun inside => (List.mem_append.mp inside).elim clean others, first ++ second, ?_⟩
      rw [whole, textBytes_append]

/-- All inputs that fit are sorted as one. -/
theorem perform_sortFiles {files : List Text} {stdin : AsyncRead} {rest : Bytes}
    (holds : Holds server rest stdin)
    (readable : ∀ file ∈ files, file ≠ ['-'] → fs.Readable file) {limit : Nat}
    (awaits : Nat → List (List Nat)) (flags : SortFlags) (stdout : Bytes) {contents : List Bytes}
    (inputs : contents =
      inputContents (contentsFor fs server) (if files = [] then [['-']] else files) rest)
    (fits : contents.flatten.length ≤ limit) {text : Text} (whole : contents.flatten = textBytes text) :
    ∃ after, server.perform (sortFiles numericKey accept fs limit awaits flags files stdin stdout) =
      some (.ok {
        exit := 0
        stdout := stdout ++ (sortLines numericKey flags (textLines text)).flatMap fun line =>
          textBytes line ++ [newline]
        stderr := [] }, after) := by
  have named : ∀ file ∈ if files = [] then [['-']] else files, file ≠ ['-'] → fs.Readable file := by
    intro file member
    split_ifs at member
    · intro other
      exact absurd (List.mem_singleton.mp member) other
    · exact readable file member
  have start : ([] : Bytes).length ≤ limit := Nat.zero_le limit
  obtain ⟨after, read⟩ := settle_readEachInput _ holds start named "sort".toList awaits
  rw [List.nil_append, gathered_flatten, ← inputs, if_pos fits] at read
  refine ⟨after, ?_⟩
  unfold FileServer.perform sortFiles
  refine (settle_bind_ok read).trans ?_
  dsimp only
  rw [settle_bind_ok (settle_attempt settle_checkpoint), whole, fromUtf8Lossy_textBytes]
  exact settle_writeSorted _ 0 stdout

theorem newline_not_mem_inputLines {content line : Bytes} (inside : line ∈ inputLines content) :
    newline ∉ line := by
  obtain ⟨whole, -, rfl⟩ := List.mem_map.mp inside
  intro found
  simpa using List.mem_takeWhile_imp found

/-- An output has as many newlines as it has lines. -/
theorem count_newline_output {sorted : List Bytes} (free : ∀ line ∈ sorted, newline ∉ line) :
    (sorted.flatMap (· ++ [newline])).count newline = sorted.length := by
  induction sorted with
  | nil => rfl
  | cons line sorted ih =>
      obtain ⟨here, later⟩ := List.forall_mem_cons.mp free
      rw [List.flatMap_cons, List.count_append, ih later, List.count_append,
        List.count_eq_zero.mpr here, List.length_cons]
      exact Nat.add_comm _ _

/-- The lines of the inputs are sorted when no file ends in the middle of a line before others. -/
theorem sortFiles_sorts_iff {files : List Text} {stdin : AsyncRead} {rest : Bytes}
    (holds : Holds server rest stdin)
    (readable : ∀ file ∈ files, file ≠ ['-'] → fs.Readable file) (limit : Nat)
    (awaits : Nat → List (List Nat)) {contents : List Bytes}
    (inputs : contents =
      inputContents (contentsFor fs server) (if files = [] then [['-']] else files) rest)
    (fits : contents.flatten.length ≤ limit) (plain : ∀ content ∈ contents, PlainContent content) :
    (∀ reverse unique, ∃ output after,
      server.perform
          (sortFiles numericKey accept fs limit awaits { reverse, unique } files stdin []) =
        some (.ok { exit := 0, stdout := output, stderr := [] }, after) ∧
      SortedOutput reverse unique (contents.flatMap inputLines) output) ↔
    ∀ behind, ¬ BrokenLine contents behind := by
  obtain ⟨clean, text, whole⟩ := plainContent_flatten plain
  have returns : '\r' ∉ text := by
    intro inside
    rw [whole] at clean
    exact clean (List.mem_flatMap.mpr ⟨_, inside, by decide⟩)
  have cut : inputLines contents.flatten = (textLines text).map textBytes := by
    rw [whole, inputLines_textBytes returns]
  constructor
  · intro sorts behind broken
    obtain ⟨output, after, ran, sorted, same, -, lines⟩ := sorts false false
    obtain ⟨other, performed⟩ :=
      perform_sortFiles numericKey holds readable awaits {} [] inputs fits whole
    rw [performed] at ran
    obtain ⟨written, code, -, joined⟩ := sortLines_output numericKey false false (textLines text)
    have equal : written.flatMap (· ++ [newline]) = sorted.flatMap (· ++ [newline]) := by
      have exits := Except.ok.inj (Prod.mk.inj (Option.some.inj ran)).1
      rw [← code, ← same]
      exact (SortExit.mk.inj exits).2.1
    have free : ∀ line ∈ sorted, newline ∉ line := by
      intro line inside
      obtain ⟨content, -, found⟩ := List.mem_flatMap.mp (lines.mem_iff.mp inside)
      exact newline_not_mem_inputLines found
    have clear : ∀ line ∈ written, newline ∉ line := by
      intro line inside
      have found := joined.mem_iff.mp inside
      rw [← cut] at found
      exact newline_not_mem_inputLines found
    have counts := congrArg (List.count newline) equal
    rw [count_newline_output clear, count_newline_output free, joined.length_eq, lines.length_eq,
      ← cut] at counts
    exact (length_inputLines_broken broken).ne counts
  · intro unbroken reverse unique
    obtain ⟨after, performed⟩ :=
      perform_sortFiles numericKey holds readable awaits { reverse, unique } [] inputs fits whole
    refine ⟨_, after, performed, ?_⟩
    rw [List.nil_append, ← inputLines_flatten unbroken, cut]
    exact sortLines_output numericKey reverse unique (textLines text)

/-- The first file ends with a newline, and the other files have one letter without one. -/
def letterServer : FileServer where
  contents := fun path => if path = ['/', 'f'] then ⟨[97, 10], by decide⟩ else ⟨[98], by decide⟩
  grants := fun _ => 1
  fast := fun _ => false

theorem holds_nothing (server : FileServer) : Holds server [] (.pieces []) :=
  ⟨[], rfl, List.not_mem_nil, rfl⟩

theorem sortFiles_sorts_letters :
    [[97, 10], [98]] = inputContents (contentsFor rootFs letterServer) [['f'], ['g']] [] ∧
    ∀ reverse unique, ∃ output after,
      letterServer.perform (sortFiles (fun _ => 0) accept rootFs 3 (fun _ => []) { reverse, unique }
          [['f'], ['g']] (.pieces []) []) =
        some (.ok { exit := 0, stdout := output, stderr := [] }, after) ∧
      SortedOutput reverse unique ([[97, 10], [98]].flatMap inputLines) output := by
  have inputs : [[97, 10], [98]] =
      inputContents (contentsFor rootFs letterServer) [['f'], ['g']] [] := by decide +kernel
  refine ⟨inputs, ?_⟩
  refine (sortFiles_sorts_iff (fun _ => 0) (holds_nothing letterServer) (by decide +kernel) 3
    (fun _ => []) inputs (by decide) ?_).mpr ?_
  · intro content inside
    rcases List.mem_cons.mp inside with rfl | inside
    · exact ⟨by decide, ['a', '\n'], by decide⟩
    · obtain rfl := List.mem_singleton.mp inside
      exact ⟨by decide, ['b'], by decide⟩
  · rintro behind ⟨before, after, whole, rfl, filled, front, byte, ends, other⟩
    rcases before with _ | ⟨first, _ | ⟨second, later⟩⟩
    · exact absurd ends.symm (by simp)
    · obtain ⟨rfl, -⟩ := List.cons.inj whole
      have last := congrArg List.getLast? ends
      rw [List.getLast?_concat] at last
      exact other (Option.some.inj last).symm
    · obtain ⟨-, rest⟩ := List.cons.inj whole
      obtain ⟨-, none⟩ := List.cons.inj rest
      rw [(List.append_eq_nil_iff.mp none.symm).2] at filled
      exact filled rfl

/-- A file without a last newline is joined with the next one. -/
theorem sortFiles_joins_letters :
    (∃ after, letterServer.perform (sortFiles (fun _ => 0) accept rootFs 3 (fun _ => []) {}
        [['g'], ['f']] (.pieces []) []) =
      some (.ok { exit := 0, stdout := [98, 97, 10], stderr := [] }, after)) ∧
    ¬ SortedOutput false false ([[98], [97, 10]].flatMap inputLines) [98, 97, 10] := by
  constructor
  · have inputs : [[98], [97, 10]] =
        inputContents (contentsFor rootFs letterServer) [['g'], ['f']] [] := by decide +kernel
    have readable : ∀ file ∈ [['g'], ['f']], file ≠ ['-'] → rootFs.Readable file := by decide +kernel
    have fits : ([[98], [97, 10]] : List Bytes).flatten.length ≤ 3 := by decide
    have whole : ([[98], [97, 10]] : List Bytes).flatten = textBytes ['b', 'a', '\n'] := by decide
    obtain ⟨after, performed⟩ := perform_sortFiles (fun _ => 0) (holds_nothing letterServer) readable
      (fun _ => []) {} [] inputs fits whole
    refine ⟨after, performed.trans ?_⟩
    have one : textLines ['b', 'a', '\n'] = [['b', 'a']] := by decide
    unfold sortLines
    rw [one, List.mergeSort_singleton]
    rfl
  · rintro ⟨sorted, output, -, same⟩
    have lines : sorted.Perm [[98], [97]] := same
    have free : ∀ line ∈ sorted, newline ∉ line := by
      intro line inside
      rcases List.mem_cons.mp (lines.mem_iff.mp inside) with rfl | inside
      · decide
      · obtain rfl := List.mem_singleton.mp inside
        decide
    have counts := congrArg (List.count newline) output
    rw [count_newline_output free, lines.length_eq] at counts
    exact absurd counts (by decide)

end Files

end TinySandbox.Sandbox
