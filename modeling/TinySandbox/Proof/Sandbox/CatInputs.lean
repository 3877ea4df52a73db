/-
This file shows when `cat` treats its inputs as one stream.
A file that ends in the middle of a line starts the next file at a new line.
-/

import TinySandbox.Proof.Sandbox.Lines
import TinySandbox.Specification.Streams

namespace TinySandbox.Sandbox
open Library

section Bytes
variable {flags : CatFlags} {cursor : CatCursor} {stream : Bytes}

theorem catBytes_append (first second : Bytes) (cursor : CatCursor) :
    catBytes flags (first ++ second) cursor =
      ((catBytes flags first cursor).1 ++ (catBytes flags second (catBytes flags first cursor).2).1,
        (catBytes flags second (catBytes flags first cursor).2).2) := by
  induction first generalizing cursor with
  | nil => rfl
  | cons byte rest ih =>
      rw [List.cons_append, catBytes, ih, catBytes, List.append_assoc]

theorem catBytes_single (byte : UInt8) (cursor : CatCursor) :
    catBytes flags [byte] cursor = catByte flags cursor byte := by
  rw [catBytes, catBytes, List.append_nil]

theorem catByte_end (inside : cursor.midLine) :
    catByte flags cursor newline = (catEnd flags, { cursor with midLine := false }) := by
  unfold catByte
  rw [if_pos rfl, if_pos inside]

theorem catByte_blank (outside : cursor.midLine = false) :
    catByte flags cursor newline =
      ((catLine flags cursor.toCatState [] true).1,
        { (catLine flags cursor.toCatState [] true).2 with midLine := false }) := by
  unfold catByte
  rw [if_pos rfl, if_neg (by rw [outside]; exact Bool.false_ne_true)]

theorem catContent_append (flags : CatFlags) (first second : Bytes) :
    catContent flags (first ++ second) = catContent flags first ++ catContent flags second := by
  unfold catContent
  split_ifs
  · exact List.flatMap_append
  · rfl

/-- Inside a line the bytes are its content. -/
theorem catBytes_inside {content : Bytes} (absent : newline ∉ content) (inside : cursor.midLine) :
    catBytes flags content cursor = (catContent flags content, cursor) := by
  induction content with
  | nil => 
      rw [catBytes]
      unfold catContent
      split_ifs <;> rfl
  | cons byte rest ih =>
      obtain ⟨other, absent⟩ := not_or.mp (mt List.mem_cons.mpr absent)
      have here : catByte flags cursor byte = (catContent flags [byte], cursor) := by
        unfold catByte
        rw [if_neg (Ne.symm other), if_pos inside]
      rw [catBytes, here, ih absent, ← catContent_append]
      rfl

theorem catLine_nonblank (flags : CatFlags) (state : CatState) {content : Bytes}
    (filled : content ≠ []) (hadNewline : Bool) :
    catLine flags state content hadNewline =
      ((catLine flags state content false).1 ++ if hadNewline then catEnd flags else [],
        (catLine flags state content false).2) := by
  unfold catLine
  simp [filled]

theorem catLine_append (flags : CatFlags) (state : CatState) (first second : Bytes) :
    catLine flags state (first ++ second) false =
      ((catLine flags state first false).1 ++ catContent flags second,
        (catLine flags state first false).2) := by
  unfold catLine
  simp [catContent_append]

/-- One line is its bytes. -/
theorem catBytes_line {content : Bytes} (absent : newline ∉ content) (state : CatState) :
    catBytes flags content { state with midLine := false } =
      if content = [] then ([], { state with midLine := false })
      else ((catLine flags state content false).1,
        { (catLine flags state content false).2 with midLine := true }) := by
  cases content with
  | nil => rfl
  | cons byte rest =>
      obtain ⟨other, absent⟩ := not_or.mp (mt List.mem_cons.mpr absent)
      rw [if_neg (List.cons_ne_nil _ _), catBytes]
      have here : catByte flags { state with midLine := false } byte =
          ((catLine flags state [byte] false).1,
            { (catLine flags state [byte] false).2 with midLine := true }) := by
        unfold catByte
        rw [if_neg (Ne.symm other)]
        rfl
      rw [here, catBytes_inside absent rfl]
      have whole := catLine_append flags state [byte] rest
      rw [List.singleton_append] at whole
      rw [whole]

theorem catBytes_newline (absent : newline ∉ stream) (state : CatState) :
    catBytes flags (stream ++ [newline]) { state with midLine := false } =
      ((catLine flags state stream true).1,
        { (catLine flags state stream true).2 with midLine := false }) := by
  rw [catBytes_append, catBytes_line absent]
  split_ifs with empty
  · rw [empty, catBytes_single, catByte_blank rfl]
    rfl
  · rw [catBytes_single, catByte_end rfl, catLine_nonblank flags state empty true]
    rfl

/-- The lines of some data are its bytes, from the start of a line. -/
theorem catTransform_eq (flags : CatFlags) (data : Bytes) (state : CatState) :
    (catTransform flags data state).1 = (catBytes flags data { state with midLine := false }).1 ∧
      (catTransform flags data state).2 =
        (catBytes flags data { state with midLine := false }).2.toCatState := by
  rw [catTransform]
  split
  · next empty =>
      subst empty
      exact ⟨rfl, rfl⟩
  · next filled =>
      split
      · next none =>
          have absent : newline ∉ data := by
            intro inside
            have stops := List.dropWhile_eq_nil_iff.mp none newline inside
            simp at stops
          rw [catBytes_line absent, if_neg filled]
          exact ⟨rfl, rfl⟩
      · next last rest found =>
          have ends : last = newline := by
            have filled : data.dropWhile (· ≠ newline) ≠ [] := by
              rw [found]
              exact List.cons_ne_nil _ _
            have first := List.head_dropWhile_not (· ≠ newline) filled
            simp only [found, List.head_cons] at first
            simpa using first
          have absent : newline ∉ data.takeWhile (· ≠ newline) := by
            intro inside
            simpa using List.mem_takeWhile_imp inside
          have whole := (List.takeWhile_append_dropWhile (p := (· ≠ newline)) (l := data)).symm
          rw [found, ends, ← List.singleton_append, ← List.append_assoc] at whole
          have later := catTransform_eq flags rest (catLine flags state (data.takeWhile (· ≠ newline)) true).2
          have cut : catBytes flags data { state with midLine := false } =
              catBytes flags (data.takeWhile (· ≠ newline) ++ [newline] ++ rest)
                { state with midLine := false } := congrArg (catBytes flags · _) whole
          rw [cut, catBytes_append, catBytes_newline absent]
          dsimp only
          rw [later.1, later.2]
          exact ⟨rfl, rfl⟩
termination_by data.length
decreasing_by
  have shorter := (List.dropWhile_sublist (l := data) (· ≠ newline)).length_le
  rw [‹data.dropWhile _ = _›] at shorter
  exact shorter

theorem catByte_newline (cursor : CatCursor) : (catByte flags cursor newline).2.midLine = false := by
  cases inside : cursor.midLine with
  | true => rw [catByte_end inside]
  | false => rw [catByte_blank inside]

end Bytes

section Streams
variable {flags : CatFlags} {source : LineReader} {stream : Bytes}

theorem catLines_eq (flags : CatFlags) (source : LineReader) (stdout : Bytes) (state : CatState) :
    catLines catAccept flags source stdout state =
      match (readLine source).1 with
      | .error error =>
          (.error (.stream error), { reads := (readLine source).2.reader, stdout, state })
      | .ok none => (.ok (), { reads := (readLine source).2.reader, stdout, state })
      | .ok (some line) =>
          catLines catAccept flags (readLine source).2
            (stdout ++ (catTransform flags line state).1) (catTransform flags line state).2 := by
  rw [catLines]
  split
  · rename_i answer
    rw [answer]
  · rename_i answer
    rw [answer]
  · rename_i line next answer
    rw [answer]
    rfl

/-- A stream through `cat` is its bytes from the start of a line. -/
theorem catLines_delivers (delivers : Delivers source stream)
    (short : ∀ line ∈ lines stream, tooLong line = false) (stdout : Bytes) (state : CatState) :
    ∃ reads, catLines catAccept flags source stdout state = (.ok (), {
      reads
      stdout := stdout ++ (catBytes flags stream { state with midLine := false }).1
      state := (catBytes flags stream { state with midLine := false }).2.toCatState }) := by
  induction split : lines stream generalizing source stream stdout state with
  | nil =>
      have empty : stream = [] := by rw [← flatten_lines stream, split]; rfl
      rw [catLines_eq]
      rcases readLine_cases delivers with ⟨-, answer⟩ | ⟨line, later, other, -⟩ | ⟨line, later, other, -⟩
      · rw [answer, empty]
        exact ⟨_, by rw [catBytes, List.append_nil]⟩
      · rw [split] at other
        cases other
      · rw [split] at other
        cases other
  | cons line later ih =>
      rw [catLines_eq]
      rw [split] at short
      obtain ⟨fits, rest⟩ := List.forall_mem_cons.mp short
      rcases readLine_cases delivers with ⟨other, -⟩ | ⟨long, behind, other, exceeds, -⟩ |
        ⟨first, behind, other, -, answer, delivered, again⟩
      · rw [split] at other
        cases other
      · rw [split] at other
        obtain ⟨rfl, rfl⟩ := List.cons.inj other
        rw [fits] at exceeds
        cases exceeds
      · rw [split] at other
        obtain ⟨rfl, rfl⟩ := List.cons.inj other
        rw [answer]
        dsimp only
        have whole : stream = line ++ later.flatten := by
          rw [← flatten_lines stream, split, List.flatten_cons]
        obtain ⟨reads, ran⟩ := ih delivered (by rwa [again]) (stdout ++ (catTransform flags line state).1)
          (catTransform flags line state).2 again
        have here := catTransform_eq flags line state
        -- Only the last line may have no end, and nothing is behind it.
        have same : (catBytes flags later.flatten
              { (catTransform flags line state).2 with midLine := false }).1 =
            (catBytes flags later.flatten (catBytes flags line { state with midLine := false }).2).1 ∧
            (catBytes flags later.flatten
              { (catTransform flags line state).2 with midLine := false }).2.toCatState =
            (catBytes flags later.flatten
              (catBytes flags line { state with midLine := false }).2).2.toCatState := by
          rw [here.2]
          cases later with
          | nil => exact ⟨rfl, rfl⟩
          | cons next later =>
              have ended : line ∈ (lines stream).dropLast := by
                rw [split, List.dropLast_cons_of_ne_nil (List.cons_ne_nil _ _)]
                exact List.mem_cons_self
              obtain ⟨body, last, closed, -, stops⟩ := stopped_of_mem_dropLast ended
              have outside : (catBytes flags line { state with midLine := false }).2.midLine = false := by
                rw [closed, catBytes_append, catBytes_single, of_decide_eq_true stops]
                exact catByte_newline _
              generalize (catBytes flags line { state with midLine := false }).2 = cursor at outside
              obtain ⟨numbers, midLine⟩ := cursor
              subst outside
              exact ⟨rfl, rfl⟩
        refine ⟨reads, ran.trans ?_⟩
        rw [same.1, same.2, here.1, whole, catBytes_append, List.append_assoc]

/-- Without a flag the chunks are written as they are. -/
theorem catPlain_delivers (chunks : List Bytes) (filled : ∀ chunk ∈ chunks, chunk ≠ [])
    (stdout : Bytes) (state : CatState) :
    catPlain catAccept (chunks.map Except.ok) stdout state =
      (.ok (), { reads := [], stdout := stdout ++ chunks.flatten, state }) := by
  induction chunks generalizing stdout with
  | nil => rw [List.map_nil, catPlain, List.flatten_nil, List.append_nil]
  | cons chunk rest ih =>
      obtain ⟨here, later⟩ := List.forall_mem_cons.mp filled
      rw [List.map_cons, catPlain, if_neg here, catAccept]
      dsimp only
      rw [ih later, List.flatten_cons, List.append_assoc]

theorem catStream_plain (plain : flags.plain) {contents : Bytes} {reads : List (Except Errno Bytes)}
    (delivered : Delivered flags contents reads) (stdout : Bytes) (state : CatState) :
    ∃ left, catStream catAccept flags reads stdout state =
      (.ok (), { reads := left, stdout := stdout ++ contents, state }) := by
  obtain ⟨chunks, rfl, rfl, filled⟩ := delivered
  refine ⟨[], ?_⟩
  rw [catStream, if_pos plain]
  exact catPlain_delivers chunks (fun chunk inside => (filled chunk inside).1) stdout state

theorem catStream_delivers (fancy : ¬ flags.plain) {contents : Bytes}
    {reads : List (Except Errno Bytes)} (delivered : Delivered flags contents reads)
    (short : ∀ line ∈ lines contents, tooLong line = false) (stdout : Bytes) (state : CatState) :
    ∃ left, catStream catAccept flags reads stdout state = (.ok (), {
      reads := left
      stdout := stdout ++ (catBytes flags contents { state with midLine := false }).1
      state := (catBytes flags contents { state with midLine := false }).2.toCatState }) := by
  obtain ⟨chunks, rfl, rfl, filled⟩ := delivered
  rw [catStream, if_neg fancy]
  have small (chunk : Bytes) (inside : chunk ∈ chunks) : chunk.length ≤ 8192 := by
    have fits := (filled chunk inside).2
    rwa [if_neg fancy] at fits
  let pieces : List Chunk := chunks.attach.map fun chunk =>
    ⟨chunk.1, (filled chunk.1 chunk.2).1, small chunk.1 chunk.2⟩
  have whole : pieces.map Chunk.bytes = chunks := by
    rw [List.map_map]
    exact List.attach_map_subtype_val chunks
  have starts := delivers_start pieces
  have reads : readsOf pieces = chunks.map Except.ok :=
    calc
      readsOf pieces = (pieces.map Chunk.bytes).map Except.ok := List.map_map.symm
      _ = _ := congrArg (List.map Except.ok) whole
  rw [streamOf, whole, reads] at starts
  exact catLines_delivers starts short stdout state

end Streams

end TinySandbox.Sandbox
