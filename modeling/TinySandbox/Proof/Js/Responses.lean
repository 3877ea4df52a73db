/-
This file proves that the reads that the host admits always fit its response, and that the bounded
serializer fails only for values that are too long.
-/

import TinySandbox.Construction.Js.HostCalls

namespace TinySandbox.Js
open Library Library.Task Sandbox

/-! ## The bounded serializer -/

/-- The buffer holds no more than the cap and never asked for more. -/
structure Writer.Capped (cap : Nat) (writer : Writer) : Prop where
  bytes : writer.bytes.length ≤ cap
  requests : ∀ request ∈ writer.requests, request ≤ cap

theorem Writer.extendFromSlice_roomy (granted : Nat → Nat) {data : Bytes} {writer : Writer}
    (roomy : writer.bytes.length + data.length ≤ writer.capacity) :
    writer.extendFromSlice granted data = { writer with bytes := writer.bytes ++ data } := by
  rw [extendFromSlice]
  rw [if_neg (Nat.not_lt.mpr roomy)]

/-- A chunk that fits is written with at most one request, and no more than the cap is asked for. -/
theorem Writer.write_fits (granted : Nat → Nat) {cap : Nat} {data : Bytes} {writer : Writer}
    (capped : writer.Capped cap) (fits : writer.bytes.length + data.length ≤ cap) :
    ∃ next, writer.write granted cap data = some next ∧ next.Capped cap ∧
      next.bytes = writer.bytes ++ data := by
  rw [write, if_neg (by omega)]
  dsimp only
  by_cases full : writer.capacity < writer.bytes.length + data.length
  · rw [if_pos full]
    have asked : writer.bytes.length + data.length ≤
        min (max (writer.bytes.length + data.length) (min (writer.capacity * 2) u64Max)) cap := by
      omega
    rw [extendFromSlice_roomy]
    · refine ⟨_, rfl, ⟨?_, ?_⟩, rfl⟩
      · simpa [reserve] using fits
      · intro request member
        rcases List.mem_append.mp member with earlier | now
        · exact capped.requests request earlier
        · rw [List.mem_singleton.mp now]
          exact min_le_right _ _
    · exact le_trans asked (le_max_left _ _)
  · rw [if_neg full, extendFromSlice_roomy granted (by omega)]
    refine ⟨_, rfl, ⟨?_, capped.requests⟩, rfl⟩
    simpa using fits

theorem Writer.write_none (granted : Nat → Nat) {cap : Nat} {data : Bytes} {writer : Writer}
    (capped : writer.Capped cap) (long : cap < writer.bytes.length + data.length) :
    writer.write granted cap data = none := by
  have bytes := capped.bytes
  rw [write, if_pos (by omega)]

theorem Writer.writeAll_fits (granted : Nat → Nat) {cap : Nat} {writer : Writer}
    (capped : writer.Capped cap) (chunks : List Bytes)
    (fits : writer.bytes.length + chunks.flatten.length ≤ cap) :
    ∃ next, writer.writeAll granted cap chunks = some next ∧ next.Capped cap ∧
      next.bytes = writer.bytes ++ chunks.flatten := by
  induction chunks generalizing writer with
  | nil => exact ⟨writer, rfl, capped, by simp⟩
  | cons data rest ih =>
      rw [List.flatten_cons, List.length_append] at fits
      rw [writeAll]
      by_cases empty : data = []
      · rw [if_pos empty]
        subst empty
        exact ih capped (by simpa using fits)
      · have here : writer.bytes.length + data.length ≤ cap := by omega
        obtain ⟨middle, wrote, kept, bytes⟩ := write_fits granted capped here
        rw [if_neg empty, wrote, Option.bind_some]
        obtain ⟨last, ended, still, whole⟩ := ih kept (by rw [bytes, List.length_append]; omega)
        exact ⟨last, ended, still, by rw [whole, bytes, List.flatten_cons, List.append_assoc]⟩

theorem Writer.writeAll_none (granted : Nat → Nat) {cap : Nat} {writer : Writer}
    (capped : writer.Capped cap) (chunks : List Bytes)
    (long : cap < writer.bytes.length + chunks.flatten.length) :
    writer.writeAll granted cap chunks = none := by
  induction chunks generalizing writer with
  | nil =>
      have bytes := capped.bytes
      simp only [List.flatten_nil, List.length_nil] at long
      omega
  | cons data rest ih =>
      rw [List.flatten_cons, List.length_append] at long
      rw [writeAll]
      by_cases empty : data = []
      · rw [if_pos empty]
        subst empty
        exact ih capped (by simpa using long)
      · rw [if_neg empty]
        by_cases fits : writer.bytes.length + data.length ≤ cap
        · obtain ⟨middle, wrote, kept, bytes⟩ := write_fits granted capped fits
          rw [wrote, Option.bind_some]
          exact ih kept (by rw [bytes, List.length_append]; omega)
        · rw [write_none granted capped (Nat.lt_of_not_le fits)]
          rfl

theorem Writer.Capped.new (cap : Nat) : Writer.Capped cap {} where
  bytes := Nat.zero_le _
  requests := by simp

theorem boundedJson_fits (granted : Nat → Nat) {value : Json} {cap : Nat}
    (fits : value.serialize.length ≤ cap) :
    ∃ writer, boundedJson granted value cap = some writer ∧ writer.bytes = value.serialize := by
  obtain ⟨writer, ended, -, bytes⟩ := Writer.writeAll_fits granted (Writer.Capped.new cap)
    value.chunks (by simpa [Json.serialize] using fits)
  exact ⟨writer, ended, by simpa [Json.serialize] using bytes⟩

theorem boundedJson_isSome (granted : Nat → Nat) (value : Json) (cap : Nat) :
    (boundedJson granted value cap).isSome ↔ value.serialize.length ≤ cap := by
  constructor
  · intro done
    by_contra long
    have failed := Writer.writeAll_none granted (Writer.Capped.new cap) value.chunks
      (by simpa [Json.serialize] using long)
    rw [boundedJson, failed] at done
    cases done
  · intro fits
    obtain ⟨writer, ended, -⟩ := boundedJson_fits granted fits
    rw [ended]
    rfl

/-- The requests before a failure were made by the writes that succeeded. -/
theorem boundedJson_requests (granted : Nat → Nat) {cap : Nat} {chunks : List Bytes}
    {writer : Writer} (written : Writer.writeAll granted cap {} chunks = some writer) :
    ∀ request ∈ writer.requests, request ≤ cap := by
  by_cases fits : chunks.flatten.length ≤ cap
  · obtain ⟨found, ended, capped, -⟩ := Writer.writeAll_fits granted (Writer.Capped.new cap)
      chunks (by simpa using fits)
    rw [ended] at written
    cases written
    exact capped.requests
  · rw [Writer.writeAll_none granted (Writer.Capped.new cap) chunks (by simpa using fits)] at written
    cases written

/-! ## The encodings -/

theorem base64Encode_length (data : Bytes) :
    (base64Encode data).length = 4 * ((data.length + 2) / 3) := by
  induction data using base64Encode.induct with
  | case1 => rfl
  | case2 first => simp [base64Encode]
  | case3 first second => simp [base64Encode]
  | case4 first second third rest ih =>
      simp only [base64Encode, List.length_cons, ih]
      omega

/-- A symbol needs no escape and is one byte. -/
def Plain (symbol : Char) : Prop :=
  escapeOf symbol = none ∧ (String.utf8EncodeChar symbol).length = 1

instance (symbol : Char) : Decidable (Plain symbol) := inferInstanceAs (Decidable (_ ∧ _))

theorem base64Symbol_plain (value : Nat) : Plain (base64Symbol value) := by
  by_cases small : value < 64
  · have all : ∀ value : Fin 64, Plain (base64Symbol value) := by decide
    exact all ⟨value, small⟩
  · have last : base64Symbol value = '/' := by
      rw [base64Symbol, if_neg (by omega), if_neg (by omega), if_neg (by omega), if_neg (by omega)]
    rw [last]
    decide

theorem base64Encode_plain (data : Bytes) : ∀ symbol ∈ base64Encode data, Plain symbol := by
  have padding : Plain '=' := by decide
  induction data using base64Encode.induct with
  | case1 => simp [base64Encode]
  | case2 first => simp [base64Encode, base64Symbol_plain, padding]
  | case3 first second => simp [base64Encode, base64Symbol_plain, padding]
  | case4 first second third rest ih =>
      simp only [base64Encode, List.forall_mem_cons, base64Symbol_plain, true_and]
      exact ih

theorem escapedChunks_plain {value : Text} (plain : ∀ symbol ∈ value, Plain symbol)
    (fragment : Bytes) :
    (escapedChunks fragment value).flatten.length = fragment.length + value.length := by
  induction value generalizing fragment with
  | nil =>
      rw [escapedChunks]
      by_cases empty : fragment = [] <;> simp [empty]
  | cons symbol rest ih =>
      obtain ⟨unescaped, short⟩ := plain symbol (by simp)
      rw [escapedChunks, unescaped]
      change (escapedChunks _ rest).flatten.length = _
      rw [ih (fun other member => plain other (by simp [member])), List.length_append, short,
        List.length_cons]
      omega

theorem serialize_base64 (data : Bytes) :
    (Json.string (base64Encode data)).serialize.length = 4 * ((data.length + 2) / 3) + 2 := by
  have inside := escapedChunks_plain (base64Encode_plain data) []
  rw [base64Encode_length] at inside
  simp only [Json.serialize, Json.chunks, stringChunks, List.cons_append, List.flatten_cons,
    List.flatten_append, List.length_append, List.flatten_nil, List.length_nil, List.length_cons]
  rw [inside]
  simp

theorem textBytes_length {value : Text}
    (ascii : ∀ symbol ∈ value, (String.utf8EncodeChar symbol).length = 1) :
    (textBytes value).length = value.length := by
  induction value with
  | nil => rfl
  | cons symbol rest ih =>
      have later := ih fun other member => ascii other (by simp [member])
      rw [textBytes] at later ⊢
      rw [List.flatMap_cons, List.length_append, ascii symbol (by simp), later, List.length_cons]
      omega

theorem utf8_digit {symbol : Char} (digit : symbol.isDigit) :
    (String.utf8EncodeChar symbol).length = 1 := by
  rw [String.length_utf8EncodeChar, Char.utf8Size_eq_one_iff]
  simp only [Char.isDigit, Bool.and_eq_true, decide_eq_true_eq] at digit
  exact UInt32.le_trans digit.2 (by decide)

/-- A count has at most twenty digits. -/
theorem serialize_natJson (value : Nat) : (natJson value).serialize.length ≤ 20 := by
  have digits : ((UInt64.ofNat value).toNat.repr.toList).length ≤ 20 := by
    rw [String.length_toList, Nat.length_repr_le_iff (by decide)]
    exact lt_trans (UInt64.ofNat value).toNat_lt (by norm_num)
  have written : (natJson value).serialize = textBytes (UInt64.ofNat value).toNat.repr.toList := by
    simp [natJson, Json.serialize, Json.chunks, JsonNumber.literal]
  rw [written, textBytes_length]
  · exact digits
  · intro symbol member
    rw [Nat.toList_repr] at member
    exact utf8_digit (Nat.isDigit_of_mem_toDigits (by omega) le_rfl member)

theorem serialize_value (value : Json) :
    (HostResponse.value value).json.serialize.length = value.serialize.length + 10 := by
  have name : (stringChunks "value".toList).flatten.length = 7 := by decide
  simp only [HostResponse.json, Json.serialize, Json.chunks, memberChunks, if_true, List.nil_append,
    List.append_nil, List.cons_append, List.flatten_cons, List.flatten_append, List.length_append,
    List.length_cons, List.length_nil, List.flatten_nil, name]
  omega

theorem serialize_bytesRead (count : Nat) (data : Json) :
    (Json.object [("bytesRead".toList, natJson count), ("data".toList, data)]).serialize.length ≤
      data.serialize.length + 42 := by
  have first : (stringChunks "bytesRead".toList).flatten.length = 11 := by decide
  have second : (stringChunks "data".toList).flatten.length = 6 := by decide
  have digits := serialize_natJson count
  simp only [Json.serialize] at digits ⊢
  simp only [Json.chunks, memberChunks, if_true, Bool.false_eq_true, if_false,
    List.nil_append, List.append_nil, List.cons_append, List.flatten_cons, List.flatten_append,
    List.length_append, List.length_cons, List.length_nil, List.flatten_nil, first, second]
  omega

/-! ## The admission -/

def Fits (state : HostState) (value : Json) : Prop :=
  (HostResponse.value value).json.serialize.length ≤ state.hostResponseBytes

theorem readFile_fits {state : HostState} (room : 128 ≤ state.hostResponseBytes) {data : Bytes}
    (admitted : data.length ≤ state.hostReadBytes) : Fits state (.string (base64Encode data)) := by
  rw [HostState.hostReadBytes] at admitted
  rw [Fits, serialize_value, serialize_base64]
  omega

theorem read_fits {state : HostState} (room : 128 ≤ state.hostResponseBytes) {data : Bytes}
    (admitted : data.length ≤ state.hostReadBytes) (count : Nat) :
    Fits state (.object [("bytesRead".toList, natJson count),
      ("data".toList, .string (base64Encode data))]) := by
  have framed := serialize_bytesRead count (.string (base64Encode data))
  rw [HostState.hostReadBytes] at admitted
  rw [serialize_base64] at framed
  rw [Fits, serialize_value]
  omega

/-- A response that fits is never replaced. -/
theorem respond_fits (granted : Nat → Nat) {state : HostState} {value : Json}
    (fits : Fits state value) :
    (HostResponse.value value).respond granted state.hostResponseBytes =
      (HostResponse.value value).json.serialize := by
  obtain ⟨writer, ended, bytes⟩ := boundedJson_fits granted fits
  rw [HostResponse.respond, ended]
  exact bytes

/-! ## The filesystem -/

/-- Whatever the backend answers, a value that the task returns has the property. -/
def Ensures {α : Type} (task : FsTask α) (holds : α → Prop) : Prop :=
  ∀ log, Wp task () log (fun value _ _ => holds value) fun _ _ _ => True

section Ensures
variable {α β : Type} {holds : α → Prop}

theorem Ensures.bind {task : FsTask β} {middle : β → Prop} {next : β → FsTask α}
    (first : Ensures task middle) (rest : ∀ value, middle value → Ensures (next value) holds) :
    Ensures (task >>= next) holds := by
  intro log
  apply (first log).bind
  intro value after log holds
  exact rest value holds log

theorem ensures_true (task : FsTask α) : Ensures task fun _ => True := by
  intro log events result after runs
  cases result with
  | ok value => trivial
  | error error => trivial

/-- The first part of a task may ensure nothing. -/
theorem Ensures.after {task : FsTask β} {next : β → FsTask α}
    (rest : ∀ value, Ensures (next value) holds) : Ensures (task >>= next) holds :=
  (ensures_true task).bind fun value _ => rest value

theorem ensures_throw (error : Errno) : Ensures (throw error : FsTask α) holds := by
  intro log
  rw [wp_throw_iff]
  trivial

theorem ensures_pure {value : α} (here : holds value) : Ensures (pure value : FsTask α) holds := by
  intro log
  rw [wp_pure_iff]
  exact here

theorem ensures_refuse (condition : Prop) [Decidable condition] (error : Errno) :
    Ensures (refuse condition error) fun _ => ¬ condition := by
  intro log
  rw [wp_refuse_iff]
  split
  · trivial
  · assumption

theorem Ensures.attempt {task : FsTask α} (ensures : Ensures task holds) :
    Ensures (attempt task) fun result => ∀ value, result = .ok value → holds value := by
  intro log
  rw [wp_attempt_iff]
  apply (ensures log).mono
  · rintro value after log here found same
    cases same
    exact here
  · rintro error after log - found same
    cases same

theorem ensures_lift {result : VfsResult α} (here : ∀ value, result = .ok value → holds value) :
    Ensures (lift result) holds := by
  intro log
  rw [wp_lift_iff]
  cases result with
  | ok value => exact here value rfl
  | error error => trivial

theorem Ensures.dispatch {fs : Fs} {operation : FsTask α} (ensures : Ensures operation holds)
    (fast cleanup : Bool) : Ensures (fs.dispatch fast cleanup operation) holds := by
  rw [Fs.dispatch]
  apply Ensures.after
  intro _
  split
  · exact ensures
  · apply Ensures.after
    intro permit
    apply Ensures.after
    intro _
    apply Ensures.after
    intro ran
    apply Ensures.after
    intro _
    apply Ensures.after
    intro _
    exact ensures

/-- A backend that claims more bytes than the buffer holds is an error. -/
theorem readAt_ensures (fs : Fs) (handle offset bufLen : Nat) :
    Ensures (fs.readAt handle offset bufLen) fun bytes => bytes.length ≤ bufLen := by
  rw [Fs.readAt]
  apply Ensures.after
  intro _
  rw [Fs.onHandle]
  apply Ensures.after
  intro fast
  apply Ensures.dispatch
  apply Ensures.after
  intro bytes
  apply (ensures_refuse _ _).bind
  intro _ short
  exact ensures_pure (Nat.not_lt.mp short)

-- The bytes read so far are within the limit, and the loop fails before it keeps more.
theorem readLoop_ensures (fs : Fs) (handle limit : Nat) (out : Bytes) (small : out.length ≤ limit) :
    Ensures (fs.readLoop handle limit out) fun bytes => bytes.length ≤ limit := by
  induction out using Fs.readLoop.induct limit with
  | case1 out ih =>
      rw [Fs.readLoop]
      apply Ensures.after
      intro _
      apply Ensures.after
      intro bytes
      split
      · exact ensures_pure small
      · split
        · exact ensures_throw _
        · apply ih bytes ‹_› ‹_›
          rw [List.length_append]
          omega

theorem Ensures.owned {task : FsTask α} (ensures : Ensures task holds) (handle : Nat) :
    Ensures (Fs.owned handle task) holds := by
  rw [Fs.owned]
  apply ensures.attempt.bind
  intro result returned
  apply Ensures.after
  intro _
  exact ensures_lift returned

theorem readFileBounded_ensures (fs : Fs) (path : Text) (limit : Nat) :
    Ensures (fs.readFileBounded path limit) fun data => data.length ≤ limit := by
  rw [Fs.readFileBounded]
  apply Ensures.after
  intro _
  split
  · exact ensures_throw _
  · split
    · split
      · exact ensures_pure (Nat.zero_le _)
      · exact ensures_throw _
    · apply Ensures.after
      intro handle
      apply Ensures.owned
      apply (readLoop_ensures fs handle _ [] (Nat.zero_le _)).attempt.bind
      intro result returned
      apply Ensures.after
      intro closed
      cases result with
      | error error => exact ensures_throw error
      | ok data =>
          cases closed with
          | error error => exact ensures_throw error
          | ok _ => exact ensures_pure (le_trans (returned data rfl) (min_le_left _ _))

end Ensures

/-- The filesystem gave this response, whatever its backend answered. -/
def Answered (fs : Fs) (event : Event HostRequest HostRequest.Response) : Prop :=
  ∃ events, Task.Runs (event.1.perform fs) () events (.ok event.2) ()

theorem Answered.ensures {fs : Fs} {call : FsCall} {value : call.Value} {holds : call.Value → Prop}
    (answered : Answered fs ⟨.fs call, .ok value⟩) (ensures : Ensures (fs.call call) holds) :
    holds value := by
  obtain ⟨events, runs⟩ := answered
  exact (ensures.attempt []).ok runs value rfl

/-! ## The host calls -/

/-- The values that a task returns fit the response, when the filesystem gave all responses. -/
def FitsIfAnswered (fs : Fs) (cap : Nat) (value : Json) (after : HostState)
    (log : List (Event HostRequest HostRequest.Response)) : Prop :=
  (∀ event ∈ log, Answered fs event) → after.hostResponseBytes = cap ∧ Fits after value

theorem vfsResult_ok {α : Type} {result : VfsResult α} {syscall : Text} {path : Option Text}
    {value : α} (ok : vfsResult result syscall path = .ok value) : result = .ok value := by
  cases result with
  | ok found =>
      cases ok
      rfl
  | error error => cases ok

@[simp] theorem HostState.advance_hostResponseBytes (state : HostState) (fd : Int) (file : OpenFile)
    (offset : Option Nat) (count : Nat) :
    (state.advance fd file offset count).hostResponseBytes = state.hostResponseBytes := by
  cases offset <;> rfl

@[simp] theorem HostState.advance_hostInputBytes (state : HostState) (fd : Int) (file : OpenFile)
    (offset : Option Nat) (count : Nat) :
    (state.advance fd file offset count).hostInputBytes = state.hostInputBytes := by
  cases offset <;> rfl

theorem hostReadFile_fits (fs : Fs) {state : HostState} (room : 128 ≤ state.hostResponseBytes)
    (args : Json) :
    Wp (hostReadFile args) state [] (FitsIfAnswered fs state.hostResponseBytes)
      fun _ _ _ => True := by
  rw [hostReadFile]
  apply wp_lift_bind
  · intro error failed
    trivial
  · intro path named
    rw [wp_bind_iff, wp_get_iff, wp_bind_iff, wp_request_iff]
    intro result
    apply wp_lift_bind
    · intro error failed
      trivial
    · intro data read
      rw [wp_pure_iff]
      intro answered
      obtain rfl := vfsResult_ok read
      have here := answered _ (List.mem_singleton_self _)
      have small := here.ensures (readFileBounded_ensures fs path state.hostReadBytes)
      exact ⟨rfl, readFile_fits room small⟩

theorem hostRead_fits (fs : Fs) {state : HostState} (room : 128 ≤ state.hostResponseBytes)
    (args : Json) :
    Wp (hostRead args) state [] (FitsIfAnswered fs state.hostResponseBytes) fun _ _ _ => True := by
  rw [hostRead]
  apply wp_lift_bind
  · intro error failed
    trivial
  · intro fd named
    apply wp_lift_bind
    · intro error failed
      trivial
    · intro offset placed
      apply wp_lift_bind
      · intro error failed
        trivial
      · intro len sized
        rw [wp_bind_iff, wp_get_iff]
        apply wp_lift_bind
        · intro error failed
          trivial
        · intro file found
          rw [wp_bind_iff, wp_request_iff]
          intro result
          apply wp_lift_bind
          · intro error failed
            trivial
          · intro data read
            rw [wp_bind_iff, wp_set_iff, wp_pure_iff]
            intro answered
            obtain rfl := vfsResult_ok read
            have here := answered _ (List.mem_singleton_self _)
            have small := here.ensures (readAt_ensures fs _ _ _)
            refine ⟨by simp, read_fits (by simpa using room) ?_ _⟩
            rw [HostState.hostReadBytes, HostState.advance_hostInputBytes,
              HostState.advance_hostResponseBytes]
            exact le_trans small (min_le_right _ _)

theorem reads_fit (fs : Fs) {op : HostOp} (reads : op = .readFile ∨ op = .read) {state : HostState}
    (room : 128 ≤ state.hostResponseBytes) (args : Json) :
    Wp (handleHostCallResult op args) state [] (FitsIfAnswered fs state.hostResponseBytes)
      fun _ _ _ => True := by
  rcases reads with rfl | rfl
  · exact hostReadFile_fits fs room args
  · exact hostRead_fits fs room args

theorem handleHostCall_fits (fs : Fs) {op : HostOp} (reads : op = .readFile ∨ op = .read)
    {state : HostState} (room : 128 ≤ state.hostResponseBytes) (args : Json) :
    Wp (handleHostCall op args) state []
      (fun response after log => ∀ value, response = .value value →
        FitsIfAnswered fs state.hostResponseBytes value after log)
      fun _ _ _ => True := by
  rw [handleHostCall, wp_bind_iff, wp_attempt_iff]
  apply (reads_fit fs reads room args).mono
  · intro value after log fits
    rw [wp_pure_iff]
    rintro found same
    cases same
    exact fits
  · intro error after log _
    rw [wp_pure_iff]
    rintro found same
    cases same

/-- A response that holds a value holds it in full. -/
theorem hostCall_fits (fs : Fs) (granted : Nat → Nat) {op : HostOp}
    (reads : op = .readFile ∨ op = .read) {state after : HostState}
    (room : 128 ≤ state.hostResponseBytes) {args : Json}
    {events : List (Event HostRequest HostRequest.Response)}
    (runs : Task.Runs (hostCall granted op args) state events (.ok ()) after)
    (answered : ∀ event ∈ events, Answered fs event) :
    ∃ response middle, Task.Runs (handleHostCall op args) state events (.ok response) middle ∧
      ∀ value, response = .value value →
        after.response = (HostResponse.value value).json.serialize ∧
          after.response.length ≤ state.hostResponseBytes := by
  rw [hostCall] at runs
  rcases runs_bind_iff.mp runs with ⟨error, -, impossible⟩ |
    ⟨first, second, response, middle, rfl, called, stored⟩
  · cases impossible
  change Task.Runs
    (set { middle with response := response.respond granted middle.hostResponseBytes })
    middle second (.ok ()) after at stored
  obtain ⟨rfl, -, rfl⟩ := runs_set_iff.mp stored
  rw [List.append_nil] at answered ⊢
  refine ⟨response, middle, called, ?_⟩
  rintro value rfl
  obtain ⟨cap, fits⟩ := (handleHostCall_fits fs reads room args).ok called value rfl answered
  have whole := respond_fits granted fits
  rw [← cap]
  exact ⟨whole, by rw [whole]; exact fits⟩

/-- Reads that the host admits fit its response, and the serializer fails only above its cap. -/
theorem admitted_reads_fit :
    (∀ granted value cap,
      ((boundedJson granted value cap).isSome ↔ value.serialize.length ≤ cap) ∧
      (∀ writer, boundedJson granted value cap = some writer → writer.bytes = value.serialize) ∧
      ∀ chunks writer, chunks <+: value.chunks →
        Writer.writeAll granted cap {} chunks = some writer →
        ∀ request ∈ writer.requests, request ≤ cap) ∧
    (∀ data, (base64Encode data).length = 4 * ((data.length + 2) / 3)) ∧
    (∀ state : HostState, 128 ≤ state.hostResponseBytes → ∀ data,
      data.length ≤ state.hostReadBytes → Fits state (.string (base64Encode data))) ∧
    ∀ fs granted op args state events after, op = HostOp.readFile ∨ op = HostOp.read →
      128 ≤ state.hostResponseBytes →
      Task.Runs (hostCall granted op args) state events (.ok ()) after →
      (∀ event ∈ events, Answered fs event) →
      ∃ response middle, Task.Runs (handleHostCall op args) state events (.ok response) middle ∧
        ∀ value, response = .value value →
          after.response = (HostResponse.value value).json.serialize ∧
            after.response.length ≤ state.hostResponseBytes := by
  refine ⟨?_, base64Encode_length, ?_, ?_⟩
  · intro granted value cap
    refine ⟨boundedJson_isSome granted value cap, ?_, ?_⟩
    · intro writer ended
      have fits := (boundedJson_isSome granted value cap).mp (by rw [ended]; rfl)
      obtain ⟨found, same, bytes⟩ := boundedJson_fits granted fits
      rw [ended] at same
      cases same
      exact bytes
    · intro chunks writer _ written
      exact boundedJson_requests granted written
  · intro state room data admitted
    exact readFile_fits room admitted
  · intro fs granted op args state events after reads room runs answered
    exact hostCall_fits fs granted reads room runs answered

end TinySandbox.Js
