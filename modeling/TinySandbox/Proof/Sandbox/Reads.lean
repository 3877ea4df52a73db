/-
This file shows that bounded reads and streams of files are exact when a backend answers with as
few bytes as it likes.
-/

import TinySandbox.Proof.Sandbox.Resolution
import TinySandbox.Specification.Streams

namespace TinySandbox.Sandbox
open Library Library.Task Mem FileServer

section Servers
variable {fs : Fs} {server : FileServer} {handle : Nat} {content : Bytes}

/-- What is in an open file stays readable. -/
structure Retains (server after : FileServer) : Prop where
  contents : after.contents = server.contents
  opened : ∀ handle content, server.contentOf handle = some content →
    after.contentOf handle = some content

theorem retains_refl (server : FileServer) : Retains server server :=
  ⟨rfl, fun _ _ found => found⟩

theorem Retains.trans {before middle after : FileServer} (first : Retains before middle)
    (second : Retains middle after) : Retains before after where
  contents := second.contents.trans first.contents
  opened := fun handle content found => second.opened handle content (first.opened handle content found)

theorem retains_reads (server : FileServer) (reads : Nat) : Retains server { server with reads } :=
  ⟨rfl, fun _ _ found => found⟩

theorem retains_change (server : FileServer) (handle : Nat) {update : ServedFile → ServedFile}
    (same : ∀ file, (update file).path = file.path) : Retains server (server.change handle update) := by
  refine ⟨rfl, fun other content found => ?_⟩
  unfold contentOf change at *
  obtain ⟨file, opened, rfl⟩ := Option.map_eq_some_iff.mp found
  dsimp only
  rw [List.getElem?_modify, opened]
  change some (server.contents (if handle = other then update file else file).path).val = _
  split_ifs
  · rw [same]
  · rfl

/-- The server with one more file in its table. -/
def FileServer.holding (server : FileServer) (file : ServedFile) (reads : Nat) : FileServer :=
  { server with files := server.files ++ [file], reads }

theorem retains_holding (server : FileServer) (file : ServedFile) (reads : Nat) :
    Retains server (server.holding file reads) := by
  refine ⟨rfl, fun other content found => ?_⟩
  obtain ⟨file, opened, rfl⟩ := Option.map_eq_some_iff.mp found
  have inside := (List.getElem?_eq_some_iff.mp opened).1
  unfold contentOf FileServer.holding
  dsimp only
  rw [List.getElem?_append_left inside, opened]
  rfl

theorem settle_check : settle respond fs.check server = some (.ok (), server) := by
  unfold Fs.check Fs.isCancelled
  cases fs.controlled <;> rfl

theorem settle_dispatch {α : Type} (fast cleanup : Bool) (operation : FsTask α) :
    settle respond (fs.dispatch fast cleanup operation) server = settle respond operation server := by
  have checked : settle respond (fs.checkUnless cleanup) server = some (.ok (), server) := by
    unfold Fs.checkUnless
    split
    · rfl
    · exact settle_check
  unfold Fs.dispatch
  rw [settle_bind_ok checked]
  split
  · rfl
  · change settle respond (fs.checkUnless cleanup >>= fun _ => operation) server = _
    exact settle_bind_ok checked

theorem settle_onHandle {α : Type} (cleanup : Bool) (operation : FsTask α) :
    settle respond (fs.onHandle handle cleanup operation) server = settle respond operation server :=
  settle_dispatch _ cleanup operation

theorem settle_checkPath {path : Text} (passes : fs.PathPasses path) :
    settle respond (fs.checkPath path) server = some (.ok (), server) := by
  unfold Fs.checkPath
  rw [settle_bind_ok settle_check, settle_refuse, if_neg (not_not_intro passes)]

theorem settle_dispatchPath {α : Type} {path : Text} (passes : fs.PathPasses path)
    (operation : FsTask α) :
    settle respond (fs.dispatchPath path operation) server = settle respond operation server := by
  unfold Fs.dispatchPath
  rw [settle_bind_ok (settle_checkPath passes)]
  exact settle_dispatch _ false operation

theorem modify_last (files : List ServedFile) (file : ServedFile) (update : ServedFile → ServedFile) :
    (files ++ [file]).modify files.length update = files ++ [update file] := by
  induction files with
  | nil => rfl
  | cons first rest ih => exact congrArg (first :: ·) ih

theorem change_holding (server : FileServer) (file : ServedFile) (reads : Nat)
    (update : ServedFile → ServedFile) :
    (server.holding file reads).change server.files.length update =
      server.holding (update file) reads := by
  unfold FileServer.change FileServer.holding
  dsimp only
  rw [modify_last]

theorem registeredAt_holding (server : FileServer) (file : ServedFile) (reads : Nat) :
    (server.holding file reads).registeredAt server.files.length = file.registered := by
  unfold FileServer.registeredAt FileServer.holding
  rw [List.getElem?_concat_length]
  rfl

theorem contentOf_holding (server : FileServer) (file : ServedFile) (reads : Nat) :
    (server.holding file reads).contentOf server.files.length =
      some (server.contents file.path).val := by
  unfold FileServer.contentOf FileServer.holding
  rw [List.getElem?_concat_length]
  rfl

theorem settle_open {path : Text} (readable : fs.Readable path) (mode : OpenMode) :
    settle respond (fs.open path mode) server =
      some (.ok server.files.length,
        server.holding { path := fs.resolve path, registered := true } server.reads) := by
  obtain ⟨passes, outside⟩ := readable
  unfold Fs.open
  dsimp only
  rw [settle_bind_ok (settle_checkPath passes), settle_refuse_bind, if_neg (by rw [outside]; decide),
    settle_dispatchPath passes]
  have inserted := change_holding server { path := fs.resolve path } server.reads
    fun file => { file with registered := true }
  change _ = some (Except.ok server.files.length, server.holding _ server.reads)
  rw [← inserted]
  unfold Fs.openReserved Fs.deliver Fs.isCancelled
  cases fs.controlled <;> rfl

/-- A read gives a part of what is behind its offset, and nothing only at the end. -/
theorem settle_readAt {before rest : Bytes} (opened : server.contentOf handle = some (before ++ rest))
    {bufLen : Nat} (positive : 0 < bufLen) (bounded : bufLen ≤ fs.maxIoBytes) :
    ∃ bytes, settle respond (fs.readAt handle before.length bufLen) server =
        some (.ok bytes, { server with reads := server.reads + 1 }) ∧
      bytes.length ≤ bufLen ∧ bytes <+: rest ∧ (bytes = [] → rest = []) := by
  let count := min bufLen (max 1 (server.grants server.reads))
  have some_count : 0 < count := by omega
  refine ⟨rest.take count, ?_, ?_, List.take_prefix _ _, ?_⟩
  · unfold Fs.readAt
    rw [settle_refuse_bind, if_neg (Nat.not_lt.mpr bounded), settle_onHandle]
    have answered : respond server (.vfs (.readAt handle before.length bufLen)) =
        some (.ok (rest.take count), { server with reads := server.reads + 1 }) := by
      change some (server.readAt handle before.length bufLen) = _
      unfold FileServer.readAt
      rw [opened]
      dsimp only
      rw [List.drop_left]
    have called : settle respond (Fs.vfs (.readAt handle before.length bufLen)) server =
        some (.ok (rest.take count), { server with reads := server.reads + 1 }) := by
      unfold Fs.vfs
      rw [settle_bind_ok (settle_request answered)]
      rfl
    have fits : ¬ bufLen < (rest.take count).length := by
      have := List.length_take_le count rest
      omega
    rw [settle_bind_ok called, settle_refuse_bind, if_neg fits]
    rfl
  · have := List.length_take_le count rest
    omega
  · intro none
    rw [List.take_eq_nil_iff] at none
    rcases none with zero | empty
    · omega
    · exact empty

/-- The file that was opened, after it was finished once. -/
theorem settle_close {file : ServedFile} (registered : file.registered = true) (reads : Nat) :
    settle respond (fs.close server.files.length) (server.holding file reads) =
      some (.ok (), server.holding (finished { file with registered := false }) reads) := by
  unfold Fs.close Fs.finish
  rw [settle_onHandle]
  have removed : respond (server.holding file reads) (.remove server.files.length) =
      some (.ok (), server.holding { file with registered := false } reads) := by
    change (if (server.holding file reads).registeredAt server.files.length then _ else _) = _
    rw [registeredAt_holding, if_pos registered, change_holding]
  have closed : settle respond (Fs.release server.files.length false)
      (server.holding { file with registered := false } reads) =
        some (.ok (), server.holding (finished { file with registered := false }) reads) := by
    rw [← change_holding server { file with registered := false } reads finished]
    rfl
  rw [settle_bind_ok (settle_request removed)]
  change settle respond (fs.isCancelled >>= fun cancelled =>
    Fs.release server.files.length cancelled) _ = _
  unfold Fs.isCancelled
  cases fs.controlled <;> exact closed

/-- A handle that was given back is left alone. -/
theorem settle_abandon {file : ServedFile} (registered : file.registered = false) (reads : Nat) :
    settle respond (Task.request (FsRequest.abandon server.files.length) : FsTask Unit)
      (server.holding file reads) = some (.ok (), server.holding file reads) := by
  apply settle_request
  change (if (server.holding file reads).registeredAt server.files.length then _ else _) = _
  rw [registeredAt_holding, registered]
  rfl

/-- A task that gave its handle back is not finished again. -/
theorem settle_owned {α : Type} {task : FsTask α} {before : FileServer} {result : VfsResult α}
    {file : ServedFile} {reads : Nat} (registered : file.registered = false)
    (settled : settle respond task before = some (result, server.holding file reads)) :
    settle respond (Fs.owned server.files.length task) before =
      some (result, server.holding file reads) := by
  unfold Fs.owned
  rw [settle_bind_ok (settle_attempt settled), settle_bind_ok (settle_abandon registered reads)]
  rfl

end Servers

section Bounded
variable {fs : Fs} {server : FileServer} {handle : Nat}

/-- What is asked for is at least one byte, and no read refuses it. -/
theorem probe_bounds (fs : Fs) (limit length : Nat) :
    0 < probeLength limit length ∧ probeLength limit length ≤ streamChunkBytes ∧
      probeLength limit length ≤ fs.maxIoBytes := by
  have chunk : streamChunkBytes ≤ fs.maxIoBytes := Nat.le_max_right _ _
  have positive : 0 < streamChunkBytes := by decide
  have wide : 0 < u64Max := by decide
  unfold probeLength
  omega

/-- The loop is at the end of what it read, and the rest of the content decides. -/
theorem settle_readLoop {limit : Nat} (out : Bytes) :
    ∀ {server : FileServer} {rest : Bytes}, server.contentOf handle = some (out ++ rest) →
      out.length ≤ limit → ∃ reads, settle respond (fs.readLoop handle limit out) server =
        some (if (out ++ rest).length ≤ limit then .ok (out ++ rest) else .error .EFBIG,
          { server with reads }) := by
  intro server rest opened fits
  obtain ⟨positive, -, bounded⟩ := probe_bounds fs limit out.length
  obtain ⟨bytes, answered, -, part, last⟩ := settle_readAt opened positive bounded
  obtain ⟨later, rfl⟩ := part
  rw [Fs.readLoop]
  change ∃ reads, settle respond (fs.check >>= fun _ => fs.readAt handle out.length
    (probeLength limit out.length) >>= _) server = _
  rw [settle_bind_ok settle_check, settle_bind_ok answered]
  by_cases none : bytes.length = 0
  · have empty := List.eq_nil_of_length_eq_zero none
    have done : bytes ++ later = [] := last empty
    rw [dif_pos none, done, List.append_nil, if_pos fits]
    exact ⟨server.reads + 1, rfl⟩
  · rw [dif_neg none]
    by_cases large : limit - out.length < bytes.length
    · have longer : ¬ (out ++ (bytes ++ later)).length ≤ limit := by
        simp only [List.length_append]
        omega
      rw [dif_pos large, if_neg longer]
      exact ⟨server.reads + 1, rfl⟩
    · have within : (out ++ bytes).length ≤ limit := by
        rw [List.length_append]
        omega
      rw [dif_neg large, ← List.append_assoc]
      rw [← List.append_assoc] at opened
      obtain ⟨reads, looped⟩ := @settle_readLoop limit (out ++ bytes)
        { server with reads := server.reads + 1 } later opened within
      exact ⟨reads, looped⟩
termination_by limit - out.length
decreasing_by
  simp only [List.length_append]
  omega

theorem settle_readFileBounded {path : Text} (readable : fs.Readable path) (limit : Nat) :
    let content := (server.contents (fs.resolve path)).val
    ∃ reads, settle respond (fs.readFileBounded path limit) server =
      some (if content.length ≤ min limit fs.limits.hostInputBytes then .ok content
        else .error .EFBIG, server.holding (spent (fs.resolve path)) reads) := by
  intro content
  obtain ⟨passes, outside⟩ := readable
  have again : fs.Readable (fs.resolve path) := by
    unfold Fs.Readable
    rw [Fs.resolve_resolve]
    exact ⟨passes, outside⟩
  have elsewhere : fs.resolve path ≠ binDirectory ∧ ¬ binPrefix <+: fs.resolve path :=
    not_or.mp (of_decide_eq_false outside)
  have opened := @settle_open fs server _ again .readOnly
  rw [Fs.resolve_resolve] at opened
  have readable_now : (server.holding { path := fs.resolve path, registered := true }
      server.reads).contentOf server.files.length = some ([] ++ content) :=
    contentOf_holding _ _ _
  obtain ⟨reads, looped⟩ := settle_readLoop [] readable_now
    (Nat.zero_le (min limit fs.limits.hostInputBytes))
  have closed := @settle_close fs server { path := fs.resolve path, registered := true } rfl reads
  unfold Fs.readFileBounded
  dsimp only
  rw [settle_bind_ok (settle_checkPath passes), if_neg elsewhere.1, if_neg elsewhere.2,
    settle_bind_ok opened]
  refine ⟨reads, settle_owned rfl ?_⟩
  rw [settle_bind_ok (settle_attempt looped)]
  change settle respond (attempt (fs.close server.files.length) >>= _)
    (server.holding { path := fs.resolve path, registered := true } reads) = _
  rw [settle_bind_ok (settle_attempt closed), List.nil_append]
  split_ifs <;> rfl

end Bounded

namespace FsStreamReader

def unread (reader : FsStreamReader) : Bytes := reader.pending.drop reader.pendingStart

/-- The copy takes what fits, and nothing only where there is nothing to take or no room for it. -/
theorem copyPending_cases (reader : FsStreamReader) (remaining : Nat) :
    (reader.copyPending remaining = none ∧ (reader.unread = [] ∨ remaining = 0)) ∨
    ∃ copied next, reader.copyPending remaining = some (copied, next) ∧
      copied.length ≤ remaining ∧ copied ≠ [] ∧ copied <+: reader.unread ∧
      next.unread = reader.unread.drop copied.length ∧ next.handle = reader.handle ∧
      next.offset = reader.offset ∧ next.inFlight = reader.inFlight := by
  have inside := reader.start_le
  have length : reader.unread.length = reader.pending.length - reader.pendingStart :=
    List.length_drop
  unfold copyPending
  by_cases stops : reader.pendingStart = reader.pending.length ∨ remaining = 0
  · left
    refine ⟨if_pos stops, stops.imp_left fun exhausted => ?_⟩
    apply List.eq_nil_of_length_eq_zero
    omega
  · right
    obtain ⟨more, room⟩ := not_or.mp stops
    rw [if_neg stops]
    let n := min (reader.pending.length - reader.pendingStart) remaining
    have copied : (reader.unread.take n).length = n := by
      rw [List.length_take]
      omega
    refine ⟨reader.unread.take n, _, rfl, by omega, ?_, List.take_prefix _ _, ?_, rfl, rfl, rfl⟩
    · intro none
      rw [none, List.length_nil] at copied
      omega
    · rw [copied]
      exact List.drop_drop.symm

end FsStreamReader

section Streams
variable {fs : Fs} {server after : FileServer} {reader next : FsStreamReader} {rest bytes : Bytes}

theorem Tracks.keeps (tracks : Tracks server reader rest) (keeps : Retains server after) :
    Tracks after reader rest where
  opened := by
    intro handle held
    obtain ⟨content, found, bounds⟩ := tracks.opened handle held
    exact ⟨content, keeps.opened handle content found, bounds⟩
  closed := tracks.closed

/-- Bytes that were delivered are no longer tracked. -/
theorem Tracks.copied (tracks : Tracks server reader rest) (part : bytes <+: reader.unread)
    (unread : next.unread = reader.unread.drop bytes.length) (handle : next.handle = reader.handle)
    (offset : next.offset = reader.offset) (inFlight : next.inFlight = reader.inFlight) :
    bytes <+: rest ∧ Tracks server next (rest.drop bytes.length) := by
  have short := part.length_le
  cases held : reader.handle with
  | none =>
      obtain ⟨same, none⟩ := tracks.closed held
      rw [same]
      refine ⟨part, ⟨?_, fun _ => ⟨unread.symm, inFlight.trans none⟩⟩⟩
      intro other opened
      rw [handle, held] at opened
      cases opened
  | some number =>
      obtain ⟨content, found, small, within, same, read⟩ := tracks.opened number held
      change rest = reader.unread ++ _ at same
      rw [same]
      refine ⟨part.trans (List.prefix_append _ _), ⟨?_, ?_⟩⟩
      · intro other opened
        rw [handle, held] at opened
        obtain rfl := Option.some.inj opened
        refine ⟨content, found, small, offset ▸ within, ?_, ?_⟩
        · rw [List.drop_append_of_le_length short, offset, ← unread]
          rfl
        · rw [inFlight, offset]
          exact read
      · intro closed
        rw [handle, held] at closed
        cases closed

/-- One poll delivers a part of the rest, or it leaves the rest as it was. -/
def Polled (server : FileServer) (task : FsTask (StreamPoll × FsStreamReader)) (rest : Bytes)
    (remaining completions : Nat) : Prop :=
  ∃ poll reader after, settle respond task server = some (.ok (poll, reader), after) ∧
    Retains server after ∧
    match poll with
    | .pending => 0 < remaining ∧ completions = 0 ∧ Tracks after reader rest
    | .failed _ => False
    | .ready bytes => bytes.length ≤ remaining ∧ bytes <+: rest ∧
        (bytes = [] → remaining = 0 ∨ rest = []) ∧ Tracks after reader (rest.drop bytes.length)

theorem Tracks.started (tracks : Tracks server reader rest) {handle : Nat}
    (held : reader.handle = some handle) : reader.started = some (handle, reader.offset) := by
  obtain ⟨-, -, -, -, -, idle | busy⟩ := tracks.opened handle held
  · unfold FsStreamReader.started
    rw [idle, held]
    rfl
  · unfold FsStreamReader.started
    rw [busy]
    rfl

theorem settle_closeHandle (server : FileServer) (reader : FsStreamReader) :
    ∃ after, settle respond reader.closeHandle server =
        some (.ok { reader with handle := none }, after) ∧ Retains server after := by
  obtain ⟨handle, offset, pending, pendingStart, inFlight, start_le⟩ := reader
  cases handle with
  | none => exact ⟨server, rfl, retains_refl server⟩
  | some handle =>
      unfold FsStreamReader.closeHandle
      dsimp only
      by_cases registered : server.registeredAt handle = true
      · have answered : respond server (.abandon handle) = some ((),
            server.change handle fun file => finished { file with registered := false }) :=
          if_pos registered
        exact ⟨_, settle_bind_ok (settle_request answered), retains_change server handle fun _ => rfl⟩
      · have answered : respond server (.abandon handle) = some ((), server) := if_neg registered
        exact ⟨server, settle_bind_ok (settle_request answered), retains_refl server⟩

/-- The bytes of a read that came back are tracked. -/
theorem tracks_received {handle : Nat} {content : Bytes} (held : reader.handle = some handle)
    (found : server.contentOf handle = some content) (small : content.length ≤ u64Max)
    (within : reader.offset ≤ content.length) (part : bytes <+: content.drop reader.offset) :
    Tracks server (FsStreamReader.received { reader with inFlight := none } bytes)
      (content.drop reader.offset) := by
  have short := part.length_le
  rw [List.length_drop] at short
  have offset : min (reader.offset + bytes.length) u64Max = reader.offset + bytes.length := by omega
  constructor
  · intro other opened
    change reader.handle = some other at opened
    rw [held] at opened
    obtain rfl := Option.some.inj opened
    refine ⟨content, found, small, ?_, ?_, .inl rfl⟩
    · change min (reader.offset + bytes.length) u64Max ≤ content.length
      omega
    · change _ = bytes.drop 0 ++ content.drop (min (reader.offset + bytes.length) u64Max)
      rw [offset, List.drop_zero, ← List.drop_drop]
      obtain ⟨later, same⟩ := part
      rw [← same, List.drop_left]
  · intro closed
    change reader.handle = none at closed
    rw [held] at closed
    cases closed

/-- The loop ends with its first read, because every read gives something before the end. -/
theorem Tracks.pollLoop (tracks : Tracks server reader rest) (exhausted : reader.unread = [])
    {remaining : Nat} (room : 0 < remaining) (completions : Nat) :
    Polled server (reader.pollLoop fs remaining completions) rest remaining completions := by
  cases held : reader.handle with
  | none =>
      obtain ⟨same, idle⟩ := tracks.closed held
      have stopped : reader.started = none := by
        unfold FsStreamReader.started
        rw [idle, held]
        rfl
      change rest = reader.unread at same
      rw [exhausted] at same
      refine ⟨.ready [], reader, server, ?_, retains_refl server, Nat.zero_le _, List.nil_prefix,
        fun _ => .inr same, tracks⟩
      unfold FsStreamReader.pollLoop
      rw [stopped]
      rfl
  | some handle =>
      have started := tracks.started held
      obtain ⟨content, found, small, within, same, -⟩ := tracks.opened handle held
      change rest = reader.unread ++ _ at same
      rw [exhausted, List.nil_append] at same
      unfold FsStreamReader.pollLoop
      rw [started]
      cases completions with
      | zero =>
          refine ⟨.pending, { reader with inFlight := some (handle, reader.offset) }, server, rfl,
            retains_refl server, room, rfl, ?_⟩
          constructor
          · intro other opened
            rw [held] at opened
            obtain rfl := Option.some.inj opened
            refine ⟨content, found, small, within, ?_, .inr rfl⟩
            change rest = reader.unread ++ _
            rw [exhausted]
            exact same
          · intro closed
            rw [held] at closed
            cases closed
      | succ completions =>
          dsimp only
          have before : (content.take reader.offset).length = reader.offset := by
            rw [List.length_take]
            omega
          rw [← List.take_append_drop reader.offset content] at found
          have chunk : streamChunkBytes ≤ fs.maxIoBytes := Nat.le_max_right _ _
          obtain ⟨bytes, answered, -, part, last⟩ :=
            @settle_readAt fs server handle _ _ found streamChunkBytes (by decide) chunk
          rw [before] at answered
          rw [List.take_append_drop] at found
          unfold Polled
          rw [settle_bind_ok (settle_attempt answered)]
          dsimp only
          have kept := retains_reads server (server.reads + 1)
          by_cases none : bytes.length = 0
          · have ended : rest = [] := same.trans (last (List.eq_nil_of_length_eq_zero none))
            obtain ⟨after, closed, keeps⟩ := settle_closeHandle
              { server with reads := server.reads + 1 } { reader with inFlight := Option.none }
            rw [if_pos none, settle_bind_ok closed]
            refine ⟨.ready [], _, after, rfl, kept.trans keeps, Nat.zero_le _, List.nil_prefix,
              fun _ => .inr ended, ?_⟩
            constructor
            · nofun
            · intro _
              exact ⟨ended.trans exhausted.symm, rfl⟩
          · have tracked := (tracks_received held found small within part).keeps kept
            rw [if_neg none]
            rcases FsStreamReader.copyPending_cases
                (FsStreamReader.received { reader with inFlight := Option.none } bytes) remaining with
              ⟨-, empty | full⟩ | ⟨copied, next, copy, fits, some, piece, unread, handles, offsets,
                flights⟩
            · exact absurd (congrArg List.length empty) none
            · exact absurd full room.ne'
            · rw [copy]
              obtain ⟨delivered, tracked⟩ := tracked.copied piece unread handles offsets flights
              rw [← same] at delivered tracked
              exact ⟨.ready copied, next, _, rfl, kept, fits, delivered, fun empty => absurd empty some,
                tracked⟩

/-- Every poll of a reader delivers the next part of what it tracks. -/
theorem Tracks.pollRead (tracks : Tracks server reader rest) (fs : Fs)
    (remaining completions : Nat) :
    Polled server (reader.pollRead fs remaining completions) rest remaining completions := by
  unfold FsStreamReader.pollRead
  rcases reader.copyPending_cases remaining with
    ⟨none, stops⟩ | ⟨copied, next, copy, fits, some, piece, unread, handles, offsets, flights⟩
  · rw [none]
    dsimp only
    by_cases full : remaining = 0
    · rw [if_pos full]
      exact ⟨.ready [], reader, server, rfl, retains_refl server, Nat.zero_le _, List.nil_prefix,
        fun _ => .inl full, tracks⟩
    · rw [if_neg full]
      exact tracks.pollLoop (stops.resolve_right full) (Nat.pos_of_ne_zero full) completions
  · rw [copy]
    obtain ⟨delivered, tracked⟩ := tracks.copied piece unread handles offsets flights
    exact ⟨.ready copied, next, server, rfl, retains_refl server, fits, delivered,
      fun empty => absurd empty some, tracked⟩

/-- The run of the polls, by induction on the buffers of the caller. -/
theorem Tracks.pollAll (tracks : Tracks server reader rest) (fs : Fs) (polls : List (Nat × Nat)) :
    ∃ answers last after, settle respond (reader.pollAll fs polls) server =
      some (.ok (answers, last), after) ∧ Streamed rest polls answers := by
  induction polls generalizing server reader rest with
  | nil =>
      obtain ⟨after, closed, -⟩ := settle_closeHandle server reader
      unfold FsStreamReader.pollAll
      rw [settle_bind_ok closed]
      exact ⟨[], _, after, rfl, rfl⟩
  | cons first polls ih =>
      obtain ⟨remaining, completions⟩ := first
      obtain ⟨poll, next, middle, polled, -, given⟩ := tracks.pollRead fs remaining completions
      unfold FsStreamReader.pollAll
      rw [settle_bind_ok polled]
      dsimp only
      cases poll with
      | failed error => exact given.elim
      | pending =>
          obtain ⟨room, stalled, tracked⟩ := given
          obtain ⟨answers, last, after, later, streamed⟩ := ih tracked
          rw [settle_bind_ok later]
          exact ⟨.pending :: answers, last, after, rfl, room, stalled, streamed⟩
      | ready bytes =>
          obtain ⟨fits, part, ended, tracked⟩ := given
          obtain ⟨answers, last, after, later, streamed⟩ := ih tracked
          rw [settle_bind_ok later]
          exact ⟨.ready bytes :: answers, last, after, rfl, fits, part, ended, streamed⟩

/-- A read ends with the next part of the rest, and with nothing only at the end. -/
def Reads {α : Type} (server : FileServer) (task : FsTask (VfsResult Bytes × α)) (rest : Bytes)
    (holds : FileServer → Bytes → α → Prop) : Prop :=
  ∃ bytes next after, settle respond task server = some (.ok (.ok bytes, next), after) ∧
    Retains server after ∧ bytes <+: rest ∧ (bytes = [] → rest = []) ∧
    holds after (rest.drop bytes.length) next

theorem Tracks.await (tracks : Tracks server reader rest) (fs : Fs) {want : Nat} (room : 0 < want)
    (polls : List Nat) :
    Reads server (reader.await fs want polls) rest fun after rest reader => Tracks after reader rest := by
  have ready : ∀ {bytes : Bytes}, (bytes = [] → want = 0 ∨ rest = []) → bytes = [] → rest = [] :=
    fun ended empty => (ended empty).resolve_left room.ne'
  induction polls generalizing server reader with
  | nil =>
      obtain ⟨poll, next, middle, polled, keeps, given⟩ := tracks.pollRead fs want 1
      unfold FsStreamReader.await Reads
      rw [settle_bind_ok polled]
      cases poll with
      | failed error => exact given.elim
      | pending => cases given.2.1
      | ready bytes =>
          obtain ⟨-, part, ended, tracked⟩ := given
          exact ⟨bytes, next, middle, rfl, keeps, part, ready ended, tracked⟩
  | cons completions later ih =>
      obtain ⟨poll, next, middle, polled, keeps, given⟩ := tracks.pollRead fs want completions
      unfold FsStreamReader.await
      unfold Reads
      rw [settle_bind_ok polled]
      cases poll with
      | failed error => exact given.elim
      | pending =>
          obtain ⟨bytes, last, after, settled, kept, rest⟩ := ih given.2.2
          exact ⟨bytes, last, after, settled, keeps.trans kept, rest⟩
      | ready bytes =>
          obtain ⟨-, part, ended, tracked⟩ := given
          exact ⟨bytes, next, middle, rfl, keeps, part, ready ended, tracked⟩

theorem Holds.keeps {reader : AsyncRead} (holds : Holds server rest reader)
    (keeps : Retains server after) : Holds after rest reader := by
  cases reader with
  | pieces reader => exact holds
  | file reader awaits => exact Tracks.keeps holds keeps

theorem Holds.read {reader : AsyncRead} (holds : Holds server rest reader) (fs : Fs) {want : Nat}
    (room : 0 < want) : Reads server (reader.read fs want) rest Holds := by
  cases reader with
  | file reader awaits =>
      obtain ⟨bytes, next, after, settled, keeps, part, ended, tracked⟩ :=
        Tracks.await holds fs room (awaits.headD [])
      unfold AsyncRead.read
      refine ⟨bytes, .file next awaits.tail, after, ?_, keeps, part, ended, tracked⟩
      rw [settle_bind_ok settled]
      rfl
  | pieces reader =>
      obtain ⟨pieces, rfl, whole, rfl⟩ := holds
      cases pieces with
      | nil =>
          exact ⟨[], .pieces [], server, rfl, retains_refl server, List.nil_prefix, fun _ => rfl, [], rfl,
            whole, rfl⟩
      | cons piece later =>
          obtain ⟨nonempty, others⟩ := not_or.mp (mt List.mem_cons.mpr whole)
          have length : (piece.take want).length = min want piece.length := List.length_take
          have positive : 0 < piece.length := List.length_pos_iff.mpr (Ne.symm nonempty)
          refine ⟨piece.take want, _, server, rfl, retains_refl server, ?_, ?_, ?_⟩
          · rw [List.flatten_cons]
            exact (List.take_prefix _ _).trans (List.prefix_append _ _)
          · intro none
            rw [none, List.length_nil] at length
            omega
          · rw [length, List.flatten_cons]
            by_cases fits : piece.length ≤ want
            · rw [if_pos fits, min_eq_right fits, List.drop_left]
              exact ⟨later, rfl, others, rfl⟩
            · have left : piece.drop want ≠ [] := by
                rw [Ne, List.drop_eq_nil_iff]
                exact fits
              rw [if_neg fits, min_eq_left (by omega), List.drop_append_of_le_length (by omega)]
              refine ⟨piece.drop want :: later, rfl, ?_, rfl⟩
              rw [List.mem_cons]
              exact not_or.mpr ⟨Ne.symm left, others⟩

/-- An input that fits is appended as a whole, whatever the sizes of its parts are. -/
theorem settle_readInputBounded (fs : Fs) {limit : Nat} (input : Bytes) :
    ∀ {server : FileServer} {rest : Bytes} {reader : AsyncRead}, Holds server rest reader →
      input.length ≤ limit → ∃ next after, settle respond (readInputBounded fs limit reader input) server =
        some (.ok (if (input ++ rest).length ≤ limit then .ok (input ++ rest)
          else .error .inputTooLarge, next), after) ∧
      Retains server after ∧ ((input ++ rest).length ≤ limit → Holds after [] next) := by
  intro server rest reader holds fits
  obtain ⟨positive, -, -⟩ := probe_bounds fs limit input.length
  obtain ⟨bytes, next, middle, settled, keeps, ⟨later, rfl⟩, ended, held⟩ := holds.read fs positive
  rw [List.drop_left] at held
  rw [readInputBounded]
  change ∃ next after, settle respond (attempt fs.check >>= _) server = _ ∧ _
  rw [settle_bind_ok (settle_attempt settle_check)]
  dsimp only
  rw [settle_bind_ok settled]
  dsimp only
  by_cases none : bytes.length = 0
  · have empty := List.eq_nil_of_length_eq_zero none
    have done : bytes ++ later = [] := ended empty
    have last : later = [] := (List.append_eq_nil_iff.mp done).2
    rw [dif_pos none, done, List.append_nil, if_pos fits]
    exact ⟨next, middle, rfl, keeps, fun _ => last ▸ held⟩
  · rw [dif_neg none]
    by_cases large : limit - input.length < bytes.length
    · have longer : ¬ (input ++ (bytes ++ later)).length ≤ limit := by
        simp only [List.length_append]
        omega
      rw [dif_pos large, if_neg longer]
      exact ⟨next, middle, rfl, keeps, fun within => absurd within longer⟩
    · have within : (input ++ bytes).length ≤ limit := by
        rw [List.length_append]
        omega
      rw [dif_neg large, ← List.append_assoc]
      obtain ⟨last, after, looped, kept, empty⟩ :=
        settle_readInputBounded fs (input ++ bytes) held within
      exact ⟨last, after, looped, keeps.trans kept, empty⟩
termination_by limit - input.length
decreasing_by
  simp only [List.length_append]
  omega

/-- A file that was just opened has its whole content before it. -/
theorem tracks_new (server : FileServer) (path : Text) (reads : Nat) :
    Tracks (server.holding { path, registered := true } reads) (.new server.files.length)
      (server.contents path).val where
  opened := by
    intro handle opened
    obtain rfl := Option.some.inj opened
    exact ⟨_, contentOf_holding _ _ _, (server.contents path).property, Nat.zero_le _, rfl, .inl rfl⟩
  closed := nofun

theorem settle_drop (server : FileServer) (reader : AsyncRead) :
    ∃ after, settle respond reader.drop server = some (.ok (), after) ∧ Retains server after := by
  cases reader with
  | pieces reader => exact ⟨server, rfl, retains_refl server⟩
  | file reader awaits =>
      obtain ⟨after, closed, keeps⟩ := settle_closeHandle server reader
      exact ⟨after, settle_bind_ok closed, keeps⟩

/-- What one input adds, and what is left of the standard input behind it. -/
def contribution (contents : Text → Bytes) (file : Text) (stdin : Bytes) : Bytes × Bytes :=
  if file = ['-'] then (stdin, []) else (contents file, stdin)

theorem gathered_cons (contents : Text → Bytes) (file : Text) (files : List Text) (stdin : Bytes) :
    gathered contents (file :: files) stdin = (contribution contents file stdin).1 ++
      gathered contents files (contribution contents file stdin).2 := by
  change (if file = ['-'] then stdin ++ gathered contents files []
    else contents file ++ gathered contents files stdin) = _
  unfold contribution
  split_ifs <;> rfl

def contentsFor (fs : Fs) (server : FileServer) (path : Text) : Bytes :=
  (server.contents (fs.resolve path)).val

theorem settle_readOneInput {stdin : AsyncRead} (holds : Holds server rest stdin) {limit : Nat}
    {input : Bytes} (fits : input.length ≤ limit) {file : Text}
    (readable : file ≠ ['-'] → fs.Readable file) (awaits : List (List Nat)) :
    let added := contribution (contentsFor fs server) file rest
    ∃ next after, settle respond (readOneInput fs limit awaits file stdin input) server =
        some (.ok (if (input ++ added.1).length ≤ limit then .ok (input ++ added.1)
          else .error .inputTooLarge, next), after) ∧
      after.contents = server.contents ∧
      ((input ++ added.1).length ≤ limit → Holds after added.2 next) := by
  unfold readOneInput contribution
  by_cases standard : file = ['-']
  · obtain ⟨next, after, settled, keeps, held⟩ := settle_readInputBounded fs input holds fits
    rw [if_pos standard, if_pos standard]
    exact ⟨next, after, settled, keeps.contents, held⟩
  · rw [if_neg standard, if_neg standard]
    have opened := @settle_open fs server file (readable standard) .readOnly
    have tracks := tracks_new server (fs.resolve file) server.reads
    have kept := retains_holding server { path := fs.resolve file, registered := true } server.reads
    obtain ⟨reader, middle, settled, keeps, -⟩ :=
      @settle_readInputBounded fs limit input _ _ (.file (.new server.files.length) awaits) tracks fits
    obtain ⟨after, dropped, unchanged⟩ := settle_drop middle reader
    have whole := (kept.trans keeps).trans unchanged
    change ∃ next after, settle respond (attempt (fs.open file .readOnly) >>= _) server = _ ∧ _
    rw [settle_bind_ok (settle_attempt opened)]
    dsimp only
    rw [settle_bind_ok settled]
    dsimp only
    rw [settle_bind_ok dropped]
    exact ⟨stdin, after, rfl, whole.contents, fun _ => holds.keeps whole⟩

/-- The inputs share the limit, so it decides about all of them together. -/
theorem settle_readEachInput (files : List Text) {stdin : AsyncRead}
    (holds : Holds server rest stdin) {limit : Nat} {input : Bytes} (fits : input.length ≤ limit)
    (readable : ∀ file ∈ files, file ≠ ['-'] → fs.Readable file) (cmd : Text)
    (awaits : Nat → List (List Nat)) :
    let whole := input ++ gathered (contentsFor fs server) files rest
    ∃ after, settle respond (readEachInput fs limit cmd awaits files stdin input) server =
      some (.ok (if whole.length ≤ limit then .ok whole else .error (2, tooLargeReport cmd)), after) := by
  induction files generalizing server stdin rest input with
  | nil =>
      unfold gathered
      dsimp only
      rw [List.append_nil, if_pos fits]
      exact ⟨server, rfl⟩
  | cons file files ih =>
      obtain ⟨first, others⟩ := List.forall_mem_cons.mp readable
      obtain ⟨next, middle, settled, same, held⟩ :=
        settle_readOneInput holds fits first (awaits files.length)
      rw [gathered_cons, ← List.append_assoc]
      unfold readEachInput
      rw [settle_bind_ok settled]
      by_cases within : (input ++ (contribution (contentsFor fs server) file rest).1).length ≤ limit
      · rw [if_pos within]
        dsimp only
        have contents : contentsFor fs middle = contentsFor fs server := by
          unfold contentsFor
          rw [same]
        obtain ⟨after, later⟩ := ih (held within) within others
        rw [contents] at later
        exact ⟨after, later⟩
      · rw [if_neg within]
        dsimp only
        have longer : ¬ (input ++ (contribution (contentsFor fs server) file rest).1 ++
            gathered (contentsFor fs server) files
              (contribution (contentsFor fs server) file rest).2).length ≤ limit := by
          rw [List.length_append]
          omega
        rw [if_neg longer]
        refine ⟨middle, ?_⟩
        unfold failedInput Fs.isCancelled
        cases fs.controlled <;> rfl

end Streams

/-- Bounded reads and streams give the content of a file exactly, however few bytes a read gives,
and a bound refuses exactly what is longer. -/
theorem bounded_reads_exact (fs : Fs) (server : FileServer) :
    (∀ path limit, fs.Readable path → ∃ reads,
      let content := contentsFor fs server path
      server.perform (fs.readFileBounded path limit) =
        some (if content.length ≤ min limit fs.limits.hostInputBytes then .ok content
          else .error .EFBIG,
          { server with reads, files := server.files ++ [spent (fs.resolve path)] })) ∧
    (∀ path polls, fs.Readable path → ∃ answers reader after,
      (server.perform do
        let handle ← fs.streamReader path
        FsStreamReader.pollAll fs polls (.new handle)) = some (.ok (answers, reader), after) ∧
      Streamed (contentsFor fs server path) polls answers) ∧
    ∀ files stdin rest limit cmd awaits, Holds server rest stdin →
      (∀ file ∈ files, file ≠ ['-'] → fs.Readable file) → ∃ after,
      let input := gathered (contentsFor fs server) (if files = [] then [['-']] else files) rest
      server.perform (readInputs fs files stdin limit cmd awaits) =
        some (.ok (if input.length ≤ limit then .ok input else .error (2, tooLargeReport cmd)),
          after) := by
  refine ⟨fun path limit readable => settle_readFileBounded readable limit, ?_, ?_⟩
  · intro path polls readable
    have opened := @settle_open fs server path readable .readOnly
    have tracks := tracks_new server (fs.resolve path) server.reads
    obtain ⟨answers, reader, after, polled, streamed⟩ := tracks.pollAll fs polls
    exact ⟨answers, reader, after, (settle_bind_ok opened).trans polled, streamed⟩
  · intro files stdin rest limit cmd awaits holds readable
    apply settle_readEachInput _ holds (Nat.zero_le limit)
    intro file member
    split_ifs at member
    · intro other
      exact absurd (List.mem_singleton.mp member) other
    · exact readable file member

/-- Every file of this server has three bytes, and a read gives one of them. -/
def slowServer : FileServer where
  contents := fun _ => ⟨[1, 2, 3], by decide⟩
  grants := fun _ => 1
  fast := fun _ => false

def rootFs : Fs where
  binCommands := ∅
  cwd := ['/']
  limits := {}
  controlled := true

theorem bounded_reads_exact_slow : ∃ reads,
    slowServer.perform (rootFs.readFileBounded ['f'] 2) =
      some (.error .EFBIG, { slowServer with reads, files := [spent (rootFs.resolve ['f'])] }) :=
  (bounded_reads_exact rootFs slowServer).1 ['f'] 2 (by decide +kernel)

end TinySandbox.Sandbox
