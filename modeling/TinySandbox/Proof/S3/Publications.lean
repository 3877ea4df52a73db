/-
This file shows that a conditional publication replaces what its handle saw when it was opened.
-/

import TinySandbox.Proof.S3.Appends
import TinySandbox.Proof.S3.Probes
import TinySandbox.Proof.S3.Revisions

namespace TinySandbox.S3
open Library Library.Task

/-- The request neither looks at an object nor changes one. -/
def Request.Stages : Request → Prop
  | .get .. => True
  | .createUpload .. => True
  | .uploadPart .. => True
  | _ => False

/-- The log ends with a publication that succeeded. -/
def Lands (key : Text) (precondition : Precondition) (log : List S3Event) : Prop :=
  ∃ work request, ∃ payload : Payload request, log = work ++ [⟨request, .ok payload⟩] ∧
    (∀ event ∈ work, event.1.Stages) ∧ request.Publishes key precondition

section Handles
variable {vfs : S3Vfs} {precondition : Precondition} {cell : HandleState} {log : List S3Event}

theorem useHandle_kept (ops : List HandleOp) (keeps : ∀ op ∈ ops, op.releases = false)
    (unreleased : cell.released = false) (sent : Sent vfs false precondition cell log) :
    (useHandle vfs ops).Wp cell log
      (fun _ after log => Kept vfs precondition cell.key false after log)
      (fun _ _ _ => False) := by
  induction ops generalizing cell log with
  | nil =>
      unfold useHandle
      rw [wp_pure_iff]
      exact ⟨rfl, unreleased, sent⟩
  | cons op rest ih =>
      rw [List.forall_mem_cons] at keeps
      have later : ∀ (reply : VfsResult Unit) after reached,
          Kept vfs precondition cell.key op.releases after reached →
          Wp (useHandle vfs rest >>= fun others => pure (reply :: others)) after reached
            (fun _ after log => Kept vfs precondition cell.key false after log)
            (fun _ _ _ => False) := by
        intro reply after reached kept
        apply Wp.bind (ih keeps.2 (kept.released.trans keeps.1) kept.sent)
        intro others final reached held
        rw [wp_pure_iff]
        exact ⟨held.key.trans kept.key, held.released, held.sent⟩
      unfold useHandle
      rw [wp_bind_iff, wp_attempt_iff]
      exact (body_sent op unreleased sent).mono (fun _ => later _) (fun _ => later _)

theorem Publishes.lands {key : Text} {body : Bytes}
    (published : Publishes vfs key precondition body log) : Lands key precondition log := by
  rcases published with rfl | ⟨upload, parts, -, -, rfl⟩
  · exact ⟨[], Request.put vfs.bucket key body precondition, (), rfl, by simp, rfl, rfl⟩
  · refine ⟨_, Request.completeUpload vfs.bucket key upload.id (parts.map Prod.fst) precondition, (),
      rfl, ?_, rfl, rfl⟩
    intro event member
    rcases List.mem_cons.mp member with rfl | sent
    · trivial
    · obtain ⟨part, -, rfl⟩ := List.mem_map.mp sent
      trivial

/-- A close of a handle with a staged change lands it under the precondition of the open. -/
theorem closeResolved_lands (unreleased : cell.released = false)
    (sent : Sent vfs false precondition cell log) (staged : cell.staging.staged = true) :
    vfs.closeResolved.Wp cell log
      (fun _ _ log => Lands cell.key (vfs.precondition precondition) log)
      (fun _ _ _ => True) := by
  obtain ⟨key, mode, staging, released⟩ := cell
  obtain rfl : released = false := unreleased
  cases staging with
  | remote file => cases staged
  | failed error => cases staged
  | stream stream =>
      obtain ⟨parts, content, live⟩ := sent
      exact (closeResolved_stream_wp { key, mode, staging := .stream stream, released := false }
        live rfl).mono (fun _ _ _ published => published.2.lands) (fun _ _ _ _ => trivial)
  | buffer buffer =>
      obtain ⟨gets, rfl⟩ := sent
      have changed : buffer.dirty = true := staged
      unfold S3Vfs.closeResolved S3Vfs.commit S3Vfs.commitBuffer S3Vfs.putObject
      rw [wp_bind_iff, wp_get_iff, wp_bind_iff, wp_set_iff, wp_bind_iff, wp_get_iff]
      show Wp (focus buffer _ _) _ _ _ _
      rw [wp_focus_iff, wp_bind_iff, wp_get_iff, if_neg (by simp [changed]), wp_bind_iff,
        wp_set_iff, wp_perform_iff, wp_sendWith_iff]
      intro response
      cases response with
      | error error => trivial
      | ok value =>
          refine ⟨log, Request.put vfs.bucket key (buffer.bytes.getD [])
            (vfs.precondition buffer.precondition), (), rfl, ?_, rfl, rfl⟩
          intro event member
          have get := gets event member
          obtain ⟨request, response⟩ := event
          cases request with
          | get => trivial
          | _ => cases get

theorem useAndClose_lands (ops : List HandleOp) (keeps : ∀ op ∈ ops, op.releases = false)
    (unreleased : cell.released = false) (sent : Sent vfs false precondition cell log) :
    (useAndClose vfs ops).Wp cell log
      (fun outcome _ log => outcome.staged.staging.staged = true → outcome.closed = .ok () →
        Lands cell.key (vfs.precondition precondition) log)
      (fun _ _ _ => False) := by
  unfold useAndClose
  apply Wp.bind (useHandle_kept ops keeps unreleased sent)
  intro replies after reached kept
  rw [wp_bind_iff, wp_get_iff, wp_bind_iff, wp_attempt_iff]
  by_cases dirty : after.staging.staged = true
  · refine (closeResolved_lands kept.released kept.sent dirty).mono ?_ ?_
    · intro _ final log lands
      rw [wp_pure_iff]
      exact fun _ _ => kept.key ▸ lands
    · intro error final log _
      rw [wp_pure_iff]
      intro _ closed
      cases closed
  · intro events result final _
    cases result with
    | ok value => exact wp_pure_iff.mpr (fun staged => absurd staged dirty)
    | error error => exact wp_pure_iff.mpr (fun staged => absurd staged dirty)

end Handles

/-- A new handle has sent nothing and keeps the precondition of its open. -/
theorem openStaging_holds {vfs : S3Vfs} {mode : OpenMode} {existing : Option RemoteFile}
    {staging : Staging} (staged : S3Vfs.openStaging mode existing = .ok staging) (key : Text) :
    Sent vfs false (openPrecondition mode existing) { key, mode, staging, released := false } [] := by
  rcases openStaging_cases staged with ⟨file, -, rfl⟩ | rfl | ⟨bytes, dirty, rfl, -⟩
  · simp [Sent, Gets]
  · exact ⟨[], [], Stream.new_live ..⟩
  · exact ⟨by simp [Gets], rfl⟩

/-- A handle that can write and does not truncate waits for its first change. -/
theorem openStaging_untouched {mode : OpenMode} {file : RemoteFile} {staging : Staging}
    (staged : S3Vfs.openStaging mode (some file) = .ok staging) (writable : mode.write = true)
    (keeps : mode.truncate = false) :
    staging = .buffer {
      source := some file, precondition := .matching file.etag, bytes := none, dirty := false } := by
  simp only [S3Vfs.openStaging, S3Vfs.writeStaging, writable, keeps, if_true] at staged
  rw [Call.ite_error_eq_ok_iff] at staged
  simpa using staged.2.symm

/-- A session that only appends to an existing object. -/
def Client.OnlyAppends (client : Client) : Prop :=
  client.mode.write = true ∧ client.mode.append = true ∧ client.mode.truncate = false ∧
    ∀ op ∈ client.ops, ¬ op.Truncates

/-- The requests of a session whose close lands a change. -/
structure Landed (client : Client) (outcome : Outcome) (components : Path)
    (existing : Option RemoteFile) (probes work : List S3Event) (request : Request)
    (payload : Payload request) (events : List S3Event) : Prop where
  resolved : normalizePath client.path = .ok components
  events : events = probes ++ lookedUp client.vfs (client.vfs.key components) existing ::
    (work ++ [⟨request, .ok payload⟩])
  stages : ∀ event ∈ work, event.1.Stages
  publishes : request.Publishes (client.vfs.key components)
    (client.vfs.precondition (openPrecondition client.mode existing))
  appends : client.OnlyAppends → ∀ file body, existing = some file → file.len = body.length →
    Honest (client.vfs.key components) file body work → ∃ precondition,
      (⟨request, .ok payload⟩ : S3Event) = ⟨.put client.vfs.bucket (client.vfs.key components)
        (body ++ accepted client.ops outcome.replies) precondition, .ok ()⟩

/-- Nothing behind the last look is a look. -/
theorem Landed.not_probe {client : Client} {outcome : Outcome} {components : Path}
    {existing : Option RemoteFile} {probes work : List S3Event} {request : Request}
    {payload : Payload request} {events : List S3Event}
    (landed : Landed client outcome components existing probes work request payload events) :
    ∀ event ∈ work ++ [⟨request, .ok payload⟩], ¬ event.1.IsProbe := by
  intro event member
  rcases List.mem_append.mp member with early | final
  · have stages := landed.stages event early
    obtain ⟨request, response⟩ := event
    cases request <;> simp_all [Request.Stages, Request.IsProbe]
  · obtain rfl := List.mem_singleton.mp final
    have publishes := landed.publishes
    cases request <;> simp_all [Request.Publishes, Request.IsProbe]

theorem session_lands {client : Client} {events : List S3Event} {outcome : Outcome}
    (runs : client.session.Runs () events (.ok outcome) ())
    (staged : outcome.staged.staging.staged = true) (closed : outcome.closed = .ok ()) :
    ∃ components existing probes work request payload,
      Landed client outcome components existing probes work request payload events := by
  unfold Client.session at runs
  rcases runs_bind_iff.mp runs with ⟨error, -, impossible⟩ |
    ⟨opens, later, cell, ⟨⟩, rfl, opened, used⟩
  · cases impossible
  obtain ⟨-, components, existing, staging, resolved, seen, started, rfl⟩ :=
    (openHandle_wp client.path client.mode).ok opened
  obtain ⟨probes, rfl⟩ := List.getLast?_eq_some_iff.mp seen
  obtain ⟨left, inside, -⟩ := runs_focus_iff.mp used
  obtain ⟨work, request, payload, rfl, stages, publishes⟩ :=
    (useAndClose_lands client.ops client.keeps rfl (openStaging_holds started _)).ok inside staged closed
  refine ⟨components, existing, probes, work, request, payload, resolved, ?_, stages, publishes, ?_⟩
  · rw [List.append_assoc]
    rfl
  · rintro ⟨writable, appends, keeps, writes⟩ file body rfl sized honest
    obtain rfl := openStaging_untouched started writable keeps
    have appending : Appending (client.vfs.key components) file body []
        { key := client.vfs.key components
          mode := client.mode
          staging := .buffer {
            source := some file, precondition := .matching file.etag, bytes := none, dirty := false }
          released := false } [] :=
      ⟨rfl, appends, rfl, _, rfl, rfl, fun _ => ⟨rfl, .inr ⟨rfl, rfl, rfl⟩⟩⟩
    obtain ⟨same, landed, precondition, equal, whole⟩ :=
      (useAndClose_appending client.ops client.keeps writes sized appending).ok inside staged closed
    rw [List.nil_append] at equal
    obtain ⟨rfl, last⟩ := List.append_inj' equal rfl
    exact ⟨precondition, by rw [List.singleton_inj.mp last, whole honest]⟩

/-- A step of the client that is no look and no publication selects nothing. -/
theorem filterMap_eq_nil_of_events {α : Type} {number : Nat} {steps : List ClientStep}
    {select : ClientStep → Option α} {skips : S3Event → Prop}
    (own : ∀ state label, (∀ event, label = .client number event → skips event) →
      select (state, label) = none)
    (skipped : ∀ event ∈ steps.filterMap (Pool.eventOf number), skips event) :
    steps.filterMap select = [] := by
  rw [List.filterMap_eq_nil_iff]
  rintro ⟨state, label⟩ member
  apply own
  rintro event rfl
  exact skipped event (List.mem_filterMap.mpr ⟨_, member, Pool.eventOf_eq_some_iff.mpr rfl⟩)

section Traces
variable {service : Service} {number : Nat} {key : Text} {before after : List ClientStep}

/-- A look of the client is the last one when no look follows it. -/
theorem observedAt_eq {observed : BucketState} {bucket : Text}
    {response : Response (.head bucket key)}
    (later : ∀ event ∈ after.filterMap (Pool.eventOf number), ¬ event.1.IsProbe) :
    observedAt number key (before ++ (observed, .client number ⟨.head bucket key, response⟩) :: after) =
      some observed := by
  unfold observedAt
  rw [List.filterMap_append, List.filterMap_cons_some (b := observed) (by simp),
    filterMap_eq_nil_of_events _ later]
  · simp
  · rintro state label own
    split
    · rename_i client bucket target response same
      rw [if_neg]
      rintro ⟨rfl, -⟩
      exact own ⟨.head bucket target, response⟩ same trivial
    · rfl

/-- A publication of the client is the last one when nothing follows it. -/
theorem publishedAt_eq {published : BucketState} {request : Request} {payload : Payload request}
    {precondition : Precondition} (publishes : request.Publishes key precondition)
    (later : after.filterMap (Pool.eventOf number) = []) :
    publishedAt number key (before ++ (published, .client number ⟨request, .ok payload⟩) :: after) =
      some published := by
  have silent : ∀ event ∈ after.filterMap (Pool.eventOf number), False := by simp [later]
  unfold publishedAt
  rw [List.filterMap_append, List.filterMap_cons_some (b := published),
    filterMap_eq_nil_of_events _ silent]
  · simp
  · rintro state label own
    split
    · rename_i same
      rw [if_neg]
      rintro ⟨rfl, -⟩
      exact own _ same
    · rename_i same
      rw [if_neg]
      rintro ⟨rfl, -⟩
      exact own _ same
    · rfl
  · cases request with
    | put => simp [publishes.1]
    | completeUpload => simp [publishes.1]
    | _ => cases publishes

/-- A read of the revision that was seen returns its body. -/
theorem honest_of_trace {first last : ClientPool} {steps : List ClientStep} {object : StoredObject}
    {file : RemoteFile} (trace : ClientTrace service first steps last)
    (recalls : Recalls service key object first.server)
    (same : file = { len := object.body.length, etag := object.etag }) :
    Honest key file object.body (steps.filterMap (Pool.eventOf number)) := by
  rintro request result member rfl tagged ranged
  obtain ⟨events, later, split⟩ := List.append_of_mem member
  obtain ⟨before, after, middle, next, -, -, -, left, served, -⟩ :=
    Pool.exists_step_of_event trace split
  obtain ⟨found, present, matching, read⟩ := Serves.get_ok served
  obtain rfl : found = object := by
    apply (recalls.trace left).2 found present
    rw [matching, tagged, same]
  rw [read, ranged, same, List.drop_zero]
  apply List.take_of_length_le
  show found.body.length ≤ found.body.length - 1 + 1 - 0
  omega

/-- A handle that saw an object, or that must create one, replaces what it saw. A handle that only
appends lands its bytes behind the object it replaces. -/
theorem publication_replaces_observed (service : Service) (clients : Nat → Client)
    (bucket : BucketState) (minted : Minted service bucket) {steps : List ClientStep}
    {last : ClientPool} (trace : ClientTrace service (Client.pool clients bucket) steps last)
    {number : Nat} {outcome : Outcome} (finished : last.clients number = .pure (.ok outcome, ()))
    (conditional : (clients number).vfs.config.conditionalWrites = true)
    (staged : outcome.staged.staging.staged = true) (closed : outcome.closed = .ok ()) :
    ∃ components observed published, normalizePath (clients number).path = .ok components ∧
      observedAt number ((clients number).vfs.key components) steps = some observed ∧
      publishedAt number ((clients number).vfs.key components) steps = some published ∧
      ((clients number).mode.createNew = true ∨
          (observed.objects.get ((clients number).vfs.key components)).isSome →
        published.objects.get ((clients number).vfs.key components) =
          observed.objects.get ((clients number).vfs.key components)) ∧
      ((clients number).OnlyAppends → ∀ object,
        observed.objects.get ((clients number).vfs.key components) = some object →
          ∃ precondition, (published, .client number ⟨.put (clients number).vfs.bucket
            ((clients number).vfs.key components)
            (object.body ++ accepted (clients number).ops outcome.replies) precondition, .ok ()⟩) ∈
              steps) := by
  obtain ⟨components, existing, probes, work, request, payload, landed⟩ :=
    session_lands (trace.runs finished) staged closed
  obtain ⟨before, rest, observed, next, rfl, -, worked, left, looked, right⟩ :=
    Pool.exists_step_of_event trace landed.events
  obtain ⟨middle, after, published, final, rfl, during, silent, between, served, -⟩ :=
    Pool.exists_step_of_event right worked
  refine ⟨components, observed.server, published.server, landed.resolved, ?_, ?_, ?_⟩
  · apply observedAt_eq
    rw [worked]
    exact landed.not_probe
  · rw [← List.cons_append, ← List.append_assoc]
    exact publishedAt_eq landed.publishes silent
  have checked := served.check_of_publishes landed.publishes
  rw [S3Vfs.precondition, if_pos conditional] at checked
  cases existing with
  | none =>
      have absent := looked.head_missing
      refine ⟨?_, ?_⟩
      · rintro (exclusive | present)
        · rw [absent]
          rw [openPrecondition, creationPrecondition, if_pos exclusive] at checked
          exact BucketState.check_absent checked
        · rw [absent] at present
          cases present
      · intro _ object present
        rw [absent] at present
        cases present
  | some file =>
      obtain ⟨object, present, same⟩ := looked.head_ok
      have recalls : Recalls service ((clients number).vfs.key components) object next.server :=
        ((minted.trace left).recalls present).evolves looked.evolves
      refine ⟨?_, ?_⟩
      · intro _
        obtain ⟨found, replaced, tagged⟩ := BucketState.check_matching checked
        rw [replaced, present]
        rw [same] at tagged
        exact congrArg some ((recalls.trace between).2 found replaced tagged)
      · intro appends other found
        obtain rfl := Option.some.inj (present.symm.trans found)
        have honest : Honest _ file object.body (middle.filterMap (Pool.eventOf number)) :=
          honest_of_trace between recalls same
        rw [during] at honest
        obtain ⟨precondition, put⟩ :=
          landed.appends appends file object.body rfl (by rw [same]) honest
        exact ⟨precondition, by rw [← put]; simp⟩

end Traces

/-- This client appends with the mode of the shell operator `>>`. -/
def appender (data : Bytes) : Client where
  vfs := .sample
  path := "/f".toList
  mode := { write := true, create := true, append := true }
  ops := [.write 0 data]
  keeps := by simp [HandleOp.releases]

def appendedStream (data : Bytes) : HandleState where
  key := ['f']
  mode := { write := true, create := true, append := true }
  staging := .stream { Stream.new .none with buffer := data }
  released := false

theorem counting_answers (state : BucketState) (request : Request) :
    Serves Service.counting (· ≠ .missing) state
      ⟨request, (state.respond Service.counting request).1⟩
      (state.respond Service.counting request).2 := .served state request

def storedBucket : BucketState := BucketState.empty.store Service.counting ['f'] [7]

/-- One client appends to an object that is there. -/
def oneAppender : List ClientStep × ClientPool :=
  Pool.schedule (BucketState.respond Service.counting) [0, 0, 0, 0]
    (Client.pool (fun _ => appender [1]) storedBucket)

def appendedBuffer : HandleState where
  key := ['f']
  mode := { write := true, create := true, append := true }
  staging := .buffer {
    source := some ⟨1, ['e']⟩
    precondition := .matching ['e']
    bytes := some [7, 1]
    dirty := true }
  released := false

theorem publication_replaces_observed_append : ∃ steps observed published precondition,
    ClientTrace Service.counting (Client.pool (fun _ => appender [1]) storedBucket) steps
      oneAppender.2 ∧
    observedAt 0 ['f'] steps = some observed ∧ publishedAt 0 ['f'] steps = some published ∧
    published.objects.get ['f'] = observed.objects.get ['f'] ∧
    (published, .client 0 ⟨.put ['b'] ['f'] [7, 1] precondition, .ok ()⟩) ∈ steps := by
  have taken : Pool.schedule (BucketState.respond Service.counting) [0, 0, 0, 0]
      (Client.pool (fun _ => appender [1]) storedBucket) = (oneAppender.1, oneAppender.2) := rfl
  have trace : ClientTrace Service.counting (Client.pool (fun _ => appender [1]) storedBucket)
      oneAppender.1 oneAppender.2 := Pool.trace_schedule counting_answers taken
  have empty : Minted Service.counting .empty := by
    intro key object found
    cases found
  have finished : (oneAppender.2.clients 0).value? =
      some (.ok ⟨appendedBuffer, [.ok ()], .ok ()⟩, ()) := by decide +kernel
  have saw : (observedAt 0 ['f'] oneAppender.1).map (·.objects.get ['f']) =
      some (some ⟨[7], ['e']⟩) := by decide +kernel
  obtain ⟨components, observed, published, resolved, looked, landed, same, appends⟩ :=
    publication_replaces_observed Service.counting (fun _ => appender [1]) storedBucket
      (empty.evolves (.inr (.inl ⟨_, _, rfl, rfl⟩))) trace (Program.eq_pure_of_value? finished) rfl
      rfl rfl
  obtain rfl : [['f']] = components := by
    have parsed : normalizePath (appender [1]).path = .ok [['f']] := by decide
    exact Except.ok.inj (parsed.symm.trans resolved)
  obtain ⟨found, here, present⟩ := Option.map_eq_some_iff.mp saw
  obtain rfl : found = observed := Option.some.inj (here.symm.trans looked)
  have only : (appender [1]).OnlyAppends := ⟨rfl, rfl, rfl, by simp [appender, HandleOp.Truncates]⟩
  obtain ⟨precondition, put⟩ := appends only _ present
  refine ⟨oneAppender.1, found, published, precondition, trace, looked, landed,
    same (.inr ?_), put⟩
  rw [show (appender [1]).vfs.key [['f']] = ['f'] from rfl, present]
  rfl

/-- The first client opens, the second one runs to its end, and the first one closes. -/
def twoAppenders : List ClientStep × ClientPool :=
  Pool.schedule (BucketState.respond Service.counting) [0, 0, 1, 1, 1, 0]
    (Client.pool (fun number => appender (if number = 0 then [1] else [2])) .empty)

/-- Two handles saw no object, and the second one to close replaces the object of the first. -/
theorem plain_create_loses_update : ∃ clients steps last first second observed published,
    ClientTrace Service.counting (Client.pool clients .empty) steps last ∧
    (∀ number, (clients number).vfs.config.conditionalWrites = true) ∧
    last.clients 0 = .pure (.ok first, ()) ∧ last.clients 1 = .pure (.ok second, ()) ∧
    first.staged.staging.staged = true ∧ first.closed = .ok () ∧
    second.staged.staging.staged = true ∧ second.closed = .ok () ∧
    observedAt 0 ['f'] steps = some observed ∧ publishedAt 0 ['f'] steps = some published ∧
    published.objects.get ['f'] ≠ observed.objects.get ['f'] ∧
    (last.server.objects.get ['f']).map StoredObject.body = some [1] ∧
    accepted (clients 1).ops second.replies = [2] := by
  have finished : (twoAppenders.2.clients 0).value? =
      some (.ok ⟨appendedStream [1], [.ok ()], .ok ()⟩, ()) := by decide +kernel
  have other : (twoAppenders.2.clients 1).value? =
      some (.ok ⟨appendedStream [2], [.ok ()], .ok ()⟩, ()) := by decide +kernel
  have saw : (observedAt 0 ['f'] twoAppenders.1).map (·.objects.get ['f']) = some none := by
    decide +kernel
  have replaced : (publishedAt 0 ['f'] twoAppenders.1).map (·.objects.get ['f']) =
      some (some ⟨[2], ['e']⟩) := by decide +kernel
  obtain ⟨observed, looked, absent⟩ := Option.map_eq_some_iff.mp saw
  obtain ⟨published, landed, present⟩ := Option.map_eq_some_iff.mp replaced
  have taken : Pool.schedule (BucketState.respond Service.counting) [0, 0, 1, 1, 1, 0]
      (Client.pool (fun number => appender (if number = 0 then [1] else [2])) .empty) =
      (twoAppenders.1, twoAppenders.2) := rfl
  refine ⟨fun number => appender (if number = 0 then [1] else [2]), _, _, _, _, observed, published,
    Pool.trace_schedule counting_answers taken, fun _ => rfl,
    Program.eq_pure_of_value? finished, Program.eq_pure_of_value? other, rfl, rfl, rfl, rfl, looked,
    landed, ?_, ?_, rfl⟩
  · rw [absent, present]
    decide
  · decide +kernel
end TinySandbox.S3
