/-
This file shows that an entity tag stands for one revision of an object.
-/

import TinySandbox.Construction.S3.Clients
import TinySandbox.Proof.S3.Buckets

namespace TinySandbox.S3
open Library

/-- What a step of the bucket does to its objects. -/
def Evolves (service : Service) (state after : BucketState) : Prop :=
  (after.objects = state.objects ∧ after.nextEtag = state.nextEtag) ∨
  (∃ key body, after.objects = (state.store service key body).objects ∧
    after.nextEtag = state.nextEtag + 1) ∨
  ∃ key, after.objects = state.objects.erase key ∧ after.nextEtag = state.nextEtag

/-- The service gave out the tag for this body. -/
def Issued (service : Service) (state : BucketState) (object : StoredObject) : Prop :=
  ∃ number ≤ state.nextEtag, object.etag = service.mintEtag number object.body

/-- The service gave out the tag of every object. -/
def Minted (service : Service) (state : BucketState) : Prop :=
  ∀ key object, state.objects.get key = some object → Issued service state object

/-- An object with the tag of the given one is the same object. -/
def Recalls (service : Service) (key : Text) (object : StoredObject) (state : BucketState) : Prop :=
  Issued service state object ∧
    ∀ found, state.objects.get key = some found → found.etag = object.etag → found = object

section Evolution
variable {service : Service} {fault : RemoteError → Prop} {state after : BucketState} {key : Text}
  {object : StoredObject}

theorem respond_evolves (request : Request) :
    Evolves service state (state.respond service request).2 := by
  cases request with
  | head => exact .inl ⟨rfl, rfl⟩
  | list => exact .inl ⟨rfl, rfl⟩
  | get => exact .inl ⟨rfl, rfl⟩
  | put bucket target body precondition =>
      simp only [BucketState.respond, BucketState.put]
      split
      · exact .inl ⟨rfl, rfl⟩
      · exact .inr (.inl ⟨target, body, rfl, rfl⟩)
  | delete bucket target precondition =>
      simp only [BucketState.respond, BucketState.delete]
      split
      · exact .inl ⟨rfl, rfl⟩
      · split
        · exact .inl ⟨rfl, rfl⟩
        · exact .inr (.inr ⟨target, rfl, rfl⟩)
  | copy bucket source target precondition =>
      simp only [BucketState.respond, BucketState.copy]
      split
      · exact .inl ⟨rfl, rfl⟩
      · exact .inl ⟨rfl, rfl⟩
      · exact .inr (.inl ⟨target, _, rfl, rfl⟩)
  | createUpload => exact .inl ⟨rfl, rfl⟩
  | uploadPart bucket target uploadId number body =>
      simp only [BucketState.respond, BucketState.uploadPart]
      split <;> exact .inl ⟨rfl, rfl⟩
  | completeUpload bucket target uploadId parts precondition =>
      simp only [BucketState.respond, BucketState.completeUpload]
      split
      · exact .inl ⟨rfl, rfl⟩
      · exact .inl ⟨rfl, rfl⟩
      · split
        · exact .inl ⟨rfl, rfl⟩
        · split
          · exact .inl ⟨rfl, rfl⟩
          · exact .inr (.inl ⟨target, _, rfl, rfl⟩)
  | abortUpload bucket target uploadId =>
      simp only [BucketState.respond, BucketState.abortUpload]
      split <;> exact .inl ⟨rfl, rfl⟩

theorem Serves.evolves {event : S3Event} (serves : Serves service fault state event after) :
    Evolves service state after := by
  cases serves with
  | served request => exact respond_evolves request
  | refused request => exact .inl ⟨rfl, rfl⟩
  | lost request => exact respond_evolves request

theorem Alters.evolves {change : Change} (alters : Alters service state change after) :
    Evolves service state after := by
  cases change with
  | put target body =>
      obtain rfl := alters
      exact .inr (.inl ⟨target, body, rfl, rfl⟩)
  | delete target =>
      obtain rfl := alters
      exact .inr (.inr ⟨target, rfl, rfl⟩)

theorem Evolves.nextEtag_le (evolves : Evolves service state after) :
    state.nextEtag ≤ after.nextEtag := by
  rcases evolves with ⟨-, same⟩ | ⟨_, _, -, next⟩ | ⟨_, -, same⟩ <;> omega

theorem Issued.evolves (issued : Issued service state object)
    (evolves : Evolves service state after) : Issued service after object := by
  obtain ⟨number, bounded, tagged⟩ := issued
  exact ⟨number, bounded.trans evolves.nextEtag_le, tagged⟩

/-- An object that is there after a step was there before, or the step stored it. -/
theorem Evolves.get_eq_some (evolves : Evolves service state after)
    (found : after.objects.get key = some object) :
    state.objects.get key = some object ∨
      (object.etag = service.mintEtag (state.nextEtag + 1) object.body ∧
        after.nextEtag = state.nextEtag + 1) := by
  rcases evolves with ⟨same, -⟩ | ⟨target, body, stored, next⟩ | ⟨target, erased, -⟩
  · exact .inl (same ▸ found)
  · rw [stored] at found
    rcases eq_or_ne target key with rfl | other
    · simp only [BucketState.store, OrderedMap.get_insert, if_true, Option.some.injEq] at found
      obtain rfl := found
      exact .inr ⟨rfl, next⟩
    · exact .inl ((store_get_of_ne body other).symm.trans found)
  · rw [erased, OrderedMap.get_erase] at found
    split at found
    · cases found
    · exact .inl found

theorem Minted.evolves (minted : Minted service state) (evolves : Evolves service state after) :
    Minted service after := by
  intro key object found
  rcases evolves.get_eq_some found with old | ⟨tagged, next⟩
  · exact (minted key object old).evolves evolves
  · exact ⟨state.nextEtag + 1, next.ge, tagged⟩

/-- A later store gives out a new tag, or it stores the same body. -/
theorem Recalls.evolves (recalls : Recalls service key object state)
    (evolves : Evolves service state after) : Recalls service key object after := by
  refine ⟨recalls.1.evolves evolves, ?_⟩
  intro found present same
  rcases evolves.get_eq_some present with old | ⟨tagged, next⟩
  · exact recalls.2 found old same
  · obtain ⟨number, bounded, issued⟩ := recalls.1
    have minted : service.mintEtag (state.nextEtag + 1) found.body =
        service.mintEtag number object.body := by rw [← tagged, same, issued]
    rcases service.etagBody _ _ _ _ minted with clash | equal
    · omega
    · cases found
      cases object
      simp only [StoredObject.mk.injEq]
      exact ⟨equal, same⟩

theorem Minted.recalls (minted : Minted service state)
    (present : state.objects.get key = some object) : Recalls service key object state := by
  refine ⟨minted key object present, ?_⟩
  intro found there _
  exact Option.some.inj (there.symm.trans present)

theorem Recalls.trace {α : Type} {first last : Pool Request Response α BucketState}
    {steps : List ClientStep} (recalls : Recalls service key object first.server)
    (trace : Pool.Trace (Serves service fault) (Alters service) first steps last) :
    Recalls service key object last.server :=
  trace.preserves recalls (fun _ _ _ serves before => before.evolves serves.evolves)
    (fun _ _ _ alters before => before.evolves alters.evolves)

theorem Minted.trace {α : Type} {first last : Pool Request Response α BucketState}
    {steps : List ClientStep} (minted : Minted service first.server)
    (trace : Pool.Trace (Serves service fault) (Alters service) first steps last) :
    Minted service last.server :=
  trace.preserves minted (fun _ _ _ serves before => before.evolves serves.evolves)
    (fun _ _ _ alters before => before.evolves alters.evolves)

end Evolution

section Responses
variable {service : Service} {fault : RemoteError → Prop} {state after : BucketState}

/-- A response without an error is the response of the bucket. -/
theorem Serves.eq_respond {request : Request} {payload : Payload request}
    (serves : Serves service fault state ⟨request, .ok payload⟩ after) :
    (state.respond service request).1 = .ok payload ∧
      after = (state.respond service request).2 := by
  generalize same : (⟨request, .ok payload⟩ : S3Event) = event at serves
  cases serves with
  | served asked =>
      obtain ⟨rfl, equal⟩ := Sigma.mk.inj same
      exact ⟨(eq_of_heq equal).symm, rfl⟩
  | refused asked =>
      obtain ⟨rfl, equal⟩ := Sigma.mk.inj same
      cases eq_of_heq equal
  | lost asked =>
      obtain ⟨rfl, equal⟩ := Sigma.mk.inj same
      cases eq_of_heq equal

theorem Serves.head_ok {bucket key : Text} {file : RemoteFile}
    (serves : Serves service fault state ⟨.head bucket key, .ok file⟩ after) :
    ∃ object, state.objects.get key = some object ∧
      file = { len := object.body.length, etag := object.etag } := by
  have answered : state.head key = .ok file := serves.eq_respond.1
  unfold BucketState.head at answered
  split at answered
  · cases answered
  · rename_i object found
    exact ⟨object, found, (Except.ok.inj answered).symm⟩

/-- A missing object is reported only when there is none. -/
theorem Serves.head_missing {bucket key : Text}
    (serves : Serves service (· ≠ .missing) state ⟨.head bucket key, .error .missing⟩ after) :
    state.objects.get key = none := by
  generalize same : (⟨.head bucket key, .error .missing⟩ : S3Event) = event at serves
  cases serves with
  | served asked =>
      obtain ⟨rfl, equal⟩ := Sigma.mk.inj same
      have answered : state.head key = .error .missing := (eq_of_heq equal).symm
      unfold BucketState.head at answered
      split at answered
      · assumption
      · cases answered
  | refused asked faulty =>
      obtain ⟨rfl, equal⟩ := Sigma.mk.inj same
      obtain rfl := Except.error.inj (eq_of_heq equal)
      exact absurd rfl faulty
  | lost asked faulty =>
      obtain ⟨rfl, equal⟩ := Sigma.mk.inj same
      obtain rfl := Except.error.inj (eq_of_heq equal)
      exact absurd rfl faulty

/-- A response to a read has bytes of the object that carries the tag. -/
theorem Serves.get_ok {request : GetRequest} {result : GetResult}
    (serves : Serves service fault state ⟨.get request, .ok result⟩ after) :
    ∃ object, state.objects.get request.key = some object ∧ object.etag = request.ifMatch ∧
      result.body = (object.body.drop request.range.first).take
        (request.range.last + 1 - request.range.first) := by
  have answered : state.get request = .ok result := serves.eq_respond.1
  unfold BucketState.get at answered
  split at answered
  · cases answered
  · rename_i object found
    rw [Call.ite_error_eq_ok_iff, Call.ite_error_eq_ok_iff, not_not] at answered
    obtain ⟨tagged, -, answered⟩ := answered
    obtain rfl := Except.ok.inj answered
    exact ⟨object, found, tagged, rfl⟩

/-- The request replaces the object under the key if the precondition holds. -/
def Request.Publishes (key : Text) (precondition : Precondition) : Request → Prop
  | .put _ target _ condition => target = key ∧ condition = precondition
  | .completeUpload _ target _ _ condition => target = key ∧ condition = precondition
  | _ => False

/-- A publication succeeds only when its precondition holds. -/
theorem Serves.check_of_publishes {request : Request} {payload : Payload request} {key : Text}
    {precondition : Precondition}
    (serves : Serves service fault state ⟨request, .ok payload⟩ after)
    (publishes : request.Publishes key precondition) : state.check key precondition = .ok () := by
  have answered := serves.eq_respond.1
  cases request with
  | put bucket target body condition =>
      obtain ⟨rfl, rfl⟩ := publishes
      simp only [BucketState.respond, BucketState.put] at answered
      split at answered
      · cases answered
      · assumption
  | completeUpload bucket target uploadId parts condition =>
      obtain ⟨rfl, rfl⟩ := publishes
      simp only [BucketState.respond, BucketState.completeUpload] at answered
      split at answered
      · cases answered
      · cases answered
      · assumption
  | _ => cases publishes

theorem BucketState.check_absent {key : Text} (checked : state.check key .absent = .ok ()) :
    state.objects.get key = none := by
  simp only [BucketState.check] at checked
  split at checked
  · cases checked
  · rename_i absent
    simpa using absent

theorem BucketState.check_matching {key etag : Text}
    (checked : state.check key (.matching etag) = .ok ()) :
    ∃ object, state.objects.get key = some object ∧ object.etag = etag := by
  simp only [BucketState.check] at checked
  split at checked
  · rename_i object found
    rw [Call.ite_eq_ok_iff_of_error] at checked
    exact ⟨object, found, checked.1⟩
  · cases checked

end Responses

end TinySandbox.S3
