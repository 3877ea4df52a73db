/-
This file gives the facts about a bucket that the proofs about several requests use.
-/

import TinySandbox.Construction.S3.Bucket

namespace TinySandbox.S3
open Library

/-- The request can change the object under the key. -/
def Request.Changes (key : Text) : Request → Prop
  | .put _ target _ _ => target = key
  | .delete _ target _ => target = key
  | .copy _ _ target _ => target = key
  | .completeUpload _ target _ _ _ => target = key
  | _ => False

section Objects
variable {service : Service} {fault : RemoteError → Prop} {state : BucketState} {key : Text}

@[simp] theorem tick_objects : state.tick.objects = state.objects := rfl

theorem store_get_of_ne {target : Text} (body : Bytes) (other : target ≠ key) :
    (state.store service target body).objects.get key = state.objects.get key := by
  simp [BucketState.store, other.symm]

/-- A request that names another key leaves the object as it was. -/
theorem respond_objects_get (request : Request) (unchanged : ¬ request.Changes key) :
    (state.respond service request).2.objects.get key = state.objects.get key := by
  cases request with
  | head => rfl
  | list => rfl
  | get => rfl
  | put bucket target body precondition =>
      simp only [BucketState.respond, BucketState.put]
      split
      · rfl
      · exact store_get_of_ne body unchanged
  | delete bucket target precondition =>
      simp only [BucketState.respond, BucketState.delete]
      split
      · rfl
      · split
        · rfl
        · have other : key ≠ target := fun same => unchanged same.symm
          simp [other]
  | copy bucket source target precondition =>
      simp only [BucketState.respond, BucketState.copy]
      split
      · rfl
      · rfl
      · exact store_get_of_ne _ unchanged
  | createUpload => rfl
  | uploadPart bucket target uploadId number body =>
      simp only [BucketState.respond, BucketState.uploadPart]
      split <;> rfl
  | completeUpload bucket target uploadId parts precondition =>
      simp only [BucketState.respond, BucketState.completeUpload]
      split
      · rfl
      · rfl
      · split
        · rfl
        · split
          · rfl
          · exact store_get_of_ne _ unchanged
  | abortUpload bucket target uploadId =>
      simp only [BucketState.respond, BucketState.abortUpload]
      split <;> rfl

theorem Serves.objects_get {event : S3Event} {after : BucketState}
    (serves : Serves service fault state event after) (unchanged : ¬ event.1.Changes key) :
    after.objects.get key = state.objects.get key := by
  cases serves with
  | served request => exact respond_objects_get request unchanged
  | refused request => rfl
  | lost request => exact respond_objects_get request unchanged

/-- Requests that name other keys leave the object as it was. -/
theorem served_objects_get {events : List S3Event} {after : BucketState}
    (served : Program.Served (Serves service fault) state events after)
    (unchanged : ∀ event ∈ events, ¬ event.1.Changes key) :
    after.objects.get key = state.objects.get key := by
  have start : (fun reached : BucketState => reached.objects.get key = state.objects.get key) state :=
    rfl
  apply served.preserves start
  intro before event next member step same
  exact (step.objects_get (unchanged event member)).trans same

end Objects

end TinySandbox.S3
