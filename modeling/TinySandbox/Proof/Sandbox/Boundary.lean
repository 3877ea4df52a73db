/-
This file shows which paths the sandbox hands to a backend.
The directory of commands is virtual, and no path at it or below it gets there.
-/

import TinySandbox.Library.Guarded
import TinySandbox.Proof.Sandbox.Resolution

namespace TinySandbox.Sandbox
open Library Library.Task Mem

/-- These are the paths that a request shows to the backend. -/
def FsRequest.paths : FsRequest → List Text
  | .isFastPath path => [path]
  | .vfs call => call.paths
  | .isCancelled => []
  | .reserve => []
  | .release => []
  | .insert _ => []
  | .remove _ => []
  | .abandon _ => []
  | .isFastHandle _ => []
  | .acquireWorker => []
  | .spawnBlocking => []

/-- The request shows no path, or the resolved paths of a call whose paths are all confined. -/
def Handed (fs : Fs) (call : FsCall) (request : FsRequest) : Prop :=
  request.paths = [] ∨
    (∀ path ∈ call.paths, fs.Confined path) ∧
      ((∃ sent, request = .vfs sent ∧ sent.paths = call.paths.map fs.resolve) ∨
        ∃ path ∈ call.paths, request = .isFastPath (fs.resolve path))

namespace Fs

variable {fs : Fs} {allowed : FsRequest → Prop} {α : Type}

theorem vfs_sends (call : VfsCall) (permitted : allowed (.vfs call)) :
    Sends allowed (Fs.vfs call) := by
  apply (sends_request permitted).bind
  intro response
  exact sends_lift response

section Pathless
variable (pathless : ∀ request : FsRequest, request.paths = [] → allowed request)
include pathless

theorem request_sends {request : FsRequest} (silent : request.paths = []) :
    Sends allowed (Task.request request : FsTask request.Response) :=
  sends_request (pathless request silent)

theorem isCancelled_sends : Sends allowed fs.isCancelled := by
  unfold isCancelled
  split
  · exact request_sends pathless rfl
  · exact sends_pure false

theorem check_sends : Sends allowed fs.check := by
  apply (isCancelled_sends pathless).bind
  intro cancelled
  exact sends_refuse _ _

theorem checkPath_bind_sends {path : Text} {next : Unit → FsTask α}
    (rest : fs.PathPasses path → Sends allowed (next ())) :
    Sends allowed (fs.checkPath path >>= next) := by
  unfold checkPath
  rw [bind_assoc]
  apply (check_sends pathless).bind
  intro _
  apply sends_refuse_bind
  intro passes
  exact rest (not_not.mp passes)

theorem checkUnless_sends (cleanup : Bool) : Sends allowed (fs.checkUnless cleanup) :=
  sends_ite (fun _ => sends_pure ()) (fun _ => check_sends pathless)

theorem dispatch_sends {fast cleanup : Bool} {operation : FsTask α}
    (sends : Sends allowed operation) : Sends allowed (fs.dispatch fast cleanup operation) := by
  apply (checkUnless_sends pathless cleanup).bind
  intro _
  split
  · exact sends
  · apply (request_sends pathless rfl).bind
    intro permit
    apply sends_refuse_bind
    intro _
    apply (request_sends pathless rfl).bind
    intro ran
    apply sends_refuse_bind
    intro _
    apply (checkUnless_sends pathless cleanup).bind
    intro _
    exact sends

theorem dispatchPath_sends {path : Text} {operation : FsTask α}
    (probes : allowed (.isFastPath path)) (sends : Sends allowed operation) :
    Sends allowed (fs.dispatchPath path operation) := by
  apply checkPath_bind_sends pathless
  intro _
  apply (sends_request probes).bind
  intro fast
  exact dispatch_sends pathless sends

theorem onHandle_sends {handle : Nat} {cleanup : Bool} {operation : FsTask α}
    (sends : Sends allowed operation) : Sends allowed (fs.onHandle handle cleanup operation) := by
  apply (request_sends pathless rfl).bind
  intro fast
  exact dispatch_sends pathless sends

theorem deliver_sends (handle : Nat) : Sends allowed (fs.deliver handle) := by
  apply (request_sends pathless rfl).bind
  intro _
  apply (isCancelled_sends pathless).bind
  intro cancelled
  split
  · apply (request_sends pathless rfl).bind
    intro removed
    apply (sends_lift removed).bind
    intro _
    apply (vfs_sends _ (pathless _ rfl)).attempt.bind
    intro _
    apply (request_sends pathless rfl).bind
    intro _
    exact sends_throw _
  · exact sends_pure handle

theorem openReserved_sends {path : Text} {mode : OpenMode}
    (opens : allowed (.vfs (.open path mode))) : Sends allowed (fs.openReserved path mode) := by
  apply (request_sends pathless rfl).bind
  intro reserved
  apply (sends_lift reserved).bind
  intro _
  apply (vfs_sends _ opens).attempt.bind
  intro opened
  cases opened with
  | error error =>
      apply (request_sends pathless rfl).bind
      intro _
      exact sends_throw error
  | ok handle => exact deliver_sends pathless handle

theorem open_sends {path : Text} {mode : OpenMode}
    (reaches : fs.PathPasses (fs.resolve path) → isBinPath (fs.resolve path) = false →
      allowed (.isFastPath (fs.resolve path)) ∧ allowed (.vfs (.open (fs.resolve path) mode))) :
    Sends allowed (fs.open path mode) := by
  apply checkPath_bind_sends pathless
  intro passes
  apply sends_refuse_bind
  intro outside
  obtain ⟨probes, opens⟩ := reaches passes (Bool.not_eq_true _ ▸ outside)
  exact dispatchPath_sends pathless probes (openReserved_sends pathless opens)

theorem change_sends {path : Text} {operation : Text → FsTask Unit}
    (reaches : fs.PathPasses (fs.resolve path) → isBinPath (fs.resolve path) = false →
      allowed (.isFastPath (fs.resolve path)) ∧ Sends allowed (operation (fs.resolve path))) :
    Sends allowed (fs.change path operation) := by
  apply checkPath_bind_sends pathless
  intro passes
  apply sends_refuse_bind
  intro outside
  obtain ⟨probes, sends⟩ := reaches passes (Bool.not_eq_true _ ▸ outside)
  exact dispatchPath_sends pathless probes sends

theorem readAt_sends (handle offset bufLen : Nat) :
    Sends allowed (fs.readAt handle offset bufLen) := by
  apply sends_refuse_bind
  intro _
  apply onHandle_sends pathless
  apply (vfs_sends _ (pathless _ rfl)).bind
  intro bytes
  apply sends_refuse_bind
  intro _
  exact sends_pure bytes

theorem writeAt_sends (handle offset : Nat) (data : Bytes) :
    Sends allowed (fs.writeAt handle offset data) := by
  apply sends_refuse_bind
  intro _
  apply onHandle_sends pathless
  apply (vfs_sends _ (pathless _ rfl)).bind
  intro count
  apply sends_refuse_bind
  intro _
  exact sends_pure count

theorem truncate_sends (handle len : Nat) : Sends allowed (fs.truncate handle len) :=
  onHandle_sends pathless (vfs_sends _ (pathless _ rfl))

theorem release_sends (handle : Nat) (abort : Bool) : Sends allowed (Fs.release handle abort) := by
  have ends : Sends allowed (if abort then Fs.vfs (.abort handle) else Fs.vfs (.close handle)) :=
    sends_ite (fun _ => vfs_sends _ (pathless _ rfl)) (fun _ => vfs_sends _ (pathless _ rfl))
  apply ends.attempt.bind
  intro result
  apply (request_sends pathless rfl).bind
  intro _
  exact sends_lift result

theorem finish_sends (handle : Nat) (abort : Bool) : Sends allowed (fs.finish handle abort) := by
  apply onHandle_sends pathless
  apply (request_sends pathless rfl).bind
  intro removed
  apply (sends_lift removed).bind
  intro _
  split
  · exact release_sends pathless handle true
  · apply (isCancelled_sends pathless).bind
    intro cancelled
    exact release_sends pathless handle cancelled

theorem owned_sends {handle : Nat} {task : FsTask α} (sends : Sends allowed task) :
    Sends allowed (Fs.owned handle task) := by
  apply sends.attempt.bind
  intro result
  apply (request_sends pathless rfl).bind
  intro _
  exact sends_lift result

-- The loops end, so the induction follows their recursion.
theorem readLoop_sends (handle limit : Nat) (out : Bytes) :
    Sends allowed (fs.readLoop handle limit out) := by
  induction out using readLoop.induct limit with
  | case1 out ih =>
      rw [readLoop]
      apply (check_sends pathless).bind
      intro _
      apply (readAt_sends pathless handle _ _).bind
      intro bytes
      split
      · exact sends_pure out
      · split
        · exact sends_throw _
        · exact ih bytes ‹_› ‹_›

theorem writeLoop_sends (handle : Nat) (data : Bytes) (written : Nat) :
    Sends allowed (fs.writeLoop handle data written) := by
  induction written using writeLoop.induct data with
  | case1 written unfinished ih =>
      rw [writeLoop, dif_pos unfinished]
      apply (check_sends pathless).bind
      intro _
      apply (writeAt_sends pathless handle _ _).bind
      intro count
      split
      · exact sends_throw _
      · exact ih count ‹_›
  | case2 written finished =>
      rw [writeLoop, dif_neg finished]
      exact sends_pure ()

end Pathless

theorem isBinPath_of_binStat {path : Text} (unknown : fs.binStat path = none) :
    isBinPath path = false := by
  unfold binStat at unknown
  unfold isBinPath
  rw [decide_eq_false_iff_not, not_or]
  constructor
  · intro directory
    rw [if_pos directory] at unknown
    cases unknown
  · intro below
    rw [if_pos below] at unknown
    dsimp only at unknown
    split_ifs at unknown

section Handed
variable {call : FsCall}

theorem handed_pathless (request : FsRequest) (silent : request.paths = []) :
    Handed fs call request :=
  .inl silent

/-- A call with one path may ask about it and may send it. -/
theorem handed_path (call : FsCall) (sent : VfsCall) {path : Text} (single : call.paths = [path])
    (shown : sent.paths = [fs.resolve path]) (passes : fs.PathPasses (fs.resolve path))
    (outside : isBinPath (fs.resolve path) = false) :
    Handed fs call (.isFastPath (fs.resolve path)) ∧ Handed fs call (.vfs sent) := by
  have confined : ∀ other ∈ call.paths, fs.Confined other := by
    intro other member
    rw [single, List.mem_singleton] at member
    subst member
    exact confined_of_passes passes outside
  constructor
  · exact .inr ⟨confined, .inr ⟨path, by simp [single], rfl⟩⟩
  · exact .inr ⟨confined, .inl ⟨sent, rfl, by simp [single, shown]⟩⟩

theorem stat_handed (path : Text) : Sends (Handed fs (.stat path)) (fs.stat path) := by
  apply checkPath_bind_sends handed_pathless
  intro passes
  cases known : fs.binStat (fs.resolve path) with
  | some metadata => exact sends_lift metadata
  | none =>
      obtain ⟨probes, sends⟩ := handed_path (.stat path) (.stat (fs.resolve path)) rfl rfl passes
        (isBinPath_of_binStat known)
      exact dispatchPath_sends handed_pathless probes (vfs_sends _ sends)

theorem readdirRoot_handed {path : Text} (root : fs.resolve path = ['/'])
    (passes : fs.PathPasses (fs.resolve path)) :
    Sends (Handed fs (.readdir path)) fs.readdirRoot := by
  obtain ⟨probes, sends⟩ := handed_path (.readdir path) (.readdir (fs.resolve path)) rfl rfl passes
    (by rw [root]; decide)
  rw [root] at probes sends
  apply (dispatchPath_sends handed_pathless probes (vfs_sends _ sends)).bind
  intro entries
  exact sends_pure _

theorem readdir_handed (path : Text) : Sends (Handed fs (.readdir path)) (fs.readdir path) := by
  apply checkPath_bind_sends handed_pathless
  intro passes
  apply sends_ite
  · intro root
    exact readdirRoot_handed root passes
  intro _
  apply sends_ite
  · intro _
    exact sends_pure _
  intro directory
  apply sends_ite
  · intro _
    exact sends_throw _
  intro below
  have outside : isBinPath (fs.resolve path) = false := by
    unfold isBinPath
    rw [decide_eq_false_iff_not, not_or]
    exact ⟨directory, below⟩
  obtain ⟨probes, sends⟩ := handed_path (.readdir path) (.readdir (fs.resolve path)) rfl rfl passes
    outside
  exact dispatchPath_sends handed_pathless probes (vfs_sends _ sends)

theorem change_handed {path : Text} {operation : Text → FsTask Unit} {sent : VfsCall}
    (single : call.paths = [path]) (shown : sent.paths = [fs.resolve path])
    (sends : Handed fs call (.vfs sent) → Sends (Handed fs call) (operation (fs.resolve path))) :
    Sends (Handed fs call) (fs.change path operation) := by
  apply change_sends handed_pathless
  intro passes outside
  obtain ⟨probes, reaches⟩ := handed_path call sent single shown passes outside
  exact ⟨probes, sends reaches⟩

theorem mkdir_handed (path : Text) : Sends (Handed fs (.mkdir path)) (fs.mkdir path) :=
  change_handed rfl rfl (vfs_sends (.mkdir (fs.resolve path)))

theorem unlink_handed (path : Text) : Sends (Handed fs (.unlink path)) (fs.unlink path) :=
  change_handed rfl rfl (vfs_sends (.unlink (fs.resolve path)))

theorem rmdir_handed (path : Text) : Sends (Handed fs (.rmdir path)) (fs.rmdir path) :=
  change_handed rfl rfl (vfs_sends (.rmdir (fs.resolve path)))

theorem rename_handed (source target : Text) :
    Sends (Handed fs (.rename source target)) (fs.rename source target) := by
  apply sends_refuse_bind
  intro outside
  obtain ⟨left, right⟩ := Bool.or_eq_false_iff.mp (Bool.not_eq_true _ ▸ outside)
  apply checkPath_bind_sends handed_pathless
  intro first
  apply checkPath_bind_sends handed_pathless
  intro second
  have confined : ∀ path ∈ (FsCall.rename source target).paths, fs.Confined path := by
    intro path member
    rcases List.mem_pair.mp member with rfl | rfl
    · exact confined_of_passes first left
    · exact confined_of_passes second right
  have probes : ∀ path ∈ (FsCall.rename source target).paths,
      Sends (Handed fs (.rename source target))
        (Task.request (FsRequest.isFastPath (fs.resolve path)) : FsTask Bool) := by
    intro path member
    exact sends_request (.inr ⟨confined, .inr ⟨path, member, rfl⟩⟩)
  have asks : Sends (Handed fs (.rename source target))
      (Fs.areFastPaths (fs.resolve source) (fs.resolve target)) := by
    apply (probes source (by simp [FsCall.paths])).bind
    intro fast
    exact sends_ite (fun _ => probes target (by simp [FsCall.paths])) (fun _ => sends_pure false)
  apply asks.bind
  intro fast
  apply dispatch_sends handed_pathless
  exact vfs_sends _ (.inr ⟨confined, .inl ⟨_, rfl, rfl⟩⟩)

theorem open_handed (call : FsCall) {path : Text} (single : call.paths = [path]) (mode : OpenMode) :
    Sends (Handed fs call) (fs.open path mode) := by
  apply open_sends handed_pathless
  intro passes outside
  exact handed_path call _ single rfl passes outside

/-- The function resolves the path itself, and `open` resolves it again. -/
theorem readFileBounded_handed (call : FsCall) {path : Text} (single : call.paths = [path]) (limit : Nat) :
    Sends (Handed fs call) (fs.readFileBounded path limit) := by
  apply checkPath_bind_sends handed_pathless
  intro passes
  apply sends_ite
  · intro _
    exact sends_throw _
  intro directory
  apply sends_ite
  · intro _
    exact sends_ite (fun _ => sends_pure _) (fun _ => sends_throw _)
  intro below
  have opens : Sends (Handed fs call) (fs.open (fs.resolve path) .readOnly) := by
    apply open_sends handed_pathless
    rw [resolve_resolve]
    intro passes outside
    exact handed_path call _ single rfl passes outside
  apply opens.bind
  intro handle
  apply owned_sends handed_pathless
  apply (readLoop_sends handed_pathless handle _ []).attempt.bind
  intro result
  apply (finish_sends handed_pathless handle false).attempt.bind
  intro closed
  cases result with
  | error error => exact sends_throw error
  | ok data =>
      cases closed with
      | error error => exact sends_throw error
      | ok _ => exact sends_pure data

theorem writeFile_handed (path : Text) (data : Bytes) (append : Bool) :
    Sends (Handed fs (.writeFile path data append)) (fs.writeFile path data append) := by
  apply sends_refuse_bind
  intro _
  apply (open_handed (.writeFile path data append) rfl _).bind
  intro handle
  apply owned_sends handed_pathless
  apply (writeLoop_sends handed_pathless handle data 0).attempt.bind
  intro result
  cases result with
  | error error =>
      apply (finish_sends handed_pathless handle true).attempt.bind
      intro _
      exact sends_throw error
  | ok _ => exact finish_sends handed_pathless handle false

theorem touch_handed (path : Text) : Sends (Handed fs (.touch path)) (fs.touch path) := by
  apply (open_handed (.touch path) rfl _).bind
  intro handle
  exact owned_sends handed_pathless (finish_sends handed_pathless handle false)

end Handed

theorem call_handed (fs : Fs) (call : FsCall) : Sends (Handed fs call) (fs.call call) := by
  cases call with
  | stat path => exact stat_handed path
  | readdir path => exact readdir_handed path
  | mkdir path => exact mkdir_handed path
  | rename source target => exact rename_handed source target
  | unlink path => exact unlink_handed path
  | rmdir path => exact rmdir_handed path
  | readFile path =>
      exact readFileBounded_handed (.readFile path) rfl fs.limits.hostInputBytes
  | readFileBounded path limit =>
      exact readFileBounded_handed (.readFileBounded path limit) rfl limit
  | streamReader path => exact open_handed (.streamReader path) rfl .readOnly
  | writeFile path data append => exact writeFile_handed path data append
  | touch path => exact touch_handed path
  | «open» path mode => exact open_handed (.open path mode) rfl mode
  | readAt handle offset bufLen => exact readAt_sends handed_pathless handle offset bufLen
  | writeAt handle offset data => exact writeAt_sends handed_pathless handle offset data
  | truncate handle len => exact truncate_sends handed_pathless handle len
  | close handle => exact finish_sends handed_pathless handle false
  | abort handle => exact finish_sends handed_pathless handle true

end Fs

/-- Every spelling of a path resolves to one canonical path, and only confined ones are sent. -/
theorem resolved_paths_confined (fs : Fs) :
    (∀ path, Canonical (fs.resolve path) ∧ fs.resolve (fs.resolve path) = fs.resolve path) ∧
      ∀ call, Sends (Handed fs call) (fs.call call) := by
  constructor
  · intro path
    exact ⟨fs.resolve_canonical path, fs.resolve_resolve path⟩
  · exact fs.call_handed

example : normalizeAbsolute "/x/..//bin/./cat/".toList = "/bin/cat".toList := by decide

end TinySandbox.Sandbox
