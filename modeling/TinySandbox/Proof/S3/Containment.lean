/-
This file shows that every request of the S3 backend stays below the configured prefix.
The keys of files and of directory markers never meet.
-/

import TinySandbox.Proof.S3.Requests

namespace TinySandbox.S3
open Library Library.Task Mem

/-- Every key and every prefix of the request starts with the configured prefix. -/
def Inside (vfs : S3Vfs) (request : Request) : Prop :=
  ∀ key ∈ request.keys, vfs.rootPrefix <+: key

section Inside
variable {vfs : S3Vfs}

theorem key_inside (vfs : S3Vfs) {components : Path} (below : components ≠ []) :
    vfs.rootPrefix <+: vfs.key components := by
  rw [S3Vfs.key, if_neg below]
  exact List.prefix_append _ _

theorem directoryPrefix_inside (vfs : S3Vfs) (components : Path) :
    vfs.rootPrefix <+: vfs.directoryPrefix components := by
  unfold S3Vfs.directoryPrefix
  split
  · exact List.prefix_rfl
  · rename_i below
    exact (key_inside vfs below).trans (List.prefix_append _ _)

theorem inside_of_keys {key : Text} (below : vfs.rootPrefix <+: key) (request : Request)
    (named : request.keys = [key]) : Inside vfs request := by
  intro other member
  rw [named, List.mem_singleton] at member
  exact member ▸ below

theorem allowsProbes_inside (vfs : S3Vfs) : AllowsProbes vfs (Inside vfs) where
  head _ below := inside_of_keys (key_inside vfs below) _ rfl
  list components _ _ _ := inside_of_keys (directoryPrefix_inside vfs components) _ rfl

theorem preserveDirectory_inside (components : Path) :
    Sends (Inside vfs) (vfs.preserveDirectory components) := by
  have below := directoryPrefix_inside vfs components
  apply sends_ite
  · intro _
    exact sends_pure _
  · intro _
    apply (sends_send (inside_of_keys below _ rfl)).bind
    intro page
    apply sends_ite
    · intro _
      exact sends_pure _
    · intro _
      exact putObject_sends (inside_of_keys below) _ _

theorem renameFile_inside {source target : Path} (left : source ≠ []) (right : target ≠ [])
    (file : RemoteFile) : Sends (Inside vfs) (vfs.renameFile source target file) := by
  apply Sends.bind
  · apply sends_send
    intro key member
    rcases List.mem_pair.mp member with rfl | rfl
    · exact key_inside vfs left
    · exact key_inside vfs right
  · intro _
    exact sends_send (inside_of_keys (key_inside vfs left) _ rfl)

/-- Only keys below the listed prefix are kept, whatever the pages say. -/
theorem recursiveLoop_guards (components : Path) (fuel : Nat) (continuation : Option Text)
    (seenTokens keys : List Text) (inside : ∀ key ∈ keys, vfs.directoryPrefix components <+: key) :
    Guards (Inside vfs)
      (vfs.recursiveLoop (vfs.directoryPrefix components) fuel continuation seenTokens keys) ()
      (fun keys _ => ∀ key ∈ keys, vfs.directoryPrefix components <+: key) (fun _ _ => True) := by
  induction fuel generalizing continuation seenTokens keys with
  | zero => exact guards_diverge
  | succ fuel ih =>
      unfold S3Vfs.recursiveLoop
      rw [guards_bind_iff, guards_send_iff]
      apply And.intro ((allowsProbes_inside vfs).list components [] continuation none)
      intro response
      cases response with
      | error error => exact trivial
      | ok page =>
          have grown : ∀ key ∈ keys ++ (page.objects.map ListedObject.key).filter
              (vfs.directoryPrefix components <+: ·), vfs.directoryPrefix components <+: key := by
            intro key member
            rcases List.mem_append.mp member with old | new
            · exact inside key old
            · exact of_decide_eq_true (List.mem_filter.mp new).2
          rw [mapErr_ok, ends_ok]
          split
          · exact grown
          · apply guards_lift_bind (fun _ _ => trivial)
            intro next _
            exact ih _ _ _ grown

theorem copyKeys_inside (source target : Path) (keys : List Text)
    (inside : ∀ key ∈ keys, vfs.directoryPrefix source <+: key) :
    Sends (Inside vfs)
      (vfs.copyKeys (vfs.directoryPrefix source) (vfs.directoryPrefix target) keys) := by
  induction keys with
  | nil => exact sends_pure _
  | cons key rest ih =>
      rw [List.forall_mem_cons] at inside
      unfold S3Vfs.copyKeys
      split
      · exact ih inside.2
      · apply Sends.bind
        · apply sends_send
          intro other member
          rcases List.mem_pair.mp member with rfl | rfl
          · exact (directoryPrefix_inside vfs source).trans inside.1
          · exact (directoryPrefix_inside vfs target).trans (List.prefix_append _ _)
        · intro _
          exact ih inside.2

theorem deleteKeys_inside (keys : List Text) (inside : ∀ key ∈ keys, vfs.rootPrefix <+: key) :
    Sends (Inside vfs) (vfs.deleteKeys keys) := by
  induction keys with
  | nil => exact sends_pure _
  | cons key rest ih =>
      rw [List.forall_mem_cons] at inside
      exact (sends_send (inside_of_keys inside.1 _ rfl)).bind fun _ => ih inside.2

theorem renameDirectory_inside (source target : Path) :
    Sends (Inside vfs) (vfs.renameDirectory source target) := by
  intro state
  apply (recursiveLoop_guards source _ none [] [] (by simp)).bind
  intro keys _ inside
  apply guards_lift_bind (fun _ _ => trivial)
  intro _ _
  apply (copyKeys_inside source target keys inside).bind
  intro _
  apply deleteKeys_inside
  intro key member
  exact (directoryPrefix_inside vfs source).trans (inside key member)

theorem mkdir_inside (path : Text) : Sends (Inside vfs) (vfs.mkdir path) := by
  have probes := allowsProbes_inside vfs
  apply (sends_lift _).bind
  intro components
  apply (sends_lift _).bind
  intro _
  apply (sends_refuse _ _).bind
  intro _
  apply (validateParents_sends probes components).bind
  intro _
  apply (kindAt_sends probes components).bind
  intro kind
  apply (sends_refuse _ _).bind
  intro _
  exact putObject_sends (inside_of_keys (directoryPrefix_inside vfs components)) _ _

theorem moveKind_inside {source target : Path} (left : source ≠ []) (right : target ≠ [])
    (kind : Kind) : Sends (Inside vfs) (vfs.moveKind source target kind) := by
  cases kind with
  | file file => exact renameFile_inside left right file
  | directory nonempty =>
      exact (sends_refuse _ _).bind fun _ => renameDirectory_inside source target

theorem rename_inside (source target : Text) : Sends (Inside vfs) (vfs.rename source target) := by
  have probes := allowsProbes_inside vfs
  apply (sends_lift _).bind
  intro source
  apply (sends_lift _).bind
  intro target
  apply (sends_lift _).bind
  intro _ state
  apply guards_refuse_bind (fun _ => trivial)
  intro below
  rw [not_or] at below
  apply (validateParents_sends probes source).bind
  intro _
  apply (kindAt_sends probes source).bind
  intro found
  apply (sends_lift _).bind
  intro kind
  apply sends_ite
  · intro _
    exact sends_pure _
  · intro _
    apply (sends_refuse _ _).bind
    intro _
    apply (validateParents_sends probes target).bind
    intro _
    apply (kindAt_sends probes target).bind
    intro existing
    apply (sends_lift _).bind
    intro _
    apply (moveKind_inside below.1 below.2 kind).bind
    intro _
    exact preserveDirectory_inside _

theorem unlink_inside (path : Text) : Sends (Inside vfs) (vfs.unlink path) := by
  have probes := allowsProbes_inside vfs
  apply (sends_lift _).bind
  intro components
  apply (sends_lift _).bind
  intro _ state
  apply guards_refuse_bind (fun _ => trivial)
  intro below
  apply (validateParents_sends probes components).bind
  intro _
  apply (kindAt_sends probes components).bind
  intro kind
  apply (sends_lift _).bind
  intro file
  apply (sends_send (inside_of_keys (key_inside vfs below) _ rfl)).bind
  intro _
  exact preserveDirectory_inside _

theorem deleteMarker_inside (components : Path) :
    Sends (Inside vfs) (vfs.deleteMarker components) := by
  apply (sends_request (inside_of_keys (directoryPrefix_inside vfs components) _ rfl)).bind
  intro response
  cases response with
  | ok value => exact sends_pure _
  | error error =>
      cases error with
      | missing => exact sends_pure _
      | denied => exact sends_throw _
      | precondition => exact sends_throw _
      | io => exact sends_throw _

theorem rmdir_inside (path : Text) : Sends (Inside vfs) (vfs.rmdir path) := by
  have probes := allowsProbes_inside vfs
  apply (sends_lift _).bind
  intro components
  apply (sends_lift _).bind
  intro _
  apply (sends_refuse _ _).bind
  intro _
  apply (validateParents_sends probes components).bind
  intro _
  apply (kindAt_sends probes components).bind
  intro kind
  apply (sends_lift _).bind
  intro _
  apply (deleteMarker_inside components).bind
  intro _
  exact preserveDirectory_inside _

/-- The key of the handle starts with the configured prefix. -/
def HandleInside (vfs : S3Vfs) (cell : HandleState) : Prop := vfs.rootPrefix <+: cell.key

/-- A call sends its requests inside and opens its handles inside. -/
theorem call_inside (call : VfsCall) {state : State} (all : AllHandles (HandleInside vfs) state) :
    Guards (Inside vfs) (vfs.call call) state (fun _ => AllHandles (HandleInside vfs))
      (fun _ => AllHandles (HandleInside vfs)) := by
  have probes := allowsProbes_inside vfs
  have kept {cell after : HandleState} (good : HandleInside vfs cell)
      (same : KeepsKey cell.key after) : HandleInside vfs after := by
    rw [HandleInside, show after.key = cell.key from same]
    exact good
  have body {α : Type} {task : S3Task HandleState α} (cell : HandleState)
      (good : HandleInside vfs cell)
      (guards : Guards (Inside vfs) task cell (fun _ => KeepsKey cell.key)
        (fun _ => KeepsKey cell.key)) :
      Guards (Inside vfs) task cell (fun _ => HandleInside vfs) (fun _ => HandleInside vfs) :=
    guards.mono (fun _ _ same => kept good same) (fun _ _ same => kept good same)
  cases call with
  | stat path => exact guards_map_iff.mpr ((stat_sends probes path).perform_holds all)
  | readdir path => exact guards_map_iff.mpr ((readdir_sends probes path).perform_holds all)
  | mkdir path => exact guards_map_iff.mpr ((mkdir_inside path).perform_holds all)
  | rename source target =>
      exact guards_map_iff.mpr ((rename_inside source target).perform_holds all)
  | unlink path => exact guards_map_iff.mpr ((unlink_inside path).perform_holds all)
  | rmdir path => exact guards_map_iff.mpr ((rmdir_inside path).perform_holds all)
  | «open» path mode =>
      apply guards_map_iff.mpr
      apply open_guards path mode all
      apply (openHandle_guards probes path mode).mono
      · intro cell _ opened
        obtain ⟨-, components, existing, staging, below, -, rfl⟩ := opened
        exact key_inside vfs below
      · intro _ _ _
        exact trivial
  | readAt handle offset bufLen =>
      apply guards_map_iff.mpr
      apply onHandle_guards handle all
      intro cell good
      exact body cell good (readResolved_guards (inside_of_keys good) offset bufLen)
  | writeAt handle offset data =>
      apply guards_map_iff.mpr
      apply onHandle_guards handle all
      intro cell good
      exact body cell good (writeResolved_guards (inside_of_keys good) offset data)
  | truncate handle len =>
      apply guards_map_iff.mpr
      apply onHandle_guards handle all
      intro cell good
      exact body cell good (truncateResolved_guards (inside_of_keys good) len)
  | close handle =>
      apply guards_map_iff.mpr
      apply onRemoved_guards handle all
      intro cell good
      exact closeResolved_sends (inside_of_keys good)
  | abort handle =>
      apply guards_map_iff.mpr
      apply onRemoved_guards handle all
      intro cell good
      exact abortResolved_sends (inside_of_keys good)

end Inside

section Keys
variable {vfs : S3Vfs}

/-- A configured prefix ends in one slash behind a symbol that is no slash. -/
theorem rootPrefix_eq (named : vfs.rootPrefix ≠ []) :
    ∃ trimmed, vfs.rootPrefix = trimmed ++ ['/'] ∧ trimmed ≠ [] ∧ trimmed.getLast? ≠ some '/' := by
  obtain ⟨text, normal⟩ := vfs.rootNormal
  simp only [normalizePrefix] at normal
  split_ifs at normal with nul empty bad
  · exact absurd (Except.ok.inj normal).symm named
  · have same := Except.ok.inj normal
    apply Exists.intro (trimMatches '/' text)
    apply And.intro same.symm
    apply And.intro empty
    intro ends
    have last := List.rdropWhile_last_not (fun symbol => decide (symbol = '/')) _ empty
    rw [List.getLast?_eq_some_getLast empty] at ends
    exact last (decide_eq_true (Option.some.inj ends))

theorem key_nil {trimmed : Text} (root : vfs.rootPrefix = trimmed ++ ['/'])
    (ends : trimmed.getLast? ≠ some '/') : vfs.key [] = trimmed := by
  rw [S3Vfs.key, if_pos rfl, trimEndMatches, root, List.rdropWhile_concat_pos _ _ _ (by simp),
    List.rdropWhile_eq_self_iff]
  intro filled last
  rw [List.getLast?_eq_some_getLast filled] at ends
  exact ends (congrArg some (of_decide_eq_true last))

theorem intercalate_inj {first second : Path} (left : NormalPath first) (right : NormalPath second)
    (below : first ≠ []) (above : second ≠ [])
    (same : ['/'].intercalate first = ['/'].intercalate second) : first = second := by
  have split (components : Path) (normal : NormalPath components) (below : components ≠ []) :
      (['/'].intercalate components).splitOn '/' = components :=
    List.splitOn_intercalate _ (fun name member => (normal.valid name member).2.2.2.1) below
  rw [← split first left below, same, split second right above]

theorem key_injective (named : vfs.rootPrefix ≠ []) {first second : Path}
    (left : NormalPath first) (right : NormalPath second)
    (same : vfs.key first = vfs.key second) : first = second := by
  obtain ⟨trimmed, root, -, ends⟩ := rootPrefix_eq named
  have apart (components : Path) (below : components ≠ []) :
      vfs.key [] ≠ vfs.key components := by
    intro equal
    have longer := (key_inside vfs below).length_le
    rw [← equal, key_nil root ends, root, List.length_append] at longer
    simp at longer
  by_cases below : first = []
  · by_cases above : second = []
    · rw [below, above]
    · rw [below] at same
      exact absurd same (apart second above)
  · by_cases above : second = []
    · rw [above] at same
      exact absurd same.symm (apart first below)
    · rw [S3Vfs.key, S3Vfs.key, if_neg below, if_neg above, List.append_cancel_left_eq] at same
      exact intercalate_inj left right below above same

theorem key_last (named : vfs.rootPrefix ≠ []) {components : Path} (normal : NormalPath components) :
    (vfs.key components).getLast? ≠ some '/' := by
  obtain ⟨trimmed, root, -, ends⟩ := rootPrefix_eq named
  by_cases below : components = []
  · rw [below, key_nil root ends]
    exact ends
  · obtain ⟨name, last⟩ := Option.ne_none_iff_exists'.mp (mt List.getLast?_eq_none_iff.mp below)
    have valid := normal.valid name (List.mem_of_getLast? last)
    rw [S3Vfs.key, if_neg below, List.getLast?_append, getLast?_intercalate ['/'] last valid.1]
    rw [List.getLast?_eq_some_getLast valid.1, Option.some_or]
    intro slash
    have member := List.getLast_mem valid.1
    rw [Option.some.inj slash] at member
    exact valid.2.2.2.1 member

theorem directoryPrefix_last (named : vfs.rootPrefix ≠ []) (components : Path) :
    (vfs.directoryPrefix components).getLast? = some '/' := by
  obtain ⟨trimmed, root, -, -⟩ := rootPrefix_eq named
  unfold S3Vfs.directoryPrefix
  split
  · rw [root]
    exact List.getLast?_concat ..
  · exact List.getLast?_concat ..

end Keys

/-- Every request of every sequence of calls stays below a configured prefix, whatever the bucket
answers, and the keys of files and of markers are apart. -/
theorem requests_stay_inside (vfs : S3Vfs) (named : vfs.rootPrefix ≠ []) :
    (∀ calls, Guards (Inside vfs) (vfs.lifetime calls) State.new (fun _ _ => True)
      (fun _ _ => True)) ∧
    (∀ first second, NormalPath first → NormalPath second → first ≠ second →
      vfs.key first ≠ vfs.key second) ∧
    (∀ components, NormalPath components → (vfs.key components).getLast? ≠ some '/') ∧
    (∀ components, (vfs.directoryPrefix components).getLast? = some '/') ∧
    (∀ file directory, NormalPath file → vfs.key file ≠ vfs.directoryPrefix directory) := by
  refine ⟨?_, ?_, ?_, directoryPrefix_last named, ?_⟩
  · intro calls
    apply lifetime_guards (HandleInside vfs) calls
    · intro handle cell found
      cases found
    · intro call _ state all
      exact call_inside call all
    · intro cell good
      exact dropResolved_sends (inside_of_keys good)
  · intro first second left right different same
    exact different (key_injective named left right same)
  · intro components normal
    exact key_last named normal
  · intro file directory normal same
    have marker := directoryPrefix_last named directory
    rw [← same] at marker
    exact key_last named normal marker

/-- This filesystem shows the keys below one tenant. -/
def S3Vfs.tenant : S3Vfs :=
  { S3Vfs.sample with rootPrefix := ['t', '/'], rootNormal := ⟨['t'], by decide⟩ }

theorem requests_stay_inside_tenant :
    S3Vfs.tenant.rootPrefix ≠ [] ∧
    Guards (Inside S3Vfs.tenant)
      (S3Vfs.tenant.lifetime [.rename ['/', 'a'] ['/', '.', '.', '/', 'b'], .readdir ['/']])
      State.new (fun _ _ => True) (fun _ _ => True) :=
  ⟨by decide, (requests_stay_inside S3Vfs.tenant (by decide)).1 _⟩

end TinySandbox.S3
