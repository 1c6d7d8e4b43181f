import MayflyHelper.Preparation
import MayflyHelper.Sandbox

/-! The shortcut for a file that already holds what is asked for. It answers
`NotModified` without a look at the permission bits, which `verify_state`
then objects to; a write would have set them. -/
namespace MayflyHelper

open OracleProgram

/-- `path` is absent, or a regular file with any bits and owner. -/
def Fs.Manageable (fs : Fs) (path : Path) : Prop :=
  fs.node (fs.entry path) = none ∨ ∃ node bytes, fs.lookup false path = .ok node ∧
    node.bytes = some bytes

namespace Shortcut

variable {host : Host} {config : OpsConfig} {w w₁ : World} {request : Request} {update : Update}

/-- If the request is answered ok, the checks of `verify_state` on its file
pass right afterwards. -/
def OkVerifies (host : Host) (config : OpsConfig) (w : World) (request : Request) : Prop :=
  (Ops.serve host config w request).1.ok = true →
    (Program.run host.oracle (request.check config).run (Ops.serve host config w request).2).1 =
      .ok ()

/-- The request gets as far as its file, which holds what is asked for and is
writable by group or other. Making the directories will not change that: the
file does not itself stand where the parent of a managed file belongs. -/
def KeepsExposed (umask : Nat) (config : OpsConfig) (fs : Fs) (request : Request)
    (update : Update) : Prop :=
  request.Reaches umask (fun _ => false) config fs ∧
    (∀ parent ∈ config.parents, fs.target parent ≠ fs.entry update.path) ∧
    ∃ node, fs.lookup false update.path = .ok node ∧ node.isExposed = true ∧
      update.Current node.bytes

theorem link_of_manageable {fs : Fs} {path : Path} (h : fs.Manageable path) :
    fs.link (fs.entry path) = none := by
  rcases h with hAbsent | ⟨node, bytes, hLookup, hBytes⟩
  · exact Fs.link_eq_none_of_absent hAbsent
  · have hNode : fs.node (fs.entry path) = some node := (Fs.lookup_eq_ok_iff.mp hLookup).2
    rw [Fs.link, hNode]
    exact Node.link_of_bytes hBytes

/-- A file that can be read still can be once the directories are prepared. -/
theorem reads_of_prepared {parents : List Path} {fs fs' : Fs} {path : Path} {node : Node}
    {bytes : Bytes}
    (hPrepared : Fs.Prepared parents fs fs') (hLookup : fs.lookup false path = .ok node)
    (hLink : fs.link (fs.entry path) = none) (hBytes : node.bytes = some bytes) :
    fs'.Reads path (some bytes) := by
  have hLinks := hPrepared.sameLinks
  obtain ⟨hFound, hNode⟩ := Fs.lookup_eq_ok_iff.mp hLookup
  refine Fs.reads_of_found (Fs.resolve_noError hLinks hPrepared.isDir false path hFound) ?_ ?_
  · rw [Fs.entry_eq hLinks, hLinks.link, hLink]
  · rw [Fs.entry_eq hLinks, hPrepared.bytesAt, Fs.bytesAt, Fs.entry, hNode]
    exact hBytes

/-- The file of a request that keeps it exposed is found current. -/
theorem KeepsExposed.reads (h : KeepsExposed host.umask config w.fs request update)
    (hManageable : w.fs.Manageable update.path)
    (hPrepared : Fs.Prepared config.parents w.fs w₁.fs) :
    ∃ bytes, w₁.fs.Reads update.path (some bytes) ∧ update.Current (some bytes) := by
  obtain ⟨-, -, node, hLookup, -, hCurrent⟩ := h
  have hNode : w.fs.node (w.fs.entry update.path) = some node := (Fs.lookup_eq_ok_iff.mp hLookup).2
  have hLink := link_of_manageable hManageable
  rcases hManageable with hAbsent | ⟨found, bytes, hFound, hBytes⟩
  · rw [hNode] at hAbsent
    cases hAbsent
  · rw [hLookup] at hFound
    cases hFound
    exact ⟨bytes, reads_of_prepared hPrepared hLookup hLink hBytes, hBytes ▸ hCurrent⟩

/-- Without failing calls a check of a file that was read is about the file. -/
theorem check_ok_iff {path : Path} {accepts : Text → Bool} {result : Except Error Unit × World}
    {node : Node} {bytes : Bytes} (h : CheckResult host w path accepts result)
    (hReliable : host.Reliable)
    (hReads : w.fs.Reads path (some bytes)) (hNode : w.fs.node (w.fs.entry path) = some node) :
    result.1 = .ok () ↔ node.isSound accepts = true := by
  cases h with
  | failed kind calls hNot => exact absurd ⟨hReliable, _, hReads⟩ hNot
  | absent calls hAbsent => cases hReads.unique hAbsent
  | sound calls found hFound hSound =>
      rw [hNode] at hFound
      cases hFound
      exact iff_of_true rfl hSound
  | unsound err calls found hFound hUnsound =>
      rw [hNode] at hFound
      cases hFound
      simp [hUnsound]

/-- Every parent of a prepared request has the mode of a directory. -/
theorem prepare_ok (hUpdate : request.update config = some update)
    (hPrepare : Program.run host.oracle (request.prepare config).run w = (.ok (), w₁)) :
    ∀ parent ∈ config.parents, ∃ node, w₁.fs.node (w₁.fs.target parent) = some node ∧
      node.mode = dirMode := by
  rcases request.update_eq_some hUpdate with ⟨hOp, -⟩ | ⟨hOp, content, hContent, -⟩
  · simp only [Request.prepare, hOp] at hPrepare
    obtain ⟨_, v, hDirs, hInclude⟩ := Fallible.run_bind_eq_ok hPrepare
    obtain ⟨result, hRun⟩ := Ops.run_ensureIncludePresent host config v
    rw [hRun] at hInclude
    cases hInclude
    have hParents := Ops.ensureDirectories_ok hDirs
    exact hParents
  · simp only [Request.prepare, hOp, hContent, Option.getD_some] at hPrepare
    exact Ops.ensureDirectories_ok (Ops.applyPrepare_ok hPrepare).2

theorem current_eq_some (hUpdate : request.update config = some update) {previous : Option Bytes}
    (h : update.Current previous) : ∃ bytes, previous = some bytes := by
  rcases request.update_eq_some hUpdate with ⟨-, rfl⟩ | ⟨-, content, -, rfl⟩
  · obtain ⟨bytes, -, hBytes, -⟩ := h
    exact ⟨bytes, hBytes⟩
  · exact ⟨_, h⟩

/-- A current file is exposed after the preparation exactly if the request
keeps it so. -/
theorem exposed_iff (hReliable : host.Reliable) (hUpdate : request.update config = some update)
    (hManageable : w.fs.Manageable update.path)
    (hPrepare : Program.run host.oracle (request.prepare config).run w = (.ok (), w₁))
    (hPrepared : Fs.Prepared config.parents w.fs w₁.fs) {node : Node} {bytes : Bytes}
    (hNode : w₁.fs.node (w₁.fs.entry update.path) = some node) (hBytes : node.bytes = some bytes)
    (hCurrent : update.Current (some bytes)) :
    node.isExposed = true ↔ KeepsExposed host.umask config w.fs request update := by
  have hLinks := hPrepared.sameLinks
  rw [Fs.entry_eq hLinks] at hNode
  have hStep := hPrepared.node (w.fs.entry update.path)
  rw [hNode] at hStep
  constructor
  · intro hExposed
    -- A directory has no bytes, and a file whose mode was set is not exposed.
    have hBefore : w.fs.node (w.fs.entry update.path) = some node := by
      generalize w.fs.node (w.fs.entry update.path) = before at hStep
      cases hStep with
      | same => rfl
      | chmodded =>
          rw [Node.isExposed_of_dirMode rfl] at hExposed
          cases hExposed
      | created => cases hBytes
    have hLookup : w.fs.lookup false update.path = .ok node := by
      rcases hManageable with hAbsent | ⟨found, _, hFound, -⟩
      · rw [hBefore] at hAbsent
        cases hAbsent
      · have hSame : w.fs.node (w.fs.entry update.path) = some found :=
          (Fs.lookup_eq_ok_iff.mp hFound).2
        rw [hBefore] at hSame
        cases hSame
        exact hFound
    have hReaches := (request.reaches_of_prepare hUpdate hPrepare).1
    rw [Ops.modeFails_of_reliable hReliable] at hReaches
    refine ⟨hReaches, fun parent hParent hSame => ?_, node, hLookup, hExposed, hBytes ▸ hCurrent⟩
    obtain ⟨found, hFound, hMode⟩ := prepare_ok hUpdate hPrepare parent hParent
    rw [Fs.target_eq hLinks, hSame, hNode] at hFound
    cases hFound
    rw [Node.isExposed_of_dirMode hMode] at hExposed
    cases hExposed
  · rintro ⟨-, hApart, before, hLookup, hExposed, -⟩
    have hBefore : w.fs.node (w.fs.entry update.path) = some before :=
      (Fs.lookup_eq_ok_iff.mp hLookup).2
    rw [hBefore] at hStep
    cases hStep with
    | same => exact hExposed
    | chmodded hDenoted =>
        obtain ⟨parent, hParent, hLoc⟩ := hDenoted
        exact absurd hLoc.symm (hApart parent hParent)

/-- A write leaves a file that passes its check. -/
theorem committed_verifies (hReliable : host.Reliable)
    (hUpdate : request.update config = some update)
    {v : World} {fs : Fs} {previous : Option Bytes} (hWritable : fs.Writable update.path)
    (hHolds : fs.Holds (fs.entry update.path) previous)
    (hFs : v.fs = fs.installed update.path update.contents)
    (hAccepted : (Text.fromUtf8 update.contents).any (request.accepts config) = true) :
    (Program.run host.oracle (request.check config).run v).1 = .ok () := by
  have hLater := Fs.holds_installed hWritable hHolds update.contents
  have hReads := Fs.reads_installed hWritable hHolds update.contents
  have hNode := Fs.node_installed hWritable update.contents
  rw [← Fs.entry_installed hWritable hHolds update.contents] at hNode
  rw [← hFs] at hLater hReads hNode
  have hCheck := request.run_check host v hUpdate hLater.link
  rw [check_ok_iff hCheck hReliable hReads hNode, newFile_isSound]
  exact hAccepted

end Shortcut

/-- An ok answer to a writing request means that its file passes the checks of
`verify_state`, exactly unless the request keeps an exposed file. -/
theorem ok_answer_verifies_iff (host : Host) (config : OpsConfig) (w : World) (request : Request)
    (update : Update) (hUpdate : request.update config = some update) (hReliable : host.Reliable)
    (hManageable : w.fs.Manageable update.path) :
    Shortcut.OkVerifies host config w request ↔
      ¬ Shortcut.KeepsExposed host.umask config w.fs request update := by
  unfold Shortcut.OkVerifies Ops.serve
  rw [Ops.run_dispatch_answer host config w hUpdate]
  obtain ⟨hPrepared, -⟩ := Ops.run_prepare host config w request
  rcases Ops.run_operation host config w hUpdate with
    ⟨err, w₁, hPrepare, hRun⟩ | ⟨w₁, hPrepare, hCompare⟩
  · rw [hRun]
    refine iff_of_true (fun hOk => by simp [answer] at hOk) fun hKeeps => ?_
    have hReaches := hKeeps.1
    rw [← Ops.modeFails_of_reliable hReliable w] at hReaches
    obtain ⟨w₁, hDone⟩ := request.prepare_of_reaches hUpdate (hReliable.spares _) hReaches
    cases hPrepare.symm.trans hDone
  · rw [hPrepare] at hPrepared
    have hLink : w₁.fs.link (w₁.fs.entry update.path) = none := by
      rw [Fs.entry_eq hPrepared.sameLinks, hPrepared.sameLinks.link]
      exact Shortcut.link_of_manageable hManageable
    generalize Program.run host.oracle (request.operation config).run w = outcome at hCompare ⊢
    cases hCompare with
    | refused err calls hNot =>
        refine iff_of_true (fun hOk => by simp [answer] at hOk) fun hKeeps => ?_
        exact hNot ⟨hReliable, hLink, hKeeps.reads hManageable hPrepared⟩
    | current calls previous hReads hCurrent =>
        obtain ⟨bytes, rfl⟩ := Shortcut.current_eq_some hUpdate hCurrent
        obtain ⟨node, -, hNode, -, hBytes⟩ := hReads.lookup hLink
        have hCheck :=
          Shortcut.check_ok_iff (request.run_check host (w₁.after calls w₁.fs) hUpdate hLink)
          hReliable hReads hNode
        have hAccepted := request.accepts_of_prepared hUpdate hPrepare (Or.inr hCurrent)
        rw [Node.isSound_of_bytes hBytes, hAccepted, Bool.and_true, Bool.not_eq_true'] at hCheck
        rw [hCheck,
          ← Shortcut.exposed_iff hReliable hUpdate hManageable hPrepare hPrepared hNode hBytes
            hCurrent,
          Bool.not_eq_true]
        exact ⟨fun h => h rfl, fun h _ => h⟩
    | exchanged calls previous hNotLink hReads hStale _ hExchange =>
        refine iff_of_true (fun hOk => ?_) fun hKeeps => ?_
        · cases hExchange with
          | committed hInstalls =>
              exact Shortcut.committed_verifies hReliable hUpdate hInstalls.writable
                (hReads.holds hNotLink hInstalls.writable.found) rfl
                (request.accepts_of_prepared hUpdate hPrepare (Or.inl rfl))
          | stopped | strayed | unsynced | rolledBack | stuck => simp [answer] at hOk
        · obtain ⟨bytes, hFound, hCurrent⟩ := hKeeps.reads hManageable hPrepared
          exact hStale (hReads.unique hFound ▸ hCurrent)

namespace Shortcut

/-- A tree with a trusted-CA file of the given mode. -/
def treeWith (mode : Nat) : Fs :=
  Fs.withTrustedCa ⟨.regular (Text.asBytes Sandbox.firstKeys), mode, rootUid⟩

end Shortcut

theorem ok_answer_verifies_iff_private :
    Shortcut.OkVerifies (Host.sandbox Host.noFailures (fun _ _ _ => .ok ())) OpsConfig.default
      (World.start (Shortcut.treeWith 0o600)) (Sandbox.applyRequest Sandbox.firstKeys) := by
  have hFound : (Shortcut.treeWith 0o600).lookup false OpsConfig.default.trustedCaPath.path =
      .ok ⟨.regular (Text.asBytes Sandbox.firstKeys), 0o600, rootUid⟩ := by
    decide
  refine (ok_answer_verifies_iff _ _ _ _ _ rfl (Host.sandbox_reliable _)
    (Or.inr ⟨_, _, hFound, rfl⟩)).mpr ?_
  rintro ⟨-, -, node, hLookup, hExposed, -⟩
  cases hFound.symm.trans hLookup
  exact absurd hExposed (by decide)

/-- The shortcut leaves a world-writable file and answers `NotModified`. -/
theorem ok_answer_unverified_worldWritable :
    ¬ Shortcut.OkVerifies (Host.sandbox Host.noFailures (fun _ _ _ => .ok ())) OpsConfig.default
      (World.start (Shortcut.treeWith 0o666)) (Sandbox.applyRequest Sandbox.firstKeys) := by
  unfold Shortcut.OkVerifies
  decide +kernel

end MayflyHelper
