import MayflyHelper.Repairs
import MayflyHelper.Rollback

/-! The mode and the owner of a managed file after a request that failed. A
rollback puts the bytes back, but as a new file: whatever the old one was, the
restored one belongs to root and has the public mode. -/
namespace MayflyHelper

open OracleProgram

namespace Metadata

/-- The file that a writing operation manages. -/
def managedPath (config : OpsConfig) : Operation → Option Path
  | .applyTrustedCaKeys => some config.trustedCaPath.path
  | .installSshdDropin => some config.dropinPath.path
  | _ => none

/-- If the request is answered not ok, what is at `path` has this mode and
owner. -/
def RestoresMetadata (host : Host) (config : OpsConfig) (w : World) (request : Request)
    (path : Path)
    (mode uid : Nat) : Prop :=
  (Ops.serve host config w request).1.ok = false →
    ∃ node, (Ops.serve host config w request).2.fs.lookup false path = .ok node ∧ node.mode = mode ∧
      node.uid = uid

/-- The request gets past its checks, replaces a file of these bytes, and
`sshd` rejects the new one. -/
def RollsBack (host : Host) (config : OpsConfig) (w : World) (request : Request) (bytes : Bytes) :
    Prop :=
  ∃ update w₁, request.update config = some update ∧
    Program.run host.oracle (request.prepare config).run w = (.ok (), w₁) ∧
    Decodes request.op (some bytes) ∧ ¬update.Current (some bytes) ∧ w₁.fs.Writable update.path ∧
    Rollback.Rejects host (w₁.fs.installed update.path update.contents) w.events.length

/-- `fs` has the file of `before` at `path`, with its bytes and its owner, and
with its mode unless a managed directory leads to it. -/
def LeftAlone (config : OpsConfig) (before fs : Fs) (path : Path) (bytes : Bytes) (mode uid : Nat) :
    Prop :=
  ∃ found, fs.lookup false path = .ok ⟨.regular bytes, found, uid⟩ ∧
    ((∀ parent ∈ config.parents, before.target parent ≠ before.entry path) → found = mode)

section Trees

variable {config : OpsConfig} {fs fs' fs'' : Fs} {path : Path} {node : Node} {bytes : Bytes}
  {mode uid : Nat}

theorem holds_of_lookup (h : fs.lookup false path = .ok ⟨.regular bytes, mode, uid⟩) :
    fs.Holds (fs.entry path) (some bytes) := by
  rw [Fs.Holds, Fs.entry, (Fs.lookup_eq_ok_iff.mp h).2]
  rfl

/-- Preparing the directories leaves a file alone. -/
theorem leftAlone_of_prepared (hPrepared : Fs.Prepared config.parents fs fs')
    (h : fs.lookup false path = .ok ⟨.regular bytes, mode, uid⟩) :
    LeftAlone config fs fs' path bytes mode uid := by
  obtain ⟨hFound, hNode⟩ := Fs.lookup_eq_ok_iff.mp h
  have hFound' := Fs.resolve_noError hPrepared.sameLinks hPrepared.isDir false path hFound
  have hStep := hPrepared.node (fs.entry path)
  rw [Fs.entry, hNode] at hStep
  generalize hNode' : fs'.node (fs.resolve false path).loc = node' at hStep
  rw [← Fs.entry, ← Fs.entry_eq hPrepared.sameLinks] at hNode'
  cases hStep with
  | same => exact ⟨mode, Fs.lookup_eq_ok_iff.mpr ⟨hFound', hNode'⟩, fun _ => rfl⟩
  | chmodded hParent =>
      refine ⟨dirMode, Fs.lookup_eq_ok_iff.mpr ⟨hFound', hNode'⟩, fun hApart => ?_⟩
      obtain ⟨parent, hMem, hLoc⟩ := hParent
      exact absurd hLoc.symm (hApart parent hMem)

theorem lookup_strays (hStrays : fs.Strays fs') (h : fs.lookup false path = .ok node) :
    fs'.lookup false path = .ok node := by
  obtain ⟨hFound, hNode⟩ := Fs.lookup_eq_ok_iff.mp h
  have hThere : fs.node (fs.entry path) = some node := hNode
  refine Fs.lookup_eq_ok_iff.mpr
    ⟨Fs.resolve_noError hStrays.sameLinks hStrays.keeps.isDir false path hFound, ?_⟩
  show fs'.node (fs'.entry path) = _
  rw [Fs.entry_eq hStrays.sameLinks, hStrays.node (by rw [hThere]; simp)]
  exact hThere

theorem LeftAlone.strays (h : LeftAlone config fs fs' path bytes mode uid)
    (hStrays : fs'.Strays fs'') :
    LeftAlone config fs fs'' path bytes mode uid := by
  obtain ⟨found, hLookup, hMode⟩ := h
  exact ⟨found, lookup_strays hStrays hLookup, hMode⟩

theorem lookup_installed (hWritable : fs.Writable path)
    (hHolds : fs.Holds (fs.entry path) (some bytes)) :
    (fs.installed path bytes).lookup false path = .ok (newFile bytes Security.modePublic) := by
  have hInstalled := Fs.writable_installed hWritable hHolds bytes
  refine Fs.lookup_eq_ok_iff.mpr ⟨hInstalled.found, ?_⟩
  show (fs.installed path bytes).node ((fs.installed path bytes).entry path) = _
  rw [Fs.entry_installed hWritable hHolds]
  exact Fs.node_installed hWritable bytes

end Trees

section Operation

variable {host : Host} {config : OpsConfig} {w v w' : World} {request : Request} {update : Update}
  {path : Path} {bytes contents : Bytes} {mode uid : Nat} {result : Except Error Outcome}

theorem managedPath_of_update (h : request.update config = some update) :
    managedPath config request.op = some update.path := by
  rcases request.update_eq_some h with ⟨hOp, rfl⟩ | ⟨hOp, content, -, rfl⟩
  · rw [hOp]
    rfl
  · rw [hOp]
    rfl

/-- An apply without contents does nothing. -/
theorem serve_of_none (hPath : managedPath config request.op = some path)
    (h : request.update config = none) :
    (Ops.serve host config w request).2 = w := by
  obtain ⟨hInstall, hApply⟩ := request.update_eq_none h
  cases hOp : request.op with
  | applyTrustedCaKeys =>
      rw [Ops.serve]
      simp only [Ops.dispatch, hOp, hApply hOp]
      rfl
  | installSshdDropin => exact absurd hOp hInstall
  | ping | ensureDirectories | verifyState =>
      rw [hOp] at hPath
      cases hPath

theorem answer_ok (op : Operation) (result : Except Error Outcome) :
    (answer op result).ok = result.isOk := by
  cases result <;> rfl

/-- With no call made to fail, an exchange of a file that fails could not write
it, or puts the old bytes into a new file. -/
theorem exchange_fails {done : Outcome} (hReliable : host.Reliable)
    (h : ExchangeResult host v path (some bytes) contents done (result, w'))
    (hErr : result.isOk = false) :
    (¬v.fs.Writable path ∧ (w'.fs = v.fs ∨ v.fs.Strays w'.fs)) ∨
      (v.fs.Writable path ∧ Rollback.Rejects host (v.fs.installed path contents) v.events.length ∧
        w'.fs = v.fs.installed path bytes) := by
  have hInstalls : v.fs.Writable path → host.Installs v path :=
    fun hWritable => ⟨hWritable, fun kind _ => hReliable kind _, hReliable _ _⟩
  cases h with
  | stopped err calls hNot =>
      refine Or.inl ⟨fun hWritable => hNot ?_, Or.inl rfl⟩
      obtain ⟨dir, hParent⟩ := hWritable.parent
      exact ⟨dir, hParent, (hInstalls hWritable).clear⟩
  | strayed err calls dir hParent hClear hNot =>
      exact Or.inl ⟨fun hWritable => hNot (hInstalls hWritable),
        Or.inr (Security.strays_tempLoc hParent)⟩
  | unsynced _ hSync => cases (hReliable _ _).symm.trans hSync
  | committed => cases hErr
  | rolledBack h _ err events later hSweep _ _ hFs =>
      exact Or.inr ⟨h.writable, Rollback.rejects_of_sweep hSweep, hFs⟩
  | stuck _ _ _ _ _ hNot => exact absurd (fun kind _ => hReliable kind _) hNot

/-- Once the checks are passed, it is the file and `sshd` that decide. -/
theorem rollsBack_iff {w₁ : World} (hUpdate : request.update config = some update)
    (hPrepare : Program.run host.oracle (request.prepare config).run w = (.ok (), w₁)) :
    RollsBack host config w request bytes ↔ Decodes request.op (some bytes) ∧
      ¬update.Current (some bytes) ∧ w₁.fs.Writable update.path ∧
      Rollback.Rejects host (w₁.fs.installed update.path update.contents) w.events.length := by
  constructor
  · rintro ⟨_, v, hSame, hOk, hRest⟩
    cases hUpdate.symm.trans hSame
    cases hPrepare.symm.trans hOk
    exact hRest
  · intro hRest
    exact ⟨update, w₁, hUpdate, hPrepare, hRest⟩

/-- A request for an existing file that fails leaves it alone, or rolls it
back. -/
theorem operation_fails (hReliable : host.Reliable) (hUpdate : request.update config = some update)
    (hFile : w.fs.lookup false update.path = .ok ⟨.regular bytes, mode, uid⟩)
    (hRun : Program.run host.oracle (request.operation config).run w = (result, w'))
    (hErr : result.isOk = false) :
    (¬RollsBack host config w request bytes ∧
      LeftAlone config w.fs w'.fs update.path bytes mode uid) ∨
      (RollsBack host config w request bytes ∧
        w'.fs.lookup false update.path = .ok (newFile bytes Security.modePublic)) := by
  obtain ⟨hPrepared, hEvents⟩ := Ops.run_prepare host config w request
  have hAlone := leftAlone_of_prepared hPrepared hFile
  rcases Ops.run_operation host config w hUpdate with ⟨err, w₁, hPrepare, hStopped⟩ |
    ⟨w₁, hPrepare, -⟩
  · cases hRun.symm.trans hStopped
    rw [hPrepare] at hAlone
    refine Or.inl ⟨?_, hAlone⟩
    rintro ⟨_, v, -, hOk, -⟩
    cases hPrepare.symm.trans hOk
  rw [hPrepare] at hAlone hEvents
  have hThere := hAlone
  obtain ⟨found, hLookup, -⟩ := hThere
  have hHolds := holds_of_lookup hLookup
  have hCompared :=
    request.operation_compared hUpdate hReliable hPrepare hHolds (Fs.lookup_eq_ok_iff.mp hLookup).1
  rw [hRun] at hCompared
  rw [rollsBack_iff hUpdate hPrepare]
  cases hCompared with
  | undecodable _ hFs _ hNot =>
      rw [hFs]
      exact Or.inl ⟨fun h => hNot h.1, hAlone⟩
  | current => cases hErr
  | exchanged v hFs hLength hDecodes hStale _ h =>
      have hEnds := exchange_fails hReliable h hErr
      rw [hFs, hLength, hEvents] at hEnds
      rcases hEnds with ⟨hNot, hTree⟩ | ⟨hWritable, hRejects, hTree⟩
      · refine Or.inl ⟨fun h => hNot h.2.2.1, ?_⟩
        rcases hTree with hTree | hStrays
        · rw [hTree]
          exact hAlone
        · exact hAlone.strays hStrays
      · refine Or.inr ⟨⟨hDecodes, hStale, hWritable, hRejects⟩, ?_⟩
        rw [hTree]
        exact lookup_installed hWritable hHolds

end Operation

end Metadata

open Metadata

/-- A failed request leaves the bytes of an existing file. If it had replaced
the file, the file now has the mode and owner of one that the helper writes;
otherwise it has those it had, unless a managed directory leads to it. -/
theorem failed_request_metadata (host : Host) (config : OpsConfig) (w : World) (request : Request)
    (path : Path) (bytes : Bytes) (mode uid : Nat) (hReliable : host.Reliable)
    (hPath : managedPath config request.op = some path)
    (hFile : w.fs.lookup false path = .ok ⟨.regular bytes, mode, uid⟩)
    (hErr : (Ops.serve host config w request).1.ok = false) :
    ∃ mode' uid', (Ops.serve host config w request).2.fs.lookup false path =
      .ok ⟨.regular bytes, mode', uid'⟩ ∧
      (RollsBack host config w request bytes → mode' = Security.modePublic ∧ uid' = rootUid) ∧
      (¬RollsBack host config w request bytes → uid' = uid ∧
        ((∀ parent ∈ config.parents, w.fs.target parent ≠ w.fs.entry path) → mode' = mode)) := by
  cases hUpdate : request.update config with
  | none =>
      refine ⟨mode, uid, ?_, ?_, fun _ => ⟨rfl, fun _ => rfl⟩⟩
      · rw [serve_of_none hPath hUpdate]
        exact hFile
      · rintro ⟨_, _, hSome, -⟩
        cases hUpdate.symm.trans hSome
  | some update =>
      rw [managedPath_of_update hUpdate] at hPath
      cases hPath
      rw [Ops.serve, Ops.run_dispatch_answer host config w hUpdate] at hErr ⊢
      rcases hRun : Program.run host.oracle (request.operation config).run w with ⟨result, w'⟩
      rw [answer_ok, hRun] at hErr
      rcases operation_fails hReliable hUpdate hFile hRun hErr with ⟨hNot, found, hLookup, hMode⟩ |
        ⟨hBack, hLookup⟩
      · exact ⟨found, uid, hLookup, fun h => absurd h hNot, fun _ => ⟨rfl, hMode⟩⟩
      · exact ⟨_, _, hLookup, fun _ => ⟨rfl, rfl⟩, fun h => absurd hBack h⟩

namespace Metadata

/-- A trusted-CA file of some mode in its directory. -/
def fileOf (mode : Nat) : Fs :=
  (Fs.bare.put [['d']] ⟨.directory, 0o755, rootUid⟩).put [['k'], ['d']]
    ⟨.regular [0x61], mode, rootUid⟩

/-- An `sshd` that takes no configuration. -/
noncomputable def refusing : Host :=
  Host.sandbox Host.noFailures (fun _ _ _ => .error .sshdValidationFailed)

def newKeys : Request := ⟨protocolVersion, [], .applyTrustedCaKeys, some "ssh-ed25519 AAAA".toList⟩

end Metadata

theorem failed_request_metadata_private :
    ∃ mode' uid',
      (Ops.serve refusing Repairs.shallow (World.start (fileOf 0o600)) newKeys).2.fs.lookup false
        Repairs.shallow.trustedCaPath.path = .ok ⟨.regular [0x61], mode', uid'⟩ ∧
      (RollsBack refusing Repairs.shallow (World.start (fileOf 0o600)) newKeys [0x61] →
        mode' = Security.modePublic ∧ uid' = rootUid) := by
  obtain ⟨mode', uid', hLookup, hBack, -⟩ := failed_request_metadata refusing Repairs.shallow
    (World.start (fileOf 0o600)) newKeys Repairs.shallow.trustedCaPath.path [0x61] 0o600 rootUid
    (Host.sandbox_reliable _) rfl (by decide) (by decide)
  exact ⟨mode', uid', hLookup, hBack⟩

/-- A private file is public after a failed request. -/
theorem rollback_exposes_private :
    (fileOf 0o600).lookup false Repairs.shallow.trustedCaPath.path =
      .ok ⟨.regular [0x61], 0o600, rootUid⟩ ∧
      ¬RestoresMetadata refusing Repairs.shallow (World.start (fileOf 0o600)) newKeys
        Repairs.shallow.trustedCaPath.path 0o600 rootUid := by
  refine ⟨by decide, fun hRestores => ?_⟩
  obtain ⟨node, hLookup, hMode, -⟩ := hRestores (by decide)
  have hPublic :
      ((Ops.serve refusing Repairs.shallow (World.start (fileOf 0o600)) newKeys).2.fs.lookup false
      Repairs.shallow.trustedCaPath.path).map Node.mode = .ok 0o644 := by decide
  rw [hLookup] at hPublic
  cases hMode.symm.trans (Except.ok.inj hPublic)

end MayflyHelper
