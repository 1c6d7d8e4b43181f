import MayflyHelper.Semantics.Service
import MayflyHelper.Sandbox
import MayflyHelper.Validity
import MayflyHelper.VerifyRules

/-! The helper's writes pass the helper's own verification. A request that
fails half-way leaves a file as it was, or as the helper writes it, or a stray
temporary file, and `verify_state` has nothing against any of these. -/
namespace MayflyHelper

open OracleProgram

/-- `fs'` is `fs` after an exchange of the file at `path`, finished or not: an
entry is as it was, or has a temporary name, or is the managed file with the
new contents or its old ones. -/
structure Fs.Exchanged (fs fs' : Fs) (path : Path) (contents : Bytes) : Prop where
  links : Fs.SameLinks fs fs'
  node : ∀ loc, fs'.node loc = fs.node loc ∨
    (∃ name dir, loc = name :: dir ∧ tempPrefix.isPrefixOf name = true) ∨
    (loc = fs.entry path ∧ ∃ bytes, (bytes = contents ∨ fs.bytesAt loc = some bytes) ∧
      fs'.node loc = some (newFile bytes Security.modePublic))

namespace Fs.Exchanged

variable {fs fs' fs'' : Fs} {path : Path} {contents : Bytes} {previous : Option Bytes}

theorem refl (fs : Fs) (path : Path) (contents : Bytes) : fs.Exchanged fs path contents :=
  ⟨.refl fs, fun _ => Or.inl rfl⟩

/-- The new file has been installed. -/
theorem installed (hWritable : fs.Writable path) (hHolds : fs.Holds (fs.entry path) previous)
    {bytes : Bytes} (hBytes : bytes = contents ∨ fs.bytesAt (fs.entry path) = some bytes) :
    fs.Exchanged (fs.installed path bytes) path contents := by
  refine ⟨Fs.sameLinks_installed hWritable hHolds bytes, fun loc => ?_⟩
  by_cases hLoc : loc = fs.entry path
  · subst hLoc
    exact Or.inr (Or.inr ⟨rfl, bytes, hBytes, Fs.node_installed hWritable bytes⟩)
  · exact Or.inl (Fs.put_node_of_ne hWritable.canPut hLoc)

/-- The previous file has been put back. -/
theorem restored (hWritable : fs.Writable path) (hHolds : fs.Holds (fs.entry path) previous) :
    fs.Exchanged (fs.restored path previous) path contents := by
  cases previous with
  | none => exact refl fs path contents
  | some bytes => exact installed hWritable hHolds (Or.inr hHolds.bytesAt)

/-- A stray temporary file is nobody's business. -/
theorem strays (h : fs.Exchanged fs' path contents) (hStrays : fs'.Strays fs'') :
    fs.Exchanged fs'' path contents := by
  refine ⟨h.links.trans hStrays.sameLinks, fun loc => ?_⟩
  obtain ⟨name, dir, contents', mode, hName, hDir, hAbsent, rfl⟩ := hStrays
  by_cases hLoc : loc = name :: dir
  · exact Or.inr (Or.inl ⟨name, dir, hLoc, hName⟩)
  · rw [Fs.put_node_of_ne (Fs.canPut_of_absent hDir hAbsent) hLoc]
    exact h.node loc

end Fs.Exchanged

/-- Every way an exchange can end. -/
theorem ExchangeResult.exchanged {host : Host} {w w' : World} {path : Path}
    {previous : Option Bytes}
    {contents : Bytes} {done : Outcome} {result : Except Error Outcome}
    (h : ExchangeResult host w path previous contents done (result, w')) (hLink : w.fs.NotLink path)
    (hReads : w.fs.Reads path previous) : w.fs.Exchanged w'.fs path contents := by
  have hNew : ∀ hInstalls : host.Installs w path,
    w.fs.Exchanged (w.fs.installed path contents) path contents :=
    fun hInstalls =>
      .installed hInstalls.writable (hReads.holds hLink hInstalls.writable.found) (Or.inl rfl)
  cases h with
  | stopped err calls => exact .refl _ _ _
  | strayed err calls dir hParent =>
      exact (Fs.Exchanged.refl _ _ _).strays (Security.strays_tempLoc hParent)
  | unsynced hInstalls => exact hNew hInstalls
  | committed hInstalls => exact hNew hInstalls
  | rolledBack hInstalls hSync err events later hSweep hRestores _ hFs =>
      rw [hFs]
      exact .restored hInstalls.writable (hReads.holds hLink hInstalls.writable.found)
  | stuck hInstalls hSync err events hSweep hNot _ hFs =>
      rcases hFs with hSame | hStray
      · rw [hSame]
        exact hNew hInstalls
      · exact (hNew hInstalls).strays hStray

/-- A sound file under the mode of a directory is sound. -/
theorem Node.isSound_dirMode {accepts : Text → Bool} {node : Node}
    (h : node.isSound accepts = true) :
    ({ node with mode := dirMode } : Node).isSound accepts = true := by
  rw [isSound, Bool.and_eq_true] at h
  rw [isSound, isExposed_of_dirMode rfl]
  exact h.2

/-- A sound file has contents that pass. -/
theorem Fs.isSound_bytesAt {fs : Fs} {path : Path} {accepts : Text → Bool} {bytes : Bytes}
    (h : fs.isSound path accepts = true) (hBytes : fs.bytesAt (fs.entry path) = some bytes) :
    (Text.fromUtf8 bytes).any accepts = true := by
  obtain ⟨node, hNode, hBytes⟩ := Option.bind_eq_some_iff.mp hBytes
  rw [isSound, hNode, Option.all_some, Node.isSound_of_bytes hBytes, Bool.and_eq_true] at h
  exact h.2

/-- The files keep out of each other's way: they are two, no directory has to
be made in the place of one, and none has the name of a temporary file. -/
structure OpsConfig.Apart (config : OpsConfig) (fs : Fs) : Prop where
  distinct : fs.entry config.trustedCaPath.path ≠ fs.entry config.dropinPath.path
  above : ∀ path ∈ [config.trustedCaPath.path, config.dropinPath.path],
    ∀ parent ∈ config.parents, ∀ dir ∈ parent.ancestors, fs.entry dir ≠ fs.entry path
  named : ∀ path ∈ [config.trustedCaPath.path, config.dropinPath.path],
    (fs.entry path).head?.any tempPrefix.isPrefixOf = false

theorem OpsConfig.Apart.congr {config : OpsConfig} {fs fs' : Fs} (h : config.Apart fs)
    (hLinks : Fs.SameLinks fs fs') : config.Apart fs' := by
  refine ⟨?_, ?_, ?_⟩
  · rw [Fs.entry_eq hLinks, Fs.entry_eq hLinks]
    exact h.distinct
  · intro path hPath parent hParent dir hDir
    rw [Fs.entry_eq hLinks, Fs.entry_eq hLinks]
    exact h.above path hPath parent hParent dir hDir
  · intro path hPath
    rw [Fs.entry_eq hLinks]
    exact h.named path hPath

section Steps

variable {fs fs' : Fs} {path : Path} {accepts : Text → Bool} (h : fs.isSound path accepts = true)

include h

/-- Preparing directories keeps a file sound that none of them is made in the
place of. -/
theorem Fs.Prepared.isSound {parents : List Path} (hPrepared : Fs.Prepared parents fs fs')
    (hAbove : ∀ parent ∈ parents, ∀ dir ∈ parent.ancestors, fs.entry dir ≠ fs.entry path) :
    fs'.isSound path accepts = true := by
  have hNode := hPrepared.node (fs.entry path)
  unfold Fs.isSound at h ⊢
  rw [Fs.entry_eq hPrepared.sameLinks]
  generalize fs.node (fs.entry path) = node, fs'.node (fs.entry path) = node' at h hNode
  cases hNode with
  | same => exact h
  | chmodded _ node => exact Node.isSound_dirMode h
  | created hMade mode =>
      obtain ⟨parent, hParent, dir, hDir, hLoc⟩ := hMade
      exact absurd hLoc.symm (hAbove parent hParent dir hDir)

/-- A write keeps a file sound, its own if the contents pass. -/
theorem Fs.Exchanged.isSound {path' : Path} {contents : Bytes}
    (hExchanged : fs.Exchanged fs' path' contents)
    (hNamed : (fs.entry path).head?.any tempPrefix.isPrefixOf = false)
    (hOwn : fs.entry path = fs.entry path' → (Text.fromUtf8 contents).any accepts = true) :
    fs'.isSound path accepts = true := by
  rw [Fs.isSound, Fs.entry_eq hExchanged.links]
  rcases hExchanged.node (fs.entry path) with hSame | ⟨name, dir, hLoc, hTemp⟩ |
    ⟨hLoc, bytes, hBytes, hNew⟩
  · rw [hSame]
    exact h
  · rw [hLoc, List.head?_cons, Option.any_some, hTemp] at hNamed
    cases hNamed
  · rw [hNew, Option.all_some, newFile_isSound]
    rcases hBytes with rfl | hOld
    · exact hOwn hLoc
    · exact Fs.isSound_bytesAt h hOld

end Steps

/-- The file part of `verify_state`. -/
structure OpsConfig.Verifiable (config : OpsConfig) (fs : Fs) : Prop where
  trusted : fs.isSound config.trustedCaPath.path Ops.acceptsCa = true
  dropin : fs.isSound config.dropinPath.path (Ops.acceptsDropin config) = true

namespace Verification

variable {host : Host} {config : OpsConfig} {w w' : World} {request : Request} {update : Update}

/-- Both files stay sound while directories are prepared. -/
theorem prepared_verifiable {fs fs' : Fs} (hApart : config.Apart fs)
    (hVerifiable : config.Verifiable fs)
    (h : Fs.Prepared config.parents fs fs') : config.Verifiable fs' :=
  ⟨h.isSound hVerifiable.trusted (hApart.above _ (by simp)),
    h.isSound hVerifiable.dropin (hApart.above _ (by simp))⟩

/-- And while one of them is written. -/
theorem exchanged_verifiable {fs fs' : Fs} (hApart : config.Apart fs)
    (hVerifiable : config.Verifiable fs)
    (hUpdate : request.update config = some update)
    (hAccepted : (Text.fromUtf8 update.contents).any (request.accepts config) = true)
    (h : fs.Exchanged fs' update.path update.contents) : config.Verifiable fs' := by
  refine ⟨h.isSound hVerifiable.trusted (hApart.named _ (by simp)) fun hSame => ?_,
    h.isSound hVerifiable.dropin (hApart.named _ (by simp)) fun hSame => ?_⟩
  · rcases request.update_eq_some hUpdate with ⟨-, rfl⟩ | ⟨hOp, -⟩
    · exact absurd hSame hApart.distinct
    · simpa only [Request.accepts, hOp] using hAccepted
  · rcases request.update_eq_some hUpdate with ⟨hOp, -⟩ | ⟨-, content, -, rfl⟩
    · simpa only [Request.accepts, hOp] using hAccepted
    · exact absurd hSame.symm hApart.distinct

/-- One request, whatever fails. -/
theorem serve_verifiable (host : Host) (hApart : config.Apart w.fs)
    (hVerifiable : config.Verifiable w.fs)
    (request : Request) :
    config.Apart (Ops.serve host config w request).2.fs ∧
      config.Verifiable (Ops.serve host config w request).2.fs := by
  unfold Ops.serve
  cases hUpdate : request.update config with
  | none =>
      obtain ⟨response, w', new, hRun, hPrepared, -⟩ := Ops.run_dispatch_other host config w hUpdate
      rw [hRun]
      exact ⟨hApart.congr hPrepared.sameLinks, prepared_verifiable hApart hVerifiable hPrepared⟩
  | some update =>
      rw [Ops.run_dispatch_answer host config w hUpdate]
      obtain ⟨hPrepared, -⟩ := Ops.run_prepare host config w request
      have hApart₁ := hApart.congr hPrepared.sameLinks
      have hVerifiable₁ := prepared_verifiable hApart hVerifiable hPrepared
      rcases Ops.run_operation host config w hUpdate with
        ⟨err, w₁, hPrepare, hRun⟩ | ⟨w₁, hPrepare, hCompare⟩
      · rw [hPrepare] at hApart₁ hVerifiable₁
        rw [hRun]
        exact ⟨hApart₁, hVerifiable₁⟩
      · rw [hPrepare] at hApart₁ hVerifiable₁
        generalize Program.run host.oracle (request.operation config).run w = outcome at hCompare ⊢
        cases hCompare with
        | refused => exact ⟨hApart₁, hVerifiable₁⟩
        | current => exact ⟨hApart₁, hVerifiable₁⟩
        | exchanged calls previous hLink hReads hStale _ hExchange =>
            obtain ⟨result, w'⟩ := outcome
            have hExchanged := hExchange.exchanged hLink hReads
            exact ⟨hApart₁.congr hExchanged.links,
              exchanged_verifiable hApart₁ hVerifiable₁ hUpdate
                (Request.accepts_of_prepared hUpdate hPrepare (Or.inl rfl)) hExchanged⟩

/-- A sound file passes its check unless a call fails. -/
theorem check_of_isSound {path : Path} {accepts : Text → Bool} {result : Except Error Unit}
    (h : CheckResult host w path accepts (result, w')) (hSound : w.fs.isSound path accepts = true) :
    (∃ calls, w' = w.after calls w.fs) ∧
      (result = .ok () ∨ ∃ kind, result = .error (.io kind)) := by
  cases h with
  | failed kind calls => exact ⟨⟨calls, rfl⟩, Or.inr ⟨kind, rfl⟩⟩
  | absent calls => exact ⟨⟨calls, rfl⟩, Or.inl rfl⟩
  | sound calls => exact ⟨⟨calls, rfl⟩, Or.inl rfl⟩
  | unsound err calls node hNode hUnsound =>
      rw [Fs.isSound, hNode, Option.all_some, hUnsound] at hSound
      cases hSound

/-- A sound file is no link. -/
theorem link_of_isSound {fs : Fs} {path : Path} {accepts : Text → Bool}
    (hSound : fs.isSound path accepts = true) : fs.link (fs.entry path) = none := by
  rw [Fs.isSound] at hSound
  rw [Fs.link]
  cases hNode : fs.node (fs.entry path) with
  | none => rfl
  | some node =>
      rw [hNode, Option.all_some] at hSound
      obtain ⟨bytes, hBytes⟩ := Node.bytes_of_isSound hSound
      exact Node.link_of_bytes hBytes

/-- The last two calls of `verify_state` fail only as `sshd` does. -/
theorem sshd_error {err : Error}
    (h : Program.run host.oracle (ExceptT.run do
      sshdCall .validateConfig
      sshdCall .isActive) w = (.error err, w')) :
    ∃ new event, w'.events = new ++ w.events ∧ event ∈ new ∧
      (event.call = .validateConfig ∨ event.call = .isActive) ∧ event.result = .error err := by
  cases hValidate : host.sshd w.events.length w.fs .validateConfig with
  | error found =>
      rw [Fallible.run_bind_error (Ops.run_sshd hValidate)] at h
      cases h
      exact ⟨_, _, rfl, List.mem_singleton_self _, Or.inl rfl, rfl⟩
  | ok _ =>
      rw [Fallible.run_bind_ok (Ops.run_sshd hValidate)] at h
      cases hActive :
          host.sshd (w.noted [⟨.validateConfig, .ok (), w.fs⟩]).events.length w.fs .isActive with
      | error found =>
          rw [Ops.run_sshd hActive] at h
          cases h
          exact ⟨[_, _], _, rfl, List.mem_cons_self, Or.inr rfl, rfl⟩
      | ok _ =>
          rw [Ops.run_sshd hActive] at h
          cases h

/-- On a verifiable tree `verify_state` has only failing calls to report. -/
theorem verifyState_error {err : Error} (hVerifiable : config.Verifiable w.fs)
    (h : Program.run host.oracle (Ops.verifyState config).run w = (.error err, w')) :
    (∃ kind, err = .io kind) ∨ ∃ new event, w'.events = new ++ w.events ∧ event ∈ new ∧
      (event.call = .validateConfig ∨ event.call = .isActive) ∧ event.result = .error err := by
  unfold Ops.verifyState at h
  have hTrusted := Ops.run_checkTrustedCa host config w (link_of_isSound hVerifiable.trusted)
  rw [Fallible.run_bind] at h
  rcases hRun : Program.run host.oracle (Ops.checkTrustedCa config).run w with ⟨result, w₁⟩
  rw [hRun] at h hTrusted
  obtain ⟨⟨calls, rfl⟩, rfl | ⟨kind, rfl⟩⟩ := check_of_isSound hTrusted hVerifiable.trusted
  swap
  · cases h
    exact Or.inl ⟨kind, rfl⟩
  dsimp only at h
  have hDropin :=
    Ops.run_checkDropin host config (w.after calls w.fs) (link_of_isSound hVerifiable.dropin)
  rw [Fallible.run_bind] at h
  rcases hRun' : Program.run host.oracle (Ops.checkDropin config).run (w.after calls w.fs) with
    ⟨result, w₂⟩
  rw [hRun'] at h hDropin
  obtain ⟨⟨calls', rfl⟩, rfl | ⟨kind, rfl⟩⟩ := check_of_isSound hDropin hVerifiable.dropin
  swap
  · cases h
    exact Or.inl ⟨kind, rfl⟩
  have hSshd := sshd_error h
  exact Or.inr hSshd

end Verification

/-- Along every sequence of requests, whatever `sshd` reports and whichever
filesystem calls fail, the managed files stay verifiable. So `VerifyState` only
ever fails because a read or a metadata call did, or validation or the
activity probe. -/
theorem helper_writes_stay_verifiable (host : Host) (config : OpsConfig) (w : World)
    (requests : List Request) (hApart : config.Apart w.fs) (hVerifiable : config.Verifiable w.fs) :
    config.Verifiable (Service.final (Ops.serve host config) w requests).fs ∧
      ∀ err w', Program.run host.oracle (Ops.verifyState config).run
          (Service.final (Ops.serve host config) w requests) = (.error err, w') →
        (∃ kind, err = .io kind) ∨
          ∃ new event,
            w'.events = new ++ (Service.final (Ops.serve host config) w requests).events ∧
            event ∈ new ∧ (event.call = .validateConfig ∨ event.call = .isActive) ∧
            event.result = .error err := by
  have hFinal := Service.final_invariant
    (fun v : World => config.Apart v.fs ∧ config.Verifiable v.fs)
    (fun v request h => Verification.serve_verifiable host h.1 h.2 request) ⟨hApart, hVerifiable⟩
      requests
  exact ⟨hFinal.2, fun err w' h => Verification.verifyState_error hFinal.2 h⟩

namespace Verification

/-- `sshd` rejects every configuration, and the fourth rename fails. -/
noncomputable def rejecting : Host :=
  Host.sandbox (fun kind n => kind == .rename && n == 3) (fun _ _ _ => .error .sshdValidationFailed)

/-- Attempts to replace the keys. -/
def attempts (n : Nat) : List Request := List.replicate n (Sandbox.applyRequest Sandbox.otherKeys)

/-- What is at the path of the keys after a number of attempts. -/
noncomputable def keysAfter (n : Nat) : Option Bytes :=
  let fs :=
    (Service.final (Ops.serve rejecting OpsConfig.default) Sandbox.keysOnDisk (attempts n)).fs
  fs.bytesAt (fs.entry OpsConfig.default.trustedCaPath.path)

end Verification

open Verification in
/-- Keys are rejected twice. The first time the old ones are restored, the
second time that fails, and the rejected ones stay. -/
theorem helper_writes_stay_verifiable_renameFails :
    keysAfter 1 = some (Text.asBytes Sandbox.firstKeys) ∧
      keysAfter 2 = some (Text.asBytes Sandbox.otherKeys) ∧
      OpsConfig.default.Verifiable
        (Service.final (Ops.serve rejecting OpsConfig.default) Sandbox.keysOnDisk
          (attempts 2)).fs :=
  ⟨by decide +kernel, by decide +kernel,
    (helper_writes_stay_verifiable rejecting OpsConfig.default Sandbox.keysOnDisk (attempts 2)
      ⟨by decide +kernel, by decide +kernel, by decide +kernel⟩
        ⟨by decide +kernel, by decide +kernel⟩).1⟩

/-- A request takes the empty tree, which verifies, to one that does not. -/
def Verification.Breaks (host : Host) (config : OpsConfig) (request : Request) : Prop :=
  config.Verifiable Fs.bare ∧
    ¬ config.Verifiable (Ops.serve host config (World.start Fs.bare) request).2.fs

/-- Files in each other's way: one path for both, a file where a directory has
to be made, and a file with the name of a temporary one. -/
theorem helper_writes_unverifiable_not_apart :
    Verification.Breaks (Host.sandbox Host.noFailures (fun _ _ _ => .ok ()))
        ⟨⟨"/f".toList⟩, ⟨"/f".toList⟩, ⟨"/m".toList⟩⟩
          ⟨protocolVersion, [], .applyTrustedCaKeys, some []⟩ ∧
      Verification.Breaks (Host.sandbox Host.noFailures (fun _ _ _ => .ok ()))
        ⟨⟨"/d/t".toList⟩, ⟨"/d".toList⟩, ⟨"/m".toList⟩⟩
          ⟨protocolVersion, [], .ensureDirectories, none⟩ ∧
      Verification.Breaks (Host.sandbox (fun kind _ => kind == .rename) (fun _ _ _ => .ok ()))
        ⟨⟨"/t".toList⟩, ⟨"/.tmpAAAAAA".toList⟩, ⟨"/m".toList⟩⟩
        ⟨protocolVersion, [], .applyTrustedCaKeys, some []⟩ :=
  ⟨⟨⟨by decide +kernel, by decide +kernel⟩, fun h => absurd h.dropin (by decide +kernel)⟩,
    ⟨⟨by decide +kernel, by decide +kernel⟩, fun h => absurd h.dropin (by decide +kernel)⟩,
    ⟨⟨by decide +kernel, by decide +kernel⟩, fun h => absurd h.dropin (by decide)⟩⟩

end MayflyHelper
