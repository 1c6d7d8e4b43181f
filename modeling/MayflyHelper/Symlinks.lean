import MayflyHelper.Preparation
import MayflyHelper.Sandbox

/-! Managed paths that are symbolic links. Each operation looks for a link
with `lstat`, but the drop-in and both files of `verify_state` are read first,
through the link, and what the read finds decides whether the look is taken. -/
namespace MayflyHelper

open OracleProgram

namespace Symlinks

/-- `path` is a symbolic link, wherever it leads. -/
def IsLink (fs : Fs) (path : Path) : Prop :=
  ∃ node target, fs.lookup false path = .ok node ∧ node.link = some target

/-- The paths an operation manages. -/
def Manages (config : OpsConfig) : Operation → Path → Prop
  | .applyTrustedCaKeys, path => path = config.trustedCaPath.path
  | .installSshdDropin, path => path = config.dropinPath.path
  | .verifyState, path => path = config.trustedCaPath.path ∨ path = config.dropinPath.path
  | _, _ => False

/-- The request is answered not ok, and the link and what it leads to are as
they were. -/
def RefusesLink (host : Host) (config : OpsConfig) (w : World) (request : Request) (path : Path) :
    Prop :=
  (Ops.serve host config w request).1.ok = false ∧
    ∀ loc ∈ [w.fs.entry path, w.fs.target path],
      (Ops.serve host config w request).2.fs.node loc = w.fs.node loc

/-- The link leads to a directory that is missing on the way to a managed one
and gets made, or to a managed one that has another mode and gets its own. -/
def Disturbed (host : Host) (config : OpsConfig) (w : World) (path : Path) : Prop :=
  ∃ loc ∈ [w.fs.entry path, w.fs.target path],
    w.fs.Adds host.umask (Ops.modeFails host w) config.parents loc ∨
      w.fs.Resets host.umask (Ops.modeFails host w) config.parents loc

/-- The directories can be made, and then the main configuration has the
`Include` and the drop-in reads, through the link, as what would be written. -/
def TakenForCurrent (host : Host) (config : OpsConfig) (w : World) : Prop :=
  w.fs.Preparable host.umask (Ops.modeFails host w) config.parents ∧
    host.fails .read (w.count .read) = false ∧
    Ops.MainIncludes config (w.fs.prepared host.umask config.parents) ∧
    host.fails .read (w.count .read + 1) = false ∧
    ∃ previous, (w.fs.prepared host.umask config.parents).Reads config.dropinPath.path previous ∧
      Ops.CurrentDropin config previous

/-- How a link gets past the operation. -/
def GetsPast (host : Host) (config : OpsConfig) (w : World) (request : Request) (path : Path) :
    Prop :=
  match request.op with
  | .verifyState => w.fs.lookup true path = .error .notFound ∧ VerifyPasses host config w
  | .installSshdDropin => Disturbed host config w path ∨ TakenForCurrent host config w
  | .applyTrustedCaKeys =>
      request.content.any Ops.acceptsCa = true ∧ Disturbed host config w path
  | _ => False

variable {host : Host} {config : OpsConfig} {w : World} {path : Path}

/-- A path is a link where its entry can be reached and is one. -/
theorem isLink_iff {fs : Fs} :
    IsLink fs path ↔
      (fs.resolve false path).error = none ∧ ∃ target, fs.link (fs.entry path) = some target := by
  unfold IsLink Fs.link Fs.entry
  constructor
  · rintro ⟨node, target, hLookup, hLink⟩
    obtain ⟨hFound, hNode⟩ := Fs.lookup_eq_ok_iff.mp hLookup
    exact ⟨hFound, target, by rw [hNode]; exact hLink⟩
  · rintro ⟨hFound, target, hLink⟩
    obtain ⟨node, hNode, hLink⟩ := Option.bind_eq_some_iff.mp hLink
    exact ⟨node, target, Fs.lookup_eq_ok_iff.mpr ⟨hFound, hNode⟩, hLink⟩

/-- Making directories neither removes links nor hides them. -/
theorem IsLink.prepared {parents : List Path} {fs fs' : Fs} (h : IsLink fs path)
    (hPrepared : Fs.Prepared parents fs fs') : IsLink fs' path := by
  obtain ⟨hFound, target, hLink⟩ := isLink_iff.mp h
  have hLinks := hPrepared.sameLinks
  refine isLink_iff.mpr ⟨Fs.resolve_noError hLinks hPrepared.isDir false path hFound, target, ?_⟩
  rw [Fs.entry_eq hLinks, hLinks.link, hLink]

/-- Preparing the directories makes no link into anything else. -/
theorem IsLink.afterDirectories {w w₁ : World} {result : Except Error Unit} (h : IsLink w.fs path)
    (hDirs : Program.run host.oracle (Ops.ensureDirectories config).run w = (result, w₁)) :
    IsLink w₁.fs path := by
  obtain ⟨hPrepared, -⟩ := prepared_of_within host (Ops.within_ensureDirectories config) w
  rw [hDirs] at hPrepared
  exact h.prepared hPrepared

theorem IsLink.not_notLink {fs : Fs} (h : IsLink fs path) : ¬ fs.NotLink path := by
  obtain ⟨hFound, target, hLink⟩ := isLink_iff.mp h
  intro hNot
  rw [hNot hFound] at hLink
  cases hLink

/-- The look at the link itself never passes it. -/
theorem IsLink.refused {w w' : World} {result : Unit} (h : IsLink w.fs path) :
    Program.run host.oracle (Security.ensureNotSymlink path).run w ≠ (.ok result, w') := by
  intro hRun
  obtain ⟨result, hCheck, hLink⟩ := Ops.run_ensureNotSymlink host w path
  rw [hCheck] at hRun
  cases hRun
  exact h.not_notLink (hLink rfl)

/-- An install that is ok on a link took what that leads to for the drop-in. -/
theorem takenForCurrent_of_ok {outcome : Outcome} {w' : World}
    (hLink : IsLink w.fs config.dropinPath.path)
    (h : Program.run host.oracle (Ops.installSshdDropin config).run w = (.ok outcome, w')) :
    TakenForCurrent host config w := by
  rw [Ops.run_installSshdDropin] at h
  rcases hPrepare : Program.run host.oracle (Ops.installPrepare config).run w with ⟨err | _, v⟩
  · rw [hPrepare] at h
    cases h
  rw [hPrepare] at h
  obtain ⟨hPreparable, hFs, hMain⟩ := Ops.preparable_of_installPrepare hPrepare
  obtain ⟨w₁, hDirs, hInclude⟩ := Fallible.run_seq_eq_ok_iff.mp hPrepare
  obtain ⟨hFirst, -, rfl⟩ := Ops.ensureIncludePresent_eq_ok_iff.mp hInclude
  have hOther : FsKind.read ∉ FsKind.chmod :: FsKind.preparing := by decide
  have hCount : w₁.count .read = w.count .read := by
    have hSame := Ops.count_of_prepares host (Ops.within_ensureDirectories config) hOther w
    rwa [hDirs] at hSame
  unfold Ops.installCompare at h
  obtain ⟨onDisk, _, hRead, hNext⟩ := Fallible.run_bind_eq_ok h
  obtain ⟨hSecond, ⟨previous, hReads, hShown⟩, rfl⟩ := Ops.readOptionalString_eq_ok_iff.mp hRead
  rw [World.after_fs] at hFs hMain
  split at hNext
  · rename_i hSame
    refine ⟨hPreparable, hCount ▸ hFirst, hFs ▸ hMain, ?_, previous, hFs ▸ hReads,
      hShown.current_iff.mp hSame⟩
    simpa [hCount] using hSecond
  · obtain ⟨_, _, hCheck, -⟩ := Fallible.run_bind_eq_ok hNext
    have hLater : IsLink w₁.fs config.dropinPath.path := hLink.afterDirectories hDirs
    exact absurd hCheck (IsLink.refused hLater)

/-- Where the directories are made if they can be, an install takes it so. -/
theorem ok_of_takenForCurrent (hSpares : host.Spares FsKind.preparing)
    (h : TakenForCurrent host config w) :
    ∃ outcome w', Program.run host.oracle (Ops.installSshdDropin config).run w =
      (.ok outcome, w') := by
  obtain ⟨hPreparable, hFirst, hMain, hSecond, _, hReads, bytes, text, rfl, hText, hTrim⟩ := h
  obtain ⟨w₁, hDirs, hFs⟩ := Ops.ensureDirectories_of_preparable hSpares hPreparable
  have hOther : FsKind.read ∉ FsKind.chmod :: FsKind.preparing := by decide
  have hCount : w₁.count .read = w.count .read := by
    have hSame := Ops.count_of_prepares host (Ops.within_ensureDirectories config) hOther w
    rwa [hDirs] at hSame
  rw [← hFs] at hMain hReads
  have hPrepare : Program.run host.oracle (Ops.installPrepare config).run w =
    (.ok (), w₁.after [.read] w₁.fs) :=
    Fallible.run_seq_eq_ok_iff.mpr ⟨w₁, hDirs,
      Ops.ensureIncludePresent_eq_ok_iff.mpr ⟨hCount ▸ hFirst, hMain, rfl⟩⟩
  have hRead : Program.run host.oracle (Ops.readOptionalString config.dropinPath.path).run
      (w₁.after [.read] w₁.fs) =
        (.ok (some (Text.trimEnd text)), (w₁.after [.read] w₁.fs).after [.read] w₁.fs) :=
    Ops.readOptionalString_eq_ok_iff.mpr
      ⟨by simpa [hCount] using hSecond, ⟨some bytes, hReads, .text hText⟩, rfl⟩
  refine ⟨.notModified, (w₁.after [.read] w₁.fs).after [.read] w₁.fs, ?_⟩
  rw [Ops.run_installSshdDropin, hPrepare]
  dsimp only
  unfold Ops.installCompare
  rw [Fallible.run_bind_ok hRead, hTrim, if_pos rfl]
  rfl

/-- An apply is never ok on a link. -/
theorem applyTrustedCaKeys_ne_ok (content : Text) (hLink : IsLink w.fs config.trustedCaPath.path)
    (outcome : Outcome) (w' : World) :
    Program.run host.oracle (Ops.applyTrustedCaKeys config content).run w ≠ (.ok outcome, w') := by
  unfold Ops.applyTrustedCaKeys
  intro h
  obtain ⟨_, _, hParse, h⟩ := Fallible.run_bind_eq_ok h
  obtain ⟨-, rfl⟩ := Prod.mk.inj hParse
  obtain ⟨_, w₁, hDirs, h⟩ := Fallible.run_bind_eq_ok h
  obtain ⟨_, _, hCheck, -⟩ := Fallible.run_bind_eq_ok h
  exact absurd hCheck (IsLink.refused (hLink.afterDirectories hDirs))

/-- A check passes a link only if that leads nowhere. -/
theorem dangling_of_checkPasses {accepts : Text → Bool} (h : CheckPasses host w path accepts)
    (hLink : IsLink w.fs path) : w.fs.lookup true path = .error .notFound := by
  rcases h.2 with hAbsent | ⟨-, -, node, hLookup, hSound⟩
  · exact hAbsent
  · obtain ⟨found, target, hFound, hTarget⟩ := hLink
    obtain ⟨bytes, hBytes⟩ := Node.bytes_of_isSound hSound
    rw [hFound] at hLookup
    cases hLookup
    rw [Node.link_of_bytes hBytes] at hTarget
    cases hTarget

/-- Past its preparation a writing request leaves a link's tree alone. -/
theorem serve_fs_of_isLink {request : Request} {update : Update}
    (hUpdate : request.update config = some update)
    (hLink : IsLink w.fs update.path) :
    (Ops.serve host config w request).2.fs =
      (Program.run host.oracle (request.prepare config).run w).2.fs := by
  unfold Ops.serve
  rw [Ops.run_dispatch_answer host config w hUpdate]
  obtain ⟨hPrepared, -⟩ := Ops.run_prepare host config w request
  rcases Ops.run_operation host config w hUpdate with
    ⟨err, w₁, hPrepare, hRun⟩ | ⟨w₁, hPrepare, hCompare⟩
  · rw [hRun, hPrepare]
  · rw [hPrepare] at hPrepared ⊢
    generalize Program.run host.oracle (request.operation config).run w = outcome at hCompare
    cases hCompare with
    | refused => rfl
    | current => rfl
    | exchanged calls previous hNotLink =>
        exact absurd hNotLink (hLink.prepared hPrepared).not_notLink

/-- All that an install changes before its write are the directories. -/
theorem installPrepare_fs :
    (Program.run host.oracle (Ops.installPrepare config).run w).2.fs =
      (Program.run host.oracle (Ops.ensureDirectories config).run w).2.fs := by
  unfold Ops.installPrepare
  rw [Fallible.run_bind]
  rcases Program.run host.oracle (Ops.ensureDirectories config).run w with ⟨_ | _, w₁⟩
  · rfl
  · obtain ⟨result, hInclude⟩ := Ops.run_ensureIncludePresent host config w₁
    dsimp only
    rw [hInclude, World.after_fs]

/-- So it is for an apply of keys that parse. -/
theorem applyPrepare_fs (content : Text) :
    (Program.run host.oracle (Ops.applyPrepare config content).run w).2.fs =
      if Ops.acceptsCa content then
        (Program.run host.oracle (Ops.ensureDirectories config).run w).2.fs
      else w.fs := by
  unfold Ops.applyPrepare Ops.acceptsCa
  rw [Fallible.run_bind, run_liftExcept]
  cases TrustedCaKeys.parse content <;> rfl

/-- Making the directories leaves what is not disturbed as it was. -/
theorem unchanged_of_not_disturbed (h : ¬ Disturbed host config w path) :
    ∀ loc ∈ [w.fs.entry path, w.fs.target path],
      (Program.run host.oracle (Ops.ensureDirectories config).run w).2.fs.node loc =
        w.fs.node loc := by
  intro loc hLoc
  by_contra hChanged
  exact h ⟨loc, hLoc, (Ops.prepares_ensureDirectories host config w).changed loc hChanged⟩

/-- Where the directories are made if they can be, what is disturbed changes. -/
theorem changed_of_disturbed (hSpares : host.Spares FsKind.preparing)
    (h : Disturbed host config w path) :
    ∃ loc ∈ [w.fs.entry path, w.fs.target path],
      (Program.run host.oracle (Ops.ensureDirectories config).run w).2.fs.node loc ≠
        w.fs.node loc := by
  obtain ⟨loc, hLoc, hDisturbed⟩ := h
  obtain ⟨-, -, hAdds, hResets⟩ := (Ops.prepares_ensureDirectories host config w).complete hSpares
  refine ⟨loc, hLoc, ?_⟩
  rcases hDisturbed with hAdded | hReset
  · obtain ⟨hAbsent, hThere⟩ := hAdds loc hAdded
    rw [hAbsent]
    exact hThere
  · exact hResets loc hReset

/-- The check refuses a link, unless that leads nowhere and all else passes. -/
theorem verifyState_refuses_iff (host : Host) {request : Request} (hOp : request.op = .verifyState)
    (hPath : path = config.trustedCaPath.path ∨ path = config.dropinPath.path)
    (hLink : IsLink w.fs path) :
    RefusesLink host config w request path ↔
      ¬ (w.fs.lookup true path = .error .notFound ∧ VerifyPasses host config w) := by
  have hDangling : VerifyPasses host config w → w.fs.lookup true path = .error .notFound := by
    intro hPasses
    rcases hPath with rfl | rfl
    · exact dangling_of_checkPasses hPasses.trusted hLink
    · have hDropin := dangling_of_checkPasses hPasses.dropin hLink
      exact hDropin
  unfold RefusesLink
  rw [← Bool.not_eq_true, Ops.serve_verifyState_ok_iff hOp, Ops.serve_verifyState_fs hOp]
  constructor
  · rintro ⟨hNot, -⟩ ⟨-, hPasses⟩
    exact hNot hPasses
  · intro hNot
    exact ⟨fun hPasses => hNot ⟨hDangling hPasses, hPasses⟩, fun _ _ => rfl⟩

/-- On a link an install changes the directories at most. -/
theorem serve_install_fs {request : Request} (hOp : request.op = .installSshdDropin)
    (hLink : IsLink w.fs config.dropinPath.path) :
    (Ops.serve host config w request).2.fs =
      (Program.run host.oracle (Ops.ensureDirectories config).run w).2.fs := by
  have hUpdate : request.update config =
    some (Update.dropin config) := by simp only [Request.update, hOp]
  rw [serve_fs_of_isLink hUpdate hLink, Request.prepare, hOp]
  exact installPrepare_fs

/-- The answer is ok where the operation ends well. -/
theorem serve_install_ok_iff {request : Request} (hOp : request.op = .installSshdDropin) :
    (Ops.serve host config w request).1.ok = true ↔
      ∃ outcome w', Program.run host.oracle (Ops.installSshdDropin config).run w =
        (.ok outcome, w') := by
  have hUpdate : request.update config =
    some (Update.dropin config) := by simp only [Request.update, hOp]
  rw [Ops.serve, Ops.run_dispatch_answer host config w hUpdate, Request.operation, hOp]
  rcases Program.run host.oracle (Ops.installSshdDropin config).run w with
    ⟨err | outcome, w'⟩ <;> simp [answer]

/-- What does not disturb the link, and is not taken for current, is refused. -/
theorem install_refuses {request : Request} (hOp : request.op = .installSshdDropin)
    (hLink : IsLink w.fs config.dropinPath.path)
    (hNot : ¬ (Disturbed host config w config.dropinPath.path ∨ TakenForCurrent host config w)) :
    RefusesLink host config w request config.dropinPath.path := by
  obtain ⟨hQuiet, hOther⟩ := not_or.mp hNot
  refine ⟨?_, ?_⟩
  · rw [← Bool.not_eq_true, serve_install_ok_iff hOp]
    rintro ⟨outcome, w', hRun⟩
    exact hOther (takenForCurrent_of_ok hLink hRun)
  · rw [serve_install_fs hOp hLink]
    exact unchanged_of_not_disturbed hQuiet

/-- Otherwise the install does not refuse. -/
theorem not_install_refuses {request : Request} (hOp : request.op = .installSshdDropin)
    (hLink : IsLink w.fs config.dropinPath.path) (hSpares : host.Spares FsKind.preparing)
    (h : Disturbed host config w config.dropinPath.path ∨ TakenForCurrent host config w) :
    ¬ RefusesLink host config w request config.dropinPath.path := by
  rintro ⟨hRefused, hSame⟩
  rcases h with hDisturbed | hTaken
  · obtain ⟨loc, hLoc, hChanged⟩ := changed_of_disturbed hSpares hDisturbed
    rw [serve_install_fs hOp hLink] at hSame
    exact hChanged (hSame loc hLoc)
  · rw [(serve_install_ok_iff hOp).mpr (ok_of_takenForCurrent hSpares hTaken)] at hRefused
    cases hRefused

/-- An apply is never ok on a link, and changes what making the directories does. -/
theorem serve_apply (host : Host) {request : Request} (hOp : request.op = .applyTrustedCaKeys)
    (hLink : IsLink w.fs config.trustedCaPath.path) :
    (Ops.serve host config w request).1.ok = false ∧
      (Ops.serve host config w request).2.fs =
        if request.content.any Ops.acceptsCa = true then
          (Program.run host.oracle (Ops.ensureDirectories config).run w).2.fs
        else w.fs := by
  cases hContent : request.content with
  | none =>
      have hRun : Ops.serve host config w request =
          (Response.failure .rolledBack "missing content".toList, w) := by
        simp only [Ops.serve, Ops.dispatch, hOp, hContent]
        rfl
      rw [hRun]
      exact ⟨rfl, rfl⟩
  | some content =>
      have hUpdate : request.update config = some (Update.trustedCa config content) := by
        simp only [Request.update, hOp, hContent, Option.map_some]
      refine ⟨?_, ?_⟩
      · rw [Ops.serve, Ops.run_dispatch_answer host config w hUpdate,
          Request.operation, hOp, hContent]
        simp only [Option.getD_some]
        rcases hRun : Program.run host.oracle (Ops.applyTrustedCaKeys config content).run w with
          ⟨err | outcome, w'⟩
        · rfl
        · exact absurd hRun (applyTrustedCaKeys_ne_ok content hLink outcome w')
      · rw [serve_fs_of_isLink hUpdate hLink, Request.prepare, hOp, hContent, Option.any_some]
        exact applyPrepare_fs content

/-- An apply that does not disturb the link refuses. -/
theorem apply_refuses {request : Request} (hOp : request.op = .applyTrustedCaKeys)
    (hLink : IsLink w.fs config.trustedCaPath.path)
    (hNot : ¬ (request.content.any Ops.acceptsCa = true ∧
      Disturbed host config w config.trustedCaPath.path)) :
    RefusesLink host config w request config.trustedCaPath.path := by
  obtain ⟨hRefused, hFs⟩ := serve_apply host hOp hLink
  refine ⟨hRefused, ?_⟩
  rw [hFs]
  split
  · rename_i hAccepts
    exact unchanged_of_not_disturbed fun hDisturbed => hNot ⟨hAccepts, hDisturbed⟩
  · exact fun _ _ => rfl

/-- An apply that disturbs it does not. -/
theorem not_apply_refuses {request : Request} (hOp : request.op = .applyTrustedCaKeys)
    (hLink : IsLink w.fs config.trustedCaPath.path) (hSpares : host.Spares FsKind.preparing)
    (h : request.content.any Ops.acceptsCa = true ∧
      Disturbed host config w config.trustedCaPath.path) :
    ¬ RefusesLink host config w request config.trustedCaPath.path := by
  obtain ⟨hAccepts, hDisturbed⟩ := h
  rintro ⟨-, hSame⟩
  obtain ⟨loc, hLoc, hChanged⟩ := changed_of_disturbed hSpares hDisturbed
  rw [(serve_apply host hOp hLink).2, if_pos hAccepts] at hSame
  exact hChanged (hSame loc hLoc)

end Symlinks

open Symlinks

/-- A symbolic link in the place of a managed file is refused and left alone
unless it gets past the operation. It does get past in these cases, if for the
writing operations no look and no `mkdir` is made to fail. -/
theorem link_refused_iff (host : Host) (config : OpsConfig) (w : World) (request : Request)
    (path : Path)
    (hManages : Manages config request.op path) (hLink : IsLink w.fs path) :
    (¬ GetsPast host config w request path → RefusesLink host config w request path) ∧
      ((request.op ≠ .verifyState → host.Spares FsKind.preparing) →
        RefusesLink host config w request path → ¬ GetsPast host config w request path) := by
  unfold GetsPast
  cases hOp : request.op with
  | ping => simp [Manages, hOp] at hManages
  | ensureDirectories => simp [Manages, hOp] at hManages
  | verifyState =>
      rw [hOp] at hManages
      have hIff := verifyState_refuses_iff host hOp hManages hLink
      exact ⟨hIff.mpr, fun _ => hIff.mp⟩
  | installSshdDropin =>
      rw [hOp] at hManages
      cases hManages
      exact ⟨install_refuses hOp hLink, fun hSpares hRefuses hPast =>
        not_install_refuses hOp hLink (hSpares (by decide)) hPast hRefuses⟩
  | applyTrustedCaKeys =>
      rw [hOp] at hManages
      cases hManages
      exact ⟨apply_refuses hOp hLink, fun hSpares hRefuses hPast =>
        not_apply_refuses hOp hLink (hSpares (by decide)) hPast hRefuses⟩

namespace Symlinks

def linkTo (target : Text) : Node := ⟨.symlink (Path.parse target), 0o777, rootUid⟩

/-- A trusted-CA path that is a link to nowhere. -/
def danglingCa : Fs := Fs.withTrustedCa (linkTo "/nowhere".toList)

/-- The rendered drop-in, for anyone to write. -/
def exposedCopy : Node :=
  ⟨.regular (Text.asBytes (SshdConfig.renderDropin OpsConfig.default.trustedCaPath)), 0o666, 1000⟩

/-- A drop-in path that is a link to the copy. -/
def linkedDropin : Fs :=
  (((Fs.withMainConfig Sandbox.stockMain).put ["copy".toList] exposedCopy).put
      ["sshd_config.d".toList, "ssh".toList, "etc".toList] ⟨.directory, 0o755, rootUid⟩).put
    ["90-mayfly.conf".toList, "sshd_config.d".toList, "ssh".toList, "etc".toList]
      (linkTo "/copy".toList)

def requestFor (op : Operation) : Request :=
  ⟨protocolVersion, [], op, some "ssh-ed25519 AAAA\n".toList⟩

end Symlinks

/-- An apply refuses a dangling link. -/
theorem link_refused_iff_apply :
    RefusesLink (Host.sandbox Host.noFailures (fun _ _ _ => .ok ())) OpsConfig.default
        (World.start danglingCa)
          (requestFor .applyTrustedCaKeys) OpsConfig.default.trustedCaPath.path ∧
      ¬ GetsPast (Host.sandbox Host.noFailures (fun _ _ _ => .ok ())) OpsConfig.default
        (World.start danglingCa)
          (requestFor .applyTrustedCaKeys) OpsConfig.default.trustedCaPath.path := by
  have hLink : IsLink danglingCa OpsConfig.default.trustedCaPath.path :=
    ⟨linkTo "/nowhere".toList, _, by decide +kernel, rfl⟩
  have hManages : Manages OpsConfig.default (requestFor .applyTrustedCaKeys).op
      OpsConfig.default.trustedCaPath.path := rfl
  have hSpares := (Host.sandbox_reliable (fun _ _ _ => .ok ())).spares FsKind.preparing
  obtain ⟨hRefuses, hExact⟩ :=
    link_refused_iff (Host.sandbox Host.noFailures (fun _ _ _ => .ok ())) _
    (World.start danglingCa) _ _ hManages hLink
  have hRefused := hRefuses <| by
    rintro ⟨-, hDisturbed⟩
    obtain ⟨loc, hLoc, hChanged⟩ := changed_of_disturbed hSpares hDisturbed
    have hSame : ∀ loc ∈ [danglingCa.entry OpsConfig.default.trustedCaPath.path,
        danglingCa.target OpsConfig.default.trustedCaPath.path],
        (Program.run (Host.sandbox Host.noFailures (fun _ _ _ => .ok ())).oracle
          (Ops.ensureDirectories OpsConfig.default).run (World.start danglingCa)).2.fs.node loc =
            danglingCa.node loc := by decide +kernel
    exact hChanged (hSame loc hLoc)
  exact ⟨hRefused, hExact (fun _ => hSpares) hRefused⟩

/-- A dangling link verifies, and a link to a copy that anyone can write is
taken for the drop-in. -/
theorem link_trusted :
    (IsLink danglingCa OpsConfig.default.trustedCaPath.path ∧
      ¬ RefusesLink (Host.sandbox Host.noFailures (fun _ _ _ => .ok ())) OpsConfig.default
        (World.start danglingCa) (requestFor .verifyState) OpsConfig.default.trustedCaPath.path) ∧
    IsLink linkedDropin OpsConfig.default.dropinPath.path ∧
      ¬ RefusesLink (Host.sandbox Host.noFailures (fun _ _ _ => .ok ())) OpsConfig.default
        (World.start linkedDropin)
          (requestFor .installSshdDropin) OpsConfig.default.dropinPath.path := by
  have hLink : IsLink linkedDropin OpsConfig.default.dropinPath.path :=
    ⟨linkTo "/copy".toList, _, by decide, rfl⟩
  refine ⟨⟨⟨linkTo "/nowhere".toList, _, by decide, rfl⟩, fun h => ?_⟩, hLink, fun h => ?_⟩
  · exact absurd h.1 (by decide +kernel)
  · exact absurd h.1 (by decide +kernel)

end MayflyHelper
