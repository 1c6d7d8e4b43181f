import MayflyHelper.DispatchRules

/-! What `verify_state` asks of a managed file, as a property of the tree, and
what its checks report. -/
namespace MayflyHelper

open OracleProgram

/-- Writable by group or other. -/
def Node.isExposed (node : Node) : Bool :=
  node.mode &&& 0o777 &&& Security.groupOrOtherWritable != 0

/-- A regular file that nobody else can write, with acceptable text in it. -/
def Node.isSound (accepts : Text → Bool) (node : Node) : Bool :=
  !node.isExposed && node.bytes.any (fun bytes => (Text.fromUtf8 bytes).any accepts)

/-- The entry `path` names is absent or sound. -/
def Fs.isSound (fs : Fs) (path : Path) (accepts : Text → Bool) : Bool :=
  (fs.node (fs.entry path)).all (Node.isSound accepts)

/-- Text the trusted-CA file may hold. -/
def Ops.acceptsCa (text : Text) : Bool := (TrustedCaKeys.parse text).isOk

/-- Text the drop-in may hold. -/
def Ops.acceptsDropin (config : OpsConfig) (text : Text) : Bool :=
  Text.trimEnd text == Text.trimEnd (SshdConfig.renderDropin config.trustedCaPath)

/-- A file is sound if it is closed to other writers and its text passes. -/
theorem Node.isSound_of_bytes {node : Node} {bytes : Bytes} (hBytes : node.bytes = some bytes)
    (accepts : Text → Bool) :
    node.isSound accepts = (!node.isExposed && (Text.fromUtf8 bytes).any accepts) := by
  rw [isSound, hBytes, Option.any_some]

theorem Node.bytes_of_isSound {node : Node} {accepts : Text → Bool}
    (h : node.isSound accepts = true) :
    ∃ bytes, node.bytes = some bytes := by
  rw [isSound, Bool.and_eq_true] at h
  obtain ⟨bytes, hBytes, -⟩ := (Option.any_eq_true ..).mp h.2
  exact ⟨bytes, hBytes⟩

/-- The mode of a directory is closed to other writers. -/
theorem Node.isExposed_of_dirMode {node : Node} (h : node.mode = dirMode) :
    node.isExposed = false := by
  rw [isExposed, h]
  decide

/-- A new file is sound if its text passes. -/
theorem newFile_isSound (accepts : Text → Bool) (bytes : Bytes) :
    (newFile bytes Security.modePublic).isSound accepts = (Text.fromUtf8 bytes).any accepts := by
  have hExposed : (newFile bytes Security.modePublic).isExposed = false := by
    change (Security.modePublic &&& 0o777 &&& Security.groupOrOtherWritable != 0) = false
    decide
  rw [Node.isSound_of_bytes (newFile_bytes bytes Security.modePublic), hExposed,
    Bool.not_false, Bool.true_and]

/-- How the check of a managed file that is no link ends: a call fails, or the
answer is about the file. -/
inductive CheckResult (host : Host) (w : World) (path : Path) (accepts : Text → Bool) :
    Except Error Unit × World → Prop where
  | failed (kind : IoErrorKind) (calls : List FsKind)
      (hNot : ¬ (host.Reliable ∧ ∃ previous, w.fs.Reads path previous)) :
      CheckResult host w path accepts (.error (.io kind), w.after calls w.fs)
  | absent (calls : List FsKind) (hReads : w.fs.Reads path none) :
      CheckResult host w path accepts (.ok (), w.after calls w.fs)
  | sound (calls : List FsKind) (node : Node) (hNode : w.fs.node (w.fs.entry path) = some node)
      (hSound : node.isSound accepts = true) :
      CheckResult host w path accepts (.ok (), w.after calls w.fs)
  | unsound (err : Error) (calls : List FsKind) (node : Node)
      (hNode : w.fs.node (w.fs.entry path) = some node) (hSound : node.isSound accepts = false) :
      CheckResult host w path accepts (.error err, w.after calls w.fs)

namespace Ops

variable {host : Host} {w : World} {path : Path}

theorem run_ensureNotGroupOrWorldWritable (host : Host) (w : World) {node : Node}
    (hLookup : w.fs.lookup false path = .ok node) :
    Program.run host.oracle (Security.ensureNotGroupOrWorldWritable path).run w =
      (if host.fails .lstat (w.count .lstat) then .error (.io .other)
        else if node.isExposed then .error .insecurePermissions else .ok (),
        w.after [.lstat] w.fs) := by
  unfold Security.ensureNotGroupOrWorldWritable
  rw [Fallible.run_bind, run_io, run_lstat, hLookup]
  cases host.fails .lstat (w.count .lstat) with
  | true => rfl
  | false =>
      simp only [Bool.false_eq_true, if_false, Except.mapError, Node.isExposed, bne_iff_ne]
      split <;> rfl

/-- The metadata checks of a file that was read and is no link. What comes
after them decides about the contents. -/
theorem checkResult_metadata (host : Host) {accepts : Text → Bool} {node : Node}
    (next : Action Unit)
    (calls : List FsKind) (hLookup : w.fs.lookup false path = .ok node) (hLink : node.link = none)
    (hNode : w.fs.node (w.fs.entry path) = some node)
    (hNext : ∀ calls, node.isExposed = false →
      CheckResult host w path accepts (Program.run host.oracle next.run (w.after calls w.fs))) :
    CheckResult host w path accepts (Program.run host.oracle (ExceptT.run do
      Security.ensureNotSymlink path
      Security.ensureNotGroupOrWorldWritable path
      next) (w.after calls w.fs)) := by
  cases hFirst : host.fails .lstat ((w.after calls w.fs).count .lstat) with
  | true =>
      have hFailed :
          Program.run host.oracle (Security.ensureNotSymlink path).run (w.after calls w.fs) =
          (.error (.io .other), w.after ([.lstat] ++ calls) w.fs) := by
        unfold Security.ensureNotSymlink
        rw [Fallible.run_bind, run_isSymlink, hFirst, World.after_after]
        rfl
      rw [Fallible.run_bind_error hFailed]
      exact .failed _ _ fun h => by simp [h.1 _ _] at hFirst
  | false =>
      rw [Fallible.run_bind_ok (run_ensureNotSymlink_ok hFirst hLookup hLink), World.after_fs,
        World.after_after, Fallible.run_bind,
        run_ensureNotGroupOrWorldWritable host (w.after ([FsKind.lstat] ++ calls) w.fs) hLookup]
      simp only [World.after_fs, World.after_after]
      cases hSecond : host.fails .lstat ((w.after ([.lstat] ++ calls) w.fs).count .lstat) with
      | true => exact .failed _ _ fun h => by simp [h.1 _ _] at hSecond
      | false =>
          cases hExposed : node.isExposed with
          | true => exact .unsound _ _ node hNode (by simp [Node.isSound, hExposed])
          | false => exact hNext _ hExposed

/-- The check of the keys, where their path is no link. -/
theorem run_checkTrustedCa (host : Host) (config : OpsConfig) (w : World)
    (hLink : w.fs.link (w.fs.entry config.trustedCaPath.path) = none) :
    CheckResult host w config.trustedCaPath.path acceptsCa
      (Program.run host.oracle (checkTrustedCa config).run w) := by
  unfold checkTrustedCa
  rcases run_readOptional_cases host w config.trustedCaPath.path with
    ⟨_ | bytes, hReads, hRun⟩ | ⟨kind, hRun, hNot⟩
  · rw [Fallible.run_bind_ok hRun]
    exact .absent _ hReads
  · rw [Fallible.run_bind_ok hRun]
    obtain ⟨node, hLookup, hNode, hNoLink, hBytes⟩ := hReads.lookup hLink
    refine checkResult_metadata host _ _ hLookup hNoLink hNode fun calls hExposed => ?_
    have hSound := Node.isSound_of_bytes hBytes acceptsCa
    rw [hExposed] at hSound
    cases hText : Text.fromUtf8 bytes with
    | none => exact .unsound _ _ node hNode (by simp [hSound, hText])
    | some text =>
        dsimp only
        rw [Fallible.run_bind, run_liftExcept]
        cases hParse : TrustedCaKeys.parse text with
        | error err =>
            refine .unsound err _ node hNode ?_
            simp [hSound, hText, acceptsCa, hParse, Except.isOk, Except.toBool]
        | ok keys =>
            refine .sound _ node hNode ?_
            simp [hSound, hText, acceptsCa, hParse, Except.isOk, Except.toBool]
  · rw [Fallible.run_bind_error hRun]
    exact .failed kind _ fun h => hNot ⟨h.1 _ _, h.2⟩

/-- The check of the drop-in, where its path is no link. -/
theorem run_checkDropin (host : Host) (config : OpsConfig) (w : World)
    (hLink : w.fs.link (w.fs.entry config.dropinPath.path) = none) :
    CheckResult host w config.dropinPath.path (acceptsDropin config)
      (Program.run host.oracle (checkDropin config).run w) := by
  unfold checkDropin readOptionalString
  rw [Fallible.run_bind]
  rcases run_readOptional_cases host w config.dropinPath.path with
    ⟨_ | bytes, hReads, hRun⟩ | ⟨kind, hRun, hNot⟩
  · rw [Fallible.run_bind_ok hRun]
    exact .absent _ hReads
  · rw [Fallible.run_bind_ok hRun]
    obtain ⟨node, hLookup, hNode, hNoLink, hBytes⟩ := hReads.lookup hLink
    have hSound := Node.isSound_of_bytes hBytes (acceptsDropin config)
    dsimp only
    cases hText : Text.fromUtf8 bytes with
    | none => exact .unsound _ _ node hNode (by simp [hSound, hText])
    | some text =>
        refine checkResult_metadata host _ _ hLookup hNoLink hNode fun calls hExposed => ?_
        rw [hExposed] at hSound
        by_cases hSame :
            Text.trimEnd text = Text.trimEnd (SshdConfig.renderDropin config.trustedCaPath)
        · rw [if_neg (not_not.mpr hSame)]
          exact .sound _ node hNode (by simp [hSound, hText, acceptsDropin, hSame])
        · rw [if_pos hSame]
          exact .unsound _ _ node hNode (by simp [hSound, hText, acceptsDropin, hSame])
  · rw [Fallible.run_bind_error hRun]
    exact .failed kind _ fun h => hNot ⟨h.1 _ _, h.2⟩

end Ops

namespace Request

/-- The part of `verify_state` about the file a request manages. -/
def check (config : OpsConfig) (request : Request) : Action Unit :=
  match request.op with
  | .installSshdDropin => Ops.checkDropin config
  | _ => Ops.checkTrustedCa config

def accepts (config : OpsConfig) (request : Request) : Text → Bool :=
  match request.op with
  | .installSshdDropin => Ops.acceptsDropin config
  | _ => Ops.acceptsCa

variable {host : Host} {config : OpsConfig} {w w₁ : World} {request : Request} {update : Update}

/-- The check of the file a request writes. -/
theorem run_check (host : Host) (w : World) (h : request.update config = some update)
    (hLink : w.fs.link (w.fs.entry update.path) = none) :
    CheckResult host w update.path (request.accepts config)
      (Program.run host.oracle (request.check config).run w) := by
  rcases request.update_eq_some h with ⟨hOp, rfl⟩ | ⟨hOp, content, hContent, rfl⟩
  · simp only [check, accepts, hOp]
    exact Ops.run_checkDropin host config w hLink
  · simp only [check, accepts, hOp]
    exact Ops.run_checkTrustedCa host config w hLink

/-- What a request writes, and what it takes for current, is acceptable. -/
theorem accepts_of_prepared (h : request.update config = some update)
    (hPrepare : Program.run host.oracle (request.prepare config).run w = (.ok (), w₁))
    {bytes : Bytes}
    (hBytes : bytes = update.contents ∨ update.Current (some bytes)) :
    (Text.fromUtf8 bytes).any (request.accepts config) = true := by
  rcases request.update_eq_some h with ⟨hOp, rfl⟩ | ⟨hOp, content, hContent, rfl⟩
  · simp only [accepts, hOp]
    rcases hBytes with rfl | ⟨found, text, hFound, hText, hTrim⟩
    · simp [Update.dropin, Ops.acceptsDropin]
    · cases hFound
      simp [hText, Ops.acceptsDropin, hTrim]
  · simp only [Request.prepare, hOp, hContent, Option.getD_some] at hPrepare
    have hContents : bytes = Text.asBytes content := by
      rcases hBytes with rfl | hCurrent
      · rfl
      · exact Option.some.inj hCurrent
    simp [hContents, accepts, hOp, Ops.acceptsCa, (Ops.applyPrepare_ok hPrepare).1]

end Request
end MayflyHelper
