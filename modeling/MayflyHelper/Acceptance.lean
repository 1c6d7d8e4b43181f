import MayflyHelper.Validity
import MayflyHelper.VerifyRules

/-! When `verify_state` passes. For every schedule of failing calls and every
behaviour of `sshd`, each check is held to the states in which it succeeds;
nothing is assumed about what is at the managed paths. -/
namespace MayflyHelper

open OracleProgram

/-- The check of a managed file passes: reading it is not made to fail and
either finds nothing, or the metadata calls succeed too and there is a sound
file at the path itself. A dangling link counts as nothing. -/
def CheckPasses (host : Host) (w : World) (path : Path) (accepts : Text → Bool) : Prop :=
  host.fails .read (w.count .read) = false ∧
    (w.fs.lookup true path = .error .notFound ∨
      host.fails .lstat (w.count .lstat) = false ∧ host.fails .lstat (w.count .lstat + 1) = false ∧
        ∃ node, w.fs.lookup false path = .ok node ∧ node.isSound accepts = true)

/-- The calls of a check that passes. -/
def checkCalls (fs : Fs) (path : Path) : List FsKind :=
  match fs.lookup true path with
  | .error .notFound => [.read]
  | _ => [.lstat, .lstat, .read]

/-- `verify_state` passes: both files do, and `sshd` reports no failure. -/
structure VerifyPasses (host : Host) (config : OpsConfig) (w : World) : Prop where
  trusted : CheckPasses host w config.trustedCaPath.path Ops.acceptsCa
  dropin : CheckPasses host (w.after (checkCalls w.fs config.trustedCaPath.path) w.fs)
    config.dropinPath.path (Ops.acceptsDropin config)
  valid : host.sshd w.events.length w.fs .validateConfig = .ok ()
  active : host.sshd (w.events.length + 1) w.fs .isActive = .ok ()

namespace Fs

variable {fs : Fs} {path : Path} {node : Node}

/-- What is found without following and is no link is found by following. -/
theorem lookup_follow (h : fs.lookup false path = .ok node) (hLink : node.link = none) :
    fs.lookup true path = .ok node := by
  obtain ⟨hFound, hNode⟩ := lookup_eq_ok_iff.mp h
  have hEnd : fs.link (fs.entry path) = none := by
    rw [link, entry, hNode]
    exact hLink
  rw [lookup_eq_ok_iff, resolve_follow path hEnd]
  exact ⟨hFound, hNode⟩

theorem checkCalls_absent (h : fs.lookup true path = .error .notFound) :
    checkCalls fs path = [.read] := by
  rw [checkCalls, h]

theorem Reads.checkCalls {bytes : Bytes} (h : fs.Reads path (some bytes)) :
    checkCalls fs path = [.lstat, .lstat, .read] := by
  obtain ⟨node, hFound, -⟩ := h
  rw [MayflyHelper.checkCalls, hFound]

end Fs

namespace Ops

variable {host : Host} {w w' : World} {path : Path}

/-- The read succeeds with what the path reads as. -/
theorem readOptional_eq_ok_iff {previous : Option Bytes} :
    Program.run host.oracle (readOptional path).run w = (.ok previous, w') ↔
      host.fails .read (w.count .read) = false ∧ w.fs.Reads path previous ∧
        w' = w.after [.read] w.fs := by
  constructor
  · intro h
    cases hFails : host.fails .read (w.count .read) with
    | true =>
        simp only [readOptional, ExceptT.run_mk, Program.run_bind] at h
        rw [run_fails (.read path) (by simpa [Host.failsAt, FsCall.kind] using hFails)] at h
        cases h
    | false =>
        rcases run_readOptional_cases host w path with ⟨found, hReads, hRun⟩ | ⟨kind, hRun, -⟩
        · rw [hRun] at h
          cases h
          exact ⟨rfl, hReads, rfl⟩
        · rw [hRun] at h
          cases h
  · rintro ⟨hClear, hReads, rfl⟩
    exact run_readOptional_ok hClear hReads

/-- Taken for a text, the bytes have to be one. -/
theorem readOptionalString_eq_ok_iff {onDisk : Option Text} :
    Program.run host.oracle (readOptionalString path).run w = (.ok onDisk, w') ↔
      host.fails .read (w.count .read) = false ∧
        (∃ previous, w.fs.Reads path previous ∧ ShownAs previous onDisk) ∧
          w' = w.after [.read] w.fs := by
  unfold readOptionalString
  rw [Fallible.run_bind_eq_ok_iff]
  simp only [readOptional_eq_ok_iff]
  constructor
  · rintro ⟨_ | bytes, _, ⟨hRead, hReads, rfl⟩, hShown⟩
    · cases hShown
      exact ⟨hRead, ⟨none, hReads, .absent⟩, rfl⟩
    · dsimp only at hShown
      cases hText : Text.fromUtf8 bytes with
      | none =>
          rw [hText] at hShown
          cases hShown
      | some text =>
          rw [hText] at hShown
          cases hShown
          exact ⟨hRead, ⟨some bytes, hReads, .text hText⟩, rfl⟩
  · rintro ⟨hRead, ⟨previous, hReads, hShown⟩, rfl⟩
    refine ⟨previous, _, ⟨hRead, hReads, rfl⟩, ?_⟩
    cases hShown with
    | absent => rfl
    | text hText =>
        simp only [hText]
        rfl

/-- What is not there passes, and what is there and no link. -/
theorem ensureNotSymlink_eq_ok_iff :
    Program.run host.oracle (Security.ensureNotSymlink path).run w = (.ok (), w') ↔
      host.fails .lstat (w.count .lstat) = false ∧
        (w.fs.lookup false path = .error .notFound ∨
          ∃ node, w.fs.lookup false path = .ok node ∧ node.link = none) ∧
        w' = w.after [.lstat] w.fs := by
  unfold Security.ensureNotSymlink
  rw [Fallible.run_bind, run_isSymlink]
  cases host.fails .lstat (w.count .lstat) with
  | true => simp
  | false =>
      rcases w.fs.lookup false path with (_ | _) | node
      · simp [eq_comm]
      · simp
      · cases hLink : node.link with
        | none => simp [hLink, eq_comm]
        | some target =>
            simp only [hLink]
            exact iff_of_false (fun h => by cases h) (by simp [hLink])

/-- What is there and closed to writers passes; nothing there does not. -/
theorem ensureNotGroupOrWorldWritable_eq_ok_iff :
    Program.run host.oracle (Security.ensureNotGroupOrWorldWritable path).run w = (.ok (), w') ↔
      host.fails .lstat (w.count .lstat) = false ∧
        (∃ node, w.fs.lookup false path = .ok node ∧ node.isExposed = false) ∧
        w' = w.after [.lstat] w.fs := by
  cases hFails : host.fails .lstat (w.count .lstat) with
  | true =>
      unfold Security.ensureNotGroupOrWorldWritable
      rw [Fallible.run_bind, run_io, run_lstat, hFails]
      simp [Except.mapError]
  | false =>
      cases hLookup : w.fs.lookup false path with
      | error kind =>
          unfold Security.ensureNotGroupOrWorldWritable
          rw [Fallible.run_bind, run_io, run_lstat, hFails, hLookup]
          simp [Except.mapError]
      | ok node =>
          rw [run_ensureNotGroupOrWorldWritable host w hLookup, hFails]
          cases hExposed : node.isExposed with
          | true => simp [hExposed]
          | false =>
              simp only [Bool.false_eq_true, if_false, Prod.mk.injEq, true_and, Except.ok.injEq,
                exists_eq_left', hExposed]
              exact eq_comm

/-- The two metadata checks pass on an entry that is no link and not exposed. -/
theorem metadata_eq_ok_iff {next : Action Unit} :
    Program.run host.oracle (ExceptT.run do
      Security.ensureNotSymlink path
      Security.ensureNotGroupOrWorldWritable path
      next) w = (.ok (), w') ↔
    host.fails .lstat (w.count .lstat) = false ∧ host.fails .lstat (w.count .lstat + 1) = false ∧
      (∃ node, w.fs.lookup false path = .ok node ∧ node.link = none ∧ node.isExposed = false) ∧
      Program.run host.oracle next.run (w.after [.lstat, .lstat] w.fs) = (.ok (), w') := by
  simp only [Fallible.run_seq_eq_ok_iff, ensureNotSymlink_eq_ok_iff,
    ensureNotGroupOrWorldWritable_eq_ok_iff]
  constructor
  · rintro ⟨_, ⟨hFirst, hLink, rfl⟩, _, ⟨hSecond, ⟨node, hLookup, hExposed⟩, rfl⟩, hNext⟩
    have hNoLink : node.link = none := by
      rcases hLink with hAbsent | ⟨found, hFound, hNoLink⟩
      · rw [World.after_fs, hAbsent] at hLookup
        cases hLookup
      · rw [World.after_fs, hFound] at hLookup
        cases hLookup
        exact hNoLink
    simp only [World.after_after] at hNext
    exact ⟨hFirst, hSecond, ⟨node, hLookup, hNoLink, hExposed⟩, hNext⟩
  · rintro ⟨hFirst, hSecond, ⟨node, hLookup, hLink, hExposed⟩, hNext⟩
    refine ⟨_, ⟨hFirst, Or.inr ⟨node, hLookup, hLink⟩, rfl⟩, _,
      ⟨hSecond, ⟨node, hLookup, hExposed⟩, rfl⟩, ?_⟩
    rw [World.after_after]
    exact hNext

/-- What is left of a check once the file was read: the metadata and the text. -/
theorem found_passes_iff {accepts : Text → Bool} {bytes : Bytes}
    (hRead : host.fails .read (w.count .read) = false) (hReads : w.fs.Reads path (some bytes)) :
    CheckPasses host w path accepts ↔
      host.fails .lstat (w.count .lstat) = false ∧ host.fails .lstat (w.count .lstat + 1) = false ∧
        (∃ node, w.fs.lookup false path = .ok node ∧ node.link = none ∧ node.isExposed = false) ∧
        (Text.fromUtf8 bytes).any accepts = true := by
  obtain ⟨found, hFound, hBytes⟩ := hReads
  -- The file that was read is the one at the path, as that is no link.
  have hSame : ∀ node, w.fs.lookup false path = .ok node → node.link = none → node = found := by
    intro node hLookup hLink
    rw [Fs.lookup_follow hLookup hLink] at hFound
    exact Except.ok.inj hFound
  constructor
  · rintro ⟨-, hAbsent | ⟨hFirst, hSecond, node, hLookup, hSound⟩⟩
    · rw [hAbsent] at hFound
      cases hFound
    · obtain ⟨_, hNodeBytes⟩ := Node.bytes_of_isSound hSound
      have hLink := Node.link_of_bytes hNodeBytes
      cases hSame node hLookup hLink
      rw [Node.isSound_of_bytes hBytes, Bool.and_eq_true, Bool.not_eq_true'] at hSound
      exact ⟨hFirst, hSecond, ⟨found, hLookup, hLink, hSound.1⟩, hSound.2⟩
  · rintro ⟨hFirst, hSecond, ⟨node, hLookup, hLink, hExposed⟩, hText⟩
    refine ⟨hRead, Or.inr ⟨hFirst, hSecond, node, hLookup, ?_⟩⟩
    cases hSame node hLookup hLink
    rw [Node.isSound_of_bytes hBytes, hExposed, hText]
    rfl

/-- A check that reads its file, looks at the metadata and then decides about
the text passes as `CheckPasses` says. -/
theorem check_eq_ok_iff {accepts : Text → Bool} {decide : Bytes → Action Unit}
    (hDecide : ∀ bytes v v', Program.run host.oracle (decide bytes).run v = (.ok (), v') ↔
      host.fails .lstat (v.count .lstat) = false ∧ host.fails .lstat (v.count .lstat + 1) = false ∧
        (∃ node, v.fs.lookup false path = .ok node ∧ node.link = none ∧ node.isExposed = false) ∧
        (Text.fromUtf8 bytes).any accepts = true ∧ v' = v.after [.lstat, .lstat] v.fs) :
    Program.run host.oracle (ExceptT.run do
        match ← readOptional path with
        | none => pure ()
        | some bytes => decide bytes) w = (.ok (), w') ↔
      CheckPasses host w path accepts ∧ w' = w.after (checkCalls w.fs path) w.fs := by
  rw [Fallible.run_bind_eq_ok_iff]
  simp only [readOptional_eq_ok_iff]
  constructor
  · rintro ⟨_ | bytes, v, ⟨hRead, hReads, rfl⟩, hNext⟩
    · cases hNext
      rw [Fs.checkCalls_absent hReads]
      exact ⟨⟨hRead, Or.inl hReads⟩, rfl⟩
    · obtain ⟨hFirst, hSecond, hNode, hText, rfl⟩ := (hDecide bytes _ _).mp hNext
      refine ⟨(found_passes_iff hRead hReads).mpr ⟨hFirst, hSecond, hNode, hText⟩, ?_⟩
      rw [hReads.checkCalls, World.after_after]
      rfl
  · rintro ⟨hPasses, rfl⟩
    rcases hPasses.2 with hAbsent | ⟨-, -, node, hLookup, hSound⟩
    · refine ⟨none, _, ⟨hPasses.1, hAbsent, rfl⟩, ?_⟩
      rw [Fs.checkCalls_absent hAbsent]
      rfl
    · obtain ⟨bytes, hBytes⟩ := Node.bytes_of_isSound hSound
      have hReads : w.fs.Reads path (some bytes) :=
        ⟨node, Fs.lookup_follow hLookup (Node.link_of_bytes hBytes), hBytes⟩
      obtain ⟨hFirst, hSecond, hNode, hText⟩ := (found_passes_iff hPasses.1 hReads).mp hPasses
      refine ⟨some bytes, _, ⟨hPasses.1, hReads, rfl⟩,
        (hDecide bytes _ _).mpr ⟨hFirst, hSecond, hNode, hText, ?_⟩⟩
      rw [hReads.checkCalls, World.after_after]
      rfl

theorem pure_eq_ok_iff {v v' : World} :
    Program.run host.oracle (pure () : Action Unit).run v = (.ok (), v') ↔ v' = v := by
  change ((.ok (), v) : Except Error Unit × World) = (.ok (), v') ↔ v' = v
  rw [Prod.mk.injEq, eq_self_iff_true, true_and, eq_comm]

/-- The check of the keys. -/
theorem checkTrustedCa_eq_ok_iff {config : OpsConfig} :
    Program.run host.oracle (checkTrustedCa config).run w = (.ok (), w') ↔
      CheckPasses host w config.trustedCaPath.path acceptsCa ∧
        w' = w.after (checkCalls w.fs config.trustedCaPath.path) w.fs := by
  unfold checkTrustedCa
  refine check_eq_ok_iff fun bytes v v' => ?_
  rw [metadata_eq_ok_iff]
  refine and_congr_right fun _ => and_congr_right fun _ => and_congr_right fun _ => ?_
  cases hText : Text.fromUtf8 bytes with
  | none => simp
  | some text =>
      simp only [Fallible.run_bind, run_liftExcept, Option.any_some, acceptsCa]
      cases TrustedCaKeys.parse text with
      | error err => simp [Except.isOk, Except.toBool]
      | ok keys =>
          simp only [Except.isOk, Except.toBool, true_and]
          exact pure_eq_ok_iff

/-- `checkDropin` from the bytes on. -/
def decideDropin (config : OpsConfig) (bytes : Bytes) : Action Unit :=
  match Text.fromUtf8 bytes with
  | none => throw .helperProtocol
  | some text => do
      Security.ensureNotSymlink config.dropinPath.path
      Security.ensureNotGroupOrWorldWritable config.dropinPath.path
      if Text.trimEnd text ≠ Text.trimEnd (SshdConfig.renderDropin config.trustedCaPath) then
        throw .sshdValidationFailed
      pure ()

/-- The check of the drop-in. -/
theorem checkDropin_eq_ok_iff {config : OpsConfig} :
    Program.run host.oracle (checkDropin config).run w = (.ok (), w') ↔
      CheckPasses host w config.dropinPath.path (acceptsDropin config) ∧
        w' = w.after (checkCalls w.fs config.dropinPath.path) w.fs := by
  have hShape : Program.run host.oracle (checkDropin config).run w =
      Program.run host.oracle (ExceptT.run do
        match ← readOptional config.dropinPath.path with
        | none => pure ()
        | some bytes => decideDropin config bytes) w := by
    unfold checkDropin readOptionalString
    rw [Fallible.run_bind, Fallible.run_bind, Fallible.run_bind]
    rcases Program.run host.oracle (readOptional config.dropinPath.path).run w with
      ⟨err | _ | bytes, v⟩
    · rfl
    · rfl
    · dsimp only [decideDropin]
      cases Text.fromUtf8 bytes <;> rfl
  rw [hShape]
  refine check_eq_ok_iff fun bytes v v' => ?_
  unfold decideDropin
  cases hText : Text.fromUtf8 bytes with
  | none => simp
  | some text =>
      simp only
      rw [metadata_eq_ok_iff]
      refine and_congr_right fun _ => and_congr_right fun _ => and_congr_right fun _ => ?_
      by_cases hSame :
          Text.trimEnd text = Text.trimEnd (SshdConfig.renderDropin config.trustedCaPath)
      · rw [if_neg (not_not.mpr hSame)]
        simp only [Option.any_some, acceptsDropin, hSame, beq_self_eq_true, true_and]
        exact pure_eq_ok_iff
      · rw [if_pos hSame]
        refine iff_of_false (fun h => by cases h) ?_
        simp [acceptsDropin, hSame]

/-- A control succeeds where `sshd` says so. -/
theorem sshdCall_eq_ok_iff {call : SshdCall} :
    Program.run host.oracle (sshdCall call).run w = (.ok (), w') ↔
      host.sshd w.events.length w.fs call = .ok () ∧ w' = w.noted [⟨call, .ok (), w.fs⟩] := by
  rw [run_sshd rfl, Prod.mk.injEq]
  refine and_congr_right fun hOk => ?_
  rw [hOk, eq_comm]

/-- The world after `verify_state` passed. -/
theorem verifyState_eq_ok_iff {config : OpsConfig} :
    Program.run host.oracle (verifyState config).run w = (.ok (), w') ↔
      VerifyPasses host config w ∧
        w' = (w.after
          (checkCalls w.fs config.dropinPath.path ++ checkCalls w.fs config.trustedCaPath.path)
          w.fs).noted [⟨.isActive, .ok (), w.fs⟩, ⟨.validateConfig, .ok (), w.fs⟩] := by
  unfold verifyState
  simp only [Fallible.run_seq_eq_ok_iff, checkTrustedCa_eq_ok_iff, checkDropin_eq_ok_iff,
    sshdCall_eq_ok_iff]
  constructor
  · rintro ⟨_, ⟨hTrusted, rfl⟩, _, ⟨hDropin, rfl⟩, _, ⟨hValid, rfl⟩, hActive, rfl⟩
    refine ⟨⟨hTrusted, hDropin, hValid, hActive⟩, ?_⟩
    rw [World.after_after]
    rfl
  · rintro ⟨hPasses, rfl⟩
    refine ⟨_, ⟨hPasses.trusted, rfl⟩, _, ⟨hPasses.dropin, rfl⟩, _, ⟨hPasses.valid, rfl⟩,
      hPasses.active, ?_⟩
    rw [World.after_after]
    rfl

section Serve

variable {config : OpsConfig} {request : Request} (hOp : request.op = .verifyState)

include hOp

theorem serve_verifyState (host : Host) (config : OpsConfig) (w : World) :
    serve host config w request =
      (toResponse (Program.run host.oracle (verifyState config).run w).1 .ok,
        (Program.run host.oracle (verifyState config).run w).2) := by
  unfold serve dispatch
  simp only [hOp, Program.run_bind, run_attempt, Program.run_pure]

/-- A check of the state leaves the files alone. -/
theorem serve_verifyState_fs : (serve host config w request).2.fs = w.fs := by
  rw [serve_verifyState hOp]
  exact (quiet_of_within host (within_verifyState config) w).1

/-- `VerifyState` is answered ok exactly where `verify_state` passes. -/
theorem serve_verifyState_ok_iff :
    (serve host config w request).1.ok = true ↔ VerifyPasses host config w := by
  rw [serve_verifyState hOp]
  rcases hRun : Program.run host.oracle (verifyState config).run w with ⟨err | _, w'⟩
  · refine iff_of_false (by simp [toResponse]) fun hPasses => ?_
    rw [verifyState_eq_ok_iff.mpr ⟨hPasses, rfl⟩] at hRun
    cases hRun
  · exact iff_of_true rfl (verifyState_eq_ok_iff.mp hRun).1

/-- Where it passes, it has validated and asked for the activity. -/
theorem serve_verifyState_events (hPasses : VerifyPasses host config w) :
    (serve host config w request).2.events =
      ⟨.isActive, .ok (), w.fs⟩ :: ⟨.validateConfig, .ok (), w.fs⟩ :: w.events := by
  rw [serve_verifyState hOp, verifyState_eq_ok_iff.mpr ⟨hPasses, rfl⟩]
  rfl

end Serve

end Ops
end MayflyHelper
