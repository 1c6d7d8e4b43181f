import MayflyHelper.Authentication
import MayflyHelper.Validity

/-! What the helper is for: two registers, one per managed file, that change
only by requests answered ok. The helper's runs refine this machine, and
nothing else on the host changes. -/
namespace MayflyHelper

open OracleProgram

/-- The managed files as an agent may think of them. -/
structure Registers where
  trusted : Option Bytes
  dropin : Option Bytes
  deriving DecidableEq

/-- A request with its sender, and the answer it got. -/
abbrev Answered := (Option PeerCred × Request) × Response

namespace Registers

/-- The content of an `ApplyTrustedCaKeys` request that was answered ok. -/
def appliedContent (answered : Answered) : Option Text :=
  if answered.1.2.op = .applyTrustedCaKeys ∧ answered.2.ok = true then answered.1.2.content
  else none

/-- An `InstallSshdDropin` request that was answered with outcome `Ok`. -/
def installedDropin (answered : Answered) : Bool :=
  answered.1.2.op == .installSshdDropin && answered.2.outcome == .ok

/-- One move of the machine. -/
def move (config : OpsConfig) (registers : Registers) (answered : Answered) : Registers where
  trusted :=
    ((appliedContent answered).map (fun content => some (Text.asBytes content))).getD
      registers.trusted
  dropin :=
    if installedDropin answered then
      some (Text.asBytes (SshdConfig.renderDropin config.trustedCaPath))
    else registers.dropin

theorem move_idle (answered : Answered) (hApplied : appliedContent answered = none)
    (hInstalled : installedDropin answered = false) (config : OpsConfig) (registers : Registers) :
    move config registers answered = registers := by
  simp [move, hApplied, hInstalled]

/-- The content applied last, if any. -/
def lastApplied (log : List Answered) : Option Text := (log.filterMap appliedContent).getLast?

theorem foldl_move_trusted (config : OpsConfig) (registers : Registers) (log : List Answered) :
    (log.foldl (move config) registers).trusted =
      match lastApplied log with
      | some content => some (Text.asBytes content)
      | none => registers.trusted := by
  induction log generalizing registers with
  | nil => rfl
  | cons answered log ih =>
      rw [List.foldl_cons, ih]
      unfold lastApplied move
      cases hApplied : appliedContent answered with
      | none => simp [hApplied]
      | some content =>
          simp only [List.filterMap_cons, hApplied, List.getLast?_cons]
          cases (log.filterMap appliedContent).getLast? <;> rfl

theorem foldl_move_dropin (config : OpsConfig) (registers : Registers) (log : List Answered) :
    (log.foldl (move config) registers).dropin =
      if log.any installedDropin then
        some (Text.asBytes (SshdConfig.renderDropin config.trustedCaPath))
      else registers.dropin := by
  induction log generalizing registers with
  | nil => rfl
  | cons answered log ih =>
      rw [List.foldl_cons, ih]
      rw [List.any_cons]
      cases hInstalled : installedDropin answered with
      | false => simp only [move, hInstalled, Bool.false_or, Bool.false_eq_true, if_false]
      | true => simp only [move, hInstalled, Bool.true_or, if_true, ite_self]

end Registers

/-- The helper as a service of requests that come with a peer. -/
def HelperServer.serve (server : HelperServer) (host : Host) (w : World)
    (call : Option PeerCred × Request) : Response × World :=
  (server.evaluate call.1 call.2).run host.oracle w

/-- A writing operation leaves all contents alone, or gives its file the new
contents and is answered so. -/
theorem Settled.effect {host : Host} {config : OpsConfig} {w w' : World} {path : Path}
    {Current : Option Bytes → Prop} {contents : Bytes} {done : Outcome}
    {result : Except Error Outcome}
    (h : Settled host config w path Current contents done (result, w')) :
    Fs.SameLinks w.fs w'.fs ∧
      (((∀ loc, w'.fs.bytesAt loc = w.fs.bytesAt loc) ∧
          ((∃ err, result = .error err) ∨
            result = .ok .notModified ∧ ∃ previous, w'.fs.Reads path previous ∧ Current previous)) ∨
        (result = .ok done ∧ ∀ loc, w'.fs.bytesAt loc =
          if loc = w.fs.entry path then some contents else w.fs.bytesAt loc)) := by
  cases h with
  | refused err _ hPrepared =>
      exact ⟨hPrepared.sameLinks, Or.inl ⟨hPrepared.bytesAt, Or.inl ⟨err, rfl⟩⟩⟩
  | current _ previous hPrepared _ hReads hCurrent =>
      exact ⟨hPrepared.sameLinks,
        Or.inl ⟨hPrepared.bytesAt, Or.inr ⟨rfl, previous, hReads, hCurrent⟩⟩⟩
  | committed fs previous hPrepared hWritable hHolds _ _ _ _ hFs =>
      rw [hFs]
      refine ⟨hPrepared.sameLinks.trans (Fs.sameLinks_installed hWritable hHolds contents),
        Or.inr ⟨rfl, fun loc => ?_⟩⟩
      rw [Fs.bytesAt_installed hWritable, Fs.entry_eq hPrepared.sameLinks, hPrepared.bytesAt]
  | rolledBack fs previous hPrepared hWritable hHolds _ err _ _ _ _ _ _ hFs =>
      rw [hFs]
      refine ⟨hPrepared.sameLinks.trans (Fs.sameLinks_restored hWritable hHolds),
        Or.inl ⟨fun loc => ?_, Or.inl ⟨err, rfl⟩⟩⟩
      rw [Fs.bytesAt_restored hWritable hHolds, hPrepared.bytesAt]

/-- The three configured paths denote pairwise distinct files. -/
structure OpsConfig.Distinct (config : OpsConfig) (fs : Fs) : Prop where
  files : config.NamesFiles
  trusted_dropin : fs.target config.trustedCaPath.path ≠ fs.target config.dropinPath.path
  trusted_main : fs.target config.trustedCaPath.path ≠ fs.target config.mainSshdConfig.path
  dropin_main : fs.target config.dropinPath.path ≠ fs.target config.mainSshdConfig.path

/-- `path` is absent or a regular file. -/
def Fs.AbsentOrRegular (fs : Fs) (path : Path) : Prop :=
  ∃ previous, fs.Holds (fs.entry path) previous

theorem Fs.AbsentOrRegular.target {fs : Fs} {path : Path} (h : fs.AbsentOrRegular path) :
    fs.target path = fs.entry path := by
  obtain ⟨previous, hHolds⟩ := h
  exact Fs.target_eq_entry path hHolds.link

namespace Refinement

/-- The tree `fs` of a run from `base` shows the registers in the managed
files and `base` everywhere else. -/
structure Shows (config : OpsConfig) (base : Fs) (fs : Fs) (registers : Registers) : Prop where
  links : Fs.SameLinks base fs
  trusted : fs.bytesAt (base.target config.trustedCaPath.path) = registers.trusted
  dropin : fs.bytesAt (base.target config.dropinPath.path) = registers.dropin
  others : ∀ loc, loc ≠ base.target config.trustedCaPath.path →
    loc ≠ base.target config.dropinPath.path → fs.bytesAt loc = base.bytesAt loc

variable {host : Host} {config : OpsConfig} {base : Fs} {w w' : World} {registers : Registers}

theorem Shows.same {fs fs' : Fs} (h : Shows config base fs registers) (hLinks : Fs.SameLinks fs fs')
    (hBytes : ∀ loc, fs'.bytesAt loc = fs.bytesAt loc) : Shows config base fs' registers where
  links := h.links.trans hLinks
  trusted := (hBytes _).trans h.trusted
  dropin := (hBytes _).trans h.dropin
  others := fun loc hTrusted hDropin => (hBytes loc).trans (h.others loc hTrusted hDropin)

/-- The entry a managed path names is the one it denoted at the start. -/
theorem Shows.entry {fs : Fs} {path : Path} (h : Shows config base fs registers)
    (hPath : base.AbsentOrRegular path) : fs.entry path = base.target path := by
  rw [Fs.entry_eq h.links, hPath.target]

section Step

variable (hDistinct : config.Distinct base)
  (hTrusted : base.AbsentOrRegular config.trustedCaPath.path)
  (hDropin : base.AbsentOrRegular config.dropinPath.path) (h : Shows config base w.fs registers)

include hDistinct hTrusted h in
theorem apply_shows {content : Text} {result : Except Error Outcome} (peer : Option PeerCred)
    {request : Request} (hOp : request.op = .applyTrustedCaKeys)
    (hContent : request.content = some content)
    (hRun : Settled host config w config.trustedCaPath.path (Ops.CurrentCa content)
      (Text.asBytes content) .applied (result, w')) :
    Shows config base w'.fs
      (Registers.move config registers ((peer, request), answer request.op result)) := by
  have hNoDropin : Registers.installedDropin ((peer, request), answer request.op result) =
    false := by
    simp [Registers.installedDropin, hOp]
  obtain ⟨hLinks, ⟨hBytes, ⟨err, rfl⟩ | ⟨rfl, previous, hReads, hCurrent⟩⟩ | ⟨rfl, hBytes⟩⟩ :=
    hRun.effect
  · have hNothing : Registers.appliedContent ((peer, request), answer request.op (.error err)) =
      none := by
      simp [Registers.appliedContent, answer]
    rw [Registers.move_idle _ hNothing hNoDropin]
    exact h.same hLinks hBytes
  · have hSame := h.same hLinks hBytes
    have hApplied : Registers.appliedContent
        ((peer, request), answer request.op (.ok .notModified)) = some content := by
      simp [Registers.appliedContent, answer, hOp, hContent]
    simp only [Registers.move, hApplied, hNoDropin, Bool.false_eq_true, if_false]
    refine ⟨hSame.links, ?_, hSame.dropin, hSame.others⟩
    rw [Ops.CurrentCa] at hCurrent
    subst hCurrent
    have hContents := hReads.contents
    rwa [Fs.target_eq hSame.links] at hContents
  · have hApplied : Registers.appliedContent
        ((peer, request), answer request.op (.ok .applied)) = some content := by
      simp [Registers.appliedContent, answer, hOp, hContent]
    simp only [Registers.move, hApplied, hNoDropin, Bool.false_eq_true, if_false]
    rw [h.entry hTrusted] at hBytes
    refine ⟨h.links.trans hLinks, ?_, ?_, fun loc hLoc hLoc' => ?_⟩
    · rw [hBytes, if_pos rfl]
      rfl
    · rw [hBytes, if_neg (Ne.symm hDistinct.trusted_dropin), h.dropin]
    · rw [hBytes, if_neg hLoc, h.others loc hLoc hLoc']

include hDistinct hDropin h in
theorem install_shows {result : Except Error Outcome} (peer : Option PeerCred) {request : Request}
    (hOp : request.op = .installSshdDropin)
    (hRun : Settled host config w config.dropinPath.path (Ops.CurrentDropin config)
      (Text.asBytes (SshdConfig.renderDropin config.trustedCaPath)) .ok (result, w')) :
    Shows config base w'.fs
      (Registers.move config registers ((peer, request), answer request.op result)) := by
  have hNoApply : Registers.appliedContent ((peer, request), answer request.op result) = none := by
    simp [Registers.appliedContent, hOp]
  obtain ⟨hLinks, ⟨hBytes, hResult⟩ | ⟨rfl, hBytes⟩⟩ := hRun.effect
  · have hNothing : Registers.installedDropin ((peer, request), answer request.op result) =
      false := by
      rcases hResult with ⟨err, rfl⟩ | ⟨rfl, -⟩ <;> simp [Registers.installedDropin, answer, hOp]
    rw [Registers.move_idle _ hNoApply hNothing]
    exact h.same hLinks hBytes
  · have hInstalled : Registers.installedDropin ((peer, request), answer request.op (.ok .ok)) =
      true := by
      simp [Registers.installedDropin, answer, hOp]
    simp only [Registers.move, hNoApply, hInstalled, if_true]
    rw [h.entry hDropin] at hBytes
    refine ⟨h.links.trans hLinks, ?_, ?_, fun loc hLoc hLoc' => ?_⟩
    · rw [hBytes, if_neg hDistinct.trusted_dropin, h.trusted]
      rfl
    · rw [hBytes, if_pos rfl]
    · rw [hBytes, if_neg hLoc', h.others loc hLoc hLoc']

end Step

/-- One request, authenticated or not. -/
theorem serve_shows {server : HelperServer} (hReliable : host.Reliable)
    (hDistinct : server.ops.Distinct base)
    (hTrusted : base.AbsentOrRegular server.ops.trustedCaPath.path)
    (hDropin : base.AbsentOrRegular server.ops.dropinPath.path)
    (h : Shows server.ops base w.fs registers) (call : Option PeerCred × Request) :
    Shows server.ops base (server.serve host w call).2.fs
      (Registers.move server.ops registers (call, (server.serve host w call).1)) := by
  obtain ⟨peer, request⟩ := call
  unfold HelperServer.serve HelperServer.evaluate
  cases hRejection : server.rejection peer request with
  | some response =>
      obtain ⟨hOk, hOutcome⟩ := HelperServer.rejection_eq_some hRejection
      have hMove := Registers.move_idle ((peer, request), response)
        (by simp [Registers.appliedContent, hOk]) (by simp [Registers.installedDropin, hOutcome])
        server.ops registers
      simp only [Program.run_pure, hMove]
      exact h
  | none =>
      dsimp only
      cases hUpdate : request.update server.ops with
      | none =>
          obtain ⟨response, w', new, hRun, hPrepared, -⟩ :=
            Ops.run_dispatch_other host server.ops w hUpdate
          obtain ⟨hInstall, hApply⟩ := request.update_eq_none hUpdate
          have hMove := Registers.move_idle ((peer, request), response)
            (by simpa [Registers.appliedContent] using fun hOp _ => hApply hOp)
            (by simp [Registers.installedDropin, hInstall]) server.ops registers
          simp only [hRun, hMove]
          exact h.same hPrepared.sameLinks hPrepared.bytesAt
      | some update =>
          obtain ⟨result, w', hRun, hResult⟩ := Ops.run_dispatch_update host server.ops w hUpdate
          have hSettled :=
            hResult.settled hReliable (request.update_trailing hUpdate hDistinct.files)
          simp only [hRun]
          rcases request.update_eq_some hUpdate with ⟨hOp, rfl⟩ | ⟨hOp, content, hContent, rfl⟩
          · exact install_shows hDistinct hDropin h peer hOp hSettled
          · exact apply_shows hDistinct hTrusted h peer hOp hContent hSettled

end Refinement

/-- Along every sequence of requests, authenticated or not, and whatever
`sshd` reports, the trusted-CA file holds the content last applied with an ok
answer, the drop-in holds the rendered text once an install was answered
`Ok`, and every other file holds what it held at the start. -/
theorem evaluate_refines_registers (server : HelperServer) (host : Host) (w : World)
    (calls : List (Option PeerCred × Request)) (hReliable : host.Reliable)
    (hDistinct : server.ops.Distinct w.fs)
    (hTrusted : w.fs.AbsentOrRegular server.ops.trustedCaPath.path)
    (hDropin : w.fs.AbsentOrRegular server.ops.dropinPath.path) :
    (Service.final (server.serve host) w calls).fs.contents server.ops.trustedCaPath.path =
        (match Registers.lastApplied (Service.log (server.serve host) w calls) with
          | some content => some (Text.asBytes content)
          | none => w.fs.contents server.ops.trustedCaPath.path) ∧
      (Service.final (server.serve host) w calls).fs.contents server.ops.dropinPath.path =
        (if (Service.log (server.serve host) w calls).any Registers.installedDropin then
            some (Text.asBytes (SshdConfig.renderDropin server.ops.trustedCaPath))
          else w.fs.contents server.ops.dropinPath.path) ∧
      (Service.final (server.serve host) w calls).fs.contents server.ops.mainSshdConfig.path =
        w.fs.contents server.ops.mainSshdConfig.path ∧
      ∀ loc, loc ≠ w.fs.target server.ops.trustedCaPath.path →
        loc ≠ w.fs.target server.ops.dropinPath.path →
        (Service.final (server.serve host) w calls).fs.bytesAt loc = w.fs.bytesAt loc := by
  have hStart : Refinement.Shows server.ops w.fs w.fs
      ⟨w.fs.contents server.ops.trustedCaPath.path, w.fs.contents server.ops.dropinPath.path⟩ := by
    refine ⟨.refl _, ?_, ?_, fun _ _ _ => rfl⟩
    · exact (Fs.contents_of_file hDistinct.files.trusted _).symm
    · exact (Fs.contents_of_file hDistinct.files.dropin _).symm
  have hEnd := Service.final_simulates
    (fun (v : World) registers => Refinement.Shows server.ops w.fs v.fs registers)
    (fun v registers call h => Refinement.serve_shows hReliable hDistinct hTrusted hDropin h call)
    hStart calls
  refine ⟨?_, ?_, ?_, hEnd.others⟩
  · refine Eq.trans ?_ (hEnd.trusted.trans (Registers.foldl_move_trusted _ _ _))
    rw [Fs.contents_of_file hDistinct.files.trusted, Fs.target_eq hEnd.links]
  · refine Eq.trans ?_ (hEnd.dropin.trans (Registers.foldl_move_dropin _ _ _))
    rw [Fs.contents_of_file hDistinct.files.dropin, Fs.target_eq hEnd.links]
  · have hMain := hEnd.others _ (Ne.symm hDistinct.trusted_main) (Ne.symm hDistinct.dropin_main)
    simp only [Fs.contents, Fs.target_eq hEnd.links, hMain]

/-- A server with the default paths and no uid pinning. -/
def HelperServer.unpinned : HelperServer :=
  { token := "token".toList, ops := OpsConfig.default, peerPolicy := PeerPolicy.unenforced }

/-- An `sshd` whose reloads fail. -/
def reloadsFail (_ordinal : Nat) (_fs : Fs) : SshdCall → Except Error Unit
  | .reload => .error .sshdReloadFailed
  | _ => .ok ()

theorem evaluate_refines_registers_reloadsFail :
    (Service.final (HelperServer.unpinned.serve (Host.sandbox Host.noFailures reloadsFail))
      (World.start Fs.bare)
      [(none, ⟨protocolVersion, "token".toList, .applyTrustedCaKeys, some []⟩),
        (none, ⟨protocolVersion, [], .installSshdDropin, none⟩)]).fs.contents
      OpsConfig.default.trustedCaPath.path = none := by
  refine (evaluate_refines_registers HelperServer.unpinned
    (Host.sandbox Host.noFailures reloadsFail)
    (World.start Fs.bare) _ (Host.sandbox_reliable _) ?_ ?_ ?_).1.trans (by decide +kernel)
  · exact ⟨⟨by decide, by decide⟩, by decide, by decide, by decide⟩
  · exact ⟨none, by unfold Fs.Holds; decide⟩
  · exact ⟨none, by unfold Fs.Holds; decide⟩

end MayflyHelper
