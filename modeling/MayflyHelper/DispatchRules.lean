import MayflyHelper.OpsRules

/-! Requests as they reach the operations. A request either asks for a managed
file to hold something, or it only prepares and looks. -/
namespace MayflyHelper

open OracleProgram

/-- What a writing request asks for: the file, its new contents, which old
contents will do, and the answer after a write. -/
structure Update where
  path : Path
  contents : Bytes
  Current : Option Bytes → Prop
  done : Outcome

def Update.dropin (config : OpsConfig) : Update where
  path := config.dropinPath.path
  contents := Text.asBytes (SshdConfig.renderDropin config.trustedCaPath)
  Current := Ops.CurrentDropin config
  done := .ok

def Update.trustedCa (config : OpsConfig) (content : Text) : Update where
  path := config.trustedCaPath.path
  contents := Text.asBytes content
  Current := Ops.CurrentCa content
  done := .applied

namespace Request

/-- The update a request asks for, if it is a writing one. -/
def update (config : OpsConfig) (request : Request) : Option Update :=
  match request.op with
  | .installSshdDropin => some (Update.dropin config)
  | .applyTrustedCaKeys => request.content.map (Update.trustedCa config)
  | _ => none

/-- What a writing request does before it looks at its file. -/
def prepare (config : OpsConfig) (request : Request) : Action Unit :=
  match request.op with
  | .installSshdDropin => Ops.installPrepare config
  | .applyTrustedCaKeys => Ops.applyPrepare config (request.content.getD [])
  | _ => pure ()

/-- The operation of a writing request. -/
def operation (config : OpsConfig) (request : Request) : Action Outcome :=
  match request.op with
  | .installSshdDropin => Ops.installSshdDropin config
  | _ => Ops.applyTrustedCaKeys config (request.content.getD [])

variable {config : OpsConfig} {request : Request}

theorem update_eq_some {update : Update} (h : request.update config = some update) :
    (request.op = .installSshdDropin ∧ update = Update.dropin config) ∨
      (request.op = .applyTrustedCaKeys ∧
        ∃ content, request.content = some content ∧ update = Update.trustedCa config content) := by
  unfold Request.update at h
  split at h
  · rename_i hOp
    exact Or.inl ⟨hOp, (Option.some.inj h).symm⟩
  · rename_i hOp
    obtain ⟨content, hContent, hUpdate⟩ := Option.map_eq_some_iff.mp h
    exact Or.inr ⟨hOp, content, hContent, hUpdate.symm⟩
  · cases h

theorem update_eq_none (h : request.update config = none) :
    request.op ≠ .installSshdDropin ∧
      (request.op = .applyTrustedCaKeys → request.content = none) := by
  unfold Request.update at h
  split at h
  · cases h
  · rename_i hOp
    exact ⟨by simp [hOp], fun _ => Option.map_eq_none_iff.mp h⟩
  · rename_i hInstall hApply
    exact ⟨hInstall, fun hOp => (hApply hOp).elim⟩

end Request

/-- How the result of a writing operation is answered. -/
def answer (op : Operation) : Except Error Outcome → Response
  | .ok outcome => Response.success outcome
  | .error err =>
      Response.failure (if op = .applyTrustedCaKeys then .rolledBack else .unhealthy) err.display

/-- Reads, checks of the metadata, and the two `sshd` controls that change
nothing. -/
def Call.Verifies : Call → Prop
  | .fs (.lstat _) => True
  | .fs (.read _) => True
  | .sshd .validateConfig => True
  | .sshd .isActive => True
  | _ => False

/-- `new` are `sshd` commands that loaded nothing. -/
def Unloading (new : List SshdEvent) : Prop := ∀ event ∈ new, event.call ≠ .reload

/-- Verifying calls leave the files alone and reload nothing. -/
theorem quiet_of_within (host : Host) {Result : Type} {p : HostProgram Result}
    (h : p.Within Call.Verifies) (w : World) :
    (p.run host.oracle w).2.fs = w.fs ∧
      ∃ new, (p.run host.oracle w).2.events = new ++ w.events ∧ Unloading new := by
  refine h.invariant (fun v => v.fs = w.fs ∧ ∃ new, v.events = new ++ w.events ∧ Unloading new) ?_ w
    ⟨rfl, [], rfl, fun _ hMem => by cases hMem⟩
  rintro (call | call) hCall v ⟨hFs, new, hEvents, hNew⟩
  · have hSame : (host.oracle (.fs call) v).2.fs = v.fs := by
      obtain ⟨fs', hWorld, rfl | rfl⟩ := host.oracle_fs_world call v
      · rw [hWorld, World.advance_fs]
      · rw [hWorld, World.advance_fs]
        cases call <;> first | rfl | exact hCall.elim
    obtain ⟨fs', hWorld, _⟩ := host.oracle_fs_world call v
    refine ⟨hSame.trans hFs, new, ?_, hNew⟩
    rw [hWorld, World.advance_events, hEvents]
  · refine ⟨hFs, ⟨call, host.sshd v.events.length v.fs call, v.fs⟩ :: new, ?_, ?_⟩
    · rw [Host.oracle_sshd, World.record_events, hEvents]
      rfl
    · intro event hMem
      rcases List.mem_cons.mp hMem with rfl | hMem
      · rintro rfl
        exact hCall
      · exact hNew event hMem

namespace Ops

theorem within_readOptional {allowed : Call → Prop} {path : Path} (h : allowed (.fs (.read path))) :
    Program.Within allowed (readOptional path).run := by
  refine Program.Within.bind (within_fsCall h) ?_
  rintro ((_ | _) | _) <;> exact Program.Within.pure _

theorem within_readOptionalString {allowed : Call → Prop} {path : Path}
    (h : allowed (.fs (.read path))) : Program.Within allowed (readOptionalString path).run := by
  refine Fallible.within_bind (within_readOptional h) ?_
  rintro (_ | bytes)
  · exact trivial
  · dsimp only
    split <;> exact trivial

theorem within_ensureNotGroupOrWorldWritable {allowed : Call → Prop} {path : Path}
    (h : allowed (.fs (.lstat path))) :
    Program.Within allowed (Security.ensureNotGroupOrWorldWritable path).run := by
  refine Fallible.within_bind (within_io (within_fsCall h)) ?_
  intro node
  dsimp only
  split <;> exact trivial

theorem within_checkTrustedCa (config : OpsConfig) :
    Program.Within Call.Verifies (checkTrustedCa config).run := by
  refine Fallible.within_bind (within_readOptional trivial) ?_
  rintro (_ | bytes)
  · exact trivial
  · refine Fallible.within_bind (Security.within_ensureNotSymlink trivial) fun _ => ?_
    refine Fallible.within_bind (within_ensureNotGroupOrWorldWritable trivial) fun _ => ?_
    split
    · exact trivial
    · exact Fallible.within_bind (Program.Within.pure _) fun _ => trivial

theorem within_checkDropin (config : OpsConfig) :
    Program.Within Call.Verifies (checkDropin config).run := by
  refine Fallible.within_bind (within_readOptionalString trivial) ?_
  rintro (_ | onDisk)
  · exact trivial
  · refine Fallible.within_bind (Security.within_ensureNotSymlink trivial) fun _ => ?_
    refine Fallible.within_bind (within_ensureNotGroupOrWorldWritable trivial) fun _ => ?_
    dsimp only
    split <;> exact trivial

theorem within_verifyState (config : OpsConfig) :
    Program.Within Call.Verifies (verifyState config).run :=
  Fallible.within_bind (within_checkTrustedCa config) fun _ =>
    Fallible.within_bind (within_checkDropin config) fun _ =>
      Fallible.within_bind (within_sshdCall trivial) fun _ => within_sshdCall trivial

/-- The writing operations, as a request asks for them. -/
theorem run_dispatch_answer (host : Host) (config : OpsConfig) (w : World) {request : Request}
    {update : Update} (h : request.update config = some update) :
    (dispatch config request).run host.oracle w =
      (answer request.op (Program.run host.oracle (request.operation config).run w).1,
        (Program.run host.oracle (request.operation config).run w).2) := by
  rcases request.update_eq_some h with ⟨hOp, rfl⟩ | ⟨hOp, content, hContent, rfl⟩
  · simp only [dispatch, Request.operation, hOp, Program.run_bind, run_attempt]
    cases (Program.run host.oracle (installSshdDropin config).run w).1 <;> rfl
  · simp only [dispatch, Request.operation, hOp, hContent, Program.run_bind, run_attempt,
      Option.getD_some]
    cases (Program.run host.oracle (applyTrustedCaKeys config content).run w).1 <;> rfl

/-- A writing request prepares, and then compares and exchanges its file. -/
theorem run_operation (host : Host) (config : OpsConfig) (w : World) {request : Request}
    {update : Update} (h : request.update config = some update) :
    (∃ err w₁, Program.run host.oracle (request.prepare config).run w = (.error err, w₁) ∧
        Program.run host.oracle (request.operation config).run w = (.error err, w₁)) ∨
      ∃ w₁, Program.run host.oracle (request.prepare config).run w = (.ok (), w₁) ∧
        CompareResult host w₁ update.path update.Current update.contents update.done
          (Program.run host.oracle (request.operation config).run w) := by
  rcases request.update_eq_some h with ⟨hOp, rfl⟩ | ⟨hOp, content, hContent, rfl⟩
  · simp only [Request.prepare, Request.operation, hOp]
    exact CompareResult.of_run (run_installSshdDropin host config w)
      (run_installCompare host config)
  · simp only [Request.prepare, Request.operation, hOp, hContent, Option.getD_some]
    exact CompareResult.of_run (run_applyTrustedCaKeys host config w content)
      (fun w₁ => run_applyCompare host config w₁ content)

theorem run_prepare (host : Host) (config : OpsConfig) (w : World) (request : Request) :
    Fs.Prepared config.parents w.fs (Program.run host.oracle (request.prepare config).run w).2.fs ∧
      (Program.run host.oracle (request.prepare config).run w).2.events = w.events := by
  unfold Request.prepare
  split
  · obtain ⟨result, w₁, hRun, hPrepared⟩ := run_installPrepare host config w
    rw [hRun]
    exact hPrepared
  · obtain ⟨result, w₁, hRun, hPrepared⟩ := run_applyPrepare host config w (request.content.getD [])
    rw [hRun]
    exact hPrepared
  · exact ⟨.refl _ _, rfl⟩

/-- A writing request is its update. -/
theorem run_dispatch_update (host : Host) (config : OpsConfig) (w : World) {request : Request}
    {update : Update} (h : request.update config = some update) :
    ∃ result w', (dispatch config request).run host.oracle w = (answer request.op result, w') ∧
      UpdateResult host config w update.path update.Current update.contents update.done
        (result, w') := by
  obtain ⟨hPrepared, hEvents⟩ := run_prepare host config w request
  refine ⟨_, _, run_dispatch_answer host config w h, ?_⟩
  rcases run_operation host config w h with ⟨err, w₁, hPrepare, hRun⟩ | ⟨w₁, hPrepare, hCompare⟩
  · rw [hPrepare] at hPrepared hEvents
    rw [hRun]
    exact .refused err w₁ hPrepared hEvents
  · rw [hPrepare] at hPrepared hEvents
    exact hCompare.update hPrepared hEvents

/-- Any other request prepares directories at most, and reloads nothing. -/
theorem run_dispatch_other (host : Host) (config : OpsConfig) (w : World) {request : Request}
    (h : request.update config = none) :
    ∃ response w' new, (dispatch config request).run host.oracle w = (response, w') ∧
      Fs.Prepared config.parents w.fs w'.fs ∧ w'.events = new ++ w.events ∧ Unloading new := by
  have hNone : Unloading [] := fun _ hMem => by cases hMem
  obtain ⟨hInstall, hApply⟩ := request.update_eq_none h
  cases hOp : request.op with
  | ping => exact ⟨_, w, [], by simp only [dispatch, hOp]; rfl, .refl _ _, rfl, hNone⟩
  | ensureDirectories =>
      obtain ⟨result, w', hRun, hPrepared, hEvents⟩ := run_ensureDirectories host config w
      refine ⟨toResponse result .ok, w', [], ?_, hPrepared, hEvents, hNone⟩
      simp only [dispatch, hOp, Program.run_bind, run_attempt, hRun, Program.run_pure]
  | verifyState =>
      obtain ⟨hFs, new, hEvents, hNew⟩ := quiet_of_within host (within_verifyState config) w
      refine ⟨toResponse (Program.run host.oracle (verifyState config).run w).1 .ok, _, new, ?_, ?_,
        hEvents, hNew⟩
      · simp only [dispatch, hOp, Program.run_bind, run_attempt, Program.run_pure]
      · rw [hFs]
        exact .refl _ _
  | applyTrustedCaKeys =>
      have hContent := hApply hOp
      exact ⟨_, w, [], by simp only [dispatch, hOp, hContent]; rfl, .refl _ _, rfl, hNone⟩
  | installSshdDropin => exact (hInstall hOp).elim

end Ops
end MayflyHelper
