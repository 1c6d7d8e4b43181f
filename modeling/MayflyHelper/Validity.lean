import MayflyHelper.DispatchRules
import MayflyHelper.Sandbox
import MayflyHelper.Semantics.Service

/-! The files on disk stay acceptable to `sshd`. Between the write and the
rollback of a rejected candidate they are not, but `sshd` is never told to
load them then, and no operation ends there. -/
namespace MayflyHelper

open OracleProgram

/-- Neither managed path ends in a slash. Such a path denotes a directory, and
no file can be renamed onto it. -/
structure OpsConfig.NamesFiles (config : OpsConfig) : Prop where
  trusted : config.trustedCaPath.path.trailing = false
  dropin : config.dropinPath.path.trailing = false

/-- The contents of the managed files, or their absence. -/
def OpsConfig.managed (config : OpsConfig) (fs : Fs) : Option Bytes × Option Bytes :=
  (fs.contents config.trustedCaPath.path, fs.contents config.dropinPath.path)

/-- The helper as a service of requests. -/
def Ops.serve (host : Host) (config : OpsConfig) (w : World) (request : Request) :
    Response × World :=
  (Ops.dispatch config request).run host.oracle w

section

variable {config : OpsConfig} {request : Request} {update : Update}

theorem Request.update_trailing (h : request.update config = some update)
    (hFiles : config.NamesFiles) :
    update.path.trailing = false := by
  rcases request.update_eq_some h with ⟨-, rfl⟩ | ⟨-, content, -, rfl⟩
  · exact hFiles.dropin
  · exact hFiles.trusted

theorem Fs.Prepared.managed {parents : List Path} {fs fs' : Fs} (h : Fs.Prepared parents fs fs') :
    config.managed fs' = config.managed fs := by
  simp only [OpsConfig.managed, h.contents]

end

namespace Validity

variable {host : Host} {config : OpsConfig} {V : Option Bytes × Option Bytes → Prop}

/-- Every reload among `events` was issued over valid files. -/
def ReloadsValid (config : OpsConfig) (V : Option Bytes × Option Bytes → Prop)
    (events : List SshdEvent) : Prop :=
  ∀ event ∈ events, event.call = .reload → V (config.managed event.fs)

theorem ReloadsValid.append {events events' : List SshdEvent} (h : ReloadsValid config V events)
    (h' : ReloadsValid config V events') : ReloadsValid config V (events ++ events') := by
  intro event hMem
  rcases List.mem_append.mp hMem with hMem | hMem
  · exact h event hMem
  · exact h' event hMem

variable (hValidates : ∀ ordinal fs, host.sshd ordinal fs .validateConfig = .ok () →
  V (config.managed fs))

include hValidates

theorem reloadsValid_sweep {fs : Fs} {ordinal : Nat} {result : Except Error Unit}
    {events : List SshdEvent} (h : Sweep host fs ordinal result events) :
    ReloadsValid config V events := by
  intro event hMem hReload
  rw [h.fs_eq event hMem]
  exact hValidates ordinal fs (h.validated ⟨event, hMem, hReload⟩)

/-- One update keeps the files valid and reloads only valid files. -/
theorem settled_valid {w w' : World} {update : Update} {result : Except Error Outcome}
    (h : Settled host config w update.path update.Current update.contents update.done (result, w'))
    (hValid : V (config.managed w.fs)) :
    V (config.managed w'.fs) ∧ ∃ new, w'.events = new ++ w.events ∧ ReloadsValid config V new := by
  have hNone : ReloadsValid config V [] := fun _ hMem => by cases hMem
  cases h with
  | refused err _ hPrepared hEvents => exact ⟨hPrepared.managed ▸ hValid, [], hEvents, hNone⟩
  | current _ previous hPrepared hEvents => exact ⟨hPrepared.managed ▸ hValid, [], hEvents, hNone⟩
  | committed fs previous hPrepared hWritable hHolds hStale events hSweep _ hFs hEvents =>
      refine ⟨?_, events, hEvents, reloadsValid_sweep hValidates hSweep⟩
      rw [hFs]
      exact hValidates _ _ hSweep.validated_of_ok
  | rolledBack fs previous hPrepared hWritable hHolds hStale err events later hSweep result hLater
      _ hFs
      hEvents =>
      refine ⟨?_, later ++ events, hEvents,
        (reloadsValid_sweep hValidates hLater).append (reloadsValid_sweep hValidates hSweep)⟩
      rw [hFs, OpsConfig.managed, Fs.contents_restored hWritable hHolds,
        Fs.contents_restored hWritable hHolds]
      change V (config.managed fs)
      exact hPrepared.managed ▸ hValid

/-- One request keeps the files valid and reloads only valid files. -/
theorem serve_valid (hReliable : host.Reliable) (hFiles : config.NamesFiles) {w : World}
    (request : Request) (hValid : V (config.managed w.fs)) :
    V (config.managed (Ops.serve host config w request).2.fs) ∧
      ∃ new, (Ops.serve host config w request).2.events = new ++ w.events ∧
        ReloadsValid config V new := by
  unfold Ops.serve
  cases hUpdate : request.update config with
  | none =>
      obtain ⟨response, w', new, hRun, hPrepared, hEvents, hNew⟩ :=
        Ops.run_dispatch_other host config w hUpdate
      rw [hRun]
      exact ⟨hPrepared.managed ▸ hValid, new, hEvents, fun event hMem hReload =>
        (hNew event hMem hReload).elim⟩
  | some update =>
      obtain ⟨result, w', hRun, h⟩ := Ops.run_dispatch_update host config w hUpdate
      rw [hRun]
      exact settled_valid hValidates (h.settled hReliable (request.update_trailing hUpdate hFiles))
        hValid

end Validity

/-- If validation only passes on files that satisfy `V`, then along every
sequence of requests the files on disk satisfy `V`, and so did the files on
disk at every reload, those of the rollbacks included. -/
theorem managed_files_stay_valid (host : Host) (config : OpsConfig) (w : World)
    (requests : List Request)
    (V : Option Bytes × Option Bytes → Prop) (hReliable : host.Reliable)
    (hFiles : config.NamesFiles)
    (hValidates : ∀ ordinal fs, host.sshd ordinal fs .validateConfig = .ok () →
      V (config.managed fs))
    (hValid : V (config.managed w.fs)) :
    V (config.managed (Service.final (Ops.serve host config) w requests).fs) ∧
      ∃ new, (Service.final (Ops.serve host config) w requests).events = new ++ w.events ∧
        ∀ event ∈ new, event.call = .reload → V (config.managed event.fs) := by
  refine Service.final_invariant (fun v : World => V (config.managed v.fs) ∧
    ∃ new, v.events = new ++ w.events ∧ Validity.ReloadsValid config V new) ?_
    ⟨hValid, [], rfl, fun _ hMem => by cases hMem⟩ requests
  rintro v request ⟨hV, new, hEvents, hNew⟩
  obtain ⟨hV', more, hMore, hReloads⟩ := Validity.serve_valid hValidates hReliable hFiles request hV
  refine ⟨hV', more ++ new, ?_, hReloads.append hNew⟩
  rw [hMore, hEvents, List.append_assoc]

/-- An `sshd` that refuses an empty trusted-CA file. -/
def refuseEmptyCa (_ordinal : Nat) (fs : Fs) (_call : SshdCall) : Except Error Unit :=
  if (OpsConfig.default.managed fs).1 = some [] then .error .sshdValidationFailed else .ok ()

theorem managed_files_stay_valid_refuseEmptyCa :
    (OpsConfig.default.managed (Service.final
        (Ops.serve (Host.sandbox Host.noFailures refuseEmptyCa) OpsConfig.default)
          (World.start Fs.bare)
        [⟨protocolVersion, [], .applyTrustedCaKeys, some []⟩,
          ⟨protocolVersion, [], .ping, none⟩]).fs).1 ≠
      some [] := by
  refine (managed_files_stay_valid (Host.sandbox Host.noFailures refuseEmptyCa) OpsConfig.default
    (World.start Fs.bare) _ (fun files => files.1 ≠ some []) (Host.sandbox_reliable _)
    ⟨by decide, by decide⟩ ?_ (by decide)).1
  intro ordinal fs hOk hEmpty
  change refuseEmptyCa ordinal fs .validateConfig = .ok () at hOk
  rw [refuseEmptyCa, if_pos hEmpty] at hOk
  cases hOk

end MayflyHelper
