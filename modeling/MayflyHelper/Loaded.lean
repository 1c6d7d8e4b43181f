import MayflyHelper.Compared
import MayflyHelper.Preparation

/-! What `sshd` has loaded, as against what is on disk. The two part when a
candidate is loaded, fails the activity probe, and is taken back without a
further reload; comparing bytes on disk then no longer tells what is loaded. -/
namespace MayflyHelper

open OracleProgram

/-- The tree at the most recent reload that succeeded, or else `initial`.
Events come latest first. -/
def loaded (initial : Fs) (events : List SshdEvent) : Fs :=
  match events.find? (fun event => event.call == .reload && event.result.isOk) with
  | some event => event.fs
  | none => initial

/-- A host whose `sshd` commands answer by a script, in the order issued. -/
def Host.scripted (host : Host) (script : Nat → Except Error Unit) : Host :=
  { host with sshd := fun ordinal _ _ => script ordinal }

/-- A world with no `sshd` command issued yet. -/
def World.quiet (fs : Fs) (count : FsKind → Nat) : World := { fs, count, events := [] }

namespace Loaded

/-- The commands of `script` from `ordinal` on take a candidate in, reject it
when it is loaded, and then fail to load the restored file. -/
def LosesReload (script : Nat → Except Error Unit) (ordinal : Nat) : Prop :=
  script ordinal = .ok () ∧ script (ordinal + 1) = .ok () ∧ script (ordinal + 2) ≠ .ok () ∧
    (script (ordinal + 3) ≠ .ok () ∨ script (ordinal + 4) ≠ .ok ())

/-- The request gets as far as writing its file: it reaches it, and there is
nothing, or a file that can be replaced, is not current, and for the drop-in is
a text. -/
def Exchanges (umask : Nat) (config : OpsConfig) (fs : Fs) (request : Request) (update : Update) :
    Prop :=
  request.Reaches umask (fun _ => false) config fs ∧
    (fs.prepared umask config.parents).Writable update.path ∧
    ∃ previous,
      (fs.prepared umask config.parents).Holds
        ((fs.prepared umask config.parents).entry update.path)
        previous ∧ Decodes request.op previous ∧ ¬ update.Current previous

/-- A request that writes its file, at a point of the script where the rollback
would not be loaded. -/
def Strands (umask : Nat) (script : Nat → Except Error Unit) (config : OpsConfig) (w : World)
    (request : Request) : Prop :=
  (∃ update, request.update config = some update ∧ Exchanges umask config w.fs request update) ∧
    LosesReload script w.events.length

theorem loaded_append_of_unloading {initial : Fs} {new events : List SshdEvent}
    (h : Unloading new) :
    loaded initial (new ++ events) = loaded initial events := by
  have hNone : new.find? (fun event => event.call == .reload && event.result.isOk) = none := by
    refine List.find?_eq_none.mpr fun event hMem => ?_
    simp [h event hMem]
  simp only [loaded, List.find?_append, hNone, Option.none_or]

/-- What a round of commands over `fs` does to the loaded tree. -/
theorem loaded_sweep {host : Host} {fs : Fs} {ordinal : Nat} {result : Except Error Unit}
    {new : List SshdEvent} (h : Sweep host fs ordinal result new) (initial : Fs)
    (events : List SshdEvent) :
    (loaded initial (new ++ events) = fs ∧ host.sshd ordinal fs .validateConfig = .ok () ∧
      host.sshd (ordinal + 1) fs .reload = .ok () ∧ host.sshd (ordinal + 2) fs .isActive = result ∧
      new.length = 3) ∨
    (loaded initial (new ++ events) = loaded initial events ∧
      (host.sshd ordinal fs .validateConfig ≠ .ok () ∨
        host.sshd (ordinal + 1) fs .reload ≠ .ok ())) := by
  cases h with
  | rejected hValidate => exact Or.inr ⟨by simp [loaded], Or.inl (by simp [hValidate])⟩
  | notReloaded _ hReload =>
      exact Or.inr ⟨by simp [loaded, Except.isOk, Except.toBool], Or.inr (by simp [hReload])⟩
  | probed hValidate hReload hActive =>
      exact Or.inl ⟨by simp [loaded, Except.isOk, Except.toBool], hValidate, hReload, hActive, rfl⟩

theorem loaded_sweep_ok {host : Host} {fs initial : Fs} {ordinal : Nat} {new : List SshdEvent}
    (h : Sweep host fs ordinal (.ok ()) new) (events : List SshdEvent) :
    loaded initial (new ++ events) = fs := by
  cases h with
  | probed => simp [loaded, Except.isOk, Except.toBool]

/-- The managed files are loaded as they are on disk. -/
def InSync (config : OpsConfig) (initial : Fs) (w : World) : Prop :=
  config.managed (loaded initial w.events) = config.managed w.fs

section Step

variable {host : Host} {script : Nat → Except Error Unit} {config : OpsConfig} {initial : Fs}
  {w w' : World} {path : Path} {Current : Option Bytes → Prop} {contents : Bytes} {done : Outcome}

theorem InSync.prepared (h : InSync config initial w)
    (hPrepared : Fs.Prepared config.parents w.fs w'.fs) (new : List SshdEvent)
    (hEvents : w'.events = new ++ w.events) (hNew : Unloading new) : InSync config initial w' := by
  unfold InSync at h ⊢
  rw [hEvents, loaded_append_of_unloading hNew, h, hPrepared.managed]

/-- A successful write leaves what it loaded on disk. -/
theorem settled_inSync_of_ok {outcome : Outcome}
    (h : Settled host config w path Current contents done (.ok outcome, w'))
    (hSync : InSync config initial w) : InSync config initial w' := by
  cases h with
  | current _ previous hPrepared hEvents =>
      exact hSync.prepared hPrepared [] hEvents fun _ hMem => by cases hMem
  | committed fs previous _ _ _ _ events hSweep _ hFs hEvents =>
      unfold InSync
      rw [hEvents, loaded_sweep_ok hSweep, hFs]

/-- A failed write leaves disk and `sshd` in step, unless the candidate was
loaded and the restored file is not. -/
theorem settled_inSync {result : Except Error Outcome}
    (h : Settled (host.scripted script) config w path Current contents done (result, w'))
    (hSync : InSync config initial w)
    (hKeeps : w'.events ≠ w.events → ¬ LosesReload script w.events.length) :
    InSync config initial w' := by
  cases result with
  | ok outcome => exact settled_inSync_of_ok h hSync
  | error err =>
      cases h with
      | refused _ _ hPrepared hEvents =>
          exact hSync.prepared hPrepared [] hEvents fun _ hMem => by cases hMem
      | rolledBack fs previous hPrepared hWritable hHolds hStale _ events later hSweep result hLater
        _ hFs
          hEvents =>
          have hManaged : config.managed w'.fs = config.managed w.fs := by
            rw [hFs, ← hPrepared.managed]
            simp only [OpsConfig.managed, Fs.contents_restored hWritable hHolds]
          unfold InSync at hSync ⊢
          rw [hEvents, List.append_assoc]
          rcases loaded_sweep hLater initial (events ++ w.events) with
            ⟨hLoaded, -⟩ | ⟨hLoaded, hNotReloaded⟩
          · rw [hLoaded, hFs]
          · rw [hLoaded, hManaged]
            rcases loaded_sweep hSweep initial w.events with
              ⟨-, hValidate, hReload, hActive, hLength⟩ | ⟨hForward, -⟩
            · have hNew : w'.events ≠ w.events := by
                intro hSame
                have hCount := congrArg List.length hSame
                rw [hEvents, List.length_append, List.length_append, hLength] at hCount
                omega
              refine (hKeeps hNew ⟨hValidate, hReload, ?_, ?_⟩).elim
              · change script (w.events.length + 2) = .error err at hActive
                simp [hActive]
              · rw [hLength, Nat.add_comm 3, Nat.add_assoc] at hNotReloaded
                exact hNotReloaded
            · rw [hForward, hSync]

/-- A request that issues `sshd` commands writes its file. -/
theorem exchanges_of_events {request : Request} {update : Update} {result : Except Error Outcome}
    (hReliable : host.Reliable) (hUpdate : request.update config = some update)
    (hRun : Program.run host.oracle (request.operation config).run w = (result, w'))
    (hNew : w'.events ≠ w.events) : Exchanges host.umask config w.fs request update := by
  obtain ⟨-, hEvents⟩ := Ops.run_prepare host config w request
  rcases Ops.run_operation host config w hUpdate with
    ⟨err, w₁, hPrepare, hError⟩ | ⟨w₁, hPrepare, hCompare⟩
  · cases hRun.symm.trans hError
    rw [hPrepare] at hEvents
    exact absurd hEvents hNew
  rw [hPrepare] at hEvents
  obtain ⟨hReaches, hFs⟩ := request.reaches_of_prepare hUpdate hPrepare
  rw [Ops.modeFails_of_reliable hReliable] at hReaches
  have hGoesOn : ∀ previous, w₁.fs.Writable update.path → w₁.fs.NotLink update.path →
      w₁.fs.Reads update.path previous → ¬ update.Current previous →
      Exchanges host.umask config w.fs request update := by
    intro previous hWritable hLink hReads hStale
    have hHolds := hReads.holds hLink hWritable.found
    have hCompared := request.operation_compared hUpdate hReliable hPrepare hHolds hWritable.found
    rw [hRun] at hCompared
    rw [hFs] at hWritable hHolds
    refine ⟨hReaches, hWritable, previous, hHolds, ?_, hStale⟩
    cases hCompared with
    | undecodable _ _ hSame => exact absurd (hSame.trans hEvents) hNew
    | current _ _ hDecodes => exact hDecodes
    | exchanged _ _ _ hDecodes => exact hDecodes
  rw [hRun] at hCompare
  cases hCompare with
  | refused err calls => exact absurd hEvents hNew
  | current calls => exact absurd hEvents hNew
  | exchanged calls previous hLink hReads hStale _ h =>
      cases h with
      | stopped => exact absurd hEvents hNew
      | strayed => exact absurd hEvents hNew
      | unsynced => exact absurd hEvents hNew
      | committed hInstalls => exact hGoesOn previous hInstalls.writable hLink hReads hStale
      | rolledBack hInstalls => exact hGoesOn previous hInstalls.writable hLink hReads hStale
      | stuck hInstalls => exact hGoesOn previous hInstalls.writable hLink hReads hStale

/-- A request that is not stranded keeps `sshd` in step with the disk. -/
theorem serve_inSync (hReliable : host.Reliable) (hFiles : config.NamesFiles) (request : Request)
    (hSync : InSync config initial w) (hNot : ¬ Strands host.umask script config w request) :
    InSync config initial (Ops.serve (host.scripted script) config w request).2 := by
  unfold Ops.serve
  cases hUpdate : request.update config with
  | none =>
      obtain ⟨response, w', new, hRun, hPrepared, hEvents, hNew⟩ :=
        Ops.run_dispatch_other (host.scripted script) config w hUpdate
      rw [hRun]
      exact hSync.prepared hPrepared new hEvents hNew
  | some update =>
      obtain ⟨result, w', hRun, h⟩ :=
        Ops.run_dispatch_update (host.scripted script) config w hUpdate
      have hFile := request.update_trailing hUpdate hFiles
      have hScripted : (host.scripted script).Reliable := hReliable
      have hAnswer := Ops.run_dispatch_answer (host.scripted script) config w hUpdate
      rw [hRun]
      refine settled_inSync (h.settled hReliable hFile) hSync fun hNew hLoses =>
        hNot ⟨⟨update, hUpdate, ?_⟩, hLoses⟩
      have hWorld : (Program.run (host.scripted script).oracle (request.operation config).run w).2 =
        w' :=
        congrArg Prod.snd (hAnswer.symm.trans hRun)
      subst hWorld
      have hExchanges : Exchanges (host.scripted script).umask config w.fs request update :=
        exchanges_of_events hScripted hUpdate rfl hNew
      exact hExchanges

/-- What a request would write is current. -/
theorem current_contents {request : Request} {update : Update}
    (h : request.update config = some update) :
    update.Current (some update.contents) := by
  rcases request.update_eq_some h with ⟨-, rfl⟩ | ⟨-, content, -, rfl⟩
  · exact ⟨_, SshdConfig.renderDropin config.trustedCaPath, rfl, Text.fromUtf8_asBytes _, rfl⟩
  · rfl

/-- An exchange at such a point of the script loads the candidate and not the
file that is put back. -/
theorem loaded_of_loses (initial : Fs) {previous : Option Bytes} {result : Except Error Outcome}
    {v : World}
    (hReliable : host.Reliable) (hWritable : v.fs.Writable path)
    (hHolds : v.fs.Holds (v.fs.entry path) previous)
    (hLoses : LosesReload script v.events.length)
    (h : ExchangeResult (host.scripted script) v path previous contents done (result, w')) :
    loaded initial w'.events = v.fs.installed path contents ∧
      w'.fs = v.fs.restored path previous := by
  obtain ⟨hValidate, hReload, hActive, hLost⟩ := hLoses
  have hInstalls : (host.scripted script).Installs v path :=
    ⟨hWritable, fun _ _ => hReliable _ _, hReliable _ _⟩
  cases h with
  | stopped err calls hNot =>
      obtain ⟨dir, hParent⟩ := hWritable.parent
      exact absurd ⟨dir, hParent, hInstalls.clear⟩ hNot
  | strayed err calls dir _ _ hNot => exact absurd hInstalls hNot
  | unsynced _ hSync => cases (hReliable _ _).symm.trans hSync
  | committed _ _ events hSweep =>
      cases hSweep with
      | probed _ _ hProbe => exact absurd hProbe hActive
  | stuck _ _ _ _ _ hNot =>
      refine absurd ?_ hNot
      cases previous <;> exact fun kind _ => hReliable kind _
  | rolledBack _ _ err events later hSweep _ _ hFs hEvents hLater =>
      refine ⟨?_, hFs⟩
      rcases hLater with ⟨-, hSync⟩ | ⟨result, hLater⟩
      · cases (hReliable _ _).symm.trans hSync
      rw [hEvents, List.append_assoc]
      rcases loaded_sweep hSweep initial v.events with
        ⟨hLoaded, -, -, -, hLength⟩ | ⟨-, hNot | hNot⟩
      · rcases loaded_sweep hLater initial (events ++ v.events) with
          ⟨-, hValid, hAgain, -⟩ | ⟨hSame, -⟩
        · rw [hLength, Nat.add_comm 3] at hValid hAgain
          rcases hLost with hNot | hNot
          · exact absurd hValid hNot
          · exact absurd hAgain hNot
        · rw [hSame, hLoaded]
      · exact absurd hValidate hNot
      · exact absurd hReload hNot

/-- A stranded request leaves `sshd` with something else than the disk. -/
theorem not_inSync_of_strands {request : Request} (hReliable : host.Reliable)
    (hFiles : config.NamesFiles)
    (h : Strands host.umask script config w request) :
    ¬ InSync config initial (Ops.serve (host.scripted script) config w request).2 := by
  obtain ⟨⟨update, hUpdate, hReaches, hWritable, previous, hHolds, hDecodes, hStale⟩, hLoses⟩ := h
  have hScripted : (host.scripted script).Reliable := hReliable
  have hFile := request.update_trailing hUpdate hFiles
  have hReaches' : request.Reaches (host.scripted script).umask
    (Ops.modeFails (host.scripted script) w) config w.fs := by
    rw [Ops.modeFails_of_reliable hScripted]
    exact hReaches
  obtain ⟨w₁, hPrepare⟩ := request.prepare_of_reaches hUpdate (hScripted.spares _) hReaches'
  obtain ⟨-, hEvents⟩ := Ops.run_prepare (host.scripted script) config w request
  have hFs : w₁.fs = w.fs.prepared host.umask config.parents :=
    (request.reaches_of_prepare hUpdate hPrepare).2
  rw [hPrepare] at hEvents
  rw [← hFs] at hWritable hHolds
  have hCompared := request.operation_compared hUpdate hScripted hPrepare hHolds hWritable.found
  have hServe : (Ops.serve (host.scripted script) config w request).2 =
      (Program.run (host.scripted script).oracle (request.operation config).run w).2 := by
    rw [Ops.serve, Ops.run_dispatch_answer _ _ _ hUpdate]
  rw [hServe]
  generalize Program.run (host.scripted script).oracle (request.operation config).run w =
    out at hCompared
  cases hCompared with
  | undecodable _ _ _ hNot => exact absurd hDecodes hNot
  | current _ _ _ hCurrent => exact absurd hCurrent hStale
  | exchanged v hSame hSameEvents _ _ out hExchange =>
      rw [← hEvents, ← hSameEvents] at hLoses
      rw [← hSame] at hWritable hHolds
      obtain ⟨hLoaded, hDisk⟩ := loaded_of_loses initial hReliable hWritable hHolds hLoses hExchange
      intro hSync
      have hNew : (v.fs.installed update.path update.contents).contents update.path =
        some update.contents :=
        (Fs.holds_installed hWritable hHolds _).contents hFile
      have hOld : (v.fs.restored update.path previous).contents update.path = previous := by
        rw [Fs.contents_restored hWritable hHolds]
        exact hHolds.contents hFile
      rw [InSync, hLoaded, hDisk] at hSync
      have hContents : (v.fs.installed update.path update.contents).contents update.path =
          (v.fs.restored update.path previous).contents update.path := by
        rcases request.update_eq_some hUpdate with ⟨-, rfl⟩ | ⟨-, content, -, rfl⟩
        · exact congrArg Prod.snd hSync
        · exact congrArg Prod.fst hSync
      rw [hNew, hOld] at hContents
      exact hStale (hContents ▸ current_contents hUpdate)

/-- So a request keeps `sshd` in step with the disk exactly if it is not stranded. -/
theorem serve_inSync_iff (hReliable : host.Reliable) (hFiles : config.NamesFiles)
    (request : Request)
    (hSync : InSync config initial w) :
    InSync config initial (Ops.serve (host.scripted script) config w request).2 ↔
      ¬ Strands host.umask script config w request :=
  ⟨fun hAfter hStrands => not_inSync_of_strands hReliable hFiles hStrands hAfter,
    serve_inSync hReliable hFiles request hSync⟩

end Step
end Loaded

/-- If `request`, coming after `requests`, is a writing one and answered ok,
then the file it manages is loaded as it is on disk. -/
def OkIsLoaded (host : Host) (config : OpsConfig) (w : World) (requests : List Request)
    (request : Request) : Prop :=
  ∀ update, request.update config = some update →
    (Ops.serve host config (Service.final (Ops.serve host config) w requests) request).1.ok = true →
    (loaded w.fs (Service.final (Ops.serve host config) w (requests ++ [request])).events).contents
        update.path =
      (Service.final (Ops.serve host config) w (requests ++ [request])).fs.contents update.path

/-- Along every run none of whose requests is stranded, an ok answer to a
writing request means that its file is loaded as it is on disk. -/
theorem ok_answer_is_loaded (host : Host) (script : Nat → Except Error Unit) (config : OpsConfig)
    (fs : Fs) (count : FsKind → Nat) (requests : List Request) (request : Request)
    (hReliable : host.Reliable) (hFiles : config.NamesFiles)
    (hRun : Service.Along (Ops.serve (host.scripted script) config)
      (fun w request => ¬ Loaded.Strands host.umask script config w request)
        (World.quiet fs count) requests) :
    OkIsLoaded (host.scripted script) config (World.quiet fs count) requests request := by
  intro update hUpdate hOk
  have hSync := Service.final_of_along (Loaded.InSync config fs)
    (fun w request h hNot => (Loaded.serve_inSync_iff hReliable hFiles request h).mpr hNot)
    (show Loaded.InSync config fs (World.quiet fs count) from rfl) hRun
  rw [Service.final_append]
  generalize Service.final (Ops.serve (host.scripted script) config) (World.quiet fs count)
    requests = w
    at hSync hOk ⊢
  simp only [Service.final_cons, Service.final_nil]
  unfold Ops.serve at hOk ⊢
  obtain ⟨result, w', hServed, h⟩ := Ops.run_dispatch_update (host.scripted script) config w hUpdate
  rw [hServed] at hOk ⊢
  cases result with
  | error err => simp [answer] at hOk
  | ok outcome =>
      have hScripted : (host.scripted script).Reliable := hReliable
      have hSettled := h.settled hScripted (request.update_trailing hUpdate hFiles)
      have hEnd := Loaded.settled_inSync_of_ok hSettled hSync
      rcases request.update_eq_some hUpdate with ⟨-, rfl⟩ | ⟨-, content, -, rfl⟩
      · exact congrArg Prod.snd hEnd
      · exact congrArg Prod.fst hEnd

namespace Loaded

/-- The activity probe of the second write fails, and so does the validation
in its rollback. -/
def probeThenValidationFail (ordinal : Nat) : Except Error Unit :=
  if ordinal = 5 then .error .sshdInactive
  else if ordinal = 6 then .error .sshdValidationFailed
  else .ok ()

noncomputable def scriptedSandbox (script : Nat → Except Error Unit) : Host :=
  (Host.sandbox Host.noFailures (fun _ _ _ => .ok ())).scripted script

end Loaded

theorem ok_answer_is_loaded_first_apply :
    OkIsLoaded (Loaded.scriptedSandbox Loaded.probeThenValidationFail) OpsConfig.default
      (World.quiet Fs.bare fun _ => 0) [Sandbox.applyRequest Sandbox.firstKeys]
      (Sandbox.applyRequest Sandbox.firstKeys) := by
  refine ok_answer_is_loaded (Host.sandbox Host.noFailures (fun _ _ _ => .ok ()))
    Loaded.probeThenValidationFail OpsConfig.default Fs.bare (fun _ => 0) _ _
    (Host.sandbox_reliable _) ⟨by decide, by decide⟩ ⟨?_, trivial⟩
  rintro ⟨-, -, -, hProbe, -⟩
  exact hProbe rfl

/-- The first key is applied, the second is loaded and taken back without a
reload, and the first is then reported as current. -/
theorem ok_answer_is_not_loaded_after_lost_reload :
    ¬ OkIsLoaded (Loaded.scriptedSandbox Loaded.probeThenValidationFail) OpsConfig.default
      (World.quiet Fs.bare fun _ => 0)
        [Sandbox.applyRequest Sandbox.firstKeys, Sandbox.applyRequest Sandbox.otherKeys]
      (Sandbox.applyRequest Sandbox.firstKeys) := by
  intro h
  have hLoaded := h _ rfl (by decide +kernel)
  revert hLoaded
  decide +kernel

end MayflyHelper
