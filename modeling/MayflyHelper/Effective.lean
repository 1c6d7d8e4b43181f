import MayflyHelper.Directive
import MayflyHelper.DispatchRules
import MayflyHelper.Sandbox

/-! Whether an installed drop-in takes effect. The first directive wins, so a
main configuration that sets the keyword before it includes the drop-in makes
the drop-in inert, and so does one that includes another directory only. -/
namespace MayflyHelper

open OracleProgram

namespace SshdConfig

/-- The first of `pieces` that `included` selects, replaced. -/
def replaceFirst (included : Text → Bool) (new : Text) : List Text → List Text
  | [] => []
  | piece :: pieces =>
      if included piece then new :: pieces else piece :: replaceFirst included new pieces

/-- `configText` with the first line that `included` selects replaced by the
text of the drop-in. -/
def splice (included : Text → Bool) (configText dropin : Text) : Text :=
  ['\n'].intercalate (replaceFirst included dropin (configText.splitOn '\n'))

theorem replaceFirst_ne_nil (included : Text → Bool) (new : Text) {pieces : List Text}
    (h : pieces ≠ []) :
    replaceFirst included new pieces ≠ [] := by
  cases pieces with
  | nil => exact absurd rfl h
  | cons piece pieces =>
      rw [replaceFirst]
      split <;> simp

/-- Up to the replaced line the search is as before; there it stops. -/
theorem findSome?_replaceFirst {included : Text → Bool} {new : Text} {value : Option Text}
    (hNew : (new.splitOn '\n').findSome? directiveOnLine = some value) (pieces : List Text)
    (hPieces : ∀ piece ∈ pieces, '\n' ∉ piece) :
    ((replaceFirst included new pieces).flatMap (fun piece => piece.splitOn '\n')).findSome?
      directiveOnLine =
      ((pieces.takeWhile (fun piece => !included piece)).findSome? directiveOnLine).or
        (if pieces.any included then some value else none) := by
  induction pieces with
  | nil => rfl
  | cons piece pieces ih =>
      have hRest := ih fun other hOther => hPieces other (List.mem_cons_of_mem _ hOther)
      cases hIncluded : included piece with
      | true => simp [replaceFirst, hIncluded, List.findSome?_append, hNew]
      | false =>
          simp only [replaceFirst, hIncluded, Bool.false_eq_true, if_false, List.flatMap_cons,
            Text.splitOn_of_not_mem (hPieces piece List.mem_cons_self), List.singleton_append,
            List.findSome?_cons, hRest, List.takeWhile_cons, Bool.not_false, if_true, List.any_cons,
            Bool.false_or]
          cases directiveOnLine piece <;> rfl

theorem findTrustedUserCaKeys_splice {included : Text → Bool} {configText dropin : Text}
    {value : Option Text}
    (hDropin : (dropin.splitOn '\n').findSome? directiveOnLine = some value) :
    findTrustedUserCaKeys (splice included configText dropin) =
      ((((configText.splitOn '\n').takeWhile (fun piece => !included piece)).findSome?
        directiveOnLine).or
        (if (configText.splitOn '\n').any included then some value else none)).join := by
  have hNe := replaceFirst_ne_nil included dropin (List.splitOn_ne_nil '\n' configText)
  rw [findTrustedUserCaKeys_eq, splice, Text.splitOn_intercalate _ hNe,
    findSome?_replaceFirst hDropin _ fun piece hPiece => Text.not_mem_of_mem_splitOn _ hPiece]

end SshdConfig

namespace Effective

/-- Whether a line includes the directory the drop-in is in. -/
def includesOwnDir (config : OpsConfig) (line : Text) : Bool :=
  match config.dropinPath.path.parent with
  | some dir => SshdConfig.includesOnLine (Text.trimEndMatches '/' dir.display) line
  | none => false

/-- The lines of the main configuration before the drop-in is included. -/
def before (config : OpsConfig) (mainText : Text) : List Text :=
  (mainText.splitOn '\n').takeWhile (fun line => !includesOwnDir config line)

/-- The main configuration lets the drop-in speak: a first directive above the
place where the drop-in is included sets the managed path itself, or there is
none and the drop-in is included. The path is not empty. -/
def Unshadowed (config : OpsConfig) (mainText : Text) : Prop :=
  config.trustedCaPath.text ≠ [] ∧
    ((before config mainText).findSome? SshdConfig.directiveOnLine =
      some (some config.trustedCaPath.text) ∨
      (before config mainText).findSome? SshdConfig.directiveOnLine = none ∧
        (mainText.splitOn '\n').any (includesOwnDir config) = true)

/-- The text of the file a path denotes. -/
def textAt (fs : Fs) (path : Path) : Option Text := (fs.bytesAt (fs.target path)).bind Text.fromUtf8

variable {host : Host} {config : OpsConfig} {w w' : World}

/-- The check for the `Include` passes only on a main configuration it could
read. -/
theorem ensureIncludePresent_ok
    (h : Program.run host.oracle (Ops.ensureIncludePresent config).run w = (.ok (), w')) :
    ∃ mainText, textAt w.fs config.mainSshdConfig.path = some mainText := by
  obtain ⟨onDisk, v, hRead, hRest⟩ := Fallible.run_bind_eq_ok h
  obtain ⟨result, hRun, hReads⟩ := Ops.run_readOptionalString host w config.mainSshdConfig.path
  rw [hRun] at hRead
  cases hRead
  obtain ⟨previous, hPrevious, hShown⟩ := hReads onDisk rfl
  cases hShown with
  | absent => cases hRest
  | text hText => exact ⟨_, by rw [textAt, hPrevious.contents, Option.bind_some, hText]⟩

theorem installPrepare_ok
    (h : Program.run host.oracle (Ops.installPrepare config).run w = (.ok (), w')) :
    ∃ mainText, textAt w.fs config.mainSshdConfig.path = some mainText := by
  obtain ⟨_, v, hDirs, hInclude⟩ := Fallible.run_bind_eq_ok h
  obtain ⟨_, _, hRun, hPrepared, -⟩ := Ops.run_ensureDirectories host config w
  rw [hRun] at hDirs
  cases hDirs
  obtain ⟨mainText, hMain⟩ := ensureIncludePresent_ok hInclude
  rw [textAt, Fs.target_eq hPrepared.sameLinks, hPrepared.bytesAt] at hMain
  exact ⟨mainText, hMain⟩

/-- A compared drop-in that is answered ok is current. -/
theorem current_of_ok {outcome : Outcome}
    (h : CompareResult host w config.dropinPath.path (Ops.CurrentDropin config)
      (Text.asBytes (SshdConfig.renderDropin config.trustedCaPath)) .ok (.ok outcome, w')) :
    Ops.CurrentDropin config (w'.fs.bytesAt (w'.fs.target config.dropinPath.path)) := by
  cases h with
  | current calls previous hReads hCurrent =>
      obtain ⟨bytes, text, rfl, hText⟩ := hCurrent
      exact ⟨bytes, text, hReads.contents, hText⟩
  | exchanged calls previous hLink hReads hStale _ hExchange =>
      cases hExchange with
      | committed hInstalls hSync events hSweep =>
          have hHolds := hReads.holds hLink hInstalls.writable.found
          have hNew := Fs.holds_installed hInstalls.writable hHolds
            (Text.asBytes (SshdConfig.renderDropin config.trustedCaPath))
          refine ⟨_, _, ?_, Text.fromUtf8_asBytes _, rfl⟩
          rw [World.noted_fs, World.after_fs, Fs.target_eq_entry _ hNew.link]
          exact hNew.bytesAt

/-- The drop-in is current once installing it was answered ok, and the main
configuration was there to be checked. -/
theorem installed_of_ok {request : Request} (hOp : request.op = .installSshdDropin)
    (hOk : ((Ops.dispatch config request).run host.oracle w).1.ok = true) :
    (∃ mainText, textAt w.fs config.mainSshdConfig.path = some mainText) ∧
      ∃ dropinText, textAt
        ((Ops.dispatch config request).run host.oracle w).2.fs config.dropinPath.path =
          some dropinText ∧
        Text.trimEnd dropinText = Text.trimEnd (SshdConfig.renderDropin config.trustedCaPath) := by
  have hUpdate : request.update config = some (Update.dropin config) := by
    simp only [Request.update, hOp]
  rw [Ops.run_dispatch_answer host config w hUpdate] at hOk ⊢
  rcases Ops.run_operation host config w hUpdate with
    ⟨err, w₁, -, hStopped⟩ | ⟨w₁, hPrepare, hCompare⟩
  · rw [hStopped] at hOk
    cases hOk
  · rw [Request.prepare, hOp] at hPrepare
    refine ⟨installPrepare_ok hPrepare, ?_⟩
    generalize Program.run host.oracle (request.operation config).run w = outcome at hOk hCompare
    obtain ⟨_ | outcome, w'⟩ := outcome
    · cases hOk
    · obtain ⟨bytes, text, hBytes, hText, hTrim⟩ := current_of_ok hCompare
      exact ⟨text, by rw [textAt, hBytes, Option.bind_some, hText], hTrim⟩

/-- In the main configuration as it was, with the drop-in as it is in place of
the line that includes it, the managed path is what `sshd` finds. -/
def TakesEffect (config : OpsConfig) (fs fs' : Fs) : Prop :=
  ∃ mainText dropinText, textAt fs config.mainSshdConfig.path = some mainText ∧
    textAt fs' config.dropinPath.path = some dropinText ∧
    SshdConfig.findTrustedUserCaKeys
      (SshdConfig.splice (includesOwnDir config) mainText dropinText) =
      some config.trustedCaPath.text

/-- The search in the spliced configuration finds the managed path just when
nothing shadows it. -/
theorem effective_iff {mainText dropinText : Text} (hLine : '\n' ∉ config.trustedCaPath.text)
    (hTrim : Text.trim config.trustedCaPath.text = config.trustedCaPath.text)
    (hEquals : Text.startsWith config.trustedCaPath.text '=' = false)
    (hDropin : Text.trimEnd dropinText =
      Text.trimEnd (SshdConfig.renderDropin config.trustedCaPath)) :
    SshdConfig.findTrustedUserCaKeys
      (SshdConfig.splice (includesOwnDir config) mainText dropinText) =
      some config.trustedCaPath.text ↔ Unshadowed config mainText := by
  unfold Unshadowed before
  by_cases hEmpty : config.trustedCaPath.text = []
  · rw [hEmpty]
    refine iff_of_false (SshdConfig.findTrustedUserCaKeys_ne_empty _) fun h => h.1 rfl
  have hSolid := SshdConfig.solid_of_trim hTrim hEmpty
  rw [SshdConfig.findTrustedUserCaKeys_splice
    (SshdConfig.findSome?_dropin hSolid hLine hEquals hDropin)]
  simp only [ne_eq, hEmpty, not_false_eq_true, true_and]
  generalize ((mainText.splitOn '\n').takeWhile fun line => !includesOwnDir config line).findSome?
    SshdConfig.directiveOnLine = found
  cases found with
  | some value => simp
  | none => cases (mainText.splitOn '\n').any (includesOwnDir config) <;> simp

end Effective

/-- An installed drop-in takes effect exactly if the main configuration does
not set another path first and does include the drop-in. -/
theorem installed_dropin_effective_iff (host : Host) (config : OpsConfig) (w : World)
    (request : Request)
    (hLine : '\n' ∉ config.trustedCaPath.text)
    (hTrim : Text.trim config.trustedCaPath.text = config.trustedCaPath.text)
    (hEquals : Text.startsWith config.trustedCaPath.text '=' = false)
    (hOp : request.op = .installSshdDropin)
    (hOk : ((Ops.dispatch config request).run host.oracle w).1.ok = true) :
    Effective.TakesEffect config w.fs ((Ops.dispatch config request).run host.oracle w).2.fs ↔
      ∃ mainText, Effective.textAt w.fs config.mainSshdConfig.path = some mainText ∧
        Effective.Unshadowed config mainText := by
  obtain ⟨-, dropinText, hDropin, hCurrent⟩ := Effective.installed_of_ok hOp hOk
  constructor
  · rintro ⟨mainText, dropinText', hMain, hDropin', hFinds⟩
    rw [hDropin] at hDropin'
    cases hDropin'
    exact ⟨mainText, hMain, (Effective.effective_iff hLine hTrim hEquals hCurrent).mp hFinds⟩
  · rintro ⟨mainText, hMain, hUnshadowed⟩
    exact ⟨mainText, dropinText, hMain, hDropin,
      (Effective.effective_iff hLine hTrim hEquals hCurrent).mpr hUnshadowed⟩

namespace Effective

/-- The stock line, after a directive of the host's own. -/
def competingConfig : Text :=
  "TrustedUserCAKeys /other\nInclude /etc/ssh/sshd_config.d/*.conf\n".toList

end Effective

theorem installed_dropin_effective_stock :
    Effective.TakesEffect OpsConfig.default (Fs.withMainConfig Sandbox.stockMain)
      ((Ops.dispatch OpsConfig.default Sandbox.installRequest).run
        (Host.sandbox Host.noFailures (fun _ _ _ => .ok ())).oracle
        (World.start (Fs.withMainConfig Sandbox.stockMain))).2.fs := by
  have hMain : Effective.textAt (Fs.withMainConfig Sandbox.stockMain)
    OpsConfig.default.mainSshdConfig.path =
      some Sandbox.stockMain := by decide
  refine (installed_dropin_effective_iff (Host.sandbox Host.noFailures (fun _ _ _ => .ok ()))
    OpsConfig.default
    (World.start (Fs.withMainConfig Sandbox.stockMain)) Sandbox.installRequest (by decide)
    (by decide +kernel) (by decide +kernel) rfl (by decide +kernel)).mpr
      ⟨_, hMain, by decide +kernel, .inr ?_⟩
  exact ⟨by decide +kernel, by decide +kernel⟩

/-- A main configuration that sets another path before it includes the
directory keeps that path, and the drop-in is installed all the same. -/
theorem installed_dropin_shadowed :
    ((Ops.dispatch OpsConfig.default Sandbox.installRequest).run
        (Host.sandbox Host.noFailures (fun _ _ _ => .ok ())).oracle
        (World.start (Fs.withMainConfig Effective.competingConfig))).1.ok = true ∧
      ¬Effective.TakesEffect OpsConfig.default (Fs.withMainConfig Effective.competingConfig)
        ((Ops.dispatch OpsConfig.default Sandbox.installRequest).run
          (Host.sandbox Host.noFailures (fun _ _ _ => .ok ())).oracle
          (World.start (Fs.withMainConfig Effective.competingConfig))).2.fs := by
  have hOk : ((Ops.dispatch OpsConfig.default Sandbox.installRequest).run
      (Host.sandbox Host.noFailures (fun _ _ _ => .ok ())).oracle
      (World.start (Fs.withMainConfig Effective.competingConfig))).1.ok = true := by decide +kernel
  have hMain : Effective.textAt (Fs.withMainConfig Effective.competingConfig)
      OpsConfig.default.mainSshdConfig.path = some Effective.competingConfig := by decide
  have hShadowed : (Effective.before OpsConfig.default Effective.competingConfig).findSome?
      SshdConfig.directiveOnLine = some (some "/other".toList) := by decide
  refine ⟨hOk, ?_⟩
  rintro ⟨mainText, dropinText, hMain', hDropin, hFinds⟩
  rw [hMain, Option.some.injEq] at hMain'
  obtain ⟨-, installed, hInstalled, hCurrent⟩ := Effective.installed_of_ok rfl hOk
  rw [hInstalled, Option.some.injEq] at hDropin
  rw [← hMain', ← hDropin, Effective.effective_iff (by decide) (by decide) (by decide) hCurrent,
    Effective.Unshadowed, hShadowed] at hFinds
  rcases hFinds.2 with hSame | ⟨hNone, -⟩
  · exact absurd hSame (by decide)
  · cases hNone

end MayflyHelper
