import MayflyHelper.Transaction

/-! The operations as a whole. The two writing ones have one shape: prepare
the directories, look at the managed file, stop if it is current, and
otherwise exchange it. -/
namespace MayflyHelper

open OracleProgram

/-- How a writing operation can end. `Current` says which contents of the
managed file need no write. -/
inductive UpdateResult (host : Host) (config : OpsConfig) (w : World) (path : Path)
    (Current : Option Bytes → Prop) (contents : Bytes) (done : Outcome) :
    Except Error Outcome × World → Prop where
  | refused (err : Error) (w' : World) (hPrepared : Fs.Prepared config.parents w.fs w'.fs)
      (hEvents : w'.events = w.events) :
      UpdateResult host config w path Current contents done (.error err, w')
  | current (w' : World) (previous : Option Bytes)
      (hPrepared : Fs.Prepared config.parents w.fs w'.fs) (hEvents : w'.events = w.events)
      (hReads : w'.fs.Reads path previous) (hCurrent : Current previous) :
      UpdateResult host config w path Current contents done (.ok .notModified, w')
  | exchanged (w' : World) (previous : Option Bytes)
      (hPrepared : Fs.Prepared config.parents w.fs w'.fs) (hEvents : w'.events = w.events)
      (hLink : w'.fs.NotLink path) (hReads : w'.fs.Reads path previous)
      (hStale : ¬ Current previous)
      (result : Except Error Outcome × World)
      (h : ExchangeResult host w' path previous contents done result) :
      UpdateResult host config w path Current contents done result

/-- How a writing operation goes on once the directories are prepared: it looks
at its file and stops, or exchanges it. A file that is current is not refused
unless a call fails. -/
inductive CompareResult (host : Host) (w : World) (path : Path) (Current : Option Bytes → Prop)
    (contents : Bytes) (done : Outcome) : Except Error Outcome × World → Prop where
  | refused (err : Error) (calls : List FsKind)
      (hNot : ¬ (host.Reliable ∧ w.fs.link (w.fs.entry path) = none ∧
        ∃ bytes, w.fs.Reads path (some bytes) ∧ Current (some bytes))) :
      CompareResult host w path Current contents done (.error err, w.after calls w.fs)
  | current (calls : List FsKind) (previous : Option Bytes) (hReads : w.fs.Reads path previous)
      (hCurrent : Current previous) :
      CompareResult host w path Current contents done (.ok .notModified, w.after calls w.fs)
  | exchanged (calls : List FsKind) (previous : Option Bytes) (hLink : w.fs.NotLink path)
      (hReads : w.fs.Reads path previous) (hStale : ¬ Current previous)
      (result : Except Error Outcome × World)
      (h : ExchangeResult host (w.after calls w.fs) path previous contents done result) :
      CompareResult host w path Current contents done result

theorem CompareResult.update {host : Host} {config : OpsConfig} {w w₁ : World} {path : Path}
    {Current : Option Bytes → Prop} {contents : Bytes} {done : Outcome}
    {result : Except Error Outcome × World}
    (h : CompareResult host w₁ path Current contents done result)
    (hPrepared : Fs.Prepared config.parents w.fs w₁.fs) (hEvents : w₁.events = w.events) :
    UpdateResult host config w path Current contents done result := by
  cases h with
  | refused err calls => exact .refused err _ hPrepared hEvents
  | current calls previous hReads hCurrent =>
      exact .current _ previous hPrepared hEvents hReads hCurrent
  | exchanged calls previous hLink hReads hStale _ h =>
      exact .exchanged (w₁.after calls w₁.fs) previous hPrepared hEvents hLink hReads hStale _ h

/-- An operation that prepares and then compares ends in one of these ways. -/
theorem CompareResult.of_run {host : Host} {w : World} {path : Path} {Current : Option Bytes → Prop}
    {contents : Bytes} {done : Outcome} {operation compare : Action Outcome} {prepare : Action Unit}
    (hRun : Program.run host.oracle operation.run w =
      match Program.run host.oracle prepare.run w with
      | (.error err, w₁) => (.error err, w₁)
      | (.ok _, w₁) => Program.run host.oracle compare.run w₁)
    (hCompare : ∀ w₁, CompareResult host w₁ path Current contents done
      (Program.run host.oracle compare.run w₁)) :
    (∃ err w₁, Program.run host.oracle prepare.run w = (.error err, w₁) ∧
        Program.run host.oracle operation.run w = (.error err, w₁)) ∨
      ∃ w₁, Program.run host.oracle prepare.run w = (.ok (), w₁) ∧
        CompareResult host w₁ path Current contents done
          (Program.run host.oracle operation.run w) := by
  rcases hPrepare : Program.run host.oracle prepare.run w with ⟨err | _, w₁⟩
  · rw [hPrepare] at hRun
    exact Or.inl ⟨err, w₁, rfl, hRun⟩
  · rw [hPrepare] at hRun
    exact Or.inr ⟨w₁, rfl, hRun ▸ hCompare w₁⟩

namespace Ops

variable {host : Host} {config : OpsConfig} {w : World}

/-- The trusted-CA file needs no write if it holds the very bytes. -/
def CurrentCa (content : Text) (previous : Option Bytes) : Prop :=
  previous = some (Text.asBytes content)

/-- The drop-in needs no write if it is the rendered text up to trailing
whitespace. -/
def CurrentDropin (config : OpsConfig) (previous : Option Bytes) : Prop :=
  ∃ bytes text, previous = some bytes ∧ Text.fromUtf8 bytes = some text ∧
    Text.trimEnd text = Text.trimEnd (SshdConfig.renderDropin config.trustedCaPath)

/-- `apply_trusted_ca_keys` before it looks at the managed file. -/
def applyPrepare (config : OpsConfig) (content : Text) : Action Unit := do
  let _ ← liftExcept (TrustedCaKeys.parse content)
  ensureDirectories config

/-- `apply_trusted_ca_keys` from the managed file on. -/
def applyCompare (config : OpsConfig) (content : Text) : Action Outcome := do
  Security.ensureNotSymlink config.trustedCaPath.path
  let previous ← readOptional config.trustedCaPath.path
  if previous = some (Text.asBytes content) then
    return .notModified
  Security.secureWrite config.trustedCaPath.path (Text.asBytes content) Security.modePublic
  commit config.trustedCaPath.path previous .applied

/-- An apply is its preparation and then the comparison. -/
theorem run_applyTrustedCaKeys (host : Host) (config : OpsConfig) (w : World) (content : Text) :
    Program.run host.oracle (applyTrustedCaKeys config content).run w =
      match Program.run host.oracle (applyPrepare config content).run w with
      | (.error err, w₁) => (.error err, w₁)
      | (.ok _, w₁) => Program.run host.oracle (applyCompare config content).run w₁ := by
  unfold applyTrustedCaKeys applyPrepare
  simp only [Fallible.run_bind]
  rcases Program.run host.oracle (liftExcept (TrustedCaKeys.parse content)).run w with ⟨_ | _, v⟩
  · rfl
  dsimp only
  rcases Program.run host.oracle (ensureDirectories config).run v with ⟨_ | _, v₁⟩
  · rfl
  dsimp only
  rw [applyCompare]
  simp only [Fallible.run_bind]

/-- Up to its comparison an apply prepares directories and runs no control. -/
theorem run_applyPrepare (host : Host) (config : OpsConfig) (w : World) (content : Text) :
    ∃ result w₁, Program.run host.oracle (applyPrepare config content).run w = (result, w₁) ∧
      Fs.Prepared config.parents w.fs w₁.fs ∧ w₁.events = w.events := by
  unfold applyPrepare
  rw [Fallible.run_bind, run_liftExcept]
  cases TrustedCaKeys.parse content with
  | error err => exact ⟨_, w, rfl, .refl _ _, rfl⟩
  | ok keys => exact run_ensureDirectories host config w

/-- Preparing an apply is parsing the content and making the directories. -/
theorem applyPrepare_ok {content : Text} {w₁ : World}
    (h : Program.run host.oracle (applyPrepare config content).run w = (.ok (), w₁)) :
    (TrustedCaKeys.parse content).isOk = true ∧
      Program.run host.oracle (ensureDirectories config).run w = (.ok (), w₁) := by
  unfold applyPrepare at h
  rw [Fallible.run_bind, run_liftExcept] at h
  cases hParse : TrustedCaKeys.parse content with
  | error err => simp [hParse] at h
  | ok keys =>
      rw [hParse] at h
      exact ⟨rfl, h⟩

/-- The comparison of an apply, and the exchange if it comes to that. -/
theorem run_applyCompare (host : Host) (config : OpsConfig) (w : World) (content : Text) :
    CompareResult host w config.trustedCaPath.path (CurrentCa content) (Text.asBytes content)
      .applied (Program.run host.oracle (applyCompare config content).run w) := by
  unfold applyCompare
  obtain ⟨checked, hCheck, hLink⟩ := run_ensureNotSymlink host w config.trustedCaPath.path
  rw [Fallible.run_bind, hCheck]
  rcases checked with err | _
  · refine .refused err _ ?_
    rintro ⟨hReliable, hNoLink, bytes, hReads, -⟩
    obtain ⟨node, hLookup, -, hNode, -⟩ := hReads.lookup hNoLink
    rw [run_ensureNotSymlink_ok (hReliable .lstat _) hLookup hNode] at hCheck
    cases hCheck
  dsimp only
  obtain ⟨read, hRead, hReads⟩ :=
    run_readOptional host (w.after [.lstat] w.fs) config.trustedCaPath.path
  simp only [World.after_fs, World.after_after] at hRead hReads
  rw [Fallible.run_bind, hRead]
  rcases read with err | previous
  · refine .refused err _ ?_
    rintro ⟨hReliable, -, bytes, hFound, -⟩
    have hOk := run_readOptional_ok (w := w.after [.lstat] w.fs) (hReliable .read _) hFound
    rw [World.after_after] at hOk
    rw [hOk] at hRead
    cases hRead
  dsimp only
  split
  · rename_i hSame
    exact .current _ previous (hReads previous rfl) hSame
  · rename_i hDiff
    exact .exchanged _ previous (hLink rfl) (hReads previous rfl) hDiff _
      (run_exchange host _ _ (hLink rfl) (hReads previous rfl))

/-- What `readOptionalString` makes of the bytes it finds. -/
inductive ShownAs : Option Bytes → Option Text → Prop where
  | absent : ShownAs none none
  | text {bytes : Bytes} {text : Text} (h : Text.fromUtf8 bytes = some text) :
      ShownAs (some bytes) (some (Text.trimEnd text))

/-- The comparison of `install_sshd_dropin` decides whether the file is current. -/
theorem ShownAs.current_iff {config : OpsConfig} {onDisk : Option Text}
    (h : ShownAs previous onDisk) :
    onDisk = some (Text.trimEnd (SshdConfig.renderDropin config.trustedCaPath)) ↔
      CurrentDropin config previous := by
  unfold CurrentDropin
  cases h with
  | absent => simp
  | text hText => simp [hText]

theorem run_readOptionalString (host : Host) (w : World) (path : Path) :
    ∃ result, Program.run host.oracle (readOptionalString path).run w =
      (result, w.after [.read] w.fs) ∧
      ∀ onDisk, result = .ok onDisk → ∃ previous, w.fs.Reads path previous ∧
        ShownAs previous onDisk := by
  obtain ⟨result, hRead, hReads⟩ := run_readOptional host w path
  unfold readOptionalString
  rw [Fallible.run_bind, hRead]
  cases result with
  | error err => exact ⟨_, rfl, fun _ h => by cases h⟩
  | ok previous =>
      have hPrevious := hReads previous rfl
      cases previous with
      | none => exact ⟨_, rfl, fun onDisk h => by cases h; exact ⟨none, hPrevious, .absent⟩⟩
      | some bytes =>
          dsimp only
          cases hText : Text.fromUtf8 bytes with
          | none => exact ⟨_, rfl, fun _ h => by cases h⟩
          | some text =>
              exact ⟨_, rfl, fun onDisk h => by cases h; exact ⟨some bytes, hPrevious, .text hText⟩⟩

theorem run_readOptionalString_ok {path : Path} {bytes : Bytes} {text : Text}
    (hClear : host.fails .read (w.count .read) = false) (hReads : w.fs.Reads path (some bytes))
    (hText : Text.fromUtf8 bytes = some text) :
    Program.run host.oracle (readOptionalString path).run w =
      (.ok (some (Text.trimEnd text)), w.after [.read] w.fs) := by
  unfold readOptionalString
  rw [Fallible.run_bind_ok (run_readOptional_ok hClear hReads)]
  simp only [hText]
  rfl

theorem run_ensureIncludePresent (host : Host) (config : OpsConfig) (w : World) :
    ∃ result, Program.run host.oracle (ensureIncludePresent config).run w =
      (result, w.after [.read] w.fs) := by
  obtain ⟨result, hRead, -⟩ := run_readOptionalString host w config.mainSshdConfig.path
  unfold ensureIncludePresent
  rw [Fallible.run_bind, hRead]
  rcases result with _ | _ | text
  · exact ⟨_, rfl⟩
  · exact ⟨_, rfl⟩
  · dsimp only
    split <;> exact ⟨_, rfl⟩

/-- `install_sshd_dropin` before it looks at the managed file. -/
def installPrepare (config : OpsConfig) : Action Unit := do
  ensureDirectories config
  ensureIncludePresent config

/-- `install_sshd_dropin` from the managed file on. -/
def installCompare (config : OpsConfig) : Action Outcome := do
  let path := config.dropinPath.path
  let desired := SshdConfig.renderDropin config.trustedCaPath
  if (← readOptionalString path) = some (Text.trimEnd desired) then
    return .notModified
  Security.ensureNotSymlink path
  let previous ← readOptional path
  Security.secureWrite path (Text.asBytes desired) Security.modePublic
  commit path previous .ok

/-- An install is its preparation and then the comparison. -/
theorem run_installSshdDropin (host : Host) (config : OpsConfig) (w : World) :
    Program.run host.oracle (installSshdDropin config).run w =
      match Program.run host.oracle (installPrepare config).run w with
      | (.error err, w₁) => (.error err, w₁)
      | (.ok _, w₁) => Program.run host.oracle (installCompare config).run w₁ := by
  unfold installSshdDropin installPrepare
  simp only [Fallible.run_bind]
  rcases Program.run host.oracle (ensureDirectories config).run w with ⟨_ | _, v⟩
  · rfl
  dsimp only
  rcases Program.run host.oracle (ensureIncludePresent config).run v with ⟨_ | _, v₁⟩
  · rfl
  dsimp only
  rw [installCompare]
  simp only [Fallible.run_bind]

/-- Up to its comparison an install prepares directories and runs no control. -/
theorem run_installPrepare (host : Host) (config : OpsConfig) (w : World) :
    ∃ result w₁, Program.run host.oracle (installPrepare config).run w = (result, w₁) ∧
      Fs.Prepared config.parents w.fs w₁.fs ∧ w₁.events = w.events := by
  obtain ⟨prepared, w₁, hDirs, hPrepared, hEvents⟩ := run_ensureDirectories host config w
  unfold installPrepare
  rw [Fallible.run_bind, hDirs]
  rcases prepared with _ | _
  · exact ⟨_, w₁, rfl, hPrepared, hEvents⟩
  · obtain ⟨included, hInclude⟩ := run_ensureIncludePresent host config w₁
    exact ⟨included, _, hInclude, hPrepared, hEvents⟩

/-- The comparison of an install, and the exchange if it comes to that. -/
theorem run_installCompare (host : Host) (config : OpsConfig) (w : World) :
    CompareResult host w config.dropinPath.path (CurrentDropin config)
      (Text.asBytes (SshdConfig.renderDropin config.trustedCaPath)) .ok
      (Program.run host.oracle (installCompare config).run w) := by
  unfold installCompare
  obtain ⟨onDisk, hOnDisk, hText⟩ := run_readOptionalString host w config.dropinPath.path
  rw [Fallible.run_bind, hOnDisk]
  rcases onDisk with err | onDisk
  · refine .refused err _ ?_
    rintro ⟨hReliable, -, _, hReads, bytes, text, hBytes, hUtf8, -⟩
    rw [hBytes] at hReads
    rw [run_readOptionalString_ok (hReliable .read _) hReads hUtf8] at hOnDisk
    cases hOnDisk
  dsimp only
  obtain ⟨previous, hReads, hShown⟩ := hText onDisk rfl
  split
  · rename_i hSame
    exact .current _ previous hReads (hShown.current_iff.mp hSame)
  · rename_i hDiff
    have hStale : ¬ CurrentDropin config previous :=
      fun hCurrent => hDiff (hShown.current_iff.mpr hCurrent)
    -- Whatever stops the operation from here on, the file is not current.
    have hNot : ¬ (host.Reliable ∧ w.fs.link (w.fs.entry config.dropinPath.path) = none ∧
        ∃ bytes, w.fs.Reads config.dropinPath.path (some bytes) ∧
          CurrentDropin config (some bytes)) := by
      rintro ⟨-, -, bytes, hFound, hCurrent⟩
      exact hStale (hReads.unique hFound ▸ hCurrent)
    obtain ⟨checked, hCheck, hLink⟩ := run_ensureNotSymlink host (w.after [.read] w.fs)
      config.dropinPath.path
    simp only [World.after_fs, World.after_after] at hCheck hLink
    rw [Fallible.run_bind, hCheck]
    rcases checked with _ | _
    · exact .refused _ _ hNot
    dsimp only
    obtain ⟨read, hRead, hReads'⟩ := run_readOptional host (w.after ([.lstat] ++ [.read]) w.fs)
      config.dropinPath.path
    simp only [World.after_fs, World.after_after] at hRead hReads'
    rw [Fallible.run_bind, hRead]
    rcases read with _ | previous'
    · exact .refused _ _ hNot
    dsimp only
    have hPrevious : previous = previous' := hReads.unique (hReads' previous' rfl)
    subst hPrevious
    exact .exchanged _ previous (hLink rfl) hReads hStale _
      (run_exchange host _ .ok (hLink rfl) hReads)

end Ops

/-- How a writing operation ends when no call is made to fail: the file is
left alone, or exchanged and kept, or exchanged and put back. -/
inductive Settled (host : Host) (config : OpsConfig) (w : World) (path : Path)
    (Current : Option Bytes → Prop) (contents : Bytes) (done : Outcome) :
    Except Error Outcome × World → Prop where
  | refused (err : Error) (w' : World) (hPrepared : Fs.Prepared config.parents w.fs w'.fs)
      (hEvents : w'.events = w.events) :
      Settled host config w path Current contents done (.error err, w')
  | current (w' : World) (previous : Option Bytes)
      (hPrepared : Fs.Prepared config.parents w.fs w'.fs) (hEvents : w'.events = w.events)
      (hReads : w'.fs.Reads path previous) (hCurrent : Current previous) :
      Settled host config w path Current contents done (.ok .notModified, w')
  | committed (fs : Fs) (previous : Option Bytes) (hPrepared : Fs.Prepared config.parents w.fs fs)
      (hWritable : fs.Writable path) (hHolds : fs.Holds (fs.entry path) previous)
      (hStale : ¬ Current previous) (events : List SshdEvent)
      (hSweep : Sweep host (fs.installed path contents) w.events.length (.ok ()) events)
      (w' : World) (hFs : w'.fs = fs.installed path contents)
      (hEvents : w'.events = events ++ w.events) :
      Settled host config w path Current contents done (.ok done, w')
  | rolledBack (fs : Fs) (previous : Option Bytes) (hPrepared : Fs.Prepared config.parents w.fs fs)
      (hWritable : fs.Writable path) (hHolds : fs.Holds (fs.entry path) previous)
      (hStale : ¬ Current previous) (err : Error) (events later : List SshdEvent)
      (hSweep : Sweep host (fs.installed path contents) w.events.length (.error err) events)
      (result : Except Error Unit)
      (hLater :
      Sweep host (fs.restored path previous) (events.length + w.events.length) result later)
      (w' : World) (hFs : w'.fs = fs.restored path previous)
      (hEvents : w'.events = later ++ events ++ w.events) :
      Settled host config w path Current contents done (.error err, w')

/-- On a reliable host an operation ends in one of the settled ways. -/
theorem UpdateResult.settled {host : Host} {config : OpsConfig} {w : World} {path : Path}
    {Current : Option Bytes → Prop} {contents : Bytes} {done : Outcome}
    {result : Except Error Outcome × World} (hReliable : host.Reliable)
    (hFile : path.trailing = false)
    (h : UpdateResult host config w path Current contents done result) :
    Settled host config w path Current contents done result := by
  cases h with
  | refused err w' hPrepared hEvents => exact .refused err w' hPrepared hEvents
  | current w' previous hPrepared hEvents hReads hCurrent =>
      exact .current w' previous hPrepared hEvents hReads hCurrent
  | exchanged w₁ previous hPrepared hEvents hLink hReads hStale _ h =>
      have hClear : host.Clear w₁ FsKind.filling := fun kind _ => hReliable kind _
      cases h with
      | stopped err calls hNot => exact .refused err _ hPrepared hEvents
      | strayed err calls dir hParent _ hNot =>
          obtain ⟨hFound, hPut⟩ := hParent.resolves hFile
          have hHolds := hReads.holds hLink hFound
          exact (hNot ⟨⟨⟨dir, hParent⟩, hFound, hPut hHolds.isDir⟩, hClear, hReliable _ _⟩).elim
      | unsynced h hSync => simp [hReliable _ _] at hSync
      | committed h _ events hSweep =>
          rw [hEvents] at hSweep
          exact .committed w₁.fs previous hPrepared h.writable (hReads.holds hLink h.writable.found)
            hStale events hSweep _ rfl (by simp [hEvents])
      | rolledBack h _ err events later hSweep _ w' hFs hEvents' hLater =>
          rcases hLater with ⟨-, hSync⟩ | ⟨result, hLater⟩
          · simp [hReliable _ _] at hSync
          · rw [hEvents] at hSweep hEvents' hLater
            rw [hFs] at hLater
            exact .rolledBack w₁.fs previous hPrepared h.writable
              (hReads.holds hLink h.writable.found) hStale err events later hSweep result hLater w'
                hFs hEvents'
      | stuck h _ err events hSweep hNot =>
          refine (hNot ?_).elim
          cases previous <;> exact fun kind _ => hReliable kind _

end MayflyHelper
