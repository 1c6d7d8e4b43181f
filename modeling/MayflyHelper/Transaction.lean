import MayflyHelper.Directories
import MayflyHelper.SecurityRules

/-! Replacing a managed file: write, let `sshd` check and reload, and put the
previous file back if it does not accept the new one. The result is described
for every schedule of failing calls and every behaviour of `sshd`. -/
namespace MayflyHelper

open OracleProgram

namespace World

variable (w : World) (events : List SshdEvent)

/-- The world after some `sshd` commands, latest first. -/
def noted : World := { w with events := events ++ w.events }

@[simp] theorem noted_fs : (w.noted events).fs = w.fs := rfl

@[simp] theorem noted_count : (w.noted events).count = w.count := rfl

@[simp] theorem noted_events : (w.noted events).events = events ++ w.events := rfl

end World

/-- One round of validation, reload and activity probe over the tree `fs`,
with the commands it issued, latest first. It stops at the first failure. -/
inductive Sweep (host : Host) (fs : Fs) (ordinal : Nat) :
    Except Error Unit → List SshdEvent → Prop where
  | rejected {err : Error} (hValidate : host.sshd ordinal fs .validateConfig = .error err) :
      Sweep host fs ordinal (.error err) [⟨.validateConfig, .error err, fs⟩]
  | notReloaded {err : Error} (hValidate : host.sshd ordinal fs .validateConfig = .ok ())
      (hReload : host.sshd (ordinal + 1) fs .reload = .error err) :
      Sweep host fs ordinal (.error err)
        [⟨.reload, .error err, fs⟩, ⟨.validateConfig, .ok (), fs⟩]
  | probed {result : Except Error Unit} (hValidate : host.sshd ordinal fs .validateConfig = .ok ())
      (hReload : host.sshd (ordinal + 1) fs .reload = .ok ())
      (hActive : host.sshd (ordinal + 2) fs .isActive = result) :
      Sweep host fs ordinal result
        [⟨.isActive, result, fs⟩, ⟨.reload, .ok (), fs⟩, ⟨.validateConfig, .ok (), fs⟩]

namespace Sweep

variable {host : Host} {fs : Fs} {ordinal : Nat} {result : Except Error Unit}
  {events : List SshdEvent}

/-- All controls of a sweep see the same files. -/
theorem fs_eq (h : Sweep host fs ordinal result events) : ∀ event ∈ events, event.fs = fs := by
  cases h <;> simp

/-- A round never reloads before the files were validated. -/
theorem validated (h : Sweep host fs ordinal result events)
    (hReload : ∃ event ∈ events, event.call = .reload) :
    host.sshd ordinal fs .validateConfig = .ok () := by
  cases h with
  | rejected => simp at hReload
  | notReloaded hValidate => exact hValidate
  | probed hValidate => exact hValidate

/-- A sweep that ends well has had the configuration validated. -/
theorem validated_of_ok (h : Sweep host fs ordinal (.ok ()) events) :
    host.sshd ordinal fs .validateConfig = .ok () := by
  cases h with
  | probed hValidate => exact hValidate

end Sweep

namespace Ops

variable {host : Host} {w : World} {path : Path}

/-- A control leaves the files alone and is noted as an event. -/
theorem run_sshd {call : SshdCall} {result : Except Error Unit}
    (h : host.sshd w.events.length w.fs call = result) :
    Program.run host.oracle (sshdCall call).run w = (result, w.noted [⟨call, result, w.fs⟩]) := by
  rw [run_sshdCall, Host.oracle_sshd, h]
  rfl

/-- Validate, reload, look: the first failure ends the sweep. -/
theorem run_validateReloadVerify (host : Host) (w : World) :
    ∃ result events, Program.run host.oracle validateReloadVerify.run w = (result, w.noted events) ∧
      Sweep host w.fs w.events.length result events := by
  unfold validateReloadVerify
  cases hValidate : host.sshd w.events.length w.fs .validateConfig with
  | error err => exact ⟨_, _, Fallible.run_bind_error (run_sshd hValidate), .rejected hValidate⟩
  | ok _ =>
      rw [Fallible.run_bind_ok (run_sshd hValidate)]
      cases hReload : host.sshd (w.events.length + 1) w.fs .reload with
      | error err =>
          exact ⟨_, _, Fallible.run_bind_error (run_sshd hReload), .notReloaded hValidate hReload⟩
      | ok _ =>
          rw [Fallible.run_bind_ok (run_sshd hReload)]
          exact ⟨_, _, run_sshd rfl, .probed hValidate hReload rfl⟩

/-- Looking at a path changes nothing. -/
theorem run_lstat (host : Host) (w : World) (path : Path) :
    (fsCall (.lstat path)).run host.oracle w =
      (if host.fails .lstat (w.count .lstat) then .error .other else w.fs.lookup false path,
        w.after [.lstat] w.fs) := by
  cases hFails : host.fails .lstat (w.count .lstat) with
  | true => exact run_fails (.lstat path) (by simpa [Host.failsAt, FsCall.kind] using hFails)
  | false =>
      exact run_performs (.lstat path) (by simpa [Host.failsAt, FsCall.kind] using hFails) rfl

/-- What is not there is no link; any other failure of the look is passed on. -/
theorem run_isSymlink (host : Host) (w : World) (path : Path) :
    Program.run host.oracle (Security.isSymlink path).run w =
      (if host.fails .lstat (w.count .lstat) then .error (.io .other)
        else match w.fs.lookup false path with
          | .ok node => .ok node.link.isSome
          | .error .notFound => .ok false
          | .error kind => .error (.io kind), w.after [.lstat] w.fs) := by
  simp only [Security.isSymlink, ExceptT.run_mk, Program.run_bind]
  rw [run_lstat]
  cases host.fails .lstat (w.count .lstat) with
  | true => rfl
  | false =>
      rcases w.fs.lookup false path with (_ | _) | node
      · rfl
      · rfl
      · simp only [Bool.false_eq_true, if_false, Node.link]
        cases node.kind <;> rfl

/-- `ensureNotSymlink` only looks; where it passes there is no link. -/
theorem run_ensureNotSymlink (host : Host) (w : World) (path : Path) :
    ∃ result, Program.run host.oracle (Security.ensureNotSymlink path).run w =
      (result, w.after [.lstat] w.fs) ∧ (result = .ok () → w.fs.NotLink path) := by
  unfold Security.ensureNotSymlink
  rw [Fallible.run_bind, run_isSymlink]
  cases host.fails .lstat (w.count .lstat) with
  | true => exact ⟨_, rfl, fun h => by cases h⟩
  | false =>
      simp only [Bool.false_eq_true, if_false]
      rcases hLookup : w.fs.lookup false path with (_ | _) | node
      · exact ⟨_, rfl, fun _ => Fs.notLink_of_lookup fun node hNode => by simp [hLookup] at hNode⟩
      · exact ⟨_, rfl, fun h => by cases h⟩
      · cases hLink : node.link with
        | none =>
            refine ⟨.ok (), by simp only [hLink]; rfl, fun _ =>
              Fs.notLink_of_lookup fun found hFound => ?_⟩
            rw [hLookup] at hFound
            cases hFound
            exact hLink
        | some target =>
            exact ⟨.error .unexpectedSymlink, by simp only [hLink]; rfl, fun h => by cases h⟩

/-- What is there and is no link passes. -/
theorem run_ensureNotSymlink_ok {node : Node} (hClear : host.fails .lstat (w.count .lstat) = false)
    (hLookup : w.fs.lookup false path = .ok node) (hLink : node.link = none) :
    Program.run host.oracle (Security.ensureNotSymlink path).run w =
      (.ok (), w.after [.lstat] w.fs) := by
  unfold Security.ensureNotSymlink
  rw [Fallible.run_bind, run_isSymlink, hClear, hLookup]
  simp only [Bool.false_eq_true, if_false, hLink]
  rfl

/-- A read finds the file or reports that there is none; otherwise it failed. -/
theorem run_readOptional_cases (host : Host) (w : World) (path : Path) :
    (∃ previous, w.fs.Reads path previous ∧
        Program.run host.oracle (readOptional path).run w = (.ok previous, w.after [.read] w.fs)) ∨
      ∃ kind, Program.run host.oracle (readOptional path).run w =
          (.error (.io kind), w.after [.read] w.fs) ∧
        ¬ (host.fails .read (w.count .read) = false ∧ ∃ previous, w.fs.Reads path previous) := by
  simp only [readOptional, ExceptT.run_mk, Program.run_bind]
  cases hFails : host.fails .read (w.count .read) with
  | true =>
      rw [run_fails (.read path) (by simpa [Host.failsAt, FsCall.kind] using hFails)]
      exact Or.inr ⟨.other, rfl, fun h => by cases h.1⟩
  | false =>
      rw [run_performs (.read path) (by simpa [Host.failsAt, FsCall.kind] using hFails) rfl]
      rcases hLookup : w.fs.lookup true path with (_ | _) | node
      · exact Or.inl ⟨none, hLookup, rfl⟩
      · refine Or.inr ⟨.other, rfl, ?_⟩
        rintro ⟨-, _ | bytes, hReads⟩ <;> simp [Fs.Reads, hLookup] at hReads
      · cases hBytes : node.bytes with
        | none =>
            simp only [Except.bind, hBytes]
            refine Or.inr ⟨.other, rfl, ?_⟩
            rintro ⟨-, _ | bytes, hReads⟩ <;> simp [Fs.Reads, hLookup, hBytes] at hReads
        | some bytes =>
            simp only [Except.bind, hBytes]
            exact Or.inl ⟨some bytes, ⟨node, hLookup, hBytes⟩, rfl⟩

/-- An answer to the read is what the path reads as: nothing there is no
error. -/
theorem run_readOptional (host : Host) (w : World) (path : Path) :
    ∃ result, Program.run host.oracle (readOptional path).run w = (result, w.after [.read] w.fs) ∧
      ∀ previous, result = .ok previous → w.fs.Reads path previous := by
  rcases run_readOptional_cases host w path with ⟨previous, hReads, hRun⟩ | ⟨kind, hRun, -⟩
  · exact ⟨_, hRun, fun found h => by cases h; exact hReads⟩
  · exact ⟨_, hRun, fun found h => by cases h⟩

/-- Where the call does not fail the read finds what the path reads as. -/
theorem run_readOptional_ok {previous : Option Bytes}
    (hClear : host.fails .read (w.count .read) = false)
    (hReads : w.fs.Reads path previous) :
    Program.run host.oracle (readOptional path).run w = (.ok previous, w.after [.read] w.fs) := by
  rcases run_readOptional_cases host w path with ⟨found, hFound, hRun⟩ | ⟨kind, -, hNot⟩
  · rw [hRun, hFound.unique hReads]
  · exact absurd ⟨hClear, previous, hReads⟩ hNot

end Ops

namespace Fs

variable {fs : Fs} {path : Path} {previous : Option Bytes}

/-- The tree with a new managed file at `path`. -/
def installed (fs : Fs) (path : Path) (contents : Bytes) : Fs :=
  fs.put (fs.entry path) (newFile contents Security.modePublic)

/-- The tree once the previous file is back: rewritten, or absent as before. -/
def restored (fs : Fs) (path : Path) : Option Bytes → Fs
  | some bytes => fs.installed path bytes
  | none => fs

theorem Holds.notLink (h : fs.Holds (fs.entry path) previous) : fs.NotLink path := fun _ => h.link

section Installed

variable (hWritable : fs.Writable path) (hHolds : fs.Holds (fs.entry path) previous)
  (contents : Bytes)

include hWritable

/-- Installing a file makes and loses no directory. -/
theorem isDir_installed (loc : Loc) : (fs.installed path contents).isDir loc = fs.isDir loc :=
  isDir_put hWritable.canPut rfl loc

/-- The installed file is new: with the contents, readable by all, root's. -/
theorem node_installed : (fs.installed path contents).node (fs.entry path) =
    some (newFile contents Security.modePublic) :=
  put_node_self hWritable.canPut

/-- Only the bytes at the entry of the path are new. -/
theorem bytesAt_installed (loc : Loc) : (fs.installed path contents).bytesAt loc =
    if loc = fs.entry path then some contents else fs.bytesAt loc :=
  bytesAt_put hWritable.canPut loc

include hHolds

/-- The old file was no link, so all links stay. -/
theorem sameLinks_installed : SameLinks fs (fs.installed path contents) :=
  hWritable.sameLinks hHolds.notLink _ _

/-- Paths have the entries they had. -/
theorem entry_installed (path' : Path) :
    (fs.installed path contents).entry path' = fs.entry path' :=
  entry_eq (sameLinks_installed hWritable hHolds contents) path'

/-- What could be written once can be written again. -/
theorem writable_installed : (fs.installed path contents).Writable path := by
  have hLinks := sameLinks_installed hWritable hHolds contents
  have hDir := isDir_installed hWritable contents
  obtain ⟨dir, hParent⟩ := hWritable.parent
  refine ⟨⟨dir, hParent.mono hLinks fun loc hLoc => (hDir loc).trans hLoc⟩, ?_, ?_⟩
  · exact (resolve_noError_iff hLinks hDir false path).mpr hWritable.found
  · rw [entry_eq hLinks]
    exact (canPut_put hWritable.canPut rfl _).mpr hWritable.canPut

/-- The entry holds the new contents. -/
theorem holds_installed :
    (fs.installed path contents).Holds ((fs.installed path contents).entry path)
      (some contents) := by
  rw [entry_installed hWritable hHolds, Holds, node_installed hWritable]
  rfl

/-- So the path reads as the new contents. -/
theorem reads_installed : (fs.installed path contents).Reads path (some contents) := by
  have hLater := holds_installed hWritable hHolds contents
  exact reads_of_found (writable_installed hWritable hHolds contents).found hLater.link
    hLater.bytesAt

/-- Writing again replaces the first write. -/
theorem installed_installed (contents' : Bytes) :
    (fs.installed path contents).installed path contents' = fs.installed path contents' := by
  rw [installed, entry_installed hWritable hHolds]
  exact put_put hWritable.canPut rfl

/-- Putting the previous file back gives everybody the bytes they had. -/
theorem bytesAt_restored (loc : Loc) :
    (fs.restored path previous).bytesAt loc = fs.bytesAt loc := by
  cases previous with
  | none => rfl
  | some bytes =>
      rw [restored, bytesAt_installed hWritable]
      split
      · rename_i hLoc
        rw [hLoc, hHolds.bytesAt]
      · rfl

/-- Putting the previous file back keeps all links. -/
theorem sameLinks_restored : SameLinks fs (fs.restored path previous) := by
  cases previous with
  | none => exact .refl fs
  | some bytes => exact sameLinks_installed hWritable hHolds bytes

/-- Putting the previous file back gives back the contents of every path. -/
theorem contents_restored (path' : Path) :
    (fs.restored path previous).contents path' = fs.contents path' := by
  have hLinks := sameLinks_restored hWritable hHolds
  simp only [contents, target_eq hLinks, bytesAt_restored hWritable hHolds]

end Installed
end Fs

/-- The calls that decide whether `previous` is put back are not made to fail. -/
def Host.Restores (host : Host) (w : World) : Option Bytes → Prop
  | some _ => host.Clear w (.rename :: FsKind.filling)
  | none => host.Clear w [.unlink]

namespace Ops

variable {host : Host} {w : World} {base : Fs} {path : Path} {previous : Option Bytes}
  {contents : Bytes}

/-- Where there was no file before, undoing is removing what was installed. -/
theorem run_removeOptional (hWritable : base.Writable path)
    (hHolds : base.Holds (base.entry path) none)
    (hFs : w.fs = base.installed path contents) :
    Program.run host.oracle (removeOptional path).run w =
      if host.fails .unlink (w.count .unlink) then (.error (.io .other), w.after [.unlink] w.fs)
      else (.ok (), w.after [.unlink] base) := by
  simp only [removeOptional, ExceptT.run_mk, Program.run_bind]
  cases hFails : host.fails .unlink (w.count .unlink) with
  | true =>
      rw [run_fails (.unlink path) (by simpa [Host.failsAt, FsCall.kind] using hFails)]
      rfl
  | false =>
      have hFound := (Fs.writable_installed hWritable hHolds contents).found
      have hResolved : w.fs.resolve false path = ⟨base.entry path, none⟩ := by
        rw [hFs, ← Fs.entry_installed hWritable hHolds contents, ← hFound]
        rfl
      have hAbsent : base.node (base.entry path) = none := by simpa [Fs.Holds] using hHolds
      have hPerform : FsCall.perform host (w.count .unlink) (.unlink path) w.fs =
        (.ok (), base) := by
        simp only [FsCall.perform, FsCall.atEntry, hResolved]
        rw [hFs, Fs.node_installed hWritable, Fs.installed]
        simp only [newFile_isDir, Bool.false_eq_true, if_false]
        rw [Fs.remove_put hWritable.canPut (newFile_isDir _ _) hAbsent]
      rw [run_performs (.unlink path) (by simpa [Host.failsAt, FsCall.kind] using hFails) hPerform]
      rfl

/-- A restore either puts the previous file back or leaves the new one. An
unsynced directory is reported as a failure although the file is back. -/
theorem run_restore (host : Host) (hWritable : base.Writable path)
    (hHolds : base.Holds (base.entry path) previous) (hFs : w.fs = base.installed path contents) :
    (host.Restores w previous ∧ ∃ result calls,
      Program.run host.oracle (restore path previous).run w =
        (result, w.after calls (base.restored path previous)) ∧
      (host.fails .fsyncDir (w.count .fsyncDir) = false → result = .ok ())) ∨
    (¬ host.Restores w previous ∧ ∃ err calls fs',
      Program.run host.oracle (restore path previous).run w = (.error err, w.after calls fs') ∧
      (fs' = w.fs ∨ w.fs.Strays fs')) := by
  cases previous with
  | none =>
      simp only [restore, Host.Restores, Host.Clear, List.mem_singleton, forall_eq]
      rw [run_removeOptional hWritable hHolds hFs]
      cases hFails : host.fails .unlink (w.count .unlink) with
      | true => exact Or.inr ⟨by simp, _, _, _, rfl, Or.inl rfl⟩
      | false => exact Or.inl ⟨rfl, _, _, rfl, fun _ => rfl⟩
  | some bytes =>
      have hWritable' : w.fs.Writable path := hFs ▸ Fs.writable_installed hWritable hHolds contents
      have hLink : w.fs.NotLink path := by
        rw [hFs]
        exact (Fs.holds_installed hWritable hHolds contents).notLink
      have hRestores : host.Restores w (some bytes) ↔ host.Installs w path := by
        simp only [Host.Restores, Host.Clear, List.forall_mem_cons]
        exact ⟨fun h => ⟨hWritable', h.2, h.1⟩, fun h => ⟨h.rename, h.clear⟩⟩
      rw [hRestores, restore]
      have hWrite := Security.run_secureWrite host bytes Security.modePublic hLink
      generalize
        Program.run host.oracle (Security.secureWrite path bytes Security.modePublic).run w =
        outcome at hWrite
      cases hWrite with
      | stopped err calls hNot =>
          refine Or.inr ⟨fun h => hNot ?_, err, calls, _, rfl, Or.inl rfl⟩
          obtain ⟨dir, hParent⟩ := h.writable.parent
          exact ⟨dir, hParent, h.clear⟩
      | strayed err calls dir hParent hClear hNot =>
          exact Or.inr ⟨hNot, err, calls, _, rfl, Or.inr (Security.strays_tempLoc hParent)⟩
      | replaced h =>
          have hTree : w.fs.put (w.fs.entry path) (newFile bytes Security.modePublic) =
              base.restored path (some bytes) := by
            rw [hFs]
            exact Fs.installed_installed hWritable hHolds contents bytes
          rw [hTree]
          exact Or.inl ⟨h, _, _, rfl, fun hSync => by rw [hSync]; rfl⟩

end Ops

/-- How replacing a managed file can end. Up to the rename it is a plain
`secureWrite`; from there on `sshd` decides, and a rejected file is put back
unless the restore is itself made to fail. -/
inductive ExchangeResult (host : Host) (w : World) (path : Path) (previous : Option Bytes)
    (contents : Bytes) (done : Outcome) : Except Error Outcome × World → Prop where
  | stopped (err : Error) (calls : List FsKind)
      (hNot : ¬ ∃ dir, w.fs.OpenParent path dir ∧ host.Clear w FsKind.filling) :
      ExchangeResult host w path previous contents done (.error err, w.after calls w.fs)
  | strayed (err : Error) (calls : List FsKind) (dir : Path) (hParent : w.fs.OpenParent path dir)
      (hClear : host.Clear w FsKind.filling) (hNot : ¬ host.Installs w path) :
      ExchangeResult host w path previous contents done
        (.error err,
          w.after calls (w.fs.put (host.tempLoc w dir) (newFile contents Security.modePublic)))
  | unsynced (h : host.Installs w path) (hSync : host.fails .fsyncDir (w.count .fsyncDir) = true) :
      ExchangeResult host w path previous contents done
        (.error (.io .other), w.after FsKind.writing (w.fs.installed path contents))
  | committed (h : host.Installs w path) (hSync : host.fails .fsyncDir (w.count .fsyncDir) = false)
      (events : List SshdEvent)
      (hSweep : Sweep host (w.fs.installed path contents) w.events.length (.ok ()) events) :
      ExchangeResult host w path previous contents done
        (.ok done, (w.after FsKind.writing (w.fs.installed path contents)).noted events)
  | rolledBack (h : host.Installs w path) (hSync : host.fails .fsyncDir (w.count .fsyncDir) = false)
      (err : Error) (events later : List SshdEvent)
      (hSweep : Sweep host (w.fs.installed path contents) w.events.length (.error err) events)
      (hRestores : host.Restores (w.after FsKind.writing (w.fs.installed path contents)) previous)
      (w' : World) (hFs : w'.fs = w.fs.restored path previous)
      (hEvents : w'.events = later ++ events ++ w.events)
      (hLater : (later = [] ∧ host.fails .fsyncDir (w.count .fsyncDir + 1) = true) ∨
        ∃ result, Sweep host w'.fs (events.length + w.events.length) result later) :
      ExchangeResult host w path previous contents done (.error err, w')
  | stuck (h : host.Installs w path) (hSync : host.fails .fsyncDir (w.count .fsyncDir) = false)
      (err : Error) (events : List SshdEvent)
      (hSweep : Sweep host (w.fs.installed path contents) w.events.length (.error err) events)
      (hNot : ¬ host.Restores (w.after FsKind.writing (w.fs.installed path contents)) previous)
      (w' : World) (hFs : w'.fs = w.fs.installed path contents ∨
        (w.fs.installed path contents).Strays w'.fs)
      (hEvents : w'.events = events ++ w.events) :
      ExchangeResult host w path previous contents done (.error err, w')

/-- Only a kept candidate is a success, and it is answered as such. -/
theorem ExchangeResult.outcome {host : Host} {w w' : World} {path : Path} {previous : Option Bytes}
    {contents : Bytes} {done outcome : Outcome}
    (h : ExchangeResult host w path previous contents done (.ok outcome, w')) : outcome = done := by
  cases h with
  | committed => rfl

namespace Ops

variable {host : Host} {w : World} {base : Fs} {path : Path} {previous : Option Bytes}
  {contents : Bytes}

/-- Everything from the reload of the new file on. -/
theorem run_commit (host : Host) (done : Outcome) (hInstalls : host.Installs w path)
    (hHolds : w.fs.Holds (w.fs.entry path) previous)
    (hSync : host.fails .fsyncDir (w.count .fsyncDir) = false) :
    ExchangeResult host w path previous contents done
      (Program.run host.oracle (commit path previous done).run
        (w.after FsKind.writing (w.fs.installed path contents))) := by
  obtain ⟨result, events, hSweepRun, hSweep⟩ :=
    run_validateReloadVerify host (w.after FsKind.writing (w.fs.installed path contents))
  simp only [commit, ExceptT.run_mk, Program.run_bind, run_attempt, hSweepRun]
  cases result with
  | ok _ => exact .committed hInstalls hSync events hSweep
  | error err =>
      simp only [rollbackPath, Program.run_bind, run_attempt]
      rcases run_restore host hInstalls.writable hHolds
          (World.noted_fs (w.after FsKind.writing (w.fs.installed path contents)) events) with
        ⟨hRestores, result, calls, hRestore, hOk⟩ | ⟨hNot, err', calls, fs', hRestore, hFs⟩
      · rw [hRestore]
        cases result with
        | error err' =>
            have hUnsynced : host.fails .fsyncDir (w.count .fsyncDir + 1) = true := by
              by_contra hFails
              have hClear := hOk (by simpa [FsKind.writing] using hFails)
              cases hClear
            exact .rolledBack hInstalls hSync err events [] hSweep hRestores _ rfl rfl
              (Or.inl ⟨rfl, hUnsynced⟩)
        | ok _ =>
            obtain ⟨result, later, hLaterRun, hLater⟩ := run_validateReloadVerify host
              (((w.after FsKind.writing (w.fs.installed path contents)).noted events).after calls
                (w.fs.restored path previous))
            simp only [Program.run_bind, run_attempt, hLaterRun, Program.run_pure]
            refine .rolledBack hInstalls hSync err events later hSweep hRestores _ rfl ?_
              (Or.inr ⟨result, ?_⟩)
            · simp
            · simpa using hLater
      · rw [hRestore]
        exact .stuck hInstalls hSync err events hSweep hNot _ hFs rfl

/-- Replacing a managed file that was checked and read before. -/
theorem run_exchange (host : Host) (contents : Bytes) (done : Outcome) (hLink : w.fs.NotLink path)
    (hReads : w.fs.Reads path previous) :
    ExchangeResult host w path previous contents done
      (Program.run host.oracle (ExceptT.run do
        Security.secureWrite path contents Security.modePublic
        commit path previous done) w) := by
  rw [Fallible.run_bind]
  have hWrite := Security.run_secureWrite host contents Security.modePublic hLink
  generalize
    Program.run host.oracle (Security.secureWrite path contents Security.modePublic).run w =
    outcome at hWrite
  cases hWrite with
  | stopped err calls hNot => exact .stopped err calls hNot
  | strayed err calls dir hParent hClear hNot => exact .strayed err calls dir hParent hClear hNot
  | replaced h =>
      cases hSync : host.fails .fsyncDir (w.count .fsyncDir) with
      | true => exact .unsynced h hSync
      | false => exact run_commit host done h (hReads.holds hLink h.writable.found) hSync

end Ops
end MayflyHelper
