import MayflyHelper.Evolution
import MayflyHelper.Symlinks

/-! Requests that are delivered again. Once a request was answered ok, what it
found or made stays there, so that the next delivery finds it: the managed
directories, the `Include`, and the contents. -/
namespace MayflyHelper

open OracleProgram

namespace Replays

section Directories

variable {host : Host} {config : OpsConfig} {w w' : World} {dir : Path}

/-- Something that can be followed to is there; if it is no link, at the path
itself. -/
theorem stands_of_lookup {fs : Fs} {node : Node} (hFollow : fs.lookup true dir = .ok node)
    (hLink : fs.NotLink dir) : fs.Stands dir := by
  have hFound := Fs.resolve_noError_entry (Fs.lookup_eq_ok_iff.mp hFollow).1
  have hEnd := hLink hFound
  have hSame : fs.lookup false dir = fs.lookup true dir := by
    simp only [Fs.lookup, Fs.resolve_follow dir hEnd]
  rw [hFollow] at hSame
  refine ⟨node, hSame, ?_⟩
  rw [Fs.link, Fs.entry, (Fs.lookup_eq_ok_iff.mp hSame).2] at hEnd
  exact hEnd

/-- What reads as a file, and is no link, stands. -/
theorem stands_of_reads {fs : Fs} {bytes : Bytes} (hReads : fs.Reads dir (some bytes))
    (hLink : fs.NotLink dir) :
    fs.Stands dir := by
  obtain ⟨node, hFollow, -⟩ := hReads
  exact stands_of_lookup hFollow hLink

/-- A parent that was prepared stands. -/
theorem stands_of_ensureDirectory
    (h : Program.run host.oracle (Ops.ensureDirectory dir).run w = (.ok (), w')) :
    w'.fs.Stands dir := by
  obtain ⟨v, v', hCheck, hChmod⟩ := Ops.ensureDirectory_eq_ok h
  obtain ⟨result, hRun, hLink⟩ := Ops.run_ensureNotSymlink host v dir
  rw [hRun] at hCheck
  cases hCheck
  obtain ⟨-, ⟨node, hFollow⟩, rfl⟩ := Ops.chmod_eq_ok_iff.mp hChmod
  have hPrepared : Fs.Prepared [dir] v.fs (v.fs.setMode (v.fs.target dir) dirMode) :=
    Fs.prepared_chmod (List.mem_singleton_self dir)
  exact hPrepared.keeps.stands (stands_of_lookup hFollow (hLink rfl))

theorem stands_of_ensureDirectories
    (h : Program.run host.oracle (Ops.ensureDirectories config).run w = (.ok (), w')) :
    ∀ parent ∈ config.parents, w'.fs.Stands parent :=
  Ops.ensureDirectories_each Fs.Stands stands_of_ensureDirectory
    (fun hPrepared hStands => hPrepared.keeps.stands hStands) h

/-- Directories that stand already are made without a failing call. -/
theorem run_ensureDirectories_of_stands (hReliable : host.Reliable)
    (hStands : ∀ parent ∈ config.parents, w.fs.Stands parent) :
    ∃ w', Program.run host.oracle (Ops.ensureDirectories config).run w = (.ok (), w') ∧
      Fs.Prepared config.parents w.fs w'.fs ∧ w'.events = w.events := by
  have hPreparable : w.fs.Preparable host.umask (Ops.modeFails host w) config.parents := by
    rw [Ops.modeFails_of_reliable hReliable]
    exact Fs.preparable_of_stands hStands
  obtain ⟨w', hRun, -⟩ := Ops.ensureDirectories_of_preparable (hReliable.spares _) hPreparable
  have hPrepared := prepared_of_within host (Ops.within_ensureDirectories config) w
  rw [hRun] at hPrepared
  exact ⟨w', hRun, hPrepared⟩

end Directories

/-- What an ok answer to an apply leaves behind: its directories, and the
keys in a file at the path itself. -/
structure TrustedInPlace (config : OpsConfig) (content : Text) (fs : Fs) : Prop where
  parents : ∀ parent ∈ config.parents, fs.Stands parent
  stands : fs.Stands config.trustedCaPath.path
  holds : fs.Reads config.trustedCaPath.path (some (Text.asBytes content))

/-- What an ok answer to an install leaves behind: its directories, the
`Include`, and the drop-in. -/
structure DropinInPlace (config : OpsConfig) (fs : Fs) : Prop where
  parents : ∀ parent ∈ config.parents, fs.Stands parent
  included : Ops.MainIncludes config fs
  holds : ∃ bytes, fs.Reads config.dropinPath.path (some bytes) ∧
    Ops.CurrentDropin config (some bytes)

section Preservation

variable {config : OpsConfig} {fs fs' : Fs} {Written : Loc → Prop} {content : Text}

theorem TrustedInPlace.keeps (h : TrustedInPlace config content fs)
    (hKeeps : Fs.Keeps Written fs fs')
    (hNot : ¬ Written (fs.target config.trustedCaPath.path)) :
    TrustedInPlace config content fs' where
  parents := fun parent hParent => hKeeps.stands (h.parents parent hParent)
  stands := hKeeps.stands h.stands
  holds := hKeeps.reads h.holds hNot

theorem DropinInPlace.keeps (h : DropinInPlace config fs) (hKeeps : Fs.Keeps Written fs fs')
    (hMain : ¬ Written (fs.target config.mainSshdConfig.path))
    (hDropin : ¬ Written (fs.target config.dropinPath.path)) : DropinInPlace config fs' where
  parents := fun parent hParent => hKeeps.stands (h.parents parent hParent)
  included := by
    obtain ⟨bytes, text, hReads, hText⟩ := h.included
    exact ⟨bytes, text, hKeeps.reads hReads hMain, hText⟩
  holds := by
    obtain ⟨bytes, hReads, hCurrent⟩ := h.holds
    exact ⟨bytes, hKeeps.reads hReads hDropin, hCurrent⟩

end Preservation

section InPlace

variable {host : Host} {config : OpsConfig} {w w' : World} {content : Text} {outcome : Outcome}

/-- A comparison that ends well found the file current, or wrote it. -/
theorem compareResult_ok {path : Path} {Current : Option Bytes → Prop} {contents : Bytes}
    {done : Outcome}
    (h : CompareResult host w path Current contents done (.ok outcome, w')) :
    (w'.fs = w.fs ∧ ∃ previous, w.fs.Reads path previous ∧ Current previous) ∨
      (w'.fs = w.fs.installed path contents ∧ w.fs.Writable path ∧
        ∃ previous, w.fs.Holds (w.fs.entry path) previous) := by
  cases h with
  | current calls previous hReads hCurrent => exact Or.inl ⟨rfl, previous, hReads, hCurrent⟩
  | exchanged calls previous hLink hReads hStale _ h =>
      cases h with
      | committed hInstalls =>
          exact Or.inr ⟨rfl, hInstalls.writable, previous,
            hReads.holds hLink hInstalls.writable.found⟩

/-- An ok answer to an apply leaves the keys in place. -/
theorem trustedInPlace_of_ok
    (h : Program.run host.oracle (Ops.applyTrustedCaKeys config content).run w =
      (.ok outcome, w')) :
    Ops.acceptsCa content = true ∧ TrustedInPlace config content w'.fs := by
  rw [Ops.run_applyTrustedCaKeys] at h
  rcases hPrepare : Program.run host.oracle (Ops.applyPrepare config content).run w with
    ⟨err | _, w₁⟩
  · rw [hPrepare] at h
    cases h
  rw [hPrepare] at h
  dsimp only at h
  obtain ⟨hAccepts, hDirs⟩ := Ops.applyPrepare_ok hPrepare
  have hParents := stands_of_ensureDirectories hDirs
  refine ⟨hAccepts, ?_⟩
  have hCompare := Ops.run_applyCompare host config w₁ content
  rw [h] at hCompare
  rcases compareResult_ok hCompare with ⟨hFs, previous, hReads, rfl⟩ |
    ⟨hFs, hWritable, previous, hHolds⟩
  · rw [hFs]
    refine ⟨hParents, stands_of_reads hReads ?_, hReads⟩
    obtain ⟨_, _, hCheck, -⟩ := Fallible.run_bind_eq_ok h
    obtain ⟨result, hRun, hLink⟩ := Ops.run_ensureNotSymlink host w₁ config.trustedCaPath.path
    rw [hRun] at hCheck
    cases hCheck
    exact hLink rfl
  · rw [hFs]
    have hKeeps := Fs.keeps_installed hWritable hHolds (Text.asBytes content)
    have hReads := Fs.reads_installed hWritable hHolds (Text.asBytes content)
    have hNotLink := (Fs.holds_installed hWritable hHolds (Text.asBytes content)).notLink
    exact ⟨fun parent hParent => hKeeps.stands (hParents parent hParent),
      stands_of_reads hReads hNotLink, hReads⟩

/-- An ok answer to an install leaves the drop-in in place. -/
theorem dropinInPlace_of_ok
    (hMain : w.fs.entry config.dropinPath.path ≠ w.fs.target config.mainSshdConfig.path)
    (h : Program.run host.oracle (Ops.installSshdDropin config).run w = (.ok outcome, w')) :
    DropinInPlace config w'.fs := by
  unfold Ops.installSshdDropin at h
  obtain ⟨w₁, hDirs, h⟩ := Fallible.run_seq_eq_ok_iff.mp h
  obtain ⟨_, hInclude, h⟩ := Fallible.run_seq_eq_ok_iff.mp h
  obtain ⟨-, hIncluded, rfl⟩ := Ops.ensureIncludePresent_eq_ok_iff.mp hInclude
  have hPrepared := (prepared_of_within host (Ops.within_ensureDirectories config) w).1
  rw [hDirs] at hPrepared
  have hParents := stands_of_ensureDirectories hDirs
  have hCompare := Ops.run_installCompare host config (w₁.after [.read] w₁.fs)
  rw [Ops.installCompare, h] at hCompare
  rcases compareResult_ok hCompare with ⟨hFs, previous, hReads, hCurrent⟩ |
    ⟨hFs, hWritable, previous, hHolds⟩
  · rw [hFs]
    obtain ⟨bytes, rfl⟩ : ∃ bytes, previous = some bytes := by
      obtain ⟨bytes, text, hBytes, -⟩ := hCurrent
      exact ⟨bytes, hBytes⟩
    exact ⟨hParents, hIncluded, bytes, hReads, hCurrent⟩
  · rw [hFs]
    have hKeeps := Fs.keeps_installed hWritable hHolds
      (Text.asBytes (SshdConfig.renderDropin config.trustedCaPath))
    refine ⟨fun parent hParent => hKeeps.stands (hParents parent hParent), ?_, _,
      Fs.reads_installed hWritable hHolds _, _, _, rfl, Text.fromUtf8_asBytes _, rfl⟩
    obtain ⟨bytes, text, hReads, hText⟩ := hIncluded
    refine ⟨bytes, text, hKeeps.reads hReads ?_, hText⟩
    rw [World.after_fs, Fs.target_eq hPrepared.sameLinks, Fs.entry_eq hPrepared.sameLinks]
    exact Ne.symm hMain

end InPlace

/-- The request is answered `NotModified` without any `sshd` command, and no
file changes. -/
structure ChangesNothing (host : Host) (config : OpsConfig) (w : World) (request : Request) :
    Prop where
  answer : (Ops.serve host config w request).1 = Response.success .notModified
  events : (Ops.serve host config w request).2.events = w.events
  bytes : ∀ loc, (Ops.serve host config w request).2.fs.bytesAt loc = w.fs.bytesAt loc

section Replay

variable {host : Host} {config : OpsConfig} {w : World} {request : Request} {content : Text}

/-- An ok answer is the answer of an operation that ended well. -/
theorem operation_of_ok {update : Update} (hUpdate : request.update config = some update)
    (hOk : (Ops.serve host config w request).1.ok = true) :
    ∃ outcome, Program.run host.oracle (request.operation config).run w =
      (.ok outcome, (Ops.serve host config w request).2) := by
  rw [Ops.serve, Ops.run_dispatch_answer host config w hUpdate] at hOk ⊢
  generalize Program.run host.oracle (request.operation config).run w = result at hOk ⊢
  obtain ⟨err | outcome, w'⟩ := result
  · simp [answer] at hOk
  · exact ⟨outcome, rfl⟩

/-- What was answered without a write has changed nothing. -/
theorem changesNothing_of_run {update : Update} {w' : World}
    (hUpdate : request.update config = some update)
    (hRun : Program.run host.oracle (request.operation config).run w = (.ok .notModified, w'))
    (hPrepared : Fs.Prepared config.parents w.fs w'.fs) (hEvents : w'.events = w.events) :
    ChangesNothing host config w request := by
  have hServe : Ops.serve host config w request = (Response.success .notModified, w') := by
    rw [Ops.serve, Ops.run_dispatch_answer host config w hUpdate, hRun]
    rfl
  refine ⟨?_, ?_, ?_⟩
  · rw [hServe]
  · rw [hServe]
    exact hEvents
  · rw [hServe]
    exact hPrepared.bytesAt

/-- With its keys in place an apply has nothing to do. -/
theorem apply_replay (hReliable : host.Reliable) (hOp : request.op = .applyTrustedCaKeys)
    (hContent : request.content = some content) (hAccepts : Ops.acceptsCa content = true)
    (h : TrustedInPlace config content w.fs) : ChangesNothing host config w request := by
  obtain ⟨w₁, hDirs, hPrepared, hEvents⟩ := run_ensureDirectories_of_stands hReliable h.parents
  have hLater := h.keeps hPrepared.keeps (fun hWritten => hWritten)
  obtain ⟨node, hLookup, hLink⟩ := hLater.stands
  have hCheck :
      Program.run host.oracle (Security.ensureNotSymlink config.trustedCaPath.path).run w₁ =
      (.ok (), w₁.after [.lstat] w₁.fs) :=
    Ops.ensureNotSymlink_eq_ok_iff.mpr ⟨hReliable _ _, Or.inr ⟨node, hLookup, hLink⟩, rfl⟩
  have hRead : Program.run host.oracle (Ops.readOptional config.trustedCaPath.path).run
      (w₁.after [.lstat] w₁.fs) =
        (.ok (some (Text.asBytes content)), (w₁.after [.lstat] w₁.fs).after [.read] w₁.fs) :=
    Ops.readOptional_eq_ok_iff.mpr ⟨hReliable _ _, hLater.holds, rfl⟩
  have hUpdate : request.update config = some (Update.trustedCa config content) := by
    simp only [Request.update, hOp, hContent, Option.map_some]
  have hRun : Program.run host.oracle (request.operation config).run w =
      (.ok .notModified, (w₁.after [.lstat] w₁.fs).after [.read] w₁.fs) := by
    simp only [Request.operation, hOp, hContent, Option.getD_some]
    unfold Ops.applyTrustedCaKeys
    cases hParse : TrustedCaKeys.parse content with
    | error err => simp [Ops.acceptsCa, hParse, Except.isOk, Except.toBool] at hAccepts
    | ok keys =>
        rw [Fallible.run_bind_ok (run_liftExcept host (.ok keys) w), Fallible.run_bind_ok hDirs,
          Fallible.run_bind_ok hCheck, Fallible.run_bind_ok hRead, if_pos rfl]
        rfl
  exact changesNothing_of_run hUpdate hRun hPrepared hEvents

/-- With the drop-in in place an install has nothing to do. -/
theorem install_replay (hReliable : host.Reliable) (hOp : request.op = .installSshdDropin)
    (h : DropinInPlace config w.fs) : ChangesNothing host config w request := by
  obtain ⟨w₁, hDirs, hPrepared, hEvents⟩ := run_ensureDirectories_of_stands hReliable h.parents
  have hLater := h.keeps hPrepared.keeps (fun hWritten => hWritten) (fun hWritten => hWritten)
  have hInclude : Program.run host.oracle (Ops.ensureIncludePresent config).run w₁ =
      (.ok (), w₁.after [.read] w₁.fs) :=
    Ops.ensureIncludePresent_eq_ok_iff.mpr ⟨hReliable _ _, hLater.included, rfl⟩
  obtain ⟨bytes, hReads, _, text, hBytes, hText, hTrim⟩ := hLater.holds
  cases hBytes
  have hRead : Program.run host.oracle (Ops.readOptionalString config.dropinPath.path).run
      (w₁.after [.read] w₁.fs) =
        (.ok (some (Text.trimEnd text)), (w₁.after [.read] w₁.fs).after [.read] w₁.fs) :=
    Ops.readOptionalString_eq_ok_iff.mpr ⟨hReliable _ _, ⟨some bytes, hReads, .text hText⟩, rfl⟩
  have hUpdate : request.update config =
    some (Update.dropin config) := by simp only [Request.update, hOp]
  have hRun : Program.run host.oracle (request.operation config).run w =
      (.ok .notModified, (w₁.after [.read] w₁.fs).after [.read] w₁.fs) := by
    simp only [Request.operation, hOp]
    unfold Ops.installSshdDropin
    rw [Fallible.run_bind_ok hDirs, Fallible.run_bind_ok hInclude, Fallible.run_bind_ok hRead,
      hTrim, if_pos rfl]
    rfl
  exact changesNothing_of_run hUpdate hRun hPrepared hEvents

theorem ChangesNothing.keeps (h : ChangesNothing host config w request)
    (hReliable : host.Reliable) :
    Fs.Keeps Fs.nowhere w.fs (Ops.serve host config w request).2.fs := by
  have hKeeps := serve_keeps hReliable config w request
  exact ⟨hKeeps.links, hKeeps.isDir, hKeeps.present, fun loc bytes _ hBytes =>
    (h.bytes loc).trans hBytes⟩

end Replay

/-- A write of the drop-in is none of the trusted-CA file. -/
def TrustedApart (config : OpsConfig) (fs : Fs) : Prop :=
  fs.entry config.trustedCaPath.path ≠ fs.entry config.dropinPath.path

/-- A write of the trusted-CA file is none of the drop-in or of the main
configuration, nor is a write of the drop-in one of the latter. -/
structure DropinApart (config : OpsConfig) (fs : Fs) : Prop where
  trusted_dropin : fs.entry config.trustedCaPath.path ≠ fs.target config.dropinPath.path
  trusted_main : fs.entry config.trustedCaPath.path ≠ fs.target config.mainSshdConfig.path
  dropin_main : fs.entry config.dropinPath.path ≠ fs.target config.mainSshdConfig.path

/-- The request is no apply of other contents that is answered ok. -/
def NoOtherApplied (host : Host) (config : OpsConfig) (content : Text) (w : World)
    (request : Request) : Prop :=
  request.op = .applyTrustedCaKeys → request.content ≠ some content →
    (Ops.serve host config w request).1.ok = false

section Run

variable {host : Host} {config : OpsConfig} {w : World} {request : Request} {content : Text}

/-- One request keeps the keys in place, unless it replaces them. -/
theorem serve_trustedInPlace (hReliable : host.Reliable) (hAccepts : Ops.acceptsCa content = true)
    (hApart : TrustedApart config w.fs) (h : TrustedInPlace config content w.fs)
    (hOther : NoOtherApplied host config content w request) :
    TrustedInPlace config content (Ops.serve host config w request).2.fs := by
  by_cases hSame : request.op = .applyTrustedCaKeys ∧ request.content = some content
  · exact h.keeps ((apply_replay hReliable hSame.1 hSame.2 hAccepts h).keeps hReliable)
      fun hWritten => hWritten
  · refine h.keeps (serve_keeps hReliable config w request) ?_
    rintro ⟨hOk, update, hUpdate, hLoc⟩
    rcases request.update_eq_some hUpdate with ⟨-, rfl⟩ | ⟨hOp, found, hFound, rfl⟩
    · obtain ⟨node, hLookup, hLink⟩ := h.stands
      have hEnd : w.fs.link (w.fs.entry config.trustedCaPath.path) = none := by
        rw [Fs.link, Fs.entry, (Fs.lookup_eq_ok_iff.mp hLookup).2]
        exact hLink
      rw [Fs.target_eq_entry _ hEnd] at hLoc
      exact hApart hLoc
    · rw [hOther hOp fun hContent => hSame ⟨hOp, hContent⟩] at hOk
      cases hOk

/-- One request keeps the drop-in in place. -/
theorem serve_dropinInPlace (hReliable : host.Reliable) (hApart : DropinApart config w.fs)
    (h : DropinInPlace config w.fs) (request : Request) :
    DropinInPlace config (Ops.serve host config w request).2.fs := by
  by_cases hInstall : request.op = .installSshdDropin
  · have hKeeps := (install_replay hReliable hInstall h).keeps hReliable
    exact h.keeps hKeeps (fun hWritten => hWritten) fun hWritten => hWritten
  · have hTrusted : ∀ update, request.update config = some update →
      update.path = config.trustedCaPath.path := by
      intro update hUpdate
      rcases request.update_eq_some hUpdate with ⟨hOp, -⟩ | ⟨-, found, -, rfl⟩
      · exact (hInstall hOp).elim
      · rfl
    refine h.keeps (serve_keeps hReliable config w request) ?_ ?_
    · rintro ⟨-, update, hUpdate, hLoc⟩
      rw [hTrusted update hUpdate] at hLoc
      exact hApart.trusted_main hLoc.symm
    · rintro ⟨-, update, hUpdate, hLoc⟩
      rw [hTrusted update hUpdate] at hLoc
      exact hApart.trusted_dropin hLoc.symm

/-- Where the paths lead does not change along a run. -/
theorem TrustedApart.congr {fs fs' : Fs} (h : TrustedApart config fs)
    (hLinks : Fs.SameLinks fs fs') :
    TrustedApart config fs' := by
  rw [TrustedApart, Fs.entry_eq hLinks, Fs.entry_eq hLinks]
  exact h

theorem DropinApart.congr {fs fs' : Fs} (h : DropinApart config fs) (hLinks : Fs.SameLinks fs fs') :
    DropinApart config fs' := by
  refine ⟨?_, ?_, ?_⟩
  · rw [Fs.entry_eq hLinks, Fs.target_eq hLinks]
    exact h.trusted_dropin
  · rw [Fs.entry_eq hLinks, Fs.target_eq hLinks]
    exact h.trusted_main
  · rw [Fs.entry_eq hLinks, Fs.target_eq hLinks]
    exact h.dropin_main

/-- The keys stay in place along a run that applies no others. -/
theorem final_trustedInPlace (hReliable : host.Reliable) (hAccepts : Ops.acceptsCa content = true)
    (hApart : TrustedApart config w.fs) (h : TrustedInPlace config content w.fs)
    {between : List Request}
    (hAlong :
      Service.Along (Ops.serve host config) (NoOtherApplied host config content) w between) :
    TrustedInPlace config content (Service.final (Ops.serve host config) w between).fs := by
  have hFinal := Service.final_of_along
    (fun v : World => TrustedApart config v.fs ∧ TrustedInPlace config content v.fs)
    (fun v request hInv hOther => ⟨hInv.1.congr (serve_keeps hReliable config v request).links,
      serve_trustedInPlace hReliable hAccepts hInv.1 hInv.2 hOther⟩) ⟨hApart, h⟩ hAlong
  exact hFinal.2

/-- The drop-in stays in place along every run. -/
theorem final_dropinInPlace (hReliable : host.Reliable) (hApart : DropinApart config w.fs)
    (h : DropinInPlace config w.fs) (between : List Request) :
    DropinInPlace config (Service.final (Ops.serve host config) w between).fs := by
  have hFinal := Service.final_invariant
    (fun v : World => DropinApart config v.fs ∧ DropinInPlace config v.fs)
    (fun v request hInv => ⟨hInv.1.congr (serve_keeps hReliable config v request).links,
      serve_dropinInPlace hReliable hInv.1 hInv.2 request⟩) ⟨hApart, h⟩ between
  exact hFinal.2

end Run
end Replays

open Replays

/-- A request that was answered ok can be delivered again after any others: if
no other keys were applied in between it is answered `NotModified`, runs no
`sshd` command and changes no file, whatever `sshd` reported. -/
theorem replays_converge (host : Host) (config : OpsConfig) (w : World) (first : Request)
    (between : List Request) (hReliable : host.Reliable)
    (hOk : (Ops.serve host config w first).1.ok = true) :
    (∀ content, first.op = .applyTrustedCaKeys → first.content = some content →
      TrustedApart config w.fs →
      Service.Along (Ops.serve host config) (NoOtherApplied host config content)
        (Ops.serve host config w first).2 between →
      ∀ again, again.op = .applyTrustedCaKeys → again.content = some content →
        ChangesNothing host config
          (Service.final (Ops.serve host config) (Ops.serve host config w first).2 between) again) ∧
    (first.op = .installSshdDropin → DropinApart config w.fs →
      ∀ again, again.op = .installSshdDropin →
        ChangesNothing host config
          (Service.final (Ops.serve host config) (Ops.serve host config w first).2 between)
          again) := by
  have hLinks := (serve_keeps hReliable config w first).links
  constructor
  · intro content hOp hContent hApart hAlong again hAgain hAgainContent
    have hUpdate : first.update config = some (Update.trustedCa config content) := by
      simp only [Request.update, hOp, hContent, Option.map_some]
    obtain ⟨outcome, hRun⟩ := operation_of_ok hUpdate hOk
    rw [Request.operation, hOp, hContent] at hRun
    obtain ⟨hAccepts, hInPlace⟩ := trustedInPlace_of_ok hRun
    exact apply_replay hReliable hAgain hAgainContent hAccepts
      (final_trustedInPlace hReliable hAccepts (hApart.congr hLinks) hInPlace hAlong)
  · intro hOp hApart again hAgain
    have hUpdate :
        first.update config = some (Update.dropin config) := by simp only [Request.update, hOp]
    obtain ⟨outcome, hRun⟩ := operation_of_ok hUpdate hOk
    rw [Request.operation, hOp] at hRun
    exact install_replay hReliable hAgain (final_dropinInPlace hReliable (hApart.congr hLinks)
      (dropinInPlace_of_ok hApart.dropin_main hRun) between)

namespace Replays

/-- `sshd` answers ok three times, and fails from then on. -/
def failsLater (ordinal : Nat) (_fs : Fs) (_call : SshdCall) : Except Error Unit :=
  if ordinal < 3 then .ok () else .error .sshdValidationFailed

/-- One path for both managed files. -/
def onePath : OpsConfig := ⟨⟨"/f".toList⟩, ⟨"/f".toList⟩, ⟨"/etc/ssh/sshd_config".toList⟩⟩

end Replays

/-- Keys, other keys that `sshd` rejects, and the first ones again. -/
theorem replays_converge_after_rollback :
    ChangesNothing (Host.sandbox Host.noFailures failsLater) OpsConfig.default
      (Service.final (Ops.serve (Host.sandbox Host.noFailures failsLater) OpsConfig.default)
        (Ops.serve (Host.sandbox Host.noFailures failsLater) OpsConfig.default (World.start Fs.bare)
          (Sandbox.applyRequest Sandbox.firstKeys)).2 [Sandbox.applyRequest Sandbox.otherKeys])
            (Sandbox.applyRequest Sandbox.firstKeys) := by
  have hOk :
      (Ops.serve (Host.sandbox Host.noFailures failsLater) OpsConfig.default (World.start Fs.bare)
      (Sandbox.applyRequest Sandbox.firstKeys)).1.ok = true := by decide +kernel
  refine (replays_converge _ _ _ _ [Sandbox.applyRequest Sandbox.otherKeys]
    (Host.sandbox_reliable failsLater) hOk).1 Sandbox.firstKeys rfl rfl
    ?_ ?_ _ rfl rfl
  · unfold TrustedApart
    decide +kernel
  · refine ⟨fun _ _ => ?_, trivial⟩
    decide +kernel

/-- With one path for both files an install replaces the keys, and the next
apply has to write them again. -/
theorem replay_diverges_onePath :
    (Ops.serve (Host.sandbox Host.noFailures (fun _ _ _ => .ok ())) onePath
      (World.start (Fs.withMainConfig Sandbox.stockMain))
        (Sandbox.applyRequest Sandbox.firstKeys)).1.ok = true ∧
    Service.Along (Ops.serve (Host.sandbox Host.noFailures (fun _ _ _ => .ok ())) onePath)
      (NoOtherApplied (Host.sandbox Host.noFailures (fun _ _ _ => .ok ())) onePath
        Sandbox.firstKeys)
      (Ops.serve (Host.sandbox Host.noFailures (fun _ _ _ => .ok ())) onePath
        (World.start (Fs.withMainConfig Sandbox.stockMain))
          (Sandbox.applyRequest Sandbox.firstKeys)).2 [Sandbox.installRequest] ∧
    ¬ ChangesNothing (Host.sandbox Host.noFailures (fun _ _ _ => .ok ())) onePath
      (Service.final (Ops.serve (Host.sandbox Host.noFailures (fun _ _ _ => .ok ())) onePath)
        (Ops.serve (Host.sandbox Host.noFailures (fun _ _ _ => .ok ())) onePath
          (World.start (Fs.withMainConfig Sandbox.stockMain))
            (Sandbox.applyRequest Sandbox.firstKeys)).2 [Sandbox.installRequest])
      (Sandbox.applyRequest Sandbox.firstKeys) := by
  refine ⟨by decide, ⟨fun hOp => (by cases hOp), trivial⟩, fun h => ?_⟩
  have hOutcome := congrArg Response.outcome h.answer
  exact absurd hOutcome (by decide +kernel)

end MayflyHelper
