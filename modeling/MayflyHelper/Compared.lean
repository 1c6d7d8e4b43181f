import MayflyHelper.DispatchRules
import MayflyHelper.Evolution

/-! A writing operation over a managed file that is absent or regular, when no
call is made to fail. It stops at a drop-in that is no text, stops at a file
that is current, and exchanges any other. -/
namespace MayflyHelper

open OracleProgram

namespace Fs

variable {fs fs' : Fs} {path : Path} {previous : Option Bytes}

/-- An entry that is found reads as what it holds. -/
theorem Holds.reads (h : fs.Holds (fs.entry path) previous)
    (hFound : (fs.resolve false path).error = none) :
    fs.Reads path previous := by
  cases previous with
  | some bytes => exact reads_of_found hFound h.link h.bytesAt
  | none =>
      have hAbsent : fs.node (fs.resolve false path).loc = none := Option.map_eq_none_iff.mp h
      have hFollow := resolve_follow path h.link
      show fs.lookup true path = .error .notFound
      rw [lookup_of_found (by rw [hFollow]; exact hFound), hFollow, hAbsent]

theorem Holds.lookup (h : fs.Holds (fs.entry path) previous)
    (hFound : (fs.resolve false path).error = none) :
    fs.lookup false path = .error .notFound ∨ ∃ node, fs.lookup false path = .ok node ∧
      node.link = none := by
  have hLink := h.link
  rw [Fs.link, entry] at hLink
  rw [lookup_of_found hFound]
  cases hNode : fs.node (fs.resolve false path).loc with
  | none => exact Or.inl rfl
  | some node =>
      rw [hNode] at hLink
      exact Or.inr ⟨node, rfl, hLink⟩

namespace Prepared

variable {parents : List Path} {bytes : Bytes}

/-- Preparing the directories leaves a file with what it held. -/
theorem holds_file {loc : Loc} (h : Prepared parents fs fs') (hHolds : fs.Holds loc (some bytes)) :
    fs'.Holds loc (some bytes) := by
  have hStep := h.node loc
  unfold Holds at hHolds ⊢
  generalize fs.node loc = node, fs'.node loc = node' at hStep hHolds ⊢
  cases hStep with
  | same => exact hHolds
  | chmodded => exact hHolds
  | created => cases hHolds

/-- Nor does it put anything in the place of a missing file that can still be
written. -/
theorem holds (h : Prepared parents fs fs') (hWritable : fs'.Writable path)
    (hHolds : fs.Holds (fs.entry path) previous) : fs'.Holds (fs'.entry path) previous := by
  have hPlain := hWritable.canPut.2.2
  rw [entry_eq h.sameLinks] at hPlain ⊢
  cases previous with
  | some bytes => exact h.holds_file hHolds
  | none =>
      have hStep := h.node (fs.entry path)
      have hAbsent : fs.node (fs.entry path) = none := Option.map_eq_none_iff.mp hHolds
      rw [hAbsent] at hStep
      rw [Fs.isDir] at hPlain
      unfold Holds
      generalize fs'.node (fs.entry path) = node at hStep hPlain ⊢
      cases hStep with
      | same => rfl
      | created => cases hPlain

theorem writable (h : Prepared parents fs fs') (hWritable : fs.Writable path)
    (hHolds : fs.Holds (fs.entry path) (some bytes)) : fs'.Writable path := by
  have hKeeps := h.keeps
  obtain ⟨dir, hParent⟩ := hWritable.parent
  refine ⟨⟨dir, hParent.mono hKeeps.links hKeeps.isDir⟩,
    resolve_noError hKeeps.links hKeeps.isDir false path hWritable.found, ?_⟩
  rw [entry_eq h.sameLinks]
  exact ⟨hWritable.canPut.1, h.isDir _ hWritable.canPut.2.1, (h.holds_file hHolds).isDir⟩

end Prepared

end Fs

/-- The operation can read what the file holds: the drop-in has to be a text. -/
def Decodes (op : Operation) (previous : Option Bytes) : Prop :=
  op = .installSshdDropin → ∀ bytes, previous = some bytes → ∃ text, Text.fromUtf8 bytes = some text

/-- How an operation goes on from the directories: with a file that it cannot
read as a text, with one that is current, and with any other. -/
inductive Compared (host : Host) (w : World) (op : Operation) (update : Update)
    (previous : Option Bytes) :
    Except Error Outcome × World → Prop where
  | undecodable (v : World) (hFs : v.fs = w.fs) (hEvents : v.events = w.events)
      (hNot : ¬Decodes op previous) :
      Compared host w op update previous (.error .helperProtocol, v)
  | current (v : World) (hFs : v.fs = w.fs) (hDecodes : Decodes op previous)
      (hCurrent : update.Current previous) :
      Compared host w op update previous (.ok .notModified, v)
  | exchanged (v : World) (hFs : v.fs = w.fs) (hEvents : v.events = w.events)
      (hDecodes : Decodes op previous)
      (hStale : ¬update.Current previous) (result : Except Error Outcome × World)
      (h : ExchangeResult host v update.path previous update.contents update.done result) :
      Compared host w op update previous result

namespace Ops

variable {host : Host} {config : OpsConfig} {w : World} {previous : Option Bytes}

theorem applyCompare_compared (content : Text) (hReliable : host.Reliable)
    (hHolds : w.fs.Holds (w.fs.entry config.trustedCaPath.path) previous)
    (hFound : (w.fs.resolve false config.trustedCaPath.path).error = none) :
    Compared host w .applyTrustedCaKeys (Update.trustedCa config content) previous
      (Program.run host.oracle (applyCompare config content).run w) := by
  have hDecodes : Decodes .applyTrustedCaKeys previous := fun hOp => by cases hOp
  have hReads := hHolds.reads hFound
  have hCheck :
      Program.run host.oracle (Security.ensureNotSymlink config.trustedCaPath.path).run w =
      (.ok (), w.after [.lstat] w.fs) :=
    ensureNotSymlink_eq_ok_iff.mpr ⟨hReliable _ _, hHolds.lookup hFound, rfl⟩
  have hRead : Program.run host.oracle (readOptional config.trustedCaPath.path).run
    (w.after [.lstat] w.fs) =
      (.ok previous, (w.after [.lstat] w.fs).after [.read] w.fs) :=
    readOptional_eq_ok_iff.mpr ⟨hReliable _ _, hReads, rfl⟩
  unfold applyCompare
  rw [Fallible.run_bind_ok hCheck, Fallible.run_bind_ok hRead]
  by_cases hSame : previous = some (Text.asBytes content)
  · rw [if_pos hSame]
    exact .current _ rfl hDecodes hSame
  · rw [if_neg hSame]
    have hStale : ¬(Update.trustedCa config content).Current previous := hSame
    refine .exchanged (w := w) ((w.after [.lstat] w.fs).after [.read] w.fs) rfl rfl hDecodes hStale
      _ ?_
    exact run_exchange host _ _ hHolds.notLink hReads

theorem shownAs_or_not (previous : Option Bytes) :
    (∃ onDisk, ShownAs previous onDisk ∧ Decodes .installSshdDropin previous) ∨
      (∃ bytes, previous = some bytes ∧ Text.fromUtf8 bytes = none ∧
        ¬Decodes .installSshdDropin previous) := by
  cases previous with
  | none => exact Or.inl ⟨none, .absent, fun _ bytes hBytes => by cases hBytes⟩
  | some bytes =>
      cases hText : Text.fromUtf8 bytes with
      | some text =>
          refine Or.inl ⟨_, .text hText, fun _ found hFound => ?_⟩
          cases hFound
          exact ⟨text, hText⟩
      | none =>
          refine Or.inr ⟨bytes, rfl, hText, fun hDecodes => ?_⟩
          obtain ⟨text, hSome⟩ := hDecodes rfl bytes rfl
          cases hText.symm.trans hSome

theorem installCompare_compared (hReliable : host.Reliable)
    (hHolds : w.fs.Holds (w.fs.entry config.dropinPath.path) previous)
    (hFound : (w.fs.resolve false config.dropinPath.path).error = none) :
    Compared host w .installSshdDropin (Update.dropin config) previous
      (Program.run host.oracle (installCompare config).run w) := by
  have hReads := hHolds.reads hFound
  unfold installCompare
  rcases shownAs_or_not previous with ⟨onDisk, hShown, hDecodes⟩ | ⟨bytes, rfl, hText, hNot⟩
  · have hRead : Program.run host.oracle (readOptionalString config.dropinPath.path).run w =
        (.ok onDisk, w.after [.read] w.fs) :=
      readOptionalString_eq_ok_iff.mpr ⟨hReliable _ _, ⟨previous, hReads, hShown⟩, rfl⟩
    rw [Fallible.run_bind_ok hRead]
    by_cases hSame : onDisk = some (Text.trimEnd (SshdConfig.renderDropin config.trustedCaPath))
    · rw [if_pos hSame]
      exact .current _ rfl hDecodes (hShown.current_iff.mp hSame)
    · rw [if_neg hSame]
      have hStale : ¬(Update.dropin config).Current previous :=
        fun hCurrent => hSame (hShown.current_iff.mpr hCurrent)
      have hCheck : Program.run host.oracle (Security.ensureNotSymlink config.dropinPath.path).run
          (w.after [.read] w.fs) = (.ok (), (w.after [.read] w.fs).after [.lstat] w.fs) :=
        ensureNotSymlink_eq_ok_iff.mpr ⟨hReliable _ _, hHolds.lookup hFound, rfl⟩
      have hAgain : Program.run host.oracle (readOptional config.dropinPath.path).run
          ((w.after [.read] w.fs).after [.lstat] w.fs) =
            (.ok previous, ((w.after [.read] w.fs).after [.lstat] w.fs).after [.read] w.fs) :=
        readOptional_eq_ok_iff.mpr ⟨hReliable _ _, hReads, rfl⟩
      rw [Fallible.run_bind_ok hCheck, Fallible.run_bind_ok hAgain]
      refine .exchanged (w := w) (((w.after [.read] w.fs).after [.lstat] w.fs).after [.read] w.fs)
        rfl rfl
        hDecodes hStale _ ?_
      exact run_exchange host _ _ hHolds.notLink hReads
  · have hRead : Program.run host.oracle (readOptionalString config.dropinPath.path).run w =
        (.error .helperProtocol, w.after [.read] w.fs) := by
      unfold readOptionalString
      rw [Fallible.run_bind_ok (readOptional_eq_ok_iff.mpr ⟨hReliable _ _, hReads, rfl⟩)]
      simp only [hText]
      rfl
    rw [Fallible.run_bind_error hRead]
    exact .undecodable _ rfl rfl hNot

end Ops

/-- The same for a request, from the world its preparation leaves. -/
theorem Request.operation_compared {host : Host} {config : OpsConfig} {w w₁ : World}
    {request : Request}
    {update : Update} {previous : Option Bytes} (hUpdate : request.update config = some update)
    (hReliable : host.Reliable)
    (hPrepare : Program.run host.oracle (request.prepare config).run w = (.ok (), w₁))
    (hHolds : w₁.fs.Holds (w₁.fs.entry update.path) previous)
    (hFound : (w₁.fs.resolve false update.path).error = none) :
    Compared host w₁ request.op update previous
      (Program.run host.oracle (request.operation config).run w) := by
  rcases request.update_eq_some hUpdate with ⟨hOp, rfl⟩ | ⟨hOp, content, hContent, rfl⟩
  · simp only [Request.prepare, hOp] at hPrepare
    simp only [Request.operation, hOp]
    rw [Ops.run_installSshdDropin, hPrepare]
    exact Ops.installCompare_compared hReliable hHolds hFound
  · simp only [Request.prepare, hOp, hContent, Option.getD_some] at hPrepare
    simp only [Request.operation, hOp, hContent, Option.getD_some]
    rw [Ops.run_applyTrustedCaKeys, hPrepare]
    exact Ops.applyCompare_compared content hReliable hHolds hFound

end MayflyHelper
