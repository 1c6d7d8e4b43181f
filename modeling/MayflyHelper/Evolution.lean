import MayflyHelper.Acceptance

/-! What requests leave in place when no filesystem call is made to fail.
Nothing goes away, links lead where they led, and a file keeps its contents
unless a request that was answered ok has written it. -/
namespace MayflyHelper

open OracleProgram

/-- `fs'` has the links of `fs`, and everything else of it up to modes; only
files at `Written` locations may have new contents. -/
structure Fs.Keeps (Written : Loc → Prop) (fs fs' : Fs) : Prop where
  links : Fs.SameLinks fs fs'
  isDir : ∀ loc, fs.isDir loc = true → fs'.isDir loc = true
  present : ∀ loc, fs.node loc ≠ none → fs'.node loc ≠ none
  bytes : ∀ loc bytes, ¬ Written loc → fs.bytesAt loc = some bytes → fs'.bytesAt loc = some bytes

/-- There is something at `path` itself, and no link. -/
def Fs.Stands (fs : Fs) (path : Path) : Prop :=
  ∃ node, fs.lookup false path = .ok node ∧ node.link = none

namespace Fs.Keeps

variable {fs fs' fs'' : Fs} {Written : Loc → Prop} {path : Path}

theorem mono {Wider : Loc → Prop} (h : Keeps Written fs fs')
    (hWider : ∀ loc, Written loc → Wider loc) :
    Keeps Wider fs fs' where
  links := h.links
  isDir := h.isDir
  present := h.present
  bytes := fun loc bytes hNot => h.bytes loc bytes (fun hWritten => hNot (hWider loc hWritten))

theorem trans (h : Keeps Written fs fs') (h' : Keeps Written fs' fs'') : Keeps Written fs fs'' where
  links := h.links.trans h'.links
  isDir := fun loc hDir => h'.isDir loc (h.isDir loc hDir)
  present := fun loc hNode => h'.present loc (h.present loc hNode)
  bytes := fun loc bytes hNot hBytes => h'.bytes loc bytes hNot (h.bytes loc bytes hNot hBytes)

/-- A directory goes on to stand. -/
theorem stands (h : Keeps Written fs fs') (hStands : fs.Stands path) : fs'.Stands path := by
  obtain ⟨node, hLookup, hLink⟩ := hStands
  obtain ⟨hFound, hNode⟩ := lookup_eq_ok_iff.mp hLookup
  have hEntry : fs'.entry path = fs.entry path := entry_eq h.links path
  have hHere : fs'.node (fs'.entry path) ≠ none := by
    rw [hEntry]
    exact h.present _ (by rw [entry, hNode]; simp)
  obtain ⟨node', hNode'⟩ := Option.ne_none_iff_exists'.mp hHere
  refine ⟨node',
    lookup_eq_ok_iff.mpr ⟨resolve_noError h.links h.isDir false path hFound, hNode'⟩, ?_⟩
  have hLinks := h.links.link (fs.entry path)
  rw [link, link, ← hEntry, hNode', hEntry, entry, hNode] at hLinks
  exact hLinks.trans hLink

/-- A file reads as before, unless it is among the written. -/
theorem reads {bytes : Bytes} (h : Keeps Written fs fs') (hReads : fs.Reads path (some bytes))
    (hNot : ¬ Written (fs.target path)) : fs'.Reads path (some bytes) := by
  obtain ⟨hFound, hBytes⟩ := reads_some_iff.mp hReads
  refine reads_some_iff.mpr ⟨resolve_noError h.links h.isDir true path hFound, ?_⟩
  rw [target_eq h.links]
  exact h.bytes _ _ hNot hBytes

end Fs.Keeps

namespace Fs

variable {fs fs' : Fs} {path : Path} {previous : Option Bytes}

/-- Nothing is written. -/
def nowhere (_loc : Loc) : Prop := False

/-- Preparing directories writes no file. -/
theorem Prepared.keeps {parents : List Path} (h : Prepared parents fs fs') :
    Keeps nowhere fs fs' where
  links := h.sameLinks
  isDir := h.isDir
  present := by
    intro loc hNode
    have hStep := h.node loc
    generalize fs.node loc = node, fs'.node loc = node' at hNode hStep
    cases hStep with
    | same => exact hNode
    | chmodded => simp
    | created => simp
  bytes := fun loc bytes _ hBytes => (h.bytesAt loc).trans hBytes

/-- Nor does a stray. -/
theorem Strays.keeps (h : fs.Strays fs') : Keeps nowhere fs fs' where
  links := h.sameLinks
  isDir := by
    intro loc hDir
    have hHere : fs.node loc ≠ none := by
      intro hAbsent
      simp [Fs.isDir, hAbsent] at hDir
    rw [Fs.isDir, h.node hHere]
    exact hDir
  present := by
    intro loc hNode
    rw [h.node hNode]
    exact hNode
  bytes := by
    intro loc bytes _ hBytes
    have hHere : fs.node loc ≠ none := by
      intro hAbsent
      simp [bytesAt, hAbsent] at hBytes
    rw [bytesAt, h.node hHere]
    exact hBytes

/-- Installing a file writes that file. -/
theorem keeps_installed (hWritable : fs.Writable path) (hHolds : fs.Holds (fs.entry path) previous)
    (contents : Bytes) : Keeps (· = fs.entry path) fs (fs.installed path contents) where
  links := sameLinks_installed hWritable hHolds contents
  isDir := fun loc hDir => (isDir_installed hWritable contents loc).trans hDir
  present := by
    intro loc hNode
    rw [installed, put_node hWritable.canPut]
    split
    · simp
    · exact hNode
  bytes := by
    intro loc bytes hNot hBytes
    rw [bytesAt_installed hWritable, if_neg hNot]
    exact hBytes

/-- Putting back what was there amounts to no write. -/
theorem keeps_restored (hWritable : fs.Writable path) (hHolds : fs.Holds (fs.entry path) previous) :
    Keeps nowhere fs (fs.restored path previous) := by
  cases previous with
  | none => exact ⟨.refl fs, fun _ h => h, fun _ h => h, fun _ _ _ h => h⟩
  | some bytes =>
      have hInstalled := keeps_installed hWritable hHolds bytes
      refine ⟨hInstalled.links, hInstalled.isDir, hInstalled.present, fun loc bytes' _ hBytes => ?_⟩
      exact (bytesAt_restored hWritable hHolds loc).trans hBytes

end Fs

/-- A writing operation writes its file if it is a success, and nothing else. -/
theorem UpdateResult.keeps {host : Host} {config : OpsConfig} {w w' : World} {path : Path}
    {Current : Option Bytes → Prop} {contents : Bytes} {done : Outcome}
    {result : Except Error Outcome}
    (hReliable : host.Reliable)
    (h : UpdateResult host config w path Current contents done (result, w')) :
    Fs.Keeps (fun loc => result.isOk = true ∧ loc = w.fs.entry path) w.fs w'.fs := by
  have hNowhere : ∀ {fs : Fs}, Fs.Keeps Fs.nowhere w.fs fs →
      Fs.Keeps (fun loc => result.isOk = true ∧ loc = w.fs.entry path) w.fs fs :=
    fun hKeeps => hKeeps.mono fun _ hFalse => hFalse.elim
  cases h with
  | refused err _ hPrepared => exact hNowhere hPrepared.keeps
  | current _ previous hPrepared => exact hNowhere hPrepared.keeps
  | exchanged w₁ previous hPrepared _ hLink hReads _ _ h =>
      cases h with
      | stopped err calls => exact hNowhere hPrepared.keeps
      | strayed err calls dir hParent =>
          exact hNowhere (hPrepared.keeps.trans (Security.strays_tempLoc hParent).keeps)
      | unsynced _ hSync => simp [hReliable _ _] at hSync
      | committed hInstalls =>
          have hWritten := Fs.keeps_installed hInstalls.writable
            (hReads.holds hLink hInstalls.writable.found) contents
          refine (hNowhere hPrepared.keeps).trans (hWritten.mono fun loc hLoc => ⟨rfl, ?_⟩)
          rw [hLoc, Fs.entry_eq hPrepared.sameLinks]
      | rolledBack hInstalls _ err events later _ _ _ hFs =>
          rw [hFs]
          exact hNowhere (hPrepared.keeps.trans (Fs.keeps_restored hInstalls.writable
            (hReads.holds hLink hInstalls.writable.found)))
      | stuck _ _ err events _ hNot =>
          refine (hNot ?_).elim
          cases previous <;> exact fun kind _ => hReliable kind _

/-- A request writes the file it manages, and only if it is answered ok. -/
theorem serve_keeps {host : Host} (hReliable : host.Reliable) (config : OpsConfig) (w : World)
    (request : Request) :
    Fs.Keeps (fun loc => (Ops.serve host config w request).1.ok = true ∧
        ∃ update, request.update config = some update ∧ loc = w.fs.entry update.path)
      w.fs (Ops.serve host config w request).2.fs := by
  unfold Ops.serve
  cases hUpdate : request.update config with
  | none =>
      obtain ⟨response, w', new, hRun, hPrepared, -⟩ := Ops.run_dispatch_other host config w hUpdate
      rw [hRun]
      exact hPrepared.keeps.mono fun _ hFalse => hFalse.elim
  | some update =>
      obtain ⟨result, w', hRun, hResult⟩ := Ops.run_dispatch_update host config w hUpdate
      rw [hRun]
      refine (hResult.keeps hReliable).mono fun loc hLoc => ⟨?_, update, rfl, hLoc.2⟩
      cases result with
      | ok outcome => rfl
      | error err => cases hLoc.1

end MayflyHelper
