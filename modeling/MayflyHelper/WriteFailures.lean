import MayflyHelper.Sandbox
import MayflyHelper.SecurityRules
import Mathlib.Data.Set.Basic

/-! What a failed `secureWrite` leaves behind. Its callers take an error for a
write that did not happen, but the directory `fsync` can fail after the rename;
and once the temporary file is kept, a failed rename leaves it there. -/
namespace MayflyHelper

open OracleProgram

namespace Security

variable {host : Host} {w : World} {path : Path} {contents : Bytes} {mode : Nat}

theorem Installs.fills (h : host.Installs w path) :
    ∃ dir, w.fs.OpenParent path dir ∧ host.Clear w FsKind.filling := by
  obtain ⟨dir, hParent⟩ := h.writable.parent
  exact ⟨dir, hParent, h.clear⟩

/-- If the write fails, the destination holds what it held before. -/
def FailsCleanly (host : Host) (w : World) (path : Path) (contents : Bytes) (mode : Nat) : Prop :=
  ∀ err w', Program.run host.oracle (secureWrite path contents mode).run w = (.error err, w') →
    w'.fs.node (w'.fs.entry path) = w.fs.node (w.fs.entry path)

/-- The write comes to its rename, and only the directory `fsync` after it
fails. -/
def FailsLate (host : Host) (w : World) (path : Path) : Prop :=
  host.Installs w path ∧ host.fails .fsyncDir (w.count .fsyncDir) = true

/-- The write finishes its temporary file and comes no further. -/
def Strands (host : Host) (w : World) (path dir : Path) : Prop :=
  w.fs.OpenParent path dir ∧ host.Clear w FsKind.filling ∧ ¬host.Installs w path

theorem Strands.unique {dir dir' : Path} (h : Strands host w path dir)
    (hParent : w.fs.OpenParent path dir') :
    dir' = dir := Option.some.inj (hParent.named.symm.trans h.1.named)

theorem exists_strands_iff {dir : Path} {P : Path → Prop} (h : Strands host w path dir) :
    (∃ dir, Strands host w path dir ∧ P dir) ↔ P dir := by
  constructor
  · rintro ⟨dir', hOther, hHolds⟩
    rw [h.unique hOther.1] at hHolds
    exact hHolds
  · intro hHolds
    exact ⟨dir, h, hHolds⟩

/-- There is one error, and one world it leaves. -/
theorem forall_error_iff {err : Error} {w' : World} {P : World → Prop} :
    (∀ err' w'', ((.error err : Except Error Unit), w') = (.error err', w'') → P w'') ↔ P w' := by
  constructor
  · intro h
    exact h err w' rfl
  · intro h err' w'' hRun
    cases hRun
    exact h

/-- A stray file is at the destination only if it was given its name. -/
theorem kept_of_strayed_iff {dir : Path} (hParent : w.fs.OpenParent path dir) :
    (w.fs.put (host.tempLoc w dir) (newFile contents mode)).node
        ((w.fs.put (host.tempLoc w dir) (newFile contents mode)).entry path) =
          w.fs.node (w.fs.entry path) ↔
      host.tempLoc w dir ≠ w.fs.entry path := by
  rw [Fs.entry_eq (strays_tempLoc hParent).sameLinks path]
  by_cases hSame : host.tempLoc w dir = w.fs.entry path
  · rw [← hSame, Fs.put_node_self (canPut_tempLoc hParent), tempLoc_absent]
    exact iff_of_false (fun hKept => by cases hKept) fun hNe => hNe rfl
  · rw [Fs.put_node_of_ne (canPut_tempLoc hParent) (Ne.symm hSame)]
    exact iff_of_true rfl hSame

theorem node_of_replaced (hWritable : w.fs.Writable path) (hLink : w.fs.NotLink path) :
    (w.fs.put (w.fs.entry path) (newFile contents mode)).node
      ((w.fs.put (w.fs.entry path) (newFile contents mode)).entry path) =
        some (newFile contents mode) := by
  rw [Fs.entry_eq (hWritable.sameLinks hLink contents mode) path]
  exact Fs.put_node_self hWritable.canPut

/-- A failed write leaves an absent or regular destination alone unless it
fails late with a file that was not there already, or the temporary file was
given the very name of the destination. -/
theorem failed_write_unchanged_iff (host : Host) (w : World) (path : Path) (contents : Bytes)
    (mode : Nat)
    (hState : ∃ previous, w.fs.Holds (w.fs.entry path) previous) :
    FailsCleanly host w path contents mode ↔
      ¬(FailsLate host w path ∧ w.fs.node (w.fs.entry path) ≠ some (newFile contents mode)) ∧
        ¬∃ dir, Strands host w path dir ∧ host.tempLoc w dir = w.fs.entry path := by
  obtain ⟨previous, hHolds⟩ := hState
  have hLink : w.fs.NotLink path := fun _ => hHolds.link
  have hResult := run_secureWrite host contents mode hLink
  unfold FailsCleanly
  generalize Program.run host.oracle (secureWrite path contents mode).run w = out at hResult ⊢
  cases hResult with
  | stopped err calls hNot =>
      rw [forall_error_iff]
      refine iff_of_true rfl ⟨fun hLate => hNot (Installs.fills hLate.1.1), ?_⟩
      rintro ⟨dir, hStrands, -⟩
      exact hNot ⟨dir, hStrands.1, hStrands.2.1⟩
  | strayed err calls dir hParent hClear hNot =>
      rw [forall_error_iff, World.after_fs, kept_of_strayed_iff hParent,
        exists_strands_iff ⟨hParent, hClear, hNot⟩]
      constructor
      · intro hApart
        exact ⟨fun hLate => hNot hLate.1.1, hApart⟩
      · intro h
        exact h.2
  | replaced h =>
      have hNone : ¬∃ dir, Strands host w path dir ∧ host.tempLoc w dir = w.fs.entry path := by
        rintro ⟨dir, hStrands, -⟩
        exact hStrands.2.2 h
      cases hSync : host.fails .fsyncDir (w.count .fsyncDir) with
      | false =>
          refine iff_of_true ?_ ⟨fun hLate => ?_, hNone⟩
          · intro err' w' hRun
            cases hRun
          · cases hSync.symm.trans hLate.1.2
      | true =>
          rw [if_pos rfl, forall_error_iff, World.after_fs, node_of_replaced h.writable hLink]
          constructor
          · intro hKept
            exact ⟨fun hChanged => hChanged.2 hKept.symm, hNone⟩
          · rintro ⟨hSame, -⟩
            by_contra hOther
            exact hSame ⟨⟨h, hSync⟩, Ne.symm hOther⟩

/-- A file with other contents, in the root directory. -/
def oldFile : Fs := Fs.bare.put [['f']] (newFile [0x61] 0o644)

def rootFile : Path := Path.parse ['/', 'f']

theorem failed_write_unchanged_rename :
    FailsCleanly (Host.sandbox (fun kind _ => kind == .rename) (fun _ _ _ => .ok ()))
      (World.start oldFile)
      rootFile [0x62] 0o600 := by
  have hState : oldFile.Holds (oldFile.entry rootFile) (some [0x61]) := by
    unfold Fs.Holds
    decide
  refine (failed_write_unchanged_iff _ _ _ _ _ ⟨_, hState⟩).mpr ⟨?_, ?_⟩
  · rintro ⟨⟨hInstalls, -⟩, -⟩
    exact absurd hInstalls.rename (by decide)
  · rintro ⟨dir, -, hSame⟩
    have hPresent : oldFile.node (oldFile.entry rootFile) ≠ none := by decide
    exact hPresent (hSame ▸ tempLoc_absent (w := World.start oldFile))

/-- The directory `fsync` fails, the write reports an error, and the new file
is in place. -/
theorem failed_write_replaces_fsyncDir :
    ¬FailsCleanly (Host.sandbox (fun kind _ => kind == .fsyncDir) (fun _ _ _ => .ok ()))
      (World.start oldFile)
      rootFile [0x62] 0o600 := by
  intro hClean
  have hKept := hClean (.io .other) _ rfl
  exact absurd hKept (by decide)

/-- The names in a directory. -/
def namesIn (fs : Fs) (dir : Loc) : Set Name := {name | fs.node (name :: dir) ≠ none}

/-- After the write the destination directory has the names it had, and that of
the destination if the rename took place. -/
def LeavesNoTemp (host : Host) (w : World) (path : Path) (contents : Bytes) (mode : Nat) : Prop :=
  ∀ dir, path.parent = some dir →
    namesIn (Program.run host.oracle (secureWrite path contents mode).run w).2.fs
      (w.fs.target dir) =
      namesIn w.fs (w.fs.target dir) ∪
        {name | host.Installs w path ∧ name :: w.fs.target dir = w.fs.entry path}

theorem fsyncDir_fs (host : Host) (w : World) (dir : Path) :
    (Program.run host.oracle (fsyncDir dir).run w).2.fs = w.fs := by
  obtain ⟨fs', hWorld, hFs⟩ := host.oracle_fs_world (.fsyncDir dir) w
  rw [fsyncDir, run_io, run_fsCall, hWorld, World.advance_fs]
  rcases hFs with hFs | hFs
  · exact hFs
  · exact hFs

/-- No temporary file is left behind just when the write does not strand: it
stops before its temporary file is finished, or it comes to its rename. -/
theorem write_leaves_no_temp_iff (host : Host) (w : World) (path : Path) (contents : Bytes)
    (mode : Nat) :
    LeavesNoTemp host w path contents mode ↔ ¬∃ dir, Strands host w path dir := by
  have hEffect := run_secureWrite_effect host w path contents mode
  unfold LeavesNoTemp
  generalize Program.run host.oracle (secureWrite path contents mode).run w = out at hEffect ⊢
  cases hEffect with
  | stopped err calls hNot =>
      refine iff_of_true ?_ fun ⟨dir, hStrands⟩ => hNot ⟨dir, hStrands.1, hStrands.2.1⟩
      intro dir _
      ext name
      have hNever : ¬host.Installs w path := fun hInstalls => hNot (Installs.fills hInstalls)
      simp [namesIn, hNever]
  | strayed err calls dir hParent hClear hNot =>
      refine iff_of_false (fun hNames => ?_) fun h => h ⟨dir, hParent, hClear, hNot⟩
      have hTemp : (host.tempName (w.count .createTemp) w.fs (w.fs.target dir)).val ∈ namesIn
          (w.fs.put (host.tempLoc w dir) (newFile contents mode)) (w.fs.target dir) := by
        show (w.fs.put (host.tempLoc w dir) (newFile contents mode)).node (host.tempLoc w dir) ≠
          none
        rw [Fs.put_node_self (canPut_tempLoc hParent)]
        exact Option.some_ne_none _
      have hBefore := hNames dir hParent.named
      rw [World.after_fs] at hBefore
      rw [hBefore] at hTemp
      rcases hTemp with hThere | ⟨hInstalls, -⟩
      · exact hThere tempLoc_absent
      · exact hNot hInstalls
  | replaced dir hParent h =>
      refine iff_of_true ?_ fun ⟨dir, hStrands⟩ => hStrands.2.2 h
      intro dir' _
      rw [fsyncDir_fs, World.after_fs]
      ext name
      simp only [namesIn, Set.mem_union, Set.mem_ofPred_eq,
        Fs.put_node h.writable.canPut, h, true_and]
      split
      · rename_i hSame
        simp [hSame]
      · rename_i hOther
        simp [hOther]

/-- The rename fails, and the temporary file stays. -/
theorem write_leaves_temp_rename :
    ¬LeavesNoTemp (Host.sandbox (fun kind _ => kind == .rename) (fun _ _ _ => .ok ()))
      (World.start oldFile)
      rootFile [0x62] 0o600 := by
  intro hNames
  have hRoot := hNames ⟨true, [], false⟩ rfl
  have hTarget : (World.start oldFile).fs.target ⟨true, [], false⟩ = [] := by decide
  rw [hTarget] at hRoot
  have hTemp : Host.firstTempName ∈ namesIn (Program.run
      (Host.sandbox (fun kind _ => kind == .rename) (fun _ _ _ => .ok ())).oracle
      (secureWrite rootFile [0x62] 0o600).run (World.start oldFile)).2.fs [] := by
    show _ ≠ none
    decide
  rw [hRoot] at hTemp
  rcases hTemp with hThere | ⟨hInstalls, -⟩
  · exact hThere (by decide)
  · exact absurd hInstalls.rename (by decide)

end Security

end MayflyHelper
