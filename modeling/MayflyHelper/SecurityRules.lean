import MayflyHelper.Filesystem.Update
import MayflyHelper.HostRules
import MayflyHelper.Security

/-! What `secureWrite` does, whichever calls fail. There are three ways out:
nothing happened, the finished temporary file was left behind, or the
destination was replaced. Only the last can be a success. -/
namespace MayflyHelper

open OracleProgram

/-- A file as the helper writes it. -/
def newFile (contents : Bytes) (mode : Nat) : Node := ⟨.regular contents, mode, rootUid⟩

@[simp] theorem newFile_isDir (contents : Bytes) (mode : Nat) :
    (newFile contents mode).isDir = false :=
  rfl

@[simp] theorem newFile_bytes (contents : Bytes) (mode : Nat) :
    (newFile contents mode).bytes = some contents := rfl

/-- `path` names an entry that `secureWrite` can replace. -/
structure Fs.Writable (fs : Fs) (path : Path) : Prop where
  parent : ∃ dir, fs.OpenParent path dir
  found : (fs.resolve false path).error = none
  canPut : fs.CanPut (fs.entry path)

/-- `fs'` is `fs` with a finished temporary file left behind. -/
def Fs.Strays (fs fs' : Fs) : Prop :=
  ∃ name dir contents mode, tempPrefix.isPrefixOf name = true ∧ fs.isDir dir = true ∧
    fs.node (name :: dir) = none ∧ fs' = fs.put (name :: dir) (newFile contents mode)

/-- A stray file is no link. -/
theorem Fs.Strays.sameLinks {fs fs' : Fs} (h : fs.Strays fs') : Fs.SameLinks fs fs' := by
  obtain ⟨name, dir, contents, mode, -, hDir, hAbsent, rfl⟩ := h
  exact Fs.sameLinks_put (Fs.canPut_of_absent hDir hAbsent) (Fs.link_eq_none_of_absent hAbsent) rfl

/-- A stray file takes the place of nothing. -/
theorem Fs.Strays.node {fs fs' : Fs} (h : fs.Strays fs') {loc : Loc} (hNode : fs.node loc ≠ none) :
    fs'.node loc = fs.node loc := by
  obtain ⟨name, dir, contents, mode, -, hDir, hAbsent, rfl⟩ := h
  refine Fs.put_node_of_ne (Fs.canPut_of_absent hDir hAbsent) ?_
  rintro rfl
  exact hNode hAbsent

/-- Where the next temporary file in `dir` is created. -/
def Host.tempLoc (host : Host) (w : World) (dir : Path) : Loc :=
  (host.tempName (w.count .createTemp) w.fs (w.fs.target dir)).val :: w.fs.target dir

/-- The calls that make a finished temporary file. -/
def FsKind.filling : List FsKind := [.createTemp, .fchmod, .write, .fsync]

/-- The calls of a `secureWrite` that gets to its end, latest first. -/
def FsKind.writing : List FsKind := [.fsyncDir, .rename, .fsync, .write, .fchmod, .createTemp]

/-- The next `secureWrite` of `path` gets as far as the rename. -/
structure Host.Installs (host : Host) (w : World) (path : Path) : Prop where
  writable : w.fs.Writable path
  clear : host.Clear w FsKind.filling
  rename : host.fails .rename (w.count .rename) = false

/-- The three ways out of `secureWrite`, each with what leads there. A failing
directory `fsync` comes too late to matter to the names. -/
inductive WriteResult (host : Host) (w : World) (path : Path) (contents : Bytes) (mode : Nat) :
    Except Error Unit × World → Prop where
  | stopped (err : Error) (calls : List FsKind)
      (hNot : ¬ ∃ dir, w.fs.OpenParent path dir ∧ host.Clear w FsKind.filling) :
      WriteResult host w path contents mode (.error err, w.after calls w.fs)
  | strayed (err : Error) (calls : List FsKind) (dir : Path) (hParent : w.fs.OpenParent path dir)
      (hClear : host.Clear w FsKind.filling)
      (hNot : ¬ host.Installs w path) :
      WriteResult host w path contents mode
        (.error err, w.after calls (w.fs.put (host.tempLoc w dir) (newFile contents mode)))
  | replaced (h : host.Installs w path) :
      WriteResult host w path contents mode
        (if host.fails .fsyncDir (w.count .fsyncDir) then .error (.io .other) else .ok (),
          w.after FsKind.writing (w.fs.put (w.fs.entry path) (newFile contents mode)))

/-- The same for every destination. Over a link the directory `fsync` may not
find the directory again, so its result is left open. -/
inductive WriteEffect (host : Host) (w : World) (path : Path) (contents : Bytes) (mode : Nat) :
    Except Error Unit × World → Prop where
  | stopped (err : Error) (calls : List FsKind)
      (hNot : ¬ ∃ dir, w.fs.OpenParent path dir ∧ host.Clear w FsKind.filling) :
      WriteEffect host w path contents mode (.error err, w.after calls w.fs)
  | strayed (err : Error) (calls : List FsKind) (dir : Path) (hParent : w.fs.OpenParent path dir)
      (hClear : host.Clear w FsKind.filling)
      (hNot : ¬ host.Installs w path) :
      WriteEffect host w path contents mode
        (.error err, w.after calls (w.fs.put (host.tempLoc w dir) (newFile contents mode)))
  | replaced (dir : Path) (hParent : w.fs.OpenParent path dir) (h : host.Installs w path) :
      WriteEffect host w path contents mode
        (Program.run host.oracle (Security.fsyncDir dir).run
          (w.after FsKind.writing.tail (w.fs.put (w.fs.entry path) (newFile contents mode))))

/-- Writing a file where there is no link keeps every lookup. -/
theorem Fs.Writable.sameLinks {fs : Fs} {path : Path} (h : fs.Writable path)
    (hLink : fs.NotLink path)
    (contents : Bytes) (mode : Nat) :
    Fs.SameLinks fs (fs.put (fs.entry path) (newFile contents mode)) :=
  Fs.sameLinks_put h.canPut (hLink h.found) rfl

namespace Security

variable {host : Host} {w : World} {path dir : Path} {contents : Bytes} {mode : Nat}

/-- Nothing has the name of the next temporary file. -/
theorem tempLoc_absent : w.fs.node (host.tempLoc w dir) = none :=
  (host.tempName (w.count .createTemp) w.fs (w.fs.target dir)).property.2

/-- So it can be made in an open directory. -/
theorem canPut_tempLoc (h : w.fs.OpenParent path dir) : w.fs.CanPut (host.tempLoc w dir) :=
  Fs.canPut_of_absent h.isDir tempLoc_absent

/-- Left behind, it is a stray. -/
theorem strays_tempLoc (h : w.fs.OpenParent path dir) :
    w.fs.Strays (w.fs.put (host.tempLoc w dir) (newFile contents mode)) :=
  ⟨_, _, contents, mode, (host.tempName (w.count .createTemp) w.fs (w.fs.target dir)).property.1,
    h.isDir, tempLoc_absent, rfl⟩

/-- A path with a named parent. -/
theorem parentOf_eq_ok (hNamed : path.parent = some dir) (hNonempty : dir.isEmpty = false) :
    Program.run host.oracle (parentOf path).run w = (.ok dir, w) := by
  simp only [parentOf, hNamed, Option.filter_some, hNonempty, Bool.not_false, if_true]
  rfl

/-- A path without one is refused before any call. -/
theorem parentOf_eq_error (h : ∀ dir, path.parent = some dir → dir.isEmpty = true) :
    Program.run host.oracle (parentOf path).run w = (.error .invalidPath, w) := by
  have hNone : path.parent.filter (fun parent => !parent.isEmpty) = none := by
    cases hParent : path.parent with
    | none => rfl
    | some dir => simp [h dir hParent]
  simp only [parentOf, hNone]
  rfl

/-- The temporary file is made empty and private. -/
theorem run_createTemp (h : w.fs.OpenParent path dir)
    (hClear : host.fails .createTemp (w.count .createTemp) = false) :
    Program.run host.oracle (FsCall.io (fsCall (.createTemp dir))).run w =
      (.ok ⟨host.tempLoc w dir⟩,
        w.after [.createTemp] (w.fs.put (host.tempLoc w dir) (newFile [] 0o600))) := by
  have hResolved : w.fs.resolve true dir = ⟨w.fs.target dir, none⟩ := by
    rw [← h.found]
    rfl
  refine run_io_ok (run_performs (.createTemp dir) ?_ ?_)
  · simpa [Host.failsAt, FsCall.kind] using hClear
  · simp only [FsCall.perform, hResolved, h.isDir, if_true]
    rfl

/-- It is not made where the directory cannot be reached, or the call fails. -/
theorem run_createTemp_error (host : Host) (w : World) (dir : Path)
    (h : ¬ ((w.fs.resolve true dir).error = none ∧ w.fs.isDir (w.fs.target dir) = true ∧
      host.fails .createTemp (w.count .createTemp) = false)) :
    ∃ err, Program.run host.oracle (FsCall.io (fsCall (.createTemp dir))).run w =
      (.error err, w.after [.createTemp] w.fs) := by
  cases hFails : host.fails .createTemp (w.count .createTemp) with
  | true =>
      refine ⟨.io .other, run_io_error (run_fails (.createTemp dir) ?_)⟩
      simpa [Host.failsAt, FsCall.kind] using hFails
  | false =>
      have hShut : ∃ kind, FsCall.perform host (w.count .createTemp) (.createTemp dir) w.fs =
          (.error kind, w.fs) := by
        simp only [FsCall.perform]
        rcases hResolved : w.fs.resolve true dir with ⟨loc, _ | kind⟩
        · have hNotDir : w.fs.isDir loc = false := by
            simpa [hResolved, hFails, Fs.target] using h
          exact ⟨w.fs.obstacle loc, by simp only [hNotDir, Bool.false_eq_true, if_false]⟩
        · exact ⟨kind, rfl⟩
      obtain ⟨kind, hPerform⟩ := hShut
      refine ⟨.io kind, run_io_error (run_performs (.createTemp dir) ?_ hPerform)⟩
      simpa [Host.failsAt, FsCall.kind] using hFails

section Fill

variable {base : Fs} {tmp : Loc} {initial : Nat}

/-- Its mode is set. -/
theorem run_fchmod {bytes : Bytes} (hPut : base.CanPut tmp)
    (hFs : w.fs = base.put tmp (newFile bytes initial))
    (hClear : host.fails .fchmod (w.count .fchmod) = false) :
    Program.run host.oracle (FsCall.io (fsCall (.fchmod ⟨tmp⟩ mode))).run w =
      (.ok (), w.after [.fchmod] (base.put tmp (newFile bytes mode))) := by
  refine run_io_ok (run_performs (.fchmod ⟨tmp⟩ mode) ?_ ?_)
  · simpa [Host.failsAt, FsCall.kind] using hClear
  · simp only [FsCall.perform, hFs, Fs.setMode_put hPut]
    rfl

/-- It is filled by the `write_all` step. -/
theorem run_write (hPut : base.CanPut tmp) (hFs : w.fs = base.put tmp (newFile [] initial))
    (hClear : host.fails .write (w.count .write) = false) :
    Program.run host.oracle (FsCall.io (fsCall (.write ⟨tmp⟩ contents))).run w =
      (.ok (), w.after [.write] (base.put tmp (newFile contents initial))) := by
  refine run_io_ok (run_performs (.write ⟨tmp⟩ contents) ?_ ?_)
  · simpa [Host.failsAt, FsCall.kind] using hClear
  · simp only [FsCall.perform, hFs, Fs.put_node_self hPut, Fs.put_put hPut (newFile_isDir _ _)]
    rfl

theorem run_fsync (hClear : host.fails .fsync (w.count .fsync) = false) :
    Program.run host.oracle (FsCall.io (fsCall (.fsync ⟨tmp⟩))).run w =
      (.ok (), w.after [.fsync] w.fs) := by
  refine run_io_ok (run_performs (.fsync ⟨tmp⟩) ?_ rfl)
  simpa [Host.failsAt, FsCall.kind] using hClear

/-- A guard does nothing after a success. -/
theorem run_orDrop_ok {action : Action Unit} {w' : World}
    (h : Program.run host.oracle action.run w = (.ok (), w')) :
    Program.run host.oracle (orDrop ⟨tmp⟩ action).run w = (.ok (), w') := by
  simp only [orDrop, ExceptT.run_mk, Program.run_bind, run_attempt, h, Program.run_pure]

/-- After a failure the temporary file is removed, and the tree is as it was. -/
theorem run_orDrop_error {action : Action Unit} {err : Error} {w' : World} {node : Node}
    (hPut : base.CanPut tmp) (hAbsent : base.node tmp = none) (hNode : node.isDir = false)
    (h : Program.run host.oracle action.run w = (.error err, w'))
    (hFs : w'.fs = base.put tmp node) :
    Program.run host.oracle (orDrop ⟨tmp⟩ action).run w =
      (.error err, w'.after [.dropTemp] base) := by
  have hDrop : (fsCall (.dropTemp ⟨tmp⟩)).run host.oracle w' = ((), w'.after [.dropTemp] base) := by
    refine run_performs (.dropTemp ⟨tmp⟩) rfl ?_
    simp only [FsCall.perform, hFs, Fs.remove_put hPut hNode hAbsent]
  simp only [orDrop, ExceptT.run_mk, Program.run_bind, run_attempt, h, hDrop, Program.run_pure]

/-- The three steps in a row, none of which fails. -/
theorem run_fillTemp (hPut : base.CanPut tmp) (hFs : w.fs = base.put tmp (newFile [] initial))
    (hClear : host.Clear w [.fchmod, .write, .fsync]) :
    Program.run host.oracle (fillTemp ⟨tmp⟩ contents mode).run w =
      (.ok (), w.after [.fsync, .write, .fchmod] (base.put tmp (newFile contents mode))) := by
  simp only [Host.Clear, List.forall_mem_cons] at hClear
  obtain ⟨hFchmod, hWrite, hFsync, -⟩ := hClear
  rw [fillTemp, Fallible.run_bind_ok (run_fchmod hPut hFs hFchmod),
    Fallible.run_bind_ok (run_write hPut rfl (by simpa using hWrite)),
      run_fsync (by simpa using hFsync)]
  simp

/-- A failure on the way leaves an unfinished temporary file. -/
theorem run_fillTemp_error (contents : Bytes) (mode : Nat) (hPut : base.CanPut tmp)
    (hFs : w.fs = base.put tmp (newFile [] initial))
    (hFails : ¬ host.Clear w [.fchmod, .write, .fsync]) :
    ∃ err calls node, node.isDir = false ∧
      Program.run host.oracle (fillTemp ⟨tmp⟩ contents mode).run w =
      (.error err, w.after calls (base.put tmp node)) := by
  cases hFchmod : host.fails .fchmod (w.count .fchmod) with
  | true =>
      have hStop := run_io_error (run_fails (.fchmod ⟨tmp⟩ mode)
        (by simpa [Host.failsAt, FsCall.kind] using hFchmod))
      exact ⟨_, _, _, newFile_isDir _ _, by rw [fillTemp, Fallible.run_bind_error hStop, hFs]⟩
  | false =>
      rw [fillTemp, Fallible.run_bind_ok (run_fchmod hPut hFs hFchmod)]
      cases hWrite : host.fails .write (w.count .write) with
      | true =>
          have hStop :=
            run_io_error (run_fails (w := w.after [.fchmod] (base.put tmp (newFile [] mode)))
            (.write ⟨tmp⟩ contents) (by simpa [Host.failsAt, FsCall.kind] using hWrite))
          exact ⟨_, _, _,
            newFile_isDir _ _, by rw [Fallible.run_bind_error hStop, World.after_after]; rfl⟩
      | false =>
          have hFsync : host.fails .fsync (w.count .fsync) = true := by
            by_contra hClear
            simp [Host.Clear, hFchmod, hWrite, hClear] at hFails
          rw [Fallible.run_bind_ok (run_write hPut rfl (by simpa using hWrite)), World.after_after]
          have hStop := run_io_error (run_fails
            (w := w.after ([.write] ++ [.fchmod]) (base.put tmp (newFile contents mode)))
            (.fsync ⟨tmp⟩) (by simpa [Host.failsAt, FsCall.kind] using hFsync))
          exact ⟨_, _, _, newFile_isDir _ _, by rw [hStop, World.after_after]; rfl⟩

end Fill

/-- Syncing a directory changes nothing that is seen. -/
theorem run_fsyncDir (h : w.fs.OpenParent path dir) :
    Program.run host.oracle (fsyncDir dir).run w =
      (if host.fails .fsyncDir (w.count .fsyncDir) then .error (.io .other) else .ok (),
        w.after [.fsyncDir] w.fs) := by
  cases hFails : host.fails .fsyncDir (w.count .fsyncDir) with
  | true =>
      exact run_io_error
        (run_fails (.fsyncDir dir) (by simpa [Host.failsAt, FsCall.kind] using hFails))
  | false =>
      refine run_io_ok (run_performs (.fsyncDir dir) ?_ ?_)
      · simpa [Host.failsAt, FsCall.kind] using hFails
      · have hResolved : w.fs.resolve true dir = ⟨w.fs.target dir, none⟩ := by
          rw [← h.found]
          rfl
        obtain ⟨node, hNode, -⟩ := (Option.any_eq_true _ _).mp h.isDir
        simp only [FsCall.perform, Fs.lookup, hResolved, hNode]
        rfl

/-- Renaming the finished temporary file replaces the destination entry, or
changes nothing. -/
theorem run_rename (host : Host) {base : Fs} {tmp : Loc} (hParent : base.OpenParent path dir)
    (hPut : base.CanPut tmp) (hAbsent : base.node tmp = none)
    (hFs : w.fs = base.put tmp (newFile contents mode)) :
    (base.Writable path ∧ host.fails .rename (w.count .rename) = false ∧
      Program.run host.oracle (FsCall.io (fsCall (.rename ⟨tmp⟩ path))).run w =
        (.ok (), w.after [.rename] (base.put (base.entry path) (newFile contents mode)))) ∨
    (¬ (base.Writable path ∧ host.fails .rename (w.count .rename) = false) ∧ ∃ err,
      Program.run host.oracle (FsCall.io (fsCall (.rename ⟨tmp⟩ path))).run w =
        (.error err, w.after [.rename] w.fs)) := by
  have hLinks : Fs.SameLinks base w.fs := by
    rw [hFs]
    exact Fs.sameLinks_put hPut (Fs.link_eq_none_of_absent hAbsent) rfl
  have hDir : ∀ loc, w.fs.isDir loc = base.isDir loc := by
    rw [hFs]
    exact Fs.isDir_put hPut rfl
  have hNode : w.fs.node tmp = some (newFile contents mode) := by
    rw [hFs, Fs.put_node_self hPut]
  have hCanPut : w.fs.CanPut (base.entry path) ↔ base.CanPut (base.entry path) := by
    rw [hFs, Fs.canPut_put hPut rfl]
  cases hFails : host.fails .rename (w.count .rename) with
  | true =>
      refine Or.inr ⟨by simp, _, run_io_error (run_fails (.rename ⟨tmp⟩ path) ?_)⟩
      simpa [Host.failsAt, FsCall.kind] using hFails
  | false =>
      have hFailsAt : host.failsAt (.rename ⟨tmp⟩ path) (w.count .rename) = false := by
        simpa [Host.failsAt, FsCall.kind] using hFails
      rcases hResolved : w.fs.resolve false path with ⟨loc, _ | kind⟩
      · have hLoc : loc = base.entry path := by
          rw [← Fs.entry_eq hLinks, Fs.entry, hResolved]
        have hFound : (base.resolve false path).error = none := by
          rw [← Fs.resolve_noError_iff hLinks hDir, hResolved]
        by_cases hTemp : base.entry path = tmp
        · refine Or.inl ⟨⟨⟨dir, hParent⟩, hFound, hTemp ▸ hPut⟩, rfl, ?_⟩
          refine run_io_ok (run_performs (.rename ⟨tmp⟩ path) hFailsAt ?_)
          simp only [FsCall.perform, FsCall.atEntry, hResolved, hNode, hLoc, hTemp, if_true]
          rw [hFs]
        by_cases hCan : base.CanPut (base.entry path)
        · refine Or.inl ⟨⟨⟨dir, hParent⟩, hFound, hCan⟩, rfl, ?_⟩
          refine run_io_ok (run_performs (.rename ⟨tmp⟩ path) hFailsAt ?_)
          simp only [FsCall.perform, FsCall.atEntry, hResolved, hNode, hLoc, if_neg hTemp,
            if_pos (hCanPut.mpr hCan)]
          rw [hFs, Fs.move_put hPut hAbsent hCan rfl hTemp]
        · refine Or.inr ⟨fun h => hCan h.1.canPut, .io .other, ?_⟩
          refine run_io_error (run_performs (.rename ⟨tmp⟩ path) hFailsAt ?_)
          simp only [FsCall.perform, FsCall.atEntry, hResolved, hNode, hLoc, if_neg hTemp,
            if_neg (fun h => hCan (hCanPut.mp h))]
      · refine Or.inr ⟨fun h => ?_, .io kind, ?_⟩
        · have hFound := (Fs.resolve_noError_iff hLinks hDir false path).mpr h.1.found
          simp [hResolved] at hFound
        · refine run_io_error (run_performs (.rename ⟨tmp⟩ path) hFailsAt ?_)
          simp only [FsCall.perform, FsCall.atEntry, hResolved]

/-- From a finished temporary file to the end. -/
theorem run_atomicReplace (host : Host) {base : Fs} {tmp : Loc} (hParent : base.OpenParent path dir)
    (hPut : base.CanPut tmp) (hAbsent : base.node tmp = none)
    (hFs : w.fs = base.put tmp (newFile contents mode)) :
    (base.Writable path ∧ host.fails .rename (w.count .rename) = false ∧
      Program.run host.oracle (atomicReplace ⟨tmp⟩ path).run w =
        Program.run host.oracle (fsyncDir dir).run
          (w.after [.rename] (base.put (base.entry path) (newFile contents mode)))) ∨
    (¬ (base.Writable path ∧ host.fails .rename (w.count .rename) = false) ∧ ∃ err,
      Program.run host.oracle (atomicReplace ⟨tmp⟩ path).run w =
        (.error err, w.after [.rename] w.fs)) := by
  rw [atomicReplace, Fallible.run_bind_ok (parentOf_eq_ok hParent.named hParent.nonempty)]
  rcases run_rename host hParent hPut hAbsent hFs with
    ⟨hWritable, hRename, hRun⟩ | ⟨hNot, err, hRun⟩
  · exact Or.inl ⟨hWritable, hRename, Fallible.run_bind_ok hRun⟩
  · exact Or.inr ⟨hNot, err, Fallible.run_bind_error hRun⟩

/-- Every run of `secureWrite` ends in one of the three ways. -/
theorem run_secureWrite_effect (host : Host) (w : World) (path : Path) (contents : Bytes)
    (mode : Nat) :
    WriteEffect host w path contents mode
      (Program.run host.oracle (secureWrite path contents mode).run w) := by
  rw [secureWrite]
  by_cases hNamed : ∃ dir, path.parent = some dir ∧ dir.isEmpty = false
  swap
  · rw [Fallible.run_bind_error (parentOf_eq_error fun dir hDir => by
      by_contra hNe
      exact hNamed ⟨dir, hDir, by simpa using hNe⟩)]
    exact .stopped _ [] fun ⟨dir, hParent, _⟩ => hNamed ⟨dir, hParent.named, hParent.nonempty⟩
  obtain ⟨dir, hNamed, hNonempty⟩ := hNamed
  rw [Fallible.run_bind_ok (parentOf_eq_ok hNamed hNonempty)]
  have hUnique : ∀ dir', w.fs.OpenParent path dir' → dir' = dir := fun dir' h => by
    simpa [hNamed] using h.named.symm
  by_cases hOpen : w.fs.OpenParent path dir ∧ host.fails .createTemp (w.count .createTemp) = false
  swap
  · obtain ⟨err, hRun⟩ := run_createTemp_error host w dir fun h =>
      hOpen ⟨⟨hNamed, hNonempty, h.1, h.2.1⟩, h.2.2⟩
    rw [Fallible.run_bind_error hRun]
    refine .stopped err _ fun ⟨dir', hParent, hClear⟩ => hOpen ?_
    exact ⟨hUnique dir' hParent ▸ hParent, hClear .createTemp (by decide)⟩
  obtain ⟨hParent, hCreate⟩ := hOpen
  rw [Fallible.run_bind_ok (run_createTemp hParent hCreate)]
  have hPut : w.fs.CanPut (host.tempLoc w dir) := canPut_tempLoc hParent
  have hAbsent : w.fs.node (host.tempLoc w dir) = none := tempLoc_absent
  have hFilling : host.Clear w FsKind.filling ↔ host.Clear
      (w.after [.createTemp] (w.fs.put (host.tempLoc w dir) (newFile [] 0o600)))
      [.fchmod, .write, .fsync] := by
    rw [Host.clear_after _ (by decide)]
    simp [FsKind.filling, Host.Clear, hCreate]
  by_cases hClear : host.Clear w FsKind.filling
  swap
  · obtain ⟨err, calls, node, hNode, hFill⟩ := run_fillTemp_error contents mode hPut rfl
      (fun h => hClear (hFilling.mpr h))
    rw [Fallible.run_bind_error (run_orDrop_error hPut hAbsent hNode hFill rfl)]
    simp only [World.after_after]
    exact .stopped err _ fun ⟨_, _, h⟩ => hClear h
  rw [Fallible.run_bind_ok (run_orDrop_ok (run_fillTemp hPut rfl (hFilling.mp hClear))),
    World.after_after]
  have hFilled := World.after_fs w (w.fs.put (host.tempLoc w dir) (newFile contents mode))
    ([.fsync, .write, .fchmod] ++ [.createTemp])
  rcases run_atomicReplace host hParent hPut hAbsent hFilled with
    ⟨hWritable, hRename, hRun⟩ | ⟨hNot, err, hRun⟩
  · rw [hRun, World.after_after]
    exact .replaced dir hParent ⟨hWritable, hClear, by simpa using hRename⟩
  · rw [hRun]
    simp only [World.after_after]
    refine .strayed err _ dir hParent hClear fun h => hNot ⟨h.writable, ?_⟩
    simpa using h.rename

/-- On something that is no link the parent directory is there to be synced. -/
theorem run_secureWrite (host : Host) (contents : Bytes) (mode : Nat) (hLink : w.fs.NotLink path) :
    WriteResult host w path contents mode
      (Program.run host.oracle (secureWrite path contents mode).run w) := by
  have hEffect := run_secureWrite_effect host w path contents mode
  generalize Program.run host.oracle (secureWrite path contents mode).run w = out at hEffect ⊢
  cases hEffect with
  | stopped err calls hNot => exact .stopped err calls hNot
  | strayed err calls dir hParent hClear hNot => exact .strayed err calls dir hParent hClear hNot
  | replaced dir hParent h =>
      have hLater : (w.fs.put (w.fs.entry path) (newFile contents mode)).OpenParent path dir := by
        refine hParent.mono (h.writable.sameLinks hLink _ _) fun loc hLoc => ?_
        rw [Fs.isDir_put h.writable.canPut rfl]
        exact hLoc
      rw [run_fsyncDir hLater, World.after_after]
      exact .replaced h

end Security
end MayflyHelper
