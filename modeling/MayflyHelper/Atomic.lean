import MayflyHelper.Crash
import MayflyHelper.Sandbox

/-! `secureWrite` against readers and crashes. -/
namespace MayflyHelper

open OracleProgram Durability

namespace Security

/-- The entry at `loc` is what it was or the new file, and so it is after a
crash. -/
structure Undivided (s : Store) (loc : Loc) (new : Node) (t : Store) : Prop where
  entry : t.world.fs.node loc = s.world.fs.node loc ∨ t.world.fs.node loc = some new
  crash : Survives s loc new t

/-- Whoever opens `path` finds the file that was found there before, if any,
or the new one. -/
def Legible (s : Store) (path : Path) (new : Node) (t : Store) : Prop :=
  (∀ found, t.world.fs.lookup true path = .ok found ↔ s.world.fs.lookup true path = .ok found) ∨
    t.world.fs.lookup true path = .ok new

/-- Every entry that was changed and has contents has the mode. -/
def Guarded (s : Store) (mode : Nat) (t : Store) : Prop :=
  ∀ loc node bytes, t.world.fs.node loc = some node → s.world.fs.node loc ≠ some node →
    node.bytes = some bytes → bytes ≠ [] → node.mode = mode

/-- The temporary file for `path` gets another name than the file at `loc`. -/
def Avoids (host : Host) (s : Store) (path : Path) (loc : Loc) : Prop :=
  ∀ dir, path.parent = some dir → host.tempLoc s.world dir ≠ loc

/-- The way to the directory of `path` is not through `path`: with a file in
its place it is the same. -/
def Detached (fs : Fs) (path : Path) : Prop :=
  fs.Writable path → ∀ dir, path.parent = some dir → ∀ contents mode,
    (fs.put (fs.entry path) (newFile contents mode)).resolve true dir = fs.resolve true dir

namespace Passing

variable {fs fs' : Fs} {path : Path} {tmp : Loc} {contents : Bytes} {mode : Nat}

theorem entry (h : Passing fs path tmp contents mode fs') (hApart : tmp ≠ fs.entry path) :
    fs'.node (fs.entry path) = fs.node (fs.entry path) ∨
      fs'.node (fs.entry path) = some (newFile contents mode) := by
  cases h with
  | before => exact Or.inl rfl
  | filling bytes bits hPut => exact Or.inl (Fs.put_node_of_ne hPut hApart.symm)
  | replaced hWritable => exact Or.inr (Fs.put_node_self hWritable.canPut)

theorem guarded (h : Passing fs path tmp contents mode fs') {loc : Loc} {node : Node}
    {bytes : Bytes}
    (hNode : fs'.node loc = some node) (hChanged : fs.node loc ≠ some node)
    (hBytes : node.bytes = some bytes)
    (hNe : bytes ≠ []) : node.mode = mode := by
  cases h with
  | before => exact absurd hNode hChanged
  | filling part bits hPut hAbsent hBits =>
      rw [Fs.put_node hPut] at hNode
      split at hNode
      · cases hNode
        cases hBytes
        exact hBits.resolve_left hNe
      · exact absurd hNode hChanged
  | replaced hWritable =>
      rw [Fs.put_node hWritable.canPut] at hNode
      split at hNode
      · cases hNode
        rfl
      · exact absurd hNode hChanged

/-- A new file is found by its path if the way there is still open. -/
theorem lookup_replaced (hWritable : fs.Writable path) (hDetached : Detached fs path) :
    (fs.put (fs.entry path) (newFile contents mode)).lookup true path =
      .ok (newFile contents mode) := by
  obtain ⟨dir, hParent⟩ := hWritable.parent
  have hWay := hDetached hWritable dir hParent.named contents mode
  generalize hFs : fs.put (fs.entry path) (newFile contents mode) = fs' at hWay ⊢
  have hTarget : fs'.target dir = fs.target dir := congrArg Fs.Resolved.loc hWay
  have hOpen : fs'.OpenParent path dir := by
    refine ⟨hParent.named, hParent.nonempty, ?_, ?_⟩
    · rw [hWay]
      exact hParent.found
    · rw [hTarget, ← hFs, Fs.isDir_put hWritable.canPut (newFile_isDir _ _)]
      exact hParent.isDir
  have hFile : path.trailing = false := by
    by_contra hTrailing
    have hDir := hParent.isDir_of_trailing (by simpa using hTrailing) hWritable.found
    rw [hWritable.canPut.2.2] at hDir
    cases hDir
  have hNode : fs'.node (fs'.entry path) = some (newFile contents mode) := by
    rw [hParent.entry_eq hOpen hFile hTarget, ← hFs]
    exact Fs.put_node_self hWritable.canPut
  have hLink : fs'.link (fs'.entry path) = none := by
    rw [Fs.link, hNode]
    rfl
  rw [Fs.lookup_eq_ok_iff, Fs.resolve_follow path hLink]
  exact ⟨(hOpen.resolves hFile).1, hNode⟩

theorem legible (h : Passing fs path tmp contents mode fs') (hApart : tmp ≠ fs.target path)
    (hDetached : Detached fs path) :
    (∀ found, fs'.lookup true path = .ok found ↔ fs.lookup true path = .ok found) ∨
      fs'.lookup true path = .ok (newFile contents mode) := by
  cases h with
  | before => exact Or.inl fun _ => Iff.rfl
  | filling bytes bits hPut hAbsent =>
      have hLinks : Fs.SameLinks fs (fs.put tmp (newFile bytes bits)) :=
        Fs.sameLinks_put hPut (Fs.link_eq_none_of_absent hAbsent) rfl
      have hNode : (fs.put tmp (newFile bytes bits)).node (fs.resolve true path).loc =
          fs.node (fs.resolve true path).loc := Fs.put_node_of_ne hPut hApart.symm
      refine Or.inl fun found => ?_
      rw [Fs.lookup_eq_ok_iff, Fs.lookup_eq_ok_iff,
        Fs.resolve_noError_iff hLinks (Fs.isDir_put hPut (newFile_isDir _ _)),
          Fs.resolve_loc hLinks, hNode]
  | replaced hWritable => exact Or.inr (lookup_replaced hWritable hDetached)

end Passing

/-- Over something that is no link there is nothing to get in the way. -/
theorem detached_of_notLink {fs : Fs} {path : Path} (hLink : fs.NotLink path) :
    Detached fs path := by
  intro hWritable dir hNamed contents mode
  obtain ⟨dir', hParent⟩ := hWritable.parent
  cases hNamed.symm.trans hParent.named
  have hLinks := hWritable.sameLinks hLink contents mode
  have hSame := Fs.target_eq hLinks dir
  have hFound :=
    (Fs.resolve_noError_iff hLinks (Fs.isDir_put hWritable.canPut (newFile_isDir _ _)) true dir).mpr
    hParent.found
  generalize fs.put (fs.entry path) (newFile contents mode) = fs' at hSame hFound ⊢
  calc fs'.resolve true dir = ⟨fs'.target dir, none⟩ := by rw [← hFound]; rfl
    _ = ⟨fs.target dir, none⟩ := by rw [hSame]
    _ = fs.resolve true dir := by rw [← hParent.found]; rfl

section Atomic

variable {host : Host} {s : Store} {path dir : Path} {contents : Bytes} {mode : Nat}

/-- Without a parent directory nothing is called. -/
theorem secureWrite_eq_throw (h : ¬∃ dir, path.parent = some dir ∧ dir.isEmpty = false) :
    secureWrite path contents mode = throw .invalidPath := by
  have hNone : path.parent.filter (fun parent => !parent.isEmpty) = none := by
    rw [Option.filter_eq_none_iff]
    intro dir hNamed hNonempty
    exact h ⟨dir, hNamed, by simpa using hNonempty⟩
  simp only [secureWrite, parentOf, hNone]
  rfl

/-- What follows from the stages holds at every moment. -/
theorem throughout_secureWrite {P : Store → Prop} (hStart : P s)
    (hSound : ∀ dir t, path.parent = some dir →
      Sound s path (host.tempLoc s.world dir) contents mode t → P t) :
    Program.Throughout (Store.oracle host) Store.during P
      (secureWrite path contents mode).run s := by
  by_cases hNamed : ∃ dir, path.parent = some dir ∧ dir.isEmpty = false
  · obtain ⟨dir, hNamed, hNonempty⟩ := hNamed
    exact (yields_secureWrite host s contents mode hNamed hNonempty).1.mono fun t =>
      hSound dir t hNamed
  · rw [secureWrite_eq_throw hNamed]
    exact hStart

/-- A success leaves the new file on disk. -/
theorem keeps_of_ok (hDetached : Detached s.world.fs path)
    (hOk : (Program.run (Store.oracle host) (secureWrite path contents mode).run s).1 = .ok ()) :
    Store.Keeps (s.world.fs.entry path) (newFile contents mode)
      (Program.run (Store.oracle host) (secureWrite path contents mode).run s).2 := by
  by_cases hNamed : ∃ dir, path.parent = some dir ∧ dir.isEmpty = false
  swap
  · rw [secureWrite_eq_throw hNamed] at hOk
    cases hOk
  obtain ⟨dir, hNamed, hNonempty⟩ := hNamed
  have hLast := (yields_secureWrite host s contents mode hNamed hNonempty).2
  rw [hOk] at hLast
  obtain ⟨hParent, hWritable, hFinished⟩ := hLast
  have hWay := hDetached hWritable dir hNamed contents mode
  rw [← hFinished.fs] at hWay
  refine ⟨?_, hFinished.settled ?_, hFinished.synced⟩
  · rw [hFinished.fs, Fs.put_node_self hWritable.canPut]
  · rw [Fs.target, hWay]
    exact hParent.entry_of_canPut hWritable.found hWritable.canPut

/-- The empty temporary file is one of the things to be seen on the way. -/
theorem created_of_throughout {P : Store → Prop} (hParent : s.world.fs.OpenParent path dir)
    (hClear : host.fails .createTemp (s.world.count .createTemp) = false)
    (h : Program.Throughout (Store.oracle host) Store.during P
      (secureWrite path contents mode).run s) :
    ∃ t, P t ∧ t.world.fs = s.world.fs.put (host.tempLoc s.world dir) (newFile [] 0o600) := by
  rw [secureWrite, parentOf_eq_pure hParent.named hParent.nonempty, Fallible.pure_bind,
    ExceptT.run_bind] at h
  refine ⟨_, (Program.throughout_bind_iff.mp h).1.last, ?_⟩
  rw [(Store.run_world host _ s).2, run_createTemp hParent hClear, World.after_fs]

/-- If the way to the directory was through the destination, a success leaves
what was there before among what may come back. -/
theorem lost_of_ok (hNamed : path.parent = some dir) (hNonempty : dir.isEmpty = false)
    (hAvoids : Avoids host s path (s.world.fs.entry path))
    (hLost : ¬∃ name, s.world.fs.entry path =
      name :: (s.world.fs.put (s.world.fs.entry path) (newFile contents mode)).target dir)
    (hOk : (Program.run (Store.oracle host) (secureWrite path contents mode).run s).1 = .ok ()) :
    (Program.run (Store.oracle host) (secureWrite path contents mode).run s).2.world.fs =
        s.world.fs.put (s.world.fs.entry path) (newFile contents mode) ∧
      (Program.run (Store.oracle host) (secureWrite path contents mode).run s).2.ledger.survivors
        (s.world.fs.entry path) =
          insert (some (newFile contents mode)) (s.ledger.survivors (s.world.fs.entry path)) := by
  have hLast := (yields_secureWrite host s contents mode hNamed hNonempty).2
  rw [hOk] at hLast
  obtain ⟨-, -, hFinished⟩ := hLast
  refine ⟨hFinished.fs, hFinished.survivors (hAvoids dir hNamed) ?_⟩
  rw [hFinished.fs]
  exact hLost

/-- `secureWrite` is atomic. Unless the temporary file happens to get the name
of the destination, the destination is the old file or the new one at every
moment, and after a crash. So it is for whoever opens it by its path, unless
the path leads to the temporary file or its directory is found through the
destination itself; then a success also means that the new file stays. No
contents are ever under other permission bits. -/
theorem secureWrite_atomic (host : Host) (s : Store) (path : Path) (contents : Bytes) (mode : Nat) :
    (Avoids host s path (s.world.fs.entry path) →
      Program.Throughout (Store.oracle host) Store.during
        (Undivided s (s.world.fs.entry path) (newFile contents mode))
          (secureWrite path contents mode).run s) ∧
    (Avoids host s path (s.world.fs.target path) → Detached s.world.fs path →
      Program.Throughout (Store.oracle host) Store.during
        (Legible s path (newFile contents mode)) (secureWrite path contents mode).run s) ∧
    (Detached s.world.fs path →
      (Program.run (Store.oracle host) (secureWrite path contents mode).run s).1 = .ok () →
      ∀ t, Store.Later host (s.world.fs.entry path)
          (Program.run (Store.oracle host) (secureWrite path contents mode).run s).2 t →
        t.world.fs.node (s.world.fs.entry path) = some (newFile contents mode) ∧
          t.ledger.survivors (s.world.fs.entry path) = {some (newFile contents mode)}) ∧
    Program.Throughout (Store.oracle host) Store.during (Guarded s mode)
      (secureWrite path contents mode).run s := by
  refine ⟨?_, ?_, ?_, ?_⟩
  · intro hAvoids
    apply throughout_secureWrite
    · exact ⟨Or.inl rfl, Set.subset_insert _ _⟩
    · intro dir t hNamed hSound
      exact ⟨hSound.tree.entry (hAvoids dir hNamed), hSound.crash (hAvoids dir hNamed)⟩
  · intro hAvoids hDetached
    apply throughout_secureWrite
    · exact Or.inl fun _ => Iff.rfl
    · intro dir t hNamed hSound
      exact hSound.tree.legible (hAvoids dir hNamed) hDetached
  · intro hDetached hOk t hLater
    have hKeeps := (keeps_of_ok hDetached hOk).later hLater
    exact ⟨hKeeps.node, hKeeps.standing.survivors⟩
  · apply throughout_secureWrite
    · intro loc node bytes hNode hChanged
      exact absurd hNode hChanged
    · intro dir t _ hSound loc node bytes hNode hChanged hBytes hNe
      exact hSound.tree.guarded hNode hChanged hBytes hNe

end Atomic

/-- Every call succeeds, and temporary files get the first name. -/
noncomputable def steady : Host := Host.sandbox Host.noFailures fun _ _ _ => .ok ()

def rootDir : Node := ⟨.directory, 0o755, rootUid⟩

/-- A tree with nothing in it, on disk. -/
def emptyStore : Store := ⟨World.start Fs.bare, .onDisk [([], rootDir)]⟩

def privateFile : Node := newFile [0x61] 0o600

/-- A tree with one file, on disk. -/
def oneFile : Store where
  world := World.start (Fs.bare.put [['k']] privateFile)
  ledger := .onDisk [([], rootDir), ([['k']], privateFile)]

/-- The same tree, the directory not yet synced. -/
def unsyncedFile : Store where
  world := oneFile.world
  ledger := (Ledger.onDisk [([], rootDir)]).create [['k']] {privateFile}

/-- A link that leads to the first name of a temporary file, on disk. -/
def tempLinked : Store where
  world :=
    World.start (Fs.bare.put [['k']] ⟨.symlink (Path.parse "/.tmpAAAAAA".toList), 0o777, rootUid⟩)
  ledger :=
    .onDisk [([], rootDir), ([['k']], ⟨.symlink (Path.parse "/.tmpAAAAAA".toList), 0o777, rootUid⟩)]

def selfLink : Node := ⟨.symlink (Path.parse "/".toList), 0o777, rootUid⟩

/-- A directory with a link to itself in it, on disk. -/
def selfLinked : Store where
  world := World.start (Fs.bare.put [['l']] selfLink)
  ledger := .onDisk [([], rootDir), ([['l']], selfLink)]

theorem secureWrite_atomic_oneFile :
    Program.Throughout (Store.oracle steady) Store.during
      (Undivided oneFile [['k']] (newFile [0x62] 0o644))
      (secureWrite (Path.parse "/k".toList) [0x62] 0o644).run oneFile ∧
    Program.Throughout (Store.oracle steady) Store.during
      (Legible oneFile (Path.parse "/k".toList) (newFile [0x62] 0o644))
      (secureWrite (Path.parse "/k".toList) [0x62] 0o644).run oneFile ∧
    (Program.run (Store.oracle steady) (secureWrite (Path.parse "/k".toList) [0x62] 0o644).run
      oneFile).1 = .ok () ∧
    (Program.run (Store.oracle steady)
      (secureWrite (Path.parse "/k".toList) [0x62] 0o644).run oneFile).2.ledger.survivors [['k']] =
        {some (newFile [0x62] 0o644)} := by
  obtain ⟨hUndivided, hLegible, hDurable, -⟩ :=
    secureWrite_atomic steady oneFile (Path.parse "/k".toList) [0x62] 0o644
  have hAvoids : Avoids steady oneFile (Path.parse "/k".toList) [['k']] := by
    intro dir hNamed
    cases hNamed
    decide
  have hLink : oneFile.world.fs.NotLink (Path.parse "/k".toList) := fun _ => by decide
  have hOk : (Program.run (Store.oracle steady)
      (secureWrite (Path.parse "/k".toList) [0x62] 0o644).run oneFile).1 = .ok () := by
    rw [(Store.run_world steady _ oneFile).1]
    decide
  refine ⟨hUndivided hAvoids, hLegible hAvoids (detached_of_notLink hLink), hOk, ?_⟩
  exact (hDurable (detached_of_notLink hLink) hOk _ .now).2

/-- A destination with the name of the temporary file is seen empty. -/
theorem divided_tempName :
    ¬Program.Throughout (Store.oracle steady) Store.during
      (Undivided emptyStore [Host.firstTempName] (newFile [0x61] 0o644))
      (secureWrite (Path.parse "/.tmpAAAAAA".toList) [0x61] 0o644).run emptyStore := by
  intro hThroughout
  have hParent :
      emptyStore.world.fs.OpenParent (Path.parse "/.tmpAAAAAA".toList) (Path.parse "/".toList) :=
    ⟨by decide, by decide, by decide, by decide⟩
  obtain ⟨t, hUndivided, hFs⟩ := created_of_throughout hParent rfl hThroughout
  have hEntry := hUndivided.entry
  rw [hFs] at hEntry
  exact absurd hEntry (by decide)

/-- So is what a link to that name leads to. -/
theorem illegible_tempLink :
    ¬Program.Throughout (Store.oracle steady) Store.during
      (Legible tempLinked (Path.parse "/k".toList) (newFile [0x61] 0o644))
      (secureWrite (Path.parse "/k".toList) [0x61] 0o644).run tempLinked := by
  intro hThroughout
  have hParent : tempLinked.world.fs.OpenParent (Path.parse "/k".toList) (Path.parse "/".toList) :=
    ⟨by decide, by decide, by decide, by decide⟩
  obtain ⟨t, hLegible, hFs⟩ := created_of_throughout hParent rfl hThroughout
  have hBefore : tempLinked.world.fs.lookup true (Path.parse "/k".toList) =
    .error .notFound := by decide
  have hCreated : (tempLinked.world.fs.put (steady.tempLoc tempLinked.world (Path.parse "/".toList))
      (newFile [] 0o600)).lookup true (Path.parse "/k".toList) = .ok (newFile [] 0o600) := by decide
  rw [Legible, hFs, hCreated] at hLegible
  rcases hLegible with hSame | hNew
  · cases hBefore.symm.trans ((hSame _).mp rfl)
  · cases hNew

/-- A link to its own directory is gone once it is replaced. The directory is
not found again, neither by the last `fsync` nor by readers. -/
theorem lost_selfLink :
    (Program.run (Store.oracle steady) (secureWrite (Path.parse "/l/l".toList) [0x61] 0o644).run
        selfLinked).1 = .ok () ∧
      some selfLink ∈ (Program.run (Store.oracle steady)
        (secureWrite (Path.parse "/l/l".toList) [0x61] 0o644).run selfLinked).2.ledger.survivors
          [['l']] ∧
      ¬Program.Throughout (Store.oracle steady) Store.during
        (Legible selfLinked (Path.parse "/l/l".toList) (newFile [0x61] 0o644))
        (secureWrite (Path.parse "/l/l".toList) [0x61] 0o644).run selfLinked := by
  have hOk :
      (Program.run (Store.oracle steady) (secureWrite (Path.parse "/l/l".toList) [0x61] 0o644).run
      selfLinked).1 = .ok () := by
    rw [(Store.run_world steady _ selfLinked).1]
    decide
  have hAvoids : Avoids steady selfLinked (Path.parse "/l/l".toList) [['l']] := by
    intro dir hNamed
    cases hNamed
    decide
  have hTarget : (selfLinked.world.fs.put [['l']] (newFile [0x61] 0o644)).target
      (Path.parse "/l".toList) = [['l']] := by decide
  have hLost : ¬∃ name, ([['l']] : Loc) = name ::
      (selfLinked.world.fs.put [['l']] (newFile [0x61] 0o644)).target (Path.parse "/l".toList) := by
    rw [hTarget]
    rintro ⟨name, hCons⟩
    cases hCons
  obtain ⟨hFs, hSurvivors⟩ := lost_of_ok (by decide) (by decide) hAvoids hLost hOk
  refine ⟨hOk, ?_, ?_⟩
  · have hBefore : some selfLink ∈ selfLinked.ledger.survivors [['l']] :=
      ⟨some 1, Ledger.mem_shown_inode _ _, selfLink, rfl, rfl⟩
    exact hSurvivors ▸ Set.mem_insert_of_mem _ hBefore
  · intro hThroughout
    have hBefore : selfLinked.world.fs.lookup true (Path.parse "/l/l".toList) =
      .ok rootDir := by decide
    have hAfter : (selfLinked.world.fs.put [['l']] (newFile [0x61] 0o644)).lookup true
        (Path.parse "/l/l".toList) = .error .other := by decide
    have hLast := hThroughout.last
    rw [Legible, hFs] at hLast
    rcases hLast with hSame | hNew
    · cases hAfter.symm.trans ((hSame rootDir).mpr hBefore)
    · cases hAfter.symm.trans hNew

/-- None of this holds without its conditions, and it is only about what the
write does: what was not on disk before may be lost anyway, and contents that
were there already keep their permission bits. -/
theorem secureWrite_not_atomic :
    (¬Program.Throughout (Store.oracle steady) Store.during
      (Undivided emptyStore [Host.firstTempName] (newFile [0x61] 0o644))
      (secureWrite (Path.parse "/.tmpAAAAAA".toList) [0x61] 0o644).run emptyStore) ∧
    (¬Program.Throughout (Store.oracle steady) Store.during
      (Legible tempLinked (Path.parse "/k".toList) (newFile [0x61] 0o644))
      (secureWrite (Path.parse "/k".toList) [0x61] 0o644).run tempLinked) ∧
    ((Program.run (Store.oracle steady) (secureWrite (Path.parse "/l/l".toList) [0x61] 0o644).run
        selfLinked).1 = .ok () ∧
      some selfLink ∈ (Program.run (Store.oracle steady)
        (secureWrite (Path.parse "/l/l".toList) [0x61] 0o644).run selfLinked).2.ledger.survivors
          [['l']] ∧
      ¬Program.Throughout (Store.oracle steady) Store.during
        (Legible selfLinked (Path.parse "/l/l".toList) (newFile [0x61] 0o644))
        (secureWrite (Path.parse "/l/l".toList) [0x61] 0o644).run selfLinked) ∧
    (¬Program.Throughout (Store.oracle steady) Store.during
      (fun t => t.ledger.survivors [['k']] ⊆ {some privateFile, some (newFile [0x62] 0o644)})
      (secureWrite (Path.parse "/k".toList) [0x62] 0o644).run unsyncedFile) ∧
    ¬Program.Throughout (Store.oracle steady) Store.during
      (fun t => ∀ loc node bytes, t.world.fs.node loc = some node → node.bytes = some bytes →
        bytes <+: [0x61] → bytes ≠ [] → node.mode = 0o644)
      (secureWrite (Path.parse "/k".toList) [0x61] 0o644).run oneFile := by
  refine ⟨divided_tempName, illegible_tempLink, lost_selfLink, ?_, ?_⟩
  · intro hThroughout
    have hAbsent : none ∈ unsyncedFile.ledger.survivors [['k']] := ⟨none, Or.inr (Or.inl rfl), rfl⟩
    have hLeft := hThroughout.first hAbsent
    simp at hLeft
  · intro hThroughout
    have hMode :=
      hThroughout.first [['k']] privateFile [0x61] (by decide) rfl (List.prefix_refl _) (by decide)
    exact absurd hMode (by decide)

end Security

end MayflyHelper
