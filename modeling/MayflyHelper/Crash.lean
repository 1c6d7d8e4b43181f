import MayflyHelper.SecurityRules
import MayflyHelper.Store

/-! The stages of `secureWrite`, with what a crash may leave at each of them.
Every state it passes through belongs to one, those in the middle of a `write`
included. -/
namespace MayflyHelper

open OracleProgram Durability

namespace Security

section Stages

variable {s t : Store} {path : Path} {loc tmp : Loc} {contents bytes : Bytes} {mode bits : Nat}

/-- The trees of a run: the one before, one with a temporary file, and one
with the new file. A temporary file with contents has the mode. -/
inductive Passing (fs : Fs) (path : Path) (tmp : Loc) (contents : Bytes) (mode : Nat) :
    Fs → Prop where
  | before : Passing fs path tmp contents mode fs
  | filling (bytes : Bytes) (bits : Nat) (hPut : fs.CanPut tmp) (hAbsent : fs.node tmp = none)
      (hBits : bytes = [] ∨ bits = mode) : Passing fs path tmp contents mode
      (fs.put tmp (newFile bytes bits))
  | replaced (hWritable : fs.Writable path) :
      Passing fs path tmp contents mode (fs.put (fs.entry path) (newFile contents mode))

/-- What a crash may leave at `loc` is what it might have left before, or the
new file. -/
def Survives (s : Store) (loc : Loc) (new : Node) (t : Store) : Prop :=
  t.ledger.survivors loc ⊆ insert (some new) (s.ledger.survivors loc)

/-- What is kept up throughout. The second part is lost if the temporary file
is given the name of the destination. -/
structure Sound (s : Store) (path : Path) (tmp : Loc) (contents : Bytes) (mode : Nat) (t : Store) :
    Prop where
  tree : Passing s.world.fs path tmp contents mode t.world.fs
  crash : tmp ≠ s.world.fs.entry path → Survives s (s.world.fs.entry path) (newFile contents mode) t

/-- Nothing has happened, or it was undone. -/
structure Untouched (s : Store) (loc tmp : Loc) (t : Store) : Prop where
  fs : t.world.fs = s.world.fs
  survivors : tmp ≠ loc → t.ledger.survivors loc = s.ledger.survivors loc

/-- The temporary file is there, with these contents and permission bits. -/
structure Filling (s : Store) (loc tmp : Loc) (bytes : Bytes) (bits : Nat) (t : Store) : Prop where
  fs : t.world.fs = s.world.fs.put tmp (newFile bytes bits)
  file : ∃ id, t.ledger.inode tmp = some id
  apart : tmp ≠ loc → t.ledger.Apart tmp loc
  survivors : tmp ≠ loc → t.ledger.survivors loc = s.ledger.survivors loc

/-- The temporary file is finished and on disk. -/
structure Filled (s : Store) (loc tmp : Loc) (contents : Bytes) (mode : Nat) (t : Store) : Prop
    extends Filling s loc tmp contents mode t where
  synced : t.ledger.left (t.ledger.inode tmp) = {some (newFile contents mode)}

/-- The destination is the new file. -/
structure Placed (s : Store) (loc tmp : Loc) (new : Node) (t : Store) : Prop where
  fs : t.world.fs = s.world.fs.put loc new
  synced : t.ledger.left (t.ledger.inode loc) = {some new}
  survivors : tmp ≠ loc → t.ledger.survivors loc = insert (some new) (s.ledger.survivors loc)

/-- And the directory that `dir` now leads to is on disk. -/
structure Finished (s : Store) (loc tmp : Loc) (new : Node) (dir : Path) (t : Store) : Prop where
  fs : t.world.fs = s.world.fs.put loc new
  synced : t.ledger.left (t.ledger.inode loc) = {some new}
  settled : (∃ name, loc = name :: t.world.fs.target dir) → t.ledger.earlier loc = ∅
  survivors : tmp ≠ loc → (¬∃ name, loc = name :: t.world.fs.target dir) →
    t.ledger.survivors loc = insert (some new) (s.ledger.survivors loc)

/-- Before the temporary file is made. -/
theorem Untouched.sound (h : Untouched s (s.world.fs.entry path) tmp t) :
    Sound s path tmp contents mode t where
  tree := by
    rw [h.fs]
    exact .before
  crash := by
    intro hApart
    rw [Survives, h.survivors hApart]
    exact Set.subset_insert _ _

/-- While it is filled: nothing of the contents is in it before its mode is
set. -/
theorem Filling.sound (h : Filling s (s.world.fs.entry path) tmp bytes bits t)
    (hPut : s.world.fs.CanPut tmp)
    (hAbsent : s.world.fs.node tmp = none) (hBits : bytes = [] ∨ bits = mode) :
    Sound s path tmp contents mode t where
  tree := by
    rw [h.fs]
    exact .filling bytes bits hPut hAbsent hBits
  crash := by
    intro hApart
    rw [Survives, h.survivors hApart]
    exact Set.subset_insert _ _

/-- After the rename. -/
theorem Placed.sound (h : Placed s (s.world.fs.entry path) tmp (newFile contents mode) t)
    (hWritable : s.world.fs.Writable path) : Sound s path tmp contents mode t where
  tree := by
    rw [h.fs]
    exact .replaced hWritable
  crash := by
    intro hApart
    rw [Survives, h.survivors hApart]

/-- After the directory has been synced. -/
theorem Finished.sound {dir : Path}
    (h : Finished s (s.world.fs.entry path) tmp (newFile contents mode) dir t)
    (hWritable : s.world.fs.Writable path) : Sound s path tmp contents mode t where
  tree := by
    rw [h.fs]
    exact .replaced hWritable
  crash := by
    intro hApart
    by_cases hInside : ∃ name, s.world.fs.entry path = name :: t.world.fs.target dir
    · rw [Survives, Ledger.Standing.survivors ⟨h.settled hInside, h.synced⟩]
      exact Set.singleton_subset_iff.mpr (Set.mem_insert _ _)
    · rw [Survives, h.survivors hApart hInside]

/-- A change of the temporary file is none of the destination. -/
theorem Filling.revise {bytes' : Bytes} {bits' : Nat} {world : World}
    (h : Filling s loc tmp bytes bits t)
    (change : Node → Set Node) (hFs : world.fs = s.world.fs.put tmp (newFile bytes' bits')) :
    Filling s loc tmp bytes' bits' ⟨world, t.ledger.revise tmp change⟩ where
  fs := hFs
  file := h.file
  apart := h.apart
  survivors :=
    fun hApart => (Ledger.survivors_revise (h.apart hApart) change).trans (h.survivors hApart)

end Stages

section Calls

variable {host : Host} {s t : Store} {path dir : Path} {tmp : Loc} {contents : Bytes}
  {mode initial : Nat}

open Fallible (Either)

/-- Wrapping an error makes no calls. -/
theorem yields_io {Value : Type} {P : Store → Prop} {p : HostProgram (Except IoErrorKind Value)}
    {Good : Value → Store → Prop} {Bad : Store → Prop}
    (h : p.Yields (Store.oracle host) Store.during P t (Either Good Bad)) :
    Program.Yields (Store.oracle host) Store.during P (FsCall.io p).run t (Either Good Bad) := by
  refine h.bind ?_
  intro result last hLast hEither
  cases result with
  | ok value => exact .pure hLast hEither
  | error kind => exact .pure hLast hEither

/-- One call, made to fail or performed. -/
theorem yields_fsCall {call : FsCall} {P : Store → Prop} {Q : call.Reply → Store → Prop}
    (hState : P t)
    (hDuring : ∀ middle ∈ Store.during (.fs call) t, P middle)
    (hFails : host.failsAt call (t.world.count call.kind) = true →
      Q call.failed ⟨t.world.advance call.kind t.world.fs, call.persistFailed t.ledger⟩)
    (hPerforms : ∀ reply fs, host.failsAt call (t.world.count call.kind) = false →
      call.perform host (t.world.count call.kind) t.world.fs = (reply, fs) →
      Q reply ⟨t.world.advance call.kind fs,
        call.persist host (t.world.count call.kind) t.world.fs t.ledger⟩)
    (hSound : ∀ reply last, Q reply last → P last) :
    (fsCall call).Yields (Store.oracle host) Store.during P t Q := by
  have hQ : Q (Store.oracle host (.fs call) t).1 (Store.oracle host (.fs call) t).2 := by
    cases h : host.failsAt call (t.world.count call.kind) with
    | true =>
        rw [Store.oracle_of_fails h]
        exact hFails h
    | false =>
        rw [Store.oracle_of_performs h]
        exact hPerforms _ _ h rfl
  exact .call hState hDuring (hSound _ _ hQ) hQ

/-- A call that takes place at once has nothing in between. -/
theorem yields_atOnce {call : FsCall} {P : Store → Prop} {Q : call.Reply → Store → Prop}
    (hAtOnce : Store.during (.fs call) t = ∅) (hState : P t)
    (hFails : host.failsAt call (t.world.count call.kind) = true →
      Q call.failed ⟨t.world.advance call.kind t.world.fs, call.persistFailed t.ledger⟩)
    (hPerforms : ∀ reply fs, host.failsAt call (t.world.count call.kind) = false →
      call.perform host (t.world.count call.kind) t.world.fs = (reply, fs) →
      Q reply ⟨t.world.advance call.kind fs,
        call.persist host (t.world.count call.kind) t.world.fs t.ledger⟩)
    (hSound : ∀ reply last, Q reply last → P last) :
    (fsCall call).Yields (Store.oracle host) Store.during P t Q := by
  refine yields_fsCall hState ?_ hFails hPerforms hSound
  intro middle hMiddle
  rw [hAtOnce] at hMiddle
  exact hMiddle.elim

/-- The new file is empty and private, and nothing else has changed. -/
theorem yields_createTemp (hNamed : path.parent = some dir) (hNonempty : dir.isEmpty = false) :
    (fsCall (.createTemp dir)).Yields (Store.oracle host) Store.during
      (Sound s path (host.tempLoc s.world dir) contents mode) s
      (Either (fun file last => file = ⟨host.tempLoc s.world dir⟩ ∧ s.world.fs.OpenParent path dir ∧
          Filling s (s.world.fs.entry path) (host.tempLoc s.world dir) [] 0o600 last)
        (Untouched s (s.world.fs.entry path) (host.tempLoc s.world dir))) := by
  have hStart : Untouched s (s.world.fs.entry path) (host.tempLoc s.world dir) s :=
    ⟨rfl, fun _ => rfl⟩
  apply yields_atOnce rfl hStart.sound
  · intro _
    exact ⟨rfl, fun _ => rfl⟩
  · intro reply fs _ hPerform
    simp only [FsCall.persist, hPerform]
    simp only [FsCall.perform] at hPerform
    rcases hResolved : s.world.fs.resolve true dir with ⟨found, _ | kind⟩
    · have hFound : found = s.world.fs.target dir := by rw [Fs.target, hResolved]
      subst hFound
      cases hDir : s.world.fs.isDir (s.world.fs.target dir) with
      | false =>
          simp only [hResolved, hDir, Bool.false_eq_true, if_false] at hPerform
          cases hPerform
          exact ⟨rfl, fun _ => rfl⟩
      | true =>
          simp only [hResolved, hDir, if_true] at hPerform
          cases hPerform
          refine ⟨rfl, ⟨hNamed, hNonempty, by rw [hResolved], hDir⟩, rfl, ?_, ?_, ?_⟩
          · exact ⟨s.ledger.next, Function.update_self _ _ _⟩
          · intro hApart
            exact Ledger.apart_create _ hApart.symm
          · intro hApart
            exact Ledger.survivors_create_of_ne _ hApart.symm
    · rw [hResolved] at hPerform
      cases hPerform
      exact ⟨rfl, fun _ => rfl⟩
  · intro reply last h
    cases reply with
    | ok file => exact h.2.2.sound (canPut_tempLoc h.2.1) tempLoc_absent (Or.inl rfl)
    | error kind => exact h.sound

variable (hPut : s.world.fs.CanPut tmp) (hAbsent : s.world.fs.node tmp = none)
include hPut hAbsent

/-- The mode is set while the file is empty. -/
theorem yields_fchmod (h : Filling s (s.world.fs.entry path) tmp [] initial t) :
    (fsCall (.fchmod ⟨tmp⟩ mode)).Yields (Store.oracle host) Store.during
      (Sound s path tmp contents mode) t
      (Either (fun _ => Filling s (s.world.fs.entry path) tmp [] mode)
        (Filling s (s.world.fs.entry path) tmp [] initial)) := by
  apply yields_atOnce rfl (h.sound hPut hAbsent (Or.inl rfl))
  · intro _
    exact ⟨h.fs, h.file, h.apart, h.survivors⟩
  · intro reply fs _ hPerform
    cases hPerform
    refine h.revise _ ?_
    rw [World.advance_fs, h.fs]
    exact Fs.setMode_put hPut mode
  · intro reply last hLast
    cases reply with
    | ok _ => exact Filling.sound hLast hPut hAbsent (Or.inl rfl)
    | error kind => exact Filling.sound hLast hPut hAbsent (Or.inl rfl)

/-- The contents come under the right mode, part by part. -/
theorem yields_write (h : Filling s (s.world.fs.entry path) tmp [] mode t) :
    (fsCall (.write ⟨tmp⟩ contents)).Yields (Store.oracle host) Store.during
      (Sound s path tmp contents mode) t
      (Either (fun _ => Filling s (s.world.fs.entry path) tmp contents mode)
        (Filling s (s.world.fs.entry path) tmp [] mode)) := by
  have hNode : t.world.fs.node tmp = some (newFile [] mode) := by rw [h.fs, Fs.put_node_self hPut]
  have hWritten : ∀ bytes,
    t.world.fs.put tmp (newFile bytes mode) = s.world.fs.put tmp (newFile bytes mode) := by
    intro bytes
    rw [h.fs, Fs.put_put hPut (newFile_isDir _ _)]
  apply yields_fsCall (h.sound hPut hAbsent (Or.inl rfl))
  · rintro _ ⟨node, part, hFound, -, rfl⟩
    cases hNode.symm.trans hFound
    have hPart : Filling s (s.world.fs.entry path) tmp part mode
        ⟨{ t.world with fs := t.world.fs.put tmp (newFile part mode) },
          t.ledger.revise tmp (FsCall.cutOff contents)⟩ := h.revise _ (hWritten part)
    exact hPart.sound hPut hAbsent (Or.inr rfl)
  · intro _
    exact h.revise _ h.fs
  · intro reply fs _ hPerform
    simp only [FsCall.perform, hNode] at hPerform
    cases hPerform
    exact h.revise _ (hWritten contents)
  · intro reply last hLast
    cases reply with
    | ok _ => exact Filling.sound hLast hPut hAbsent (Or.inr rfl)
    | error kind => exact Filling.sound hLast hPut hAbsent (Or.inl rfl)

/-- Then they are on disk, under the name of the temporary file. -/
theorem yields_fsync (h : Filling s (s.world.fs.entry path) tmp contents mode t) :
    (fsCall (.fsync ⟨tmp⟩)).Yields (Store.oracle host) Store.during
      (Sound s path tmp contents mode) t
      (Either (fun _ => Filled s (s.world.fs.entry path) tmp contents mode)
        (Filling s (s.world.fs.entry path) tmp contents mode)) := by
  have hNode :
      t.world.fs.node tmp = some (newFile contents mode) := by rw [h.fs, Fs.put_node_self hPut]
  apply yields_atOnce rfl (h.sound hPut hAbsent (Or.inr rfl))
  · intro _
    exact ⟨h.fs, h.file, h.apart, h.survivors⟩
  · intro reply fs _ hPerform
    cases hPerform
    obtain ⟨id, hId⟩ := h.file
    simp only [FsCall.persist, hNode]
    refine ⟨⟨h.fs, h.file, h.apart, fun hApart => ?_⟩, Ledger.left_sync hId⟩
    exact (Ledger.survivors_sync (h.apart hApart) _).trans (h.survivors hApart)
  · intro reply last hLast
    cases reply with
    | ok _ => exact (Filled.toFilling hLast).sound hPut hAbsent (Or.inr rfl)
    | error kind => exact Filling.sound hLast hPut hAbsent (Or.inr rfl)

/-- A temporary file that is dropped leaves no trace at the destination. -/
theorem yields_dropTemp {bytes : Bytes} {bits : Nat} (hBits : bytes = [] ∨ bits = mode)
    (h : Filling s (s.world.fs.entry path) tmp bytes bits t) :
    (fsCall (.dropTemp ⟨tmp⟩)).Yields (Store.oracle host) Store.during
      (Sound s path tmp contents mode) t
      fun _ => Untouched s (s.world.fs.entry path) tmp := by
  apply yields_atOnce rfl (h.sound hPut hAbsent hBits)
  · intro hFails
    cases hFails
  · intro reply fs _ hPerform
    cases hPerform
    have hFile : t.world.fs.isDir tmp = false := by
      rw [h.fs, Fs.isDir_put hPut (newFile_isDir _ _)]
      exact hPut.2.2
    simp only [FsCall.persist, hFile, Bool.false_eq_true, if_false]
    refine ⟨?_, fun hApart => ?_⟩
    · rw [World.advance_fs, h.fs]
      exact Fs.remove_put hPut (newFile_isDir _ _) hAbsent
    · exact (Ledger.survivors_remove_of_ne hApart.symm).trans (h.survivors hApart)
  · intro _ last hLast
    exact hLast.sound

/-- The finished file takes the place of the destination, or stays where it is. -/
theorem yields_rename (hParent : s.world.fs.OpenParent path dir)
    (h : Filled s (s.world.fs.entry path) tmp contents mode t) :
    (fsCall (.rename ⟨tmp⟩ path)).Yields (Store.oracle host) Store.during
      (Sound s path tmp contents mode) t
      (Either (fun _ last => s.world.fs.Writable path ∧
          Placed s (s.world.fs.entry path) tmp (newFile contents mode) last)
        (Filled s (s.world.fs.entry path) tmp contents mode)) := by
  have hLinks : Fs.SameLinks s.world.fs t.world.fs := by
    rw [h.fs]
    exact Fs.sameLinks_put hPut (Fs.link_eq_none_of_absent hAbsent) rfl
  apply yields_atOnce rfl (h.toFilling.sound hPut hAbsent (Or.inr rfl))
  · intro _
    exact ⟨⟨h.fs, h.file, h.apart, h.survivors⟩, h.synced⟩
  · intro reply fs hClear hPerform
    have hRun := run_io host (fsCall (.rename ⟨tmp⟩ path)) t.world
    rw [run_performs (.rename ⟨tmp⟩ path) hClear hPerform] at hRun
    simp only [FsCall.persist, hPerform]
    rcases run_rename host hParent hPut hAbsent h.fs with ⟨hWritable, -, hRun'⟩ | ⟨-, err, hRun'⟩
    · rw [hRun] at hRun'
      have hFs : fs = _ := congrArg (fun out => out.2.fs) hRun'
      cases reply with
      | error kind => cases hRun'
      | ok _ =>
          refine ⟨hWritable, hFs, ?_, ?_⟩
          all_goals dsimp only; rw [Fs.entry_eq hLinks]
          · split
            · rename_i hSame
              rw [hSame]
              exact h.synced
            · show t.ledger.left (t.ledger.moved _ _ _) = _
              rw [Ledger.moved, if_pos rfl]
              exact h.synced
          · intro hApart
            rw [if_neg hApart.symm, Ledger.survivors_move_dst, h.synced, h.survivors hApart]
            exact Set.singleton_union
    · rw [hRun] at hRun'
      have hFs : fs = t.world.fs := congrArg (fun out => out.2.fs) hRun'
      cases reply with
      | ok _ => cases hRun'
      | error kind => exact ⟨⟨hFs.trans h.fs, h.file, h.apart, h.survivors⟩, h.synced⟩
  · intro reply last hLast
    cases reply with
    | ok _ => exact hLast.2.sound hLast.1
    | error kind => exact (Filled.toFilling hLast).sound hPut hAbsent (Or.inr rfl)

omit hPut hAbsent

/-- Then the rename is. -/
theorem yields_fsyncDir (hWritable : s.world.fs.Writable path)
    (h : Placed s (s.world.fs.entry path) tmp (newFile contents mode) t) :
    (fsCall (.fsyncDir dir)).Yields (Store.oracle host) Store.during
      (Sound s path tmp contents mode) t
      (Either (fun _ => Finished s (s.world.fs.entry path) tmp (newFile contents mode) dir)
        (Placed s (s.world.fs.entry path) tmp (newFile contents mode))) := by
  apply yields_atOnce rfl (h.sound hWritable)
  · intro _
    exact ⟨h.fs, h.synced, h.survivors⟩
  · intro reply fs _ hPerform
    simp only [FsCall.persist, hPerform]
    have hSame : fs = t.world.fs := by
      cases hPerform
      rfl
    subst hSame
    cases reply with
    | error kind => exact ⟨h.fs, h.synced, h.survivors⟩
    | ok _ =>
        refine ⟨h.fs, h.synced, ?_, ?_⟩
        · intro hInside
          ext id
          simp only [Ledger.settle, Set.mem_ofPred_eq, Set.mem_empty_iff_false, iff_false]
          exact fun hId => hId.2 hInside
        · intro hApart hOutside
          have hSettled :
              (t.ledger.settle fun loc => ∃ name, loc = name :: t.world.fs.target dir).survivors
              (s.world.fs.entry path) = _ := Ledger.survivors_settle_of_not hOutside
          exact hSettled.trans (h.survivors hApart)
  · intro reply last hLast
    cases reply with
    | ok _ => exact Finished.sound hLast hWritable
    | error kind => exact Placed.sound hLast hWritable

end Calls

section Write

variable {host : Host} {s t : Store} {path dir : Path} {tmp : Loc} {contents : Bytes}
  {mode initial : Nat}

open Fallible (Either)

theorem parentOf_eq_pure (hNamed : path.parent = some dir) (hNonempty : dir.isEmpty = false) :
    parentOf path = pure dir := by
  simp only [parentOf, hNamed, Option.filter_some, hNonempty, Bool.not_false, if_true]

/-- The temporary file is filled, or it is there with a part of it. -/
theorem yields_fillTemp (hPut : s.world.fs.CanPut tmp) (hAbsent : s.world.fs.node tmp = none)
    (h : Filling s (s.world.fs.entry path) tmp [] initial t) :
    Program.Yields (Store.oracle host) Store.during (Sound s path tmp contents mode)
      (fillTemp ⟨tmp⟩ contents mode).run t
      (Either (fun _ => Filled s (s.world.fs.entry path) tmp contents mode)
        fun last => ∃ bytes bits, (bytes = [] ∨ bits = mode) ∧
          Filling s (s.world.fs.entry path) tmp bytes bits last) := by
  apply Fallible.yields_bind (yields_io (yields_fchmod hPut hAbsent h))
  · intro _ granted hGranted
    apply Fallible.yields_bind (yields_io (yields_write hPut hAbsent hGranted))
    · intro _ written hWritten
      apply (yields_io (yields_fsync hPut hAbsent hWritten)).mono
      intro result last _ hLast
      cases result with
      | ok _ => exact hLast
      | error kind => exact ⟨contents, mode, Or.inr rfl, hLast⟩
    · intro last hLast
      exact ⟨[], mode, Or.inl rfl, hLast⟩
  · intro last hLast
    exact ⟨[], initial, Or.inl rfl, hLast⟩

/-- A failure on the way removes the temporary file. -/
theorem yields_orDrop {action : Action Unit} (hPut : s.world.fs.CanPut tmp)
    (hAbsent : s.world.fs.node tmp = none)
    (h : Program.Yields (Store.oracle host) Store.during
      (Sound s path tmp contents mode) action.run t
      (Either (fun _ => Filled s (s.world.fs.entry path) tmp contents mode)
        fun last => ∃ bytes bits, (bytes = [] ∨ bits = mode) ∧
          Filling s (s.world.fs.entry path) tmp bytes bits last)) :
    Program.Yields (Store.oracle host) Store.during (Sound s path tmp contents mode)
      (orDrop ⟨tmp⟩ action).run t
      (Either (fun _ => Filled s (s.world.fs.entry path) tmp contents mode)
        (Untouched s (s.world.fs.entry path) tmp)) := by
  refine h.bind ?_
  intro result last hLast hResult
  cases result with
  | ok _ => exact .pure hLast hResult
  | error err =>
      obtain ⟨bytes, bits, hBits, hFilling⟩ := hResult
      refine (yields_dropTemp hPut hAbsent hBits hFilling).bind ?_
      intro _ dropped hDropped hUntouched
      exact .pure hDropped hUntouched

/-- The rename and the sync of the directory. -/
theorem yields_atomicReplace (hPut : s.world.fs.CanPut tmp) (hAbsent : s.world.fs.node tmp = none)
    (hParent : s.world.fs.OpenParent path dir)
    (h : Filled s (s.world.fs.entry path) tmp contents mode t) :
    Program.Yields (Store.oracle host) Store.during (Sound s path tmp contents mode)
      (atomicReplace ⟨tmp⟩ path).run t
      (Either (fun _ last => s.world.fs.Writable path ∧
          Finished s (s.world.fs.entry path) tmp (newFile contents mode) dir last)
        fun _ => True) := by
  rw [atomicReplace, parentOf_eq_pure hParent.named hParent.nonempty, Fallible.pure_bind]
  apply Fallible.yields_bind (yields_io (yields_rename hPut hAbsent hParent h))
  · intro _ placed hPlaced
    apply (yields_io (yields_fsyncDir hPlaced.1 hPlaced.2)).mono
    intro result last _ hLast
    cases result with
    | ok _ => exact ⟨hPlaced.1, hLast⟩
    | error kind => trivial
  · intro last _
    trivial

/-- The whole write, at every moment. -/
theorem yields_secureWrite (host : Host) (s : Store) (contents : Bytes) (mode : Nat)
    (hNamed : path.parent = some dir) (hNonempty : dir.isEmpty = false) :
    Program.Yields (Store.oracle host) Store.during
      (Sound s path (host.tempLoc s.world dir) contents mode)
      (secureWrite path contents mode).run s
      (Either (fun _ last => s.world.fs.OpenParent path dir ∧ s.world.fs.Writable path ∧
          Finished s (s.world.fs.entry path) (host.tempLoc s.world dir)
            (newFile contents mode) dir last)
        fun _ => True) := by
  rw [secureWrite, parentOf_eq_pure hNamed hNonempty, Fallible.pure_bind]
  apply Fallible.yields_bind (yields_io (yields_createTemp hNamed hNonempty))
  · rintro _ created ⟨rfl, hParent, hFilling⟩
    have hPut : s.world.fs.CanPut (host.tempLoc s.world dir) := canPut_tempLoc hParent
    have hAbsent : s.world.fs.node (host.tempLoc s.world dir) = none := tempLoc_absent
    apply Fallible.yields_bind (yields_orDrop hPut hAbsent (yields_fillTemp hPut hAbsent hFilling))
    · intro _ filled hFilled
      apply (yields_atomicReplace hPut hAbsent hParent hFilled).mono
      intro result last _ hLast
      cases result with
      | ok _ => exact ⟨hParent, hLast⟩
      | error err => trivial
    · intro last _
      trivial
  · intro last _
    trivial

end Write

end Security

end MayflyHelper
