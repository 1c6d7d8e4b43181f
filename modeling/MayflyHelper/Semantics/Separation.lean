import MayflyHelper.Semantics.Durability

/-! Entries whose files are theirs alone. A change made under another name is
none of what a crash may leave at such an entry. -/
namespace Durability

namespace Ledger

variable {Entry File : Type} {ledger : Ledger Entry File} {entry other : Entry}
  {found : Option File}

/-- No other entry shows a file that `entry` may show after a crash. -/
def Separate (ledger : Ledger Entry File) (entry : Entry) : Prop :=
  ∀ other, other ≠ entry → ledger.Apart other entry

/-- A change of a file adds what may come of it, and only where that file may
be. -/
theorem mem_survivors_revise {change : File → Set File} (h : ledger.Separate entry)
    (hFound : found ∈ (ledger.revise other change).survivors entry) :
    found ∈ ledger.survivors entry ∨
      other = entry ∧ ∃ old file, some old ∈ ledger.survivors entry ∧ file ∈ change old ∧
        found = some file := by
  by_cases hSame : other = entry
  swap
  · rw [survivors_revise (h other hSame)] at hFound
    exact Or.inl hFound
  obtain ⟨id, hId, hLeft⟩ := hFound
  cases id with
  | none => exact Or.inl ⟨none, hId, hLeft⟩
  | some id =>
      obtain ⟨file, hFile, rfl⟩ := hLeft
      rcases hFile with hOld | ⟨-, old, hOld, hChange⟩
      · exact Or.inl ⟨some id, hId, file, hOld, rfl⟩
      · exact Or.inr ⟨hSame, old, file, ⟨some id, hId, old, hOld, rfl⟩, hChange, rfl⟩

/-- A sync of a directory adds nothing. -/
theorem mem_survivors_settle {Inside : Entry → Prop}
    (hFound : found ∈ (ledger.settle Inside).survivors entry) :
    found ∈ ledger.survivors entry := by
  obtain ⟨id, hId, hLeft⟩ := hFound
  rcases hId with hNow | hEarlier
  · exact ⟨id, Or.inl hNow, hLeft⟩
  · exact ⟨id, Or.inr hEarlier.1, hLeft⟩

theorem Separate.settle (h : ledger.Separate entry) (Inside : Entry → Prop) :
    (ledger.settle Inside).Separate entry := by
  intro other hNe id hId hShown
  refine h other hNe id hId ?_
  rcases hShown with hNow | hEarlier
  · exact Or.inl hNow
  · exact Or.inr hEarlier.1

section Entries

variable [DecidableEq Entry] {src dst : Entry} {files : Set File}

/-- On a disk at rest every file is under one name. -/
theorem separate_onDisk (files : List (Entry × File)) (entry : Entry) :
    (onDisk files).Separate entry := by
  intro other hNe id hId hShown
  rcases hShown with hNow | hEarlier
  · exact hNe ((onDisk files).unique other entry id hId hNow.symm)
  · exact hEarlier.elim

/-- A new file adds itself, and only at its own entry. -/
theorem mem_survivors_create (hFound : found ∈ (ledger.create other files).survivors entry) :
    found ∈ ledger.survivors entry ∨ other = entry ∧ ∃ file ∈ files, found = some file := by
  by_cases hSame : entry = other
  swap
  · rw [survivors_create_of_ne files hSame] at hFound
    exact Or.inl hFound
  subst hSame
  obtain ⟨id, hId, hLeft⟩ := hFound
  simp only [shown, create, Function.update_self] at hId
  rcases hId with rfl | hShown
  · obtain ⟨file, hFile, rfl⟩ := hLeft
    simp only [create, Function.update_self] at hFile
    exact Or.inr ⟨rfl, file, hFile, rfl⟩
  · rw [left_create files hShown] at hLeft
    exact Or.inl ⟨id, hShown, hLeft⟩

/-- A removal adds that nothing may be there. -/
theorem mem_survivors_remove (hFound : found ∈ (ledger.remove other).survivors entry) :
    found ∈ ledger.survivors entry ∨ other = entry ∧ found = none := by
  by_cases hSame : entry = other
  swap
  · rw [survivors_remove_of_ne hSame] at hFound
    exact Or.inl hFound
  subst hSame
  obtain ⟨id, hId, hLeft⟩ := hFound
  simp only [shown, remove, Function.update_self] at hId
  rcases hId with rfl | hShown
  · exact Or.inr ⟨rfl, hLeft⟩
  · exact Or.inl ⟨id, hShown, hLeft⟩

theorem shown_move_of_ne (hSrc : entry ≠ src) (hDst : entry ≠ dst) :
    (ledger.move src dst).shown entry = ledger.shown entry := by
  ext id
  simp [shown, move, moved, hSrc, hDst]

/-- A rename adds at its target what may be left of the file. -/
theorem mem_survivors_move (hSrc : entry ≠ src)
    (hFound : found ∈ (ledger.move src dst).survivors entry) :
    found ∈ ledger.survivors entry ∨ dst = entry ∧ found ∈ ledger.left (ledger.inode src) := by
  by_cases hDst : entry = dst
  · subst hDst
    rw [survivors_move_dst] at hFound
    exact hFound.symm.imp_right fun hLeft => ⟨rfl, hLeft⟩
  · have hSame : (ledger.move src dst).survivors entry = ledger.survivors entry :=
      survivors_congr (shown_move_of_ne hSrc hDst) fun _ _ => rfl
    rw [hSame] at hFound
    exact Or.inl hFound

theorem Separate.create (h : ledger.Separate entry) (other : Entry) (files : Set File) :
    (ledger.create other files).Separate entry := by
  intro another hNe id hId hShown
  by_cases hSame : entry = other
  · subst hSame
    simp only [Ledger.create, Function.update_of_ne hNe] at hId
    simp only [shown, Ledger.create, Function.update_self] at hShown
    rcases hShown with hNew | hOld
    · cases hNew
      exact Nat.lt_irrefl _ (ledger.bounded another _ (Or.inl hId))
    · exact h another hNe id hId hOld
  · rw [shown_create_of_ne files hSame] at hShown
    by_cases hOther : another = other
    · subst hOther
      simp only [Ledger.create, Function.update_self, Option.some.injEq] at hId
      rw [← hId] at hShown
      exact next_not_mem_shown hShown
    · simp only [Ledger.create, Function.update_of_ne hOther] at hId
      exact h another hNe id hId hShown

theorem Separate.remove (h : ledger.Separate entry) (other : Entry) :
    (ledger.remove other).Separate entry := by
  intro another hNe id hId hShown
  have hBefore : ledger.inode another = some id := by
    by_cases hOther : another = other
    · subst hOther
      simp only [Ledger.remove, Function.update_self] at hId
      cases hId
    · simpa only [Ledger.remove, Function.update_of_ne hOther] using hId
  refine h another hNe id hBefore ?_
  by_cases hSame : entry = other
  · subst hSame
    simp only [shown, Ledger.remove, Function.update_self] at hShown
    rcases hShown with hNone | hOld
    · cases hNone
    · exact hOld
  · rwa [shown_remove_of_ne hSame] at hShown

/-- The file that is moved keeps out of the way of `entry`, unless it is moved
there; then no other entry shows it. -/
theorem Separate.move (h : ledger.Separate entry) (hSrc : src ≠ entry) :
    (ledger.move src dst).Separate entry := by
  intro another hNe id hId hShown
  have hFrom : ∃ from', from' ≠ entry ∧ ledger.inode from' = some id ∧
    (entry = dst → from' ≠ src) := by
    rcases ledger.moved_eq_some hId with ⟨rfl, hMoved⟩ | ⟨-, hNotSrc, hKept⟩
    · exact ⟨src, hSrc, hMoved, fun hSame => absurd hSame.symm hNe⟩
    · exact ⟨another, hNe, hKept, fun _ => hNotSrc⟩
  obtain ⟨owner, hOwner, hInode, hNotSrc⟩ := hFrom
  by_cases hDst : entry = dst
  · subst hDst
    rcases hShown with hNow | hOld | ⟨-, hOld⟩
    · simp only [Ledger.move, moved, if_true] at hNow
      exact hNotSrc rfl (ledger.unique owner src id hInode hNow.symm)
    · exact h owner hOwner id hInode (Or.inr hOld)
    · exact h owner hOwner id hInode hOld
  · rw [shown_move_of_ne (Ne.symm hSrc) hDst] at hShown
    exact h owner hOwner id hInode hShown

end Entries

end Ledger

end Durability
