import Mathlib.Data.List.Basic
import Mathlib.Data.Set.Lattice
import Mathlib.Data.Set.Insert
import Mathlib.Logic.Function.Basic

/-! What a crash may leave of named files. A change of an entry may be lost
until its directory is synced, and a change of a file until the file is. The
two are independent: an entry that came back shows what is left of its file. -/
namespace Durability

/-- For every entry the file it shows, and those it showed since its directory
was last synced; for every file what a crash may leave of it. Files are
numbered as they are created, and no two entries show the same one. -/
structure Ledger (Entry File : Type) where
  inode : Entry → Option Nat
  earlier : Entry → Set (Option Nat)
  versions : Nat → Set File
  next : Nat
  bounded : ∀ entry id, inode entry = some id ∨ some id ∈ earlier entry → id < next
  unique : ∀ entry entry' id, inode entry = some id → inode entry' = some id → entry = entry'

namespace Ledger

variable {Entry File : Type} (ledger : Ledger Entry File)

/-- What an entry may show after a crash. -/
def shown (entry : Entry) : Set (Option Nat) := insert (ledger.inode entry) (ledger.earlier entry)

/-- What may be left of a file. -/
def left : Option Nat → Set (Option File)
  | none => {none}
  | some id => some '' ledger.versions id

/-- What a crash may leave at an entry. -/
def survivors (entry : Entry) : Set (Option File) :=
  {found | ∃ id ∈ ledger.shown entry, found ∈ ledger.left id}

/-- The inodes an entry may show have been handed out already. -/
theorem lt_next {entry : Entry} {id : Nat} (h : some id ∈ ledger.shown entry) :
    id < ledger.next := by
  rcases h with hNow | hEarlier
  · exact ledger.bounded entry id (Or.inl hNow.symm)
  · exact ledger.bounded entry id (Or.inr hEarlier)

/-- The inode an entry has now is among those it may show after a crash. -/
theorem mem_shown_inode (entry : Entry) : ledger.inode entry ∈ ledger.shown entry :=
  Set.mem_insert _ _

/-- Survivors depend only on what may be shown and what may be left of that. -/
theorem survivors_congr {ledger ledger' : Ledger Entry File} {entry : Entry}
    (hShown : ledger'.shown entry = ledger.shown entry)
    (hLeft : ∀ id ∈ ledger.shown entry, ledger'.left id = ledger.left id) :
    ledger'.survivors entry = ledger.survivors entry := by
  ext found
  rw [survivors, survivors, hShown]
  constructor
  · rintro ⟨id, hId, hFound⟩
    rw [hLeft id hId] at hFound
    exact ⟨id, hId, hFound⟩
  · rintro ⟨id, hId, hFound⟩
    refine ⟨id, hId, ?_⟩
    rw [hLeft id hId]
    exact hFound

/-- An entry that shows one more file has one more thing to survive. -/
theorem survivors_of_shown_insert {ledger ledger' : Ledger Entry File} {entry : Entry}
    {id : Option Nat}
    (hShown : ledger'.shown entry = insert id (ledger.shown entry))
    (hLeft : ∀ id ∈ ledger.shown entry, ledger'.left id = ledger.left id) :
    ledger'.survivors entry = ledger'.left id ∪ ledger.survivors entry := by
  ext found
  simp only [survivors, hShown, Set.mem_ofPred_eq, Set.mem_insert_iff,
    exists_eq_or_imp, Set.mem_union]
  refine or_congr_right ?_
  constructor
  · rintro ⟨other, hOther, hFound⟩
    rw [hLeft other hOther] at hFound
    exact ⟨other, hOther, hFound⟩
  · rintro ⟨other, hOther, hFound⟩
    refine ⟨other, hOther, ?_⟩
    rw [hLeft other hOther]
    exact hFound

section Files

/-- The file of an entry changes: each of its versions may become others. -/
def revise (entry : Entry) (change : File → Set File) : Ledger Entry File :=
  { ledger with versions := fun id =>
      ledger.versions id ∪ {file | ledger.inode entry = some id ∧ ∃ old ∈ ledger.versions id,
        file ∈ change old} }

/-- The file of an entry is on disk as it is. -/
def sync (entry : Entry) (file : File) : Ledger Entry File :=
  { ledger with versions := fun id =>
      {found | if ledger.inode entry = some id then found = file else found ∈ ledger.versions id} }

/-- The entries of a directory are on disk as they are. -/
def settle (Inside : Entry → Prop) : Ledger Entry File :=
  { ledger with
    earlier := fun entry => {id | id ∈ ledger.earlier entry ∧ ¬Inside entry}
    bounded := by
      intro entry id h
      rcases h with hNow | hEarlier
      · exact ledger.bounded entry id (Or.inl hNow)
      · exact ledger.bounded entry id (Or.inr hEarlier.1) }

variable {ledger} {entry other : Entry}

/-- A new inode is not yet shown anywhere. -/
theorem next_not_mem_shown : some ledger.next ∉ ledger.shown entry :=
  fun h => Nat.lt_irrefl _ (ledger.lt_next h)

/-- A change of one file is none of another inode. -/
theorem left_revise_of_ne {change : File → Set File} {id : Option Nat}
    (h : id = ledger.inode entry → id = none) :
    (ledger.revise entry change).left id = ledger.left id := by
  cases id with
  | none => rfl
  | some id =>
      have hNe : ledger.inode entry ≠ some id := fun hSame => by cases h hSame.symm
      simp [left, revise, hNe]

/-- A sync of one file is none of another inode. -/
theorem left_sync_of_ne {file : File} {id : Option Nat} (h : id = ledger.inode entry → id = none) :
    (ledger.sync entry file).left id = ledger.left id := by
  cases id with
  | none => rfl
  | some id =>
      have hNe : ledger.inode entry ≠ some id := fun hSame => by cases h hSame.symm
      simp [left, sync, hNe]

/-- A file that may be left is left by a change that may not have happened. -/
theorem left_subset_revise (change : File → Set File) (id : Option Nat) :
    ledger.left id ⊆ (ledger.revise entry change).left id := by
  cases id with
  | none => exact subset_rfl
  | some id =>
      rintro _ ⟨found, hFound, rfl⟩
      exact ⟨found, Or.inl hFound, rfl⟩

/-- Where more may be shown, and more may be left of it, more may survive. -/
theorem survivors_subset {ledger' : Ledger Entry File}
    (hShown : ledger.shown entry ⊆ ledger'.shown entry)
    (hLeft : ∀ id ∈ ledger.shown entry, ledger.left id ⊆ ledger'.left id) :
    ledger.survivors entry ⊆ ledger'.survivors entry := by
  rintro found ⟨id, hId, hFound⟩
  exact ⟨id, hShown hId, hLeft id hId hFound⟩

/-- Until a file is synced, a crash may undo its changes. -/
theorem survivors_subset_revise (change : File → Set File) :
    ledger.survivors other ⊆ (ledger.revise entry change).survivors other :=
  survivors_subset subset_rfl fun id _ => left_subset_revise change id

/-- The file of `entry` is none that `other` may show. -/
def Apart (ledger : Ledger Entry File) (entry other : Entry) : Prop :=
  ∀ id, ledger.inode entry = some id → some id ∉ ledger.shown other

/-- Entries that are apart share no file. -/
theorem Apart.eq_none (h : ledger.Apart entry other) {id : Option Nat}
    (hId : id ∈ ledger.shown other)
    (hSame : id = ledger.inode entry) : id = none := by
  cases id with
  | none => rfl
  | some id => exact absurd hId (h id hSame.symm)

/-- A change of one file leaves alone what may survive at an entry apart from
it. -/
theorem survivors_revise (h : ledger.Apart entry other) (change : File → Set File) :
    (ledger.revise entry change).survivors other = ledger.survivors other :=
  survivors_congr rfl fun _ hId => left_revise_of_ne (h.eq_none hId)

/-- So does a sync. -/
theorem survivors_sync (h : ledger.Apart entry other) (file : File) :
    (ledger.sync entry file).survivors other = ledger.survivors other :=
  survivors_congr rfl fun _ hId => left_sync_of_ne (h.eq_none hId)

/-- Once a file is synced, only it is left. -/
theorem left_sync {file : File} {id : Nat} (h : ledger.inode entry = some id) :
    (ledger.sync entry file).left ((ledger.sync entry file).inode entry) = {some file} := by
  show (ledger.sync entry file).left (ledger.inode entry) = _
  rw [h]
  ext found
  simp [left, sync, h, eq_comm]

/-- A directory sync is about the entries inside the directory only. -/
theorem survivors_settle_of_not {Inside : Entry → Prop} (h : ¬Inside entry) :
    (ledger.settle Inside).survivors entry = ledger.survivors entry := by
  refine survivors_congr ?_ fun _ _ => rfl
  ext id
  simp [shown, settle, h]

end Files

section Entries

variable [DecidableEq Entry]

/-- These entries and no others, everything on disk. -/
def onDisk (files : List (Entry × File)) : Ledger Entry File where
  inode := fun entry =>
    if entry ∈ files.map Prod.fst then some ((files.map Prod.fst).idxOf entry) else none
  earlier := fun _ => ∅
  versions := fun id => {file | (files.map Prod.snd)[id]? = some file}
  next := files.length
  bounded := by
    intro entry id h
    rcases h with hNow | hEarlier
    · split at hNow
      · rename_i hMem
        cases hNow
        simpa using List.idxOf_lt_length_of_mem hMem
      · cases hNow
    · exact hEarlier.elim
  unique := by
    intro first second id hFirst hSecond
    split at hFirst
    · rename_i hMem
      split at hSecond
      · exact (List.idxOf_inj hMem).mp
          ((Option.some.inj hFirst).trans (Option.some.inj hSecond).symm)
      · cases hSecond
    · cases hFirst

/-- A new file, of which `files` may be left. -/
def create (entry : Entry) (files : Set File) : Ledger Entry File where
  inode := Function.update ledger.inode entry (some ledger.next)
  earlier := Function.update ledger.earlier entry (ledger.shown entry)
  versions := Function.update ledger.versions ledger.next files
  next := ledger.next + 1
  bounded := by
    intro other id h
    by_cases hSame : other = entry
    · subst hSame
      simp only [Function.update_self, Option.some.injEq] at h
      rcases h with hNew | hShown
      · omega
      · exact Nat.lt_succ_of_lt (ledger.lt_next hShown)
    · simp only [Function.update_of_ne hSame] at h
      exact Nat.lt_succ_of_lt (ledger.bounded other id h)
  unique := by
    intro first second id hFirst hSecond
    have hOld : ∀ other, other ≠ entry → ledger.inode other = some id → id < ledger.next :=
      fun other _ hOther => ledger.bounded other id (Or.inl hOther)
    by_cases hSame : first = entry <;> by_cases hSame' : second = entry
    · rw [hSame, hSame']
    · rw [hSame, Function.update_self, Option.some.injEq] at hFirst
      rw [Function.update_of_ne hSame'] at hSecond
      have hLess := hOld second hSame' hSecond
      omega
    · rw [hSame', Function.update_self, Option.some.injEq] at hSecond
      rw [Function.update_of_ne hSame] at hFirst
      have hLess := hOld first hSame hFirst
      omega
    · rw [Function.update_of_ne hSame] at hFirst
      rw [Function.update_of_ne hSame'] at hSecond
      exact ledger.unique first second id hFirst hSecond

/-- The entry goes away. -/
def remove (entry : Entry) : Ledger Entry File where
  inode := Function.update ledger.inode entry none
  earlier := Function.update ledger.earlier entry (ledger.shown entry)
  versions := ledger.versions
  next := ledger.next
  bounded := by
    intro other id h
    by_cases hSame : other = entry
    · subst hSame
      simp only [Function.update_self, reduceCtorEq, false_or] at h
      exact ledger.lt_next h
    · simp only [Function.update_of_ne hSame] at h
      exact ledger.bounded other id h
  unique := by
    intro first second id hFirst hSecond
    by_cases hSame : first = entry
    · rw [hSame, Function.update_self] at hFirst
      cases hFirst
    by_cases hSame' : second = entry
    · rw [hSame', Function.update_self] at hSecond
      cases hSecond
    rw [Function.update_of_ne hSame] at hFirst
    rw [Function.update_of_ne hSame'] at hSecond
    exact ledger.unique first second id hFirst hSecond

/-- What the entries show once the file of `src` has taken the place of `dst`. -/
def moved (src dst entry : Entry) : Option Nat :=
  if entry = dst then ledger.inode src else if entry = src then none else ledger.inode entry

/-- After a rename an inode stands at the target, or where it stood. -/
theorem moved_eq_some {src dst entry : Entry} {id : Nat}
    (h : ledger.moved src dst entry = some id) :
    (entry = dst ∧ ledger.inode src = some id) ∨
      (entry ≠ dst ∧ entry ≠ src ∧ ledger.inode entry = some id) := by
  unfold moved at h
  split at h
  · rename_i hDst
    exact Or.inl ⟨hDst, h⟩
  split at h
  · cases h
  · rename_i hDst hSrc
    exact Or.inr ⟨hDst, hSrc, h⟩

/-- The file of one entry takes the place of another. -/
def move (src dst : Entry) : Ledger Entry File where
  inode := ledger.moved src dst
  earlier := fun entry =>
    {id | id ∈ ledger.earlier entry ∨ ((entry = dst ∨ entry = src) ∧ id ∈ ledger.shown entry)}
  versions := ledger.versions
  next := ledger.next
  bounded := by
    intro entry id h
    rcases h with hNow | hEarlier | ⟨-, hShown⟩
    · rcases ledger.moved_eq_some hNow with ⟨-, hSrc⟩ | ⟨-, -, hKept⟩
      · exact ledger.bounded src id (Or.inl hSrc)
      · exact ledger.bounded entry id (Or.inl hKept)
    · exact ledger.bounded entry id (Or.inr hEarlier)
    · exact ledger.lt_next hShown
  unique := by
    intro first second id hFirst hSecond
    rcases ledger.moved_eq_some hFirst with ⟨hFirst, hId⟩ | ⟨-, hSrc, hId⟩
    · rcases ledger.moved_eq_some hSecond with ⟨hSecond, -⟩ | ⟨-, hSrc, hId'⟩
      · rw [hFirst, hSecond]
      · exact absurd (ledger.unique second src id hId' hId) hSrc
    · rcases ledger.moved_eq_some hSecond with ⟨-, hId'⟩ | ⟨-, -, hId'⟩
      · exact absurd (ledger.unique first src id hId hId') hSrc
      · exact ledger.unique first second id hId hId'

variable {ledger} {entry other : Entry}

/-- A new file is shown at its own entry only. -/
theorem shown_create_of_ne (files : Set File) (h : other ≠ entry) :
    (ledger.create entry files).shown other = ledger.shown other := by
  simp only [shown, create, Function.update_of_ne h]

/-- The versions of the files there were are not those of the new one. -/
theorem left_create (files : Set File) {id : Option Nat} (h : id ∈ ledger.shown other) :
    (ledger.create entry files).left id = ledger.left id := by
  cases id with
  | none => rfl
  | some id =>
      have hNe : id ≠ ledger.next := Nat.ne_of_lt (ledger.lt_next h)
      simp only [left, create, Function.update_of_ne hNe]

/-- What may survive elsewhere is not changed by a new file. -/
theorem survivors_create_of_ne (files : Set File) (h : other ≠ entry) :
    (ledger.create entry files).survivors other = ledger.survivors other :=
  survivors_congr (shown_create_of_ne files h) fun _ hId => left_create files hId

theorem shown_remove_of_ne (h : other ≠ entry) :
    (ledger.remove entry).shown other = ledger.shown other := by
  simp only [shown, remove, Function.update_of_ne h]

/-- Until its directory is synced, a crash may undo a creation. -/
theorem survivors_subset_create (files : Set File) :
    ledger.survivors other ⊆ (ledger.create entry files).survivors other := by
  refine survivors_subset ?_ fun id hId => (left_create files hId).ge
  by_cases hSame : other = entry
  · subst hSame
    simp only [shown, create, Function.update_self]
    exact Set.subset_insert _ _
  · exact (shown_create_of_ne files hSame).ge

/-- Until its directory is synced, a crash may undo a removal. -/
theorem survivors_subset_remove :
    ledger.survivors other ⊆ (ledger.remove entry).survivors other := by
  refine survivors_subset ?_ fun _ _ => subset_rfl
  by_cases hSame : other = entry
  · subst hSame
    simp only [shown, remove, Function.update_self]
    exact Set.subset_insert _ _
  · exact (shown_remove_of_ne hSame).ge

/-- What may survive elsewhere is not changed by a removal. -/
theorem survivors_remove_of_ne (h : other ≠ entry) :
    (ledger.remove entry).survivors other = ledger.survivors other :=
  survivors_congr (shown_remove_of_ne h) fun _ _ => rfl

/-- Where a file is moved to, it may survive from then on, and what was there
may come back. -/
theorem survivors_move_dst {src dst : Entry} :
    (ledger.move src dst).survivors dst =
      ledger.left (ledger.inode src) ∪ ledger.survivors dst := by
  have hShown : (ledger.move src dst).shown dst = insert (ledger.inode src) (ledger.shown dst) := by
    ext id
    simp only [shown, move, moved, if_true, true_or, true_and, Set.mem_insert_iff,
      Set.mem_ofPred_eq]
    tauto
  exact survivors_of_shown_insert hShown fun _ _ => rfl

/-- Until its directory is synced, a crash may undo a move. -/
theorem survivors_subset_move {src dst : Entry} :
    ledger.survivors other ⊆ (ledger.move src dst).survivors other := by
  refine survivors_subset ?_ fun _ _ => subset_rfl
  rintro id hId
  by_cases hMoved : other = dst ∨ other = src
  · exact Or.inr (Or.inr ⟨hMoved, hId⟩)
  · have hKept : ledger.moved src dst other = ledger.inode other := by
      rw [not_or] at hMoved
      rw [moved, if_neg hMoved.1, if_neg hMoved.2]
    rcases hId with hNow | hEarlier
    · exact Or.inl (hNow.trans hKept.symm)
    · exact Or.inr (Or.inl hEarlier)

/-- A new file has an inode of its own. -/
theorem apart_create (files : Set File) (h : other ≠ entry) :
    (ledger.create entry files).Apart entry other := by
  intro id hId
  rw [shown_create_of_ne files h]
  simp only [create, Function.update_self, Option.some.injEq] at hId
  rw [← hId]
  exact next_not_mem_shown

end Entries

/-- Nothing but `file` can be left at the entry. -/
structure Standing (entry : Entry) (file : File) : Prop where
  earlier : ledger.earlier entry = ∅
  left : ledger.left (ledger.inode entry) = {some file}

namespace Standing

variable {ledger} {entry other : Entry} {file : File}

/-- An entry that stands shows no inode but its own. -/
theorem mem_shown (h : ledger.Standing entry file) {id : Option Nat}
    (hId : id ∈ ledger.shown entry) :
    id = ledger.inode entry := by
  rw [shown, h.earlier] at hId
  rcases hId with hNow | hNone
  · exact hNow
  · exact hNone.elim

/-- Nothing but the file can be left where it stands. -/
theorem survivors (h : ledger.Standing entry file) : ledger.survivors entry = {some file} := by
  ext found
  rw [← h.left]
  constructor
  · rintro ⟨id, hId, hFound⟩
    rw [h.mem_shown hId] at hFound
    exact hFound
  · intro hFound
    exact ⟨_, ledger.mem_shown_inode entry, hFound⟩

/-- No other entry shows the file. -/
theorem apart (h : ledger.Standing entry file) (hNe : other ≠ entry) :
    ledger.Apart other entry := by
  intro id hOther hId
  exact hNe (ledger.unique other entry id hOther (h.mem_shown hId).symm)

/-- It stands through changes of other files. -/
theorem revise (h : ledger.Standing entry file) (hNe : other ≠ entry) (change : File → Set File) :
    (ledger.revise other change).Standing entry file where
  earlier := h.earlier
  left := (left_revise_of_ne ((h.apart hNe).eq_none (ledger.mem_shown_inode entry))).trans h.left

/-- It stands while other files are synced. -/
theorem sync (h : ledger.Standing entry file) (hNe : other ≠ entry) (synced : File) :
    (ledger.sync other synced).Standing entry file where
  earlier := h.earlier
  left := (left_sync_of_ne ((h.apart hNe).eq_none (ledger.mem_shown_inode entry))).trans h.left

/-- Syncing the file once more makes no difference. -/
theorem sync_self (h : ledger.Standing entry file) :
    (ledger.sync entry file).Standing entry file where
  earlier := h.earlier
  left := by
    cases hId : ledger.inode entry with
    | some id => exact left_sync hId
    | none =>
        have hLeft := h.left
        rw [hId] at hLeft
        have hNone : (none : Option File) ∈ ({some file} : Set (Option File)) := hLeft ▸ rfl
        cases hNone

theorem settle (h : ledger.Standing entry file) (Inside : Entry → Prop) :
    (ledger.settle Inside).Standing entry file where
  earlier := by simp [Ledger.settle, h.earlier]
  left := h.left

variable [DecidableEq Entry]

/-- It stands while files are made under other names. -/
theorem create (h : ledger.Standing entry file) (hNe : entry ≠ other) (files : Set File) :
    (ledger.create other files).Standing entry file where
  earlier := by simp only [Ledger.create, Function.update_of_ne hNe, h.earlier]
  left := by
    have hSame : (ledger.create other files).inode entry = ledger.inode entry :=
      Function.update_of_ne hNe _ _
    rw [hSame, left_create files (ledger.mem_shown_inode entry)]
    exact h.left

/-- It stands while other entries are removed. -/
theorem remove (h : ledger.Standing entry file) (hNe : entry ≠ other) :
    (ledger.remove other).Standing entry file where
  earlier := by simp only [Ledger.remove, Function.update_of_ne hNe, h.earlier]
  left := by
    have hSame : (ledger.remove other).inode entry = ledger.inode entry :=
      Function.update_of_ne hNe _ _
    rw [hSame]
    exact h.left

/-- It stands while other files are renamed. -/
theorem move {src dst : Entry} (h : ledger.Standing entry file) (hSrc : entry ≠ src)
    (hDst : entry ≠ dst) :
    (ledger.move src dst).Standing entry file where
  earlier := by simp [Ledger.move, h.earlier, hSrc, hDst]
  left := by
    have hSame : (ledger.move src dst).inode entry = ledger.inode entry := by
      simp [Ledger.move, moved, hSrc, hDst]
    rw [hSame]
    exact h.left

end Standing

/-- What is seen at these entries may be left by a crash. -/
def Tracks (Known : Entry → Prop) (tree : Entry → Option File) : Prop :=
  ∀ entry, Known entry → tree entry ∈ ledger.left (ledger.inode entry)

namespace Tracks

variable {ledger} {Known Known' : Entry → Prop} {tree tree' : Entry → Option File} {entry : Entry}
  {file : File}

/-- What is seen at a known entry may be left there. -/
theorem mem_survivors (h : ledger.Tracks Known tree) (hKnown : Known entry) :
    tree entry ∈ ledger.survivors entry :=
  ⟨_, ledger.mem_shown_inode entry, h entry hKnown⟩

/-- The tree is tracked through a change of a file, which may be seen in any
state of the change. -/
theorem revise (h : ledger.Tracks Known tree) {change : File → Set File}
    (hOther : ∀ other, other ≠ entry → Known' other → Known other ∧ tree' other = tree other)
    (hEntry : Known' entry → Known entry ∧
      (tree' entry = tree entry ∨ ∃ old, tree entry = some old ∧ ∃ new ∈ change old,
        tree' entry = some new)) :
    (ledger.revise entry change).Tracks Known' tree' := by
  intro other hKnown'
  show tree' other ∈ (ledger.revise entry change).left (ledger.inode other)
  by_cases hSame : other = entry
  · subst hSame
    obtain ⟨hKnown, hEq | ⟨old, hOld, new, hNew, hEq⟩⟩ := hEntry hKnown'
    · rw [hEq]
      exact left_subset_revise change _ (h other hKnown)
    · have hBefore := h other hKnown
      rw [hOld] at hBefore
      cases hId : ledger.inode other with
      | none =>
          rw [hId] at hBefore
          cases hBefore
      | some id =>
          rw [hId] at hBefore
          obtain ⟨found, hFound, hTree⟩ := hBefore
          cases hTree
          exact ⟨new, Or.inr ⟨hId, old, hFound, hNew⟩, hEq.symm⟩
  · obtain ⟨hKnown, hEq⟩ := hOther other hSame hKnown'
    rw [hEq]
    exact left_subset_revise change _ (h other hKnown)

/-- A sync of what is seen is tracked. -/
theorem sync (h : ledger.Tracks Known tree) (hEntry : tree entry = some file) :
    (ledger.sync entry file).Tracks Known tree := by
  intro other hKnown
  show tree other ∈ (ledger.sync entry file).left (ledger.inode other)
  by_cases hShared : ledger.inode other = ledger.inode entry ∧ ledger.inode other ≠ none
  · obtain ⟨id, hId⟩ := Option.ne_none_iff_exists'.mp hShared.2
    cases ledger.unique other entry id hId (hShared.1 ▸ hId)
    have hLeft : (ledger.sync entry file).left (ledger.inode entry) = {some file} := left_sync hId
    rw [hLeft, hEntry]
    rfl
  · rw [left_sync_of_ne]
    · exact h other hKnown
    · intro hSame
      by_contra hNone
      exact hShared ⟨hSame, hNone⟩

theorem settle (h : ledger.Tracks Known tree) (Inside : Entry → Prop) :
    (ledger.settle Inside).Tracks Known tree := h

variable [DecidableEq Entry]

/-- A new file is tracked with its first version. -/
theorem create (h : ledger.Tracks Known tree) {files : Set File}
    (hOther : ∀ other, other ≠ entry → Known' other → Known other ∧ tree' other = tree other)
    (hEntry : ∃ file ∈ files, tree' entry = some file) :
    (ledger.create entry files).Tracks Known' tree' := by
  intro other hKnown'
  by_cases hSame : other = entry
  · subst hSame
    obtain ⟨file, hFile, hTree⟩ := hEntry
    have hInode : (ledger.create other files).inode other = some ledger.next :=
      Function.update_self _ _ _
    rw [hInode, hTree]
    refine ⟨file, ?_, rfl⟩
    show file ∈ Function.update ledger.versions ledger.next files ledger.next
    rw [Function.update_self]
    exact hFile
  · obtain ⟨hKnown, hEq⟩ := hOther other hSame hKnown'
    have hInode : (ledger.create entry files).inode other = ledger.inode other :=
      Function.update_of_ne hSame _ _
    rw [hEq, hInode, left_create files (ledger.mem_shown_inode other)]
    exact h other hKnown

/-- A removed entry is tracked as gone. -/
theorem remove (h : ledger.Tracks Known tree)
    (hOther : ∀ other, other ≠ entry → Known' other → Known other ∧ tree' other = tree other)
    (hEntry : tree' entry = none) : (ledger.remove entry).Tracks Known' tree' := by
  intro other hKnown'
  by_cases hSame : other = entry
  · subst hSame
    have hInode : (ledger.remove other).inode other = none := Function.update_self _ _ _
    rw [hInode, hEntry]
    rfl
  · obtain ⟨hKnown, hEq⟩ := hOther other hSame hKnown'
    have hInode : (ledger.remove entry).inode other = ledger.inode other :=
      Function.update_of_ne hSame _ _
    rw [hEq, hInode]
    exact h other hKnown

/-- A rename is tracked with the file now under its new name. -/
theorem move {src dst : Entry} (h : ledger.Tracks Known tree)
    (hDst : Known' dst → Known src ∧ tree' dst = tree src)
    (hSrc : Known' src → src ≠ dst → tree' src = none)
    (hOther : ∀ other, other ≠ src → other ≠ dst → Known' other → Known other ∧
      tree' other = tree other) :
    (ledger.move src dst).Tracks Known' tree' := by
  intro other hKnown'
  show tree' other ∈ ledger.left (ledger.moved src dst other)
  unfold moved
  split
  · rename_i hSame
    subst hSame
    obtain ⟨hKnown, hEq⟩ := hDst hKnown'
    rw [hEq]
    exact h src hKnown
  rename_i hNotDst
  split
  · rename_i hSame
    subst hSame
    rw [hSrc hKnown' hNotDst]
    rfl
  · rename_i hNotSrc
    obtain ⟨hKnown, hEq⟩ := hOther other hNotSrc hNotDst hKnown'
    rw [hEq]
    exact h other hKnown

end Tracks

end Ledger

end Durability
