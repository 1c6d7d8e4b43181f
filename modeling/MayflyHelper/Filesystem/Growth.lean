import MayflyHelper.Filesystem.Update

/-! Trees that grow by directories. A directory can be added at a path that
names nothing in a directory that is there; the missing directories above a
path are added from the outermost one inwards. -/
namespace MayflyHelper.Fs

variable {fs fs' : Fs} {path : Path} {dir : Node}

/-- A directory can be added at `path`: the way there is open, and nothing
has the name. -/
def Vacant (fs : Fs) (path : Path) : Prop :=
  (fs.resolve false path).error = none ∧ fs.node (fs.entry path) = none ∧ fs.CanPut (fs.entry path)

instance (fs : Fs) (path : Path) : Decidable (fs.Vacant path) :=
  inferInstanceAs (Decidable (_ ∧ _ ∧ _))

/-- A directory `path` would have to be in is missing. -/
def Orphaned (fs : Fs) (path : Path) : Prop :=
  (fs.resolve false path).error = some .notFound ∨
    ((fs.resolve false path).error = none ∧ fs.node (fs.entry path) = none ∧
      ¬ fs.CanPut (fs.entry path))

instance (fs : Fs) (path : Path) : Decidable (fs.Orphaned path) :=
  inferInstanceAs (Decidable (_ ∨ _ ∧ _ ∧ _))

/-- `path` leads to a directory. -/
def LeadsToDir (fs : Fs) (path : Path) : Prop :=
  (fs.resolve true path).error = none ∧ fs.isDir (fs.target path) = true

instance (fs : Fs) (path : Path) : Decidable (fs.LeadsToDir path) :=
  inferInstanceAs (Decidable (_ ∧ _))

/-- The tree with the directory `dir` at `path`, if it can be added there. -/
def withDir (dir : Node) (fs : Fs) (path : Path) : Fs :=
  if fs.Vacant path then fs.put (fs.entry path) dir else fs

/-- The path of some components, which are listed innermost first. -/
def pathOf (absolute : Bool) (components : List Name) : Path :=
  { absolute, components := components.reverse, trailing := false }

/-- The tree with the missing directories down to a path added as far as that
can be done. Its components are listed innermost first. -/
def withDirs (dir : Node) (absolute : Bool) : List Name → Fs → Fs
  | [], fs => fs
  | name :: above, fs =>
      (if fs.Orphaned (pathOf absolute (name :: above)) then fs.withDirs dir absolute above
        else fs).withDir dir (pathOf absolute (name :: above))

/-- `fs'` is `fs` with more directories in it. -/
structure Grows (fs fs' : Fs) : Prop where
  cwd : fs'.cwd = fs.cwd
  kept : ∀ loc node, fs.node loc = some node → fs'.node loc = some node
  added : ∀ loc node, fs.node loc = none → fs'.node loc = some node → node.isDir = true

namespace Grows

variable {fs'' : Fs}

theorem refl (fs : Fs) : Grows fs fs where
  cwd := rfl
  kept := fun _ _ h => h
  added := fun _ _ hAbsent hNode => by
    rw [hAbsent] at hNode
    cases hNode

theorem trans (h : Grows fs fs') (h' : Grows fs' fs'') : Grows fs fs'' where
  cwd := h'.cwd.trans h.cwd
  kept := fun loc node hNode => h'.kept loc node (h.kept loc node hNode)
  added := by
    intro loc node hAbsent hNode
    cases hMiddle : fs'.node loc with
    | none => exact h'.added loc node hMiddle hNode
    | some found =>
        cases hNode.symm.trans (h'.kept loc found hMiddle)
        exact h.added loc node hAbsent hMiddle

/-- A directory of the smaller tree is one of the larger. -/
theorem isDir (h : Grows fs fs') (loc : Loc) (hDir : fs.isDir loc = true) :
    fs'.isDir loc = true := by
  obtain ⟨node, hNode, hHere⟩ := (Option.any_eq_true ..).mp hDir
  rw [Fs.isDir, h.kept loc node hNode]
  exact hHere

/-- Directories are no links, so paths lead where they led. -/
theorem sameLinks (h : Grows fs fs') : SameLinks fs fs' := by
  refine ⟨h.cwd, fun loc => ?_⟩
  unfold link
  cases hNode : fs.node loc with
  | some node => rw [h.kept loc node hNode]
  | none =>
      cases hNew : fs'.node loc with
      | none => rfl
      | some node =>
          have hDir :
              node.kind = .directory := by simpa [Node.isDir] using h.added loc node hNode hNew
          simp [Node.link, hDir]

/-- What is absent from the larger tree was absent before. -/
theorem absent (h : Grows fs fs') {loc : Loc} (hAbsent : fs'.node loc = none) :
    fs.node loc = none := by
  cases hNode : fs.node loc with
  | none => rfl
  | some node => rw [h.kept loc node hNode] at hAbsent; cases hAbsent

/-- What a path leads to in the smaller tree it leads to in the larger. -/
theorem lookup (h : Grows fs fs') {follow : Bool} {node : Node}
    (hLookup : fs.lookup follow path = .ok node) :
    fs'.lookup follow path = .ok node := by
  obtain ⟨hFound, hNode⟩ := lookup_eq_ok_iff.mp hLookup
  refine lookup_eq_ok_iff.mpr ⟨resolve_noError h.sameLinks h.isDir follow path hFound, ?_⟩
  rw [resolve_loc h.sameLinks]
  exact h.kept _ _ hNode

end Grows

section Added

variable (hDir : dir.isDir = true)

include hDir

/-- A new directory is growth. -/
theorem grows_withDir (fs : Fs) (path : Path) : Grows fs (fs.withDir dir path) := by
  unfold withDir
  split
  · rename_i hVacant
    obtain ⟨-, hAbsent, hPut⟩ := hVacant
    refine ⟨put_cwd _ _ _, fun loc node hNode => ?_, fun loc node hBefore hNode => ?_⟩
    · rw [put_node_of_ne hPut]
      · exact hNode
      · rintro rfl
        rw [hAbsent] at hNode
        cases hNode
    · rw [put_node hPut] at hNode
      split at hNode
      · cases hNode
        exact hDir
      · rw [hBefore] at hNode
        cases hNode
  · exact .refl fs

/-- So are the missing directories above it. -/
theorem grows_withDirs (absolute : Bool) (components : List Name) (fs : Fs) :
    Grows fs (fs.withDirs dir absolute components) := by
  induction components with
  | nil => exact .refl fs
  | cons name above ih =>
      unfold withDirs
      split
      · exact ih.trans (grows_withDir hDir _ _)
      · exact grows_withDir hDir _ _

/-- Where a directory was added, the path leads to it. -/
theorem leadsToDir_of_vacant (h : fs.Vacant path) : (fs.withDir dir path).LeadsToDir path := by
  have hGrows := grows_withDir hDir fs path
  have hHere : (fs.withDir dir path).node (fs.entry path) = some dir := by
    rw [withDir, if_pos h, put_node_self h.2.2]
  have hEnd : (fs.withDir dir path).link ((fs.withDir dir path).entry path) = none := by
    rw [entry_eq hGrows.sameLinks, hGrows.sameLinks.link, link_eq_none_of_absent h.2.1]
  refine ⟨?_, ?_⟩
  · rw [resolve_follow path hEnd]
    exact resolve_noError hGrows.sameLinks hGrows.isDir false path h.1
  · rw [target_eq_entry path hEnd, entry_eq hGrows.sameLinks, isDir, hHere]
    exact hDir

end Added

/-- What leads to a directory can be looked up. -/
theorem LeadsToDir.lookup (h : fs.LeadsToDir path) :
    ∃ node, fs.lookup true path = .ok node ∧ node.isDir = true := by
  obtain ⟨node, hNode, hDir⟩ := (Option.any_eq_true ..).mp h.2
  exact ⟨node, lookup_eq_ok_iff.mpr ⟨h.1, hNode⟩, hDir⟩

/-- Where no directory can be added none is. -/
theorem withDir_of_not_vacant (h : ¬ fs.Vacant path) : fs.withDir dir path = fs := if_neg h

/-- Without the directory above there is no place for it. -/
theorem not_vacant_of_orphaned (h : fs.Orphaned path) : ¬ fs.Vacant path := by
  rintro ⟨hFound, -, hPut⟩
  rcases h with hMissing | ⟨-, -, hShut⟩
  · rw [hFound] at hMissing
    cases hMissing
  · exact hShut hPut

/-- What leads to a directory is there. -/
theorem not_leadsToDir_of_orphaned (h : fs.Orphaned path) : ¬ fs.LeadsToDir path := by
  rintro ⟨hFollowed, hDir⟩
  have hFound := resolve_noError_entry hFollowed
  rcases h with hMissing | ⟨-, hAbsent, -⟩
  · rw [hFound] at hMissing
    cases hMissing
  · rw [target_eq_entry path (link_eq_none_of_absent hAbsent), isDir, hAbsent] at hDir
    cases hDir

theorem not_vacant_of_leadsToDir (h : fs.LeadsToDir path) : ¬ fs.Vacant path := by
  rintro ⟨-, hAbsent, -⟩
  have hDir := h.2
  rw [target_eq_entry path (link_eq_none_of_absent hAbsent), isDir, hAbsent] at hDir
  cases hDir

/-- A walk that gets past some names goes through a directory there. -/
theorem walk_passes {follow : Bool} {rest : List Name}
    {onLink onLink' : Loc → Option IoErrorKind → List Name → Resolved} (hRest : rest ≠ [])
    (hErr : ∀ cur err rest, (onLink cur err rest).error = none → err = none)
    (hLink : ∀ cur names, fs.isDir cur = true → (onLink cur none (names ++ rest)).error = none →
      (onLink' cur none names).error = none ∧ fs.isDir (onLink' cur none names).loc = true)
    (cur : Loc) (names : List Name) (hDir : fs.isDir cur = true)
    (hNone : (walk fs follow onLink cur none (names ++ rest)).error = none) :
    (walk fs true onLink' cur none names).error = none ∧
      fs.isDir (walk fs true onLink' cur none names).loc = true := by
  induction names generalizing cur with
  | nil => exact ⟨rfl, hDir⟩
  | cons first names ih =>
      simp only [List.cons_append, walk] at hNone ⊢
      by_cases hCur : first = Path.currentDir
      · simp only [if_pos hCur] at hNone ⊢
        exact ih _ hDir hNone
      by_cases hParent : first = Path.parentDir
      · simp only [if_neg hCur, if_pos hParent] at hNone ⊢
        exact ih _ (isDir_tail hDir) hNone
      simp only [if_neg hCur, if_neg hParent] at hNone ⊢
      have hMore : (names ++ rest).isEmpty = false := by simp [hRest]
      cases hNode : fs.link (first :: cur) with
      | none =>
          simp only [hNode, hMore, Bool.false_or] at hNone ⊢
          have hOpen : fs.isDir (first :: cur) = true := by
            by_contra hShut
            have hClear := walk_error follow hErr _ _ _ hNone
            simp [hShut] at hClear
          simp only [hOpen, Bool.or_true, if_true] at hNone ⊢
          exact ih _ hOpen hNone
      | some target =>
          simp only [hNode, hMore, Bool.false_and, Bool.false_eq_true, if_false, Bool.not_true,
            Bool.and_false] at hNone ⊢
          rw [← List.append_assoc] at hNone
          refine hLink _ _ ?_ hNone
          split
          · exact fs.root
          · exact hDir

/-- A way that goes on passes through a directory. -/
theorem resolveFrom_passes {follow : Bool} {rest : List Name} (hRest : rest ≠ []) (links : Nat)
    (cur : Loc)
    (names : List Name) (hDir : fs.isDir cur = true)
    (hNone : (resolveFrom fs follow links cur none (names ++ rest)).error = none) :
    (resolveFrom fs true links cur none names).error = none ∧
      fs.isDir (resolveFrom fs true links cur none names).loc = true := by
  induction links generalizing cur names with
  | zero =>
      exact walk_passes hRest (fun _ _ _ h => by simp at h) (fun _ _ _ h => by simp at h) cur names
        hDir hNone
  | succ links ih =>
      exact walk_passes hRest (resolveFrom_error follow links) (fun cur names => ih cur names) cur
        names hDir
        hNone

/-- A walk that gets past a proper name goes through a directory there, from
wherever it starts. -/
theorem walk_passes_name {follow : Bool} {name : Name} {rest : List Name}
    {onLink onLink' : Loc → Option IoErrorKind → List Name → Resolved} (hRest : rest ≠ [])
    (hName : name ≠ Path.currentDir ∧ name ≠ Path.parentDir)
    (hErr : ∀ cur err rest, (onLink cur err rest).error = none → err = none)
    (hLink : ∀ cur names, fs.isDir cur = true → (onLink cur none (names ++ rest)).error = none →
      (onLink' cur none names).error = none ∧ fs.isDir (onLink' cur none names).loc = true)
    (cur : Loc) (names : List Name)
    (hNone : (walk fs follow onLink cur none (names ++ [name] ++ rest)).error = none) :
    (walk fs true onLink' cur none (names ++ [name])).error = none ∧
      fs.isDir (walk fs true onLink' cur none (names ++ [name])).loc = true := by
  -- A link, like anything else, is in a directory.
  have hAround : ∀ {cur : Loc} {first : Name} {target : Path},
    fs.link (first :: cur) = some target →
      fs.isDir cur = true := by
    intro cur first target hLink
    refine fs.nested first cur fun hAbsent => ?_
    rw [link_eq_none_of_absent hAbsent] at hLink
    cases hLink
  induction names generalizing cur with
  | nil =>
      cases hNode : fs.link (name :: cur) with
      | some target =>
          exact walk_passes hRest hErr hLink cur [name] (hAround hNode) hNone
      | none =>
          have hMore : rest.isEmpty = false := by simp [hRest]
          simp only [List.nil_append, List.cons_append, walk, if_neg hName.1, if_neg hName.2, hNode,
            hMore, Bool.false_or, List.isEmpty_nil, Bool.true_or, if_true] at hNone ⊢
          refine ⟨trivial, ?_⟩
          by_contra hShut
          have hClear := walk_error follow hErr _ _ _ hNone
          simp [hShut] at hClear
  | cons first names ih =>
      by_cases hCur : first = Path.currentDir
      · simp only [List.cons_append, walk, if_pos hCur] at hNone ⊢
        exact ih _ hNone
      by_cases hParent : first = Path.parentDir
      · simp only [List.cons_append, walk, if_neg hCur, if_pos hParent] at hNone ⊢
        exact ih _ hNone
      cases hNode : fs.link (first :: cur) with
      | some target =>
          exact walk_passes hRest hErr hLink cur (first :: names ++ [name]) (hAround hNode) hNone
      | none =>
          have hOpen : fs.isDir (first :: cur) = true := by
            have hMore : (names ++ [name] ++ rest).isEmpty = false := by simp
            simp only [List.cons_append, walk, if_neg hCur, if_neg hParent, hNode, hMore,
              Bool.false_or] at hNone
            by_contra hShut
            have hClear := walk_error follow hErr _ _ _ hNone
            simp [hShut] at hClear
          have hFirst : fs.isDir cur = true := by
            have hTail := isDir_tail hOpen
            exact hTail
          exact walk_passes hRest hErr hLink cur (first :: names ++ [name]) hFirst hNone

/-- So it does at every name on the way. -/
theorem resolveFrom_passes_name {follow : Bool} {name : Name} {rest : List Name} (hRest : rest ≠ [])
    (hName : name ≠ Path.currentDir ∧ name ≠ Path.parentDir) (links : Nat) (cur : Loc)
    (names : List Name)
    (hNone : (resolveFrom fs follow links cur none (names ++ [name] ++ rest)).error = none) :
    (resolveFrom fs true links cur none (names ++ [name])).error = none ∧
      fs.isDir (resolveFrom fs true links cur none (names ++ [name])).loc = true := by
  cases links with
  | zero =>
      exact walk_passes_name hRest hName (fun _ _ _ h => by simp at h) (fun _ _ _ h => by simp at h)
        cur names hNone
  | succ links =>
      exact walk_passes_name hRest hName (resolveFrom_error follow links)
        (fun cur names => resolveFrom_passes hRest links cur names) cur names hNone

/-- No path goes on from `path`. -/
def Blocks (fs : Fs) (path : Path) : Prop :=
  ∀ name, ∀ names,
    (fs.resolve false ⟨path.absolute, path.components ++ name :: names, false⟩).error ≠ none

/-- What has a proper name and does not lead to a directory blocks the way. -/
theorem blocks_of_name {absolute : Bool} {name : Name} {above : List Name}
    (hName : name ≠ Path.currentDir ∧ name ≠ Path.parentDir)
    (hNot : ¬ fs.LeadsToDir (pathOf absolute (name :: above))) :
    fs.Blocks (pathOf absolute (name :: above)) := by
  intro next names hNone
  refine hNot ?_
  have hFull : ∀ more, (⟨absolute, above.reverse ++ [name] ++ more, false⟩ : Path).isEmpty =
    false := by
    intro more
    simp [Path.isEmpty]
  have hHere : (pathOf absolute (name :: above)).isEmpty = false := by
    simp [pathOf, Path.isEmpty]
  simp only [resolve, pathOf, Path.walked, Bool.false_eq_true, if_false, List.append_nil,
    List.reverse_cons, hFull] at hNone
  have hPasses :=
    resolveFrom_passes_name (List.cons_ne_nil next names) hName _ _ above.reverse hNone
  unfold LeadsToDir target
  simp only [resolve, hHere, Bool.false_eq_true, if_false]
  simpa only [pathOf, Path.walked, Bool.false_eq_true, if_false, List.append_nil, List.reverse_cons]
    using hPasses

/-- The parent is one name shorter. -/
theorem parent_pathOf (absolute : Bool) (name : Name) (above : List Name) :
    (pathOf absolute (name :: above)).parent = some (pathOf absolute above) := by
  simp [pathOf, Path.parent]

/-- A directory entry leads to itself. -/
theorem leadsToDir_of_isDir_entry (hFound : (fs.resolve false path).error = none)
    (hDir : fs.isDir (fs.entry path) = true) : fs.LeadsToDir path := by
  obtain ⟨node, hNode, hHere⟩ := (Option.any_eq_true ..).mp hDir
  have hEnd : fs.link (fs.entry path) = none := by
    have hKind : node.kind = .directory := by simpa [Node.isDir] using hHere
    simp [link, hNode, Node.link, hKind]
  rw [LeadsToDir, resolve_follow path hEnd, target_eq_entry path hEnd]
  exact ⟨hFound, hDir⟩

/-- Below a directory a name is free, or leads to a directory, or is in the way. -/
theorem LeadsToDir.child {absolute : Bool} {above : List Name}
    (h : fs.LeadsToDir (pathOf absolute above))
    (name : Name) :
    fs.Vacant (pathOf absolute (name :: above)) ∨ fs.LeadsToDir (pathOf absolute (name :: above)) ∨
      (¬ fs.LeadsToDir (pathOf absolute (name :: above)) ∧
        fs.Blocks (pathOf absolute (name :: above))) := by
  have hNonempty : (pathOf absolute above).isEmpty = false := by
    by_contra hEmpty
    have hFound := h.1
    rw [resolve, if_pos (by simpa using hEmpty)] at hFound
    cases hFound
  have hParent : fs.OpenParent (pathOf absolute (name :: above)) (pathOf absolute above) :=
    ⟨parent_pathOf absolute name above, hNonempty, h.1, h.2⟩
  obtain ⟨hFound, hPut⟩ := hParent.resolves rfl
  cases hHere : fs.isDir (fs.entry (pathOf absolute (name :: above))) with
  | true => exact Or.inr (Or.inl (leadsToDir_of_isDir_entry hFound hHere))
  | false =>
      by_cases hAbsent : fs.node (fs.entry (pathOf absolute (name :: above))) = none
      · exact Or.inl ⟨hFound, hAbsent, hPut hHere⟩
      by_cases hLeads : fs.LeadsToDir (pathOf absolute (name :: above))
      · exact Or.inr (Or.inl hLeads)
      refine Or.inr (Or.inr ⟨hLeads, blocks_of_name ?_ hLeads⟩)
      -- The dots lead from a directory to directories.
      obtain ⟨last, hLast, hChild⟩ := hParent.child rfl
      obtain rfl : name = last := by simpa [pathOf] using hLast
      rw [entry, hChild] at hHere
      refine ⟨?_, ?_⟩
      · rintro rfl
        rw [below, if_pos rfl, h.2] at hHere
        cases hHere
      · rintro rfl
        rw [below, if_neg (by decide), if_pos rfl, isDir_tail h.2] at hHere
        cases hHere

/-- Adding the missing directories changes nothing, or provides the directory
at the end, or ends at something in the way. -/
theorem withDirs_cases (hDir : dir.isDir = true) (absolute : Bool) (components : List Name)
    (fs : Fs) :
    fs.withDirs dir absolute components = fs ∨
      (fs.withDirs dir absolute components).LeadsToDir (pathOf absolute components) ∨
      (¬ (fs.withDirs dir absolute components).LeadsToDir (pathOf absolute components) ∧
        (fs.withDirs dir absolute components).Blocks (pathOf absolute components)) := by
  induction components with
  | nil => exact Or.inl rfl
  | cons name above ih =>
      rw [withDirs]
      by_cases hOrphaned : fs.Orphaned (pathOf absolute (name :: above))
      · rw [if_pos hOrphaned]
        generalize fs.withDirs dir absolute above = grown at ih ⊢
        rcases ih with rfl | hLeads | ⟨-, hBlocks⟩
        · exact Or.inl (withDir_of_not_vacant (not_vacant_of_orphaned hOrphaned))
        · rcases hLeads.child name with hVacant | hHere | hShut
          · exact Or.inr (Or.inl (leadsToDir_of_vacant hDir hVacant))
          · rw [withDir_of_not_vacant (not_vacant_of_leadsToDir hHere)]
            exact Or.inr (Or.inl hHere)
          · by_cases hVacant : grown.Vacant (pathOf absolute (name :: above))
            · exact Or.inr (Or.inl (leadsToDir_of_vacant hDir hVacant))
            · rw [withDir_of_not_vacant hVacant]
              exact Or.inr (Or.inr hShut)
        · have hShut : (grown.resolve false (pathOf absolute (name :: above))).error ≠ none := by
            simpa [pathOf] using hBlocks name []
          rw [withDir_of_not_vacant fun hVacant => hShut hVacant.1]
          refine Or.inr (Or.inr ⟨fun hLeads => hShut (resolve_noError_entry hLeads.1), ?_⟩)
          intro next names
          have hLonger := hBlocks name (next :: names)
          simpa [pathOf] using hLonger
      · rw [if_neg hOrphaned]
        by_cases hVacant : fs.Vacant (pathOf absolute (name :: above))
        · exact Or.inr (Or.inl (leadsToDir_of_vacant hDir hVacant))
        · exact Or.inl (withDir_of_not_vacant hVacant)

/-- Where the directory above cannot be provided, nothing goes on from there. -/
theorem stops_of_orphaned (hDir : dir.isDir = true) {absolute : Bool} {name : Name}
    {above : List Name}
    (hOrphaned : fs.Orphaned (pathOf absolute (name :: above)))
    (hNot : ¬ (fs.withDirs dir absolute above).LeadsToDir (pathOf absolute above)) :
    ¬ (fs.withDirs dir absolute above).Vacant (pathOf absolute (name :: above)) ∧
      ¬ (fs.withDirs dir absolute above).LeadsToDir (pathOf absolute (name :: above)) := by
  have hCases := withDirs_cases hDir absolute above fs
  generalize fs.withDirs dir absolute above = grown at hNot hCases ⊢
  rcases hCases with rfl | hLeads | ⟨-, hBlocks⟩
  · exact ⟨not_vacant_of_orphaned hOrphaned, not_leadsToDir_of_orphaned hOrphaned⟩
  · exact absurd hLeads hNot
  · have hShut : (grown.resolve false (pathOf absolute (name :: above))).error ≠ none := by
      simpa [pathOf] using hBlocks name []
    exact ⟨fun hVacant => hShut hVacant.1, fun hLeads => hShut (resolve_noError_entry hLeads.1)⟩

/-- What leads anywhere is not missing, so nothing has to be added. -/
theorem withDirs_of_lookup {absolute : Bool} {components : List Name} {node : Node}
    (h : fs.lookup true (pathOf absolute components) = .ok node) :
    fs.withDirs dir absolute components = fs := by
  cases components with
  | nil => rfl
  | cons name above =>
      obtain ⟨hFollowed, hNode⟩ := lookup_eq_ok_iff.mp h
      have hFound := resolve_noError_entry hFollowed
      have hThere : fs.node (fs.entry (pathOf absolute (name :: above))) ≠ none := by
        intro hAbsent
        have hSame := target_eq_entry _ (link_eq_none_of_absent hAbsent)
        rw [target] at hSame
        rw [hSame, hAbsent] at hNode
        cases hNode
      have hReachable : ¬ fs.Orphaned (pathOf absolute (name :: above)) := by
        rintro (hMissing | ⟨-, hAbsent, -⟩)
        · rw [hFound] at hMissing
          cases hMissing
        · exact hThere hAbsent
      rw [withDirs, if_neg hReachable, withDir_of_not_vacant fun hVacant => hThere hVacant.2.1]

end MayflyHelper.Fs
