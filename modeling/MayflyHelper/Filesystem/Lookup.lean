import MayflyHelper.Filesystem.Tree

/-! How lookups survive updates. Where a path leads depends only on the links
of the tree; whether the walk meets an error depends, besides, on which
locations are directories. -/
namespace MayflyHelper.Fs

variable {fs fs' : Fs}

/-- The two trees have the same links, and relative paths start alike. -/
structure SameLinks (fs fs' : Fs) : Prop where
  cwd : fs'.cwd = fs.cwd
  link : ∀ loc, fs'.link loc = fs.link loc

theorem SameLinks.refl (fs : Fs) : SameLinks fs fs := ⟨rfl, fun _ => rfl⟩

theorem SameLinks.symm (h : SameLinks fs fs') : SameLinks fs' fs :=
  ⟨h.cwd.symm, fun loc => (h.link loc).symm⟩

theorem SameLinks.trans {fs'' : Fs} (h : SameLinks fs fs') (h' : SameLinks fs' fs'') :
    SameLinks fs fs'' :=
  ⟨h'.cwd.trans h.cwd, fun loc => (h'.link loc).trans (h.link loc)⟩

/-- Where a walk leads does not depend on the errors met on the way. -/
theorem walk_loc (h : SameLinks fs fs') (follow : Bool)
    {onLink onLink' : Loc → Option IoErrorKind → List Name → Resolved}
    (hLink : ∀ cur err err' rest, (onLink' cur err' rest).loc = (onLink cur err rest).loc)
    (cur : Loc) (err err' : Option IoErrorKind) (names : List Name) :
    (walk fs' follow onLink' cur err' names).loc = (walk fs follow onLink cur err names).loc := by
  induction names generalizing cur err err' with
  | nil => rfl
  | cons name rest ih =>
      simp only [walk, h.link]
      split
      · exact ih _ _ _
      split
      · exact ih _ _ _
      cases hNode : fs.link (name :: cur) with
      | none => exact ih _ _ _
      | some target =>
          dsimp only
          split
          · rfl
          · exact hLink _ _ _ _

/-- The location depends on the links only, however many of them are
followed. -/
theorem resolveFrom_loc (h : SameLinks fs fs') (follow : Bool) (links : Nat)
    (cur : Loc) (err err' : Option IoErrorKind) (names : List Name) :
    (resolveFrom fs' follow links cur err' names).loc =
      (resolveFrom fs follow links cur err names).loc := by
  induction links generalizing cur err err' names with
  | zero =>
      refine walk_loc h follow ?_ cur err err' names
      intro _ _ _ _
      rfl
  | succ links ih =>
      exact walk_loc h follow (fun cur err err' rest => ih cur err err' rest) cur err err' names

/-- Changing files and directories never changes where a path leads. -/
theorem resolve_loc (h : SameLinks fs fs') (follow : Bool) (path : Path) :
    (fs'.resolve follow path).loc = (fs.resolve follow path).loc := by
  simp only [resolve, h.cwd]
  split
  · rfl
  · exact resolveFrom_loc h follow _ _ _ _ _

/-- The entry of a path stays where it is as long as the links stay. -/
theorem entry_eq (h : SameLinks fs fs') (path : Path) : fs'.entry path = fs.entry path :=
  resolve_loc h false path

/-- So does what the path leads to. -/
theorem target_eq (h : SameLinks fs fs') (path : Path) : fs'.target path = fs.target path :=
  resolve_loc h true path

/-- An error met early in a walk is still there at its end. -/
theorem walk_error {onLink : Loc → Option IoErrorKind → List Name → Resolved} (follow : Bool)
    (hLink : ∀ cur err rest, (onLink cur err rest).error = none → err = none)
    (cur : Loc) (err : Option IoErrorKind) (names : List Name)
    (hNone : (walk fs follow onLink cur err names).error = none) : err = none := by
  induction names generalizing cur err with
  | nil => exact hNone
  | cons name rest ih =>
      simp only [walk] at hNone
      split at hNone
      · exact ih _ _ hNone
      split at hNone
      · exact ih _ _ hNone
      cases hNode : fs.link (name :: cur) with
      | none =>
          have h := ih _ _ (by simpa only [hNode] using hNone)
          split at h
          · exact h
          · simp at h
      | some target =>
          simp only [hNode] at hNone
          split at hNone
          · exact hNone
          · exact hLink _ _ _ hNone

/-- An error met before a walk is the error of the walk. -/
theorem resolveFrom_error (follow : Bool) (links : Nat) (cur : Loc)
    (err : Option IoErrorKind) (names : List Name)
    (hNone : (resolveFrom fs follow links cur err names).error = none) : err = none := by
  induction links generalizing cur err names with
  | zero => exact walk_error follow (fun cur err _ h => by simp at h) cur err names hNone
  | succ links ih => exact walk_error follow ih cur err names hNone

/-- A walk that meets no error meets none in a tree with more directories. -/
theorem walk_noError (h : SameLinks fs fs')
    (hDir : ∀ loc, fs.isDir loc = true → fs'.isDir loc = true)
    (follow : Bool) {onLink onLink' : Loc → Option IoErrorKind → List Name → Resolved}
    (hLink : ∀ cur err rest, (onLink cur err rest).error = none → err = none)
    (hLink' : ∀ cur rest, (onLink cur none rest).error = none →
      (onLink' cur none rest).error = none)
    (cur : Loc) (names : List Name)
    (hNone : (walk fs follow onLink cur none names).error = none) :
    (walk fs' follow onLink' cur none names).error = none := by
  induction names generalizing cur with
  | nil => rfl
  | cons name rest ih =>
      simp only [walk, h.link] at hNone ⊢
      by_cases hCur : name = Path.currentDir
      · simp only [if_pos hCur] at hNone ⊢
        exact ih _ hNone
      by_cases hParent : name = Path.parentDir
      · simp only [if_neg hCur, if_pos hParent] at hNone ⊢
        exact ih _ hNone
      simp only [if_neg hCur, if_neg hParent] at hNone ⊢
      cases hNode : fs.link (name :: cur) with
      | none =>
          simp only [hNode] at hNone ⊢
          have hClear := walk_error follow hLink _ _ _ hNone
          have hOpen : (rest.isEmpty || fs.isDir (name :: cur)) = true := by
            by_contra hShut
            simp [hShut] at hClear
          have hOpen' : (rest.isEmpty || fs'.isDir (name :: cur)) = true := by
            rcases Bool.or_eq_true _ _ ▸ hOpen with hRest | hHere
            · simp [hRest]
            · simp [hDir _ hHere]
          simp only [hOpen, hOpen', if_true] at hNone ⊢
          exact ih _ hNone
      | some target =>
          simp only [hNode] at hNone ⊢
          split at hNone
          · rename_i hStop
            simp [hStop]
          · rename_i hGo
            simp only [hGo]
            exact hLink' _ _ hNone

/-- Where directories stay, a way that was clear stays clear. -/
theorem resolveFrom_noError (h : SameLinks fs fs')
    (hDir : ∀ loc, fs.isDir loc = true → fs'.isDir loc = true)
    (follow : Bool) (links : Nat) (cur : Loc) (names : List Name)
    (hNone : (resolveFrom fs follow links cur none names).error = none) :
    (resolveFrom fs' follow links cur none names).error = none := by
  induction links generalizing cur names with
  | zero =>
      exact walk_noError h hDir follow (fun _ _ _ hErr => by simp at hErr)
        (fun _ _ hErr => by simp at hErr) cur names hNone
  | succ links ih =>
      exact walk_noError h hDir follow (resolveFrom_error follow links) ih cur names hNone

theorem resolve_noError (h : SameLinks fs fs')
    (hDir : ∀ loc, fs.isDir loc = true → fs'.isDir loc = true) (follow : Bool) (path : Path)
    (hNone : (fs.resolve follow path).error = none) : (fs'.resolve follow path).error = none := by
  simp only [resolve, h.cwd] at hNone ⊢
  split at hNone
  · simp at hNone
  · rename_i hFull
    simp only [hFull]
    exact resolveFrom_noError h hDir follow _ _ _ hNone

/-- Whether the way is clear depends on the links and the directories only. -/
theorem resolve_noError_iff (h : SameLinks fs fs') (hDir : ∀ loc, fs'.isDir loc = fs.isDir loc)
    (follow : Bool) (path : Path) :
    (fs'.resolve follow path).error = none ↔ (fs.resolve follow path).error = none :=
  ⟨resolve_noError h.symm (fun loc hLoc => hDir loc ▸ hLoc) follow path,
    resolve_noError h (fun loc hLoc => (hDir loc).symm ▸ hLoc) follow path⟩

/-- If a path can be followed to its end, nothing is wrong before the end. -/
theorem walk_noError_entry {onLink onLink' : Loc → Option IoErrorKind → List Name → Resolved}
    (hErr : ∀ cur err rest, (onLink cur err rest).error = none → err = none)
    (hLink : ∀ cur err rest, (onLink cur err rest).error = none →
      (onLink' cur err rest).error = none)
    (cur : Loc) (err : Option IoErrorKind) (names : List Name)
    (hNone : (walk fs true onLink cur err names).error = none) :
    (walk fs false onLink' cur err names).error = none := by
  induction names generalizing cur err with
  | nil => exact hNone
  | cons name rest ih =>
      simp only [walk] at hNone ⊢
      by_cases hCur : name = Path.currentDir
      · simp only [if_pos hCur] at hNone ⊢
        exact ih _ _ hNone
      by_cases hParent : name = Path.parentDir
      · simp only [if_neg hCur, if_pos hParent] at hNone ⊢
        exact ih _ _ hNone
      simp only [if_neg hCur, if_neg hParent] at hNone ⊢
      cases hNode : fs.link (name :: cur) with
      | none =>
          simp only [hNode] at hNone ⊢
          exact ih _ _ hNone
      | some target =>
          simp only [hNode, Bool.not_true, Bool.and_false, Bool.false_eq_true, if_false] at hNone ⊢
          split
          · exact hErr _ _ _ hNone
          · exact hLink _ _ _ hNone

/-- A path that can be followed to its end can be followed to its entry. -/
theorem resolveFrom_noError_entry (links : Nat) (cur : Loc) (err : Option IoErrorKind)
    (names : List Name)
    (hNone : (resolveFrom fs true links cur err names).error = none) :
    (resolveFrom fs false links cur err names).error = none := by
  induction links generalizing cur err names with
  | zero =>
      exact walk_noError_entry (fun _ _ _ h => by simp at h) (fun _ _ _ h => by simp at h) cur err
        names hNone
  | succ links ih => exact walk_noError_entry (resolveFrom_error true links) ih cur err names hNone

theorem resolve_noError_entry {path : Path} (hNone : (fs.resolve true path).error = none) :
    (fs.resolve false path).error = none := by
  simp only [resolve] at hNone ⊢
  split at hNone
  · simp at hNone
  · rename_i hFull
    simp only [hFull]
    exact resolveFrom_noError_entry _ _ _ _ hNone

/-- Following a final link makes no difference where there is none. -/
theorem walk_follow {onLink onLink' : Loc → Option IoErrorKind → List Name → Resolved}
    (hLink : ∀ cur err rest, fs.link (onLink cur err rest).loc = none →
      onLink' cur err rest = onLink cur err rest)
    (cur : Loc) (err : Option IoErrorKind) (names : List Name)
    (hEnd : fs.link (walk fs false onLink cur err names).loc = none) :
    walk fs true onLink' cur err names = walk fs false onLink cur err names := by
  induction names generalizing cur err with
  | nil => rfl
  | cons name rest ih =>
      simp only [walk] at hEnd ⊢
      by_cases hCur : name = Path.currentDir
      · simp only [if_pos hCur] at hEnd ⊢
        exact ih _ _ hEnd
      by_cases hParent : name = Path.parentDir
      · simp only [if_neg hCur, if_pos hParent] at hEnd ⊢
        exact ih _ _ hEnd
      simp only [if_neg hCur, if_neg hParent] at hEnd ⊢
      cases hNode : fs.link (name :: cur) with
      | none =>
          simp only [hNode] at hEnd ⊢
          exact ih _ _ hEnd
      | some target =>
          simp only [hNode] at hEnd ⊢
          by_cases hRest : rest.isEmpty = true
          · simp [hRest, hNode] at hEnd
          · simp only [hRest, Bool.false_and, Bool.not_true, Bool.not_false] at hEnd ⊢
            exact hLink _ _ _ hEnd

/-- Following the last link makes a difference only where there is one. -/
theorem resolveFrom_follow (links : Nat) (cur : Loc) (err : Option IoErrorKind) (names : List Name)
    (hEnd : fs.link (resolveFrom fs false links cur err names).loc = none) :
    resolveFrom fs true links cur err names = resolveFrom fs false links cur err names := by
  induction links generalizing cur err names with
  | zero => exact walk_follow (fun _ _ _ _ => rfl) cur err names hEnd
  | succ links ih => exact walk_follow ih cur err names hEnd

theorem resolve_follow (path : Path) (hEnd : fs.link (fs.entry path) = none) :
    fs.resolve true path = fs.resolve false path := by
  simp only [entry, resolve] at hEnd ⊢
  split
  · rfl
  · rename_i hFull
    simp only [hFull] at hEnd
    exact resolveFrom_follow _ _ _ _ hEnd

theorem target_eq_entry (path : Path) (hEnd : fs.link (fs.entry path) = none) :
    fs.target path = fs.entry path := by
  rw [target, resolve_follow path hEnd, entry]

/-- `dir` is the parent directory of `path`, and it is there. -/
structure OpenParent (fs : Fs) (path dir : Path) : Prop where
  named : path.parent = some dir
  nonempty : dir.isEmpty = false
  found : (fs.resolve true dir).error = none
  isDir : fs.isDir (fs.target dir) = true

/-- A parent stays open as directories come and no link goes. -/
theorem OpenParent.mono {path dir : Path} (h : fs.OpenParent path dir) (hLinks : SameLinks fs fs')
    (hDir : ∀ loc, fs.isDir loc = true → fs'.isDir loc = true) : fs'.OpenParent path dir where
  named := h.named
  nonempty := h.nonempty
  found := resolve_noError hLinks hDir true dir h.found
  isDir := by
    rw [target_eq hLinks]
    exact hDir _ h.isDir

/-- What is above a directory is a directory. -/
theorem isDir_tail {loc : Loc} (h : fs.isDir loc = true) : fs.isDir loc.tail = true := by
  cases loc with
  | nil => exact h
  | cons name dir =>
      have hHere : fs.node (name :: dir) ≠ none := by
        intro hAbsent
        simp [Fs.isDir, hAbsent] at h
      have hAbove := fs.nested name dir hHere
      simpa [Fs.isDir] using hAbove

/-- Where one last component leads from a directory. -/
def below (cur : Loc) (name : Name) : Loc :=
  if name = Path.currentDir then cur else if name = Path.parentDir then cur.tail else name :: cur

/-- Anything but a directory is found under its own name. -/
theorem below_eq_cons {cur : Loc} {name : Name} (hDir : fs.isDir cur = true)
    (hPlain : fs.isDir (below cur name) = false) : below cur name = name :: cur := by
  unfold below at hPlain ⊢
  split at hPlain
  · simp [hDir] at hPlain
  rename_i hCur
  split at hPlain
  · simp [isDir_tail hDir] at hPlain
  rename_i hParent
  rw [if_neg hCur, if_neg hParent]

/-- The last name of a walk needs no directory below it. -/
theorem walk_name {onLink : Loc → Option IoErrorKind → List Name → Resolved} (cur : Loc)
    (name : Name) :
    walk fs false onLink cur none [name] = ⟨below cur name, none⟩ := by
  simp only [walk, below]
  split
  · rfl
  split
  · rfl
  · cases fs.link (name :: cur) <;> simp

theorem resolveFrom_name (links : Nat) (cur : Loc) (name : Name) :
    resolveFrom fs false links cur none [name] = ⟨below cur name, none⟩ := by
  cases links with
  | zero => exact walk_name cur name
  | succ links => exact walk_name cur name

/-- A walk that ends with a dot ends in a directory. -/
theorem walk_dot {onLink : Loc → Option IoErrorKind → List Name → Resolved} {follow : Bool}
    (hErr : ∀ cur err rest, (onLink cur err rest).error = none → err = none)
    (hLink : ∀ cur rest, fs.isDir cur = true →
      (onLink cur none (rest ++ [Path.currentDir])).error = none →
      fs.isDir (onLink cur none (rest ++ [Path.currentDir])).loc = true)
    (cur : Loc) (names : List Name) (hDir : fs.isDir cur = true)
    (hNone : (walk fs follow onLink cur none (names ++ [Path.currentDir])).error = none) :
    fs.isDir (walk fs follow onLink cur none (names ++ [Path.currentDir])).loc = true := by
  induction names generalizing cur with
  | nil =>
      simp only [List.nil_append, walk, if_true]
      exact hDir
  | cons first rest ih =>
      simp only [List.cons_append, walk] at hNone ⊢
      by_cases hCur : first = Path.currentDir
      · simp only [if_pos hCur] at hNone ⊢
        exact ih _ hDir hNone
      by_cases hParent : first = Path.parentDir
      · simp only [if_neg hCur, if_pos hParent] at hNone ⊢
        exact ih _ (isDir_tail hDir) hNone
      simp only [if_neg hCur, if_neg hParent] at hNone ⊢
      have hMore : (rest ++ [Path.currentDir]).isEmpty = false := by simp
      cases hNode : fs.link (first :: cur) with
      | none =>
          simp only [hNode, hMore, Bool.false_or] at hNone ⊢
          have hClear := walk_error follow hErr _ _ _ hNone
          have hOpen : fs.isDir (first :: cur) = true := by
            by_contra hShut
            simp [hShut] at hClear
          simp only [hOpen, if_true] at hNone ⊢
          exact ih _ hOpen hNone
      | some target =>
          simp only [hNode, hMore, Bool.false_and, Bool.false_eq_true, if_false] at hNone ⊢
          rw [← List.append_assoc] at hNone ⊢
          refine hLink _ _ ?_ hNone
          split
          · exact fs.root
          · exact hDir

/-- A path that ends in `.` leads to a directory, if it leads anywhere. -/
theorem resolveFrom_dot (follow : Bool) (links : Nat) (cur : Loc) (names : List Name)
    (hDir : fs.isDir cur = true)
    (hNone : (resolveFrom fs follow links cur none (names ++ [Path.currentDir])).error = none) :
    fs.isDir (resolveFrom fs follow links cur none (names ++ [Path.currentDir])).loc = true := by
  induction links generalizing cur names with
  | zero =>
      exact walk_dot (fun _ _ _ hErr => by simp at hErr) (fun _ _ _ hErr => by simp at hErr) cur
        names hDir hNone
  | succ links ih => exact walk_dot (resolveFrom_error follow links) ih cur names hDir hNone

section Append

variable {last : List Name} {Ends : Loc → Resolved → Prop}

/-- Going on from a walk that ended in a directory is walking on from there. -/
theorem walk_append {onLink onLink' : Loc → Option IoErrorKind → List Name → Resolved}
    (hNe : last ≠ [])
    (hErr : ∀ cur err rest, (onLink cur err rest).error = none → err = none)
    (hLast : ∀ cur, fs.isDir cur = true → Ends cur (walk fs false onLink' cur none last))
    (hLink : ∀ cur rest, (onLink cur none rest).error = none →
      fs.isDir (onLink cur none rest).loc = true →
      Ends (onLink cur none rest).loc (onLink' cur none (rest ++ last)))
    (cur : Loc) (names : List Name) (hNone : (walk fs true onLink cur none names).error = none)
    (hDir : fs.isDir (walk fs true onLink cur none names).loc = true) :
    Ends (walk fs true onLink cur none names).loc
      (walk fs false onLink' cur none (names ++ last)) := by
  induction names generalizing cur with
  | nil =>
      simp only [walk] at hDir ⊢
      exact hLast cur hDir
  | cons first rest ih =>
      simp only [walk] at hNone hDir
      simp only [List.cons_append, walk]
      by_cases hCur : first = Path.currentDir
      · simp only [if_pos hCur] at hNone hDir ⊢
        exact ih _ hNone hDir
      by_cases hParent : first = Path.parentDir
      · simp only [if_neg hCur, if_pos hParent] at hNone hDir ⊢
        exact ih _ hNone hDir
      simp only [if_neg hCur, if_neg hParent] at hNone hDir ⊢
      cases hNode : fs.link (first :: cur) with
      | none =>
          simp only [hNode] at hNone hDir ⊢
          have hClear := walk_error true hErr _ _ _ hNone
          rw [hClear] at hNone hDir ⊢
          have hOpen : fs.isDir (first :: cur) = true := by
            cases rest with
            | nil => simpa only [walk] using hDir
            | cons second rest =>
                by_contra hShut
                simp [hShut] at hClear
          simp only [hOpen, Bool.or_true, if_true]
          exact ih _ hNone hDir
      | some target =>
          simp only [hNode, Bool.not_true, Bool.and_false, Bool.false_eq_true,
            if_false] at hNone hDir ⊢
          have hMore : (rest ++ last).isEmpty = false := by simp [hNe]
          simp only [hMore, Bool.false_and, Bool.false_eq_true, if_false]
          rw [← List.append_assoc]
          exact hLink _ _ hNone hDir

/-- A walk can be cut in two where the first part leads to a directory. -/
theorem resolveFrom_append (hNe : last ≠ [])
    (hLast : ∀ links cur, fs.isDir cur = true → Ends cur (resolveFrom fs false links cur none last))
    (links : Nat) (cur : Loc) (names : List Name)
    (hNone : (resolveFrom fs true links cur none names).error = none)
    (hDir : fs.isDir (resolveFrom fs true links cur none names).loc = true) :
    Ends (resolveFrom fs true links cur none names).loc
      (resolveFrom fs false links cur none (names ++ last)) := by
  induction links generalizing cur names with
  | zero =>
      exact walk_append hNe (fun _ _ _ hErr => by simp at hErr) (hLast 0)
        (fun _ _ hErr => by simp at hErr)
        cur names hNone hDir
  | succ links ih =>
      exact walk_append hNe (resolveFrom_error true links) (hLast (links + 1)) ih cur names hNone
        hDir

end Append

/-- What a path below an open parent leads to is found from there by its last
component, and by a dot if there is a slash behind it. -/
theorem OpenParent.ends {path dir : Path} (h : fs.OpenParent path dir)
    {Ends : Loc → Resolved → Prop}
    (hLast : ∀ name links cur, path.components.getLast? = some name → fs.isDir cur = true →
      Ends cur (resolveFrom fs false links cur none
        (name :: if path.trailing then [Path.currentDir] else []))) :
    Ends (fs.target dir) (fs.resolve false path) := by
  have hNamed := h.named
  simp only [Path.parent] at hNamed
  split at hNamed
  · cases hNamed
  rename_i hSome
  simp only [Option.some.injEq] at hNamed
  have hNe : path.components ≠ [] := by simpa using hSome
  have hSplit := List.dropLast_append_getLast hNe
  subst hNamed
  have hEmpty : path.isEmpty = false := by
    simp only [Path.isEmpty, Bool.and_eq_false_imp, Bool.not_eq_true']
    exact fun _ => by simpa using hNe
  have hFound := h.found
  have hDir := h.isDir
  simp only [target, resolve, h.nonempty, Bool.false_eq_true, if_false,
    Path.walked, List.append_nil]
    at hFound hDir
  have hEnds := resolveFrom_append (List.cons_ne_nil _ _)
    (fun links cur => hLast _ links cur (List.getLast?_eq_some_getLast hNe)) _ _ _ hFound hDir
  rw [List.append_cons, hSplit] at hEnds
  simp only [target, resolve, h.nonempty, hEmpty, Bool.false_eq_true, if_false,
    Path.walked, List.append_nil]
  exact hEnds

/-- Below an open parent a name always resolves, by its last component. -/
theorem OpenParent.child {path dir : Path} (h : fs.OpenParent path dir)
    (hFile : path.trailing = false) :
    ∃ name, path.components.getLast? = some name ∧
      fs.resolve false path = ⟨below (fs.target dir) name, none⟩ := by
  let Ends : Loc → Resolved → Prop := fun cur resolved =>
    ∃ name, path.components.getLast? = some name ∧ resolved = ⟨below cur name, none⟩
  show Ends (fs.target dir) (fs.resolve false path)
  apply h.ends
  intro name links cur hName _
  rw [hFile]
  exact ⟨name, hName, resolveFrom_name links cur name⟩

/-- With a slash behind it, a path leads to a directory if anywhere. -/
theorem OpenParent.isDir_of_trailing {path dir : Path} (h : fs.OpenParent path dir)
    (hTrailing : path.trailing = true) (hFound : (fs.resolve false path).error = none) :
    fs.isDir (fs.entry path) = true := by
  let Ends : Loc → Resolved → Prop :=
    fun _ resolved => resolved.error = none → fs.isDir resolved.loc = true
  have hEnds : Ends (fs.target dir) (fs.resolve false path) := by
    apply h.ends
    intro name links cur _ hDir hNone
    rw [hTrailing] at hNone ⊢
    exact resolveFrom_dot false links cur [name] hDir hNone
  exact hEnds hFound

/-- Below an open parent a name always resolves, and anything but a directory
there can be replaced. -/
theorem OpenParent.resolves {path dir : Path} (h : fs.OpenParent path dir)
    (hFile : path.trailing = false) :
    (fs.resolve false path).error = none ∧
      (fs.isDir (fs.entry path) = false → fs.CanPut (fs.entry path)) := by
  obtain ⟨name, -, hChild⟩ := h.child hFile
  rw [entry, hChild]
  refine ⟨rfl, fun hPlain => ?_⟩
  have hName := below_eq_cons h.isDir hPlain
  dsimp only at hPlain ⊢
  rw [hName] at hPlain ⊢
  exact ⟨List.cons_ne_nil _ _, h.isDir, hPlain⟩

/-- An entry that can be replaced is an entry of the parent directory. -/
theorem OpenParent.entry_of_canPut {path dir : Path} (h : fs.OpenParent path dir)
    (hFound : (fs.resolve false path).error = none) (hPut : fs.CanPut (fs.entry path)) :
    ∃ name, fs.entry path = name :: fs.target dir := by
  cases hTrailing : path.trailing with
  | false =>
      obtain ⟨name, -, hChild⟩ := h.child hTrailing
      rw [entry, hChild] at hPut ⊢
      exact ⟨name, below_eq_cons h.isDir hPut.2.2⟩
  | true =>
      have hDir := h.isDir_of_trailing hTrailing hFound
      rw [hPut.2.2] at hDir
      cases hDir

/-- In two trees with the same parent directory a name is the same entry. -/
theorem OpenParent.entry_eq {path dir : Path} (h : fs.OpenParent path dir)
    (h' : fs'.OpenParent path dir)
    (hFile : path.trailing = false) (hSame : fs'.target dir = fs.target dir) :
    fs'.entry path = fs.entry path := by
  obtain ⟨name, hName, hChild⟩ := h.child hFile
  obtain ⟨name', hName', hChild'⟩ := h'.child hFile
  cases hName.symm.trans hName'
  rw [entry, entry, hChild, hChild', hSame]

/-- `path` names no link, so far as it names anything. -/
def NotLink (fs : Fs) (path : Path) : Prop :=
  (fs.resolve false path).error = none → fs.link (fs.entry path) = none

/-- Reading `path` gives `previous`; absence is an answer, not a failure. -/
def Reads (fs : Fs) (path : Path) : Option Bytes → Prop
  | none => fs.lookup true path = .error .notFound
  | some bytes => ∃ node, fs.lookup true path = .ok node ∧ node.bytes = some bytes

/-- The entry at `loc` is absent or a regular file, as `previous` says. -/
def Holds (fs : Fs) (loc : Loc) (previous : Option Bytes) : Prop :=
  (fs.node loc).map Node.kind = previous.map FileKind.regular

/-- A path reads as one thing only. -/
theorem Reads.unique {path : Path} {previous previous' : Option Bytes}
    (h : fs.Reads path previous) (h' : fs.Reads path previous') : previous = previous' := by
  cases previous with
  | none =>
      cases previous' with
      | none => rfl
      | some bytes =>
          obtain ⟨node, hRead, -⟩ := h'
          rw [Reads, hRead] at h
          cases h
  | some bytes =>
      obtain ⟨node, hRead, hBytes⟩ := h
      cases previous' with
      | none =>
          rw [Reads, hRead] at h'
          cases h'
      | some bytes' =>
          obtain ⟨node', hRead', hBytes'⟩ := h'
          rw [hRead] at hRead'
          cases hRead'
          rw [← hBytes, ← hBytes']

/-- On a clear way a lookup is a look at the location. -/
theorem lookup_of_found {follow : Bool} {path : Path} (h : (fs.resolve follow path).error = none) :
    fs.lookup follow path =
      match fs.node (fs.resolve follow path).loc with
      | some node => .ok node
      | none => .error .notFound := by
  unfold lookup
  generalize fs.resolve follow path = resolved at h
  obtain ⟨loc, error⟩ := resolved
  cases h
  rfl

/-- A path whose `lstat` never shows a link names none. -/
theorem notLink_of_lookup {path : Path}
    (h : ∀ node, fs.lookup false path = .ok node → node.link = none) :
    fs.NotLink path := by
  intro hFound
  rw [lookup_of_found hFound] at h
  unfold link entry
  cases hNode : fs.node (fs.resolve false path).loc with
  | none => rfl
  | some node => exact h node (by rw [hNode])

/-- What a path that is no link reads as is what its entry holds. -/
theorem Reads.holds {path : Path} {previous : Option Bytes} (h : fs.Reads path previous)
    (hLink : fs.NotLink path) (hFound : (fs.resolve false path).error = none) :
    fs.Holds (fs.entry path) previous := by
  have hFollow := resolve_follow path (hLink hFound)
  have hLookup : fs.lookup true path = fs.lookup false path := by
    simp only [lookup, hFollow]
  rw [lookup_of_found hFound] at hLookup
  unfold Holds entry
  cases previous with
  | none =>
      rw [Reads, hLookup] at h
      cases hNode : fs.node (fs.resolve false path).loc with
      | none => rfl
      | some node => simp [hNode] at h
  | some bytes =>
      obtain ⟨node, hRead, hBytes⟩ := h
      rw [hLookup] at hRead
      cases hNode : fs.node (fs.resolve false path).loc with
      | none => simp [hNode] at hRead
      | some found =>
          simp only [hNode, Except.ok.injEq] at hRead
          subst hRead
          rw [Option.map_some, Option.map_some, Node.bytes_eq_some_iff.mp hBytes]

/-- A lookup succeeds where the way is clear and something is there. -/
theorem lookup_eq_ok_iff {follow : Bool} {path : Path} {node : Node} :
    fs.lookup follow path = .ok node ↔
      (fs.resolve follow path).error = none ∧ fs.node (fs.resolve follow path).loc = some node := by
  unfold lookup
  rcases fs.resolve follow path with ⟨loc, _ | kind⟩
  · cases hNode : fs.node loc <;> simp [hNode]
  · simp

/-- A read that found a file found the contents of the path. -/
theorem Reads.contents {path : Path} {bytes : Bytes} (h : fs.Reads path (some bytes)) :
    fs.bytesAt (fs.target path) = some bytes := by
  obtain ⟨node, hRead, hBytes⟩ := h
  obtain ⟨-, hNode⟩ := lookup_eq_ok_iff.mp hRead
  rw [bytesAt, target, hNode]
  exact hBytes

/-- A file that was read through no link is the entry of its path. -/
theorem Reads.lookup {path : Path} {bytes : Bytes} (h : fs.Reads path (some bytes))
    (hLink : fs.link (fs.entry path) = none) :
    ∃ node, fs.lookup false path = .ok node ∧ fs.node (fs.entry path) = some node ∧
      node.link = none ∧ node.bytes = some bytes := by
  obtain ⟨node, hRead, hBytes⟩ := h
  rw [lookup_eq_ok_iff, resolve_follow path hLink] at hRead
  have hNode : fs.node (fs.entry path) = some node := hRead.2
  refine ⟨node, lookup_eq_ok_iff.mpr hRead, hNode, ?_, hBytes⟩
  rw [link, hNode] at hLink
  exact hLink

/-- A regular file on a clear way is read as what it holds. -/
theorem reads_of_found {path : Path} {bytes : Bytes} (hFound : (fs.resolve false path).error = none)
    (hLink : fs.link (fs.entry path) = none) (hBytes : fs.bytesAt (fs.entry path) = some bytes) :
    fs.Reads path (some bytes) := by
  obtain ⟨node, hNode, hBytes⟩ := Option.bind_eq_some_iff.mp hBytes
  refine ⟨node, ?_, hBytes⟩
  rw [lookup_eq_ok_iff, resolve_follow path hLink]
  exact ⟨hFound, hNode⟩

/-- Reading follows links: it finds the bytes of what the path leads to. -/
theorem reads_some_iff {path : Path} {bytes : Bytes} :
    fs.Reads path (some bytes) ↔
      (fs.resolve true path).error = none ∧ fs.bytesAt (fs.target path) = some bytes := by
  constructor
  · intro h
    have hBytes := h.contents
    obtain ⟨node, hLookup, -⟩ := h
    exact ⟨(lookup_eq_ok_iff.mp hLookup).1, hBytes⟩
  · rintro ⟨hFound, hBytes⟩
    obtain ⟨node, hNode, hBytes⟩ := Option.bind_eq_some_iff.mp hBytes
    exact ⟨node, lookup_eq_ok_iff.mpr ⟨hFound, hNode⟩, hBytes⟩

/-- A path without a trailing slash has the contents of what it leads to. -/
theorem contents_of_file {path : Path} (hFile : path.trailing = false) (fs : Fs) :
    fs.contents path = fs.bytesAt (fs.target path) := by
  simp [contents, hFile]

namespace Holds

variable {loc : Loc} {previous : Option Bytes}

/-- Nothing, or a regular file. -/
theorem cases (h : fs.Holds loc previous) :
    (previous = none ∧ fs.node loc = none) ∨
      ∃ bytes mode uid, previous = some bytes ∧ fs.node loc = some ⟨.regular bytes, mode, uid⟩ := by
  unfold Holds at h
  cases hNode : fs.node loc with
  | none =>
      cases previous with
      | none => exact Or.inl ⟨rfl, rfl⟩
      | some bytes => simp [hNode] at h
  | some node =>
      cases previous with
      | none => simp [hNode] at h
      | some bytes =>
          obtain ⟨kind, mode, uid⟩ := node
          have hKind : kind = .regular bytes := by simpa [hNode] using h
          exact Or.inr ⟨bytes, mode, uid, rfl, by rw [hKind]⟩

theorem bytesAt (h : fs.Holds loc previous) : fs.bytesAt loc = previous := by
  rcases h.cases with
    ⟨rfl, hNode⟩ | ⟨bytes, mode, uid, rfl, hNode⟩ <;> simp [Fs.bytesAt, hNode, Node.bytes]

/-- What is held is no directory. -/
theorem isDir (h : fs.Holds loc previous) : fs.isDir loc = false := by
  rcases h.cases with
    ⟨rfl, hNode⟩ | ⟨bytes, mode, uid, rfl, hNode⟩ <;> simp [Fs.isDir, hNode, Node.isDir]

theorem link (h : fs.Holds loc previous) : fs.link loc = none := by
  rcases h.cases with
    ⟨rfl, hNode⟩ | ⟨bytes, mode, uid, rfl, hNode⟩ <;> simp [Fs.link, hNode, Node.link]

/-- A file that is no link is what its path denotes. -/
theorem contents {path : Path} (h : fs.Holds (fs.entry path) previous)
    (hFile : path.trailing = false) :
    fs.contents path = previous := by
  rw [contents_of_file hFile, target_eq_entry path h.link]
  exact h.bytesAt

end Holds

end MayflyHelper.Fs
