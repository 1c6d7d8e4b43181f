import MayflyHelper.Filesystem.Lookup

/-! Updates of the tree, read back entry by entry. Replacing a file that is no
link changes neither where paths lead nor which locations are directories. -/
namespace MayflyHelper.Fs

variable {fs fs' fs'' : Fs} {loc : Loc} {node : Node} {path : Path}

@[simp] theorem put_cwd (fs : Fs) (loc : Loc) (node : Node) : (fs.put loc node).cwd = fs.cwd := by
  unfold put
  split <;> rfl

@[simp] theorem remove_cwd (fs : Fs) (loc : Loc) : (fs.remove loc).cwd = fs.cwd := by
  unfold remove
  split <;> rfl

@[simp] theorem setMode_cwd (fs : Fs) (loc : Loc) (mode : Nat) :
    (fs.setMode loc mode).cwd = fs.cwd :=
  rfl

/-- Putting a node at a location changes what is there, and nothing else. -/
theorem put_node (h : fs.CanPut loc) (l : Loc) :
    (fs.put loc node).node l = if l = loc then some node else fs.node l := by
  simp only [put, dif_pos h]

/-- Removing changes what is there, and nothing else. -/
theorem remove_node (h : fs.isDir loc = false) (l : Loc) :
    (fs.remove loc).node l = if l = loc then none else fs.node l := by
  simp only [remove, dif_pos h]

theorem setMode_node (fs : Fs) (loc : Loc) (mode : Nat) (l : Loc) :
    (fs.setMode loc mode).node l =
      if l = loc then (fs.node l).map (fun node => { node with mode }) else fs.node l := rfl

/-- What was put is there. -/
theorem put_node_self (h : fs.CanPut loc) : (fs.put loc node).node loc = some node := by
  rw [put_node h, if_pos rfl]

/-- Nothing else is changed by it. -/
theorem put_node_of_ne (h : fs.CanPut loc) {l : Loc} (hNe : l ≠ loc) :
    (fs.put loc node).node l = fs.node l := by
  rw [put_node h, if_neg hNe]

/-- Whether it takes place or not, an update concerns one entry. -/
theorem node_put_of_ne {l : Loc} (hNe : l ≠ loc) : (fs.put loc node).node l = fs.node l := by
  by_cases h : fs.CanPut loc
  · exact put_node_of_ne h hNe
  · rw [put, dif_neg h]

theorem node_remove_of_ne {l : Loc} (hNe : l ≠ loc) : (fs.remove loc).node l = fs.node l := by
  by_cases h : fs.isDir loc = false
  · rw [remove_node h, if_neg hNe]
  · rw [remove, dif_neg h]

theorem node_setMode_of_ne {l : Loc} (hNe : l ≠ loc) (mode : Nat) :
    (fs.setMode loc mode).node l = fs.node l := by
  rw [setMode_node, if_neg hNe]

/-- Files only live in directories, so an absent name in a directory can be
created. -/
theorem canPut_of_absent {name : Name} {dir : Loc} (hDir : fs.isDir dir = true)
    (hAbsent : fs.node (name :: dir) = none) : fs.CanPut (name :: dir) :=
  ⟨by simp, hDir, by simp [isDir, hAbsent]⟩

/-- Putting a file makes and loses no directory. -/
theorem isDir_put (h : fs.CanPut loc) (hNode : node.isDir = false) (l : Loc) :
    (fs.put loc node).isDir l = fs.isDir l := by
  unfold isDir
  by_cases hEq : l = loc
  · have hHere := h.2.2
    rw [isDir] at hHere
    rw [hEq, put_node_self h, hHere]
    exact hNode
  · rw [put_node_of_ne h hEq]

/-- So what could be put before can be put after. -/
theorem canPut_put (h : fs.CanPut loc) (hNode : node.isDir = false) (l : Loc) :
    (fs.put loc node).CanPut l ↔ fs.CanPut l := by
  simp only [CanPut, isDir_put h hNode]

/-- The second of two updates of one entry counts. -/
theorem put_put {node' : Node} (h : fs.CanPut loc) (hNode : node.isDir = false) :
    (fs.put loc node).put loc node' = fs.put loc node' := by
  have h' := (canPut_put h hNode loc).mpr h
  ext1
  · funext l
    rw [put_node h', put_node h, put_node h]
    split <;> rfl
  · simp

/-- A change of the mode of what was just put might have been put at once. -/
theorem setMode_put (h : fs.CanPut loc) (mode : Nat) :
    (fs.put loc node).setMode loc mode = fs.put loc { node with mode } := by
  ext1
  · funext l
    rw [setMode_node, put_node h, put_node h]
    split <;> rfl
  · simp

/-- Removing what was just put where nothing was gives the tree back. -/
theorem remove_put (h : fs.CanPut loc) (hNode : node.isDir = false) (hAbsent : fs.node loc = none) :
    (fs.put loc node).remove loc = fs := by
  have h' : (fs.put loc node).isDir loc = false := by
    rw [isDir_put h hNode]
    exact h.2.2
  ext1
  · funext l
    rw [remove_node h', put_node h]
    split
    · rename_i hEq
      rw [hEq, hAbsent]
    · rfl
  · simp

/-- Moving a new file over another entry only replaces that entry. -/
theorem move_put {src : Loc} (hSrc : fs.CanPut src) (hAbsent : fs.node src = none)
    (h : fs.CanPut loc) (hNode : node.isDir = false) (hNe : loc ≠ src) :
    ((fs.put src node).put loc node).remove src = fs.put loc node := by
  have h' := (canPut_put hSrc hNode loc).mpr h
  have hFile : ((fs.put src node).put loc node).isDir src = false := by
    rw [isDir_put h' hNode, isDir_put hSrc hNode]
    exact hSrc.2.2
  ext1
  · funext l
    rw [remove_node hFile, put_node h', put_node hSrc, put_node h]
    by_cases hSrcEq : l = src
    · rw [if_pos hSrcEq, if_neg (by rw [hSrcEq]; exact Ne.symm hNe), hSrcEq, hAbsent]
    · rw [if_neg hSrcEq, if_neg hSrcEq]
  · simp

/-- Where nothing is, no link is. -/
theorem link_eq_none_of_absent (h : fs.node loc = none) : fs.link loc = none := by
  simp [link, h]

/-- Writing a regular file over something that is no link keeps all links. -/
theorem sameLinks_put {bytes : Bytes} (h : fs.CanPut loc) (hLink : fs.link loc = none)
    (hNode : node.kind = .regular bytes) : SameLinks fs (fs.put loc node) := by
  refine ⟨put_cwd _ _ _, fun l => ?_⟩
  by_cases hEq : l = loc
  · rw [hEq, hLink, link, put_node_self h]
    simp [Node.link, hNode]
  · rw [link, link, put_node_of_ne h hEq]

/-- A change of a mode keeps all links. -/
theorem sameLinks_setMode (fs : Fs) (loc : Loc) (mode : Nat) :
    SameLinks fs (fs.setMode loc mode) := by
  refine ⟨setMode_cwd _ _ _, fun l => ?_⟩
  rw [link, link, setMode_node]
  split
  · cases fs.node l <;> rfl
  · rfl

/-- The bytes at a location after an update. -/
theorem bytesAt_put (h : fs.CanPut loc) (l : Loc) :
    (fs.put loc node).bytesAt l = if l = loc then node.bytes else fs.bytesAt l := by
  unfold bytesAt
  rw [put_node h]
  split <;> rfl

theorem sameLinks_put_of_link (hLink : fs.link loc = none) (hNode : node.link = none) :
    SameLinks fs (fs.put loc node) := by
  by_cases hPut : fs.CanPut loc
  · refine ⟨put_cwd _ _ _, fun other => ?_⟩
    by_cases hSame : other = loc
    · rw [hSame, hLink, link, put_node_self hPut]
      exact hNode
    · rw [link, link, put_node_of_ne hPut hSame]
  · rw [put, dif_neg hPut]
    exact SameLinks.refl fs

/-- Removing what is no link keeps all links. -/
theorem sameLinks_remove (hLink : fs.link loc = none) : SameLinks fs (fs.remove loc) := by
  by_cases hFile : fs.isDir loc = false
  · refine ⟨remove_cwd _ _, fun other => ?_⟩
    by_cases hSame : other = loc
    · rw [hSame, hLink, link, remove_node hFile, if_pos rfl]
      rfl
    · rw [link, link, node_remove_of_ne hSame]
  · rw [remove, dif_neg hFile]
    exact SameLinks.refl fs

/-- Every path leads where it led, and to an error only if it did. -/
structure SameWays (fs fs' : Fs) : Prop where
  links : SameLinks fs fs'
  isDir : ∀ loc, fs'.isDir loc = fs.isDir loc

namespace SameWays

theorem refl (fs : Fs) : SameWays fs fs := ⟨SameLinks.refl fs, fun _ => rfl⟩

/-- Putting a regular file over what is no link keeps all ways. -/
theorem put {bytes : Bytes} (hLink : fs.link loc = none) (hNode : node.kind = .regular bytes) :
    SameWays fs (fs.put loc node) := by
  refine ⟨sameLinks_put_of_link hLink (by rw [Node.link, hNode]), fun other => ?_⟩
  by_cases hPut : fs.CanPut loc
  · exact isDir_put hPut (by simp [Node.isDir, hNode]) other
  · rw [Fs.put, dif_neg hPut]

theorem remove (hLink : fs.link loc = none) : SameWays fs (fs.remove loc) := by
  refine ⟨sameLinks_remove hLink, fun other => ?_⟩
  by_cases hFile : fs.isDir loc = false
  · by_cases hSame : other = loc
    · rw [hSame, hFile, Fs.isDir, remove_node hFile, if_pos rfl]
      rfl
    · rw [Fs.isDir, Fs.isDir, node_remove_of_ne hSame]
  · rw [Fs.remove, dif_neg hFile]

/-- A change of a mode keeps all ways. -/
theorem setMode (fs : Fs) (loc : Loc) (mode : Nat) : SameWays fs (fs.setMode loc mode) := by
  refine ⟨sameLinks_setMode fs loc mode, fun other => ?_⟩
  rw [Fs.isDir, Fs.isDir, setMode_node]
  split
  · cases fs.node other <;> rfl
  · rfl

theorem trans (h : SameWays fs fs') (h' : SameWays fs' fs'') : SameWays fs fs'' :=
  ⟨h.links.trans h'.links, fun loc => (h'.isDir loc).trans (h.isDir loc)⟩

/-- Where the ways are the same, the same paths can be followed. -/
theorem found_iff (h : SameWays fs fs') (path : Path) :
    (fs'.resolve false path).error = none ↔ (fs.resolve false path).error = none :=
  resolve_noError_iff h.links h.isDir false path

theorem notLink (h : SameWays fs fs') (hLink : fs.NotLink path) : fs'.NotLink path := by
  intro hFound
  rw [entry_eq h.links, h.links.link]
  exact hLink ((h.found_iff path).mp hFound)

end SameWays

/-- What stands at `path`, or with `follow` what it leads to, whatever its
mode and its owner. -/
def shows (fs : Fs) (follow : Bool) (path : Path) : Option FileKind :=
  (fs.lookup follow path).toOption.map Node.kind

/-- What a path shows, told without the lookup. -/
theorem shows_eq (fs : Fs) (follow : Bool) (path : Path) :
    fs.shows follow path =
      if (fs.resolve follow path).error = none then
        (fs.node (fs.resolve follow path).loc).map Node.kind
      else none := by
  unfold shows lookup
  rcases fs.resolve follow path with ⟨loc, _ | kind⟩
  · cases hNode : fs.node loc <;> simp [hNode, Except.toOption]
  · rfl

/-- Where the ways are the same, a path that is no link shows what has become
of its entry, and reading it shows no more. -/
theorem SameWays.shows (h : SameWays fs fs') (hLink : fs.NotLink path) (follow : Bool) :
    fs'.shows follow path =
      if (fs.resolve false path).error = none then (fs'.node (fs.entry path)).map Node.kind
      else none := by
  rw [shows_eq, resolve_loc h.links,
    if_congr (resolve_noError_iff h.links h.isDir follow path) rfl rfl]
  by_cases hFound : (fs.resolve false path).error = none
  · have hSame : fs.resolve follow path = fs.resolve false path := by
      cases follow with
      | false => rfl
      | true => exact resolve_follow path (hLink hFound)
    rw [hSame]
    rfl
  · rw [if_neg hFound, if_neg]
    intro hFollowed
    cases follow with
    | false => exact hFound hFollowed
    | true => exact hFound (resolve_noError_entry hFollowed)

/-- So it shows what it showed if its entry is of the same kind. -/
theorem SameWays.shows_iff (h : SameWays fs fs') (hLink : fs.NotLink path) :
    (∀ follow, fs'.shows follow path = fs.shows follow path) ↔
      ((fs.resolve false path).error = none →
        (fs'.node (fs.entry path)).map Node.kind = (fs.node (fs.entry path)).map Node.kind) := by
  simp only [h.shows hLink, (SameWays.refl fs).shows hLink]
  by_cases hFound : (fs.resolve false path).error = none
  · simp [hFound]
  · simp [hFound]

end MayflyHelper.Fs
