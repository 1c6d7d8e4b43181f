import MayflyHelper.Errors
import MayflyHelper.Filesystem.Path

/-! The host's file tree. A location is a resolved position in the tree, so
two paths denote the same file exactly when they resolve to one location.
Files that are hard links of one another are kept apart: the helper never
writes into an existing file, it only replaces directory entries. -/
namespace MayflyHelper

/-- A position in the tree, innermost name first. The root is `[]`. -/
abbrev Loc := List Name

inductive FileKind where
  | regular (bytes : Bytes)
  | directory
  | symlink (target : Path)
  | special
  deriving DecidableEq, Repr

/-- A directory entry with its permission bits and owner. -/
structure Node where
  kind : FileKind
  mode : Nat
  uid : Nat
  deriving DecidableEq, Repr

def Node.isDir (node : Node) : Bool := node.kind == .directory

/-- The content of a regular file; anything else has none. -/
def Node.bytes (node : Node) : Option Bytes :=
  match node.kind with
  | .regular bytes => some bytes
  | _ => none

def Node.link (node : Node) : Option Path :=
  match node.kind with
  | .symlink target => some target
  | _ => none

theorem Node.bytes_eq_some_iff {node : Node} {bytes : Bytes} :
    node.bytes = some bytes ↔ node.kind = .regular bytes := by
  unfold Node.bytes
  split
  · rename_i found hKind
    rw [hKind, Option.some.injEq, FileKind.regular.injEq]
  · rename_i hOther
    constructor
    · intro h
      cases h
    · intro h
      exact absurd h (hOther bytes)

/-- What has contents is no link. -/
theorem Node.link_of_bytes {node : Node} {bytes : Bytes} (h : node.bytes = some bytes) :
    node.link = none := by
  rw [Node.link, Node.bytes_eq_some_iff.mp h]

/-- A file tree: entries exist only inside directories, and the names in use
are bounded, so a fresh name always exists. `cwd` is where relative paths
start. -/
@[ext]
structure Fs where
  node : Loc → Option Node
  cwd : Loc
  root : (node []).any Node.isDir = true
  nested : ∀ name dir, node (name :: dir) ≠ none → (node dir).any Node.isDir = true
  bounded : ∃ bound, ∀ name dir, bound ≤ name.length → node (name :: dir) = none

namespace Fs

def isDir (fs : Fs) (loc : Loc) : Bool := (fs.node loc).any Node.isDir

def link (fs : Fs) (loc : Loc) : Option Path := (fs.node loc).bind Node.link

def bytesAt (fs : Fs) (loc : Loc) : Option Bytes := (fs.node loc).bind Node.bytes

/-- Why a lookup cannot pass through a location that is not a directory. -/
def obstacle (fs : Fs) (loc : Loc) : IoErrorKind :=
  if (fs.node loc).isNone then .notFound else .other

/-- Where a path leads, and the first error met on the way. The location is
the one the path would denote once the missing directories above it exist. -/
structure Resolved where
  loc : Loc
  error : Option IoErrorKind
  deriving DecidableEq, Repr

/-- Walk through components until one is a link to be followed. -/
def walk (fs : Fs) (follow : Bool)
    (onLink : Loc → Option IoErrorKind → List Name → Resolved) :
    Loc → Option IoErrorKind → List Name → Resolved
  | cur, err, [] => ⟨cur, err⟩
  | cur, err, name :: rest =>
      if name = Path.currentDir then walk fs follow onLink cur err rest
      else if name = Path.parentDir then walk fs follow onLink cur.tail err rest
      else
        match fs.link (name :: cur) with
        | some target =>
            if rest.isEmpty && !follow then ⟨name :: cur, err⟩
            else onLink (if target.absolute then [] else cur) err (target.walked ++ rest)
        | none =>
            walk fs follow onLink (name :: cur)
              (if rest.isEmpty || fs.isDir (name :: cur) then err
                else err.or (some (fs.obstacle (name :: cur)))) rest

def resolveFrom (fs : Fs) (follow : Bool) :
    Nat → Loc → Option IoErrorKind → List Name → Resolved
  | 0 => walk fs follow (fun cur err _ => ⟨cur, err.or (some .other)⟩)
  | links + 1 => walk fs follow (resolveFrom fs follow links)

/-- The kernel gives up after this many links. -/
def maxSymlinks : Nat := 40

def resolve (fs : Fs) (follow : Bool) (path : Path) : Resolved :=
  if path.isEmpty then ⟨fs.cwd, some .notFound⟩
  else resolveFrom fs follow maxSymlinks (if path.absolute then [] else fs.cwd) none path.walked

/-- The directory entry a path names; a final link is not followed. -/
def entry (fs : Fs) (path : Path) : Loc := (fs.resolve false path).loc

/-- The location a path denotes; a final link is followed. -/
def target (fs : Fs) (path : Path) : Loc := (fs.resolve true path).loc

/-- The bytes of the file a path denotes, or absence. A path with a trailing
slash denotes a directory or nothing. -/
def contents (fs : Fs) (path : Path) : Option Bytes :=
  if path.trailing then none else fs.bytesAt (fs.target path)

def lookup (fs : Fs) (follow : Bool) (path : Path) : Except IoErrorKind Node :=
  match fs.resolve follow path with
  | ⟨_, some kind⟩ => .error kind
  | ⟨loc, none⟩ =>
      match fs.node loc with
      | some node => .ok node
      | none => .error .notFound

/-- Where an entry can be created or replaced. Directories are not replaced,
and the parent has to be a directory: so the result is again a tree. -/
def CanPut (fs : Fs) (loc : Loc) : Prop :=
  loc ≠ [] ∧ fs.isDir loc.tail = true ∧ fs.isDir loc = false

instance (fs : Fs) (loc : Loc) : Decidable (fs.CanPut loc) :=
  inferInstanceAs (Decidable (_ ∧ _ ∧ _))

def put (fs : Fs) (loc : Loc) (node : Node) : Fs :=
  if h : fs.CanPut loc then
    { node := fun l => if l = loc then some node else fs.node l
      cwd := fs.cwd
      root := by
        have hNe : ([] : Loc) ≠ loc := fun he => h.1 he.symm
        simpa [hNe] using fs.root
      nested := by
        intro name dir hNode
        have hDir : fs.isDir dir = true := by
          by_cases he : name :: dir = loc
          · have hTail := h.2.1
            rwa [← he] at hTail
          · exact fs.nested name dir (by simpa [he] using hNode)
        have hNe : dir ≠ loc := by
          intro he
          rw [he, h.2.2] at hDir
          cases hDir
        simpa [hNe, isDir] using hDir
      bounded := by
        obtain ⟨bound, hBound⟩ := fs.bounded
        refine ⟨max bound ((loc.headD []).length + 1), fun name dir hName => ?_⟩
        have hNe : name :: dir ≠ loc := by
          rintro rfl
          simp only [List.headD_cons] at hName
          omega
        rw [if_neg hNe]
        exact hBound name dir (le_trans (le_max_left _ _) hName) }
  else fs

/-- Remove the entry at a location, unless it is a directory. -/
def remove (fs : Fs) (loc : Loc) : Fs :=
  if h : fs.isDir loc = false then
    { node := fun l => if l = loc then none else fs.node l
      cwd := fs.cwd
      root := by
        have hNe : ([] : Loc) ≠ loc := by
          rintro rfl
          exact absurd fs.root (by simpa [isDir] using h)
        simpa [hNe] using fs.root
      nested := by
        intro name dir hNode
        have hKept : fs.node (name :: dir) ≠ none := by
          by_cases he : name :: dir = loc
          · simp [he] at hNode
          · simpa [he] using hNode
        have hDir := fs.nested name dir hKept
        have hNe : dir ≠ loc := by
          rintro rfl
          exact absurd hDir (by simpa [isDir] using h)
        simpa [hNe] using hDir
      bounded := by
        obtain ⟨bound, hBound⟩ := fs.bounded
        refine ⟨bound, fun name dir hName => ?_⟩
        simp only [hBound name dir hName, ite_self] }
  else fs

def setMode (fs : Fs) (loc : Loc) (mode : Nat) : Fs :=
  { node := fun l => if l = loc then (fs.node l).map (fun node => { node with mode }) else fs.node l
    cwd := fs.cwd
    root := by
      have hRoot := fs.root
      split
      · cases h : fs.node [] <;> simp_all [Node.isDir]
      · exact hRoot
    nested := by
      intro name dir hNode
      have hKept : fs.node (name :: dir) ≠ none := by
        by_cases he : name :: dir = loc <;> simp_all
      have hDir := fs.nested name dir hKept
      split
      · cases h : fs.node dir <;> simp_all [Node.isDir]
      · exact hDir
    bounded := by
      obtain ⟨bound, hBound⟩ := fs.bounded
      refine ⟨bound, fun name dir hName => ?_⟩
      simp only [hBound name dir hName, Option.map_none, ite_self] }

end Fs
end MayflyHelper
