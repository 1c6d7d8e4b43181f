import MayflyHelper.Host

/-! The hardened filesystem primitives. Every byte the helper writes goes
through `secureWrite`; the checks use `lstat`, so a final link is seen. -/
namespace MayflyHelper.Security

open OracleProgram

/-- Permission bits for non-secret managed files. -/
def modePublic : Nat := 0o644

/-- Permission mask for "writable by group or other". -/
def groupOrOtherWritable : Nat := 0o022

/-- The parent directory of `path`. A bare relative name has an empty one. -/
def parentOf (path : Path) : Action Path :=
  match path.parent.filter (fun parent => !parent.isEmpty) with
  | some parent => pure parent
  | none => throw .invalidPath

def fsyncDir (dir : Path) : Action Unit := FsCall.io (fsCall (.fsyncDir dir))

/-- Rename `src` over `dst`, then make the rename durable. -/
def atomicReplace (src : TempFile) (dst : Path) : Action Unit := do
  let parent ← parentOf dst
  FsCall.io (fsCall (.rename src dst))
  fsyncDir parent

/-- An early return drops the temporary file, which deletes it. -/
def orDrop (tmp : TempFile) (action : Action Unit) : Action Unit :=
  ExceptT.mk (do
    match ← attempt action with
    | .ok () => pure (.ok ())
    | .error err => do
        fsCall (.dropTemp tmp)
        pure (.error err))

/-- Give the temporary file its permission bits and contents, and sync it. -/
def fillTemp (tmp : TempFile) (contents : Bytes) (mode : Nat) : Action Unit := do
  FsCall.io (fsCall (.fchmod tmp mode))
  FsCall.io (fsCall (.write tmp contents))
  FsCall.io (fsCall (.fsync tmp))

/-- Atomically write `contents` to `path` with permission bits `mode`. After
the file `fsync` the temporary file is kept: from there on nobody deletes it.
On Unix `keep` itself cannot fail. -/
def secureWrite (path : Path) (contents : Bytes) (mode : Nat) : Action Unit := do
  let parent ← parentOf path
  let tmp ← FsCall.io (fsCall (.createTemp parent))
  orDrop tmp (fillTemp tmp contents mode)
  atomicReplace tmp path

/-- Whether `path` is a symbolic link; a missing path is not. -/
def isSymlink (path : Path) : Action Bool :=
  ExceptT.mk (do
    match ← fsCall (.lstat path) with
    | .ok node =>
        match node.kind with
        | .symlink _ => pure (.ok true)
        | _ => pure (.ok false)
    | .error .notFound => pure (.ok false)
    | .error kind => pure (.error (.io kind)))

def ensureNotSymlink (path : Path) : Action Unit := do
  if ← isSymlink path then throw .unexpectedSymlink
  pure ()

def ensureNotGroupOrWorldWritable (path : Path) : Action Unit := do
  let node ← FsCall.io (fsCall (.lstat path))
  let mode := node.mode &&& 0o777
  if mode &&& groupOrOtherWritable ≠ 0 then throw .insecurePermissions
  pure ()

end MayflyHelper.Security
