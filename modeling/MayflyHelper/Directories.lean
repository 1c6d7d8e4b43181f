import Mathlib.Data.List.Infix
import MayflyHelper.Filesystem.Update
import MayflyHelper.HostRules
import MayflyHelper.Ops

/-! What preparing the managed directories does to the tree: directories are
created on the way to the two parents, and what a parent denotes gets its
mode set. No file is written, removed or moved, whichever calls fail. -/
namespace MayflyHelper

open OracleProgram

/-- The parents of the two managed files, as far as they have any. -/
def OpsConfig.parents (config : OpsConfig) : List Path :=
  [config.trustedCaPath.path, config.dropinPath.path].filterMap Path.parent

/-- What preparing may do to an entry: `made` if it may be created, `denoted`
if its mode may be set. -/
inductive NodePrepared (made denoted : Prop) : Option Node → Option Node → Prop where
  | same (node : Option Node) : NodePrepared made denoted node node
  | chmodded (h : denoted) (node : Node) :
      NodePrepared made denoted (some node) (some { node with mode := dirMode })
  | created (h : made) (mode : Nat) :
      NodePrepared made denoted none (some ⟨.directory, mode, rootUid⟩)

namespace NodePrepared

variable {made denoted : Prop} {node node' node'' : Option Node}

/-- Prepared twice is prepared. -/
theorem trans (h : NodePrepared made denoted node node')
    (h' : NodePrepared made denoted node' node'') :
    NodePrepared made denoted node node'' := by
  cases h with
  | same => exact h'
  | chmodded hDenoted node =>
      cases h' with
      | same => exact .chmodded hDenoted node
      | chmodded => exact .chmodded hDenoted node
  | created hMade mode =>
      cases h' with
      | same => exact .created hMade mode
      | chmodded => exact .created hMade dirMode

/-- Preparing is about directories and modes, never about contents. -/
theorem bytes (h : NodePrepared made denoted node node') :
    node'.bind Node.bytes = node.bind Node.bytes := by
  cases h <;> rfl

/-- What has the mode of a managed directory stays as it is. -/
theorem eq_of_dirMode {before : Node} (h : NodePrepared made denoted (some before) node)
    (hMode : before.mode = dirMode) : node = some before := by
  cases h with
  | same => rfl
  | chmodded _ => rw [← hMode]

/-- A directory stays one. -/
theorem isDir (h : NodePrepared made denoted node node') (hDir : node.any Node.isDir = true) :
    node'.any Node.isDir = true := by
  cases h with
  | same => exact hDir
  | chmodded _ node => exact hDir
  | created => rfl

end NodePrepared

namespace Fs

/-- `fs'` is `fs` after preparing the directories `parents`. -/
structure Prepared (parents : List Path) (fs fs' : Fs) : Prop where
  cwd : fs'.cwd = fs.cwd
  node : ∀ loc, NodePrepared (∃ parent ∈ parents, ∃ dir ∈ parent.ancestors, loc = fs.entry dir)
    (∃ parent ∈ parents, loc = fs.target parent) (fs.node loc) (fs'.node loc)

namespace Prepared

variable {parents : List Path} {fs fs' fs'' : Fs}

theorem refl (parents : List Path) (fs : Fs) : Prepared parents fs fs := ⟨rfl, fun _ => .same _⟩

/-- No bytes are changed by preparing. -/
theorem bytesAt (h : Prepared parents fs fs') (loc : Loc) : fs'.bytesAt loc = fs.bytesAt loc :=
  (h.node loc).bytes

/-- No directory is lost by it. -/
theorem isDir (h : Prepared parents fs fs') (loc : Loc) (hDir : fs.isDir loc = true) :
    fs'.isDir loc = true :=
  (h.node loc).isDir hDir

/-- No link is made or lost by it. -/
theorem sameLinks (h : Prepared parents fs fs') : SameLinks fs fs' := by
  refine ⟨h.cwd, fun loc => ?_⟩
  have hNode := h.node loc
  simp only [Fs.link]
  generalize fs.node loc = node, fs'.node loc = node' at hNode
  cases hNode <;> rfl

/-- So every path has the contents it had. -/
theorem contents (h : Prepared parents fs fs') (path : Path) :
    fs'.contents path = fs.contents path := by
  simp only [Fs.contents, target_eq h.sameLinks, h.bytesAt]

theorem trans (h : Prepared parents fs fs') (h' : Prepared parents fs' fs'') :
    Prepared parents fs fs'' := by
  refine ⟨h'.cwd.trans h.cwd, fun loc => (h.node loc).trans ?_⟩
  have hNode := h'.node loc
  simpa only [entry_eq h.sameLinks, target_eq h.sameLinks] using hNode

end Prepared
end Fs

/-- Looking, creating a directory on the way to a parent, and setting the
mode of a parent. -/
def Call.Prepares (parents : List Path) : Call → Prop
  | .fs (.pathExists _) => True
  | .fs (.isDir _) => True
  | .fs (.lstat _) => True
  | .fs (.mkdir path) => ∃ parent ∈ parents, path ∈ parent.ancestors
  | .fs (.chmod path mode) => path ∈ parents ∧ mode = dirMode
  | _ => False

namespace Fs

variable {parents : List Path} {fs : Fs}

/-- Creating a missing directory above a parent is part of preparing. -/
theorem prepared_mkdir {loc : Loc} {path : Path} (mode : Nat) (hAbsent : fs.node loc = none)
    (hPut : fs.CanPut loc) (hLoc : loc = fs.entry path)
    (hPath : ∃ parent ∈ parents, path ∈ parent.ancestors) :
    Prepared parents fs (fs.put loc ⟨.directory, mode, rootUid⟩) := by
  refine ⟨put_cwd _ _ _, fun l => ?_⟩
  rw [put_node hPut]
  split
  · rename_i hEq
    obtain ⟨parent, hParent, hMem⟩ := hPath
    rw [hEq, hAbsent]
    exact .created ⟨parent, hParent, path, hMem, hLoc⟩ mode
  · exact .same _

/-- So is setting the mode of a parent. -/
theorem prepared_chmod {path : Path} (hPath : path ∈ parents) :
    Prepared parents fs (fs.setMode (fs.target path) dirMode) := by
  refine ⟨setMode_cwd _ _ _, fun l => ?_⟩
  rw [setMode_node]
  split
  · rename_i hEq
    cases hNode : fs.node l with
    | none => exact .same _
    | some node => exact .chmodded ⟨path, hPath, hEq⟩ node
  · exact .same _

/-- One call of the preparation. -/
theorem prepared_perform (host : Host) (ordinal : Nat) {call : FsCall}
    (h : Call.Prepares parents (.fs call)) :
    Prepared parents fs (call.perform host ordinal fs).2 := by
  cases call with
  | mkdir path =>
      simp only [FsCall.perform, FsCall.atEntry]
      rcases hResolved : fs.resolve false path with ⟨loc, _ | kind⟩
      · dsimp only
        split
        · exact .refl parents fs
        split
        · rename_i hSome hPut
          exact prepared_mkdir _ (by simpa using hSome) hPut (by rw [entry, hResolved]) h
        · exact .refl parents fs
      · exact .refl parents fs
  | chmod path mode =>
      obtain ⟨hPath, rfl⟩ := h
      simp only [FsCall.perform, FsCall.atEntry]
      rcases hResolved : fs.resolve true path with ⟨loc, _ | kind⟩
      · have hLoc : loc = fs.target path := by rw [target, hResolved]
        dsimp only
        split
        · rw [hLoc]
          exact prepared_chmod hPath
        · exact .refl parents fs
      · exact .refl parents fs
  | pathExists path => exact .refl parents fs
  | isDir path => exact .refl parents fs
  | lstat path => exact .refl parents fs
  | read | createTemp | fchmod | write | fsync | dropTemp | rename | fsyncDir | unlink =>
      exact h.elim

end Fs

/-- A program of preparing calls prepares, and issues no `sshd` command. -/
theorem prepared_of_within (host : Host) {Result : Type} {p : HostProgram Result}
    {parents : List Path} (h : p.Within (Call.Prepares parents)) (w : World) :
    Fs.Prepared parents w.fs (p.run host.oracle w).2.fs ∧
      (p.run host.oracle w).2.events = w.events := by
  refine h.invariant (fun v => Fs.Prepared parents w.fs v.fs ∧ v.events = w.events) ?_ w
    ⟨.refl _ _, rfl⟩
  rintro (call | call) hCall v ⟨hPrepared, hEvents⟩
  · obtain ⟨fs', hWorld, rfl | rfl⟩ := host.oracle_fs_world call v
    · rw [hWorld]
      exact ⟨hPrepared, hEvents⟩
    · rw [hWorld]
      exact ⟨hPrepared.trans (Fs.prepared_perform host _ hCall), hEvents⟩
  · exact hCall.elim

namespace Security

theorem within_isSymlink {allowed : Call → Prop} {path : Path} (h : allowed (.fs (.lstat path))) :
    Program.Within allowed (isSymlink path).run := by
  refine Program.Within.bind (within_fsCall h) ?_
  intro reply
  rcases reply with (_ | _) | node
  · exact Program.Within.pure _
  · exact Program.Within.pure _
  · dsimp only
    split <;> exact Program.Within.pure _

theorem within_ensureNotSymlink {allowed : Call → Prop} {path : Path}
    (h : allowed (.fs (.lstat path))) : Program.Within allowed (ensureNotSymlink path).run := by
  refine Fallible.within_bind (within_isSymlink h) ?_
  intro link
  cases link <;> exact trivial

end Security

namespace Ops

variable {parents : List Path}

/-- A failed `mkdir` is followed by a look, no more. -/
theorem within_orIsDir {allowed : Call → Prop} {path : Path} (h : allowed (.fs (.isDir path)))
    (kind : IoErrorKind) : (orIsDir path kind).Within allowed :=
  Program.Within.bind (within_fsCall h) fun _ => Program.Within.pure _

/-- Every directory tried is a tail of the components, read outwards. -/
theorem within_createDirAllFrom {allowed : Call → Prop} (absolute : Bool) (components : List Name)
    (hIsDir : ∀ path, allowed (.fs (.isDir path)))
    (h : ∀ above, above <:+ components → allowed (.fs (.mkdir ⟨absolute, above.reverse, false⟩))) :
    (createDirAllFrom absolute components).Within allowed := by
  induction components with
  | nil =>
      unfold createDirAllFrom
      dsimp only
      split
      · exact Program.Within.pure _
      · refine Program.Within.bind (within_fsCall (h [] List.suffix_rfl)) ?_
        rintro ((_ | _) | _)
        · exact Program.Within.pure _
        · exact within_orIsDir (hIsDir _) _
        · exact Program.Within.pure _
  | cons name above ih =>
      have hMkdir := h (name :: above) List.suffix_rfl
      have hAbove := ih fun rest hRest => h rest (hRest.trans (List.suffix_cons _ _))
      refine Program.Within.bind (within_fsCall hMkdir) ?_
      rintro ((_ | _) | _)
      · refine Program.Within.bind hAbove ?_
        rintro (kind | _)
        · exact Program.Within.pure _
        · refine Program.Within.bind (within_fsCall hMkdir) ?_
          rintro (kind | _)
          · exact within_orIsDir (hIsDir _) _
          · exact Program.Within.pure _
      · exact within_orIsDir (hIsDir _) _
      · exact Program.Within.pure _

/-- Preparing one parent takes looks, new directories on the way to it, and its
mode. -/
theorem within_ensureDirectory {dir : Path} (h : dir ∈ parents) :
    Program.Within (Call.Prepares parents) (ensureDirectory dir).run := by
  refine Fallible.within_bind (Program.Within.bind (within_fsCall trivial) fun _ =>
    Program.Within.pure _) ?_
  intro present
  have hRest : Program.Within (Call.Prepares parents) (ExceptT.run do
      Security.ensureNotSymlink dir
      FsCall.io (fsCall (.chmod dir dirMode))) := by
    refine Fallible.within_bind (Security.within_ensureNotSymlink trivial) fun _ => within_io ?_
    exact Program.Within.call (show Call.Prepares parents (.fs (.chmod dir dirMode)) from ⟨h, rfl⟩)
  cases present with
  | true => exact hRest
  | false =>
      refine Fallible.within_bind (within_io ?_) fun _ => hRest
      refine within_createDirAllFrom _ _ (fun _ => trivial) fun above hAbove => ⟨dir, h, ?_⟩
      exact List.mem_map.mpr ⟨above, (List.mem_tails _ _).mpr hAbove, rfl⟩

theorem within_ensureParent {path : Path} (h : ∀ dir, path.parent = some dir → dir ∈ parents) :
    Program.Within (Call.Prepares parents) (ensureParent path).run := by
  unfold ensureParent
  split
  · rename_i dir hDir
    exact within_ensureDirectory (h dir hDir)
  · exact trivial

/-- Preparing all of them takes no other calls. -/
theorem within_ensureDirectories (config : OpsConfig) :
    Program.Within (Call.Prepares config.parents) (ensureDirectories config).run := by
  refine Fallible.within_bind (within_ensureParent ?_) fun _ => within_ensureParent ?_
  · intro dir hDir
    exact List.mem_filterMap.mpr ⟨_, by simp, hDir⟩
  · intro dir hDir
    exact List.mem_filterMap.mpr ⟨_, by simp, hDir⟩

/-- The preparation of the managed directories, completed or not. -/
theorem run_ensureDirectories (host : Host) (config : OpsConfig) (w : World) :
    ∃ result w', Program.run host.oracle (ensureDirectories config).run w = (result, w') ∧
      Fs.Prepared config.parents w.fs w'.fs ∧ w'.events = w.events :=
  ⟨_, _, rfl, prepared_of_within host (within_ensureDirectories config) w⟩

/-- Setting a mode is about what the path denotes. -/
theorem perform_chmod (host : Host) (ordinal : Nat) (path : Path) (mode : Nat) (fs : Fs) :
    FsCall.perform host ordinal (.chmod path mode) fs =
      match fs.lookup true path with
      | .ok _ => (.ok (), fs.setMode (fs.target path) mode)
      | .error kind => (.error kind, fs) := by
  simp only [FsCall.perform, FsCall.atEntry, Fs.lookup, Fs.target]
  rcases fs.resolve true path with ⟨loc, _ | kind⟩
  · cases hNode : fs.node loc <;> simp [hNode]
  · rfl

/-- A `chmod` succeeds on what is there, and the mode is set at what the path
leads to. -/
theorem chmod_eq_ok_iff {host : Host} {w w' : World} {path : Path} {mode : Nat} :
    Program.run host.oracle (FsCall.io (fsCall (.chmod path mode))).run w = (.ok (), w') ↔
      host.fails .chmod (w.count .chmod) = false ∧ (∃ node, w.fs.lookup true path = .ok node) ∧
        w' = w.after [.chmod] (w.fs.setMode (w.fs.target path) mode) := by
  cases hFails : host.fails .chmod (w.count .chmod) with
  | true =>
      rw [run_io_error
        (run_fails (.chmod path mode) (by simpa [Host.failsAt, FsCall.kind] using hFails))]
      simp
  | false =>
      have hPerform := perform_chmod host (w.count .chmod) path mode w.fs
      have hClear : host.failsAt (.chmod path mode) (w.count .chmod) = false := by
        simpa [Host.failsAt, FsCall.kind] using hFails
      cases hLookup : w.fs.lookup true path with
      | error kind =>
          rw [hLookup] at hPerform
          rw [run_io_error (run_performs (.chmod path mode) hClear hPerform)]
          simp
      | ok node =>
          rw [hLookup] at hPerform
          rw [run_io_ok (run_performs (.chmod path mode) hClear hPerform)]
          simp only [Prod.mk.injEq, true_and, Except.ok.injEq, exists_eq', FsCall.kind]
          exact eq_comm

/-- After a successful `chmod` the path leads to something of that mode. -/
theorem chmod_ok {host : Host} {w w' : World} {path : Path} {mode : Nat}
    (h : Program.run host.oracle (FsCall.io (fsCall (.chmod path mode))).run w = (.ok (), w')) :
    ∃ node, w'.fs.node (w'.fs.target path) = some node ∧ node.mode = mode := by
  obtain ⟨-, ⟨node, hLookup⟩, rfl⟩ := chmod_eq_ok_iff.mp h
  have hNode : w.fs.node (w.fs.target path) = some node := (Fs.lookup_eq_ok_iff.mp hLookup).2
  refine ⟨{ node with mode }, ?_, rfl⟩
  rw [World.after_fs, Fs.target_eq (Fs.sameLinks_setMode _ _ _), Fs.setMode_node, if_pos rfl, hNode]
  rfl

/-- Whether or not the directory has to be created, it is looked at and gets
its mode in the end. -/
theorem ensureDirectory_eq_ok {host : Host} {w w' : World} {dir : Path}
    (h : Program.run host.oracle (ensureDirectory dir).run w = (.ok (), w')) :
    ∃ v v', Program.run host.oracle (Security.ensureNotSymlink dir).run v = (.ok (), v') ∧
      Program.run host.oracle (FsCall.io (fsCall (.chmod dir dirMode))).run v' = (.ok (), w') := by
  obtain ⟨present, v, -, h⟩ := Fallible.run_bind_eq_ok h
  cases present with
  | true => exact ⟨v, Fallible.run_seq_eq_ok_iff.mp h⟩
  | false =>
      obtain ⟨_, v', -, h⟩ := Fallible.run_bind_eq_ok h
      exact ⟨v', Fallible.run_seq_eq_ok_iff.mp h⟩

/-- What holds of a directory that was made, and stays so while more are
made, holds of every parent in the end. -/
theorem ensureDirectories_each {host : Host} {config : OpsConfig} {w w' : World}
    (Made : Fs → Path → Prop)
    (hMade : ∀ {dir : Path} {v v' : World},
      Program.run host.oracle (ensureDirectory dir).run v = (.ok (), v') → Made v'.fs dir)
    (hLater : ∀ {dir : Path} {fs fs' : Fs}, Fs.Prepared config.parents fs fs' →
      Made fs dir → Made fs' dir)
    (h : Program.run host.oracle (ensureDirectories config).run w = (.ok (), w')) :
    ∀ parent ∈ config.parents, Made w'.fs parent := by
  obtain ⟨v, hTrusted, hDropin⟩ := Fallible.run_seq_eq_ok_iff.mp h
  have hParent : ∀ {path dir : Path} {v v' : World}, path.parent = some dir →
      Program.run host.oracle (ensureParent path).run v = (.ok (), v') → Made v'.fs dir := by
    intro path dir v v' hDir hRun
    rw [ensureParent, hDir] at hRun
    exact hMade hRun
  intro parent hMem
  obtain ⟨path, hPath, hDir⟩ := List.mem_filterMap.mp hMem
  simp only [List.mem_cons, List.not_mem_nil, or_false] at hPath
  rcases hPath with rfl | rfl
  · have hWithin : Program.Within (Call.Prepares config.parents)
        (ensureParent config.dropinPath.path).run :=
      within_ensureParent fun dir hDir => List.mem_filterMap.mpr ⟨_, by simp, hDir⟩
    have hPrepared := (prepared_of_within host hWithin v).1
    rw [hDropin] at hPrepared
    exact hLater hPrepared (hParent hDir hTrusted)
  · exact hParent hDir hDropin

/-- After a completed preparation every parent leads to something of the right
mode. -/
theorem ensureDirectories_ok {host : Host} {config : OpsConfig} {w w' : World}
    (h : Program.run host.oracle (ensureDirectories config).run w = (.ok (), w')) :
    ∀ parent ∈ config.parents, ∃ node, w'.fs.node (w'.fs.target parent) = some node ∧
      node.mode = dirMode := by
  refine ensureDirectories_each (fun fs dir => ∃ node, fs.node (fs.target dir) = some node ∧
    node.mode = dirMode) (fun hRun => ?_) (fun hPrepared hMade => ?_) h
  · obtain ⟨v, v', -, hChmod⟩ := ensureDirectory_eq_ok hRun
    exact chmod_ok hChmod
  · -- Another parent cannot undo this: it sets the same mode.
    rename_i dir fs fs'
    obtain ⟨node, hNode, hMode⟩ := hMade
    have hStep := hPrepared.node (fs.target dir)
    rw [hNode] at hStep
    rw [Fs.target_eq hPrepared.sameLinks]
    generalize fs'.node (fs.target dir) = node' at hStep
    cases hStep with
    | same => exact ⟨node, rfl, hMode⟩
    | chmodded => exact ⟨_, rfl, rfl⟩

end Ops
end MayflyHelper
