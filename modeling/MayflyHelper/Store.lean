import MayflyHelper.Filesystem.Update
import MayflyHelper.HostRules
import MayflyHelper.Semantics.Durability
import MayflyHelper.Semantics.Throughout

/-! The host with a disk. A ledger of what a crash may leave of the tree goes
along with the world and answers nothing, so programs run as they do without
it. -/
namespace MayflyHelper

open OracleProgram Durability

/-- A world and what a crash may leave of its tree. -/
structure Store where
  world : World
  ledger : Ledger Loc Node

namespace FsCall

/-- What a crash may leave of a file that is written to: it may be cut off
anywhere. -/
def cutOff (bytes : Bytes) (node : Node) : Set Node :=
  {found | ∃ part, part <+: node.bytes.getD [] ++ bytes ∧
    found = { node with kind := .regular part }}

def withMode (mode : Nat) (node : Node) : Set Node := {{ node with mode }}

/-- The ledger after a call that is not made to fail. A change is recorded if
the call reports success. -/
def persist (host : Host) (ordinal : Nat) (fs : Fs) (ledger : Ledger Loc Node) :
    FsCall → Ledger Loc Node
  | .mkdir path =>
      match perform host ordinal (.mkdir path) fs with
      | (.ok _, fs') => ledger.create (fs.entry path) {node | fs'.node (fs.entry path) = some node}
      | (.error _, _) => ledger
  | .chmod path mode =>
      match perform host ordinal (.chmod path mode) fs with
      | (.ok _, _) => ledger.revise (fs.target path) (withMode mode)
      | (.error _, _) => ledger
  | .createTemp dir =>
      match perform host ordinal (.createTemp dir) fs with
      | (.ok tmp, fs') => ledger.create tmp.loc {node | fs'.node tmp.loc = some node}
      | (.error _, _) => ledger
  | .fchmod tmp mode => ledger.revise tmp.loc (withMode mode)
  | .write tmp bytes => ledger.revise tmp.loc (cutOff bytes)
  | .fsync tmp =>
      match fs.node tmp.loc with
      | some node => ledger.sync tmp.loc node
      | none => ledger
  | .dropTemp tmp => if fs.isDir tmp.loc then ledger else ledger.remove tmp.loc
  | .rename src dst =>
      match perform host ordinal (.rename src dst) fs with
      | (.ok _, _) => if fs.entry dst = src.loc then ledger else ledger.move src.loc (fs.entry dst)
      | (.error _, _) => ledger
  | .fsyncDir dir =>
      match perform host ordinal (.fsyncDir dir) fs with
      | (.ok _, _) => ledger.settle fun loc => ∃ name, loc = name :: fs.target dir
      | (.error _, _) => ledger
  | .unlink path =>
      match perform host ordinal (.unlink path) fs with
      | (.ok _, _) => ledger.remove (fs.entry path)
      | (.error _, _) => ledger
  | .pathExists _ | .isDir _ | .lstat _ | .read _ => ledger

/-- A `write` that fails may have come some way. -/
def persistFailed (ledger : Ledger Loc Node) : FsCall → Ledger Loc Node
  | .write tmp bytes => ledger.revise tmp.loc (cutOff bytes)
  | _ => ledger

section Spares

variable {host : Host} {ordinal : Nat} {fs fs' : Fs} {loc : Loc} {file : Node}
  {ledger : Ledger Loc Node}
  {call : FsCall}

/-- The call is not about the entry at `loc`, nor about the file there. -/
def Spares (fs : Fs) (loc : Loc) : FsCall → Prop
  | .chmod path _ => loc ≠ fs.target path
  | .fchmod tmp _ | .write tmp _ | .dropTemp tmp => loc ≠ tmp.loc
  | .rename src dst => loc ≠ src.loc ∧ loc ≠ fs.entry dst
  | .unlink path => loc ≠ fs.entry path
  | _ => True

theorem ne_of_node {l : Loc} (hNode : fs.node loc = some file) (hAbsent : fs.node l = none) :
    loc ≠ l := by
  rintro rfl
  cases hNode.symm.trans hAbsent

/-- A call that found its entry acts on it. -/
theorem atEntry_cases (resolved : Fs.Resolved) (fs : Fs)
    (act : Loc → Except IoErrorKind Unit × Fs) :
    (∃ kind, atEntry resolved fs act = (.error kind, fs)) ∨
      atEntry resolved fs act = act resolved.loc := by
  rcases resolved with ⟨found, _ | kind⟩
  · exact Or.inr rfl
  · exact Or.inl ⟨kind, rfl⟩

/-- A directory is only made where there is nothing. -/
theorem mkdir_cases (host : Host) (ordinal : Nat) (path : Path) (fs : Fs) :
    (∃ kind, perform host ordinal (.mkdir path) fs = (.error kind, fs)) ∨
      fs.node (fs.entry path) = none ∧ fs.CanPut (fs.entry path) ∧
        ∃ node, perform host ordinal (.mkdir path) fs = (.ok (), fs.put (fs.entry path) node) := by
  simp only [perform]
  rcases atEntry_cases (fs.resolve false path) fs _ with ⟨kind, hError⟩ | hAct
  · exact Or.inl ⟨kind, hError⟩
  · rw [hAct]
    split
    · exact Or.inl ⟨.other, rfl⟩
    rename_i hNone
    split
    · rename_i hPut
      exact Or.inr ⟨by simpa [Fs.entry] using hNone, hPut, _, rfl⟩
    · exact Or.inl ⟨.notFound, rfl⟩

/-- A temporary file comes up empty and private, where nothing was. -/
theorem createTemp_cases (host : Host) (ordinal : Nat) (dir : Path) (fs : Fs) :
    (∃ kind, perform host ordinal (.createTemp dir) fs = (.error kind, fs)) ∨
      ∃ tmp : TempFile, fs.node tmp.loc = none ∧ fs.CanPut tmp.loc ∧
        perform host ordinal (.createTemp dir) fs =
          (.ok tmp, fs.put tmp.loc ⟨.regular [], 0o600, rootUid⟩) := by
  simp only [perform]
  rcases fs.resolve true dir with ⟨found, _ | kind⟩
  · dsimp only
    split
    · rename_i hDir
      have hAbsent := (host.tempName ordinal fs found).property.2
      exact Or.inr ⟨⟨_⟩, hAbsent, Fs.canPut_of_absent hDir hAbsent, rfl⟩
    · exact Or.inl ⟨_, rfl⟩
  · exact Or.inl ⟨kind, rfl⟩

/-- A successful `chmod` sets the mode of what the path leads to. -/
theorem chmod_cases (host : Host) (ordinal : Nat) (path : Path) (mode : Nat) (fs : Fs) :
    (∃ kind, perform host ordinal (.chmod path mode) fs = (.error kind, fs)) ∨
      perform host ordinal (.chmod path mode) fs = (.ok (), fs.setMode (fs.target path) mode) := by
  simp only [perform]
  rcases atEntry_cases (fs.resolve true path) fs _ with ⟨kind, hError⟩ | hAct
  · exact Or.inl ⟨kind, hError⟩
  · rw [hAct]
    split
    · exact Or.inr rfl
    · exact Or.inl ⟨.notFound, rfl⟩

/-- A rename fails, or names the file itself, or moves it over what is no
directory. -/
theorem rename_cases (host : Host) (ordinal : Nat) (src : TempFile) (dst : Path) (fs : Fs) :
    (∃ kind, perform host ordinal (.rename src dst) fs = (.error kind, fs)) ∨
      ∃ node, fs.node src.loc = some node ∧
        ((fs.entry dst = src.loc ∧ perform host ordinal (.rename src dst) fs = (.ok (), fs)) ∨
        (fs.entry dst ≠ src.loc ∧ fs.CanPut (fs.entry dst) ∧
          perform host ordinal (.rename src dst) fs =
            (.ok (), (fs.put (fs.entry dst) node).remove src.loc))) := by
  simp only [perform]
  rcases atEntry_cases (fs.resolve false dst) fs _ with ⟨kind, hError⟩ | hAct
  · exact Or.inl ⟨kind, hError⟩
  · rw [hAct]
    cases hNode : fs.node src.loc with
    | none => exact Or.inl ⟨.notFound, rfl⟩
    | some node =>
        dsimp only
        split
        · rename_i hSame
          exact Or.inr ⟨node, rfl, Or.inl ⟨hSame, rfl⟩⟩
        rename_i hNe
        split
        · rename_i hPut
          exact Or.inr ⟨node, rfl, Or.inr ⟨hNe, hPut, rfl⟩⟩
        · exact Or.inl ⟨.other, rfl⟩

/-- An `unlink` takes the entry, and never a directory. -/
theorem unlink_cases (host : Host) (ordinal : Nat) (path : Path) (fs : Fs) :
    (∃ kind, perform host ordinal (.unlink path) fs = (.error kind, fs)) ∨
      fs.isDir (fs.entry path) = false ∧
        perform host ordinal (.unlink path) fs = (.ok (), fs.remove (fs.entry path)) := by
  simp only [perform]
  rcases atEntry_cases (fs.resolve false path) fs _ with ⟨kind, hError⟩ | hAct
  · exact Or.inl ⟨kind, hError⟩
  · rw [hAct]
    cases hNode : fs.node (fs.resolve false path).loc with
    | none => exact Or.inl ⟨.notFound, rfl⟩
    | some node =>
        dsimp only
        split
        · exact Or.inl ⟨.other, rfl⟩
        · rename_i hFile
          exact Or.inr ⟨by simpa [Fs.isDir, Fs.entry, hNode] using hFile, rfl⟩

/-- A spared file is still there. -/
theorem perform_spares (hSpares : call.Spares fs loc) (hNode : fs.node loc = some file) :
    (call.perform host ordinal fs).2.node loc = some file := by
  cases call with
  | pathExists path | isDir path | lstat path | read path | fsync tmp | fsyncDir dir => exact hNode
  | mkdir path =>
      rcases mkdir_cases host ordinal path fs with ⟨kind, hError⟩ | ⟨hAbsent, -, node, hOk⟩
      · rw [hError]
        exact hNode
      · rw [hOk, Fs.node_put_of_ne (ne_of_node hNode hAbsent)]
        exact hNode
  | createTemp dir =>
      rcases createTemp_cases host ordinal dir fs with ⟨kind, hError⟩ | ⟨tmp, hAbsent, -, hOk⟩
      · rw [hError]
        exact hNode
      · rw [hOk, Fs.node_put_of_ne (ne_of_node hNode hAbsent)]
        exact hNode
  | chmod path mode =>
      rcases chmod_cases host ordinal path mode fs with ⟨kind, hError⟩ | hOk
      · rw [hError]
        exact hNode
      · rw [hOk, Fs.node_setMode_of_ne hSpares]
        exact hNode
  | fchmod tmp mode => exact (Fs.node_setMode_of_ne hSpares mode).trans hNode
  | write tmp bytes =>
      simp only [perform]
      split
      · exact (Fs.node_put_of_ne hSpares).trans hNode
      · exact hNode
  | dropTemp tmp => exact (Fs.node_remove_of_ne hSpares).trans hNode
  | rename src dst =>
      rcases rename_cases host ordinal src dst fs with
        ⟨kind, hError⟩ | ⟨node, -, ⟨-, hOk⟩ | ⟨-, -, hOk⟩⟩
      · rw [hError]
        exact hNode
      · rw [hOk]
        exact hNode
      · rw [hOk, Fs.node_remove_of_ne hSpares.1, Fs.node_put_of_ne hSpares.2]
        exact hNode
  | unlink path =>
      rcases unlink_cases host ordinal path fs with ⟨kind, hError⟩ | ⟨-, hOk⟩
      · rw [hError]
        exact hNode
      · rw [hOk, Fs.node_remove_of_ne hSpares]
        exact hNode

/-- And it stays on disk. -/
theorem persist_spares (hSpares : call.Spares fs loc) (hNode : fs.node loc = some file)
    (h : ledger.Standing loc file) : (call.persist host ordinal fs ledger).Standing loc file := by
  cases call with
  | pathExists path | isDir path | lstat path | read path => exact h
  | fsync tmp =>
      simp only [persist]
      split
      · rename_i node hTmp
        by_cases hSame : tmp.loc = loc
        · rw [hSame] at hTmp ⊢
          cases hNode.symm.trans hTmp
          exact h.sync_self
        · exact h.sync hSame _
      · exact h
  | fsyncDir dir =>
      simp only [persist]
      split
      · exact h.settle _
      · exact h
  | mkdir path =>
      rcases mkdir_cases host ordinal path fs with ⟨kind, hError⟩ | ⟨hAbsent, -, node, hOk⟩
      · simp only [persist, hError]
        exact h
      · simp only [persist, hOk]
        exact h.create (ne_of_node hNode hAbsent) _
  | createTemp dir =>
      rcases createTemp_cases host ordinal dir fs with ⟨kind, hError⟩ | ⟨tmp, hAbsent, -, hOk⟩
      · simp only [persist, hError]
        exact h
      · simp only [persist, hOk]
        exact h.create (ne_of_node hNode hAbsent) _
  | chmod path mode =>
      simp only [persist]
      split
      · exact h.revise hSpares.symm _
      · exact h
  | fchmod tmp mode => exact h.revise (Ne.symm hSpares) _
  | write tmp bytes => exact h.revise (Ne.symm hSpares) _
  | dropTemp tmp =>
      simp only [persist]
      split
      · exact h
      · exact h.remove hSpares
  | rename src dst =>
      simp only [persist]
      split
      · split
        · exact h
        · exact h.move hSpares.1 hSpares.2
      · exact h
  | unlink path =>
      simp only [persist]
      split
      · exact h.remove hSpares
      · exact h

/-- A failing call that spares a file leaves it standing. -/
theorem persistFailed_spares (hSpares : call.Spares fs loc) (h : ledger.Standing loc file) :
    (call.persistFailed ledger).Standing loc file := by
  cases call with
  | write tmp bytes => exact h.revise (Ne.symm hSpares) _
  | _ => exact h

end Spares

section Syncs

variable {host : Host} {ordinal : Nat} {fs : Fs} {loc : Loc} {ledger : Ledger Loc Node}
  {call : FsCall}

/-- The calls that put something on disk. -/
def Syncs (call : FsCall) : Prop := call.kind = .fsync ∨ call.kind = .fsyncDir

instance : DecidablePred Syncs := fun call =>
  inferInstanceAs (Decidable (call.kind = .fsync ∨ call.kind = .fsyncDir))

/-- What a crash may leave before any other call, it may leave after it. -/
theorem survivors_subset_persist (h : ¬call.Syncs) :
    ledger.survivors loc ⊆ (call.persist host ordinal fs ledger).survivors loc := by
  cases call with
  | pathExists path | isDir path | lstat path | read path => exact subset_rfl
  | fsync tmp => exact absurd (Or.inl rfl) h
  | fsyncDir dir => exact absurd (Or.inr rfl) h
  | mkdir path | createTemp dir =>
      simp only [persist]
      split
      · exact Ledger.survivors_subset_create _
      · exact subset_rfl
  | chmod path mode =>
      simp only [persist]
      split
      · exact Ledger.survivors_subset_revise _
      · exact subset_rfl
  | fchmod tmp mode => exact Ledger.survivors_subset_revise _
  | write tmp bytes => exact Ledger.survivors_subset_revise _
  | dropTemp tmp =>
      simp only [persist]
      split
      · exact subset_rfl
      · exact Ledger.survivors_subset_remove
  | rename src dst =>
      simp only [persist]
      split
      · split
        · exact subset_rfl
        · exact Ledger.survivors_subset_move
      · exact subset_rfl
  | unlink path =>
      simp only [persist]
      split
      · exact Ledger.survivors_subset_remove
      · exact subset_rfl

/-- A failing call syncs nothing. -/
theorem survivors_subset_persistFailed :
    ledger.survivors loc ⊆ (call.persistFailed ledger).survivors loc := by
  cases call with
  | write tmp bytes => exact Ledger.survivors_subset_revise _
  | _ => exact subset_rfl

end Syncs

section Tracks

variable {host : Host} {ordinal : Nat} {fs fs' : Fs} {loc : Loc} {ledger : Ledger Loc Node}
  {call : FsCall}

/-- The files of the tree may be left by a crash. -/
def Tracked (fs : Fs) (ledger : Ledger Loc Node) : Prop :=
  ledger.Tracks (fun loc => fs.isDir loc = false) fs.node

/-- A file where a file is seen was no directory before. -/
theorem frame_of_node (hNode : fs'.node loc = fs.node loc) (hFile : fs'.isDir loc = false) :
    fs.isDir loc = false ∧ fs'.node loc = fs.node loc := by
  refine ⟨?_, hNode⟩
  rw [Fs.isDir, hNode] at hFile
  exact hFile

/-- The ledger follows a change of a mode. -/
theorem tracked_setMode (h : Tracked fs ledger) (loc : Loc) (mode : Nat) :
    Tracked (fs.setMode loc mode) (ledger.revise loc (withMode mode)) := by
  refine h.revise (fun other hNe hFile => frame_of_node (Fs.node_setMode_of_ne hNe mode) hFile) ?_
  intro hFile
  simp only [Fs.isDir, Fs.setMode_node, if_true] at hFile ⊢
  cases hNode : fs.node loc with
  | none => exact ⟨rfl, Or.inl rfl⟩
  | some node =>
      rw [hNode] at hFile
      exact ⟨hFile, Or.inr ⟨node, rfl, _, rfl, rfl⟩⟩

/-- A part of the bytes is one of the things a crash may leave. -/
theorem tracked_write {node : Node} {bytes part : Bytes} (h : Tracked fs ledger)
    (hNode : fs.node loc = some node) (hPart : part <+: bytes) :
    Tracked (fs.put loc { node with kind := .regular (node.bytes.getD [] ++ part) })
      (ledger.revise loc (cutOff bytes)) := by
  refine h.revise (fun other hNe hFile => frame_of_node (Fs.node_put_of_ne hNe) hFile) ?_
  intro hFile
  by_cases hPut : fs.CanPut loc
  · rw [Fs.put_node_self hPut]
    exact ⟨hPut.2.2,
      Or.inr ⟨node, hNode, _, ⟨_, (List.prefix_append_right_inj _).mpr hPart, rfl⟩, rfl⟩⟩
  · rw [Fs.put, dif_neg hPut] at hFile ⊢
    exact ⟨hFile, Or.inl rfl⟩

/-- It follows a new file. -/
theorem tracked_create {node : Node} (h : Tracked fs ledger) (hPut : fs.CanPut loc) :
    Tracked (fs.put loc node)
      (ledger.create loc {found | (fs.put loc node).node loc = some found}) := by
  refine h.create (fun other hNe hFile => frame_of_node (Fs.node_put_of_ne hNe) hFile) ?_
  exact ⟨node, Fs.put_node_self hPut, Fs.put_node_self hPut⟩

/-- It follows a removal. -/
theorem tracked_remove (h : Tracked fs ledger) (hFile : fs.isDir loc = false) :
    Tracked (fs.remove loc) (ledger.remove loc) := by
  refine h.remove (fun other hNe hFile => frame_of_node (Fs.node_remove_of_ne hNe) hFile) ?_
  rw [Fs.remove_node hFile, if_pos rfl]

/-- It follows a rename. -/
theorem tracked_move {src : Loc} {node : Node} (h : Tracked fs ledger)
    (hNode : fs.node src = some node)
    (hPut : fs.CanPut loc) (hNe : loc ≠ src) :
    Tracked ((fs.put loc node).remove src) (ledger.move src loc) := by
  have hDst : ((fs.put loc node).remove src).node loc = fs.node src := by
    rw [Fs.node_remove_of_ne hNe, Fs.put_node_self hPut, hNode]
  refine h.move ?_ ?_ ?_
  · intro hFile
    rw [Fs.isDir, hDst] at hFile
    exact ⟨hFile, hDst⟩
  · intro hFile _
    by_cases hPlain : (fs.put loc node).isDir src = false
    · rw [Fs.remove_node hPlain, if_pos rfl]
    · rw [Fs.remove, dif_neg hPlain] at hFile
      exact absurd hFile hPlain
  · intro other hSrc hLoc hFile
    exact frame_of_node ((Fs.node_remove_of_ne hSrc).trans (Fs.node_put_of_ne hLoc)) hFile

/-- After every call the files are as a crash may leave them. -/
theorem tracked_persist (h : Tracked fs ledger) :
    Tracked (call.perform host ordinal fs).2 (call.persist host ordinal fs ledger) := by
  cases call with
  | pathExists path | isDir path | lstat path | read path => exact h
  | mkdir path =>
      rcases mkdir_cases host ordinal path fs with ⟨kind, hError⟩ | ⟨-, hPut, node, hOk⟩
      · simp only [persist, hError]
        exact h
      · simp only [persist, hOk]
        exact tracked_create h hPut
  | createTemp dir =>
      rcases createTemp_cases host ordinal dir fs with ⟨kind, hError⟩ | ⟨tmp, -, hPut, hOk⟩
      · simp only [persist, hError]
        exact h
      · simp only [persist, hOk]
        exact tracked_create h hPut
  | chmod path mode =>
      rcases chmod_cases host ordinal path mode fs with ⟨kind, hError⟩ | hOk
      · simp only [persist, hError]
        exact h
      · simp only [persist, hOk]
        exact tracked_setMode h _ mode
  | fchmod tmp mode => exact tracked_setMode h tmp.loc mode
  | write tmp bytes =>
      simp only [persist, perform]
      split
      · rename_i node hNode
        exact tracked_write h hNode (List.prefix_refl bytes)
      · exact h.revise (fun _ _ hFile => ⟨hFile, rfl⟩) fun hFile => ⟨hFile, Or.inl rfl⟩
  | fsync tmp =>
      simp only [persist, perform]
      split
      · rename_i node hNode
        exact h.sync hNode
      · exact h
  | dropTemp tmp =>
      simp only [persist, perform]
      cases hDir : fs.isDir tmp.loc with
      | true =>
          rw [if_pos rfl, Fs.remove, dif_neg (by simp [hDir])]
          exact h
      | false =>
          rw [if_neg Bool.false_ne_true]
          exact tracked_remove h hDir
  | fsyncDir dir =>
      simp only [persist, perform]
      split
      · exact h.settle _
      · exact h
  | rename src dst =>
      rcases rename_cases host ordinal src dst fs with
        ⟨kind, hError⟩ | ⟨node, hNode, ⟨hSame, hOk⟩ | ⟨hNe, hPut, hOk⟩⟩
      · simp only [persist, hError]
        exact h
      · simp only [persist, hOk, if_pos hSame]
        exact h
      · simp only [persist, hOk, if_neg hNe]
        exact tracked_move h hNode hPut hNe
  | unlink path =>
      rcases unlink_cases host ordinal path fs with ⟨kind, hError⟩ | ⟨hFile, hOk⟩
      · simp only [persist, hError]
        exact h
      · simp only [persist, hOk]
        exact tracked_remove h hFile

/-- It follows a call that fails. -/
theorem tracked_persistFailed (h : Tracked fs ledger) : Tracked fs (call.persistFailed ledger) := by
  cases call with
  | write tmp bytes =>
      exact h.revise (fun _ _ hFile => ⟨hFile, rfl⟩) fun hFile => ⟨hFile, Or.inl rfl⟩
  | _ => exact h

end Tracks

end FsCall

def Call.Spares (fs : Fs) (loc : Loc) : Call → Prop
  | .fs call => call.Spares fs loc
  | .sshd _ => True

def Call.Syncs : Call → Prop
  | .fs call => call.Syncs
  | .sshd _ => False

instance : DecidablePred Call.Syncs
  | .fs call => inferInstanceAs (Decidable call.Syncs)
  | .sshd _ => isFalse id

namespace Store

def record (host : Host) (s : Store) : Call → Ledger Loc Node
  | .fs call =>
      if host.failsAt call (s.world.count call.kind) then call.persistFailed s.ledger
      else call.persist host (s.world.count call.kind) s.world.fs s.ledger
  | .sshd _ => s.ledger

def oracle (host : Host) : Oracle Call Call.Reply Store := fun call s =>
  ((host.oracle call s.world).1, ⟨(host.oracle call s.world).2, s.record host call⟩)

/-- The states of a call in progress. A `write` appends its bytes one part
after the other; every other call takes place at once. -/
def during : Call → Store → Set Store
  | .fs (.write tmp bytes), s =>
      {middle | ∃ node part, s.world.fs.node tmp.loc = some node ∧ part <+: bytes ∧
      middle = ⟨{ s.world with
        fs := s.world.fs.put tmp.loc { node with kind := .regular (node.bytes.getD [] ++ part) } },
        s.ledger.revise tmp.loc (FsCall.cutOff bytes)⟩}
  | _, _ => ∅

/-- The ledger does not interfere. -/
theorem run_world (host : Host) {Result : Type} (p : HostProgram Result) (s : Store) :
    (p.run (oracle host) s).1 = (p.run host.oracle s.world).1 ∧
      (p.run (oracle host) s).2.world = (p.run host.oracle s.world).2 :=
  Program.run_projects Store.world (fun _ _ => ⟨rfl, rfl⟩) p s

/-- A call that fails leaves the tree, and in the ledger what a failing call
may do. -/
theorem oracle_of_fails {host : Host} {s : Store} {call : FsCall}
    (h : host.failsAt call (s.world.count call.kind) = true) :
    oracle host (.fs call) s =
      (call.failed, ⟨s.world.advance call.kind s.world.fs, call.persistFailed s.ledger⟩) := by
  rw [oracle, Host.oracle_fs_of_fails h, record, if_pos h]

/-- A call that does its work does it in the tree and in the ledger. -/
theorem oracle_of_performs {host : Host} {s : Store} {call : FsCall}
    (h : host.failsAt call (s.world.count call.kind) = false) :
    oracle host (.fs call) s = ((call.perform host (s.world.count call.kind) s.world.fs).1,
      ⟨s.world.advance call.kind (call.perform host (s.world.count call.kind) s.world.fs).2,
        call.persist host (s.world.count call.kind) s.world.fs s.ledger⟩) := by
  rw [oracle, Host.oracle_fs_of_performs h, record, if_neg (by rw [h]; decide)]

/-- A call that syncs nothing takes nothing from what a crash may leave. -/
theorem survivors_subset_oracle {host : Host} {call : Call} (h : ¬call.Syncs) (s : Store)
    (loc : Loc) :
    s.ledger.survivors loc ⊆ (oracle host call s).2.ledger.survivors loc := by
  cases call with
  | sshd call => exact subset_rfl
  | fs call =>
      cases hFails : host.failsAt call (s.world.count call.kind) with
      | true =>
          rw [oracle_of_fails hFails]
          exact FsCall.survivors_subset_persistFailed
      | false =>
          rw [oracle_of_performs hFails]
          exact FsCall.survivors_subset_persist h

/-- In the middle of a call nothing is synced yet. -/
theorem survivors_subset_during {call : Call} {s middle : Store} (hMiddle : middle ∈ during call s)
    (loc : Loc) :
    s.ledger.survivors loc ⊆ middle.ledger.survivors loc := by
  unfold Store.during at hMiddle
  split at hMiddle
  · obtain ⟨node, part, -, -, rfl⟩ := hMiddle
    exact Ledger.survivors_subset_revise _
  · exact hMiddle.elim

/-- What comes of a store by calls that spare the file at `loc`, by whomever
they are made, and in the middle of such a call. -/
inductive Later (host : Host) (loc : Loc) (s : Store) : Store → Prop where
  | now : Later host loc s s
  | call {t : Store} (call : Call) (h : Later host loc s t) (hSpares : call.Spares t.world.fs loc) :
      Later host loc s (oracle host call t).2
  | middle {t t' : Store} (call : Call) (h : Later host loc s t)
      (hSpares : call.Spares t.world.fs loc)
      (hMiddle : t' ∈ during call t) : Later host loc s t'

/-- The file at `loc` is there, and a crash cannot take it away. -/
structure Keeps (loc : Loc) (file : Node) (s : Store) : Prop where
  node : s.world.fs.node loc = some file
  standing : s.ledger.Standing loc file

/-- A file is kept by a call that spares it. -/
theorem Keeps.oracle {host : Host} {loc : Loc} {file : Node} {s : Store} {call : Call}
    (h : Keeps loc file s)
    (hSpares : call.Spares s.world.fs loc) : Keeps loc file (oracle host call s).2 := by
  cases call with
  | sshd call => exact ⟨h.node, h.standing⟩
  | fs call =>
      cases hFails : host.failsAt call (s.world.count call.kind) with
      | true =>
          rw [oracle_of_fails hFails]
          exact ⟨h.node, FsCall.persistFailed_spares hSpares h.standing⟩
      | false =>
          rw [oracle_of_performs hFails]
          exact ⟨FsCall.perform_spares hSpares h.node,
            FsCall.persist_spares hSpares h.node h.standing⟩

/-- And in the middle of such a call. -/
theorem Keeps.during {loc : Loc} {file : Node} {s middle : Store} {call : Call}
    (h : Keeps loc file s)
    (hSpares : call.Spares s.world.fs loc) (hMiddle : middle ∈ during call s) :
    Keeps loc file middle := by
  unfold Store.during at hMiddle
  split at hMiddle
  · obtain ⟨node, part, -, -, rfl⟩ := hMiddle
    have hNe : loc ≠ _ := hSpares
    exact ⟨(Fs.node_put_of_ne hNe).trans h.node, h.standing.revise hNe.symm _⟩
  · exact hMiddle.elim

/-- And by any number of such calls, by whomever they are made. -/
theorem Keeps.later {host : Host} {loc : Loc} {file : Node} {s t : Store} (h : Keeps loc file s)
    (hLater : Later host loc s t) : Keeps loc file t := by
  induction hLater with
  | now => exact h
  | call call _ hSpares ih => exact ih.oracle hSpares
  | middle call _ hSpares hMiddle ih => exact ih.during hSpares hMiddle

/-- The files are as a crash may leave them. -/
def Consistent (s : Store) : Prop := FsCall.Tracked s.world.fs s.ledger

/-- What is seen may be left: every call keeps that up. -/
theorem Consistent.oracle {host : Host} {s : Store} (h : s.Consistent) (call : Call) :
    (oracle host call s).2.Consistent := by
  cases call with
  | sshd call => exact h
  | fs call =>
      cases hFails : host.failsAt call (s.world.count call.kind) with
      | true =>
          rw [oracle_of_fails hFails]
          exact FsCall.tracked_persistFailed h
      | false =>
          rw [oracle_of_performs hFails]
          exact FsCall.tracked_persist h

/-- And so does every program, at every moment. -/
theorem Consistent.throughout {host : Host} {Result : Type} (p : HostProgram Result) {s : Store}
    (h : s.Consistent) : p.Throughout (Store.oracle host) Store.during Consistent s := by
  induction p generalizing s with
  | done result => exact h
  | query call next ih =>
      refine ⟨h, ?_, ih _ (h.oracle call)⟩
      intro middle hMiddle
      unfold Store.during at hMiddle
      split at hMiddle
      · obtain ⟨node, part, hNode, hPart, rfl⟩ := hMiddle
        exact FsCall.tracked_write h hNode hPart
      · exact hMiddle.elim

/-- In every state of every run, a file that can be seen is one of those that
may survive a crash, and so is its absence. -/
theorem seen_survives {host : Host} {Result : Type} (p : HostProgram Result) {s : Store}
    (h : s.Consistent) :
    p.Throughout (Store.oracle host) Store.during
      (fun t => ∀ loc, t.world.fs.isDir loc = false → t.world.fs.node loc ∈ t.ledger.survivors loc)
        s :=
  (h.throughout p).mono fun _ hTracked _ hFile => hTracked.mem_survivors hFile

end Store

end MayflyHelper
