import MayflyHelper.Semantics.Separation
import MayflyHelper.Store
import MayflyHelper.SecurityRules

/-! What a call adds to what a crash may leave. Under a name that no temporary
file can have, that is little: only four calls add anything, and only at the
entry they are about. -/
namespace MayflyHelper

open OracleProgram Durability

/-- A name that `tempfile` could make up. -/
def Temporary (loc : Loc) : Prop := ∃ name ∈ loc.head?, tempPrefix.isPrefixOf name = true

namespace FsCall

variable {host : Host} {ordinal : Nat} {fs : Fs} {loc : Loc} {ledger : Ledger Loc Node}
  {call : FsCall}
  {found : Option Node}

/-- The temporary file a call is about. -/
def temp : FsCall → Option TempFile
  | .fchmod tmp _ | .write tmp _ | .fsync tmp | .dropTemp tmp | .rename tmp _ => some tmp
  | _ => none

/-- A temporary file has such a name. -/
def Named (call : FsCall) : Prop := ∀ tmp ∈ call.temp, Temporary tmp.loc

/-- What a call adds to what a crash may leave at `loc`. -/
inductive Adds (fs : Fs) (ledger : Ledger Loc Node) (loc : Loc) : FsCall → Option Node → Prop where
  | mkdir {path : Path} {bits : Nat} (hLoc : fs.entry path = loc) (hAbsent : fs.node loc = none) :
      Adds fs ledger loc (.mkdir path) (some ⟨.directory, bits, rootUid⟩)
  | chmod {path : Path} {mode : Nat} {node : Node} (hLoc : fs.target path = loc)
      (hNode : some node ∈ ledger.survivors loc) : Adds fs ledger loc (.chmod path mode)
      (some { node with mode })
  | rename {src : TempFile} {dst : Path} {found : Option Node} (hLoc : fs.entry dst = loc)
      (hWay : (fs.resolve false dst).error = none)
      (hFound : found ∈ ledger.left (ledger.inode src.loc)) :
      Adds fs ledger loc (.rename src dst) found
  | unlink {path : Path} (hLoc : fs.entry path = loc)
      (hWay : (fs.resolve false path).error = none) :
      Adds fs ledger loc (.unlink path) none

/-- A temporary file has another name than what is managed. -/
theorem ne_of_temporary {tmp : TempFile} (hTemp : Temporary tmp.loc) (hLoc : ¬Temporary loc) :
    tmp.loc ≠ loc :=
  fun hSame => hLoc (hSame ▸ hTemp)

/-- An entry that was acted on was found. -/
theorem found_of_atEntry {resolved : Fs.Resolved} {act : Loc → Except IoErrorKind Unit × Fs}
    (h : (atEntry resolved fs act).1 = .ok ()) : resolved.error = none := by
  rcases resolved with ⟨_, _ | kind⟩
  · rfl
  · cases h

/-- New files come under the names of temporary ones. -/
theorem createTemp_temporary {dir : Path} {tmp : TempFile}
    (h : (perform host ordinal (.createTemp dir) fs).1 = .ok tmp) :
    Temporary tmp.loc := by
  simp only [perform] at h
  split at h
  · cases h
  · rename_i found _
    split at h
    · cases h
      exact ⟨_, rfl, (host.tempName ordinal fs found).property.1⟩
    · cases h

/-- A successful `mkdir` makes root's directory where nothing was. -/
theorem mkdir_made {path : Path} {fs' : Fs}
    (h : perform host ordinal (.mkdir path) fs = (.ok (), fs')) :
    fs.node (fs.entry path) = none ∧
      ∃ bits, fs'.node (fs.entry path) = some ⟨.directory, bits, rootUid⟩ := by
  simp only [perform] at h
  rcases atEntry_cases (fs.resolve false path) fs _ with ⟨kind, hError⟩ | hAct
  · cases hError.symm.trans h
  · rw [hAct] at h
    split at h
    · cases h
    rename_i hNone
    split at h
    · rename_i hPut
      cases h
      exact ⟨by simpa [Fs.entry] using hNone, _, Fs.put_node_self hPut⟩
    · cases h

/-- A `mkdir` touches no link. -/
theorem sameLinks_mkdir (host : Host) (ordinal : Nat) (path : Path) (fs : Fs) :
    Fs.SameLinks fs (perform host ordinal (.mkdir path) fs).2 := by
  simp only [perform]
  rcases atEntry_cases (fs.resolve false path) fs _ with ⟨kind, hError⟩ | hAct
  · rw [hError]
    exact .refl _
  · rw [hAct]
    split
    · exact .refl _
    rename_i hNone
    split
    · exact Fs.sameLinks_put_of_link (Fs.link_eq_none_of_absent (by simpa using hNone)) rfl
    · exact .refl _

/-- What a call adds to what may survive is told by the call. -/
theorem mem_survivors_persist (hSeparate : ledger.Separate loc) (hNamed : call.Named)
    (hLoc : ¬Temporary loc)
    (hFound : found ∈ (call.persist host ordinal fs ledger).survivors loc) :
    found ∈ ledger.survivors loc ∨ call.Adds fs ledger loc found := by
  cases call with
  | pathExists path | isDir path | lstat path | read path => exact Or.inl hFound
  | mkdir path =>
      simp only [persist] at hFound
      split at hFound
      · rename_i fs' hOk
        obtain ⟨hAbsent, bits, hMade⟩ := mkdir_made hOk
        rcases Ledger.mem_survivors_create hFound with hOld | ⟨hSame, file, hFile, rfl⟩
        · exact Or.inl hOld
        · cases hMade.symm.trans hFile
          exact Or.inr (.mkdir hSame (hSame ▸ hAbsent))
      · exact Or.inl hFound
  | chmod path mode =>
      simp only [persist] at hFound
      split at hFound
      · rcases Ledger.mem_survivors_revise hSeparate hFound with
          hOld | ⟨hSame, old, file, hOld, hFile, rfl⟩
        · exact Or.inl hOld
        · cases hFile
          exact Or.inr (.chmod hSame hOld)
      · exact Or.inl hFound
  | createTemp dir =>
      simp only [persist] at hFound
      split at hFound
      · rename_i tmp fs' hOk
        have hTemp : Temporary tmp.loc := createTemp_temporary (congrArg Prod.fst hOk)
        rcases Ledger.mem_survivors_create hFound with hOld | ⟨hSame, -⟩
        · exact Or.inl hOld
        · exact absurd hSame (ne_of_temporary hTemp hLoc)
      · exact Or.inl hFound
  | fchmod tmp mode | write tmp bytes =>
      rcases Ledger.mem_survivors_revise hSeparate hFound with hOld | ⟨hSame, -⟩
      · exact Or.inl hOld
      · exact absurd hSame (ne_of_temporary (hNamed _ rfl) hLoc)
  | fsync tmp =>
      simp only [persist] at hFound
      split at hFound
      · rw [Ledger.survivors_sync
          (hSeparate tmp.loc (ne_of_temporary (hNamed _ rfl) hLoc))] at hFound
        exact Or.inl hFound
      · exact Or.inl hFound
  | dropTemp tmp =>
      simp only [persist] at hFound
      split at hFound
      · exact Or.inl hFound
      · rcases Ledger.mem_survivors_remove hFound with hOld | ⟨hSame, -⟩
        · exact Or.inl hOld
        · exact absurd hSame (ne_of_temporary (hNamed _ rfl) hLoc)
  | rename src dst =>
      simp only [persist] at hFound
      split at hFound
      · rename_i fs' hOk
        have hWay := found_of_atEntry (congrArg Prod.fst hOk)
        split at hFound
        · exact Or.inl hFound
        · rcases Ledger.mem_survivors_move (ne_of_temporary (hNamed _ rfl) hLoc).symm hFound with
            hOld | ⟨hSame, hLeft⟩
          · exact Or.inl hOld
          · exact Or.inr (.rename hSame hWay hLeft)
      · exact Or.inl hFound
  | fsyncDir dir =>
      simp only [persist] at hFound
      split at hFound
      · exact Or.inl (Ledger.mem_survivors_settle hFound)
      · exact Or.inl hFound
  | unlink path =>
      simp only [persist] at hFound
      split at hFound
      · rename_i fs' hOk
        have hWay := found_of_atEntry (congrArg Prod.fst hOk)
        rcases Ledger.mem_survivors_remove hFound with hOld | ⟨hSame, rfl⟩
        · exact Or.inl hOld
        · exact Or.inr (.unlink hSame hWay)
      · exact Or.inl hFound

/-- A call lets no file under another name share its versions. -/
theorem separate_persist (h : ledger.Separate loc) (hNamed : call.Named) (hLoc : ¬Temporary loc) :
    (call.persist host ordinal fs ledger).Separate loc := by
  cases call with
  | pathExists path | isDir path | lstat path | read path => exact h
  | fchmod tmp mode | write tmp bytes => exact h
  | mkdir path | createTemp dir =>
      simp only [persist]
      split
      · exact h.create _ _
      · exact h
  | chmod path mode | fsync tmp =>
      simp only [persist]
      split
      · exact h
      · exact h
  | dropTemp tmp =>
      simp only [persist]
      split
      · exact h
      · exact h.remove _
  | rename src dst =>
      simp only [persist]
      split
      · split
        · exact h
        · exact h.move (ne_of_temporary (hNamed _ rfl) hLoc)
      · exact h
  | fsyncDir dir =>
      simp only [persist]
      split
      · exact h.settle _
      · exact h
  | unlink path =>
      simp only [persist]
      split
      · exact h.remove _
      · exact h

/-- A failing call adds nothing. -/
theorem survivors_persistFailed (hSeparate : ledger.Separate loc) (hNamed : call.Named)
    (hLoc : ¬Temporary loc) :
    (call.persistFailed ledger).survivors loc = ledger.survivors loc := by
  cases call with
  | write tmp bytes =>
      exact Ledger.survivors_revise (hSeparate tmp.loc (ne_of_temporary (hNamed _ rfl) hLoc)) _
  | _ => rfl

theorem separate_persistFailed (h : ledger.Separate loc) :
    (call.persistFailed ledger).Separate loc := by
  cases call with
  | _ => exact h

end FsCall

def Call.Named : Call → Prop
  | .fs call => call.Named
  | .sshd _ => True

namespace Store

variable {host : Host} {s t : Store} {call : Call} {loc : Loc} {found : Option Node}

/-- A disk in order: what is seen may survive, and the file under a name of its
own is no other's. -/
structure Orderly (s : Store) : Prop where
  consistent : s.Consistent
  separate : ∀ loc, ¬Temporary loc → s.ledger.Separate loc

namespace Orderly

/-- A disk stays in order through every call that renames only what is
staged. -/
theorem oracle (h : s.Orderly) (hNamed : call.Named) : (Store.oracle host call s).2.Orderly where
  consistent := h.consistent.oracle call
  separate := by
    intro loc hLoc
    cases call with
    | sshd call => exact h.separate loc hLoc
    | fs call =>
        cases hFails : host.failsAt call (s.world.count call.kind) with
        | true =>
            rw [oracle_of_fails hFails]
            exact FsCall.separate_persistFailed (h.separate loc hLoc)
        | false =>
            rw [oracle_of_performs hFails]
            exact FsCall.separate_persist (h.separate loc hLoc) hNamed hLoc

/-- What may survive a call might have survived before, or the call added it. -/
theorem mem_survivors (h : s.Orderly) (hNamed : call.Named) (hLoc : ¬Temporary loc)
    (hFound : found ∈ (Store.oracle host call s).2.ledger.survivors loc) :
    found ∈ s.ledger.survivors loc ∨
      ∃ fsCall, call = .fs fsCall ∧ fsCall.Adds s.world.fs s.ledger loc found := by
  cases call with
  | sshd call => exact Or.inl hFound
  | fs call =>
      cases hFails : host.failsAt call (s.world.count call.kind) with
      | true =>
          rw [oracle_of_fails hFails,
            FsCall.survivors_persistFailed (h.separate loc hLoc) hNamed hLoc] at hFound
          exact Or.inl hFound
      | false =>
          rw [oracle_of_performs hFails] at hFound
          rcases FsCall.mem_survivors_persist (h.separate loc hLoc) hNamed hLoc hFound with
            hOld | hAdds
          · exact Or.inl hOld
          · exact Or.inr ⟨call, rfl, hAdds⟩

/-- In the middle of a call nothing is added. -/
theorem middle (h : s.Orderly) (hNamed : call.Named) (hMiddle : t ∈ during call s) :
    t.Orderly ∧ ∀ loc, ¬Temporary loc → t.ledger.survivors loc = s.ledger.survivors loc := by
  unfold Store.during at hMiddle
  split at hMiddle
  · obtain ⟨node, part, hNode, hPart, rfl⟩ := hMiddle
    refine ⟨⟨FsCall.tracked_write h.consistent hNode hPart, h.separate⟩, ?_⟩
    intro loc hLoc
    exact Ledger.survivors_revise
      (h.separate loc hLoc _ (FsCall.ne_of_temporary (hNamed _ rfl) hLoc)) _
  · exact hMiddle.elim

end Orderly

end Store

end MayflyHelper
