import MayflyHelper.Filesystem.Growth
import MayflyHelper.Acceptance

/-! When the managed directories can be made, and what that changes, told from
the tree: what is missing on the way to a parent, what is in the way, and
which mode stands where the parent leads. -/
namespace MayflyHelper

open OracleProgram

/-- The directory a `mkdir` makes. -/
def newDir (umask : Nat) : Node := ⟨.directory, 0o777 - (0o777 &&& umask), rootUid⟩

theorem newDir_isDir (umask : Nat) : (newDir umask).isDir = true := rfl

/-- The calls `ensure_directory` looks and makes directories with. -/
def FsKind.preparing : List FsKind := [.pathExists, .isDir, .mkdir, .lstat]

/-- No call of the listed kinds is made to fail. -/
def Host.Spares (host : Host) (kinds : List FsKind) : Prop :=
  ∀ kind ∈ kinds, ∀ ordinal, host.fails kind ordinal = false

theorem Host.Reliable.spares {host : Host} (h : host.Reliable) (kinds : List FsKind) :
    host.Spares kinds :=
  fun kind _ ordinal => h kind ordinal

namespace Ops

variable {host : Host} {w : World} {path : Path}

/-- A directory is made where one can be added, and nowhere else. -/
theorem run_mkdir (host : Host) (w : World) (path : Path) :
    (fsCall (.mkdir path)).run host.oracle w =
      if host.fails .mkdir (w.count .mkdir) then (.error .other, w.after [.mkdir] w.fs)
      else (if w.fs.Vacant path then .ok ()
          else if w.fs.Orphaned path then .error .notFound else .error .other,
        w.after [.mkdir] (w.fs.withDir (newDir host.umask) path)) := by
  cases hFails : host.fails .mkdir (w.count .mkdir) with
  | true =>
      rw [if_pos rfl]
      exact run_fails (.mkdir path) (by simpa [Host.failsAt, FsCall.kind] using hFails)
  | false =>
      rw [if_neg (by simp)]
      refine run_performs (.mkdir path) (by simpa [Host.failsAt, FsCall.kind] using hFails) ?_
      simp only [FsCall.perform, FsCall.atEntry]
      rcases hResolved : w.fs.resolve false path with ⟨loc, _ | kind⟩
      · have hLoc : w.fs.entry path = loc := by rw [Fs.entry, hResolved]
        dsimp only
        by_cases hSome : (w.fs.node loc).isSome = true
        · have hThere : w.fs.node loc ≠ none := by
            intro hAbsent
            rw [hAbsent] at hSome
            cases hSome
          rw [if_pos hSome, Fs.withDir, if_neg, if_neg, if_neg]
          · rintro ⟨-, hAbsent, -⟩
            exact hThere (hLoc ▸ hAbsent)
          · rintro (hMissing | ⟨-, hAbsent, -⟩)
            · rw [hResolved] at hMissing
              cases hMissing
            · exact hThere (hLoc ▸ hAbsent)
          · rintro ⟨-, hAbsent, -⟩
            exact hThere (hLoc ▸ hAbsent)
        · have hAbsent : w.fs.node loc = none := by simpa using hSome
          rw [if_neg hSome]
          by_cases hPut : w.fs.CanPut loc
          · have hVacant : w.fs.Vacant path :=
              ⟨by rw [hResolved], by rw [hLoc, hAbsent], by rw [hLoc]; exact hPut⟩
            rw [if_pos hPut, if_pos hVacant, Fs.withDir, if_pos hVacant, hLoc]
            rfl
          · have hOrphaned : w.fs.Orphaned path :=
              Or.inr ⟨by rw [hResolved], by rw [hLoc, hAbsent], by rw [hLoc]; exact hPut⟩
            have hNot := Fs.not_vacant_of_orphaned hOrphaned
            rw [if_neg hPut, if_neg hNot, if_pos hOrphaned, Fs.withDir_of_not_vacant hNot]
      · have hNot : ¬ w.fs.Vacant path := by
          rintro ⟨hFound, -⟩
          rw [hResolved] at hFound
          cases hFound
        rw [if_neg hNot, Fs.withDir_of_not_vacant hNot]
        dsimp only
        cases kind with
        | notFound =>
            have hOrphaned : w.fs.Orphaned path := Or.inl (by rw [hResolved])
            rw [if_pos hOrphaned]
        | other =>
            have hReachable : ¬ w.fs.Orphaned path := by
              rintro (hMissing | ⟨hFound, -⟩)
              · rw [hResolved] at hMissing
                cases hMissing
              · rw [hResolved] at hFound
                cases hFound
            rw [if_neg hReachable]

/-- After a failed `mkdir` a directory that is there will do. -/
theorem run_orIsDir (host : Host) (w : World) (path : Path) (kind : IoErrorKind) :
    (orIsDir path kind).run host.oracle w =
      (if host.fails .isDir (w.count .isDir) = false ∧ w.fs.LeadsToDir path then .ok ()
       else .error kind,
        w.after [.isDir] w.fs) := by
  simp only [orIsDir, Program.run_bind]
  cases hFails : host.fails .isDir (w.count .isDir) with
  | true =>
      rw [run_fails (.isDir path) (by simpa [Host.failsAt, FsCall.kind] using hFails)]
      simp only [FsCall.failed]
      rfl
  | false =>
      rw [run_performs (.isDir path) (by simpa [Host.failsAt, FsCall.kind] using hFails) rfl]
      have hReply : (w.fs.lookup true path).toOption.any Node.isDir =
        decide (w.fs.LeadsToDir path) := by
        rw [Bool.eq_iff_iff, decide_eq_true_iff]
        constructor
        · intro hDir
          cases hLookup : w.fs.lookup true path with
          | error kind => simp [hLookup, Except.toOption] at hDir
          | ok node =>
              obtain ⟨hFound, hNode⟩ := Fs.lookup_eq_ok_iff.mp hLookup
              refine ⟨hFound, ?_⟩
              rw [hLookup] at hDir
              rw [Fs.isDir, Fs.target, hNode]
              exact hDir
        · rintro ⟨hFound, hDir⟩
          obtain ⟨node, hNode, hHere⟩ := (Option.any_eq_true ..).mp hDir
          rw [Fs.lookup_eq_ok_iff.mpr ⟨hFound, hNode⟩]
          exact hHere
      simp only [hReply, true_and, FsCall.kind]
      by_cases hLeads : w.fs.LeadsToDir path <;> simp [hLeads]

/-- What `create_dir_all` comes to: every entry is as it was or as in the tree
with the missing directories, and a success provides them all. Where no look
and no `mkdir` is made to fail, all that can be added is added, and there is a
success exactly if that leads to a directory. -/
structure MakesDirs (host : Host) (w : World) (absolute : Bool) (components : List Name)
    (result : Except IoErrorKind Unit × World) : Prop where
  between : ∀ loc, result.2.fs.node loc = w.fs.node loc ∨
    result.2.fs.node loc = (w.fs.withDirs (newDir host.umask) absolute components).node loc
  made : result.1 = .ok () → result.2.fs = w.fs.withDirs (newDir host.umask) absolute components ∧
    ((Fs.pathOf absolute components).isEmpty = true ∨
    result.2.fs.LeadsToDir (Fs.pathOf absolute components))
  all : host.Spares FsKind.preparing →
    result.2.fs = w.fs.withDirs (newDir host.umask) absolute components ∧
      ((Fs.pathOf absolute components).isEmpty = true ∨
        result.2.fs.LeadsToDir (Fs.pathOf absolute components) → result.1 = .ok ())

/-- The last attempt at a directory: it is there already, or nothing helps. -/
theorem makesDirs_of_orIsDir {absolute : Bool} {name : Name} {above : List Name}
    {kind : IoErrorKind}
    {w v : World}
    (hBetween : ∀ loc, v.fs.node loc = w.fs.node loc ∨
      v.fs.node loc = (w.fs.withDirs (newDir host.umask) absolute (name :: above)).node loc)
    (hMade : v.fs.LeadsToDir (Fs.pathOf absolute (name :: above)) →
      v.fs = w.fs.withDirs (newDir host.umask) absolute (name :: above))
    (hAll : host.Spares FsKind.preparing →
      v.fs = w.fs.withDirs (newDir host.umask) absolute (name :: above)) :
    MakesDirs host w absolute (name :: above)
      ((orIsDir (Fs.pathOf absolute (name :: above)) kind).run host.oracle v) := by
  rw [run_orIsDir]
  refine ⟨hBetween, fun hOk => ?_, fun hSpares => ⟨hAll hSpares, ?_⟩⟩
  · split at hOk
    · rename_i hLeads
      exact ⟨hMade hLeads.2, Or.inr hLeads.2⟩
    · cases hOk
  · rintro (hEmpty | hLeads)
    · simp [Fs.pathOf, Path.isEmpty] at hEmpty
    · exact if_pos ⟨hSpares .isDir (by decide) _, hLeads⟩

/-- The root is there already. -/
theorem makesDirs_root (host : Host) (w : World) :
    MakesDirs host w true [] ((createDirAllFrom true []).run host.oracle w) := by
  have hRoot : w.fs.LeadsToDir (Fs.pathOf true []) := ⟨rfl, w.fs.root⟩
  have hThere := Fs.not_vacant_of_leadsToDir hRoot
  have hReachable : ¬ w.fs.Orphaned (Fs.pathOf true []) := fun h =>
    Fs.not_leadsToDir_of_orphaned h hRoot
  have hRun : (createDirAllFrom true []).run host.oracle w =
      (orIsDir (Fs.pathOf true []) .other).run host.oracle (w.after [.mkdir] w.fs) := by
    unfold createDirAllFrom
    simp only [Path.isEmpty, Bool.not_true, Bool.false_and, Bool.false_eq_true, if_false,
      Program.run_bind]
    have hMkdir := run_mkdir host w (Fs.pathOf true [])
    rw [if_neg hThere, if_neg hReachable, Fs.withDir_of_not_vacant hThere, ite_self] at hMkdir
    rw [Fs.pathOf, List.reverse_nil] at hMkdir
    rw [hMkdir]
    rfl
  rw [hRun, run_orIsDir]
  refine ⟨fun _ => Or.inl rfl, fun _ => ⟨rfl, Or.inr hRoot⟩, fun hSpares => ⟨rfl, fun _ => ?_⟩⟩
  exact if_pos ⟨hSpares .isDir (by decide) _, hRoot⟩

section Below

variable {absolute : Bool} {name : Name} {above : List Name} {v : World}

/-- A look at the directory while the tree is as it was. It settles the matter,
unless a directory could be added or misses the one above it. -/
theorem makesDirs_look (kind : IoErrorKind) (hThere : host.Spares FsKind.preparing →
      ¬ w.fs.Vacant (Fs.pathOf absolute (name :: above)) ∧
        ¬ w.fs.Orphaned (Fs.pathOf absolute (name :: above))) :
    MakesDirs host w absolute (name :: above)
      ((orIsDir (Fs.pathOf absolute (name :: above)) kind).run
        host.oracle (w.after [.mkdir] w.fs)) := by
  have hSame : ¬ w.fs.Vacant (Fs.pathOf absolute (name :: above)) →
      ¬ w.fs.Orphaned (Fs.pathOf absolute (name :: above)) →
      w.fs = w.fs.withDirs (newDir host.umask) absolute (name :: above) := by
    intro hTaken hReachable
    rw [Fs.withDirs, if_neg hReachable, Fs.withDir_of_not_vacant hTaken]
  refine makesDirs_of_orIsDir (fun _ => Or.inl rfl) (fun hLeads => ?_) fun hSpares => ?_
  · exact hSame (Fs.not_vacant_of_leadsToDir hLeads) fun h =>
      Fs.not_leadsToDir_of_orphaned h hLeads
  · exact hSame (hThere hSpares).1 (hThere hSpares).2

/-- Without the directory above it, the one below is added to what comes of that. -/
theorem withDirs_of_orphaned (hOrphaned : w.fs.Orphaned (Fs.pathOf absolute (name :: above))) :
    w.fs.withDirs (newDir host.umask) absolute (name :: above) =
      (w.fs.withDirs (newDir host.umask) absolute above).withDir (newDir host.umask)
        (Fs.pathOf absolute (name :: above)) := by
  rw [Fs.withDirs, if_pos hOrphaned]

/-- What has come of the directories above is on the way to those below. -/
theorem between_of_above {result : Except IoErrorKind Unit × World}
    (hOrphaned : w.fs.Orphaned (Fs.pathOf absolute (name :: above)))
    (hAbove : MakesDirs host (w.after [.mkdir] w.fs) absolute above result) (loc : Loc) :
    result.2.fs.node loc = w.fs.node loc ∨
      result.2.fs.node loc =
        (w.fs.withDirs (newDir host.umask) absolute (name :: above)).node loc := by
  rcases hAbove.between loc with hSame | hNew
  · exact Or.inl hSame
  rw [World.after_fs] at hNew
  cases hNode : (w.fs.withDirs (newDir host.umask) absolute above).node loc with
  | none =>
      have hBelow := Fs.grows_withDirs (newDir_isDir host.umask) absolute above w.fs
      exact Or.inl (by rw [hNew, hNode, hBelow.absent hNode])
  | some node =>
      right
      rw [hNew, hNode, withDirs_of_orphaned hOrphaned,
        (Fs.grows_withDir (newDir_isDir host.umask) _ _).kept loc node hNode]

/-- Where nothing comes of the directories above, nothing comes of those below. -/
theorem makesDirs_stuck {kind : IoErrorKind}
    (hOrphaned : w.fs.Orphaned (Fs.pathOf absolute (name :: above)))
    (hAbove : MakesDirs host (w.after [.mkdir] w.fs) absolute above (.error kind, v)) :
    MakesDirs host w absolute (name :: above) (.error kind, v) := by
  refine ⟨between_of_above hOrphaned hAbove, fun hOk => (by cases hOk), fun hSpares => ?_⟩
  obtain ⟨hTree, hOk⟩ := hAbove.all hSpares
  have hNot : ¬ (w.fs.withDirs (newDir host.umask) absolute above).LeadsToDir
      (Fs.pathOf absolute above) := by
    intro hLeads
    cases hOk (Or.inr (hTree ▸ hLeads))
  obtain ⟨hTaken, hStops⟩ := Fs.stops_of_orphaned (newDir_isDir host.umask) hOrphaned hNot
  refine ⟨?_, ?_⟩
  · rw [withDirs_of_orphaned hOrphaned, Fs.withDir_of_not_vacant hTaken]
    exact hTree
  · rintro (hEmpty | hLeads)
    · simp [Fs.pathOf, Path.isEmpty] at hEmpty
    · exact absurd (hTree ▸ hLeads) hStops

/-- A directory that is made when those above it have been, or is there. -/
theorem makesDirs_again {rest : Except IoErrorKind Unit → HostProgram (Except IoErrorKind Unit)}
    (hOk : rest (.ok ()) = pure (.ok ()))
    (hError : ∀ kind, rest (.error kind) = orIsDir (Fs.pathOf absolute (name :: above)) kind)
    (hTop : w.fs.withDirs (newDir host.umask) absolute (name :: above) =
      v.fs.withDir (newDir host.umask) (Fs.pathOf absolute (name :: above)))
    (hBetween : ∀ loc, v.fs.node loc = w.fs.node loc ∨
      v.fs.node loc = (w.fs.withDirs (newDir host.umask) absolute (name :: above)).node loc) :
    MakesDirs host w absolute (name :: above)
      (Program.run host.oracle
        (fsCall (.mkdir (Fs.pathOf absolute (name :: above))) >>= rest) v) := by
  have hThere : ¬ v.fs.Vacant (Fs.pathOf absolute (name :: above)) →
      v.fs = w.fs.withDirs (newDir host.umask) absolute (name :: above) := by
    intro hTaken
    rw [hTop, Fs.withDir_of_not_vacant hTaken]
  rw [Program.run_bind, run_mkdir]
  cases hFails : host.fails .mkdir (v.count .mkdir) with
  | true =>
      simp only [if_true, hError]
      refine makesDirs_of_orIsDir hBetween (fun hLeads => ?_) fun hSpares => ?_
      · exact hThere (Fs.not_vacant_of_leadsToDir hLeads)
      · rw [hSpares .mkdir (by decide)] at hFails
        cases hFails
  | false =>
      by_cases hVacant : v.fs.Vacant (Fs.pathOf absolute (name :: above))
      · simp only [Bool.false_eq_true, if_false, if_pos hVacant, hOk]
        refine ⟨fun loc => Or.inr ?_, fun _ => ⟨hTop.symm, Or.inr ?_⟩, fun _ =>
          ⟨hTop.symm, fun _ => rfl⟩⟩
        · exact congrArg (fun fs => fs.node loc) hTop.symm
        · exact Fs.leadsToDir_of_vacant (newDir_isDir host.umask) hVacant
      · simp only [Bool.false_eq_true, if_false, if_neg hVacant, Fs.withDir_of_not_vacant hVacant]
        split
        all_goals
          rw [hError]
          exact makesDirs_of_orIsDir hBetween (fun _ => hThere hVacant) fun _ => hThere hVacant

end Below

/-- `create_dir_all` goes up until it can make a directory, and down again. -/
theorem run_createDirAllFrom (host : Host) (w : World) (absolute : Bool) (components : List Name) :
    MakesDirs host w absolute components
      ((createDirAllFrom absolute components).run host.oracle w) := by
  induction components generalizing w with
  | nil =>
      cases absolute with
      | false =>
          exact ⟨fun _ => Or.inl rfl, fun _ => ⟨rfl, Or.inl rfl⟩, fun _ => ⟨rfl, fun _ => rfl⟩⟩
      | true => exact makesDirs_root host w
  | cons name above ih =>
      have hRun : (createDirAllFrom absolute (name :: above)).run host.oracle w = _ :=
        Program.run_bind host.oracle (fsCall (.mkdir (Fs.pathOf absolute (name :: above)))) _ w
      rw [hRun, run_mkdir]
      cases hFails : host.fails .mkdir (w.count .mkdir) with
      | true =>
          have hFailing : ¬ host.Spares FsKind.preparing := fun hSpares => by
            rw [hSpares .mkdir (by decide)] at hFails
            cases hFails
          simp only [if_true]
          exact makesDirs_look .other fun hSpares => absurd hSpares hFailing
      | false =>
          by_cases hVacant : w.fs.Vacant (Fs.pathOf absolute (name :: above))
          · have hReachable : ¬ w.fs.Orphaned (Fs.pathOf absolute (name :: above)) := fun h =>
              Fs.not_vacant_of_orphaned h hVacant
            have hGrown : w.fs.withDir (newDir host.umask) (Fs.pathOf absolute (name :: above)) =
                w.fs.withDirs (newDir host.umask) absolute (name :: above) := by
              rw [Fs.withDirs, if_neg hReachable]
            simp only [Bool.false_eq_true, if_false, if_pos hVacant]
            refine ⟨fun loc => Or.inr ?_, fun _ => ⟨hGrown, Or.inr ?_⟩, fun _ =>
              ⟨hGrown, fun _ => rfl⟩⟩
            · exact congrArg (fun fs => fs.node loc) hGrown
            · exact Fs.leadsToDir_of_vacant (newDir_isDir host.umask) hVacant
          by_cases hOrphaned : w.fs.Orphaned (Fs.pathOf absolute (name :: above))
          swap
          · simp only [Bool.false_eq_true, if_false, if_neg hVacant, if_neg hOrphaned,
              Fs.withDir_of_not_vacant hVacant]
            exact makesDirs_look .other fun _ => ⟨hVacant, hOrphaned⟩
          simp only [Bool.false_eq_true, if_false, if_neg hVacant, if_pos hOrphaned,
            Fs.withDir_of_not_vacant hVacant]
          -- The directories above come first.
          have hAbove := ih (w.after [.mkdir] w.fs)
          have hRest : ∀ rest : Except IoErrorKind Unit → HostProgram (Except IoErrorKind Unit),
              Program.run host.oracle (createDirAllFrom absolute above >>= rest)
                (w.after [.mkdir] w.fs) = _ :=
            fun rest => Program.run_bind host.oracle (createDirAllFrom absolute above) rest _
          refine (congrArg (MakesDirs host w absolute (name :: above)) (hRest _)).mpr ?_
          generalize (createDirAllFrom absolute above).run host.oracle (w.after [.mkdir] w.fs) =
            out at hAbove ⊢
          obtain ⟨_ | _, v⟩ := out
          · exact makesDirs_stuck hOrphaned hAbove
          · have hTree : v.fs = w.fs.withDirs (newDir host.umask) absolute above :=
              (hAbove.made rfl).1
            refine makesDirs_again rfl (fun _ => rfl) ?_ (between_of_above hOrphaned hAbove)
            rw [withDirs_of_orphaned hOrphaned, hTree]

end Ops

namespace Fs

/-- The tree with what is missing down to `dir` added, as far as that goes. -/
def provided (umask : Nat) (fs : Fs) (dir : Path) : Fs :=
  fs.withDirs (newDir umask) dir.absolute dir.components.reverse

/-- `dir` is no link, and it is there already or can be made a directory. -/
def CanProvide (umask : Nat) (fs : Fs) (dir : Path) : Prop :=
  fs.link (fs.entry dir) = none ∧
    ((fs.lookup true dir).isOk = true ∨ (fs.provided umask dir).LeadsToDir dir)

instance (umask : Nat) (fs : Fs) (dir : Path) : Decidable (fs.CanProvide umask dir) :=
  inferInstanceAs (Decidable (_ ∧ _))

/-- The tree once `dir` is there with its mode set. -/
def ensured (umask : Nat) (fs : Fs) (dir : Path) : Fs :=
  (fs.provided umask dir).setMode (fs.target dir) dirMode

variable {fs : Fs} {umask : Nat} {dir : Path}

theorem grows_provided (umask : Nat) (fs : Fs) (dir : Path) : Grows fs (fs.provided umask dir) :=
  grows_withDirs (newDir_isDir umask) _ _ _

theorem sameLinks_ensured (umask : Nat) (fs : Fs) (dir : Path) :
    SameLinks fs (fs.ensured umask dir) :=
  (grows_provided umask fs dir).sameLinks.trans (sameLinks_setMode _ _ _)

end Fs

namespace Ops

variable {host : Host} {w : World} {dir : Path}

/-- How `ensure_directory` ends. It succeeds only where the directory can be
provided, and does so unless a call fails; up to then it only adds directories. -/
inductive EnsureResult (host : Host) (w : World) (dir : Path) :
    Except Error Unit × World → Prop where
  | refused (err : Error) (w' : World)
      (hBetween : ∀ loc, w'.fs.node loc = w.fs.node loc ∨
        w'.fs.node loc = (w.fs.provided host.umask dir).node loc)
      (hAll : host.Spares FsKind.preparing → w'.fs = w.fs.provided host.umask dir ∧
        ¬ (w.fs.CanProvide host.umask dir ∧ host.fails .chmod (w.count .chmod) = false)) :
      EnsureResult host w dir (.error err, w')
  | ensured (w' : World) (hCan : w.fs.CanProvide host.umask dir)
      (hMode : host.fails .chmod (w.count .chmod) = false)
      (hFs : w'.fs = w.fs.ensured host.umask dir)
      (hCount : w'.count .chmod = w.count .chmod + 1) :
      EnsureResult host w dir (.ok (), w')

/-- A `chmod` that fails changes nothing. -/
theorem run_chmod_error {path : Path} {mode : Nat} {err : Error} {w' : World}
    (h : Program.run host.oracle (FsCall.io (fsCall (.chmod path mode))).run w = (.error err, w')) :
    w'.fs = w.fs := by
  cases hFails : host.fails .chmod (w.count .chmod) with
  | true =>
      rw [run_io_error
        (run_fails (.chmod path mode) (by simpa [Host.failsAt, FsCall.kind] using hFails))] at h
      cases h
      rfl
  | false =>
      have hClear : host.failsAt (.chmod path mode) (w.count .chmod) = false := by
        simpa [Host.failsAt, FsCall.kind] using hFails
      have hPerform := perform_chmod host (w.count .chmod) path mode w.fs
      cases hLookup : w.fs.lookup true path with
      | error kind =>
          rw [hLookup] at hPerform
          rw [run_io_error (run_performs (.chmod path mode) hClear hPerform)] at h
          cases h
          rfl
      | ok node =>
          rw [hLookup] at hPerform
          rw [run_io_ok (run_performs (.chmod path mode) hClear hPerform)] at h
          cases h

/-- A look at the directory and a `chmod` that fail change nothing. -/
theorem fs_of_not_secured {v w' : World} {err : Error}
    (h : Program.run host.oracle (ExceptT.run do
      Security.ensureNotSymlink dir
      FsCall.io (fsCall (.chmod dir dirMode))) v = (.error err, w')) : w'.fs = v.fs := by
  obtain ⟨checked, hCheck, -⟩ := run_ensureNotSymlink host v dir
  rw [Fallible.run_bind, hCheck] at h
  cases checked with
  | error refused =>
      cases h
      rfl
  | ok _ =>
      have hUnset : w'.fs = (v.after [.lstat] v.fs).fs := run_chmod_error h
      exact hUnset

/-- What can be provided is found, and is no link. -/
theorem lookup_of_canProvide (h : w.fs.CanProvide host.umask dir) :
    ∃ node, (w.fs.provided host.umask dir).lookup true dir = .ok node ∧
      (w.fs.provided host.umask dir).lookup false dir = .ok node ∧ node.link = none := by
  obtain ⟨hEnd, hThere⟩ := h
  have hGrows := Fs.grows_provided host.umask w.fs dir
  have hLinks := hGrows.sameLinks
  have hLookup : ∃ node, (w.fs.provided host.umask dir).lookup true dir = .ok node := by
    rcases hThere with hBefore | hLeads
    · cases hNode : w.fs.lookup true dir with
      | error kind =>
          rw [hNode] at hBefore
          cases hBefore
      | ok node => exact ⟨node, hGrows.lookup hNode⟩
    · obtain ⟨node, hNode, -⟩ := hLeads.lookup
      exact ⟨node, hNode⟩
  obtain ⟨node, hLookup⟩ := hLookup
  have hPlain : (w.fs.provided host.umask dir).link ((w.fs.provided host.umask dir).entry dir) =
      none := by
    rw [Fs.entry_eq hLinks, hLinks.link, hEnd]
  have hHere : (w.fs.provided host.umask dir).lookup false dir = .ok node := by
    rw [Fs.lookup_eq_ok_iff, Fs.resolve_follow dir hPlain] at hLookup
    exact Fs.lookup_eq_ok_iff.mpr hLookup
  have hNode : (w.fs.provided host.umask dir).node ((w.fs.provided host.umask dir).entry dir) =
      some node := (Fs.lookup_eq_ok_iff.mp hHere).2
  rw [Fs.link, hNode] at hPlain
  exact ⟨node, hLookup, hHere, hPlain⟩

/-- So it passes the look and gets its mode, if these calls do not fail. -/
theorem secured_of_canProvide {v : World} (hFs : v.fs = w.fs.provided host.umask dir)
    (hCan : w.fs.CanProvide host.umask dir) (hLook : host.fails .lstat (v.count .lstat) = false)
    (hMode : host.fails .chmod (v.count .chmod) = false) :
    ∃ w', Program.run host.oracle (ExceptT.run do
      Security.ensureNotSymlink dir
      FsCall.io (fsCall (.chmod dir dirMode))) v = (.ok (), w') := by
  obtain ⟨node, hLookup, hHere, hPlain⟩ := lookup_of_canProvide hCan
  rw [← hFs] at hLookup hHere
  have hCheck := ensureNotSymlink_eq_ok_iff.mpr ⟨hLook, Or.inr ⟨node, hHere, hPlain⟩, rfl⟩
  have hChmod : Program.run host.oracle (FsCall.io (fsCall (.chmod dir dirMode))).run
      (v.after [.lstat] v.fs) = (.ok (), _) :=
    chmod_eq_ok_iff.mpr ⟨by simpa using hMode, ⟨node, hLookup⟩, rfl⟩
  exact ⟨_, Fallible.run_seq_eq_ok_iff.mpr ⟨_, hCheck, hChmod⟩⟩

/-- `ensure_directory` from the look at the directory on, once it was made. -/
theorem ensureResult_of_made {v : World} (hFs : v.fs = w.fs.provided host.umask dir)
    (hCount : v.count .chmod = w.count .chmod)
    (hMade : (w.fs.lookup true dir).isOk = true ∨ dir.isEmpty = true ∨ v.fs.LeadsToDir dir) :
    EnsureResult host w dir (Program.run host.oracle (ExceptT.run do
      Security.ensureNotSymlink dir
      FsCall.io (fsCall (.chmod dir dirMode))) v) := by
  have hLinks := (Fs.grows_provided host.umask w.fs dir).sameLinks
  rcases hRun : Program.run host.oracle (ExceptT.run do
      Security.ensureNotSymlink dir
      FsCall.io (fsCall (.chmod dir dirMode))) v with ⟨err | _, w'⟩
  · have hTree := fs_of_not_secured hRun
    refine .refused err w' (fun loc => Or.inr (by rw [hTree, hFs])) fun hSpares =>
      ⟨hTree.trans hFs, ?_⟩
    rintro ⟨hCan, hMode⟩
    obtain ⟨w'', hSecured⟩ :=
      secured_of_canProvide hFs hCan (hSpares .lstat (by decide) _) (by rw [hCount, hMode])
    cases hRun.symm.trans hSecured
  · obtain ⟨v', hCheck, hChmod⟩ := Fallible.run_seq_eq_ok_iff.mp hRun
    obtain ⟨-, hLook, rfl⟩ := ensureNotSymlink_eq_ok_iff.mp hCheck
    obtain ⟨hMode, ⟨node, hLookup⟩, rfl⟩ := chmod_eq_ok_iff.mp hChmod
    have hFollowed := (Fs.lookup_eq_ok_iff.mp hLookup).1
    have hEnd : v.fs.link (v.fs.entry dir) = none := by
      refine Fs.notLink_of_lookup (fun found hFound => ?_) (Fs.resolve_noError_entry hFollowed)
      rcases hLook with hAbsent | ⟨same, hSame, hLink⟩
      · rw [hAbsent] at hFound
        cases hFound
      · rw [hSame] at hFound
        cases hFound
        exact hLink
    refine .ensured _ ⟨?_, ?_⟩ ?_ ?_ ?_
    · rw [← hLinks.link, ← Fs.entry_eq hLinks, ← hFs, hEnd]
    · rcases hMade with hThere | hEmpty | hLeads
      · exact Or.inl hThere
      · rw [Fs.resolve, if_pos hEmpty] at hFollowed
        cases hFollowed
      · exact Or.inr (hFs ▸ hLeads)
    · simpa [hCount] using hMode
    · rw [World.after_fs, World.after_fs, hFs, Fs.target_eq hLinks]
      rfl
    · simp [hCount]

theorem run_pathExists (host : Host) (w : World) (path : Path) :
    (pathExists path).run host.oracle w =
      (!host.fails .pathExists (w.count .pathExists) && (w.fs.lookup true path).isOk,
        w.after [.pathExists] w.fs) := by
  cases hFails : host.fails .pathExists (w.count .pathExists) with
  | true => exact run_fails (.pathExists path) (by simpa [Host.failsAt, FsCall.kind] using hFails)
  | false =>
      exact run_performs (.pathExists path) (by simpa [Host.failsAt, FsCall.kind] using hFails) rfl

/-- One managed directory, whatever fails on the way. -/
theorem run_ensureDirectory (host : Host) (w : World) (dir : Path) (hPlain : dir.trailing = false) :
    EnsureResult host w dir (Program.run host.oracle (ensureDirectory dir).run w) := by
  have hDir : Fs.pathOf dir.absolute dir.components.reverse = dir := by
    rw [Fs.pathOf, List.reverse_reverse, ← hPlain]
  have hExists := run_pathExists host w dir
  unfold ensureDirectory
  rw [Fallible.run_lift_bind, hExists]
  cases hPresent :
      (!host.fails .pathExists (w.count .pathExists) && (w.fs.lookup true dir).isOk) with
  | true =>
      obtain ⟨-, hThere⟩ := (Bool.and_eq_true _ _).mp hPresent
      refine ensureResult_of_made ?_ (by simp) (Or.inl hThere)
      cases hLookup : w.fs.lookup true dir with
      | error kind =>
          rw [hLookup] at hThere
          cases hThere
      | ok node =>
          rw [← hDir] at hLookup
          exact (Fs.withDirs_of_lookup hLookup).symm
  | false =>
      have hMakes :=
        run_createDirAllFrom host (w.after [.pathExists] w.fs) dir.absolute dir.components.reverse
      have hWithin : (createDirAll dir).Within (Call.OfKind [.mkdir, .isDir]) := by
        refine within_createDirAllFrom _ _ (fun _ => ?_) fun _ _ =>
          ?_ <;> simp [Call.OfKind, FsCall.kind]
      have hOther : FsKind.chmod ∉ [FsKind.mkdir, FsKind.isDir] := by decide
      have hCount := count_of_kinds host hWithin hOther (w.after [.pathExists] w.fs)
      rw [createDirAll] at hCount
      have hRest : ∀ rest : Unit → Action Unit, Program.run host.oracle
          (FsCall.io (createDirAll dir) >>= rest).run (w.after [.pathExists] w.fs) = _ :=
        fun rest => Fallible.run_bind _ rest _
      refine (congrArg (EnsureResult host w dir) (hRest _)).mpr ?_
      rw [run_io, createDirAll]
      generalize (createDirAllFrom dir.absolute dir.components.reverse).run host.oracle
        (w.after [.pathExists] w.fs) = out at hMakes hCount ⊢
      obtain ⟨hBetween, hMade, hAll⟩ := hMakes
      rw [hDir] at hMade hAll
      obtain ⟨kind | _, v⟩ := out
      · refine .refused _ v hBetween fun hSpares => ⟨(hAll hSpares).1, ?_⟩
        rintro ⟨⟨-, hThere | hLeads⟩, -⟩
        · rw [hSpares .pathExists (by decide), hThere] at hPresent
          cases hPresent
        · cases (hAll hSpares).2 (Or.inr ((hAll hSpares).1 ▸ hLeads))
      · obtain ⟨hFs, hThere⟩ := hMade rfl
        exact ensureResult_of_made hFs (by simpa using hCount) (Or.inr hThere)

end Ops
end MayflyHelper
