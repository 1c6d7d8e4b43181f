import MayflyHelper.Preparation
import MayflyHelper.Sandbox

/-! Whether a `RolledBack` answer can be believed when filesystem calls fail.
It can unless the new file is already in place: then a failing directory
`fsync` or a failing restore leaves it there. Besides, a directory that was
made for the other file may turn up at the path. -/
namespace MayflyHelper

open OracleProgram

namespace Rollback

/-- An `ApplyTrustedCaKeys` request. -/
def applyRequest (request : Request) : Request := { request with op := .applyTrustedCaKeys }

/-- If the request is answered `RolledBack`, the trusted-CA path and what it
leads to are absent or hold what they held when the request arrived. -/
def Truthful (host : Host) (config : OpsConfig) (w : World) (request : Request) : Prop :=
  ((Ops.dispatch config (applyRequest request)).run host.oracle w).1.outcome = .rolledBack →
    ∀ follow, ((Ops.dispatch config (applyRequest request)).run host.oracle w).2.fs.shows follow
      config.trustedCaPath.path = w.fs.shows follow config.trustedCaPath.path

/-- The second round of the calls a restore depends on is made to fail: a
rewrite if there was a file, a removal if there was none. -/
def RestoreFails (host : Host) (w : World) : Option Bytes → Prop
  | some _ => ∃ kind ∈ FsKind.rename :: FsKind.filling, host.fails kind (w.count kind + 1) = true
  | none => host.fails .unlink (w.count .unlink) = true

/-- `sshd` does not accept the tree `fs`. -/
def Rejects (host : Host) (fs : Fs) (ordinal : Nat) : Prop :=
  host.sshd ordinal fs .validateConfig ≠ .ok () ∨ host.sshd (ordinal + 1) fs .reload ≠ .ok () ∨
    host.sshd (ordinal + 2) fs .isActive ≠ .ok ()

/-- The candidate is where it should go before the request fails: the rename
is made to fail on a temporary file that has the very name already, or the
directory `fsync` after the rename is, or `sshd` rejects the new file and the
restore is made to fail. -/
def Lingers (host : Host) (w : World) (path : Path) (contents : Bytes) (fs : Fs)
    (previous : Option Bytes) : Prop :=
  if host.fails .rename (w.count .rename) then
    ∃ dir, fs.OpenParent path dir ∧
      (host.tempName (w.count .createTemp) fs (fs.target dir)).val :: fs.target dir = fs.entry path
  else
    host.fails .fsyncDir (w.count .fsyncDir) = true ∨
      (Rejects host (fs.installed path contents) w.events.length ∧ RestoreFails host w previous)

/-- The file at `path` in the tree `fs` is looked at and read without an error. -/
def Inspected (fs : Fs) (path : Path) (previous : Option Bytes) : Prop :=
  (fs.lookup false path = .error .notFound ∨ ∃ node, fs.lookup false path = .ok node ∧
    node.link = none) ∧
    fs.Reads path previous

/-- The candidate replaces what is at `path`, and lingers. -/
def Stays (host : Host) (w : World) (path : Path) (contents : Bytes) (fs : Fs) : Prop :=
  ∃ previous, Inspected fs path previous ∧ previous ≠ some contents ∧ fs.Writable path ∧
    host.Clear w FsKind.filling ∧ Lingers host w path contents fs previous

/-- The candidate is at `path` already, or replaces what is there and `sshd`
accepts that. -/
def Succeeds (host : Host) (w : World) (path : Path) (contents : Bytes) (fs : Fs) : Prop :=
  ∃ previous, Inspected fs path previous ∧
    (previous = some contents ∨
      fs.Writable path ∧ host.Clear w (.rename :: FsKind.filling) ∧
        host.fails .fsyncDir (w.count .fsyncDir) = false ∧
        ¬ Rejects host (fs.installed path contents) w.events.length)

/-- `path` leads nowhere in `fs`, and somewhere in `fs'`. -/
def Appears (fs fs' : Fs) (path : Path) : Prop :=
  ∃ follow, (fs.lookup follow path).isOk = false ∧ (fs'.lookup follow path).isOk = true

/-- The content is a list of keys, and either its candidate stays, once both
directories can be made; or making them lets the path lead somewhere, and the
request comes to no good end. -/
def LeavesCandidate (host : Host) (config : OpsConfig) (w : World) (request : Request) : Prop :=
  ∃ content, request.content = some content ∧ Ops.acceptsCa content = true ∧
    ((w.fs.Preparable host.umask (Ops.modeFails host w) config.parents ∧
        Stays host w config.trustedCaPath.path (Text.asBytes content)
          (w.fs.prepared host.umask config.parents)) ∨
      (Appears w.fs (w.fs.extended host.umask (Ops.modeFails host w) config.parents)
        config.trustedCaPath.path ∧
        ¬ (w.fs.Preparable host.umask (Ops.modeFails host w) config.parents ∧
          Succeeds host w config.trustedCaPath.path (Text.asBytes content)
            (w.fs.prepared host.umask config.parents))))

/-- A sweep that fails is a rejection. -/
theorem rejects_of_sweep {host : Host} {fs : Fs} {ordinal : Nat} {err : Error}
    {events : List SshdEvent}
    (h : Sweep host fs ordinal (.error err) events) : Rejects host fs ordinal := by
  cases h with
  | rejected hValidate => exact Or.inl (by simp [hValidate])
  | notReloaded _ hReload => exact Or.inr (Or.inl (by simp [hReload]))
  | probed _ _ hActive => exact Or.inr (Or.inr (by simp [hActive]))

/-- A sweep that ends well is none. -/
theorem not_rejects_of_sweep {host : Host} {fs : Fs} {ordinal : Nat} {events : List SshdEvent}
    (h : Sweep host fs ordinal (.ok ()) events) : ¬ Rejects host fs ordinal := by
  cases h with
  | probed hValidate hReload hActive => simp [Rejects, hValidate, hReload, hActive]

section Exchange

variable {host : Host} {w w' : World} {path : Path} {previous : Option Bytes} {contents : Bytes}
  {done : Outcome} {result : Except Error Outcome}

/-- The restore comes after one whole write. -/
theorem restoreFails_iff (fs : Fs) :
    RestoreFails host w previous ↔ ¬ host.Restores (w.after FsKind.writing fs) previous := by
  cases previous with
  | none => simp [RestoreFails, Host.Restores, Host.Clear, FsKind.writing]
  | some bytes =>
      have hCount : ∀ kind ∈ FsKind.rename :: FsKind.filling,
          (w.after FsKind.writing fs).count kind = w.count kind + 1 := by
        simp [FsKind.writing, FsKind.filling]
      simp only [RestoreFails, Host.Restores, Host.Clear, not_forall, Bool.not_eq_false]
      constructor
      · rintro ⟨kind, hKind, hFails⟩
        exact ⟨kind, hKind, by rw [hCount kind hKind, hFails]⟩
      · rintro ⟨kind, hKind, hFails⟩
        exact ⟨kind, hKind, by rw [← hCount kind hKind, hFails]⟩

/-- After a failing rename, all depends on the name of the temporary file. -/
theorem lingers_of_rename_fails {dir : Path} (hParent : w.fs.OpenParent path dir)
    (hRename : host.fails .rename (w.count .rename) = true) :
    Lingers host w path contents w.fs previous ↔ w.fs.entry path = host.tempLoc w dir := by
  simp only [Lingers, hRename, if_true]
  constructor
  · rintro ⟨dir', hParent', hSame⟩
    have hDir : dir' = dir := by simpa [hParent.named] using hParent'.named.symm
    subst hDir
    exact hSame.symm
  · intro hTemp
    exact ⟨dir, hParent, hTemp.symm⟩

/-- After the rename, all depends on the directory `fsync`, `sshd` and the restore. -/
theorem lingers_of_installs (h : host.Installs w path) :
    Lingers host w path contents w.fs previous ↔
      host.fails .fsyncDir (w.count .fsyncDir) = true ∨
        (Rejects host (w.fs.installed path contents) w.events.length ∧
          RestoreFails host w previous) := by
  simp only [Lingers, h.rename, Bool.false_eq_true, if_false]

variable (hLink : w.fs.NotLink path) (hReads : w.fs.Reads path previous)

include hLink hReads in
/-- A failed exchange changes no ways and takes nothing away. -/
theorem failed_ways {err : Error}
    (h : ExchangeResult host w path previous contents done (.error err, w')) :
    Fs.SameWays w.fs w'.fs ∧ ∀ loc, w.fs.node loc ≠ none → w'.fs.node loc ≠ none := by
  have hStrays : ∀ {fs fs' : Fs}, fs.Strays fs' → Fs.SameWays fs fs' ∧ ∀ loc, fs.node loc ≠ none →
    fs'.node loc ≠ none := by
    intro fs fs' hStrays
    have hKeeps := hStrays.keeps.present
    obtain ⟨name, dir, bytes, mode, -, -, hAbsent, rfl⟩ := hStrays
    exact ⟨.put (Fs.link_eq_none_of_absent hAbsent) rfl, hKeeps⟩
  have hInstalled : w.fs.Writable path → Fs.SameWays w.fs (w.fs.installed path contents) ∧
      ∀ loc, w.fs.node loc ≠ none → (w.fs.installed path contents).node loc ≠ none := by
    intro hWritable
    have hHolds := hReads.holds hLink hWritable.found
    exact ⟨.put hHolds.link rfl, (Fs.keeps_installed hWritable hHolds contents).present⟩
  cases h with
  | stopped err calls hNot => exact ⟨.refl _, fun _ h => h⟩
  | strayed err calls dir hParent => exact hStrays (Security.strays_tempLoc hParent)
  | unsynced hInstalls => exact hInstalled hInstalls.writable
  | rolledBack hInstalls _ _ _ _ _ _ _ hFs =>
      have hHolds := hReads.holds hLink hInstalls.writable.found
      rw [hFs]
      refine ⟨?_, (Fs.keeps_restored hInstalls.writable hHolds).present⟩
      cases previous with
      | none => exact .refl _
      | some bytes => exact .put hHolds.link rfl
  | stuck hInstalls _ _ _ _ _ _ hFs =>
      rcases hFs with hSame | hStray
      · rw [hSame]
        exact hInstalled hInstalls.writable
      · obtain ⟨hWays, hPresent⟩ := hStrays hStray
        obtain ⟨hWays', hPresent'⟩ := hInstalled hInstalls.writable
        exact ⟨hWays'.trans hWays, fun loc hNode => hPresent loc (hPresent' loc hNode)⟩

include hLink hReads in
/-- A failed exchange leaves the path as it was exactly if no candidate lingers. -/
theorem failed_truthful_iff {err : Error} (hStale : previous ≠ some contents)
    (h : ExchangeResult host w path previous contents done (.error err, w')) :
    (∀ follow, w'.fs.shows follow path = w.fs.shows follow path) ↔
      ¬ (w.fs.Writable path ∧ host.Clear w FsKind.filling ∧
        Lingers host w path contents w.fs previous) := by
  rw [(failed_ways hLink hReads h).1.shows_iff hLink]
  -- With the candidate in place the entry holds something new.
  have hUntruthful : ∀ {fs : Fs}, (w.fs.resolve false path).error = none →
      fs.node (w.fs.entry path) = some (newFile contents Security.modePublic) →
      ¬ ((w.fs.resolve false path).error = none →
        (fs.node (w.fs.entry path)).map Node.kind =
          (w.fs.node (w.fs.entry path)).map Node.kind) := by
    intro fs hFound hNode hSame
    have hKind := hSame hFound
    rw [hNode, hReads.holds hLink hFound] at hKind
    cases previous with
    | none => cases hKind
    | some bytes =>
        cases hKind
        exact hStale rfl
  cases h with
  | stopped err calls hNot =>
      refine iff_of_true (fun _ => rfl) fun hLingers => hNot ?_
      obtain ⟨dir, hParent⟩ := hLingers.1.parent
      exact ⟨dir, hParent, hLingers.2.1⟩
  | strayed err calls dir hParent hClear hNot =>
      have hPut : w.fs.CanPut (host.tempLoc w dir) := Security.canPut_tempLoc hParent
      have hRename : w.fs.Writable path → host.fails .rename (w.count .rename) = true := by
        intro hWritable
        by_contra hGood
        exact hNot ⟨hWritable, hClear, by simpa using hGood⟩
      by_cases hTemp : (w.fs.resolve false path).error = none ∧ w.fs.entry path = host.tempLoc w dir
      · obtain ⟨hFound, hEntry⟩ := hTemp
        have hWritable : w.fs.Writable path := ⟨⟨dir, hParent⟩, hFound, hEntry ▸ hPut⟩
        have hNode : (w.fs.put (host.tempLoc w dir) (newFile contents Security.modePublic)).node
          (w.fs.entry path) =
            some (newFile contents Security.modePublic) := by rw [hEntry, Fs.put_node_self hPut]
        refine iff_of_false (hUntruthful hFound hNode) (not_not.mpr ⟨hWritable, hClear, ?_⟩)
        exact (lingers_of_rename_fails hParent (hRename hWritable)).mpr hEntry
      · refine iff_of_true (fun hFound => ?_) fun hLeaves => hTemp ?_
        · rw [World.after_fs, Fs.put_node_of_ne hPut fun hEntry => hTemp ⟨hFound, hEntry⟩]
        · obtain ⟨hWritable, -, hLingers⟩ := hLeaves
          exact ⟨hWritable.found, (lingers_of_rename_fails hParent (hRename hWritable)).mp hLingers⟩
  | unsynced hInstalls hSync =>
      have hNode := Fs.node_installed hInstalls.writable contents
      refine iff_of_false (hUntruthful hInstalls.writable.found hNode)
        (not_not.mpr ⟨hInstalls.writable, hInstalls.clear, ?_⟩)
      exact (lingers_of_installs hInstalls).mpr (Or.inl hSync)
  | rolledBack hInstalls hSync err events later hSweep hRestores _ hFs =>
      have hHolds := hReads.holds hLink hInstalls.writable.found
      refine iff_of_true (fun _ => ?_) fun hLeaves => ?_
      · rw [hFs]
        cases previous with
        | none => rfl
        | some bytes => rw [Fs.restored, Fs.node_installed hInstalls.writable, hHolds]; rfl
      · rcases (lingers_of_installs hInstalls).mp hLeaves.2.2 with hFails | ⟨-, hRestoreFails⟩
        · simp [hSync] at hFails
        · exact (restoreFails_iff _).mp hRestoreFails hRestores
  | stuck hInstalls hSync err events hSweep hNot _ hFs =>
      have hInstalled := Fs.node_installed hInstalls.writable contents
      have hNode : w'.fs.node (w.fs.entry path) = some (newFile contents Security.modePublic) := by
        rcases hFs with hSame | hStray
        · rw [hSame, hInstalled]
        · rw [hStray.node (by rw [hInstalled]; simp), hInstalled]
      refine iff_of_false (hUntruthful hInstalls.writable.found hNode)
        (not_not.mpr ⟨hInstalls.writable, hInstalls.clear, ?_⟩)
      exact (lingers_of_installs hInstalls).mpr
        (Or.inr ⟨rejects_of_sweep hSweep, (restoreFails_iff _).mpr hNot⟩)

/-- An exchange fails unless `sshd` gets to see the new file and accepts it. -/
theorem failed_iff (h : ExchangeResult host w path previous contents done (result, w')) :
    (∃ err, result = .error err) ↔
      ¬ (w.fs.Writable path ∧ host.Clear w (.rename :: FsKind.filling) ∧
        host.fails .fsyncDir (w.count .fsyncDir) = false ∧
        ¬ Rejects host (w.fs.installed path contents) w.events.length) := by
  cases h with
  | stopped err calls hNot =>
      refine iff_of_true ⟨err, rfl⟩ fun h => hNot ?_
      obtain ⟨dir, hParent⟩ := h.1.parent
      exact ⟨dir, hParent, fun kind hKind => h.2.1 kind (List.mem_cons_of_mem _ hKind)⟩
  | strayed err calls dir hParent hClear hNot =>
      refine iff_of_true ⟨err, rfl⟩ fun h =>
        hNot ⟨h.1, hClear, h.2.1 .rename (List.mem_cons_self ..)⟩
  | unsynced hInstalls hSync => exact iff_of_true ⟨_, rfl⟩ fun h => by simp [hSync] at h
  | committed hInstalls hSync events hSweep =>
      refine iff_of_false (fun ⟨err, hErr⟩ => by cases hErr)
        (not_not.mpr ⟨hInstalls.writable, ?_, hSync,
        not_rejects_of_sweep hSweep⟩)
      exact List.forall_mem_cons.mpr ⟨hInstalls.rename, hInstalls.clear⟩
  | rolledBack _ _ err _ _ hSweep =>
      exact iff_of_true ⟨err, rfl⟩ fun h => h.2.2.2 (rejects_of_sweep hSweep)
  | stuck _ _ err _ hSweep =>
      exact iff_of_true ⟨err, rfl⟩ fun h => h.2.2.2 (rejects_of_sweep hSweep)

end Exchange

/-- The calls before the exchange. -/
def checking : List FsKind := .read :: .chmod :: FsKind.preparing

/-- Up to now only calls before the exchange were made. -/
structure Checked (w v : World) : Prop where
  events : v.events = w.events
  count : ∀ kind, kind ∉ checking → v.count kind = w.count kind

/-- Looks and preparing use up no call of the exchange. -/
theorem checked_of_within (host : Host) {config : OpsConfig} {Result : Type}
    {p : HostProgram Result}
    (h : p.Within (Call.Prepares config.parents)) (w : World) :
    Checked w (p.run host.oracle w).2 := by
  refine ⟨(prepared_of_within host h w).2, fun kind hKind => Ops.count_of_prepares host h ?_ w⟩
  exact fun hMem => hKind (List.mem_cons_of_mem _ hMem)

namespace Checked

variable {host : Host} {w v : World} {path : Path} {contents : Bytes} {fs : Fs}
  {previous : Option Bytes}
  (h : Checked w v)

include h

/-- So the exchange meets the failures that were scheduled for it. -/
theorem clear_iff (host : Host) {kinds : List FsKind} (hKinds : ∀ kind ∈ kinds, kind ∉ checking) :
    host.Clear v kinds ↔ host.Clear w kinds := by
  refine forall_congr' fun kind => forall_congr' fun hKind => ?_
  rw [h.count kind (hKinds kind hKind)]

/-- The schedule looks the same before and after the checks. -/
theorem lingers_iff :
    Lingers host v path contents fs previous ↔ Lingers host w path contents fs previous := by
  have hRestore : RestoreFails host v previous ↔ RestoreFails host w previous := by
    cases previous with
    | none => simp only [RestoreFails, h.count .unlink (by decide)]
    | some bytes =>
        refine exists_congr fun kind => and_congr_right fun hKind => ?_
        rw [h.count kind (by revert kind; decide)]
  unfold Lingers
  rw [h.events, h.count .rename (by decide), h.count .fsyncDir (by decide),
    h.count .createTemp (by decide), hRestore]

/-- The look at the file and its reading are among these calls. -/
theorem inspected : Checked w (v.after [.read, .lstat] v.fs) := by
  refine ⟨h.events, fun kind hKind => ?_⟩
  have hOther : kind ∉ [FsKind.read, FsKind.lstat] := by
    intro hMem
    exact hKind (by revert hMem; cases kind <;> decide)
  rw [World.after_count, List.count_eq_zero_of_not_mem hOther, h.count kind hKind, Nat.add_zero]

end Checked

/-- The answer to an apply is the result of its operation. -/
theorem run_applyRequest (host : Host) (config : OpsConfig) (w : World) {request : Request}
    {content : Text} (hContent : request.content = some content) :
    (Ops.dispatch config (applyRequest request)).run host.oracle w =
      (answer .applyTrustedCaKeys
        (Program.run host.oracle (Ops.applyTrustedCaKeys config content).run w).1,
        (Program.run host.oracle (Ops.applyTrustedCaKeys config content).run w).2) := by
  simp only [Ops.dispatch, applyRequest, hContent, Program.run_bind, run_attempt]
  cases (Program.run host.oracle (Ops.applyTrustedCaKeys config content).run w).1 <;> rfl

section Compare

variable {host : Host} {config : OpsConfig} {w w' : World} {content : Text}
  {result : Except Error Outcome}

/-- A file that is looked at and read is the same or gets exchanged. -/
theorem run_applyCompare_of_inspected {previous : Option Bytes}
    (hSpares : host.Spares (.read :: FsKind.preparing))
    (h : Inspected w.fs config.trustedCaPath.path previous) :
    Program.run host.oracle (Ops.applyCompare config content).run w =
      if previous = some (Text.asBytes content) then
        (.ok .notModified, w.after [.read, .lstat] w.fs)
      else Program.run host.oracle (ExceptT.run do
        Security.secureWrite config.trustedCaPath.path (Text.asBytes content) Security.modePublic
        Ops.commit config.trustedCaPath.path previous .applied) (w.after [.read, .lstat] w.fs) := by
  unfold Ops.applyCompare
  have hRead : Program.run host.oracle (Ops.readOptional config.trustedCaPath.path).run
    (w.after [.lstat] w.fs) =
      (.ok previous, w.after [.read, .lstat] w.fs) := by
    refine Ops.readOptional_eq_ok_iff.mpr ⟨hSpares .read (by decide) _, h.2, ?_⟩
    rw [World.after_after]
    rfl
  rw [Fallible.run_bind_ok
    (Ops.ensureNotSymlink_eq_ok_iff.mpr ⟨hSpares .lstat (by decide) _, h.1, rfl⟩),
    Fallible.run_bind_ok hRead]
  split <;> rfl

/-- Otherwise nothing is done. -/
theorem run_applyCompare_of_not_inspected (host : Host) (content : Text)
    (h : ¬ ∃ previous, Inspected w.fs config.trustedCaPath.path previous) :
    ∃ err w', Program.run host.oracle (Ops.applyCompare config content).run w = (.error err, w') ∧
      w'.fs = w.fs := by
  unfold Ops.applyCompare
  rw [Fallible.run_bind]
  rcases hCheck : Program.run host.oracle (Security.ensureNotSymlink config.trustedCaPath.path).run
    w with ⟨err | _, v⟩
  · obtain ⟨result, hRun, -⟩ := Ops.run_ensureNotSymlink host w config.trustedCaPath.path
    cases hRun.symm.trans hCheck
    exact ⟨err, _, rfl, rfl⟩
  obtain ⟨-, hLook, rfl⟩ := Ops.ensureNotSymlink_eq_ok_iff.mp hCheck
  dsimp only
  rw [Fallible.run_bind]
  rcases hRead : Program.run host.oracle (Ops.readOptional config.trustedCaPath.path).run
    (w.after [.lstat] w.fs) with ⟨err | previous, v⟩
  · obtain ⟨result, hRun, -⟩ :=
      Ops.run_readOptional host (w.after [.lstat] w.fs) config.trustedCaPath.path
    cases hRun.symm.trans hRead
    exact ⟨err, _, rfl, rfl⟩
  · obtain ⟨-, hReads, -⟩ := Ops.readOptional_eq_ok_iff.mp hRead
    exact absurd ⟨previous, hLook, hReads⟩ h

/-- An inspection has one result. -/
theorem Inspected.unique {fs : Fs} {path : Path} {previous previous' : Option Bytes}
    (h : Inspected fs path previous) (h' : Inspected fs path previous') : previous = previous' :=
  h.2.unique h'.2

theorem Inspected.notLink {fs : Fs} {path : Path} {previous : Option Bytes}
    (h : Inspected fs path previous) :
    fs.NotLink path := by
  refine Fs.notLink_of_lookup fun node hNode => ?_
  rcases h.1 with hAbsent | ⟨found, hFound, hLink⟩
  · rw [hAbsent] at hNode
    cases hNode
  · rw [hFound] at hNode
    cases hNode
    exact hLink

/-- Where the candidate stays behind, the exchange has failed. -/
theorem not_succeeds_of_stays {path : Path} {contents : Bytes} {fs : Fs}
    (h : Stays host w path contents fs) :
    ¬ Succeeds host w path contents fs := by
  obtain ⟨previous, hHere, hStale, -, -, hLingers⟩ := h
  rintro ⟨found, hFound, hSame | ⟨-, hClear, hSync, hAccepts⟩⟩
  · exact hStale (hHere.unique hFound ▸ hSame)
  · rw [Lingers, hClear .rename (List.mem_cons_self ..), if_neg (by simp)] at hLingers
    rcases hLingers with hFails | ⟨hRejects, -⟩
    · rw [hSync] at hFails
      cases hFails
    · exact hAccepts hRejects

/-- An apply from the look at its file on: it does not get past the look and
the reading, or finds the file current, or exchanges it. -/
theorem run_applyCompare_cases (hSpares : host.Spares (.read :: FsKind.preparing))
    (hRun : Program.run host.oracle (Ops.applyCompare config content).run w = (result, w')) :
    ((¬ ∃ previous, Inspected w.fs config.trustedCaPath.path previous) ∧
      (∃ err, result = .error err) ∧ w'.fs = w.fs) ∨
    ∃ previous, Inspected w.fs config.trustedCaPath.path previous ∧
      (previous = some (Text.asBytes content) ∧ result = .ok .notModified ∨
        previous ≠ some (Text.asBytes content) ∧
          ExchangeResult host (w.after [.read, .lstat] w.fs) config.trustedCaPath.path previous
            (Text.asBytes content) .applied (result, w')) := by
  by_cases hInspected : ∃ previous, Inspected w.fs config.trustedCaPath.path previous
  · obtain ⟨previous, hHere⟩ := hInspected
    refine Or.inr ⟨previous, hHere, ?_⟩
    rw [run_applyCompare_of_inspected hSpares hHere] at hRun
    split at hRun
    · rename_i hSame
      cases hRun
      exact Or.inl ⟨hSame, rfl⟩
    · rename_i hStale
      have hExchange :=
        Ops.run_exchange (w := w.after [.read, .lstat] w.fs) host (Text.asBytes content) .applied
          hHere.notLink hHere.2
      rw [hRun] at hExchange
      exact Or.inr ⟨hStale, hExchange⟩
  · obtain ⟨err, v', hError, hFs⟩ := run_applyCompare_of_not_inspected host content hInspected
    cases hRun.symm.trans hError
    exact Or.inl ⟨hInspected, ⟨err, rfl⟩, hFs⟩

/-- It fails unless it succeeds, by the schedule before the checks. -/
theorem applyCompare_fails_iff (hSpares : host.Spares (.read :: FsKind.preparing)) {v : World}
    (hChecked : Checked v w)
    (hRun : Program.run host.oracle (Ops.applyCompare config content).run w = (result, w')) :
    (∃ err, result = .error err) ↔
      ¬ Succeeds host v config.trustedCaPath.path (Text.asBytes content) w.fs := by
  rcases run_applyCompare_cases hSpares hRun with
    ⟨hNot, hError, -⟩ | ⟨previous, hHere, ⟨hSame, rfl⟩ | ⟨hStale, hExchange⟩⟩
  · refine iff_of_true hError ?_
    rintro ⟨previous, hHere, -⟩
    exact hNot ⟨previous, hHere⟩
  · exact iff_of_false (fun ⟨err, hErr⟩ => by cases hErr)
      (not_not.mpr ⟨previous, hHere, Or.inl hSame⟩)
  · have hLooked := hChecked.inspected
    have hFilling : ∀ kind ∈ FsKind.rename :: FsKind.filling, kind ∉ checking := by decide
    rw [failed_iff hExchange, not_iff_not, hLooked.clear_iff host hFilling,
      hLooked.count .fsyncDir (by decide), hLooked.events]
    constructor
    · intro h
      exact ⟨previous, hHere, Or.inr h⟩
    · rintro ⟨found, hFound, hSame | h⟩
      · exact absurd (hHere.unique hFound ▸ hSame) hStale
      · exact h

/-- A failure leaves in sight what was, and shows the same unless the candidate
stays. -/
theorem applyCompare_shows (hSpares : host.Spares (.read :: FsKind.preparing)) {v : World}
    {err : Error} (hChecked : Checked v w)
    (hRun : Program.run host.oracle (Ops.applyCompare config content).run w = (.error err, w')) :
    (∀ follow, w.fs.shows follow config.trustedCaPath.path ≠ none →
      w'.fs.shows follow config.trustedCaPath.path ≠ none) ∧
    ((∀ follow, w'.fs.shows follow config.trustedCaPath.path =
      w.fs.shows follow config.trustedCaPath.path) ↔
        ¬ Stays host v config.trustedCaPath.path (Text.asBytes content) w.fs) := by
  rcases run_applyCompare_cases hSpares hRun with
    ⟨hNot, -, hFs⟩ | ⟨previous, hHere, ⟨-, hOk⟩ | ⟨hStale, hExchange⟩⟩
  · rw [hFs]
    refine ⟨fun _ h => h, iff_of_true (fun _ => rfl) ?_⟩
    rintro ⟨previous, hHere, -⟩
    exact hNot ⟨previous, hHere⟩
  · cases hOk
  · have hLink := hHere.notLink
    have hLooked := hChecked.inspected
    obtain ⟨hWays, hPresent⟩ :=
      failed_ways (w := w.after [.read, .lstat] w.fs) hLink hHere.2 hExchange
    refine ⟨fun follow hThere => ?_, ?_⟩
    · rw [hWays.shows hLink]
      rw [(Fs.SameWays.refl _).shows hLink] at hThere
      split at hThere
      · rw [if_pos ‹_›]
        simpa using hPresent _ (by simpa using hThere)
      · exact absurd rfl hThere
    · have hTruthful :=
        failed_truthful_iff (w := w.after [.read, .lstat] w.fs) hLink hHere.2 hStale hExchange
      have hFilling : ∀ kind ∈ FsKind.filling, kind ∉ checking := by decide
      rw [hLooked.clear_iff host hFilling, hLooked.lingers_iff] at hTruthful
      refine hTruthful.trans (not_congr ?_)
      constructor
      · intro h
        exact ⟨previous, hHere, hStale, h⟩
      · rintro ⟨found, hFound, -, h⟩
        exact hHere.unique hFound ▸ h

end Compare

/-- What is found before the directories are made is found after. -/
theorem lookup_of_prepared {parents : List Path} {fs fs' : Fs} {path : Path} {follow : Bool}
    {node : Node}
    (h : Fs.Prepared parents fs fs') (hLookup : fs.lookup follow path = .ok node) :
    ∃ node', fs'.lookup follow path = .ok node' ∧ node'.kind = node.kind := by
  obtain ⟨hFound, hNode⟩ := Fs.lookup_eq_ok_iff.mp hLookup
  have hFound' := Fs.resolve_noError h.sameLinks h.isDir follow path hFound
  have hStep := h.node (fs.resolve follow path).loc
  rw [hNode, ← Fs.resolve_loc h.sameLinks] at hStep
  generalize hNode' : fs'.node (fs'.resolve follow path).loc = after at hStep
  cases hStep with
  | same => exact ⟨node, Fs.lookup_eq_ok_iff.mpr ⟨hFound', hNode'⟩, rfl⟩
  | chmodded => exact ⟨_, Fs.lookup_eq_ok_iff.mpr ⟨hFound', hNode'⟩, rfl⟩

/-- So making the directories shows something else only where it shows
something for the first time. -/
theorem appears_iff {fs fs' : Fs} {path : Path} :
    Appears fs fs' path ↔ ∃ follow, fs.shows follow path = none ∧ fs'.shows follow path ≠ none := by
  refine exists_congr fun follow => ?_
  unfold Fs.shows
  cases fs.lookup follow path <;> cases fs'.lookup follow path <;> simp [Except.isOk,
    Except.toBool, Except.toOption]

/-- What does not come into sight is shown as before. -/
theorem shows_of_not_appears {parents : List Path} {fs fs' : Fs} {path : Path}
    (h : Fs.Prepared parents fs fs')
    (hNot : ¬ Appears fs fs' path) (follow : Bool) :
    fs'.shows follow path = fs.shows follow path := by
  cases hLookup : fs.lookup follow path with
  | ok node =>
      obtain ⟨node', hLookup', hKind⟩ := lookup_of_prepared h hLookup
      simp [Fs.shows, hLookup, hLookup', hKind, Except.toOption]
  | error kind =>
      have hNone : fs.shows follow path = none := by simp [Fs.shows, hLookup, Except.toOption]
      rw [hNone]
      by_contra hShown
      exact hNot (appears_iff.mpr ⟨follow, hNone, hShown⟩)

/-- Keys that do not parse are refused before any call. -/
theorem run_applyPrepare_of_rejected (host : Host) (config : OpsConfig) {content : Text} (w : World)
    (h : Ops.acceptsCa content = false) :
    ∃ err, Program.run host.oracle (Ops.applyPrepare config content).run w = (.error err, w) := by
  unfold Ops.applyPrepare
  rw [Fallible.run_bind, run_liftExcept]
  cases hParse : TrustedCaKeys.parse content with
  | error err => exact ⟨_, rfl⟩
  | ok keys => simp [Ops.acceptsCa, hParse, Except.isOk, Except.toBool] at h

/-- Keys that parse get as far as the directories. -/
theorem run_applyPrepare_of_accepted {host : Host} {config : OpsConfig} {content : Text} (w : World)
    (h : Ops.acceptsCa content = true) :
    Program.run host.oracle (Ops.applyPrepare config content).run w =
      Program.run host.oracle (Ops.ensureDirectories config).run w := by
  unfold Ops.applyPrepare
  rw [Fallible.run_bind, run_liftExcept]
  cases hParse : TrustedCaKeys.parse content with
  | error err => simp [Ops.acceptsCa, hParse, Except.isOk, Except.toBool] at h
  | ok keys => rfl

/-- Every failure of the operation is answered `RolledBack`, and nothing else is. -/
theorem rolledBack_iff_error {host : Host} {config : OpsConfig} {w w' : World} {content : Text}
    {result : Except Error Outcome}
    (hRun : Program.run host.oracle (Ops.applyTrustedCaKeys config content).run w = (result, w')) :
    (answer .applyTrustedCaKeys result).outcome = .rolledBack ↔ ∃ err, result = .error err := by
  cases result with
  | error err => simp [answer]
  | ok outcome =>
      refine iff_of_false (fun hOutcome => ?_) (fun ⟨err, hErr⟩ => by cases hErr)
      rw [Ops.run_applyTrustedCaKeys] at hRun
      rcases hPrepare : Program.run host.oracle (Ops.applyPrepare config content).run w with
        ⟨err | _, w₁⟩
      · rw [hPrepare] at hRun
        cases hRun
      · have hCompare := Ops.run_applyCompare host config w₁ content
        rw [hPrepare] at hRun
        dsimp only at hRun
        rw [hRun] at hCompare
        cases hCompare with
        | current => cases hOutcome
        | exchanged _ _ _ _ _ _ h =>
            rw [h.outcome] at hOutcome
            cases hOutcome

section Parents

variable {host : Host} {config : OpsConfig} {w w₁ w' : World} {content : Text}

/-- Where the directories cannot be made, all depends on what they let appear. -/
theorem truthful_iff_of_unprepared {err : Error} (contents : Bytes)
    (hSpares : host.Spares (.read :: FsKind.preparing))
    (hDirs : Program.run host.oracle (Ops.ensureDirectories config).run w = (.error err, w')) :
    (∀ follow, w'.fs.shows follow config.trustedCaPath.path =
      w.fs.shows follow config.trustedCaPath.path) ↔
      ¬ ((w.fs.Preparable host.umask (Ops.modeFails host w) config.parents ∧
          Stays host w config.trustedCaPath.path contents
            (w.fs.prepared host.umask config.parents)) ∨
        (Appears w.fs (w.fs.extended host.umask (Ops.modeFails host w) config.parents)
            config.trustedCaPath.path ∧
          ¬ (w.fs.Preparable host.umask (Ops.modeFails host w) config.parents ∧
            Succeeds host w config.trustedCaPath.path contents
              (w.fs.prepared host.umask config.parents)))) := by
  have hPrepares := Ops.prepares_ensureDirectories host config w
  have hPrepared := (prepared_of_within host (Ops.within_ensureDirectories config) w).1
  rw [hDirs] at hPrepares hPrepared
  obtain ⟨hTree, hOk, -⟩ :=
    hPrepares.complete fun kind hKind => hSpares kind (List.mem_cons_of_mem _ hKind)
  have hNot : ¬ w.fs.Preparable host.umask (Ops.modeFails host w) config.parents := by
    intro hPreparable
    cases hOk hPreparable
  have hTree' : w'.fs = w.fs.extended host.umask (Ops.modeFails host w) config.parents := hTree
  simp only [hNot, false_and, false_or, not_false_eq_true, and_true, ← hTree']
  constructor
  · intro hSame hAppears
    obtain ⟨follow, hNone, hShown⟩ := appears_iff.mp hAppears
    exact hShown ((hSame follow).trans hNone)
  · intro hAbsent follow
    exact shows_of_not_appears hPrepared hAbsent follow

/-- Once they are made, a failure is truthful unless something appeared or the
candidate stays. -/
theorem truthful_iff_of_prepared {result : Except Error Outcome}
    (hSpares : host.Spares (.read :: FsKind.preparing))
    (hDirs : Program.run host.oracle (Ops.ensureDirectories config).run w = (.ok (), w₁))
    (hRun : Program.run host.oracle (Ops.applyCompare config content).run w₁ = (result, w')) :
    ((∃ err, result = .error err) → ∀ follow, w'.fs.shows follow config.trustedCaPath.path =
      w.fs.shows follow config.trustedCaPath.path) ↔
      ¬ ((w.fs.Preparable host.umask (Ops.modeFails host w) config.parents ∧
          Stays host w config.trustedCaPath.path (Text.asBytes content)
            (w.fs.prepared host.umask config.parents)) ∨
        (Appears w.fs (w.fs.extended host.umask (Ops.modeFails host w) config.parents)
            config.trustedCaPath.path ∧
          ¬ (w.fs.Preparable host.umask (Ops.modeFails host w) config.parents ∧
            Succeeds host w config.trustedCaPath.path (Text.asBytes content)
              (w.fs.prepared host.umask config.parents)))) := by
  have hPrepares := Ops.prepares_ensureDirectories host config w
  have hPrepared := (prepared_of_within host (Ops.within_ensureDirectories config) w).1
  have hChecked := checked_of_within host (Ops.within_ensureDirectories config) w
  rw [hDirs] at hPrepares hPrepared hChecked
  obtain ⟨hPreparable, hTree⟩ := hPrepares.done rfl
  dsimp only at hTree hPrepared hChecked
  have hFails := applyCompare_fails_iff hSpares hChecked hRun
  rw [Fs.extended_of_preparable hPreparable, ← hTree]
  simp only [hPreparable, true_and]
  cases result with
  | ok outcome =>
      have hGood := not_not.mp (hFails.not.mp fun ⟨err, hErr⟩ => by cases hErr)
      refine iff_of_true (fun ⟨err, hErr⟩ => by cases hErr) ?_
      rintro (hStays | ⟨-, hBad⟩)
      · exact not_succeeds_of_stays hStays hGood
      · exact hBad hGood
  | error err =>
      have hBad := hFails.mp ⟨err, rfl⟩
      obtain ⟨hKept, hTruthful⟩ := applyCompare_shows hSpares hChecked hRun
      have hErr : ∃ found, (.error err : Except Error Outcome) = .error found := ⟨err, rfl⟩
      simp only [hErr, true_implies, hBad, not_false_eq_true, and_true]
      by_cases hAppears : Appears w.fs w₁.fs config.trustedCaPath.path
      · obtain ⟨follow, hNone, hShown⟩ := appears_iff.mp hAppears
        refine iff_of_false (fun hSame => ?_) (not_not.mpr (Or.inr hAppears))
        exact hKept follow hShown ((hSame follow).trans hNone)
      · have hSame := shows_of_not_appears hPrepared hAppears
        simp only [hAppears, or_false]
        rw [← hTruthful]
        exact forall_congr' fun follow => by rw [hSame follow]

end Parents

end Rollback

/-- Where looks, reads and the making of directories are not made to fail, a
`RolledBack` answer to `ApplyTrustedCaKeys` is truthful exactly if the request
does not leave its candidate behind. -/
theorem rolledBack_truthful_iff (host : Host) (config : OpsConfig) (w : World) (request : Request)
    (hSpares : host.Spares (.read :: FsKind.preparing)) :
    Rollback.Truthful host config w request ↔ ¬ Rollback.LeavesCandidate host config w request := by
  unfold Rollback.Truthful Rollback.LeavesCandidate
  cases hContent : request.content with
  | none =>
      refine iff_of_true (fun _ _ => ?_) ?_
      · simp only [Ops.dispatch, Rollback.applyRequest, hContent, Program.run_pure]
      · rintro ⟨content, hSome, -⟩
        cases hSome
  | some content =>
      simp only [Option.some.injEq, exists_eq_left']
      rw [Rollback.run_applyRequest host config w hContent]
      rcases hRun : Program.run host.oracle (Ops.applyTrustedCaKeys config content).run w with
        ⟨result, w'⟩
      rw [Rollback.rolledBack_iff_error hRun]
      rw [Ops.run_applyTrustedCaKeys] at hRun
      cases hAccepts : Ops.acceptsCa content with
      | false =>
          obtain ⟨err, hPrepare⟩ := Rollback.run_applyPrepare_of_rejected host config w hAccepts
          rw [hPrepare] at hRun
          cases hRun
          exact iff_of_true (fun _ _ => rfl) fun h => by cases h.1
      | true =>
          rw [Rollback.run_applyPrepare_of_accepted w hAccepts] at hRun
          simp only [true_and]
          rcases hDirs : Program.run host.oracle (Ops.ensureDirectories config).run w with
            ⟨err | _, w₁⟩
          · rw [hDirs] at hRun
            cases hRun
            simp only [Except.error.injEq, exists_eq', true_implies]
            exact Rollback.truthful_iff_of_unprepared _ hSpares hDirs
          · rw [hDirs] at hRun
            exact Rollback.truthful_iff_of_prepared hSpares hDirs hRun

namespace Rollback

/-- No call before the exchange is made to fail. -/
theorem spares_of_fsyncDir (fails : FsKind → Nat → Bool)
    (sshd : Nat → Fs → SshdCall → Except Error Unit)
    (h : ∀ kind n, fails kind n = true → kind = .fsyncDir) :
    (Host.sandbox fails sshd).Spares (.read :: FsKind.preparing) := by
  intro kind hKind n
  by_contra hFails
  have hOther : FsKind.fsyncDir ∉ FsKind.read :: FsKind.preparing := by decide
  rw [h kind n (by simpa [Host.sandbox] using hFails)] at hKind
  exact hOther hKind

end Rollback

/-- `sshd` rejects new keys, and after the old ones are back their directory is
not synced: they are back all the same. -/
theorem rolledBack_truthful_unsynced_restore :
    ¬ Rollback.LeavesCandidate
      (Host.sandbox (fun kind n => kind == .fsyncDir && n == 1)
        fun n _ _ => if n = 0 then .error .sshdValidationFailed else .ok ())
      OpsConfig.default
      Sandbox.keysOnDisk
      (Sandbox.applyRequest Sandbox.otherKeys) := by
  refine (rolledBack_truthful_iff _ _ _ _ (Rollback.spares_of_fsyncDir _ _ fun kind n h => ?_)).mp
    ?_
  · simpa using (Bool.and_eq_true_iff.mp h).1
  · unfold Rollback.Truthful
    decide +kernel

/-- On a host where only the directory `fsync` fails, a first apply is answered
`RolledBack` with the new file in place. -/
theorem rolledBack_untruthful_fsyncDir :
    ¬ Rollback.Truthful (Host.sandbox (fun kind _ => kind == .fsyncDir) (fun _ _ _ => .ok ()))
      OpsConfig.default (World.start Fs.bare)
      (Sandbox.applyRequest Sandbox.firstKeys) := by
  unfold Rollback.Truthful
  decide +kernel

end MayflyHelper
