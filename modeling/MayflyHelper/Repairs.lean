import MayflyHelper.Compared
import MayflyHelper.Preparation
import MayflyHelper.Replays

/-! What an ok answer promises about the tree, whatever was there before. A
regular file in the place of a managed directory is taken for the directory,
and a drop-in that is no text is never overwritten. -/
namespace MayflyHelper

open OracleProgram

namespace Repairs

section Directories

variable {host : Host} {config : OpsConfig} {w w' : World} {parent : Path}

/-- Both parents are directories of the right mode, and what is no directory
has the mode it had. -/
structure DeliversDirectories (config : OpsConfig) (fs fs' : Fs) : Prop where
  parents : ∀ parent ∈ config.parents, ∃ node, fs'.lookup false parent = .ok node ∧
    node.isDir = true ∧ node.mode = dirMode
  others : ∀ loc node, fs.node loc = some node → node.isDir = false →
    (fs'.node loc).map Node.mode = some node.mode

/-- What stands at a parent is what its path leads to, and has the mode set. -/
theorem ensured_parent
    (hOk : Program.run host.oracle (Ops.ensureDirectories config).run w = (.ok (), w'))
    (hParent : parent ∈ config.parents) :
    ∃ node, w'.fs.lookup false parent = .ok node ∧ node.mode = dirMode ∧
      w'.fs.node (w.fs.target parent) = some node := by
  obtain ⟨node, hLookup, hLink⟩ := Replays.stands_of_ensureDirectories hOk parent hParent
  have hEntry : w'.fs.node (w'.fs.entry parent) = some node := (Fs.lookup_eq_ok_iff.mp hLookup).2
  have hEnd : w'.fs.link (w'.fs.entry parent) = none := by
    rw [Fs.link, hEntry]
    exact hLink
  have hPrepared := (prepared_of_within host (Ops.within_ensureDirectories config) w).1
  rw [hOk] at hPrepared
  have hTarget : w'.fs.entry parent = w.fs.target parent := by
    rw [← Fs.target_eq_entry _ hEnd, Fs.target_eq hPrepared.sameLinks]
  obtain ⟨found, hFound, hMode⟩ := Ops.ensureDirectories_ok hOk parent hParent
  rw [Fs.target_eq hPrepared.sameLinks, ← hTarget, hEntry] at hFound
  cases hFound
  rw [hTarget] at hEntry
  exact ⟨node, hLookup, hMode, hEntry⟩

end Directories

section Dropin

variable {host : Host} {config : OpsConfig} {w : World} {previous : Option Bytes}

/-- The install is answered ok, and the drop-in then reads as rendered up to
white space at its end. -/
def RepairsDropin (host : Host) (config : OpsConfig) (w : World) : Prop :=
  ∃ outcome w', Program.run host.oracle (Ops.installSshdDropin config).run w = (.ok outcome, w') ∧
    ∃ bytes, w'.fs.Reads config.dropinPath.path (some bytes) ∧ Ops.CurrentDropin config (some bytes)

/-- What the repair of a drop-in that holds `previous` takes: the managed
directories are no links and can be made, the drop-in then reads as rendered
or can be replaced, and it is absent or a text. -/
structure Repairable (umask : Nat) (config : OpsConfig) (fs : Fs) (previous : Option Bytes) :
    Prop where
  parents : fs.Preparable umask (fun _ => false) config.parents
  dropin : (fs.prepared umask config.parents).Writable config.dropinPath.path ∨
    ∃ bytes, (fs.prepared umask config.parents).Reads config.dropinPath.path (some bytes) ∧
      Ops.CurrentDropin config (some bytes)
  text : ∀ bytes, previous = some bytes → ∃ text, Text.fromUtf8 bytes = some text

theorem mainIncludes_of_prepared {parents : List Path} {fs fs' : Fs}
    (h : Ops.MainIncludes config fs)
    (hPrepared : Fs.Prepared parents fs fs') : Ops.MainIncludes config fs' := by
  obtain ⟨bytes, text, hReads, hText⟩ := h
  exact ⟨bytes, text, hPrepared.keeps.reads hReads fun hWritten => hWritten, hText⟩

/-- Without failing calls the install gets to the drop-in just when the
directories can be made. -/
theorem installPrepare_iff (hReliable : host.Reliable) (hMain : Ops.MainIncludes config w.fs) :
    (∃ w₁, Program.run host.oracle (Ops.installPrepare config).run w = (.ok (), w₁)) ↔
      w.fs.Preparable host.umask (fun _ => false) config.parents := by
  rw [← Ops.modeFails_of_reliable hReliable w]
  constructor
  · rintro ⟨w₁, hPrepare⟩
    exact (Ops.preparable_of_installPrepare hPrepare).1
  · intro hPreparable
    obtain ⟨v, hDirs, hFs⟩ := Ops.ensureDirectories_of_preparable (hReliable.spares _) hPreparable
    have hPrepared := (prepared_of_within host (Ops.within_ensureDirectories config) w).1
    rw [hDirs, hFs] at hPrepared
    exact Ops.installPrepare_of_preparable (hReliable.spares _) hPreparable
      (mainIncludes_of_prepared hMain hPrepared)

/-- From a drop-in that can be replaced the install goes on by what it holds. -/
theorem compared_of_writable {w₁ : World} (hReliable : host.Reliable)
    (hFile : w.fs.Holds (w.fs.entry config.dropinPath.path) previous)
    (hPrepare : Program.run host.oracle (Ops.installPrepare config).run w = (.ok (), w₁))
    (hWritable : w₁.fs.Writable config.dropinPath.path) :
    w₁.fs.Holds (w₁.fs.entry config.dropinPath.path) previous ∧
      Compared host w₁ .installSshdDropin (Update.dropin config) previous
        (Program.run host.oracle (Ops.installSshdDropin config).run w) := by
  obtain ⟨result, v, hRun, hPrepared, -⟩ := Ops.run_installPrepare host config w
  cases hRun.symm.trans hPrepare
  have hHolds := hPrepared.holds hWritable hFile
  refine ⟨hHolds, ?_⟩
  rw [Ops.run_installSshdDropin, hPrepare]
  exact Ops.installCompare_compared hReliable hHolds hWritable.found

/-- With an obliging `sshd`, a file that can be written is written. -/
theorem exchange_ok {path : Path} {contents : Bytes} {done : Outcome}
    {out : Except Error Outcome × World}
    (hReliable : host.Reliable) (hSshd : ∀ ordinal fs call, host.sshd ordinal fs call = .ok ())
    (hWritable : w.fs.Writable path)
    (h : ExchangeResult host w path previous contents done out) :
    ∃ w', out = (.ok done, w') ∧ w'.fs = w.fs.installed path contents := by
  have hInstalls : host.Installs w path := ⟨hWritable, fun _ _ => hReliable _ _, hReliable _ _⟩
  have hSweep : ∀ {fs : Fs} {ordinal : Nat} {err : Error} {events : List SshdEvent},
      ¬Sweep host fs ordinal (.error err) events := by
    intro fs ordinal err events hSweep
    cases hSweep with
    | rejected hValidate => cases (hSshd _ _ _).symm.trans hValidate
    | notReloaded _ hReload => cases (hSshd _ _ _).symm.trans hReload
    | probed _ _ hActive => cases (hSshd _ _ _).symm.trans hActive
  cases h with
  | stopped err calls hNot =>
      obtain ⟨dir, hParent⟩ := hWritable.parent
      exact absurd ⟨dir, hParent, hInstalls.clear⟩ hNot
  | strayed err calls dir hParent hClear hNot => exact absurd hInstalls hNot
  | unsynced _ hSync => cases (hReliable _ _).symm.trans hSync
  | committed => exact ⟨_, rfl, rfl⟩
  | rolledBack _ _ _ _ _ hRejected => exact absurd hRejected hSweep
  | stuck _ _ _ _ hRejected => exact absurd hRejected hSweep

/-- An install that is answered ok found a drop-in that can be repaired. -/
theorem repairable_of_repairs (hReliable : host.Reliable)
    (hFile : w.fs.Holds (w.fs.entry config.dropinPath.path) previous)
    (hMain : Ops.MainIncludes config w.fs) (hRepairs : RepairsDropin host config w) :
    Repairable host.umask config w.fs previous := by
  obtain ⟨outcome, w', hInstall, -⟩ := hRepairs
  obtain ⟨result, w₁, hPrepare, hPrepared, -⟩ := Ops.run_installPrepare host config w
  have hRun := Ops.run_installSshdDropin host config w
  rw [hPrepare, hInstall] at hRun
  cases result with
  | error err => cases hRun
  | ok _ =>
      have hPreparable := (installPrepare_iff hReliable hMain).mp ⟨w₁, hPrepare⟩
      obtain ⟨-, hFs, -⟩ := Ops.preparable_of_installPrepare hPrepare
      have hCompare := Ops.run_installCompare host config w₁
      dsimp only at hRun
      rw [← hRun] at hCompare
      rw [hFs] at hPrepared
      cases hCompare with
      | current calls found hReads hCurrent =>
          obtain ⟨bytes, text, rfl, hText, hShown⟩ := hCurrent
          refine ⟨hPreparable, Or.inr ⟨bytes, hFs ▸ hReads, bytes, text, rfl, hText, hShown⟩, ?_⟩
          -- The read is that of the entry, whose bytes stayed as they were.
          intro held hHeld
          have hBytes := hReads.contents
          rw [hFs, Fs.target_eq hPrepared.sameLinks, hPrepared.bytesAt,
            Fs.target_eq_entry _ hFile.link, hFile.bytesAt, hHeld] at hBytes
          cases hBytes
          exact ⟨text, hText⟩
      | exchanged calls found hNotLink hReads hStale out hExchange =>
          cases hExchange with
          | committed hInstalls =>
              have hWritable : w₁.fs.Writable config.dropinPath.path := hInstalls.writable
              refine ⟨hPreparable, Or.inl (hFs ▸ hWritable), ?_⟩
              obtain ⟨-, hCompared⟩ := compared_of_writable hReliable hFile hPrepare hWritable
              rw [hInstall] at hCompared
              cases hCompared with
              | exchanged _ _ _ hDecodes => exact hDecodes rfl

/-- A drop-in that can be repaired is repaired if `sshd` agrees. -/
theorem repairs_of_repairable (hReliable : host.Reliable)
    (hFile : w.fs.Holds (w.fs.entry config.dropinPath.path) previous)
    (hMain : Ops.MainIncludes config w.fs)
    (hSshd : ∀ ordinal fs call, host.sshd ordinal fs call = .ok ())
    (h : Repairable host.umask config w.fs previous) : RepairsDropin host config w := by
  obtain ⟨w₁, hPrepare⟩ := (installPrepare_iff hReliable hMain).mpr h.parents
  obtain ⟨-, hFs, -⟩ := Ops.preparable_of_installPrepare hPrepare
  rcases h.dropin with hWritable | ⟨bytes, hReads, hCurrent⟩
  · rw [← hFs] at hWritable
    obtain ⟨hHolds, hCompared⟩ := compared_of_writable hReliable hFile hPrepare hWritable
    unfold RepairsDropin
    generalize Program.run host.oracle (Ops.installSshdDropin config).run w = out at hCompared
    cases hCompared with
    | undecodable v hSame _ hNot => exact absurd (fun _ => h.text) hNot
    | current v hSame hDecodes hCurrent =>
        obtain ⟨bytes, text, rfl, hShown⟩ := hCurrent
        refine ⟨_, v, rfl, bytes, ?_, bytes, text, rfl, hShown⟩
        rw [hSame]
        exact hHolds.reads hWritable.found
    | exchanged v hSame hEvents hDecodes hStale _ hExchange =>
        rw [← hSame] at hWritable hHolds
        obtain ⟨w', rfl, hTree⟩ := exchange_ok hReliable hSshd hWritable hExchange
        refine ⟨_, w', rfl, Text.asBytes (SshdConfig.renderDropin config.trustedCaPath), ?_,
          _, _, rfl, Text.fromUtf8_asBytes _, rfl⟩
        rw [hTree]
        exact Fs.reads_installed hWritable hHolds _
  · rw [← hFs] at hReads
    have hLinks := (Ops.run_installPrepare host config w)
    obtain ⟨result, v, hRun, hPrepared, -⟩ := hLinks
    cases hRun.symm.trans hPrepare
    have hEnd : w₁.fs.link (w₁.fs.entry config.dropinPath.path) = none := by
      rw [Fs.entry_eq hPrepared.sameLinks, hPrepared.sameLinks.link, hFile.link]
    have hCompare := Ops.run_installCompare host config w₁
    unfold RepairsDropin
    rw [Ops.run_installSshdDropin, hPrepare]
    dsimp only
    generalize Program.run host.oracle (Ops.installCompare config).run w₁ = out at hCompare
    cases hCompare with
    | refused err calls hNot => exact absurd ⟨hReliable, hEnd, bytes, hReads, hCurrent⟩ hNot
    | current calls found hFound => exact ⟨_, _, rfl, bytes, hReads, hCurrent⟩
    | exchanged calls found hNotLink hFound hStale =>
        exact absurd (hFound.unique hReads ▸ hCurrent) hStale

end Dropin

end Repairs

open Repairs

/-- An ok answer delivers the directories just when no parent leads to
something else than a directory. -/
theorem ensured_directories_usable_iff (host : Host) (config : OpsConfig) (w w' : World)
    (hOk : Program.run host.oracle (Ops.ensureDirectories config).run w = (.ok (), w')) :
    DeliversDirectories config w.fs w'.fs ↔
      ∀ parent ∈ config.parents, ∀ node, w.fs.node (w.fs.target parent) = some node →
        node.isDir = true := by
  have hPrepared := (prepared_of_within host (Ops.within_ensureDirectories config) w).1
  rw [hOk] at hPrepared
  constructor
  · intro hDelivers parent hParent node hNode
    obtain ⟨found, hLookup, -, hThere⟩ := ensured_parent hOk hParent
    obtain ⟨same, hSame, hDir, -⟩ := hDelivers.parents parent hParent
    cases hLookup.symm.trans hSame
    have hStep := hPrepared.node (w.fs.target parent)
    rw [hNode, hThere] at hStep
    cases hStep with
    | same => exact hDir
    | chmodded => exact hDir
  · intro hDirs
    refine ⟨?_, ?_⟩
    · intro parent hParent
      obtain ⟨node, hLookup, hMode, hThere⟩ := ensured_parent hOk hParent
      refine ⟨node, hLookup, ?_, hMode⟩
      have hBefore := hDirs parent hParent
      have hStep := hPrepared.node (w.fs.target parent)
      rw [hThere] at hStep
      generalize w.fs.node (w.fs.target parent) = before at hStep hBefore
      cases hStep with
      | same => exact hBefore node rfl
      | chmodded _ node => exact hBefore node rfl
      | created => rfl
    · intro loc node hNode hOther
      have hStep := hPrepared.node loc
      rw [hNode] at hStep
      generalize w'.fs.node loc = after at hStep
      cases hStep with
      | same => rfl
      | chmodded hParent =>
          obtain ⟨parent, hMem, rfl⟩ := hParent
          rw [hDirs parent hMem node hNode] at hOther
          cases hOther

/-- If no call fails, the main configuration includes the directory and `sshd`
agrees, an install repairs the drop-in just when that can be repaired. -/
theorem install_repairs_iff (host : Host) (config : OpsConfig) (w : World) (previous : Option Bytes)
    (hReliable : host.Reliable) (hFile : w.fs.Holds (w.fs.entry config.dropinPath.path) previous)
    (hMain : Ops.MainIncludes config w.fs)
    (hSshd : ∀ ordinal fs call, host.sshd ordinal fs call = .ok ()) :
    RepairsDropin host config w ↔ Repairable host.umask config w.fs previous := by
  constructor
  · intro hRepairs
    exact repairable_of_repairs hReliable hFile hMain hRepairs
  · intro hRepairable
    exact repairs_of_repairable hReliable hFile hMain hSshd hRepairable

namespace Repairs

/-- Both files below one directory. -/
def shallow : OpsConfig := ⟨⟨['/', 'd', '/', 'k']⟩, ⟨['/', 'd', '/', 'c']⟩, ⟨['/', 'm']⟩⟩

/-- The drop-in in a directory of its own. -/
def nested : OpsConfig := ⟨⟨['/', 'd', '/', 'k']⟩, ⟨['/', 'd', '/', 'e', '/', 'c']⟩, ⟨['/', 'm']⟩⟩

/-- A directory only its owner may enter. -/
def keptDir : Fs := Fs.bare.put [['d']] ⟨.directory, 0o700, rootUid⟩

/-- A file where the directory belongs. -/
def fileForDir : Fs := Fs.bare.put [['d']] (newFile [] 0o600)

end Repairs

/-- One parent is there with another mode, the other is missing. -/
theorem ensured_directories_usable_kept :
    DeliversDirectories nested keptDir
      (Program.run (Host.sandbox Host.noFailures (fun _ _ _ => .ok ())).oracle
      (Ops.ensureDirectories nested).run (World.start keptDir)).2.fs := by
  have hOk : (Program.run (Host.sandbox Host.noFailures (fun _ _ _ => .ok ())).oracle
      (Ops.ensureDirectories nested).run (World.start keptDir)).1 = .ok () := by decide
  refine (ensured_directories_usable_iff _ _ (World.start keptDir) _ (Prod.ext hOk rfl)).mpr ?_
  have hDirs : ∀ parent ∈ nested.parents,
    ((keptDir.node (keptDir.target parent)).all Node.isDir) = true := by
    decide
  intro parent hParent node hNode
  change keptDir.node (keptDir.target parent) = some node at hNode
  have hDir := hDirs parent hParent
  rw [hNode] at hDir
  exact hDir

/-- The file gets the mode of a directory, and the answer is ok. -/
theorem ensured_directories_unusable_file :
    ∃ w', Program.run (Host.sandbox Host.noFailures (fun _ _ _ => .ok ())).oracle
      (Ops.ensureDirectories shallow).run (World.start fileForDir) = (.ok (), w') ∧
      ¬DeliversDirectories shallow fileForDir w'.fs := by
  refine ⟨_, Prod.ext (by decide) rfl, fun hDelivers => ?_⟩
  have hMode := hDelivers.others [['d']] (newFile [] 0o600) (by decide) rfl
  exact absurd hMode (by decide)

namespace Repairs

/-- The directory is there, and so are a main configuration and a drop-in. -/
def drifted (bytes : Bytes) : Fs :=
  ((Fs.bare.put [['m']] (newFile (Text.asBytes Sandbox.stockMain) 0o644)).put
    [['d']] ⟨.directory, 0o755, rootUid⟩).put [['c'], ['d']] (newFile bytes 0o644)

theorem drifted_writable (bytes : Bytes) : (drifted bytes).Writable shallow.dropinPath.path :=
  ⟨⟨⟨true, [['d']], false⟩, rfl, rfl, rfl, rfl⟩, rfl, List.cons_ne_nil _ _, rfl, rfl⟩

theorem drifted_holds (bytes : Bytes) :
    (drifted bytes).Holds ((drifted bytes).entry shallow.dropinPath.path) (some bytes) := rfl

theorem drifted_mainIncludes (bytes : Bytes) : Ops.MainIncludes shallow (drifted bytes) :=
  ⟨_, Sandbox.stockMain, ⟨newFile (Text.asBytes Sandbox.stockMain) 0o644, rfl, rfl⟩,
    Text.fromUtf8_asBytes _, by decide⟩

/-- The parents stand already, and a text in the drop-in can be replaced. -/
theorem drifted_repairable {bytes : Bytes} {text : Text} (hText : Text.fromUtf8 bytes = some text) :
    Repairable (Host.sandbox Host.noFailures (fun _ _ _ => .ok ())).umask shallow (drifted bytes)
      (some bytes) := by
  have hReliable := Host.sandbox_reliable (fun _ _ _ => .ok ())
  have hStands : ∀ parent ∈ shallow.parents, (drifted bytes).Stands parent := by
    intro parent hParent
    have hParents : shallow.parents = [⟨true, [['d']], false⟩, ⟨true, [['d']], false⟩] := by decide
    simp only [hParents, List.mem_cons, List.not_mem_nil, or_false, or_self] at hParent
    subst hParent
    exact ⟨_, rfl, rfl⟩
  obtain ⟨w₁, hRun, hPrepared, -⟩ :=
    Replays.run_ensureDirectories_of_stands (w := World.start (drifted bytes)) hReliable hStands
  obtain ⟨hPreparable, hFs⟩ := Ops.preparable_of_ensureDirectories hRun
  rw [Ops.modeFails_of_reliable hReliable] at hPreparable
  refine ⟨hPreparable, Or.inl ?_, fun held hHeld => ?_⟩
  · have hWritable := hPrepared.writable (drifted_writable bytes) (drifted_holds bytes)
    rw [hFs] at hWritable
    exact hWritable
  · cases hHeld
    exact ⟨text, hText⟩

end Repairs

theorem install_repairs_text :
    RepairsDropin (Host.sandbox Host.noFailures (fun _ _ _ => .ok ())) shallow
      (World.start (drifted [0x61])) := by
  have hText : Text.fromUtf8 [0x61] = some ['a'] := by decide
  exact (install_repairs_iff _ _ _ _ (Host.sandbox_reliable _) (drifted_holds _)
    (drifted_mainIncludes _)
    fun _ _ _ => rfl).mpr (drifted_repairable hText)

/-- A drop-in of the byte `0xff` stays as it is. -/
theorem install_leaves_stray_byte :
    (Host.sandbox Host.noFailures (fun _ _ _ => .ok ())).Reliable ∧
      (drifted [0xff]).Holds ((drifted [0xff]).entry shallow.dropinPath.path) (some [0xff]) ∧
      Ops.MainIncludes shallow (drifted [0xff]) ∧
      ¬RepairsDropin (Host.sandbox Host.noFailures (fun _ _ _ => .ok ())) shallow
        (World.start (drifted [0xff])) := by
  have hReliable := Host.sandbox_reliable (fun _ _ _ => .ok ())
  refine ⟨hReliable, drifted_holds _, drifted_mainIncludes _, fun hRepairs => ?_⟩
  have hRepairable :=
    repairable_of_repairs hReliable (drifted_holds [0xff]) (drifted_mainIncludes _) hRepairs
  obtain ⟨text, hText⟩ := hRepairable.text [0xff] rfl
  have hUndecodable : Text.fromUtf8 [0xff] = none := by decide
  cases hUndecodable.symm.trans hText

end MayflyHelper
