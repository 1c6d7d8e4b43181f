import MayflyHelper.Evolution
import MayflyHelper.Include
import MayflyHelper.Provision

/-! Both managed directories, and all a writing request needs before it looks
at its file: what must hold of the tree and of the request, and which tree the
request goes on from. -/
namespace MayflyHelper

open OracleProgram

namespace Fs

/-- Each of the directories can be provided once those before it are, and no
change of a mode is made to fail: `fails` tells so of the next ones. -/
def Preparable (umask : Nat) : (fails : Nat → Bool) → List Path → Fs → Prop
  | _, [], _ => True
  | fails, dir :: rest, fs => fs.CanProvide umask dir ∧ fails 0 = false ∧
      (fs.ensured umask dir).Preparable umask (fun n => fails (n + 1)) rest

/-- The tree once all of the directories are there with their mode. -/
def prepared (umask : Nat) : List Path → Fs → Fs
  | [], fs => fs
  | dir :: rest, fs => (fs.ensured umask dir).prepared umask rest

/-- The tree once the directories are made as far as that goes. -/
def extended (umask : Nat) : (fails : Nat → Bool) → List Path → Fs → Fs
  | _, [], fs => fs
  | fails, dir :: rest, fs =>
      if fs.CanProvide umask dir ∧ fails 0 = false then
        (fs.ensured umask dir).extended umask (fun n => fails (n + 1)) rest
      else fs.provided umask dir

/-- A directory that is missing on the way to one of the directories is added
at `loc`. Those after one that cannot be provided are not tried. -/
def Adds (umask : Nat) : (fails : Nat → Bool) → List Path → Fs → Loc → Prop
  | _, [], _, _ => False
  | fails, dir :: rest, fs, loc =>
      (fs.node loc = none ∧ (fs.provided umask dir).node loc ≠ none) ∨
        (fs.CanProvide umask dir ∧ fails 0 = false ∧
          (fs.ensured umask dir).Adds umask (fun n => fails (n + 1)) rest loc)

/-- One of the directories leads to `loc`, and what is there has another mode
than a managed directory. -/
def Resets (umask : Nat) : (fails : Nat → Bool) → List Path → Fs → Loc → Prop
  | _, [], _, _ => False
  | fails, dir :: rest, fs, loc =>
      fs.CanProvide umask dir ∧ fails 0 = false ∧
        ((loc = fs.target dir ∧ ∃ node, fs.node loc = some node ∧ node.mode ≠ dirMode) ∨
          (fs.ensured umask dir).Resets umask (fun n => fails (n + 1)) rest loc)

/-- Where every parent can be prepared the preparation runs to its end. -/
theorem extended_of_preparable {umask : Nat} {fails : Nat → Bool} {parents : List Path} {fs : Fs}
    (h : fs.Preparable umask fails parents) :
    fs.extended umask fails parents = fs.prepared umask parents := by
  induction parents generalizing fails fs with
  | nil => rfl
  | cons dir rest ih =>
      rw [extended, if_pos ⟨h.1, h.2.1⟩, prepared]
      exact ih h.2.2

/-- Preparing a parent keeps every file there was. -/
theorem keeps_ensured (umask : Nat) (fs : Fs) (dir : Path) :
    Keeps nowhere fs (fs.ensured umask dir) := by
  have hGrows := grows_provided umask fs dir
  have hWays := SameWays.setMode (fs.provided umask dir) (fs.target dir) dirMode
  have hNode : ∀ loc node, fs.node loc = some node → ∃ mode,
      (fs.ensured umask dir).node loc = some { node with mode } := by
    intro loc node hNode
    rw [ensured, setMode_node, hGrows.kept loc node hNode]
    split
    · exact ⟨dirMode, rfl⟩
    · exact ⟨node.mode, rfl⟩
  refine ⟨sameLinks_ensured umask fs dir, fun loc hDir => ?_, fun loc hHere => ?_,
    fun loc bytes _ hBytes => ?_⟩
  · rw [ensured, hWays.isDir]
    exact hGrows.isDir loc hDir
  · obtain ⟨node, hSome⟩ := Option.ne_none_iff_exists'.mp hHere
    obtain ⟨mode, hSet⟩ := hNode loc node hSome
    rw [hSet]
    exact Option.some_ne_none _
  · obtain ⟨node, hSome, hHeld⟩ := Option.bind_eq_some_iff.mp hBytes
    obtain ⟨mode, hSet⟩ := hNode loc node hSome
    rw [bytesAt, hSet]
    exact hHeld

/-- What stands already is in nobody's way. -/
theorem preparable_of_stands {umask : Nat} {parents : List Path} {fs : Fs}
    (h : ∀ parent ∈ parents, fs.Stands parent) : fs.Preparable umask (fun _ => false) parents := by
  induction parents generalizing fs with
  | nil => trivial
  | cons dir rest ih =>
      obtain ⟨node, hLookup, hLink⟩ := h dir (List.mem_cons_self ..)
      refine ⟨⟨?_, Or.inl ?_⟩, rfl, ih fun parent hParent => ?_⟩
      · rw [link, entry, (lookup_eq_ok_iff.mp hLookup).2]
        exact hLink
      · rw [lookup_follow hLookup hLink]
        rfl
      · exact (keeps_ensured umask fs dir).stands (h parent (List.mem_cons_of_mem _ hParent))

end Fs

namespace Ops

variable {host : Host} {w : World} {dir : Path} {rest : List Path} {loc : Loc}

/-- What the next changes of a mode are scheduled to do. -/
def modeFails (host : Host) (w : World) (n : Nat) : Bool := host.fails .chmod (w.count .chmod + n)

/-- The managed directories one after the other. -/
def ensureEach : List Path → Action Unit
  | [] => pure ()
  | dir :: rest => do
      ensureDirectory dir
      ensureEach rest

/-- The preparation goes through the parents in order. -/
theorem run_ensureDirectories_eq (host : Host) (config : OpsConfig) (w : World) :
    Program.run host.oracle (ensureDirectories config).run w =
      Program.run host.oracle (ensureEach config.parents).run w := by
  have hLast : ∀ (action : Action Unit) (v : World),
      Program.run host.oracle (do action; pure () : Action Unit).run v =
        Program.run host.oracle action.run v := by
    intro action v
    rw [Fallible.run_bind]
    rcases Program.run host.oracle action.run v with ⟨_ | _, v'⟩ <;> rfl
  unfold ensureDirectories ensureParent OpsConfig.parents
  cases hTrusted : config.trustedCaPath.path.parent with
  | none =>
      cases hDropin : config.dropinPath.path.parent with
      | none => simp only [List.filterMap, hTrusted, hDropin, ensureEach]; rfl
      | some dir =>
          simp only [List.filterMap, hTrusted, hDropin, ensureEach]
          rw [hLast]
          rfl
  | some dir =>
      cases hDropin : config.dropinPath.path.parent with
      | none => simp only [List.filterMap, hTrusted, hDropin, ensureEach]
      | some dir' =>
          simp only [List.filterMap, hTrusted, hDropin, ensureEach]
          rw [Fallible.run_bind, Fallible.run_bind]
          rcases Program.run host.oracle (ensureDirectory dir).run w with ⟨_ | _, v⟩
          · rfl
          · exact (hLast _ v).symm

/-- What making the directories comes to. A success provides them all, and
every change is to something missing on the way or to a mode. Where no look
and no `mkdir` is made to fail, each of these comes about. -/
structure Prepares (host : Host) (w : World) (parents : List Path)
    (result : Except Error Unit × World) :
    Prop where
  done : result.1 = .ok () → w.fs.Preparable host.umask (modeFails host w) parents ∧
    result.2.fs = w.fs.prepared host.umask parents
  changed : ∀ loc, result.2.fs.node loc ≠ w.fs.node loc →
    w.fs.Adds host.umask (modeFails host w) parents loc ∨ w.fs.Resets host.umask
    (modeFails host w) parents loc
  complete : host.Spares FsKind.preparing →
    result.2.fs = w.fs.extended host.umask (modeFails host w) parents ∧
    (w.fs.Preparable host.umask (modeFails host w) parents → result.1 = .ok ()) ∧
    (∀ loc, w.fs.Adds host.umask (modeFails host w) parents loc →
      w.fs.node loc = none ∧ result.2.fs.node loc ≠ none) ∧
    ∀ loc, w.fs.Resets host.umask (modeFails host w) parents loc →
    result.2.fs.node loc ≠ w.fs.node loc

theorem within_ensureEach (parents : List Path) :
    Program.Within (Call.Prepares parents) (ensureEach parents).run := by
  suffices hAll : ∀ rest, (∀ dir ∈ rest, dir ∈ parents) →
      Program.Within (Call.Prepares parents) (ensureEach rest).run from hAll parents fun _ h => h
  intro rest
  induction rest with
  | nil => exact fun _ => trivial
  | cons dir rest ih =>
      intro hMem
      refine Fallible.within_bind (within_ensureDirectory (hMem dir (List.mem_cons_self ..)))
        fun _ => ?_
      exact ih fun dir' h => hMem dir' (List.mem_cons_of_mem _ h)

/-- Making directories advances no other schedule. -/
theorem count_of_prepares (host : Host) {parents : List Path} {Result : Type}
    {p : HostProgram Result}
    (h : p.Within (Call.Prepares parents)) {kind : FsKind}
    (hKind : kind ∉ .chmod :: FsKind.preparing)
    (w : World) : (p.run host.oracle w).2.count kind = w.count kind := by
  refine count_of_kinds host (h.mono ?_) hKind w
  rintro (call | call) hCall
  · cases call <;> first | exact hCall.elim | simp [Call.OfKind, FsCall.kind, FsKind.preparing]
  · exact hCall.elim

/-- The schedule of failing `chmod` calls is moved on by one parent. -/
theorem modeFails_after {w v : World} (hCount : v.count .chmod = w.count .chmod + 1) :
    modeFails host v = fun n => modeFails host w (n + 1) := by
  funext n
  rw [modeFails, modeFails, hCount, Nat.add_assoc, Nat.add_comm 1 n]

/-- What is there once a directory is provided and has its mode. -/
theorem ensured_node {w v : World} (hFs : v.fs = w.fs.ensured host.umask dir) (loc : Loc) :
    v.fs.node loc =
      if loc = w.fs.target dir then
        ((w.fs.provided host.umask dir).node loc).map (fun node => { node with mode := dirMode })
      else (w.fs.provided host.umask dir).node loc := by
  rw [hFs, Fs.ensured, Fs.setMode_node]

/-- Between a tree and the tree with the missing directories, an entry that
differs was missing. -/
theorem added_of_ne (hNe : (w.fs.provided host.umask dir).node loc ≠ w.fs.node loc) :
    w.fs.node loc = none ∧ (w.fs.provided host.umask dir).node loc ≠ none := by
  cases hNode : w.fs.node loc with
  | some node =>
      exact absurd (((Fs.grows_provided host.umask w.fs dir).kept loc node hNode).trans hNode.symm)
        hNe
  | none =>
      rw [hNode] at hNe
      exact ⟨rfl, hNe⟩

/-- A directory that cannot be made ends it, and all that changed was added on
the way to it. -/
theorem prepares_of_refused {err : Error} {v : World}
    (hBetween : ∀ loc, v.fs.node loc = w.fs.node loc ∨
      v.fs.node loc = (w.fs.provided host.umask dir).node loc)
    (hAll : host.Spares FsKind.preparing → v.fs = w.fs.provided host.umask dir ∧
      ¬ (w.fs.CanProvide host.umask dir ∧ modeFails host w 0 = false)) :
    Prepares host w (dir :: rest) (.error err, v) := by
  refine ⟨fun hOk => (by cases hOk), fun loc hNe => Or.inl ?_, fun hSpares => ?_⟩
  · rcases hBetween loc with hSame | hProvided
    · exact absurd hSame hNe
    · exact Or.inl (added_of_ne (hProvided ▸ hNe))
  · obtain ⟨hTree, hNot⟩ := hAll hSpares
    refine ⟨?_, fun h => absurd ⟨h.1, h.2.1⟩ hNot, fun loc hAdds => ?_, fun loc h =>
      absurd ⟨h.1, h.2.1⟩ hNot⟩
    · rw [Fs.extended, if_neg hNot]
      exact hTree
    · rcases hAdds with ⟨hAbsent, hProvided⟩ | h
      · exact ⟨hAbsent, hTree ▸ hProvided⟩
      · exact absurd ⟨h.1, h.2.1⟩ hNot

/-- What a directory that was made changes is its own, or that of the rest. -/
theorem changed_of_ensured {v : World} {last : Except Error Unit × World}
    (hCan : w.fs.CanProvide host.umask dir) (hMode : modeFails host w 0 = false)
    (hFs : v.fs = w.fs.ensured host.umask dir)
    (hChanged : ∀ loc, last.2.fs.node loc ≠ v.fs.node loc →
      v.fs.Adds host.umask (fun n => modeFails host w (n + 1)) rest loc ∨
        v.fs.Resets host.umask (fun n => modeFails host w (n + 1)) rest loc)
    (hNe : last.2.fs.node loc ≠ w.fs.node loc) :
    w.fs.Adds host.umask (modeFails host w) (dir :: rest) loc ∨
      w.fs.Resets host.umask (modeFails host w) (dir :: rest) loc := by
  by_cases hSame : (w.fs.provided host.umask dir).node loc = w.fs.node loc
  swap
  · exact Or.inl (Or.inl (added_of_ne hSame))
  by_cases hFirst : v.fs.node loc = w.fs.node loc
  · rw [← hFirst] at hNe
    rcases hChanged loc hNe with hAdds | hResets
    · exact Or.inl (Or.inr ⟨hCan, hMode, hFs ▸ hAdds⟩)
    · exact Or.inr ⟨hCan, hMode, Or.inr (hFs ▸ hResets)⟩
  -- Only the mode of the directory itself was set.
  rw [ensured_node hFs, hSame] at hFirst
  split at hFirst
  · rename_i hLoc
    cases hNode : w.fs.node loc with
    | none => simp [hNode] at hFirst
    | some node =>
        refine Or.inr ⟨hCan, hMode, Or.inl ⟨hLoc, node, hNode, fun hDirMode => hFirst ?_⟩⟩
        rw [hNode, Option.map_some, ← hDirMode]
  · exact absurd rfl hFirst

/-- What a made directory and the rest add was missing and then is there. -/
theorem added_of_ensured {v : World} {last : Except Error Unit × World}
    (hFs : v.fs = w.fs.ensured host.umask dir) (hLater : Fs.Prepared rest v.fs last.2.fs)
    (hAdds : ∀ loc, v.fs.Adds host.umask (fun n => modeFails host w (n + 1)) rest loc →
      v.fs.node loc = none ∧ last.2.fs.node loc ≠ none)
    (h : w.fs.Adds host.umask (modeFails host w) (dir :: rest) loc) :
    w.fs.node loc = none ∧ last.2.fs.node loc ≠ none := by
  have hAbsent : v.fs.node loc = none → (w.fs.provided host.umask dir).node loc = none := by
    intro hNone
    rw [ensured_node hFs] at hNone
    split at hNone
    · simpa using hNone
    · exact hNone
  rcases h with ⟨hBefore, hProvided⟩ | ⟨-, -, hNext⟩
  · exact ⟨hBefore, hLater.keeps.present loc fun hNone => hProvided (hAbsent hNone)⟩
  · obtain ⟨hNone, hThere⟩ := hAdds loc (hFs ▸ hNext)
    exact ⟨(Fs.grows_provided host.umask w.fs dir).absent (hAbsent hNone), hThere⟩

/-- The last mode set is that of a managed directory, whoever set it. -/
theorem reset_of_ensured {v : World} {last : Except Error Unit × World}
    (hFs : v.fs = w.fs.ensured host.umask dir) (hLater : Fs.Prepared rest v.fs last.2.fs)
    (hResets : ∀ loc, v.fs.Resets host.umask (fun n => modeFails host w (n + 1)) rest loc →
      last.2.fs.node loc ≠ v.fs.node loc)
    (h : w.fs.Resets host.umask (modeFails host w) (dir :: rest) loc) :
    last.2.fs.node loc ≠ w.fs.node loc := by
  have hGrows := Fs.grows_provided host.umask w.fs dir
  have hStep := hLater.node loc
  intro hSame
  rcases h with ⟨-, -, ⟨hLoc, node, hNode, hMode⟩ | hNext⟩
  · rw [ensured_node hFs, if_pos hLoc, hGrows.kept loc node hNode, Option.map_some] at hStep
    have hSet := hStep.eq_of_dirMode rfl
    rw [hSame, hNode, Option.some.injEq] at hSet
    rw [hSet] at hMode
    exact hMode rfl
  · have hNe := hResets loc (hFs ▸ hNext)
    cases hNode : w.fs.node loc with
    | none =>
        rw [hNode] at hSame
        refine hNe (hSame.trans (Eq.symm ?_))
        by_contra hThere
        exact hLater.keeps.present loc hThere hSame
    | some node =>
        rw [ensured_node hFs, hGrows.kept loc node hNode] at hNe hStep
        split at hNe
        · rename_i hLoc
          rw [if_pos hLoc, Option.map_some] at hStep
          exact hNe (hStep.eq_of_dirMode rfl)
        · exact hNe (hSame.trans hNode)

/-- A parent that has been prepared, and the rest after it. -/
theorem prepares_of_ensured {v : World} {last : Except Error Unit × World}
    (hCan : w.fs.CanProvide host.umask dir) (hMode : modeFails host w 0 = false)
    (hFs : v.fs = w.fs.ensured host.umask dir) (hCount : v.count .chmod = w.count .chmod + 1)
    (hRest : Prepares host v rest last) (hLater : Fs.Prepared rest v.fs last.2.fs) :
    Prepares host w (dir :: rest) last := by
  obtain ⟨hDone, hChanged, hComplete⟩ := hRest
  rw [modeFails_after hCount] at hDone hChanged hComplete
  refine ⟨fun hOk => ?_, fun loc hNe => changed_of_ensured hCan hMode hFs hChanged hNe,
    fun hSpares => ?_⟩
  · obtain ⟨hPreparable, hTree⟩ := hDone hOk
    rw [hFs] at hPreparable hTree
    exact ⟨⟨hCan, hMode, hPreparable⟩, hTree⟩
  · obtain ⟨hTree, hOk, hAdds, hResets⟩ := hComplete hSpares
    refine ⟨?_, fun h => hOk (hFs ▸ h.2.2), fun loc h => added_of_ensured hFs hLater hAdds h,
      fun loc h => reset_of_ensured hFs hLater hResets h⟩
    rw [Fs.extended, if_pos ⟨hCan, hMode⟩, ← hFs]
    exact hTree

/-- What the preparation answers and leaves is told by the tree and the
schedule before it. -/
theorem run_ensureEach (host : Host) (w : World) (parents : List Path)
    (hPlain : ∀ dir ∈ parents, dir.trailing = false) :
    Prepares host w parents (Program.run host.oracle (ensureEach parents).run w) := by
  induction parents generalizing w with
  | nil =>
      exact ⟨fun _ => ⟨trivial, rfl⟩, fun _ h => absurd rfl h,
        fun _ => ⟨rfl, fun _ => rfl, fun _ h => h.elim, fun _ h => h.elim⟩⟩
  | cons dir rest ih =>
      have hFirst := run_ensureDirectory host w dir (hPlain dir (List.mem_cons_self ..))
      rw [ensureEach, Fallible.run_bind]
      generalize Program.run host.oracle (ensureDirectory dir).run w = out at hFirst
      cases hFirst with
      | refused err v hBetween hAll => exact prepares_of_refused hBetween hAll
      | ensured v hCan hMode hFs hCount =>
          have hRest := ih v fun dir' h => hPlain dir' (List.mem_cons_of_mem _ h)
          have hLater := (prepared_of_within host (within_ensureEach rest) v).1
          exact prepares_of_ensured hCan hMode hFs hCount hRest hLater

/-- On a reliable host no `chmod` fails. -/
theorem modeFails_of_reliable (hReliable : host.Reliable) (w : World) :
    modeFails host w = fun _ => false :=
  funext fun _ => hReliable _ _

/-- The parent of a path has no trailing slash. -/
theorem parent_plain {path dir : Path} (h : path.parent = some dir) : dir.trailing = false := by
  unfold Path.parent at h
  split at h
  · cases h
  · cases h
    rfl

/-- The same of the operation itself. -/
theorem prepares_ensureDirectories (host : Host) (config : OpsConfig) (w : World) :
    Prepares host w config.parents (Program.run host.oracle (ensureDirectories config).run w) := by
  rw [run_ensureDirectories_eq]
  refine run_ensureEach host w config.parents fun dir hDir => ?_
  obtain ⟨path, -, hParent⟩ := List.mem_filterMap.mp hDir
  exact parent_plain hParent

/-- The main configuration is a text that includes the drop-in directory. -/
def MainIncludes (config : OpsConfig) (fs : Fs) : Prop :=
  ∃ bytes text, fs.Reads config.mainSshdConfig.path (some bytes) ∧ Text.fromUtf8 bytes = some text ∧
    SshdConfig.includesDropinDir text SshdConfig.dropinDir = true

/-- The check for the `Include` passes where the main configuration can be read
and includes the directory. -/
theorem ensureIncludePresent_eq_ok_iff {config : OpsConfig} {w' : World} :
    Program.run host.oracle (ensureIncludePresent config).run w = (.ok (), w') ↔
      host.fails .read (w.count .read) = false ∧ MainIncludes config w.fs ∧
        w' = w.after [.read] w.fs := by
  unfold ensureIncludePresent MainIncludes
  rw [Fallible.run_bind_eq_ok_iff]
  simp only [readOptionalString_eq_ok_iff]
  constructor
  · rintro ⟨onDisk, _, ⟨hRead, ⟨previous, hReads, hShown⟩, rfl⟩, hNext⟩
    cases hShown with
    | absent => cases hNext
    | @text bytes text hText =>
        dsimp only at hNext
        split at hNext
        · rename_i hIncludes
          rw [SshdConfig.includesDropinDir_trimEnd] at hIncludes
          cases hNext
          exact ⟨hRead, ⟨bytes, text, hReads, hText, hIncludes⟩, rfl⟩
        · cases hNext
  · rintro ⟨hRead, ⟨bytes, text, hReads, hText, hIncludes⟩, rfl⟩
    refine ⟨_, _, ⟨hRead, ⟨some bytes, hReads, .text hText⟩, rfl⟩, ?_⟩
    dsimp only
    rw [SshdConfig.includesDropinDir_trimEnd, if_pos hIncludes]
    rfl

section Prepare

variable {config : OpsConfig} {content : Text} {w₁ : World}

/-- A completed preparation tells that the parents could be prepared. -/
theorem preparable_of_ensureDirectories
    (h : Program.run host.oracle (ensureDirectories config).run w = (.ok (), w₁)) :
    w.fs.Preparable host.umask (modeFails host w) config.parents ∧
      w₁.fs = w.fs.prepared host.umask config.parents := by
  have hPrepares := prepares_ensureDirectories host config w
  rw [h] at hPrepares
  exact hPrepares.done rfl

/-- Where no look and no `mkdir` is made to fail, the directories are made
whenever the tree lets them. -/
theorem ensureDirectories_of_preparable (hSpares : host.Spares FsKind.preparing)
    (h : w.fs.Preparable host.umask (modeFails host w) config.parents) :
    ∃ w₁, Program.run host.oracle (ensureDirectories config).run w = (.ok (), w₁) ∧
      w₁.fs = w.fs.prepared host.umask config.parents := by
  have hPrepares := prepares_ensureDirectories host config w
  have hOk := (hPrepares.complete hSpares).2.1 h
  exact ⟨_, Prod.ext hOk rfl, (hPrepares.done hOk).2⟩

/-- So does an install that gets to its write. -/
theorem preparable_of_installPrepare
    (h : Program.run host.oracle (installPrepare config).run w = (.ok (), w₁)) :
    w.fs.Preparable host.umask (modeFails host w) config.parents ∧
      w₁.fs = w.fs.prepared host.umask config.parents ∧ MainIncludes config w₁.fs := by
  obtain ⟨v, hDirs, hInclude⟩ := Fallible.run_seq_eq_ok_iff.mp h
  obtain ⟨-, hMain, rfl⟩ := ensureIncludePresent_eq_ok_iff.mp hInclude
  obtain ⟨hPreparable, hFs⟩ := preparable_of_ensureDirectories hDirs
  exact ⟨hPreparable, hFs, hMain⟩

/-- An install whose looks succeed gets to its write. -/
theorem installPrepare_of_preparable (hSpares : host.Spares (.read :: FsKind.preparing))
    (h : w.fs.Preparable host.umask (modeFails host w) config.parents)
    (hMain : MainIncludes config (w.fs.prepared host.umask config.parents)) :
    ∃ w₁, Program.run host.oracle (installPrepare config).run w = (.ok (), w₁) := by
  obtain ⟨v, hDirs, hFs⟩ := ensureDirectories_of_preparable
    (fun kind hKind => hSpares kind (List.mem_cons_of_mem _ hKind)) h
  exact ⟨_, Fallible.run_seq_eq_ok_iff.mpr ⟨v, hDirs,
    ensureIncludePresent_eq_ok_iff.mpr ⟨hSpares .read (by decide) _, hFs ▸ hMain, rfl⟩⟩⟩

/-- So does an apply that gets to its write. -/
theorem preparable_of_applyPrepare
    (h : Program.run host.oracle (applyPrepare config content).run w = (.ok (), w₁)) :
    acceptsCa content = true ∧ w.fs.Preparable host.umask (modeFails host w) config.parents ∧
      w₁.fs = w.fs.prepared host.umask config.parents := by
  obtain ⟨hParse, hDirs⟩ := applyPrepare_ok h
  exact ⟨hParse, preparable_of_ensureDirectories hDirs⟩

/-- An apply whose looks succeed gets to its write. -/
theorem applyPrepare_of_preparable (hSpares : host.Spares FsKind.preparing)
    (h : w.fs.Preparable host.umask (modeFails host w) config.parents)
    (hContent : acceptsCa content = true) :
    ∃ w₁, Program.run host.oracle (applyPrepare config content).run w = (.ok (), w₁) := by
  obtain ⟨v, hDirs, -⟩ := ensureDirectories_of_preparable hSpares h
  refine ⟨v, ?_⟩
  unfold applyPrepare
  rw [Fallible.run_bind, run_liftExcept]
  cases hKeys : TrustedCaKeys.parse content with
  | error err => simp [acceptsCa, hKeys, Except.isOk, Except.toBool] at hContent
  | ok keys => exact hDirs

end Prepare

end Ops

namespace Request

/-- What a writing request needs to get to its file: the managed directories
can be made, and then the main configuration has the `Include`, or the content
is a list of keys. -/
def Reaches (umask : Nat) (fails : Nat → Bool) (config : OpsConfig) (fs : Fs) (request : Request) :
    Prop :=
  fs.Preparable umask fails config.parents ∧
    match request.op with
    | .installSshdDropin => Ops.MainIncludes config (fs.prepared umask config.parents)
    | _ => request.content.any Ops.acceptsCa = true

variable {host : Host} {config : OpsConfig} {request : Request} {update : Update} {w w₁ : World}

/-- A preparation that succeeded shows that the request reaches its file, and
where it goes on from. -/
theorem reaches_of_prepare (hUpdate : request.update config = some update)
    (h : Program.run host.oracle (request.prepare config).run w = (.ok (), w₁)) :
    request.Reaches host.umask (Ops.modeFails host w) config w.fs ∧
      w₁.fs = w.fs.prepared host.umask config.parents := by
  unfold Reaches
  rcases request.update_eq_some hUpdate with ⟨hOp, -⟩ | ⟨hOp, content, hContent, -⟩
  · simp only [Request.prepare, hOp] at h ⊢
    obtain ⟨hPreparable, hFs, hMain⟩ := Ops.preparable_of_installPrepare h
    exact ⟨⟨hPreparable, hFs ▸ hMain⟩, hFs⟩
  · simp only [Request.prepare, hOp, hContent, Option.getD_some] at h ⊢
    obtain ⟨hParse, hPreparable, hFs⟩ := Ops.preparable_of_applyPrepare h
    exact ⟨⟨hPreparable, hParse⟩, hFs⟩

/-- Where no look and no `mkdir` is made to fail, that is enough. -/
theorem prepare_of_reaches (hUpdate : request.update config = some update)
    (hSpares : host.Spares (.read :: FsKind.preparing))
    (h : request.Reaches host.umask (Ops.modeFails host w) config w.fs) :
    ∃ w₁, Program.run host.oracle (request.prepare config).run w = (.ok (), w₁) := by
  obtain ⟨hPreparable, hMore⟩ := h
  rcases request.update_eq_some hUpdate with ⟨hOp, -⟩ | ⟨hOp, content, hContent, -⟩
  · simp only [hOp] at hMore
    simp only [Request.prepare, hOp]
    exact Ops.installPrepare_of_preparable hSpares hPreparable hMore
  · simp only [hOp, hContent, Option.any_some] at hMore
    simp only [Request.prepare, hOp, hContent, Option.getD_some]
    exact Ops.applyPrepare_of_preparable (fun kind hKind =>
      hSpares kind (List.mem_cons_of_mem _ hKind))
      hPreparable hMore

end Request
end MayflyHelper
