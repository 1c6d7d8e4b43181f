import MayflyHelper.Transcript
import MayflyHelper.Sandbox

/-! Every request keeps to the rules. -/
namespace MayflyHelper

open OracleProgram Transcript

variable {config : OpsConfig} {request : Request} {update : Update} {past : Transcript}

/-- The program keeps to the rules of a request from here on, and ends with `Q`. -/
abbrev Obeys (config : OpsConfig) (request : Request) {Result : Type} (p : HostProgram Result)
    (past : Transcript) (Q : Result → Transcript → Prop) : Prop :=
  p.Complies (Permitted config request) past Q

theorem Transcript.Looked.cons {event : Replied Call Call.Reply} (h : event.call.Looks)
    (hPast : Looked past) :
    Looked (event :: past) := by
  intro other hOther
  cases hOther with
  | head => exact h
  | tail _ hMem => exact hPast other hMem

/-- What has been checked stays checked. -/
theorem Request.Cleared.mono {later : Transcript} (h : request.Cleared config past)
    (hLater : past ⊆ later) :
    request.Cleared config later := by
  unfold Request.Cleared at h ⊢
  split at h
  · obtain ⟨bytes, text, hMem, hText⟩ := h
    exact ⟨bytes, text, hLater hMem, hText⟩
  · exact h
  · exact h

/-- The failed control is the last one tried, and none of them reads a file. -/
theorem Transcript.Controls.failed {err : Error} {controls : Transcript}
    (h : Controls (.error err) controls) :
    ∃ call passed, controls = sshd call (.error err) :: passed ∧
      ∀ path past, lastRead path (passed ++ past) = lastRead path past := by
  cases h with
  | invalid => exact ⟨_, _, rfl, fun _ _ => rfl⟩
  | unloaded => exact ⟨_, _, rfl, fun _ _ => rfl⟩
  | inactive => exact ⟨_, _, rfl, fun _ _ => rfl⟩

/-- Wrapping an error makes no calls. -/
theorem obeys_io {Value : Type} {p : HostProgram (Except IoErrorKind Value)}
    {Good : Value → Transcript → Prop}
    {Bad : Transcript → Prop} (h : Obeys config request p past (Fallible.Either Good Bad)) :
    Obeys config request (FsCall.io p).run past (Fallible.Either Good Bad) := by
  refine h.bind ?_
  intro result later hLater hResult
  cases result with
  | ok value => exact hResult
  | error kind => exact hResult

theorem obeys_attempt {Value : Type} {action : Action Value}
    {Q : Except Error Value → Transcript → Prop}
    (h : Obeys config request action.run past Q) : Obeys config request (attempt action) past Q := h

namespace Security

/-- The look of `isSymlink`, and what it told. -/
theorem obeys_isSymlink {path : Path} (h : Permitted config request past (.fs (.lstat path))) :
    Obeys config request (isSymlink path).run past
      (Fallible.Either (fun link later => ∃ seen, later = fs (.lstat path) seen :: past ∧
        (link = false → NoLink seen))
        (fun later => ∃ seen, later = fs (.lstat path) seen :: past)) := by
  refine ⟨h, fun reply => ?_⟩
  rcases reply with (_ | _) | node
  · exact ⟨_, rfl, fun _ => rfl⟩
  · exact ⟨_, rfl⟩
  · obtain ⟨kind, mode, owner⟩ := node
    cases kind with
    | symlink target => exact ⟨_, rfl, fun hFalse => by cases hFalse⟩
    | directory => exact ⟨_, rfl, fun _ target hTarget => by cases hTarget⟩
    | regular bytes => exact ⟨_, rfl, fun _ target hTarget => by cases hTarget⟩
    | special => exact ⟨_, rfl, fun _ target hTarget => by cases hTarget⟩

/-- What passes has been seen to be no link. -/
theorem obeys_ensureNotSymlink {path : Path}
    (h : Permitted config request past (.fs (.lstat path))) :
    Obeys config request (ensureNotSymlink path).run past
      (Fallible.Either (fun _ later => ∃ seen, later = fs (.lstat path) seen :: past ∧ NoLink seen)
        (fun later => ∃ seen, later = fs (.lstat path) seen :: past)) := by
  refine Fallible.complies_bind (obeys_isSymlink h) ?_ (fun _ _ _ hBad => hBad)
  intro link later hLater hLink
  obtain ⟨seen, rfl, hSeen⟩ := hLink
  cases link with
  | true => exact ⟨seen, rfl⟩
  | false => exact ⟨seen, rfl, hSeen rfl⟩

/-- A write either publishes the bytes or breaks off; a temporary file that
could not be filled is dropped at once. -/
theorem obeys_secureWrite {bytes : Bytes} (hUpdate : request.update config = some update)
    (hDue : Due config request update past bytes) :
    Obeys config request (secureWrite update.path bytes modePublic).run past
      (Fallible.Either (fun _ later => ∃ dir tmp,
        later = published dir update.path tmp bytes ++ past)
        (fun later => ∃ new, later = new ++ past ∧ Broken update.path bytes new)) := by
  unfold secureWrite atomicReplace parentOf
  cases hParent : update.path.parent.filter (fun parent => !parent.isEmpty) with
  | none => exact ⟨[], rfl, .spared [] (by simp)⟩
  | some dir =>
      have hDir : update.path.parent = some dir := (Option.filter_eq_some_iff.mp hParent).1
      refine ⟨.createTemp hUpdate hDir hDue, fun reply => ?_⟩
      rcases reply with kind | tmp
      · exact ⟨[_], rfl, .spared _ (by simp [Spares])⟩
      refine ⟨.fchmod, fun reply => ?_⟩
      rcases reply with kind | _
      · refine ⟨.dropTemp (.fchmod kind), fun _ => ?_⟩
        exact ⟨[_, _, _], rfl, .spared _ (by simp [Spares])⟩
      refine ⟨.write hUpdate hDue, fun reply => ?_⟩
      rcases reply with kind | _
      · refine ⟨.dropTemp (.write bytes kind), fun _ => ?_⟩
        exact ⟨[_, _, _, _], rfl, .spared _ (by simp [Spares])⟩
      refine ⟨.fsync, fun reply => ?_⟩
      rcases reply with kind | _
      · refine ⟨.dropTemp (.fsync kind), fun _ => ?_⟩
        exact ⟨[_, _, _, _, _], rfl, .spared _ (by simp [Spares])⟩
      refine ⟨.rename hUpdate hDir, fun reply => ?_⟩
      rcases reply with kind | _
      · exact ⟨[_, _, _, _, _], rfl, .spared _ (by simp [Spares])⟩
      refine ⟨.fsyncDir hDir, fun reply => ?_⟩
      rcases reply with kind | _
      · exact ⟨_ :: _ :: staged dir tmp bytes, rfl, .unsynced dir tmp kind⟩
      · exact ⟨dir, tmp, rfl⟩

end Security

namespace Ops

/-- The look after a failed `mkdir`. -/
theorem obeys_orIsDir {path : Path} {kind kind' : IoErrorKind} (hPast : Looked past) :
    Obeys config request (orIsDir path kind) (fs (.mkdir path) (.error kind') :: past)
      (fun _ later => Looked later) := by
  refine ⟨.isDir hPast, fun reply => ?_⟩
  show Looked (_ :: _ :: past)
  exact (hPast.cons (by trivial)).cons trivial

/-- Every directory tried is a tail of the components, read outwards. -/
theorem obeys_createDirAllFrom {dir : Path} (hDir : dir ∈ config.parents) (components : List Name)
    (hTail : components <:+ dir.components.reverse) (hAbsent : fs (.pathExists dir) false ∈ past)
    (hPast : Looked past) :
    Obeys config request (createDirAllFrom dir.absolute components) past
      (fun _ later => Looked later) := by
  have hMkdir : ∀ {above : List Name} {later : Transcript}, above <:+ dir.components.reverse →
      fs (.pathExists dir) false ∈ later → Looked later →
      Permitted config request later (.fs (.mkdir ⟨dir.absolute, above.reverse, false⟩)) := by
    intro above later hAbove hLater hLooked
    refine .mkdir hLooked hDir ?_ hLater
    exact List.mem_map.mpr ⟨above, (List.mem_tails _ _).mpr hAbove, rfl⟩
  induction components generalizing past with
  | nil =>
      unfold createDirAllFrom
      dsimp only
      split
      · exact .pure hPast
      · refine ⟨hMkdir hTail hAbsent hPast, fun reply => ?_⟩
        rcases reply with (_ | _) | _
        · exact hPast.cons trivial
        · exact obeys_orIsDir hPast
        · exact hPast.cons trivial
  | cons name above ih =>
      refine ⟨hMkdir hTail hAbsent hPast, fun reply => ?_⟩
      rcases reply with (_ | _) | _
      · have hTried :
            Looked (fs (.mkdir ⟨dir.absolute, (name :: above).reverse, false⟩)
              (.error .notFound) :: past) :=
          hPast.cons trivial
        have hAbove :=
          ih ((List.suffix_cons name above).trans hTail) (List.mem_cons_of_mem _ hAbsent) hTried
        refine hAbove.bind ?_
        intro made later hLater hLooked
        cases made with
        | error kind => exact .pure hLooked
        | ok _ =>
            refine ⟨hMkdir hTail (hLater.subset (List.mem_cons_of_mem _ hAbsent))
              hLooked, fun reply => ?_⟩
            cases reply with
            | error kind => exact obeys_orIsDir hLooked
            | ok _ => exact hLooked.cons trivial
      · exact obeys_orIsDir hPast
      · exact hPast.cons trivial

/-- A directory is given its mode only once it has been seen to be no link. -/
theorem obeys_ensureDirectory {dir : Path} (hDir : dir ∈ config.parents) (hPast : Looked past) :
    Obeys config request (ensureDirectory dir).run past
      (Fallible.Either (fun _ later => Looked later) Looked) := by
  have hRest : ∀ {later : Transcript}, Looked later → Obeys config request (ExceptT.run do
      Security.ensureNotSymlink dir
      FsCall.io (fsCall (.chmod dir dirMode))) later
      (Fallible.Either (fun _ later => Looked later) Looked) := by
    intro later hLater
    refine Fallible.complies_bind
      (Security.obeys_ensureNotSymlink (.lstat hLater (.inl hDir))) ?_ ?_
    · rintro _ _ - ⟨seen, rfl, hSeen⟩
      refine obeys_io ⟨.chmod hLater hDir hSeen, fun reply => ?_⟩
      cases reply with
      | ok _ => exact (hLater.cons (by trivial)).cons trivial
      | error kind => exact (hLater.cons (by trivial)).cons trivial
    · rintro _ _ - ⟨seen, rfl⟩
      exact hLater.cons trivial
  refine ⟨.pathExists hPast hDir, fun present => ?_⟩
  have hPresent : Looked (fs (.pathExists dir) present :: past) := hPast.cons trivial
  cases present with
  | true => exact hRest hPresent
  | false =>
      have hAll : Obeys config request (createDirAll dir) (fs (.pathExists dir) false :: past)
          (fun _ later => Looked later) :=
        obeys_createDirAllFrom hDir _ (List.suffix_refl _) List.mem_cons_self hPresent
      refine Fallible.complies_bind (obeys_io (Fallible.complies_either hAll)) ?_
        (fun _ _ _ hBad => hBad)
      intro _ later _ hLater
      exact hRest hLater

/-- Preparing the parents keeps to looks and preparing. -/
theorem obeys_ensureDirectories (hPast : Looked past) :
    Obeys config request (ensureDirectories config).run past
      (Fallible.Either (fun _ later => Looked later) Looked) := by
  have hParent : ∀ {path : Path} {later : Transcript},
    path ∈ [config.trustedCaPath.path, config.dropinPath.path] →
      Looked later →
      Obeys config request (ensureParent path).run later
        (Fallible.Either (fun _ later => Looked later) Looked) := by
    intro path later hPath hLater
    unfold ensureParent
    split
    · rename_i dir hDir
      exact obeys_ensureDirectory (List.mem_filterMap.mpr ⟨path, hPath, hDir⟩) hLater
    · exact .pure hLater
  refine Fallible.complies_bind (hParent (by simp) hPast) ?_ (fun _ _ _ hBad => hBad)
  intro _ later _ hLater
  exact hParent (by simp) hLater

/-- A read, and what it told: bytes, or nothing there. -/
theorem obeys_readOptional {path : Path} (h : path ∈ config.consulted) (hPast : Looked past) :
    Obeys config request (readOptional path).run past
      (Fallible.Either (fun previous later => ∃ found, later = fs (.read path) found :: past ∧
        ReadAs found previous)
        (fun later => ∃ found, later = fs (.read path) found :: past)) := by
  refine ⟨.read hPast h, fun reply => ?_⟩
  rcases reply with (_ | _) | bytes
  · exact ⟨_, rfl, .missing⟩
  · exact ⟨_, rfl⟩
  · exact ⟨_, rfl, .bytes bytes⟩

/-- The same with the bytes taken for a text. -/
theorem obeys_readOptionalString {path : Path} (h : path ∈ config.consulted) (hPast : Looked past) :
    Obeys config request (readOptionalString path).run past
      (Fallible.Either (fun text later => ∃ found previous, later = fs (.read path) found :: past ∧
          ReadAs found previous ∧ ShownAs previous text)
        (fun later => ∃ found, later = fs (.read path) found :: past)) := by
  refine Fallible.complies_bind (obeys_readOptional h hPast) ?_ (fun _ _ _ hBad => hBad)
  rintro previous _ - ⟨found, rfl, hFound⟩
  cases previous with
  | none => exact ⟨found, none, rfl, hFound, .absent⟩
  | some bytes =>
      dsimp only
      cases hText : Text.fromUtf8 bytes with
      | none => exact ⟨found, rfl⟩
      | some text => exact ⟨found, some bytes, rfl, hFound, .text hText⟩

/-- The main configuration has been read and includes the drop-ins. -/
theorem obeys_ensureIncludePresent (hOp : request.op = .installSshdDropin) (hPast : Looked past) :
    Obeys config request (ensureIncludePresent config).run past
      (Fallible.Either (fun _ later => Looked later ∧ request.Cleared config later) Looked) := by
  refine Fallible.complies_bind
    (obeys_readOptionalString (by simp [OpsConfig.consulted]) hPast) ?_ ?_
  · rintro shown _ - ⟨found, previous, rfl, hFound, hShown⟩
    have hLooked : Looked (fs (.read config.mainSshdConfig.path) found :: past) :=
      hPast.cons trivial
    cases hShown with
    | absent => exact hLooked
    | @text bytes text hText =>
        dsimp only
        split
        · rename_i hIncludes
          refine ⟨hLooked, ?_⟩
          unfold Request.Cleared
          rw [hOp]
          cases hFound
          exact ⟨bytes, text, List.mem_cons_self, hText, hIncludes⟩
        · exact hLooked
  · rintro _ _ - ⟨found, rfl⟩
    exact hPast.cons trivial

/-- Controls, up to the first that fails. -/
theorem obeys_validateReloadVerify (hUpdate : request.update config = some update)
    (h : Permitted config request past (.sshd .validateConfig)) :
    Obeys config request validateReloadVerify.run past
      (fun result later => ∃ controls, later = controls ++ past ∧ Controls result controls) := by
  refine ⟨h, fun reply => ?_⟩
  rcases reply with err | _
  · exact ⟨_, rfl, .invalid err⟩
  refine ⟨.reload hUpdate, fun reply => ?_⟩
  rcases reply with err | _
  · exact ⟨_, rfl, .unloaded err⟩
  refine ⟨.reloaded, fun reply => ?_⟩
  rcases reply with err | _
  · exact ⟨_, rfl, .inactive err⟩
  · exact ⟨_, rfl, .passed⟩

/-- The file is put back as it was read last, or removed if it was missing. -/
theorem obeys_restore {found : Except IoErrorKind Bytes} {previous : Option Bytes} {call : SshdCall}
    {err : Error}
    (hUpdate : request.update config = some update) (hRead : lastRead update.path past = some found)
    (hFound : ReadAs found previous) :
    Obeys config request (restore update.path previous).run (sshd call (.error err) :: past)
      (Fallible.Either
        (fun _ later => Permitted config request later (.sshd .validateConfig) ∧
          ∃ restored, later = restored ++ sshd call (.error err) :: past ∧
            Restored update.path previous restored)
        (fun later => ∃ new, later = new ++ sshd call (.error err) :: past ∧
          Undone update.path previous new)) := by
  cases hFound with
  | bytes bytes =>
      refine (Security.obeys_secureWrite hUpdate (.restore call err bytes hRead)).mono ?_
      intro outcome later _ hOutcome
      cases outcome with
      | ok _ =>
          obtain ⟨dir, tmp, rfl⟩ := hOutcome
          exact ⟨.validate hUpdate, _, rfl, .written dir tmp bytes⟩
      | error err =>
          obtain ⟨new, rfl, hBroken⟩ := hOutcome
          exact ⟨new, rfl, .broken bytes new rfl hBroken⟩
  | missing =>
      refine ⟨.unlink hUpdate hRead, fun reply => ?_⟩
      rcases reply with (_ | _) | _
      · exact ⟨.revalidate hUpdate (.inr rfl), [_], rfl, .gone⟩
      · exact ⟨[_], rfl, .stuck .other rfl (by simp)⟩
      · exact ⟨.revalidate hUpdate (.inl rfl), [_], rfl, .removed⟩

/-- After a failed control the last file read is put back, or removed if there
was none. -/
theorem obeys_rollbackPath {found : Except IoErrorKind Bytes} {previous : Option Bytes}
    {call : SshdCall}
    {err : Error} (hUpdate : request.update config = some update)
    (hRead : lastRead update.path past = some found) (hFound : ReadAs found previous) :
    Obeys config request (rollbackPath update.path previous) (sshd call (.error err) :: past)
      (fun _ later => ∃ undo, later = undo ++ sshd call (.error err) :: past ∧
        Undone update.path previous undo) := by
  refine (obeys_attempt (obeys_restore hUpdate hRead hFound)).bind ?_
  intro outcome later _ hOutcome
  cases outcome with
  | error err => exact hOutcome
  | ok _ =>
      obtain ⟨hValidate, restored, rfl, hRestored⟩ := hOutcome
      refine (obeys_attempt (obeys_validateReloadVerify hUpdate hValidate)).bind ?_
      rintro result _ - ⟨controls, rfl, hControls⟩
      exact ⟨controls ++ restored, (List.append_assoc ..).symm,
        .checked result _ _ hControls hRestored⟩

/-- From a file out of date to the end of the request. -/
theorem obeys_exchange {found : Except IoErrorKind Bytes} {previous : Option Bytes}
    (hUpdate : request.update config = some update) (hLooked : Looked past)
    (hDue : Due config request update past update.contents)
    (hRead : lastRead update.path past = some found)
    (hFound : ReadAs found previous) :
    Obeys config request (ExceptT.run do
      Security.secureWrite update.path update.contents Security.modePublic
      commit update.path previous update.done) past (Ending update) := by
  refine Fallible.complies_bind (Security.obeys_secureWrite hUpdate hDue) ?_ ?_
  · rintro _ _ - ⟨dir, tmp, rfl⟩
    refine (obeys_attempt (obeys_validateReloadVerify hUpdate (.validate hUpdate))).bind ?_
    rintro result _ - ⟨controls, rfl, hControls⟩
    cases result with
    | ok _ =>
        cases hControls
        exact Ending.done hLooked dir tmp
    | error err =>
        obtain ⟨call, passed, rfl, hPassed⟩ := hControls.failed
        have hKept : lastRead update.path
          (passed ++ (published dir update.path tmp update.contents ++ past)) =
            some found := (hPassed _ _).trans hRead
        refine (obeys_rollbackPath hUpdate hKept hFound).bind ?_
        rintro _ _ - ⟨undo, rfl, hUndone⟩
        have hEnding :=
          Ending.undone err hLooked dir tmp found previous hRead hFound _ undo hControls hUndone
        refine .pure ?_
        simpa using hEnding
  · rintro err _ - ⟨new, rfl, hBroken⟩
    exact .broken err hLooked new hBroken

/-- The install ends as one of the endings of a write of the drop-in. -/
theorem obeys_installSshdDropin (hOp : request.op = .installSshdDropin) :
    Obeys config request (installSshdDropin config).run [] (Ending (Update.dropin config)) := by
  have hUpdate : request.update config =
    some (Update.dropin config) := by simp only [Request.update, hOp]
  have hConsulted : config.dropinPath.path ∈ config.consulted := by simp [OpsConfig.consulted]
  refine Fallible.complies_bind (obeys_ensureDirectories (by simp [Looked])) ?_
    (fun err _ _ h => .refused err h)
  intro _ later _ hPrepared
  refine Fallible.complies_bind (obeys_ensureIncludePresent hOp hPrepared) ?_
    (fun err _ _ h => .refused err h)
  rintro _ past - ⟨hPast, hCleared⟩
  refine Fallible.complies_bind (obeys_readOptionalString hConsulted hPast) ?_ ?_
  · rintro shown _ - ⟨found, previous, rfl, hFound, hShown⟩
    have hLooked : Looked (fs (.read config.dropinPath.path) found :: past) := hPast.cons trivial
    split
    · rename_i hSame
      exact Ending.current hLooked found previous (by simp [lastRead, fs, Update.dropin]) hFound
        (hShown.current_iff.mp hSame)
    · rename_i hDiff
      refine Fallible.complies_bind
        (Security.obeys_ensureNotSymlink (.lstat hLooked (.inr (.inr rfl)))) ?_ ?_
      · rintro _ _ - ⟨seen, rfl, hSeen⟩
        have hSeenLooked :
            Looked (fs (.lstat config.dropinPath.path) seen ::
              fs (.read config.dropinPath.path) found ::
          past) := hLooked.cons trivial
        refine Fallible.complies_bind (obeys_readOptional hConsulted hSeenLooked) ?_ ?_
        · rintro again _ - ⟨foundAgain, rfl, hAgain⟩
          refine obeys_exchange hUpdate (hSeenLooked.cons trivial) ?_
            (by simp [lastRead, fs, Update.dropin]) hAgain
          refine .fresh seen hSeen foundAgain again hAgain hLooked ?_ found previous
            (by simp [Update.dropin]) hFound ?_
          · exact hCleared.mono fun event hEvent => by simp [hEvent]
          · exact fun hCurrent => hDiff (hShown.current_iff.mpr hCurrent)
        · rintro err _ - ⟨foundAgain, rfl⟩
          exact .refused err (hSeenLooked.cons trivial)
      · rintro err _ - ⟨seen, rfl⟩
        exact .refused err (hLooked.cons trivial)
  · rintro err _ - ⟨found, rfl⟩
    exact .refused err (hPast.cons trivial)

/-- The apply ends as one of the endings of a write of the keys. -/
theorem obeys_applyTrustedCaKeys {content : Text} (hOp : request.op = .applyTrustedCaKeys)
    (hContent : request.content = some content) :
    Obeys config request (applyTrustedCaKeys config content).run []
      (Ending (Update.trustedCa config content)) := by
  have hUpdate : request.update config = some (Update.trustedCa config content) := by
    simp only [Request.update, hOp, hContent, Option.map_some]
  have hConsulted : config.trustedCaPath.path ∈ config.consulted := by simp [OpsConfig.consulted]
  refine Fallible.complies_bind (Q :=
    fun parsed later => parsed = TrustedCaKeys.parse content ∧ later = [])
    ⟨rfl, rfl⟩ ?_ ?_
  · rintro keys _ - ⟨hParse, rfl⟩
    have hCleared : ∀ past, request.Cleared config past := by
      intro past
      unfold Request.Cleared
      rw [hOp]
      exact ⟨content, hContent, by rw [← hParse]; rfl⟩
    refine Fallible.complies_bind (obeys_ensureDirectories (by simp [Looked])) ?_
      (fun err _ _ h => .refused err h)
    intro _ past _ hPast
    refine Fallible.complies_bind
      (Security.obeys_ensureNotSymlink (.lstat hPast (.inr (.inl rfl)))) ?_ ?_
    · rintro _ _ - ⟨seen, rfl, hSeen⟩
      have hLooked : Looked (fs (.lstat config.trustedCaPath.path) seen :: past) :=
        hPast.cons trivial
      refine Fallible.complies_bind (obeys_readOptional hConsulted hLooked) ?_ ?_
      · rintro previous _ - ⟨found, rfl, hFound⟩
        have hRead : lastRead (Update.trustedCa config content).path
          (fs (.read config.trustedCaPath.path) found ::
            fs (.lstat config.trustedCaPath.path) seen :: past) = some found := by
          simp [lastRead, fs, Update.trustedCa]
        split
        · rename_i hSame
          exact Ending.current (hLooked.cons trivial) found previous hRead hFound hSame
        · rename_i hDiff
          refine obeys_exchange hUpdate (hLooked.cons trivial) ?_ hRead hFound
          exact .fresh seen hSeen found previous hFound hPast (hCleared _) found previous
            (by simp [Update.trustedCa]) hFound hDiff
      · rintro err _ - ⟨found, rfl⟩
        exact .refused err (hLooked.cons trivial)
    · rintro err _ - ⟨seen, rfl⟩
      exact .refused err (hPast.cons trivial)
  · rintro err _ - ⟨-, rfl⟩
    exact .refused err (by simp [Looked])

theorem obeys_ensureNotGroupOrWorldWritable {path : Path}
    (h : path = config.trustedCaPath.path ∨ path = config.dropinPath.path) (hPast : Looked past) :
    Obeys config request (Security.ensureNotGroupOrWorldWritable path).run past
      (Fallible.Either (fun _ later => Looked later) Looked) := by
  refine ⟨.lstat hPast (.inr h), fun reply => ?_⟩
  have hLooked : Looked (fs (.lstat path) reply :: past) := hPast.cons trivial
  cases reply with
  | error kind => exact hLooked
  | ok node =>
      show Obeys config request (ExceptT.run (if _ then _ else _)) _ _
      split
      · exact hLooked
      · exact hLooked

/-- The checks of the metadata come before the answer on the contents. -/
theorem obeys_checked {path : Path} {rest : Action Unit}
    (h : path = config.trustedCaPath.path ∨ path = config.dropinPath.path) (hPast : Looked past)
    (hRest : ∀ later, Looked later → Obeys config request rest.run later
      (Fallible.Either (fun _ later => Looked later) Looked)) :
    Obeys config request (ExceptT.run do
      Security.ensureNotSymlink path
      Security.ensureNotGroupOrWorldWritable path
      rest) past (Fallible.Either (fun _ later => Looked later) Looked) := by
  refine Fallible.complies_bind (Security.obeys_ensureNotSymlink (.lstat hPast (.inr h))) ?_ ?_
  · rintro _ _ - ⟨seen, rfl, -⟩
    have hLooked : Looked (fs (.lstat path) seen :: past) := hPast.cons trivial
    refine Fallible.complies_bind (obeys_ensureNotGroupOrWorldWritable h hLooked) ?_
      (fun _ _ _ hBad => hBad)
    intro _ later _ hLater
    exact hRest later hLater
  · rintro _ _ - ⟨seen, rfl⟩
    exact hPast.cons trivial

theorem obeys_checkTrustedCa (hPast : Looked past) :
    Obeys config request (checkTrustedCa config).run past
      (Fallible.Either (fun _ later => Looked later) Looked) := by
  refine Fallible.complies_bind (obeys_readOptional (by simp [OpsConfig.consulted]) hPast) ?_ ?_
  · rintro previous _ - ⟨found, rfl, -⟩
    have hLooked : Looked (fs (.read config.trustedCaPath.path) found :: past) := hPast.cons trivial
    cases previous with
    | none => exact hLooked
    | some bytes =>
        refine obeys_checked (.inl rfl) hLooked fun later hLater => ?_
        cases Text.fromUtf8 bytes with
        | none => exact hLater
        | some text =>
            dsimp only
            cases TrustedCaKeys.parse text with
            | error err => exact hLater
            | ok keys => exact hLater
  · rintro _ _ - ⟨found, rfl⟩
    exact hPast.cons trivial

theorem obeys_checkDropin (hPast : Looked past) :
    Obeys config request (checkDropin config).run past
      (Fallible.Either (fun _ later => Looked later) Looked) := by
  refine Fallible.complies_bind
    (obeys_readOptionalString (by simp [OpsConfig.consulted]) hPast) ?_ ?_
  · rintro shown _ - ⟨found, previous, rfl, -, -⟩
    have hLooked : Looked (fs (.read config.dropinPath.path) found :: past) := hPast.cons trivial
    cases shown with
    | none => exact hLooked
    | some onDisk =>
        refine obeys_checked (.inr rfl) hLooked fun later hLater => ?_
        dsimp only
        split
        · exact hLater
        · exact hLater
  · rintro _ _ - ⟨found, rfl⟩
    exact hPast.cons trivial

/-- The check of the state makes looks and controls. -/
theorem obeys_verifyState (hOp : request.op = .verifyState) :
    Obeys config request (verifyState config).run [] (fun _ _ => True) := by
  refine Fallible.complies_bind (obeys_checkTrustedCa (by simp [Looked])) ?_
    (fun _ _ _ _ => trivial)
  intro _ past _ hPast
  refine Fallible.complies_bind (obeys_checkDropin hPast) ?_ (fun _ _ _ _ => trivial)
  intro _ past _ hPast
  refine ⟨.verify hOp hPast, fun reply => ?_⟩
  cases reply with
  | error err => trivial
  | ok _ => exact ⟨.verified hOp, fun _ => trivial⟩

/-- A writing request, from its first call to its answer. -/
theorem obeys_operation (hUpdate : request.update config = some update) :
    Obeys config request (dispatch config request) [] (fun response past =>
      ∃ result, response = answer request.op result ∧ Ending update result past) := by
  rcases request.update_eq_some hUpdate with ⟨hOp, rfl⟩ | ⟨hOp, content, hContent, rfl⟩
  · simp only [dispatch, hOp]
    refine (obeys_attempt (obeys_installSshdDropin hOp)).bind ?_
    intro result later _ hEnding
    cases result with
    | ok outcome => exact ⟨_, rfl, hEnding⟩
    | error err => exact ⟨_, rfl, hEnding⟩
  · simp only [dispatch, hOp, hContent]
    refine (obeys_attempt (obeys_applyTrustedCaKeys hOp hContent)).bind ?_
    intro result later _ hEnding
    cases result with
    | ok outcome => exact ⟨_, rfl, hEnding⟩
    | error err => exact ⟨_, rfl, hEnding⟩

/-- Every operation keeps to what its request permits, call by call. -/
theorem obeys_dispatch (config : OpsConfig) (request : Request) :
    Obeys config request (dispatch config request) [] (fun _ _ => True) := by
  cases hUpdate : request.update config with
  | some update => exact (obeys_operation hUpdate).mono fun _ _ _ _ => trivial
  | none =>
      obtain ⟨hInstall, hApply⟩ := request.update_eq_none hUpdate
      unfold dispatch
      split
      · trivial
      · refine (obeys_attempt (obeys_ensureDirectories (by simp [Looked]))).bind fun _ _ _ _ => ?_
        trivial
      · rename_i hOp
        exact absurd hOp hInstall
      · rename_i hOp
        rw [hApply hOp]
        trivial
      · rename_i hOp
        refine (obeys_attempt (obeys_verifyState hOp)).bind fun _ _ _ _ => ?_
        trivial

end Ops

/-- In every world, whatever happens in it between two calls, the calls of a
request follow the rules. -/
theorem dispatch_lawful (config : OpsConfig) (request : Request) {State : Type}
    (oracle : Oracle Call Call.Reply State) (state : State) :
    Lawful (Permitted config request) ((Ops.dispatch config request).history oracle state []) :=
  ((Ops.obeys_dispatch config request).sound trivial oracle state).1

/-- What a writing request answers is what its transcript bears out. -/
theorem dispatch_ending {config : OpsConfig} {request : Request} {update : Update}
    (hUpdate : request.update config = some update) {State : Type}
    (oracle : Oracle Call Call.Reply State)
    (state : State) :
    ∃ result, ((Ops.dispatch config request).run oracle state).1 = answer request.op result ∧
      Ending update result ((Ops.dispatch config request).history oracle state []) :=
  ((Ops.obeys_operation hUpdate).sound trivial oracle state).2

/-- `sshd` rejects the new keys: they were published, the control failed, and
the old ones were written back and passed all controls. -/
theorem dispatch_ending_undone :
    (∃ result, ((Ops.dispatch OpsConfig.default (Sandbox.applyRequest Sandbox.otherKeys)).run
          Sandbox.rejecting.oracle Sandbox.keysOnDisk).1 = answer .applyTrustedCaKeys result ∧
      Ending (Update.trustedCa OpsConfig.default Sandbox.otherKeys) result
        ((Ops.dispatch OpsConfig.default (Sandbox.applyRequest Sandbox.otherKeys)).history
          Sandbox.rejecting.oracle Sandbox.keysOnDisk [])) ∧
    ((Ops.dispatch OpsConfig.default (Sandbox.applyRequest Sandbox.otherKeys)).run
      Sandbox.rejecting.oracle Sandbox.keysOnDisk).1.outcome = .rolledBack ∧
    ∃ dir tmp, (((Ops.dispatch OpsConfig.default (Sandbox.applyRequest Sandbox.otherKeys)).history
        Sandbox.rejecting.oracle Sandbox.keysOnDisk []).take 16).map Replied.call =
      (controlled ++
        published dir OpsConfig.default.trustedCaPath.path tmp (Text.asBytes Sandbox.firstKeys) ++
        (sshd .validateConfig (.error .sshdValidationFailed) ::
          published dir OpsConfig.default.trustedCaPath.path tmp
            (Text.asBytes Sandbox.otherKeys))).map Replied.call := by
  refine ⟨dispatch_ending rfl _ _, by decide +kernel, ?_⟩
  refine ⟨⟨true, ["etc".toList, "ssh".toList, "mayfly".toList], false⟩,
    ⟨[Host.firstTempName, "mayfly".toList, "ssh".toList, "etc".toList]⟩, ?_⟩
  decide +kernel

end MayflyHelper
