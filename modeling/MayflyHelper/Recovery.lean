import MayflyHelper.Atomic
import MayflyHelper.Survival
import MayflyHelper.Discipline
import MayflyHelper.Deployment

/-! Crashes in the middle of a session. That they do no harm follows from the
rules alone: what the transcript of a request tells of the disk is kept up by
every call the rules permit. -/
namespace MayflyHelper

open OracleProgram Durability Transcript

/-- The keys that a request wants applied have been parsed. -/
def Request.Parsed (request : Request) : Prop :=
  request.op = .applyTrustedCaKeys →
    ∃ content, request.content = some content ∧ (TrustedCaKeys.parse content).isOk = true

/-- What has passed the checks before a write has been parsed. -/
theorem Request.Cleared.parsed {config : OpsConfig} {request : Request} {past : Transcript}
    (h : request.Cleared config past) : request.Parsed := by
  intro hOp
  rw [Request.Cleared, hOp] at h
  exact h

/-- What a crash may leave at `loc`, if it was `base` that the requests found:
what it might have left before, a directory where there could have been
nothing, a directory with its mode, or a whole file, with contents that were
asked for or that could have been there before. -/
inductive Leaves (config : OpsConfig) (Asked : Request → Prop) (base : Store) (loc : Loc) :
    Option Node → Prop where
  | before {found : Option Node} (h : found ∈ base.ledger.survivors loc) :
      Leaves config Asked base loc found
  | made {dir path : Path} {bits : Nat} (hDir : dir ∈ config.parents) (hPath : path ∈ dir.ancestors)
      (hLoc : base.world.fs.entry path = loc) (h : Leaves config Asked base loc none) :
      Leaves config Asked base loc (some ⟨.directory, bits, rootUid⟩)
  | opened {dir : Path} {node : Node} (hDir : dir ∈ config.parents)
      (hLoc : base.world.fs.target dir = loc)
      (h : Leaves config Asked base loc (some node)) : Leaves config Asked base loc
      (some { node with mode := dirMode })
  | written {request : Request} {update : Update} (hAsked : Asked request)
      (hParsed : request.Parsed)
      (hUpdate : request.update config = some update)
      (hLoc : base.world.fs.entry update.path = loc) :
      Leaves config Asked base loc (some (newFile update.contents Security.modePublic))
  | restored {request : Request} {update : Update} {node : Node} {bytes : Bytes}
      (hAsked : Asked request)
      (hUpdate : request.update config = some update) (hLoc : base.world.fs.entry update.path = loc)
      (h : Leaves config Asked base loc (some node)) (hBytes : node.bytes = some bytes) :
      Leaves config Asked base loc (some (newFile bytes Security.modePublic))

/-- The state of a disk from which a crash leaves nothing else. -/
structure Recoverable (config : OpsConfig) (Asked : Request → Prop) (base t : Store) : Prop where
  orderly : t.Orderly
  links : Fs.SameLinks base.world.fs t.world.fs
  leaves : ∀ loc, ¬Temporary loc → ∀ found ∈ t.ledger.survivors loc,
    Leaves config Asked base loc found

/-- At the start every file is what it was. -/
theorem Store.Orderly.recoverable {s : Store} (h : s.Orderly) (config : OpsConfig)
    (Asked : Request → Prop) :
    Recoverable config Asked s s :=
  ⟨h, .refl _, fun _ _ _ hFound => .before hFound⟩

section Account

variable {config : OpsConfig} {Asked : Request → Prop} {base t : Store} {host : Host}
  {request : Request}
  {past : Transcript} {call : Call} {tmp : TempFile} {bytes : Bytes} {mode : Nat} {loc : Loc}
  {update : Update}

/-- What can be seen could have been left. -/
theorem Recoverable.seen (h : Recoverable config Asked base t) (hLoc : ¬Temporary loc)
    (hFile : t.world.fs.isDir loc = false) : Leaves config Asked base loc (t.world.fs.node loc) :=
  h.leaves loc hLoc _ (h.orderly.consistent.mem_survivors hFile)

/-- The calls so far have given the temporary file these contents and
permission bits. -/
inductive Fills (tmp : TempFile) : Transcript → Bytes → Nat → Prop where
  | created (dir : Path) (past : Transcript) :
      Fills tmp (fs (.createTemp dir) (.ok tmp) :: past) [] 0o600
  | granted {past : Transcript} {bytes : Bytes} {bits : Nat} (mode : Nat)
      (h : Fills tmp past bytes bits) :
      Fills tmp (fs (.fchmod tmp mode) (.ok ()) :: past) bytes mode
  | denied {past : Transcript} {bytes : Bytes} {bits : Nat} (mode : Nat) (kind : IoErrorKind)
      (h : Fills tmp past bytes bits) :
      Fills tmp (fs (.fchmod tmp mode) (.error kind) :: past) bytes bits
  | written {past : Transcript} {before : Bytes} {mode : Nat} (bytes : Bytes)
      (h : Fills tmp past before mode) :
      Fills tmp (fs (.write tmp bytes) (.ok ()) :: past) (before ++ bytes) mode
  | unwritten {past : Transcript} {before : Bytes} {mode : Nat} (bytes : Bytes) (kind : IoErrorKind)
      (h : Fills tmp past before mode) :
      Fills tmp (fs (.write tmp bytes) (.error kind) :: past) before mode
  | flushed {past : Transcript} {bytes : Bytes} {mode : Nat} (reply : Except IoErrorKind Unit)
      (h : Fills tmp past bytes mode) : Fills tmp (fs (.fsync tmp) reply :: past) bytes mode

/-- The calls that fill a temporary file leave it with all the bytes, readable
by everybody. -/
theorem fills_staged (dir : Path) (tmp : TempFile) (bytes : Bytes) (past : Transcript) :
    Fills tmp (staged dir tmp bytes ++ past) bytes Security.modePublic :=
  .flushed _ (.written bytes (.granted _ (.created dir past)))

/-- Only a file that was created is handled. -/
theorem fills_of_permitted (hPast : Lawful (Permitted config request) past) {fsCall : FsCall}
    (h : Permitted config request past (.fs fsCall)) (hTemp : fsCall.temp = some tmp) :
    ∃ bytes mode, Fills tmp past bytes mode := by
  have hWritten : ∀ {bytes : Bytes} {past : Transcript},
    Permitted config request past (.fs (.write tmp bytes)) →
      ∃ mode, Fills tmp past [] mode := by
    intro bytes past hWrite
    cases hWrite with
    | write => exact ⟨_, .granted _ (.created _ _)⟩
  cases h with
  | fchmod =>
      cases hTemp
      exact ⟨_, _, .created _ _⟩
  | write hUpdate hDue =>
      cases hTemp
      exact ⟨_, _, .granted _ (.created _ _)⟩
  | fsync =>
      cases hTemp
      obtain ⟨mode, hFills⟩ := hWritten hPast.1
      exact ⟨_, _, .written _ hFills⟩
  | rename =>
      cases hTemp
      exact ⟨_, _, fills_staged _ _ _ _⟩
  | dropTemp hFailed =>
      cases hTemp
      cases hFailed with
      | fchmod kind =>
          have hBefore := hPast.1
          cases hBefore with
          | fchmod => exact ⟨_, _, .denied _ _ (.created _ _)⟩
      | write bytes kind =>
          obtain ⟨mode, hFills⟩ := hWritten hPast.1
          exact ⟨_, _, .unwritten _ _ hFills⟩
      | fsync kind =>
          have hBefore := hPast.1
          cases hBefore with
          | fsync =>
              obtain ⟨mode, hFills⟩ := hWritten hPast.2.1
              exact ⟨_, _, .flushed _ (.written _ hFills)⟩
  | _ => cases hTemp

/-- The temporary file as the store has it. -/
structure Store.Staged (t : Store) (tmp : TempFile) (bytes : Bytes) (mode : Nat) : Prop where
  temporary : Temporary tmp.loc
  node : t.world.fs.node tmp.loc = some (newFile bytes mode)
  file : ∃ id, t.ledger.inode tmp.loc = some id

/-- A staged file is no link. -/
theorem Store.Staged.link (h : t.Staged tmp bytes mode) : t.world.fs.link tmp.loc = none := by
  rw [Fs.link, h.node]
  rfl

/-- What a call does to the store: nothing but its count and, if it is a
`write`, a part of it; or what it is for. -/
theorem Store.oracle_cases (host : Host) (fsCall : FsCall) (t : Store) :
    ((oracle host (.fs fsCall) t).1 = fsCall.failed ∧
      (oracle host (.fs fsCall) t).2.world.fs = t.world.fs ∧
        (oracle host (.fs fsCall) t).2.ledger = fsCall.persistFailed t.ledger) ∨
      ((oracle host (.fs fsCall) t).1 =
        (fsCall.perform host (t.world.count fsCall.kind) t.world.fs).1 ∧
        (oracle host (.fs fsCall) t).2.world.fs =
          (fsCall.perform host (t.world.count fsCall.kind) t.world.fs).2 ∧
        (oracle host (.fs fsCall) t).2.ledger =
          fsCall.persist host (t.world.count fsCall.kind) t.world.fs t.ledger) := by
  cases hFails : host.failsAt fsCall (t.world.count fsCall.kind) with
  | true =>
      rw [oracle_of_fails hFails]
      exact Or.inl ⟨rfl, rfl, rfl⟩
  | false =>
      rw [oracle_of_performs hFails]
      exact Or.inr ⟨rfl, rfl, rfl⟩

/-- A file that is there can be replaced. -/
theorem Fs.canPut_of_node {tree : Fs} {node : Node} (hNode : tree.node loc = some node)
    (hFile : node.isDir = false) :
    tree.CanPut loc := by
  have hHere : tree.isDir loc = false := by simpa [Fs.isDir, hNode] using hFile
  refine ⟨?_, ?_, hHere⟩
  · rintro rfl
    rw [Fs.isDir, tree.root] at hHere
    cases hHere
  · cases loc with
    | nil =>
        rw [Fs.isDir, tree.root] at hHere
        cases hHere
    | cons name dir => exact tree.nested name dir (by simp [hNode])

namespace Store.Staged

/-- A new temporary file is empty, private and named by nothing but itself. -/
theorem created {dir : Path} (hReply : (oracle host (.fs (.createTemp dir)) t).1 = .ok tmp) :
    (oracle host (.fs (.createTemp dir)) t).2.Staged tmp [] 0o600 := by
  rcases oracle_cases host (.createTemp dir) t with ⟨hFailed, -, -⟩ | ⟨hPerform, hFs, hLedger⟩
  · cases hReply.symm.trans hFailed
  have hOk := hPerform.symm.trans hReply
  have hTemporary := FsCall.createTemp_temporary hOk
  rcases FsCall.createTemp_cases host (t.world.count (FsCall.createTemp dir).kind) dir
    t.world.fs with
    ⟨kind, hError⟩ | ⟨created, -, hPut, hCreated⟩
  · cases (congrArg Prod.fst hError).symm.trans hOk
  cases (congrArg Prod.fst hCreated).symm.trans hOk
  refine ⟨hTemporary, ?_, ?_⟩
  · rw [hFs]
    exact (congrArg (fun out => out.2.node tmp.loc) hCreated).trans (Fs.put_node_self hPut)
  · refine ⟨t.ledger.next, ?_⟩
    rw [hLedger]
    simp only [FsCall.persist, hCreated]
    exact Function.update_self _ _ _

/-- A change of its mode leaves a staged file staged, with the new bits only if
the call succeeds. -/
theorem fchmod (h : t.Staged tmp bytes mode) (host : Host) (bits : Nat) :
    (oracle host (.fs (.fchmod tmp bits)) t).1 = .ok () ∧
        (oracle host (.fs (.fchmod tmp bits)) t).2.Staged tmp bytes bits ∨
      (∃ kind, (oracle host (.fs (.fchmod tmp bits)) t).1 = .error kind) ∧
        (oracle host (.fs (.fchmod tmp bits)) t).2.Staged tmp bytes mode := by
  rcases oracle_cases host (.fchmod tmp bits) t with
    ⟨hFailed, hFs, hLedger⟩ | ⟨hPerform, hFs, hLedger⟩
  · exact Or.inr ⟨⟨_, hFailed⟩, h.temporary, hFs ▸ h.node, hLedger ▸ h.file⟩
  · refine Or.inl ⟨hPerform, h.temporary, ?_, hLedger ▸ h.file⟩
    rw [hFs]
    simp [FsCall.perform, Fs.setMode_node, h.node, newFile]

/-- The `write` adds all the bytes, or the call fails and the file is as it
was. -/
theorem write (h : t.Staged tmp bytes mode) (host : Host) (more : Bytes) :
    (oracle host (.fs (.write tmp more)) t).1 = .ok () ∧
        (oracle host (.fs (.write tmp more)) t).2.Staged tmp (bytes ++ more) mode ∨
      (∃ kind, (oracle host (.fs (.write tmp more)) t).1 = .error kind) ∧
        (oracle host (.fs (.write tmp more)) t).2.Staged tmp bytes mode := by
  rcases oracle_cases host (.write tmp more) t with
    ⟨hFailed, hFs, hLedger⟩ | ⟨hPerform, hFs, hLedger⟩
  · exact Or.inr ⟨⟨_, hFailed⟩, h.temporary, hFs ▸ h.node, hLedger ▸ h.file⟩
  · simp only [FsCall.perform, h.node] at hPerform hFs
    refine Or.inl ⟨hPerform, h.temporary, ?_, hLedger ▸ h.file⟩
    rw [hFs]
    exact Fs.put_node_self (Fs.canPut_of_node h.node rfl)

/-- After a successful `fsync` the bytes and the mode are all that a crash can
leave. -/
theorem fsync (h : t.Staged tmp bytes mode) :
    (oracle host (.fs (.fsync tmp)) t).2.Staged tmp bytes mode ∧
      ((oracle host (.fs (.fsync tmp)) t).1 = .ok () →
        (oracle host (.fs (.fsync tmp)) t).2.ledger.left
          ((oracle host (.fs (.fsync tmp)) t).2.ledger.inode tmp.loc) =
          {some (newFile bytes mode)}) := by
  rcases oracle_cases host (.fsync tmp) t with ⟨hFailed, hFs, hLedger⟩ | ⟨hPerform, hFs, hLedger⟩
  · refine ⟨⟨h.temporary, hFs ▸ h.node, hLedger ▸ h.file⟩, fun hOk => ?_⟩
    cases hFailed.symm.trans hOk
  · simp only [FsCall.persist, h.node] at hLedger
    rw [hLedger]
    obtain ⟨id, hId⟩ := h.file
    refine ⟨⟨h.temporary, hFs ▸ h.node, ?_⟩, fun _ => Ledger.left_sync hId⟩
    rw [hLedger]
    exact ⟨id, hId⟩

end Store.Staged

/-- Looks are permitted only as long as nothing but looks was made. -/
theorem Permitted.looked (h : Permitted config request past call) (hLooks : call.Looks) :
    Looked past := by
  cases h with
  | pathExists hPast | mkdir hPast | lstat hPast | read hPast => exact hPast
  | isDir hPast | chmod hPast => exact hPast.cons trivial
  | _ => exact hLooks.elim

theorem not_looked {event : Replied Call Call.Reply} (h : ¬event.call.Looks) (hMem : event ∈ past) :
    ¬Looked past :=
  fun hLooked => h (hLooked event hMem)

/-- The first call of a writing request that is more than a look. -/
theorem Permitted.fresh (h : Permitted config request past call) (hLooked : Looked past)
    (hLooks : ¬call.Looks)
    (hUpdate : request.update config = some update) :
    ∃ dir seen kept previous earlier, call = .fs (.createTemp dir) ∧
      past = fs (.read update.path) kept :: fs (.lstat update.path) seen :: earlier ∧
      NoLink seen ∧ ReadAs kept previous := by
  cases h with
  | pathExists | mkdir | isDir | lstat | chmod | read => exact absurd trivial hLooks
  | createTemp hUpdate' hDir hDue =>
      cases hUpdate.symm.trans hUpdate'
      cases hDue with
      | fresh seen hLink kept previous hKept =>
          exact ⟨_, seen, kept, previous, _, rfl, rfl, hLink, hKept⟩
      | restore => exact absurd hLooked (not_looked id List.mem_cons_self)
  | verify hOp =>
      simp only [Request.update, hOp] at hUpdate
      cases hUpdate
  | dropTemp hFailed => cases hFailed <;> exact absurd hLooked (not_looked id List.mem_cons_self)
  | _ => exact absurd hLooked (not_looked id List.mem_cons_self)

/-- What could have been at `loc` before. -/
def Former (config : OpsConfig) (Asked : Request → Prop) (base : Store) (loc : Loc)
    (previous : Option Bytes) : Prop :=
  ∃ found, Leaves config Asked base loc found ∧ found.map Node.kind = previous.map FileKind.regular

/-- The file was read and is no link, so that a request that fails later goes
back to what could have been there before. -/
def Fallback (config : OpsConfig) (Asked : Request → Prop) (base : Store) (path : Path)
    (past : Transcript)
    (tree : Fs) : Prop :=
  ∃ found previous, lastRead path past = some found ∧ ReadAs found previous ∧ tree.NotLink path ∧
    ((tree.resolve false path).error = none → ¬Temporary (tree.entry path) →
      Former config Asked base (tree.entry path) previous)

/-- A fallback stays valid while the ways in the tree stay and nothing is read
anew. -/
theorem Fallback.next {path : Path} {later : Transcript} {tree tree' : Fs}
    (h : Fallback config Asked base path past tree) (hWays : Fs.SameWays tree tree')
    (hRead : lastRead path later = lastRead path past) :
    Fallback config Asked base path later tree' := by
  obtain ⟨found, previous, hFound, hPrevious, hLink, hFormer⟩ := h
  refine ⟨found, previous, hRead.trans hFound, hPrevious, hWays.notLink hLink, ?_⟩
  rw [Fs.entry_eq hWays.links, hWays.found_iff]
  exact hFormer

/-- What the transcript of a request tells of the store. -/
structure Account (config : OpsConfig) (Asked : Request → Prop) (base : Store) (request : Request)
    (past : Transcript) (t : Store) : Prop where
  recoverable : Recoverable config Asked base t
  fills : ∀ {tmp bytes mode}, Fills tmp past bytes mode → t.Staged tmp bytes mode
  synced : ∀ {tmp bytes mode earlier}, past = fs (.fsync tmp) (.ok ()) :: earlier →
    Fills tmp earlier bytes mode →
    t.ledger.left (t.ledger.inode tmp.loc) = {some (newFile bytes mode)}
  seen : ∀ {path seen earlier}, past = fs (.lstat path) seen :: earlier → NoLink seen →
    t.world.fs.NotLink path
  kept : ∀ {path kept previous seen earlier},
    past = fs (.read path) kept :: fs (.lstat path) seen :: earlier →
    NoLink seen → ReadAs kept previous → t.world.fs.NotLink path ∧ t.world.fs.Reads path previous
  due : ∀ {update}, request.update config = some update → ¬Looked past →
    Fallback config Asked base update.path past t.world.fs

/-- Before the first call of a request there is nothing to account for. -/
theorem Recoverable.account (h : Recoverable config Asked base t) (request : Request) :
    Account config Asked base request [] t where
  recoverable := h
  fills := fun hFills => nomatch hFills
  synced := fun hPast => nomatch hPast
  seen := fun hPast => nomatch hPast
  kept := fun hPast => nomatch hPast
  due := fun _ hLooked => absurd (by simp [Looked]) hLooked

namespace Account

/-- A permitted call works on temporary files under temporary names only. -/
theorem named (h : Account config Asked base request past t)
    (hPast : Lawful (Permitted config request) past)
    (hPermitted : Permitted config request past call) : call.Named := by
  cases call with
  | sshd call => trivial
  | fs fsCall =>
      intro tmp hTemp
      obtain ⟨bytes, mode, hFills⟩ := fills_of_permitted hPast hPermitted hTemp
      exact (h.fills hFills).temporary

/-- After the looking, no call changes the way a path leads. -/
theorem sameWays (h : Account config Asked base request past t)
    (hPast : Lawful (Permitted config request) past)
    (hPermitted : Permitted config request past call) (hLooks : ¬call.Looks) :
    Fs.SameWays t.world.fs (Store.oracle host call t).2.world.fs := by
  cases call with
  | sshd call => exact .refl _
  | fs fsCall =>
      rcases Store.oracle_cases host fsCall t with ⟨-, hFs, -⟩ | ⟨-, hFs, -⟩
      · rw [hFs]
        exact .refl _
      rw [hFs]
      have hLink : ∀ {tmp}, fsCall.temp = some tmp → t.world.fs.link tmp.loc = none := by
        intro tmp hTemp
        obtain ⟨bytes, mode, hFills⟩ := fills_of_permitted hPast hPermitted hTemp
        exact (h.fills hFills).link
      cases hPermitted with
      | pathExists | mkdir | isDir | lstat | chmod | read => exact absurd trivial hLooks
      | fsync | fsyncDir => exact .refl _
      | fchmod => exact .setMode _ _ _
      | dropTemp => exact .remove (hLink rfl)
      | createTemp =>
          rename_i dir _ _ _ _
          rcases FsCall.createTemp_cases host (t.world.count (FsCall.createTemp dir).kind) dir
            t.world.fs with
            ⟨kind, hError⟩ | ⟨created, hAbsent, -, hOk⟩
          · rw [hError]
            exact .refl _
          · rw [hOk]
            exact .put (Fs.link_eq_none_of_absent hAbsent) rfl
      | write =>
          simp only [FsCall.perform]
          split
          · exact .put (hLink rfl) rfl
          · exact .refl _
      | @rename earlier update dir tmp bytes hUpdate hDir =>
          obtain ⟨-, -, -, -, hNotLink, -⟩ := h.due hUpdate (not_looked id List.mem_cons_self)
          have hStaged := h.fills (fills_staged dir tmp bytes earlier)
          rcases FsCall.rename_cases host (t.world.count (FsCall.rename tmp update.path).kind) tmp
            update.path
            t.world.fs with ⟨kind, hError⟩ | ⟨node, hNode, ⟨-, hOk⟩ | ⟨-, -, hOk⟩⟩
          · rw [hError]
            exact .refl _
          · rw [hOk]
            exact .refl _
          · have hWay := FsCall.found_of_atEntry (congrArg Prod.fst hOk)
            cases hStaged.node.symm.trans hNode
            have hPlaced : Fs.SameWays t.world.fs
                (t.world.fs.put (t.world.fs.entry update.path)
                  (newFile bytes Security.modePublic)) :=
              .put (hNotLink hWay) rfl
            rw [hOk]
            refine hPlaced.trans (.remove ?_)
            rw [hPlaced.links.link]
            exact hStaged.link
      | @unlink earlier update _ _ hUpdate hRead =>
          obtain ⟨-, -, -, -, hNotLink, -⟩ := h.due hUpdate (not_looked id List.mem_cons_self)
          rcases FsCall.unlink_cases host (t.world.count (FsCall.unlink update.path).kind)
            update.path t.world.fs with
            ⟨kind, hError⟩ | ⟨-, hOk⟩
          · rw [hError]
            exact .refl _
          · rw [hOk]
            exact .remove (hNotLink (FsCall.found_of_atEntry (congrArg Prod.fst hOk)))

/-- No permitted call touches a symbolic link. -/
theorem sameLinks (h : Account config Asked base request past t)
    (hPast : Lawful (Permitted config request) past)
    (hPermitted : Permitted config request past call) :
    Fs.SameLinks t.world.fs (Store.oracle host call t).2.world.fs := by
  by_cases hLooks : call.Looks
  swap
  · exact (h.sameWays hPast hPermitted hLooks).links
  cases call with
  | sshd call => exact hLooks.elim
  | fs fsCall =>
      rcases Store.oracle_cases host fsCall t with ⟨-, hFs, -⟩ | ⟨-, hFs, -⟩
      · rw [hFs]
        exact .refl _
      rw [hFs]
      cases fsCall with
      | pathExists path | isDir path | lstat path | read path => exact .refl _
      | mkdir path => exact FsCall.sameLinks_mkdir host _ path t.world.fs
      | chmod path mode =>
          rcases FsCall.chmod_cases host (t.world.count (FsCall.chmod path mode).kind) path mode
            t.world.fs with
            ⟨kind, hError⟩ | hOk
          · rw [hError]
            exact .refl _
          · rw [hOk]
            exact Fs.sameLinks_setMode _ _ _
      | _ => exact hLooks.elim

/-- What a permitted call adds is nothing that could not have been left
otherwise, or it was asked for. -/
theorem adds (h : Account config Asked base request past t) (hAsked : Asked request)
    (hPast : Lawful (Permitted config request) past) {fsCall : FsCall} {found : Option Node}
    (hPermitted : Permitted config request past (.fs fsCall)) (hLoc : ¬Temporary loc)
    (hAdds : fsCall.Adds t.world.fs t.ledger loc found) : Leaves config Asked base loc found := by
  have hLinks := h.recoverable.links
  cases hAdds with
  | mkdir hEntry hAbsent =>
      cases hPermitted with
      | mkdir _ hDir hPath =>
          have hNone := h.recoverable.seen hLoc (by simp [Fs.isDir, hAbsent])
          rw [hAbsent] at hNone
          exact .made hDir hPath ((Fs.entry_eq hLinks _).symm.trans hEntry) hNone
  | chmod hTarget hNode =>
      cases hPermitted with
      | chmod _ hDir =>
          exact .opened hDir ((Fs.target_eq hLinks _).symm.trans hTarget)
            (h.recoverable.leaves loc hLoc _ hNode)
  | rename hEntry hWay hFound =>
      cases hPermitted with
      | @rename earlier update dir tmp bytes hUpdate hDir =>
          obtain ⟨was, previous, hRead, hWas, -, hFormer⟩ :=
            h.due hUpdate (not_looked id List.mem_cons_self)
          rw [h.synced rfl (.written bytes (.granted _ (.created dir earlier)))] at hFound
          cases hFound
          have hBase := (Fs.entry_eq hLinks update.path).symm.trans hEntry
          have hWrite := hPast.2.1
          cases hWrite with
          | write hUpdate' hDue =>
              cases hUpdate.symm.trans hUpdate'
              cases hDue with
              | fresh seen hLink kept previous hKept hLooked hCleared =>
                  exact .written hAsked hCleared.parsed hUpdate hBase
              | restore call err bytes hRestore =>
                  have hSame : some was = some (.ok bytes) := hRead.symm.trans hRestore
                  cases hSame
                  cases hWas
                  obtain ⟨former, hLeaves, hKind⟩ := hFormer hWay (hEntry ▸ hLoc)
                  obtain ⟨node, rfl, hNode⟩ := Option.map_eq_some_iff.mp hKind
                  exact .restored hAsked hUpdate hBase (hEntry ▸ hLeaves)
                    (Node.bytes_eq_some_iff.mpr hNode)
  | unlink hEntry hWay =>
      cases hPermitted with
      | unlink hUpdate hNone =>
          obtain ⟨was, previous, hRead, hWas, -, hFormer⟩ :=
            h.due hUpdate (not_looked id List.mem_cons_self)
          have hSame : some was = some (.error .notFound) := hRead.symm.trans hNone
          cases hSame
          cases hWas
          obtain ⟨former, hLeaves, hKind⟩ := hFormer hWay (hEntry ▸ hLoc)
          cases Option.map_eq_none_iff.mp hKind
          exact hEntry ▸ hLeaves

/-- One more permitted call leaves nothing at a name that may not be left
there. -/
theorem recoverable_next (h : Account config Asked base request past t) (hAsked : Asked request)
    (hPast : Lawful (Permitted config request) past)
    (hPermitted : Permitted config request past call) :
    Recoverable config Asked base (Store.oracle host call t).2 where
  orderly := h.recoverable.orderly.oracle (h.named hPast hPermitted)
  links := h.recoverable.links.trans (h.sameLinks hPast hPermitted)
  leaves := by
    intro loc hLoc found hFound
    rcases h.recoverable.orderly.mem_survivors (h.named hPast hPermitted) hLoc hFound with
      hOld | ⟨fsCall, rfl, hAdds⟩
    · exact h.recoverable.leaves loc hLoc found hOld
    · exact h.adds hAsked hPast hPermitted hLoc hAdds

/-- The transcript tells what is in the temporary file: one more call. -/
theorem fills_next (h : Account config Asked base request past t)
    (hFills : Fills tmp (⟨call, (Store.oracle host call t).1⟩ :: past) bytes mode) :
    (Store.oracle host call t).2.Staged tmp bytes mode := by
  generalize hReply : (Store.oracle host call t).1 = reply at hFills
  cases hFills with
  | created dir => exact .created hReply
  | granted _ hBefore =>
      rcases (h.fills hBefore).fchmod host mode with ⟨-, hStaged⟩ | ⟨⟨kind, hError⟩, -⟩
      · exact hStaged
      · cases hReply.symm.trans hError
  | denied bits kind hBefore =>
      rcases (h.fills hBefore).fchmod host bits with ⟨hOk, -⟩ | ⟨-, hStaged⟩
      · cases hReply.symm.trans hOk
      · exact hStaged
  | written more hBefore =>
      rcases (h.fills hBefore).write host more with ⟨-, hStaged⟩ | ⟨⟨kind, hError⟩, -⟩
      · exact hStaged
      · cases hReply.symm.trans hError
  | unwritten more kind hBefore =>
      rcases (h.fills hBefore).write host more with ⟨hOk, -⟩ | ⟨-, hStaged⟩
      · cases hReply.symm.trans hOk
      · exact hStaged
  | flushed _ hBefore => exact (h.fills hBefore).fsync.1

/-- What the transcript shows as synced is on disk. -/
theorem synced_next (h : Account config Asked base request past t) {earlier : Transcript}
    (hEvent : (⟨call, (Store.oracle host call t).1⟩ : Replied Call Call.Reply) :: past =
      fs (.fsync tmp) (.ok ()) :: earlier) (hFills : Fills tmp earlier bytes mode) :
    (Store.oracle host call t).2.ledger.left ((Store.oracle host call t).2.ledger.inode tmp.loc) =
      {some (newFile bytes mode)} := by
  generalize hReply : (Store.oracle host call t).1 = reply at hEvent
  cases hEvent
  exact (h.fills hFills).fsync.2 hReply

/-- A look that finds no link. -/
theorem notLink_next {path : Path} {seen : Except IoErrorKind Node} {earlier : Transcript}
    (hEvent : (⟨call, (Store.oracle host call t).1⟩ : Replied Call Call.Reply) :: past =
      fs (.lstat path) seen :: earlier) (hLink : NoLink seen) :
    (Store.oracle host call t).2.world.fs.NotLink path := by
  generalize hReply : (Store.oracle host call t).1 = reply at hEvent
  cases hEvent
  rcases Store.oracle_cases host (.lstat path) t with ⟨hFailed, -, -⟩ | ⟨hPerform, hFs, -⟩
  · cases hReply.symm.trans hFailed
    cases hLink
  · rw [hFs]
    refine Fs.notLink_of_lookup fun node hNode => ?_
    cases hReply.symm.trans (hPerform.trans hNode)
    unfold Node.link
    split
    · rename_i target hTarget
      exact absurd hTarget (hLink target)
    · rfl

/-- What is read is what is there. -/
theorem reads_next {path : Path} {kept : Except IoErrorKind Bytes} {previous : Option Bytes}
    {earlier : Transcript}
    (hEvent : (⟨call, (Store.oracle host call t).1⟩ : Replied Call Call.Reply) :: past =
      fs (.read path) kept :: earlier) (hKept : ReadAs kept previous) :
    past = earlier ∧ (Store.oracle host call t).2.world.fs = t.world.fs ∧
      t.world.fs.Reads path previous := by
  generalize hReply : (Store.oracle host call t).1 = reply at hEvent
  cases hEvent
  rcases Store.oracle_cases host (.read path) t with ⟨hFailed, -, -⟩ | ⟨hPerform, hFs, -⟩
  · cases hReply.symm.trans hFailed
    cases hKept
  · refine ⟨rfl, hFs, ?_⟩
    have hFound := hReply.symm.trans hPerform
    simp only [FsCall.perform] at hFound
    cases hLookup : t.world.fs.lookup true path with
    | error kind =>
        rw [hLookup] at hFound
        cases hFound
        cases hKept
        exact hLookup
    | ok node =>
        rw [hLookup] at hFound
        simp only [Except.bind] at hFound
        split at hFound
        · rename_i bytes hBytes
          cases hFound
          cases hKept
          exact ⟨node, hLookup, hBytes⟩
        · cases hFound
          cases hKept

/-- Only a look can be the last read of a path. -/
theorem lastRead_cons {path : Path} {event : Replied Call Call.Reply} (h : ¬event.call.Looks) :
    lastRead path (event :: past) = lastRead path past := by
  obtain ⟨call, reply⟩ := event
  cases call with
  | sshd call => rfl
  | fs fsCall =>
      cases fsCall with
      | read other => exact absurd trivial h
      | _ => rfl

/-- What may have to be put back is known until the last look. -/
theorem due_next (h : Account config Asked base request past t)
    (hPast : Lawful (Permitted config request) past)
    (hPermitted : Permitted config request past call)
    (hUpdate : request.update config = some update)
    (hMore : ¬Looked ((⟨call, (Store.oracle host call t).1⟩ : Replied Call Call.Reply) :: past)) :
    Fallback config Asked base update.path (⟨call, (Store.oracle host call t).1⟩ :: past)
      (Store.oracle host call t).2.world.fs := by
  have hLooks : ¬call.Looks := fun hLooks => hMore ((hPermitted.looked hLooks).cons hLooks)
  have hBefore : Fallback config Asked base update.path past t.world.fs := by
    by_cases hLooked : Looked past
    · obtain ⟨dir, seen, kept, previous, earlier, -, rfl, hLink, hKept⟩ :=
        hPermitted.fresh hLooked hLooks hUpdate
      obtain ⟨hNotLink, hReads⟩ := h.kept rfl hLink hKept
      refine ⟨kept, previous, by simp [lastRead, fs], hKept, hNotLink, ?_⟩
      intro hWay hLoc
      have hHolds := hReads.holds hNotLink hWay
      exact ⟨_, h.recoverable.seen hLoc hHolds.isDir, hHolds⟩
    · exact h.due hUpdate hLooked
  exact hBefore.next (h.sameWays hPast hPermitted hLooks) (lastRead_cons hLooks)

/-- A permitted call leaves an account of the store after it. -/
theorem next (h : Account config Asked base request past t) (hAsked : Asked request)
    (hPast : Lawful (Permitted config request) past)
    (hPermitted : Permitted config request past call) :
    Account config Asked base request (⟨call, (Store.oracle host call t).1⟩ :: past)
      (Store.oracle host call t).2 where
  recoverable := h.recoverable_next hAsked hPast hPermitted
  fills := h.fills_next
  synced := h.synced_next
  seen := notLink_next
  kept := by
    intro path kept previous seen earlier hEvent hLink hKept
    obtain ⟨rfl, hFs, hReads⟩ := reads_next hEvent hKept
    rw [hFs]
    exact ⟨h.seen rfl hLink, hReads⟩
  due := h.due_next hPast hPermitted

/-- In the middle of a `write` only the temporary file is torn. -/
theorem middle (h : Account config Asked base request past t)
    (hPast : Lawful (Permitted config request) past)
    (hPermitted : Permitted config request past call) {middle : Store}
    (hMiddle : middle ∈ Store.during call t) :
    Recoverable config Asked base middle := by
  obtain ⟨hOrderly, hSurvivors⟩ := h.recoverable.orderly.middle (h.named hPast hPermitted) hMiddle
  refine ⟨hOrderly, ?_, ?_⟩
  · unfold Store.during at hMiddle
    split at hMiddle
    · obtain ⟨node, part, -, -, rfl⟩ := hMiddle
      obtain ⟨bytes, mode, hFills⟩ := fills_of_permitted hPast hPermitted rfl
      exact h.recoverable.links.trans (Fs.sameLinks_put_of_link (h.fills hFills).link rfl)
    · exact hMiddle.elim
  · intro loc hLoc found hFound
    rw [hSurvivors loc hLoc] at hFound
    exact h.recoverable.leaves loc hLoc found hFound

end Account

end Account

section Session

variable {config : OpsConfig} {Asked : Request → Prop} {base s : Store} {host : Host}
  {request : Request}

/-- One request, from its first call to its answer. -/
theorem Recoverable.yields_dispatch (h : Recoverable config Asked base s) (hAsked : Asked request) :
    (Ops.dispatch config request).Yields (Store.oracle host) Store.during
      (Recoverable config Asked base) s
      fun _ => Recoverable config Asked base := by
  have hStep : ∀ past call t, Lawful (Permitted config request) past →
    Permitted config request past call →
      Account config Asked base request past t →
      (∀ middle ∈ Store.during call t, Recoverable config Asked base middle) ∧
        Account config Asked base request (⟨call, (Store.oracle host call t).1⟩ :: past)
          (Store.oracle host call t).2 := by
    intro past call t hPast hPermitted hAccount
    exact ⟨fun _ hMiddle => hAccount.middle hPast hPermitted hMiddle,
      hAccount.next hAsked hPast hPermitted⟩
  have hYields :=
    (Ops.obeys_dispatch config request).yields trivial (fun _ _ hAccount => hAccount.recoverable)
    hStep (h.account request)
  refine hYields.mono ?_
  intro _ last hLast _
  exact hLast

namespace HelperServer

variable {server : HelperServer} {codec : Codec}

/-- The requests that are let through to an operation. -/
def Admitted (server : HelperServer) (codec : Codec) (connections : List Connection)
    (request : Request) : Prop :=
  ∃ connection ∈ connections, (readRequest codec connection.inbound).1 = .ok request ∧
    server.rejection connection.peer request = none

/-- One connection: it makes calls only for a request that is admitted. -/
theorem yields_handleConnection {connection : Connection} (h : Recoverable server.ops Asked base s)
    (hAsked : ∀ request, server.Admitted codec [connection] request → Asked request) :
    (server.handleConnection codec connection).Yields (Store.oracle host) Store.during
      (Recoverable server.ops Asked base) s fun _ => Recoverable server.ops Asked base := by
  unfold handleConnection
  split
  · exact .pure h h
  dsimp only
  cases hRead : (readRequest codec connection.inbound).1 with
  | error err => exact .pure h h
  | ok request =>
      have hEvaluate :
          (server.evaluate connection.peer request).Yields (Store.oracle host) Store.during
          (Recoverable server.ops Asked base) s fun _ => Recoverable server.ops Asked base := by
        unfold evaluate
        split
        · exact .pure h h
        · rename_i hRejection
          exact h.yields_dispatch
            (hAsked request ⟨connection, List.mem_singleton_self _, hRead, hRejection⟩)
      refine hEvaluate.bind ?_
      intro _ last _ hLast
      exact .pure hLast hLast

/-- A session, connection after connection. -/
theorem yields_serveAll {connections : List Connection} (h : Recoverable server.ops Asked base s)
    (hAsked : ∀ request, server.Admitted codec connections request → Asked request) :
    (server.serveAll codec connections).Yields (Store.oracle host) Store.during
      (Recoverable server.ops Asked base) s fun _ => Recoverable server.ops Asked base := by
  induction connections generalizing s with
  | nil => exact .pure h h
  | cons connection rest ih =>
      have hFirst : ∀ request, server.Admitted codec [connection] request → Asked request := by
        rintro request ⟨_, hMem, hRest⟩
        cases List.mem_singleton.mp hMem
        exact hAsked request ⟨connection, List.mem_cons_self, hRest⟩
      have hOthers : ∀ request, server.Admitted codec rest request → Asked request := by
        rintro request ⟨other, hMem, hRest⟩
        exact hAsked request ⟨other, List.mem_cons_of_mem _ hMem, hRest⟩
      refine (yields_handleConnection h hFirst).bind ?_
      intro _ last _ hLast
      refine (ih hLast hOthers).bind ?_
      intro _ final _ hFinal
      exact .pure hFinal hFinal

end HelperServer

end Session

/-- The machine comes up again with what the crash left. The helper makes no
symbolic links, and none got lost. -/
structure Reboot (t s : Store) : Prop where
  orderly : s.Orderly
  left : ∀ loc, s.ledger.survivors loc ⊆ t.ledger.survivors loc
  links : Fs.SameLinks t.world.fs s.world.fs

/-- The disk at the start of a session, after any number of others that were
each cut short by a crash. The connections are those of all of them. -/
inductive Survived (server : HelperServer) (codec : Codec) (base : Store) :
    List Connection → Store → Prop where
  | never : Survived server codec base [] base
  | crash {earlier : List Connection} {s t s' : Store} (h : Survived server codec base earlier s)
      (host : Host)
      (connections : List Connection)
      (hMoment : t ∈ (server.serveAll codec connections).moments (Store.oracle host) Store.during s)
      (hReboot : Reboot t s') : Survived server codec base (earlier ++ connections) s'

/-- More requests may leave more. -/
theorem Leaves.mono {config : OpsConfig} {Asked Asked' : Request → Prop} {base : Store} {loc : Loc}
    {found : Option Node} (h : Leaves config Asked base loc found)
    (hWider : ∀ request, Asked request → Asked' request) : Leaves config Asked' base loc found := by
  induction h with
  | before h => exact .before h
  | made hDir hPath hLoc _ ih => exact .made hDir hPath hLoc ih
  | opened hDir hLoc _ ih => exact .opened hDir hLoc ih
  | written hAsked hParsed hUpdate hLoc => exact .written (hWider _ hAsked) hParsed hUpdate hLoc
  | restored hAsked hUpdate hLoc _ hBytes ih =>
      exact .restored (hWider _ hAsked) hUpdate hLoc ih hBytes

/-- The machine coming up leaves nothing that the crash had not left. -/
theorem Recoverable.reboot {config : OpsConfig} {Asked : Request → Prop} {base t s : Store}
    (h : Recoverable config Asked base t) (hReboot : Reboot t s) :
    Recoverable config Asked base s where
  orderly := hReboot.orderly
  links := h.links.trans hReboot.links
  leaves := fun loc hLoc found hFound => h.leaves loc hLoc found (hReboot.left loc hFound)

section Survived

variable {server : HelperServer} {codec : Codec} {base s : Store} {earlier : List Connection}

/-- A session keeps up what held before it, with its own requests added. -/
theorem Recoverable.serveAll (h : Recoverable server.ops (server.Admitted codec earlier) base s)
    (host : Host)
    (connections : List Connection) :
    (server.serveAll codec connections).Throughout (Store.oracle host) Store.during
      (Recoverable server.ops (server.Admitted codec (earlier ++ connections)) base) s := by
  have hWider : Recoverable server.ops (server.Admitted codec (earlier ++ connections)) base s := by
    refine ⟨h.orderly, h.links, fun loc hLoc found hFound =>
      (h.leaves loc hLoc found hFound).mono ?_⟩
    rintro request ⟨connection, hMem, hRest⟩
    exact ⟨connection, List.mem_append_left _ hMem, hRest⟩
  refine (HelperServer.yields_serveAll hWider ?_).1
  rintro request ⟨connection, hMem, hRest⟩
  exact ⟨connection, List.mem_append_right _ hMem, hRest⟩

/-- A disk that went through any number of crashes holds what an unbroken
session could have left. -/
theorem Survived.recoverable (h : Survived server codec base earlier s) (hOrderly : base.Orderly) :
    Recoverable server.ops (server.Admitted codec earlier) base s := by
  induction h with
  | never => exact hOrderly.recoverable _ _
  | crash _ host connections hMoment hReboot ih =>
      exact ((ih.serveAll host connections).of_mem_moments hMoment).reboot hReboot

/-- A further session keeps it up at every moment. -/
theorem Survived.throughout (h : Survived server codec base earlier s) (hOrderly : base.Orderly)
    (host : Host)
    (connections : List Connection) :
    (server.serveAll codec connections).Throughout (Store.oracle host) Store.during
      (Recoverable server.ops (server.Admitted codec (earlier ++ connections)) base) s :=
  (h.recoverable hOrderly).serveAll host connections

end Survived

/-- However often the machine goes down in the middle of a session, the disk is
left with what might have been left before, and with whole files: under every
name that is not that of a temporary file. What a managed parent leads to has
got the mode of a directory. -/
theorem session_crash {server : HelperServer} {codec : Codec} {base s : Store}
    {earlier : List Connection}
    (hOrderly : base.Orderly) (hSurvived : Survived server codec base earlier s) (host : Host)
    (connections : List Connection) {loc : Loc} (hLoc : ¬Temporary loc) :
    (server.serveAll codec connections).Throughout (Store.oracle host) Store.during
      (fun t => ∀ found ∈ t.ledger.survivors loc,
        Leaves server.ops (server.Admitted codec (earlier ++ connections)) base loc found) s :=
  (hSurvived.throughout hOrderly host connections).mono fun _ hMoment => hMoment.leaves loc hLoc

/-- A whole file: with these bytes, or with contents that were asked for. -/
def Intact (config : OpsConfig) (Asked : Request → Prop) (base : Store) (loc : Loc) (bytes : Bytes)
    (found : Option Node) : Prop :=
  ∃ node contents, found = some node ∧ node.bytes = some contents ∧
    (contents = bytes ∨ ∃ request update, Asked request ∧ request.Parsed ∧
      request.update config = some update ∧ base.world.fs.entry update.path = loc ∧
      contents = update.contents)

/-- Where a file was safely on disk, only a whole file can be left. -/
theorem Leaves.intact {config : OpsConfig} {Asked : Request → Prop} {base : Store} {loc : Loc}
    {bytes : Bytes} {found : Option Node} (h : Leaves config Asked base loc found)
    (hSafe : ∀ found ∈ base.ledger.survivors loc, Intact config Asked base loc bytes found) :
    Intact config Asked base loc bytes found := by
  induction h with
  | before h => exact hSafe _ h
  | made _ _ _ _ ih =>
      obtain ⟨node, contents, hNone, -⟩ := ih
      cases hNone
  | opened _ _ _ ih =>
      obtain ⟨node, contents, hSame, hBytes, hOrigin⟩ := ih
      cases hSame
      exact ⟨_, contents, rfl, hBytes, hOrigin⟩
  | written hAsked hParsed hUpdate hLoc =>
      exact ⟨_, _, rfl, rfl, Or.inr ⟨_, _, hAsked, hParsed, hUpdate, hLoc, rfl⟩⟩
  | restored _ _ _ _ hBytes ih =>
      obtain ⟨node, contents, hSame, hContents, hOrigin⟩ := ih
      cases hSame
      cases hBytes.symm.trans hContents
      exact ⟨_, _, rfl, rfl, hOrigin⟩

/-- A file that was safely on disk never goes missing and is never torn: at
every moment a crash leaves it with its bytes, or with the contents some
admitted request asked for, all of them. -/
theorem file_never_torn {server : HelperServer} {codec : Codec} {base s : Store}
    {earlier : List Connection}
    (hOrderly : base.Orderly) (hSurvived : Survived server codec base earlier s) (host : Host)
    (connections : List Connection) {loc : Loc} (hLoc : ¬Temporary loc) {file : Node}
    {bytes : Bytes}
    (hSafe : base.ledger.survivors loc = {some file}) (hBytes : file.bytes = some bytes) :
    (server.serveAll codec connections).Throughout (Store.oracle host) Store.during
      (fun t => ∀ found ∈ t.ledger.survivors loc,
        Intact server.ops (server.Admitted codec (earlier ++ connections)) base loc bytes found)
          s := by
  refine (hSurvived.throughout hOrderly host connections).mono fun t hMoment found hFound => ?_
  refine (hMoment.leaves loc hLoc found hFound).intact fun before hBefore => ?_
  rw [hSafe] at hBefore
  cases hBefore
  exact ⟨file, bytes, rfl, hBytes, Or.inl rfl⟩

namespace Recovery

def keysLoc : Loc := ["trusted_user_ca_keys".toList, "mayfly".toList, "ssh".toList, "etc".toList]

def keysFile : Node := ⟨.regular (Text.asBytes Sandbox.firstKeys), 0o600, rootUid⟩

/-- The directories above the keys. -/
def keysDirs : List Loc :=
  [[], ["etc".toList], ["ssh".toList, "etc".toList], ["mayfly".toList, "ssh".toList, "etc".toList]]

/-- The first keys and the directories above them, all on disk. -/
def keysStore : Store where
  world := Sandbox.keysOnDisk
  ledger := .onDisk ((keysLoc, keysFile) :: keysDirs.map fun dir => (dir, Security.rootDir))

theorem keysStore_orderly : keysStore.Orderly where
  consistent := by
    intro loc hFile
    show Sandbox.keysOnDisk.fs.node loc ∈ keysStore.ledger.left (keysStore.ledger.inode loc)
    by_cases hKeys : loc = keysLoc
    · subst hKeys
      exact ⟨keysFile, rfl, rfl⟩
    -- Whatever else is there is a directory.
    have hIsDir : ∀ dir ∈ keysDirs, keysStore.world.fs.isDir dir = true := by decide +kernel
    have hAway : loc ∉ keysDirs := by
      intro hDir
      have hBoth := hFile.symm.trans (hIsDir loc hDir)
      cases hBoth
    have hNode : Sandbox.keysOnDisk.fs.node loc = none := by
      simp only [keysDirs, List.mem_cons, List.not_mem_nil, or_false, not_or] at hAway
      obtain ⟨hRoot, hEtc, hSsh, hMayfly⟩ := hAway
      show (Fs.withTrustedCa keysFile).node loc = none
      rw [keysLoc] at hKeys
      rw [Fs.withTrustedCa, Fs.node_put_of_ne hKeys, Fs.node_put_of_ne hMayfly,
        Fs.node_put_of_ne hSsh,
        Fs.node_put_of_ne hEtc]
      exact if_neg hRoot
    have hInode : keysStore.ledger.inode loc = none := by
      refine if_neg ?_
      simpa [hKeys] using hAway
    rw [hNode, hInode]
    rfl
  separate := fun loc _ => Ledger.separate_onDisk _ loc

/-- A connection that asks for other keys. It is not for elaboration to parse. -/
@[irreducible]
def visit : Connection :=
  ⟨none, frame (Json.encodeObject
    (Request.mk protocolVersion "token".toList .applyTrustedCaKeys
      (some Sandbox.otherKeys)).members), true, true⟩

def tmp : TempFile := ⟨[Host.firstTempName, "mayfly".toList, "ssh".toList, "etc".toList]⟩

/-- The session up to the `write` of the other keys. -/
noncomputable def cutRun : HostProgram (List Handled) × Store :=
  (HelperServer.unpinned.serveAll Codec.json [visit]).advance (Store.oracle Security.steady) 11
    keysStore

/-- A `write` to a new file that has come as far as `part`. -/
def torn (t : Store) (tmp : TempFile) (bytes part : Bytes) : Store where
  world := { t.world with fs := t.world.fs.put tmp.loc (newFile part Security.modePublic) }
  ledger := t.ledger.revise tmp.loc (FsCall.cutOff bytes)

/-- Every prefix of the bytes is met in the middle of the `write`. -/
theorem torn_mem_during {t : Store} {tmp : TempFile} {bytes part : Bytes}
    (hNode : t.world.fs.node tmp.loc = some (newFile [] Security.modePublic))
    (hPart : part <+: bytes) :
    torn t tmp bytes part ∈ Store.during (.fs (.write tmp bytes)) t :=
  ⟨_, part, hNode, hPart, rfl⟩

/-- The `write` has come as far as the eighth byte. -/
noncomputable def cut : Store :=
  torn cutRun.2 tmp (Text.asBytes Sandbox.otherKeys) ((Text.asBytes Sandbox.otherKeys).take 8)

theorem cutRun_eq : (HelperServer.unpinned.serveAll Codec.json [visit]).advance
    (Store.oracle Security.steady) 11 keysStore = cutRun := by
  rw [cutRun]

/-- By then the temporary file has been made and opened to all, and is empty. -/
theorem cutRun_node : cutRun.2.world.fs.node tmp.loc = some (newFile [] Security.modePublic) := by
  decide +kernel

theorem cut_during :
    cut ∈ Store.during (.fs (.write tmp (Text.asBytes Sandbox.otherKeys))) cutRun.2 := by
  have hPart : (Text.asBytes Sandbox.otherKeys).take 8 <+: Text.asBytes Sandbox.otherKeys :=
    List.take_prefix 8 _
  exact torn_mem_during cutRun_node hPart

/-- The cut is a moment of the session. -/
theorem cut_mem_moments : cut ∈ (HelperServer.unpinned.serveAll Codec.json [visit]).moments
    (Store.oracle Security.steady) Store.during keysStore := by
  have hNext : cutRun.1.nextCall? =
    some (.fs (.write tmp (Text.asBytes Sandbox.otherKeys))) := by decide +kernel
  exact Program.mem_moments_advance cutRun_eq hNext cut_during

/-- Nothing was synced by then, so what was on disk may still be. -/
theorem cut_left (loc : Loc) : keysStore.ledger.survivors loc ⊆ cut.ledger.survivors loc := by
  have hCalls : ∀ call ∈ (HelperServer.unpinned.serveAll Codec.json [visit]).firstCalls
      (Store.oracle Security.steady) 11 keysStore, ¬call.Syncs := by decide +kernel
  have hStep : ∀ (call : Call) (t : Store), ¬call.Syncs →
      keysStore.ledger.survivors loc ⊆ t.ledger.survivors loc →
      keysStore.ledger.survivors loc ⊆
        (Store.oracle Security.steady call t).2.ledger.survivors loc :=
    fun _ t hSyncs hBefore => hBefore.trans (Store.survivors_subset_oracle hSyncs t loc)
  have hGrown := Program.advance_invariant hStep cutRun_eq hCalls (Set.Subset.refl _)
  exact hGrown.trans (Store.survivors_subset_during cut_during loc)

/-- So the machine may come up as if the session had never been. -/
theorem cut_reboot : Reboot cut keysStore where
  orderly := keysStore_orderly
  left := cut_left
  links := by
    have hNever : Survived HelperServer.unpinned Codec.json keysStore [] keysStore := .never
    have hThroughout := hNever.throughout keysStore_orderly Security.steady [visit]
    exact (hThroughout.of_mem_moments cut_mem_moments).links.symm

end Recovery

open Recovery in
/-- The first session is cut when a part of the other keys is in the temporary
file; the machine comes up with the first keys, and is asked again. -/
theorem session_crash_cut :
    cut.world.fs.node tmp.loc = some (newFile ((Text.asBytes Sandbox.otherKeys).take 8) 0o644) ∧
    (HelperServer.unpinned.serveAll Codec.json [visit]).Throughout
      (Store.oracle Security.steady) Store.during
      (fun t => ∀ found ∈ t.ledger.survivors keysLoc,
        Leaves HelperServer.unpinned.ops
          (HelperServer.unpinned.Admitted Codec.json (([] ++ [visit]) ++ [visit])) keysStore keysLoc
            found)
      keysStore := by
  refine ⟨by decide +kernel, session_crash keysStore_orderly
    (.crash .never Security.steady [visit] cut_mem_moments cut_reboot) Security.steady [visit] ?_⟩
  rintro ⟨name, hName, hPrefix⟩
  cases hName
  revert hPrefix
  decide

end MayflyHelper
