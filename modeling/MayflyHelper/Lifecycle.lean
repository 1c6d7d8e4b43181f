import MayflyHelper.Daemon
import MayflyHelper.Discipline
import MayflyHelper.Semantics.Automaton

/-! The life of the process, as an automaton over its calls. Whatever the
replies, the process follows it; so what the automaton never does, the process
never does, in any world. -/
namespace MayflyHelper

open OracleProgram Clock

/-- How far the process has come. From the loading of the token on, the phases
carry it. Where the socket's directory is made they carry the components of the
directory that is tried, innermost first, and the names below it that wait for
it: the first try, the second one, and the look whether it is one already. -/
inductive Stage where
  | launched
  | asRoot
  | unlinked
  | owned
  | restricted
  | armed (token : Text)
  | terminable (token : Text)
  | ready (token : Text)
  | reaching (token : Text) (left below : List Name)
  | making (token : Text) (left below : List Name)
  | doubted (token : Text) (left below : List Name)
  | placed (token : Text)
  | stale (token : Text)
  | vacant (token : Text)
  | bound (token : Text)
  | grouped (token : Text)
  | guarded (token : Text)
  | polling (token : Text)
  | willing (token : Text)
  | resting (token : Text)
  | handling (token : Text) (connection : Connection) (transcript : Transcript)
  | stopping (token : Text)
  | ended

namespace Startup

/-- The directory of the socket, if it has one to be created. -/
def socketParent (environment : Environment) : Option Path :=
  (socketPath environment).path.parent.filter (fun parent => !parent.isEmpty)

end Startup

open Startup

namespace Stage

/-- The directory is there, and the next one below it is made. -/
def made (token : Text) (left : List Name) : List Name → Stage
  | [] => .placed token
  | name :: below => .making token (name :: left) below

/-- The directory is tried. The empty path stands for one that is there. -/
def reach (absolute : Bool) (token : Text) : List Name → List Name → Stage
  | [], below => if absolute then .reaching token [] below else made token [] below
  | name :: above, below => .reaching token (name :: above) below

end Stage

variable (environment : Environment) (codec : Codec)

/-- A directory on the way to the socket, with its components. -/
inductive OnTheWay : List Name → Path → Prop where
  | above {parent : Path} {left : List Name} (h : socketParent environment = some parent)
      (hLeft : left <:+ parent.components.reverse) :
      OnTheWay left ⟨parent.absolute, left.reverse, false⟩

/-- The socket is next. -/
inductive Sited : Text → Stage → Prop where
  | ready (token : Text) (h : socketParent environment = none) : Sited token (.ready token)
  | placed (token : Text) : Sited token (.placed token)

/-- The socket has its group, where it is to have one. -/
inductive Owned : Text → Stage → Prop where
  | bound (token : Text) (h : socketGid environment = none) : Owned token (.bound token)
  | grouped (token : Text) : Owned token (.grouped token)

/-- Nothing is left to do before the stop flag is looked at. -/
inductive Idle : Text → Stage → Prop where
  | polling (token : Text) : Idle token (.polling token)
  | handling (token : Text) (connection : Connection) (transcript : Transcript) :
      Idle token (.handling token connection transcript)

/-- The moves of a process that gets on. -/
inductive Expects : Stage → Replied ServiceCall ServiceCall.Reply → Stage → Prop where
  | root : Expects .launched ⟨.geteuid, (0 : UInt32)⟩ .asRoot
  | unlinked {seen : Except IoErrorKind Node} (h : NoLink seen) :
      Expects .asRoot ⟨.host (.fs (.lstat (tokenPath environment).path)), seen⟩ .unlinked
  | owned {node : Node} (h : node.uid = rootUid) :
      Expects .unlinked ⟨.host (.fs (.lstat (tokenPath environment).path)), .ok node⟩ .owned
  | restricted {node : Node} (h : node.mode &&& 0o137 = 0) :
      Expects .owned ⟨.host (.fs (.lstat (tokenPath environment).path)), .ok node⟩ .restricted
  | armed {bytes : Bytes} {text : Text} (hText : Text.fromUtf8 bytes = some text)
      (hLong : minTokenLen ≤ (Text.asBytes (Text.trim text)).length) :
      Expects .restricted ⟨.host (.fs (.read (tokenPath environment).path)), .ok bytes⟩
        (.armed (Text.trim text))
  | terminable {token : Text} : Expects (.armed token) ⟨.register .sigterm, .ok ()⟩
      (.terminable token)
  | ready {token : Text} : Expects (.terminable token) ⟨.register .sigint, .ok ()⟩ (.ready token)
  | placed {token : Text} {parent : Path} (h : socketParent environment = some parent) :
      Expects (.ready token) ⟨.host (.fs (.pathExists parent)), true⟩ (.placed token)
  | missing {token : Text} {parent : Path} (h : socketParent environment = some parent) :
      Expects (.ready token) ⟨.host (.fs (.pathExists parent)), false⟩
        (.reach parent.absolute token parent.components.reverse [])
  | reached {token : Text} {left below : List Name} {path : Path}
      (h : OnTheWay environment left path) :
      Expects (.reaching token left below) ⟨.host (.fs (.mkdir path)), .ok ()⟩
        (.made token left below)
  | climbed {token : Text} {name : Name} {above below : List Name} {path : Path}
      (h : OnTheWay environment (name :: above) path) :
      Expects (.reaching token (name :: above) below) ⟨.host (.fs (.mkdir path)), .error .notFound⟩
        (.reach path.absolute token above (name :: below))
  | occupied {token : Text} {left below : List Name} {path : Path}
      (h : OnTheWay environment left path) :
      Expects (.reaching token left below) ⟨.host (.fs (.mkdir path)), .error .other⟩
        (.doubted token left below)
  | made {token : Text} {left below : List Name} {path : Path}
      (h : OnTheWay environment left path) :
      Expects (.making token left below) ⟨.host (.fs (.mkdir path)), .ok ()⟩
        (.made token left below)
  | refused {token : Text} {left below : List Name} {path : Path} {kind : IoErrorKind}
      (h : OnTheWay environment left path) :
      Expects (.making token left below) ⟨.host (.fs (.mkdir path)), .error kind⟩
        (.doubted token left below)
  | confirmed {token : Text} {left below : List Name} {path : Path}
      (h : OnTheWay environment left path) :
      Expects (.doubted token left below) ⟨.host (.fs (.isDir path)), true⟩ (.made token left below)
  | stale {token : Text} {phase : Stage} (h : Sited environment token phase) :
      Expects phase ⟨.isSocket (socketPath environment).path, .ok true⟩ (.stale token)
  | vacant {token : Text} {phase : Stage} (h : Sited environment token phase) :
      Expects phase ⟨.isSocket (socketPath environment).path, .error .notFound⟩ (.vacant token)
  | cleared {token : Text} :
      Expects (.stale token) ⟨.removeFile (socketPath environment).path, .ok ()⟩ (.vacant token)
  | bound {token : Text} :
      Expects (.vacant token) ⟨.bind (socketPath environment).path, .ok ()⟩ (.bound token)
  | grouped {token : Text} {gid : UInt32} (h : socketGid environment = some gid) :
      Expects (.bound token) ⟨.chown (socketPath environment).path gid, .ok ()⟩ (.grouped token)
  | guarded {token : Text} {phase : Stage} (h : Owned environment token phase) :
      Expects phase ⟨.setMode (socketPath environment).path socketMode, .ok ()⟩ (.guarded token)
  | polling {token : Text} : Expects (.guarded token) ⟨.setNonblocking, .ok ()⟩ (.polling token)
  | willing {token : Text} {phase : Stage} (h : Idle token phase) :
      Expects phase ⟨.stopRequested, false⟩ (.willing token)
  | stopping {token : Text} {phase : Stage} (h : Idle token phase) :
      Expects phase ⟨.stopRequested, true⟩ (.stopping token)
  | accepted {token : Text} {connection : Connection} :
      Expects (.willing token) ⟨.accept, .ok connection⟩ (.handling token connection [])
  | lonely {token : Text} {err : AcceptError} : Expects (.willing token) ⟨.accept, .error err⟩
      (.resting token)
  | rested {token : Text} : Expects (.resting token) ⟨.sleep acceptPoll, ()⟩ (.polling token)
  | acts {token : Text} {connection : Connection} {transcript : Transcript} {request : Request}
      {call : Call}
      {reply : call.Reply} (hRequest : connection.request codec = some request)
      (hAuth : (daemon environment token).Authenticates connection.peer request)
      (hPermitted : Permitted (daemon environment token).ops request transcript call) :
      Expects (.handling token connection transcript) ⟨.host call, reply⟩
        (.handling token connection (⟨call, reply⟩ :: transcript))
  | closed {token : Text} {reply : Except IoErrorKind Unit} :
      Expects (.stopping token) ⟨.removeFile (socketPath environment).path, reply⟩ .ended

/-- A reply that was not hoped for ends the process. Which are hoped for depends
on the phase: a failed `mkdir` may be, and so is a failed `accept`. -/
inductive Moves : Stage → Replied ServiceCall ServiceCall.Reply → Stage → Prop where
  | goes {phase after : Stage} {event : Replied ServiceCall ServiceCall.Reply}
      (h : Expects environment codec phase event after) : Moves phase event after
  | fails {phase after : Stage} {call : ServiceCall} {reply hoped : call.Reply}
      (h : Expects environment codec phase ⟨call, hoped⟩ after)
      (hNot : ∀ after, ¬Expects environment codec phase ⟨call, reply⟩ after) :
      Moves phase ⟨call, reply⟩ .ended

variable {environment codec}

/-- The calls of an operation, read by the automaton of the process. -/
abbrev hostMoves (environment : Environment) (codec : Codec) (phase : Stage)
    (event : Replied Call Call.Reply)
    (after : Stage) : Prop := Moves environment codec phase ⟨.host event.call, event.reply⟩ after

theorem follows_onHost {Result : Type} {p : HostProgram Result} {phase : Stage}
    {Q : Result → Stage → Prop}
    (h : p.Follows (hostMoves environment codec) phase Q) :
    (Daemon.onHost p).Follows (Moves environment codec) phase Q := by
  induction p generalizing phase with
  | done result => exact h
  | query c next ih =>
      intro reply
      obtain ⟨after, hMove, hNext⟩ := h reply
      exact ⟨after, hMove, ih reply hNext⟩

/-- The first look is at the user. -/
theorem follows_validateRoot :
    Program.Follows (Moves environment codec) validateRoot.run .launched
      (Fallible.Either (fun _ phase => phase = .asRoot) (fun _ => True)) := by
  intro euid
  by_cases hRoot : euid = 0
  · subst hRoot
    exact ⟨.asRoot, .goes .root, rfl⟩
  · refine ⟨.ended, .fails .root ?_, ?_⟩
    · intro after h
      cases h
      exact hRoot rfl
    · show Program.Follows _ (ExceptT.run (if euid = 0 then _ else _)) _ _
      rw [if_neg hRoot]
      trivial

/-- The token may not be a link, -/
theorem follows_ensureNotSymlink :
    Program.Follows (hostMoves environment codec)
      (Security.ensureNotSymlink (tokenPath environment).path).run .asRoot
      (Fallible.Either (fun _ phase => phase = .unlinked) (fun _ => True)) := by
  have hEnds : ∀ {seen : Except IoErrorKind Node}, ¬NoLink seen →
      Moves environment codec .asRoot ⟨.host (.fs (.lstat (tokenPath environment).path)),
        seen⟩ .ended := by
    intro seen hLink
    refine .fails (.unlinked (show NoLink (.error .notFound) from rfl)) ?_
    intro after h
    cases h with
    | unlinked hNoLink => exact hLink hNoLink
  intro seen
  rcases seen with (_ | _) | ⟨kind, mode, uid⟩
  · exact ⟨.unlinked, .goes (.unlinked rfl), rfl⟩
  · exact ⟨.ended, hEnds (fun h => by cases h), trivial⟩
  · cases kind with
    | symlink target => exact ⟨.ended, hEnds (fun h => h target rfl), trivial⟩
    | directory => exact ⟨.unlinked, .goes (.unlinked fun target h => by cases h), rfl⟩
    | regular bytes => exact ⟨.unlinked, .goes (.unlinked fun target h => by cases h), rfl⟩
    | special => exact ⟨.unlinked, .goes (.unlinked fun target h => by cases h), rfl⟩

/-- A check of the metadata gets on just where it finds nothing to refuse. -/
theorem follows_inspect {phase after : Stage} {path : Path} {refuse : Node → Prop}
    [DecidablePred refuse]
    {err : Error} (sound : Node) (hSound : ¬refuse sound)
    (hGood : ∀ node, ¬refuse node →
      Expects environment codec phase ⟨.host (.fs (.lstat path)), .ok node⟩ after)
    (hOnly : ∀ seen later, Expects environment codec phase ⟨.host (.fs (.lstat path)), seen⟩ later →
      ∃ node, seen = .ok node ∧ ¬refuse node) :
    Program.Follows (hostMoves environment codec) (ExceptT.run (do
        let node ← FsCall.io (fsCall (.lstat path))
        if refuse node then throw err
        pure () : Action Unit)) phase
          (Fallible.Either (fun _ phase => phase = after) (fun _ => True)) := by
  intro seen
  cases seen with
  | error kind =>
      refine ⟨.ended, .fails (hGood sound hSound) ?_, trivial⟩
      intro later h
      obtain ⟨node, hNode, -⟩ := hOnly _ _ h
      cases hNode
  | ok node =>
      by_cases hRefuse : refuse node
      · refine ⟨.ended, .fails (hGood sound hSound) ?_, ?_⟩
        · intro later h
          obtain ⟨other, hOther, hNot⟩ := hOnly _ _ h
          cases hOther
          exact hNot hRefuse
        · show Program.Follows _ (ExceptT.run (if refuse node then _ else _)) _ _
          rw [if_pos hRefuse]
          trivial
      · refine ⟨after, .goes (hGood node hRefuse), ?_⟩
        show Program.Follows _ (ExceptT.run (if refuse node then _ else _)) _ _
        rw [if_neg hRefuse]
        rfl

/-- it has to be root's, -/
theorem follows_ensureOwnedByRoot :
    Program.Follows (hostMoves environment codec)
      (Security.ensureOwnedByRoot (tokenPath environment).path).run .unlinked
      (Fallible.Either (fun _ phase => phase = .owned) (fun _ => True)) := by
  refine follows_inspect ⟨.special, 0, rootUid⟩ (fun h => h rfl) ?_ ?_
  · intro node hUid
    exact .owned (not_not.mp hUid)
  · intro seen later h
    cases h with
    | owned hUid => exact ⟨_, rfl, not_not.mpr hUid⟩

/-- it may not be open to others, -/
theorem follows_validateModeAtMost :
    Program.Follows (hostMoves environment codec)
      (Security.validateModeAtMost (tokenPath environment).path 0o640).run .owned
      (Fallible.Either (fun _ phase => phase = .restricted) (fun _ => True)) := by
  refine follows_inspect ⟨.special, 0, rootUid⟩ (fun h => h rfl) ?_ ?_
  · intro node hMode
    exact .restricted ((mode_at_most_iff _).mp (not_not.mp hMode))
  · intro seen later h
    cases h with
    | restricted hMode => exact ⟨_, rfl, not_not.mpr ((mode_at_most_iff _).mpr hMode)⟩

/-- and its text has to be long enough. -/
theorem follows_readToString :
    Program.Follows (hostMoves environment codec)
      (readToString (tokenPath environment).path).run .restricted
      (Fallible.Either (fun text phase =>
        if (Text.asBytes (Text.trim text)).length < minTokenLen then True
        else phase = .armed (Text.trim text)) (fun _ => True)) := by
  have hHoped :
      Expects environment codec .restricted ⟨.host (.fs (.read (tokenPath environment).path)),
      (.ok (Text.asBytes (List.replicate 32 'x')) : Except IoErrorKind Bytes)⟩
      (.armed (Text.trim (List.replicate 32 'x'))) := .armed (Text.fromUtf8_asBytes _) (by decide)
  have hRead : Program.Follows (hostMoves environment codec)
      (FsCall.io (fsCall (.read (tokenPath environment).path))).run .restricted
      (Fallible.Either (fun bytes phase => ∀ text, Text.fromUtf8 bytes = some text →
        if (Text.asBytes (Text.trim text)).length < minTokenLen then True
        else phase = .armed (Text.trim text))
        (fun _ => True)) := by
    intro reply
    cases reply with
    | error kind => exact ⟨.ended, .fails hHoped (fun after h => by cases h), trivial⟩
    | ok bytes =>
        by_cases hGood : ∃ text, Text.fromUtf8 bytes = some text ∧
            minTokenLen ≤ (Text.asBytes (Text.trim text)).length
        · obtain ⟨text, hText, hLong⟩ := hGood
          refine ⟨.armed (Text.trim text), .goes (.armed hText hLong), ?_⟩
          intro found hFound
          rw [hText] at hFound
          cases hFound
          rw [if_neg (Nat.not_lt.mpr hLong)]
        · refine ⟨.ended, .fails hHoped ?_, ?_⟩
          · intro after h
            cases h with
            | armed hText hLong => exact hGood ⟨_, hText, hLong⟩
          · intro text hText
            rw [if_pos (Nat.lt_of_not_le fun hLong => hGood ⟨text, hText, hLong⟩)]
            trivial
  refine Fallible.follows_bind hRead ?_ (fun _ _ _ => trivial)
  intro bytes phase hPhase
  split
  · rename_i text hText
    exact hPhase text hText
  · trivial

/-- The token is what the file holds, and no short one. -/
theorem follows_readToken :
    Program.Follows (hostMoves environment codec) (ExceptT.run (do
        let text ← readToString (tokenPath environment).path
        let token := Text.trim text
        if token.isEmpty then throw .helperUnauthenticated
        if (Text.asBytes token).length < minTokenLen then throw .helperUnauthenticated
        pure token : Action Text)) .restricted
      (Fallible.Either (fun token phase => phase = .armed token) (fun _ => True)) := by
  refine Fallible.follows_bind follows_readToString ?_ (fun _ _ _ => trivial)
  intro text phase hPhase
  dsimp only [Fallible.Either] at hPhase ⊢
  by_cases hShort : (Text.asBytes (Text.trim text)).length < minTokenLen
  · rw [if_pos hShort]
    split <;> trivial
  · have hFilled : ¬(Text.trim text).isEmpty = true := by
      intro hEmpty
      rw [List.isEmpty_iff.mp hEmpty] at hShort
      exact hShort (by decide)
    rw [if_neg hShort] at hPhase
    rw [if_neg hFilled, if_neg hShort]
    exact hPhase

/-- These are the checks of the token, in this order. -/
theorem follows_loadToken :
    Program.Follows (hostMoves environment codec) (loadToken environment).run .asRoot
      (Fallible.Either (fun token phase => phase = .armed token) (fun _ => True)) := by
  refine Fallible.follows_bind follows_ensureNotSymlink ?_ (fun _ _ _ => trivial)
  rintro _ _ rfl
  refine Fallible.follows_bind follows_ensureOwnedByRoot ?_ (fun _ _ _ => trivial)
  rintro _ _ rfl
  refine Fallible.follows_bind follows_validateModeAtMost ?_ (fun _ _ _ => trivial)
  rintro _ _ rfl
  exact follows_readToken

/-- Then the two handlers. -/
theorem follows_installSignalHandlers {token : Text} :
    Program.Follows (Moves environment codec) installSignalHandlers.run (.armed token)
      (Fallible.Either (fun _ phase => phase = .ready token) (fun _ => True)) := by
  intro reply
  cases reply with
  | error kind => exact ⟨.ended, .fails .terminable (fun after h => by cases h), trivial⟩
  | ok _ =>
      refine ⟨.terminable token, .goes .terminable, fun reply => ?_⟩
      cases reply with
      | error kind => exact ⟨.ended, .fails .ready (fun after h => by cases h), trivial⟩
      | ok _ => exact ⟨.ready token, .goes .ready, rfl⟩

/-- A directory that could not be made may be there all the same. -/
theorem follows_orIsDir {token : Text} {left below : List Name} {path : Path} {kind : IoErrorKind}
    (h : OnTheWay environment left path) :
    (Ops.orIsDir path kind).Follows (hostMoves environment codec) (.doubted token left below)
      (fun result phase => result = .ok () → phase = .made token left below) := by
  intro present
  cases present with
  | true => exact ⟨_, .goes (.confirmed h), fun _ => rfl⟩
  | false =>
      exact ⟨.ended, .fails (.confirmed h) (fun after h => by cases h), fun hOk => by cases hOk⟩

/-- The directories are made outwards in, and an error that is left in the end
ends the process. -/
theorem follows_createDirAllFrom {token : Text} {parent : Path}
    (hParent : socketParent environment = some parent)
    (components : List Name) (below : List Name)
    (hTail : components <:+ parent.components.reverse) :
    (Ops.createDirAllFrom parent.absolute components).Follows (hostMoves environment codec)
      (.reach parent.absolute token components below)
      (fun result phase => result = .ok () → phase = .made token components below) := by
  induction components generalizing below with
  | nil =>
      have hWay : OnTheWay environment [] ⟨parent.absolute, [], false⟩ := .above hParent hTail
      obtain ⟨absolute, names, trailing⟩ := parent
      cases absolute with
      | false => exact fun _ => rfl
      | true =>
          intro reply
          rcases reply with (_ | _) | _
          · refine ⟨.ended, .fails (.reached hWay) (fun after h => by cases h),
              fun hOk => by cases hOk⟩
          · exact ⟨_, .goes (.occupied hWay), follows_orIsDir hWay⟩
          · exact ⟨_, .goes (.reached hWay), fun _ => rfl⟩
  | cons name above ih =>
      have hWay :
          OnTheWay environment (name :: above) ⟨parent.absolute, (name :: above).reverse, false⟩ :=
        .above hParent hTail
      intro reply
      rcases reply with (_ | _) | _
      · refine ⟨_, .goes (.climbed hWay),
          (ih (name :: below) ((List.suffix_cons name above).trans hTail)).bind ?_⟩
        rintro made phase hMade
        cases made with
        | error kind => exact fun hOk => by cases hOk
        | ok _ =>
            rw [hMade rfl]
            intro reply
            cases reply with
            | error kind => exact ⟨_, .goes (.refused hWay), follows_orIsDir hWay⟩
            | ok _ => exact ⟨_, .goes (.made hWay), fun _ => rfl⟩
      · exact ⟨_, .goes (.occupied hWay), follows_orIsDir hWay⟩
      · exact ⟨_, .goes (.reached hWay), fun _ => rfl⟩

/-- Then the parent of the socket, made or found. -/
theorem follows_ensureSocketParent {token : Text} :
    Program.Follows (Moves environment codec) (daemon environment token).ensureSocketParent.run
      (.ready token)
      (Fallible.Either (fun _ phase => Sited environment token phase) (fun _ => True)) := by
  unfold Daemon.ensureSocketParent
  split
  · rename_i parent hFound
    have hParent : socketParent environment = some parent := hFound
    intro present
    cases present with
    | true => exact ⟨_, .goes (.placed hParent), .placed token⟩
    | false =>
        refine ⟨_, .goes (.missing hParent), ?_⟩
        have hAll : (Ops.createDirAll parent).Follows (hostMoves environment codec)
            (.reach parent.absolute token parent.components.reverse [])
            (fun result phase => result = .ok () → phase = .placed token) :=
          follows_createDirAllFrom hParent _ [] (List.suffix_refl _)
        refine (follows_onHost hAll).bind ?_
        rintro made phase hMade
        cases made with
        | ok _ =>
            rw [hMade rfl]
            exact .placed token
        | error kind => trivial
  · rename_i hNone
    exact .ready token hNone

/-- Nothing but a socket is removed. -/
theorem follows_removeStale {token : Text} {phase : Stage}
    (hSited : Sited environment token phase) :
    Program.Follows (Moves environment codec) (daemon environment token).removeStale.run phase
      (Fallible.Either (fun _ phase => phase = .vacant token) (fun _ => True)) := by
  intro reply
  rcases reply with (_ | _) | (_ | _)
  · exact ⟨_, .goes (.vacant hSited), rfl⟩
  · exact ⟨.ended, .fails (.vacant hSited) (fun after h => by cases h), trivial⟩
  · exact ⟨.ended, .fails (.vacant hSited) (fun after h => by cases h), trivial⟩
  · refine ⟨_, .goes (.stale hSited), fun reply => ?_⟩
    cases reply with
    | error kind => exact ⟨.ended, .fails .cleared (fun after h => by cases h), trivial⟩
    | ok _ => exact ⟨_, .goes .cleared, rfl⟩

/-- The group, where one is configured. -/
theorem follows_setSocketGroup {token : Text} :
    Program.Follows (Moves environment codec) (daemon environment token).setSocketGroup.run
      (.bound token)
      (Fallible.Either (fun _ phase => Owned environment token phase) (fun _ => True)) := by
  unfold Daemon.setSocketGroup
  split
  · rename_i gid hFound
    have hGid : socketGid environment = some gid := hFound
    intro reply
    cases reply with
    | error kind => exact ⟨.ended, .fails (.grouped hGid) (fun after h => by cases h), trivial⟩
    | ok _ => exact ⟨_, .goes (.grouped hGid), .grouped token⟩
  · rename_i hNone
    exact .bound token hNone

/-- The socket is there, closed to others, before the first connection. -/
theorem follows_daemon_bind {token : Text} :
    Program.Follows (Moves environment codec) (daemon environment token).bind.run (.ready token)
      (Fallible.Either (fun _ phase => phase = .guarded token) (fun _ => True)) := by
  refine Fallible.follows_bind follows_ensureSocketParent ?_ (fun _ _ _ => trivial)
  intro _ phase hSited
  refine Fallible.follows_bind (follows_removeStale hSited) ?_ (fun _ _ _ => trivial)
  rintro _ _ rfl
  intro reply
  cases reply with
  | error kind => exact ⟨.ended, .fails .bound (fun after h => by cases h), trivial⟩
  | ok _ =>
      refine ⟨_, .goes .bound,
        Fallible.follows_bind follows_setSocketGroup ?_ (fun _ _ _ => trivial)⟩
      intro _ phase hOwned reply
      cases reply with
      | error kind => exact ⟨.ended, .fails (.guarded hOwned) (fun after h => by cases h), trivial⟩
      | ok _ => exact ⟨_, .goes (.guarded hOwned), rfl⟩

/-- An operation that keeps to the rules of its request. -/
theorem follows_obeys {Result : Type} {p : HostProgram Result} {token : Text}
    {connection : Connection}
    {request : Request} {transcript : Transcript} {Q : Result → Transcript → Prop}
    (hRequest : connection.request codec = some request)
    (hAuth : (daemon environment token).Authenticates connection.peer request)
    (h : Obeys (daemon environment token).ops request p transcript Q) :
    p.Follows (hostMoves environment codec) (.handling token connection transcript)
      (fun _ phase => Idle token phase) := by
  induction p generalizing transcript with
  | done result => exact .handling token connection transcript
  | query c next ih =>
      intro reply
      exact ⟨_, .goes (.acts hRequest hAuth h.1), ih reply (h.2 reply)⟩

/-- Only a request that is authenticated acts. -/
theorem follows_handleConnection {token : Text} {connection : Connection} :
    ((daemon environment token).handleConnection codec connection).Follows
      (hostMoves environment codec)
      (.handling token connection []) (fun _ phase => Idle token phase) := by
  unfold HelperServer.handleConnection
  split
  · exact .handling token connection []
  · rename_i hSet
    dsimp only
    cases hRead : (HelperServer.readRequest codec connection.inbound).1 with
    | error err => exact Idle.handling token connection []
    | ok request =>
        have hRequest : connection.request codec = some request := by
          have hTimeouts : connection.timeoutsSet = true := by simpa using hSet
          rw [Connection.request, hTimeouts, if_pos rfl, hRead]
          rfl
        refine Program.Follows.bind (Q :=
          fun _ phase => Idle token phase) ?_ (fun _ _ hIdle => hIdle)
        by_cases hAuth : (daemon environment token).Authenticates connection.peer request
        · rw [HelperServer.evaluate_of_authenticates hAuth]
          exact follows_obeys hRequest hAuth (Ops.obeys_dispatch _ request)
        · obtain ⟨detail, hEvaluate⟩ := HelperServer.evaluate_of_not_authenticates hAuth
          rw [hEvaluate]
          exact Idle.handling token connection []

/-- One connection after the other, with a rest after a failed accept. -/
theorem follows_acceptLoop {token : Text} (fuel : Nat) {phase : Stage} (hIdle : Idle token phase) :
    ((daemon environment token).acceptLoop codec fuel).Follows (Moves environment codec) phase
      (fun served phase => served.stopped = true → phase = .stopping token) := by
  induction fuel generalizing phase with
  | zero => exact fun h => by cases h
  | succ fuel ih =>
      intro stop
      cases stop with
      | true => exact ⟨_, .goes (.stopping hIdle), fun _ => rfl⟩
      | false =>
          refine ⟨_, .goes (.willing hIdle), fun arrival => ?_⟩
          cases arrival with
          | error err => exact ⟨_, .goes .lonely, fun _ => ⟨_, .goes .rested, ih (.polling token)⟩⟩
          | ok connection =>
              refine ⟨_, .goes .accepted, (follows_onHost follows_handleConnection).bind ?_⟩
              intro handled phase hIdle
              refine (ih hIdle).bind ?_
              intro rest phase hStopped
              exact hStopped

/-- The daemon from the bind to its end. -/
theorem follows_daemon_run {token : Text} (fuel : Nat) :
    Program.Follows (Moves environment codec) ((daemon environment token).run codec fuel).run
      (.ready token)
      (fun _ _ => True) := by
  have hNonblocking : Program.Follows (Moves environment codec)
      (Daemon.io (Daemon.call .setNonblocking)).run (.guarded token)
      (Fallible.Either (fun _ phase => phase = .polling token) (fun _ => True)) := by
    intro reply
    cases reply with
    | error kind => exact ⟨.ended, .fails .polling (fun after h => by cases h), trivial⟩
    | ok _ => exact ⟨_, .goes .polling, rfl⟩
  refine Fallible.follows_bind follows_daemon_bind ?_ (fun _ _ _ => trivial)
  rintro _ _ rfl
  refine Fallible.follows_bind hNonblocking ?_ (fun _ _ _ => trivial)
  rintro _ _ rfl
  refine Fallible.follows_bind (Fallible.follows_lift (follows_acceptLoop fuel (.polling token))) ?_
    (fun _ _ hFalse => hFalse.elim)
  intro served phase hStopped
  dsimp only [Fallible.Either] at hStopped
  split
  · rename_i hStop
    rw [hStopped hStop]
    exact fun reply => ⟨_, .goes .closed, trivial⟩
  · trivial

/-- The whole process follows the automaton. -/
theorem follows_run (environment : Environment) (codec : Codec) (fuel : Nat) :
    Program.Follows (Moves environment codec) (Startup.run environment codec fuel).run .launched
      (fun _ _ => True) := by
  refine Fallible.follows_bind follows_validateRoot ?_ (fun _ _ _ => trivial)
  rintro _ _ rfl
  refine Fallible.follows_bind (follows_onHost follows_loadToken) ?_ (fun _ _ _ => trivial)
  rintro token _ rfl
  refine Fallible.follows_bind follows_installSignalHandlers ?_ (fun _ _ _ => trivial)
  rintro _ _ rfl
  exact follows_daemon_run fuel

/-- In every world the calls of the process, from the first to the last, are a
path of the automaton. -/
theorem process_lifecycle (environment : Environment) (codec : Codec) (fuel : Nat) {State : Type}
    (oracle : Oracle ServiceCall ServiceCall.Reply State) (state : State) :
    ∃ last, Trace (Moves environment codec) .launched
      (Program.history oracle (Startup.run environment codec fuel).run state []) last := by
  obtain ⟨last, hPath, -⟩ := (follows_run environment codec fuel).sound .start oracle state
  exact ⟨last, hPath⟩

end MayflyHelper
