import MayflyHelper.Lifecycle

/-! On whose authority the process acts. Every call it makes on the host is
part of the start-up, or it is made for the connection that was accepted last,
which has shown the token root put into the token file. -/
namespace MayflyHelper

open OracleProgram Startup

/-- The calls of the process with their replies, latest first. -/
abbrev ServiceHistory : Type := History ServiceCall ServiceCall.Reply

namespace ServiceHistory

/-- The connection accepted last, with the calls made since then. Any other
call ends its handling. -/
def handling : ServiceHistory → Option (Connection × Transcript)
  | [] => none
  | ⟨.host call, reply⟩ :: past =>
      (handling past).map fun current => (current.1, ⟨call, reply⟩ :: current.2)
  | ⟨.accept, .ok connection⟩ :: _ => some (connection, [])
  | _ :: _ => none

/-- The token is what the token file was read to hold, and no short one. -/
def Loaded (environment : Environment) (past : ServiceHistory) (token : Text) : Prop :=
  ∃ bytes text, ⟨.host (.fs (.read (tokenPath environment).path)), .ok bytes⟩ ∈ past ∧
    Text.fromUtf8 bytes = some text ∧ token = Text.trim text ∧
      minTokenLen ≤ (Text.asBytes token).length

/-- Nobody has called `bind` yet. -/
def Unbound (past : ServiceHistory) : Prop := ∀ event ∈ past, ∀ path, event.call ≠ .bind path

/-- The socket is bound. -/
def Bound (environment : Environment) (past : ServiceHistory) : Prop :=
  ⟨.bind (socketPath environment).path, .ok ()⟩ ∈ past

/-- The socket is bound, belongs to its group and is closed to others. -/
structure Guarded (environment : Environment) (past : ServiceHistory) : Prop where
  bound : Bound environment past
  mode : ⟨.setMode (socketPath environment).path socketMode, .ok ()⟩ ∈ past
  group : ∀ gid, socketGid environment = some gid →
    ⟨.chown (socketPath environment).path gid, .ok ()⟩ ∈ past

/-- The process runs as root. -/
def Root (past : ServiceHistory) : Prop := ⟨.geteuid, (0 : UInt32)⟩ ∈ past

end ServiceHistory

open ServiceHistory

/-- The calls on the host that belong to the start-up: the checks of the token
file and its reading, and the making of the socket's directory. -/
def StartupCall (environment : Environment) : Call → Prop
  | .fs (.lstat path) => path = (tokenPath environment).path
  | .fs (.read path) => path = (tokenPath environment).path
  | .fs (.pathExists path) => socketParent environment = some path
  | .fs (.mkdir path) => ∃ parent, socketParent environment = some parent ∧ path ∈ parent.ancestors
  | .fs (.isDir path) => ∃ parent, socketParent environment = some parent ∧ path ∈ parent.ancestors
  | _ => False

/-- A call on the host made for a request: the request came in over the
connection that is being handled, it has shown the token, and its rules permit
the call after those made for it before. -/
def Requested (environment : Environment) (codec : Codec) (past : ServiceHistory) (call : Call) :
    Prop :=
  ∃ token connection transcript request, Loaded environment past token ∧
    handling past = some (connection, transcript) ∧ connection.request codec = some request ∧
    (HelperServer.fromEnv environment token).Authenticates connection.peer request ∧
    Permitted (OpsConfig.fromEnv environment) request transcript call

/-- What has to have happened before each call. -/
def Warranted (environment : Environment) (codec : Codec) (past : ServiceHistory) :
    ServiceCall → Prop
  | .geteuid => past = []
  | .host call => Root past ∧
      (Unbound past ∧ StartupCall environment call ∨
        Guarded environment past ∧ Requested environment codec past call)
  | .register _ => Root past ∧ Unbound past ∧ ∃ token, Loaded environment past token
  | .isSocket path => Root past ∧ Unbound past ∧ path = (socketPath environment).path
  | .removeFile path => Root past ∧ path = (socketPath environment).path ∧ ∃ earlier,
      past = ⟨.isSocket path, .ok true⟩ :: earlier ∨
        past = ⟨.stopRequested, true⟩ :: earlier ∧ Guarded environment past
  | .bind path => Root past ∧ Unbound past ∧ path = (socketPath environment).path ∧
      ∃ token, Loaded environment past token
  | .chown path gid => Root past ∧ Bound environment past ∧ path = (socketPath environment).path ∧
      socketGid environment = some gid
  | .setMode path mode => Root past ∧ Bound environment past ∧
      path = (socketPath environment).path ∧ mode = socketMode
  | .setNonblocking => Guarded environment past
  | .stopRequested => Guarded environment past
  | .accept => Guarded environment past ∧ ∃ earlier, past = ⟨.stopRequested, false⟩ :: earlier
  | .sleep span => span = acceptPoll ∧ ∃ err earlier, past = ⟨.accept, .error err⟩ :: earlier

variable {environment : Environment} {codec : Codec} {past : ServiceHistory} {token : Text}
  {event : Replied ServiceCall ServiceCall.Reply}

/-- The process runs as root and has the token. -/
structure Enabled (environment : Environment) (past : ServiceHistory) (token : Text) : Prop where
  root : Root past
  loaded : Loaded environment past token

theorem Enabled.cons (h : Enabled environment past token) :
    Enabled environment (event :: past) token := by
  obtain ⟨hRoot, bytes, text, hRead, hRest⟩ := h
  exact ⟨List.mem_cons_of_mem _ hRoot, bytes, text, List.mem_cons_of_mem _ hRead, hRest⟩

theorem ServiceHistory.Guarded.cons (h : Guarded environment past) :
    Guarded environment (event :: past) :=
  ⟨List.mem_cons_of_mem _ h.bound, List.mem_cons_of_mem _ h.mode,
    fun gid hGid => List.mem_cons_of_mem _ (h.group gid hGid)⟩

/-- Any call but a `bind` leaves the socket unbound. -/
theorem ServiceHistory.Unbound.cons (h : Unbound past) (hCall : ∀ path, event.call ≠ .bind path) :
    Unbound (event :: past) := by
  intro other hOther
  rcases List.mem_cons.mp hOther with rfl | hEarlier
  · exact hCall
  · exact h other hEarlier

/-- What a phase knows of the calls before it. -/
def Knows (environment : Environment) (past : ServiceHistory) : Stage → Prop
  | .launched => past = []
  | .asRoot => Root past ∧ Unbound past
  | .unlinked => Root past ∧ Unbound past
  | .owned => Root past ∧ Unbound past
  | .restricted => Root past ∧ Unbound past
  | .armed token => Enabled environment past token ∧ Unbound past
  | .terminable token => Enabled environment past token ∧ Unbound past
  | .ready token => Enabled environment past token ∧ Unbound past
  | .reaching token _ _ => Enabled environment past token ∧ Unbound past
  | .making token _ _ => Enabled environment past token ∧ Unbound past
  | .doubted token _ _ => Enabled environment past token ∧ Unbound past
  | .placed token => Enabled environment past token ∧ Unbound past
  | .stale token => (Enabled environment past token ∧ Unbound past) ∧
      ∃ earlier, past = ⟨.isSocket (socketPath environment).path, .ok true⟩ :: earlier
  | .vacant token => Enabled environment past token ∧ Unbound past
  | .bound token => Enabled environment past token ∧ Bound environment past
  | .grouped token => Enabled environment past token ∧ Bound environment past ∧
      ∀ gid, socketGid environment = some gid →
        ⟨.chown (socketPath environment).path gid, .ok ()⟩ ∈ past
  | .guarded token => Enabled environment past token ∧ Guarded environment past
  | .polling token => Enabled environment past token ∧ Guarded environment past
  | .willing token => (Enabled environment past token ∧ Guarded environment past) ∧
      ∃ earlier, past = ⟨.stopRequested, false⟩ :: earlier
  | .resting token => (Enabled environment past token ∧ Guarded environment past) ∧
      ∃ err earlier, past = ⟨.accept, .error err⟩ :: earlier
  | .handling token connection transcript =>
      (Enabled environment past token ∧ Guarded environment past) ∧
      handling past = some (connection, transcript)
  | .stopping token => (Enabled environment past token ∧ Guarded environment past) ∧
      ∃ earlier, past = ⟨.stopRequested, true⟩ :: earlier
  | .ended => True

theorem Sited.known {phase : Stage} (h : Sited environment token phase)
    (hKnows : Knows environment past phase) :
    Enabled environment past token ∧ Unbound past := by
  cases h with
  | ready => exact hKnows
  | placed => exact hKnows

theorem Idle.guarded {phase : Stage} (h : Idle token phase)
    (hKnows : Knows environment past phase) :
    Enabled environment past token ∧ Guarded environment past := by
  cases h with
  | polling => exact hKnows
  | handling => exact hKnows.1

theorem Owned.known {phase : Stage} (h : Owned environment token phase)
    (hKnows : Knows environment past phase) :
    Enabled environment past token ∧ Bound environment past ∧
      ∀ gid, socketGid environment = some gid →
        ⟨.chown (socketPath environment).path gid, .ok ()⟩ ∈ past := by
  cases h with
  | bound hGid => exact ⟨hKnows.1, hKnows.2, fun gid hSome => by rw [hGid] at hSome; cases hSome⟩
  | grouped => exact hKnows

/-- While the directories are made, the process knows no more than before. -/
theorem knows_made (left below : List Name) (h : Enabled environment past token ∧ Unbound past) :
    Knows environment past (.made token left below) := by
  cases below with
  | nil => exact h
  | cons name below => exact h

theorem knows_reach (absolute : Bool) (left below : List Name)
    (h : Enabled environment past token ∧ Unbound past) :
    Knows environment past (.reach absolute token left below) := by
  cases left with
  | nil =>
      cases absolute with
      | true => exact h
      | false => exact knows_made [] below h
  | cons name above => exact h

theorem OnTheWay.mem_ancestors {left : List Name} {path : Path}
    (h : OnTheWay environment left path) :
    ∃ parent, socketParent environment = some parent ∧ path ∈ parent.ancestors := by
  cases h with
  | above hParent hLeft =>
      exact ⟨_, hParent, List.mem_map.mpr ⟨left, (List.mem_tails _ _).mpr hLeft, rfl⟩⟩

/-- One move before the socket is bound. -/
theorem cons_of_unbound (h : Enabled environment past token ∧ Unbound past)
    (hCall : ∀ path, event.call ≠ .bind path) :
    Enabled environment (event :: past) token ∧ Unbound (event :: past) :=
  ⟨h.1.cons, h.2.cons hCall⟩

/-- One move once the socket is closed to others. -/
theorem cons_of_guarded (h : Enabled environment past token ∧ Guarded environment past) :
    Enabled environment (event :: past) token ∧ Guarded environment (event :: past) :=
  ⟨h.1.cons, h.2.cons⟩

/-- One move: the next phase knows what it should. -/
theorem Expects.knows {phase after : Stage} (h : Expects environment codec phase event after)
    (hKnows : Knows environment past phase) : Knows environment (event :: past) after := by
  cases h with
  | root =>
      cases hKnows
      exact ⟨List.mem_cons_self, Unbound.cons (fun _ h => by cases h) (by simp)⟩
  | unlinked => exact ⟨List.mem_cons_of_mem _ hKnows.1, hKnows.2.cons (by simp)⟩
  | owned => exact ⟨List.mem_cons_of_mem _ hKnows.1, hKnows.2.cons (by simp)⟩
  | restricted => exact ⟨List.mem_cons_of_mem _ hKnows.1, hKnows.2.cons (by simp)⟩
  | armed hText hLong =>
      exact ⟨⟨List.mem_cons_of_mem _ hKnows.1, _, _, List.mem_cons_self, hText, rfl, hLong⟩,
        hKnows.2.cons (by simp)⟩
  | terminable => exact cons_of_unbound hKnows (by simp)
  | ready => exact cons_of_unbound hKnows (by simp)
  | placed => exact cons_of_unbound hKnows (by simp)
  | missing => exact knows_reach _ _ _ (cons_of_unbound hKnows (by simp))
  | reached => exact knows_made _ _ (cons_of_unbound hKnows (by simp))
  | climbed => exact knows_reach _ _ _ (cons_of_unbound hKnows (by simp))
  | occupied => exact cons_of_unbound hKnows (by simp)
  | made => exact knows_made _ _ (cons_of_unbound hKnows (by simp))
  | refused => exact cons_of_unbound hKnows (by simp)
  | confirmed => exact knows_made _ _ (cons_of_unbound hKnows (by simp))
  | stale hSited => exact ⟨cons_of_unbound (hSited.known hKnows) (by simp), past, rfl⟩
  | vacant hSited => exact cons_of_unbound (hSited.known hKnows) (by simp)
  | cleared => exact cons_of_unbound hKnows.1 (by simp)
  | bound => exact ⟨hKnows.1.cons, List.mem_cons_self⟩
  | grouped hGid =>
      refine ⟨hKnows.1.cons, List.mem_cons_of_mem _ hKnows.2, ?_⟩
      intro gid hSome
      rw [hGid] at hSome
      cases hSome
      exact List.mem_cons_self
  | guarded hOwned =>
      obtain ⟨hEnabled, hBound, hGroup⟩ := hOwned.known hKnows
      exact ⟨hEnabled.cons, List.mem_cons_of_mem _ hBound, List.mem_cons_self,
        fun gid hGid => List.mem_cons_of_mem _ (hGroup gid hGid)⟩
  | polling => exact cons_of_guarded hKnows
  | willing hIdle => exact ⟨cons_of_guarded (hIdle.guarded hKnows), past, rfl⟩
  | stopping hIdle => exact ⟨cons_of_guarded (hIdle.guarded hKnows), past, rfl⟩
  | accepted => exact ⟨cons_of_guarded hKnows.1, rfl⟩
  | lonely => exact ⟨cons_of_guarded hKnows.1, _, past, rfl⟩
  | rested => exact cons_of_guarded hKnows.1
  | acts =>
      refine ⟨cons_of_guarded hKnows.1, ?_⟩
      simp only [handling, hKnows.2, Option.map_some]
  | closed => trivial

/-- One move: the call was warranted. -/
theorem Expects.warranted {phase after : Stage} {call : ServiceCall} {reply : call.Reply}
    (h : Expects environment codec phase ⟨call, reply⟩ after)
    (hKnows : Knows environment past phase) :
    Warranted environment codec past call := by
  cases h with
  | root => exact hKnows
  | unlinked => exact ⟨hKnows.1, Or.inl ⟨hKnows.2, rfl⟩⟩
  | owned => exact ⟨hKnows.1, Or.inl ⟨hKnows.2, rfl⟩⟩
  | restricted => exact ⟨hKnows.1, Or.inl ⟨hKnows.2, rfl⟩⟩
  | armed => exact ⟨hKnows.1, Or.inl ⟨hKnows.2, rfl⟩⟩
  | terminable => exact ⟨hKnows.1.root, hKnows.2, _, hKnows.1.loaded⟩
  | ready => exact ⟨hKnows.1.root, hKnows.2, _, hKnows.1.loaded⟩
  | placed hParent => exact ⟨hKnows.1.root, Or.inl ⟨hKnows.2, hParent⟩⟩
  | missing hParent => exact ⟨hKnows.1.root, Or.inl ⟨hKnows.2, hParent⟩⟩
  | reached hWay => exact ⟨hKnows.1.root, Or.inl ⟨hKnows.2, hWay.mem_ancestors⟩⟩
  | climbed hWay => exact ⟨hKnows.1.root, Or.inl ⟨hKnows.2, hWay.mem_ancestors⟩⟩
  | occupied hWay => exact ⟨hKnows.1.root, Or.inl ⟨hKnows.2, hWay.mem_ancestors⟩⟩
  | made hWay => exact ⟨hKnows.1.root, Or.inl ⟨hKnows.2, hWay.mem_ancestors⟩⟩
  | refused hWay => exact ⟨hKnows.1.root, Or.inl ⟨hKnows.2, hWay.mem_ancestors⟩⟩
  | confirmed hWay => exact ⟨hKnows.1.root, Or.inl ⟨hKnows.2, hWay.mem_ancestors⟩⟩
  | stale hSited =>
      obtain ⟨hEnabled, hUnbound⟩ := hSited.known hKnows
      exact ⟨hEnabled.root, hUnbound, rfl⟩
  | vacant hSited =>
      obtain ⟨hEnabled, hUnbound⟩ := hSited.known hKnows
      exact ⟨hEnabled.root, hUnbound, rfl⟩
  | cleared =>
      obtain ⟨hEnabled, earlier, hPast⟩ := hKnows
      exact ⟨hEnabled.1.root, rfl, earlier, Or.inl hPast⟩
  | bound => exact ⟨hKnows.1.root, hKnows.2, rfl, _, hKnows.1.loaded⟩
  | grouped hGid => exact ⟨hKnows.1.root, hKnows.2, rfl, hGid⟩
  | guarded hOwned =>
      obtain ⟨hEnabled, hBound, -⟩ := hOwned.known hKnows
      exact ⟨hEnabled.root, hBound, rfl, rfl⟩
  | polling => exact hKnows.2
  | willing hIdle => exact (hIdle.guarded hKnows).2
  | stopping hIdle => exact (hIdle.guarded hKnows).2
  | accepted => exact ⟨hKnows.1.2, hKnows.2⟩
  | lonely => exact ⟨hKnows.1.2, hKnows.2⟩
  | rested => exact ⟨rfl, hKnows.2⟩
  | acts hRequest hAuth hPermitted =>
      exact ⟨hKnows.1.1.root,
        Or.inr ⟨hKnows.1.2, _, _, _, _, hKnows.1.1.loaded, hKnows.2, hRequest, hAuth,
        hPermitted⟩⟩
  | closed =>
      obtain ⟨⟨hEnabled, hGuarded⟩, earlier, hPast⟩ := hKnows
      exact ⟨hEnabled.root, rfl, earlier, Or.inr ⟨hPast, hGuarded⟩⟩

/-- In every world, every call of the process is warranted when it is made. On
the host it acts only as root: before the socket is bound for the start-up, and
from then on for a request that has shown the token. Of the socket it sets the
configured group and the one mode; it accepts nobody before that is done, and
removes nothing but the socket. -/
theorem process_warranted (environment : Environment) (codec : Codec) (fuel : Nat) {State : Type}
    (oracle : Oracle ServiceCall ServiceCall.Reply State) (state : State) :
    Lawful (Warranted environment codec)
      (Program.history oracle (Startup.run environment codec fuel).run state []) := by
  obtain ⟨last, hTrace, -⟩ := (follows_run environment codec fuel).sound .start oracle state
  refine hTrace.lawful (Knows environment) rfl ?_ ?_
  · intro past phase event after hKnows hMove
    cases hMove with
    | goes h => exact h.knows hKnows
    | fails => trivial
  · intro past phase event after hKnows hMove
    cases hMove with
    | goes h => exact h.warranted hKnows
    | fails h => exact h.warranted hKnows

end MayflyHelper
