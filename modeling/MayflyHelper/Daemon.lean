import MayflyHelper.Authentication
import MayflyHelper.Sandbox
import MayflyHelper.Startup
import MayflyHelper.Semantics.Clock
import MayflyHelper.Semantics.Handler

/-! The process as a whole: start-up, the socket, and the accept loop. It makes
its own calls on the socket and the signals, and those of the operations on
the host. -/
namespace MayflyHelper

open OracleProgram Clock

inductive Signal where
  | sigterm
  | sigint
  deriving DecidableEq, Repr

/-- Why there is no connection. -/
inductive AcceptError where
  | wouldBlock
  | other
  deriving DecidableEq, Repr

inductive ServiceCall where
  | host (call : Call)
  | geteuid
  | register (signal : Signal)
  | isSocket (path : Path)
  | removeFile (path : Path)
  | bind (path : Path)
  | chown (path : Path) (gid : UInt32)
  | setMode (path : Path) (mode : Nat)
  | setNonblocking
  | stopRequested
  | accept
  | sleep (span : Duration)

/-- `isSocket` is `symlink_metadata` with the one thing asked of it. -/
@[reducible]
def ServiceCall.Reply : ServiceCall → Type
  | .host call => call.Reply
  | .geteuid => UInt32
  | .isSocket _ => Except IoErrorKind Bool
  | .stopRequested => Bool
  | .accept => Except AcceptError Connection
  | .sleep _ => Unit
  | _ => Except IoErrorKind Unit

abbrev ServiceProgram (Result : Type) : Type := Program ServiceCall ServiceCall.Reply Result

abbrev ServiceAction (Result : Type) : Type := Fallible ServiceCall ServiceCall.Reply Error Result

/-- Socket file permission bits. -/
def socketMode : Nat := 0o660

/-- How long to nap between accept polls while idle. -/
def acceptPoll : Duration := .fromMillis 100

/-- The server with its socket. -/
structure Daemon extends HelperServer where
  socketPath : PathBuf
  socketGid : Option UInt32

/-- What came of the accept loop: every connection with what came of it, and
whether the loop was stopped. In the model it may also run out of fuel. -/
structure Served where
  handled : List (Connection × Handled)
  stopped : Bool

namespace Daemon

def call (c : ServiceCall) : ServiceProgram c.Reply := Program.call c

/-- A call whose error is mapped to `Error::Io`. -/
def io {Value : Type} (p : ServiceProgram (Except IoErrorKind Value)) : ServiceAction Value :=
  ExceptT.mk (do
    match ← p with
    | .ok value => pure (.ok value)
    | .error kind => pure (.error (.io kind)))

/-- The calls of an operation, as calls of the process. -/
def onHost {Result : Type} (p : HostProgram Result) : ServiceProgram Result :=
  p.interpret fun c => call (.host c)

variable (daemon : Daemon)

/-- Create the directory of the socket if it is missing. -/
def ensureSocketParent : ServiceAction Unit := do
  match daemon.socketPath.path.parent.filter (fun parent => !parent.isEmpty) with
  | some parent =>
      let present : Bool ← ExceptT.lift (onHost (Ops.pathExists parent))
      if present then pure () else io (onHost (Ops.createDirAll parent))
  | none => pure ()

/-- Remove a stale socket, but nothing else. -/
def removeStale : ServiceAction Unit :=
  ExceptT.mk (do
    match ← call (.isSocket daemon.socketPath.path) with
    | .ok true => (io (call (.removeFile daemon.socketPath.path))).run
    | .ok false => pure (.error .invalidPath)
    | .error .notFound => pure (.ok ())
    | .error kind => pure (.error (.io kind)))

def setSocketGroup : ServiceAction Unit :=
  match daemon.socketGid with
  | some gid => io (call (.chown daemon.socketPath.path gid))
  | none => pure ()

def bind : ServiceAction Unit := do
  daemon.ensureSocketParent
  daemon.removeStale
  io (call (.bind daemon.socketPath.path))
  daemon.setSocketGroup
  io (call (.setMode daemon.socketPath.path socketMode))

variable (codec : Codec)

/-- One connection is handled to its end before the next is accepted. What
came of it is only logged. -/
def acceptLoop : Nat → ServiceProgram Served
  | 0 => pure ⟨[], false⟩
  | fuel + 1 => do
      let stop : Bool ← call .stopRequested
      if stop then pure ⟨[], true⟩
      else do
        match ← call .accept with
        | .ok connection => do
            let handled ← onHost (daemon.handleConnection codec connection)
            let rest ← acceptLoop fuel
            pure { rest with handled := (connection, handled) :: rest.handled }
        | .error _ => do
            call (.sleep acceptPoll)
            acceptLoop fuel

/-- Bind the socket and serve until stopped; then the socket is removed. -/
def run (fuel : Nat) : ServiceAction Served := do
  daemon.bind
  io (call .setNonblocking)
  let served ← ExceptT.lift (daemon.acceptLoop codec fuel)
  if served.stopped then
    let _ : Except IoErrorKind Unit ← ExceptT.lift (call (.removeFile daemon.socketPath.path))
    pure served
  else pure served

end Daemon

namespace Startup

/-- The process must run as root. -/
def validateRoot : ServiceAction Unit := do
  let euid : UInt32 ← ExceptT.lift (Daemon.call .geteuid)
  if euid = 0 then pure () else throw .notRoot

def installSignalHandlers : ServiceAction Unit := do
  Daemon.io (Daemon.call (.register .sigterm))
  Daemon.io (Daemon.call (.register .sigint))

/-- The server and its socket, as the environment says. -/
def daemon (environment : Environment) (token : Text) : Daemon :=
  { HelperServer.fromEnv environment token with
    socketPath := socketPath environment
    socketGid := socketGid environment }

/-- The whole process. -/
def run (environment : Environment) (codec : Codec) (fuel : Nat) : ServiceAction Served := do
  validateRoot
  let token ← ExceptT.mk (Daemon.onHost (loadToken environment).run)
  installSignalHandlers
  (daemon environment token).run codec fuel

end Startup

/-- A world in front of the socket: what each look at it finds until the stop
is requested, and the host behind. -/
structure Front where
  world : World
  arrivals : List (Except AcceptError Connection)

namespace Front

/-- The calls the loop does not make are answered in any way. -/
def oracle (host : Host) (settings : (call : ServiceCall) → call.Reply) :
    Oracle ServiceCall ServiceCall.Reply Front
  | .host call, front =>
      ((host.oracle call front.world).1, { front with world := (host.oracle call front.world).2 })
  | .stopRequested, front => (front.arrivals.isEmpty, front)
  | .accept, front =>
      match front.arrivals with
      | [] => (settings .accept, front)
      | arrival :: rest => (arrival, { front with arrivals := rest })
  | call, front => (settings call, front)

variable (host : Host) (settings : (call : ServiceCall) → call.Reply)

/-- The calls of an operation are made in the world in front of the socket. -/
theorem run_onHost {Result : Type} (p : HostProgram Result) (front : Front) :
    (Daemon.onHost p).run (oracle host settings) front =
      ((p.run host.oracle front.world).1,
        { front with world := (p.run host.oracle front.world).2 }) := by
  have hStep : ∀ c : Call, True → ∀ world : World,
      (Daemon.call (.host c)).run (oracle host settings) { front with world } =
        ((host.oracle c world).1, { front with world := (host.oracle c world).2 }) :=
          fun _ _ _ => rfl
  rw [Daemon.onHost, Program.run_interpret]
  exact p.within_true.run_embeds host.oracle (fun world => { front with world }) hStep front.world

/-- The connections among what was found. -/
def arrived (arrivals : List (Except AcceptError Connection)) : List Connection :=
  arrivals.filterMap Except.toOption

theorem arrived_error (err : AcceptError) (rest : List (Except AcceptError Connection)) :
    arrived (.error err :: rest) = arrived rest := rfl

theorem arrived_ok (connection : Connection) (rest : List (Except AcceptError Connection)) :
    arrived (.ok connection :: rest) = connection :: arrived rest := rfl

/-- The loop serves every connection that arrives before the stop once, in
order, and each in the world the one before left; nothing else changes the
world. -/
theorem run_acceptLoop (daemon : Daemon) (codec : Codec) (w : World)
    (arrivals : List (Except AcceptError Connection))
    (fuel : Nat) :
    (daemon.acceptLoop codec fuel).run (oracle host settings) ⟨w, arrivals⟩ =
      (⟨Service.log (daemon.serveConnection codec host) w (arrived (arrivals.take fuel)),
          decide (arrivals.length < fuel)⟩,
        ⟨Service.final (daemon.serveConnection codec host) w (arrived (arrivals.take fuel)),
          arrivals.drop fuel⟩) := by
  induction fuel generalizing w arrivals with
  | zero => simp [Daemon.acceptLoop, arrived, Service.log]
  | succ fuel ih =>
      cases arrivals with
      | nil => rfl
      | cons arrival rest =>
          cases arrival with
          | error err => exact (ih w rest).trans (by simp [arrived_error])
          | ok connection =>
              show Program.run (oracle host settings)
                (Daemon.onHost (daemon.handleConnection codec connection) >>=
                fun handled => daemon.acceptLoop codec fuel >>= fun rest =>
                  pure { rest with handled := (connection, handled) :: rest.handled }) ⟨w, rest⟩ = _
              rw [Program.run_bind, run_onHost, Program.run_bind]
              dsimp only
              rw [ih]
              simp [arrived_ok, Service.log, HelperServer.serveConnection]

variable {host settings}

/-- Wrapping an error makes no calls. -/
theorem run_io_eq_ok_iff {p : ServiceProgram (Except IoErrorKind Unit)}
    {reply : Except IoErrorKind Unit}
    {front after front' : Front} (h : p.run (oracle host settings) front = (reply, after)) :
    Program.run (oracle host settings) (Daemon.io p).run front = (.ok (), front') ↔
      reply = .ok () ∧ front' = after := by
  change (p >>= _).run (oracle host settings) front = _ ↔ _
  rw [Program.run_bind, h]
  cases reply with
  | error kind => exact iff_of_false (fun hRun => by cases hRun) (fun hRun => by cases hRun.1)
  | ok _ =>
      constructor
      · intro hRun
        cases hRun
        exact ⟨rfl, rfl⟩
      · rintro ⟨-, rfl⟩
        rfl

/-- The directory of the socket is there, or it is made. -/
def Placed (daemon : Daemon) (host : Host) (w w' : World) : Prop :=
  match daemon.socketPath.path.parent.filter (fun parent => !parent.isEmpty) with
  | some parent => (Ops.pathExists parent).run host.oracle w = (true, w') ∨
      ∃ between, (Ops.pathExists parent).run host.oracle w = (false, between) ∧
        (Ops.createDirAll parent).run host.oracle between = (.ok (), w')
  | none => w' = w

/-- There is nothing where the socket goes, or a stale socket, which goes away. -/
def Vacated (daemon : Daemon) (settings : (call : ServiceCall) → call.Reply) : Prop :=
  settings (.isSocket daemon.socketPath.path) = .error .notFound ∨
    settings (.isSocket daemon.socketPath.path) = .ok true ∧
      settings (.removeFile daemon.socketPath.path) = .ok ()

/-- What it takes to get the socket. -/
structure Binds (daemon : Daemon) (host : Host) (settings : (call : ServiceCall) → call.Reply)
    (w w' : World) :
    Prop where
  placed : Placed daemon host w w'
  vacated : Vacated daemon settings
  bound : settings (.bind daemon.socketPath.path) = .ok ()
  group : ∀ gid, daemon.socketGid = some gid → settings (.chown daemon.socketPath.path gid) = .ok ()
  mode : settings (.setMode daemon.socketPath.path socketMode) = .ok ()

/-- The parent of the socket is made, if it has one. -/
theorem run_ensureSocketParent_eq_ok_iff {daemon : Daemon} {front front' : Front} :
    Program.run (oracle host settings) daemon.ensureSocketParent.run front = (.ok (), front') ↔
      ∃ w', Placed daemon host front.world w' ∧ front' = { front with world := w' } := by
  unfold Daemon.ensureSocketParent Placed
  split
  · rename_i parent _
    rw [Fallible.run_lift_bind, run_onHost]
    rcases hExists : (Ops.pathExists parent).run host.oracle front.world with ⟨present, between⟩
    cases present with
    | true =>
        constructor
        · intro hRun
          cases hRun
          exact ⟨between, Or.inl rfl, rfl⟩
        · rintro ⟨w', hPlaced | ⟨_, hAbsent, -⟩, rfl⟩
          · cases hPlaced
            rfl
          · cases hAbsent
    | false =>
        refine (run_io_eq_ok_iff (run_onHost host settings _ _)).trans ?_
        constructor
        · rintro ⟨hMade, rfl⟩
          exact ⟨_, Or.inr ⟨between, rfl, Prod.ext hMade rfl⟩, rfl⟩
        · rintro ⟨w', hPlaced | ⟨_, hAbsent, hMade⟩, rfl⟩
          · cases hPlaced
          · cases hAbsent
            rw [hMade]
            exact ⟨rfl, rfl⟩
  · constructor
    · intro hRun
      cases hRun
      exact ⟨_, rfl, rfl⟩
    · rintro ⟨_, rfl, rfl⟩
      rfl

/-- It succeeds where the path of the socket is vacant, or can be vacated. -/
theorem run_removeStale_eq_ok_iff {daemon : Daemon} {front front' : Front} :
    Program.run (oracle host settings) daemon.removeStale.run front = (.ok (), front') ↔
      Vacated daemon settings ∧ front' = front := by
  change Program.run (oracle host settings) (Daemon.call (.isSocket daemon.socketPath.path) >>= _)
    front = _ ↔ _
  rw [Program.run_bind]
  change Program.run (oracle host settings) (match settings (.isSocket daemon.socketPath.path) with
    | .ok true => _
    | .ok false => _
    | .error .notFound => _
    | .error kind => _) front = _ ↔ _
  unfold Vacated
  rcases settings (.isSocket daemon.socketPath.path) with (_ | _) | (_ | _)
  · refine ⟨fun hRun => ?_, ?_⟩
    · cases hRun
      exact ⟨Or.inl rfl, rfl⟩
    · rintro ⟨-, rfl⟩
      rfl
  · exact iff_of_false (fun hRun => by cases hRun) (by simp)
  · exact iff_of_false (fun hRun => by cases hRun) (by simp)
  · refine (run_io_eq_ok_iff rfl).trans ?_
    constructor
    · rintro ⟨hRemoved, rfl⟩
      exact ⟨Or.inr ⟨rfl, hRemoved⟩, rfl⟩
    · rintro ⟨hNone | ⟨-, hRemoved⟩, rfl⟩
      · cases hNone
      · exact ⟨hRemoved, rfl⟩

/-- The group is set where one is configured. -/
theorem run_setSocketGroup_eq_ok_iff {daemon : Daemon} {front front' : Front} :
    Program.run (oracle host settings) daemon.setSocketGroup.run front = (.ok (), front') ↔
      (∀ gid, daemon.socketGid = some gid → settings (.chown daemon.socketPath.path gid) = .ok ()) ∧
        front' = front := by
  unfold Daemon.setSocketGroup
  cases daemon.socketGid with
  | none =>
      constructor
      · intro hRun
        cases hRun
        exact ⟨fun gid hGid => (nomatch hGid), rfl⟩
      · rintro ⟨-, rfl⟩
        rfl
  | some gid =>
      refine (run_io_eq_ok_iff rfl).trans (and_congr_left fun _ => ?_)
      constructor
      · rintro hOk _ hGid
        cases hGid
        exact hOk
      · exact fun h => h gid rfl

/-- The step as a whole: the parent, the path, the socket, its group and mode. -/
theorem run_bind_eq_ok_iff {daemon : Daemon} {front front' : Front} :
    Program.run (oracle host settings) daemon.bind.run front = (.ok (), front') ↔
      ∃ w', Binds daemon host settings front.world w' ∧ front' = { front with world := w' } := by
  constructor
  · intro hRun
    obtain ⟨_, hParent, hRest⟩ := Fallible.run_seq_eq_ok_iff.mp hRun
    obtain ⟨w', hPlaced, rfl⟩ := run_ensureSocketParent_eq_ok_iff.mp hParent
    obtain ⟨_, hStale, hRest⟩ := Fallible.run_seq_eq_ok_iff.mp hRest
    obtain ⟨hVacated, rfl⟩ := run_removeStale_eq_ok_iff.mp hStale
    obtain ⟨_, hBind, hRest⟩ := Fallible.run_seq_eq_ok_iff.mp hRest
    obtain ⟨hBound, rfl⟩ := (run_io_eq_ok_iff rfl).mp hBind
    obtain ⟨_, hChown, hChmod⟩ := Fallible.run_seq_eq_ok_iff.mp hRest
    obtain ⟨hGroup, rfl⟩ := run_setSocketGroup_eq_ok_iff.mp hChown
    obtain ⟨hMode, rfl⟩ := (run_io_eq_ok_iff rfl).mp hChmod
    exact ⟨w', ⟨hPlaced, hVacated, hBound, hGroup, hMode⟩, rfl⟩
  · rintro ⟨w', h, rfl⟩
    refine Fallible.run_seq_eq_ok_iff.mpr
      ⟨_, run_ensureSocketParent_eq_ok_iff.mpr ⟨w', h.placed, rfl⟩, ?_⟩
    refine Fallible.run_seq_eq_ok_iff.mpr ⟨_, run_removeStale_eq_ok_iff.mpr ⟨h.vacated, rfl⟩, ?_⟩
    refine Fallible.run_seq_eq_ok_iff.mpr ⟨_, (run_io_eq_ok_iff rfl).mpr ⟨h.bound, rfl⟩, ?_⟩
    refine Fallible.run_seq_eq_ok_iff.mpr ⟨_, run_setSocketGroup_eq_ok_iff.mpr ⟨h.group, rfl⟩, ?_⟩
    exact (run_io_eq_ok_iff rfl).mpr ⟨h.mode, rfl⟩

/-- The daemon serves what its accept loop serves, once it is bound. -/
theorem run_daemon_eq_ok_iff {daemon : Daemon} {codec : Codec} {fuel : Nat} {served : Served}
    {front front' : Front} :
    Program.run (oracle host settings) (daemon.run codec fuel).run front = (.ok served, front') ↔
      ∃ w', Binds daemon host settings front.world w' ∧ settings .setNonblocking = .ok () ∧
        (daemon.acceptLoop codec fuel).run (oracle host settings) { front with world := w' } =
          (served, front') := by
  have hLoop : ∀ {before : Front}, Program.run (oracle host settings) (ExceptT.run (do
        let served ← ExceptT.lift (daemon.acceptLoop codec fuel)
        if served.stopped then
          let _ : Except IoErrorKind Unit ← ExceptT.lift
            (Daemon.call (.removeFile daemon.socketPath.path))
          pure served
        else pure served : ServiceAction Served)) before = (.ok served, front') ↔
      (daemon.acceptLoop codec fuel).run (oracle host settings) before = (served, front') := by
    intro before
    rw [Fallible.run_lift_bind]
    rcases (daemon.acceptLoop codec fuel).run (oracle host settings) before with ⟨found, last⟩
    have hLast : Program.run (oracle host settings) (ExceptT.run (if found.stopped then do
          let _ : Except IoErrorKind Unit ← ExceptT.lift
            (Daemon.call (.removeFile daemon.socketPath.path))
          pure found
        else pure found : ServiceAction Served)) last = (.ok found, last) := by
      cases found.stopped with
      | true => rfl
      | false => rfl
    rw [hLast]
    simp
  constructor
  · intro hRun
    obtain ⟨_, hBind, hRest⟩ := Fallible.run_seq_eq_ok_iff.mp hRun
    obtain ⟨w', hBinds, rfl⟩ := run_bind_eq_ok_iff.mp hBind
    obtain ⟨_, hSet, hRest⟩ := Fallible.run_seq_eq_ok_iff.mp hRest
    obtain ⟨hNonblocking, rfl⟩ := (run_io_eq_ok_iff rfl).mp hSet
    exact ⟨w', hBinds, hNonblocking, hLoop.mp hRest⟩
  · rintro ⟨w', hBinds, hNonblocking, hRun⟩
    refine Fallible.run_seq_eq_ok_iff.mpr ⟨_, run_bind_eq_ok_iff.mpr ⟨w', hBinds, rfl⟩, ?_⟩
    exact Fallible.run_seq_eq_ok_iff.mpr
      ⟨_, (run_io_eq_ok_iff rfl).mpr ⟨hNonblocking, rfl⟩, hLoop.mpr hRun⟩

/-- The process has to be root's. -/
theorem run_validateRoot_eq_ok_iff {front front' : Front} :
    Program.run (oracle host settings) Startup.validateRoot.run front = (.ok (), front') ↔
      settings .geteuid = (0 : UInt32) ∧ front' = front := by
  unfold Startup.validateRoot
  rw [Fallible.run_lift_bind]
  change Program.run (oracle host settings)
    (ExceptT.run (if settings .geteuid = (0 : UInt32) then pure () else throw Error.notRoot))
      front = _ ↔ _
  split
  · rename_i hRoot
    refine ⟨fun hRun => ?_, ?_⟩
    · cases hRun
      exact ⟨hRoot, rfl⟩
    · rintro ⟨-, rfl⟩
      rfl
  · rename_i hRoot
    exact iff_of_false (fun hRun => by cases hRun) (fun h => hRoot h.1)

/-- Both handlers have to be installed. -/
theorem run_installSignalHandlers_eq_ok_iff {front front' : Front} :
    Program.run (oracle host settings) Startup.installSignalHandlers.run front = (.ok (), front') ↔
      settings (.register .sigterm) = .ok () ∧
        settings (.register .sigint) = .ok () ∧ front' = front := by
  constructor
  · intro hRun
    obtain ⟨_, hFirst, hSecond⟩ := Fallible.run_seq_eq_ok_iff.mp hRun
    obtain ⟨hSigterm, rfl⟩ := (run_io_eq_ok_iff rfl).mp hFirst
    obtain ⟨hSigint, rfl⟩ := (run_io_eq_ok_iff rfl).mp hSecond
    exact ⟨hSigterm, hSigint, rfl⟩
  · rintro ⟨hSigterm, hSigint, rfl⟩
    exact Fallible.run_seq_eq_ok_iff.mpr
      ⟨_, (run_io_eq_ok_iff rfl).mpr ⟨hSigterm, rfl⟩, (run_io_eq_ok_iff rfl).mpr ⟨hSigint, rfl⟩⟩

/-- What it takes for the process to come up with this token. The world it
serves its connections in is that of the start-up, with the calls made. -/
structure Starts (environment : Environment) (host : Host)
    (settings : (call : ServiceCall) → call.Reply) (w : World)
    (token : Text) (w' : World) : Prop where
  root : settings .geteuid = (0 : UInt32)
  file : Startup.TokenFile w.fs (Startup.tokenPath environment).path token
  looks : ∀ n < 3, host.fails .lstat (w.count .lstat + n) = false
  readable : host.fails .read (w.count .read) = false
  sigterm : settings (.register .sigterm) = .ok ()
  sigint : settings (.register .sigint) = .ok ()
  binds : Binds (Startup.daemon environment token) host settings
    (w.after [.read, .lstat, .lstat, .lstat] w.fs) w'
  nonblocking : settings .setNonblocking = .ok ()

end Front

open Front

/-- Unless a device, a pipe or a socket is at the token path, the process comes
up just under these conditions, and then it is the service of the connections
that arrive: each is handled once, in order, in the world the one before left,
by the server of the environment and the token in the token file. -/
theorem process_serves (environment : Environment) (codec : Codec) (fuel : Nat) (host : Host)
    (settings : (call : ServiceCall) → call.Reply) (w : World)
    (arrivals : List (Except AcceptError Connection)) (served : Served) (last : Front)
    (hSpecial : Startup.NoSpecial w.fs (Startup.tokenPath environment).path) :
    Program.run (Front.oracle host settings) (Startup.run environment codec fuel).run
        ⟨w, arrivals⟩ = (.ok served, last) ↔
      ∃ token w', Starts environment host settings w token w' ∧
        served =
          ⟨Service.log ((HelperServer.fromEnv environment token).serveConnection codec host) w'
            (arrived (arrivals.take fuel)), decide (arrivals.length < fuel)⟩ ∧
        last =
          ⟨Service.final ((HelperServer.fromEnv environment token).serveConnection codec host) w'
            (arrived (arrivals.take fuel)), arrivals.drop fuel⟩ := by
  constructor
  · intro hRun
    obtain ⟨_, hFirst, hRest⟩ := Fallible.run_seq_eq_ok_iff.mp hRun
    obtain ⟨hRoot, rfl⟩ := run_validateRoot_eq_ok_iff.mp hFirst
    obtain ⟨token, front, hLoad, hRest⟩ := Fallible.run_bind_eq_ok hRest
    rcases hLoaded : Program.run host.oracle (Startup.loadToken environment).run w with ⟨loaded, w₁⟩
    have hRead : Program.run (Front.oracle host settings)
      (Daemon.onHost (Startup.loadToken environment).run) ⟨w, arrivals⟩ =
        (loaded, ⟨w₁, arrivals⟩) := by
      rw [run_onHost, hLoaded]
    cases hRead.symm.trans hLoad
    obtain ⟨hFile, hLooks, hReadable, rfl⟩ := (Startup.run_loadToken_eq_ok_iff hSpecial).mp hLoaded
    obtain ⟨_, hSignals, hRest⟩ := Fallible.run_seq_eq_ok_iff.mp hRest
    obtain ⟨hSigterm, hSigint, rfl⟩ := run_installSignalHandlers_eq_ok_iff.mp hSignals
    obtain ⟨w', hBinds, hNonblocking, hLoop⟩ := run_daemon_eq_ok_iff.mp hRest
    rw [run_acceptLoop, Prod.mk.injEq] at hLoop
    exact ⟨token, w', ⟨hRoot, hFile, hLooks, hReadable, hSigterm, hSigint, hBinds, hNonblocking⟩,
      hLoop.1.symm, hLoop.2.symm⟩
  · rintro ⟨token, w', hStarts, rfl, rfl⟩
    refine Fallible.run_seq_eq_ok_iff.mpr
      ⟨_, run_validateRoot_eq_ok_iff.mpr ⟨hStarts.root, rfl⟩, ?_⟩
    have hLoad : Program.run (Front.oracle host settings)
      (Daemon.onHost (Startup.loadToken environment).run) ⟨w, arrivals⟩ =
        (.ok token, ⟨w.after [.read, .lstat, .lstat, .lstat] w.fs, arrivals⟩) := by
      rw [run_onHost, (Startup.run_loadToken_eq_ok_iff hSpecial).mpr
        ⟨hStarts.file, hStarts.looks, hStarts.readable, rfl⟩]
    refine Fallible.run_bind_eq_ok_iff.mpr ⟨token, _, hLoad, ?_⟩
    refine Fallible.run_seq_eq_ok_iff.mpr
      ⟨_, run_installSignalHandlers_eq_ok_iff.mpr ⟨hStarts.sigterm, hStarts.sigint, rfl⟩, ?_⟩
    exact run_daemon_eq_ok_iff.mpr ⟨w', hStarts.binds, hStarts.nonblocking,
      run_acceptLoop host settings _ _ _ _ _⟩

namespace Front

/-- A process of root's with nothing in its way. -/
def unhindered : (call : ServiceCall) → call.Reply
  | .host (.fs call) => call.failed
  | .host (.sshd _) => .ok ()
  | .geteuid => (0 : UInt32)
  | .isSocket _ => .error .notFound
  | .stopRequested => true
  | .accept => .error .wouldBlock
  | .sleep _ => ()
  | .register _ | .removeFile _ | .bind _ | .chown _ _ | .setMode _ _ | .setNonblocking => .ok ()

/-- A tree with a token file and a directory for the socket. -/
def provisioned : Fs :=
  ((((Fs.bare.put ["run".toList] ⟨.directory, 0o755, rootUid⟩).put
      ["mayfly".toList, "run".toList] ⟨.directory, 0o755, rootUid⟩).put
      ["etc".toList] ⟨.directory, 0o755, rootUid⟩).put
      ["mayfly-agent".toList, "etc".toList] ⟨.directory, 0o755, rootUid⟩).put
    ["helper.token".toList, "mayfly-agent".toList, "etc".toList]
      ⟨.regular (List.replicate 32 0x61), 0o640, rootUid⟩

/-- The token of this tree is 32 times the letter a. -/
def provisionedToken : Text := List.replicate 32 'a'

theorem starts_provisioned : ∃ w', Starts (fun _ => none)
    (Host.sandbox Host.noFailures fun _ _ _ => .ok ()) unhindered (World.start provisioned)
    provisionedToken w' := by
  refine ⟨_, rfl,
    ⟨⟨⟨.regular (List.replicate 32 0x61), 0o640, rootUid⟩, _, provisionedToken, ?_, rfl, rfl,
    ?_, ?_, ?_⟩, ?_⟩, fun _ _ => rfl, rfl, rfl, rfl, ⟨Or.inl rfl, Or.inl rfl, rfl, ?_, rfl⟩, rfl⟩
  · rfl
  · decide
  · decide
  · decide
  · decide
  · intro gid hGid
    cases hGid

theorem noSpecial_provisioned :
    Startup.NoSpecial (World.start provisioned).fs Startup.defaultTokenPath.path := by
  intro node hLookup
  have hFile : (World.start provisioned).fs.lookup false Startup.defaultTokenPath.path =
      .ok ⟨.regular (List.replicate 32 0x61), 0o640, rootUid⟩ := rfl
  cases hFile.symm.trans hLookup
  exact FileKind.noConfusion

/-- One connection with a request for a change, and then the stop. -/
def visit : Connection :=
  ⟨none, frame
    (Json.encodeObject
      (Request.mk protocolVersion provisionedToken .installSshdDropin none).members),
    true, true⟩

end Front

/-- The process comes up and handles the one connection. -/
theorem process_serves_unhindered :
    ∃ w', Program.run (Front.oracle (Host.sandbox Host.noFailures fun _ _ _ => .ok ()) unhindered)
        (Startup.run (fun _ => none) Codec.json 2).run ⟨World.start provisioned, [.ok visit]⟩ =
      (.ok ⟨Service.log
        ((HelperServer.fromEnv (fun _ => none) provisionedToken).serveConnection Codec.json
            (Host.sandbox Host.noFailures fun _ _ _ => .ok ())) w' [visit], true⟩,
        ⟨Service.final
          ((HelperServer.fromEnv (fun _ => none) provisionedToken).serveConnection Codec.json
            (Host.sandbox Host.noFailures fun _ _ _ => .ok ())) w' [visit], []⟩) := by
  obtain ⟨w', hStarts⟩ := starts_provisioned
  exact ⟨w', (process_serves _ _ _ _ _ _ _ _ _ noSpecial_provisioned).mpr
    ⟨provisionedToken, w', hStarts, rfl, rfl⟩⟩

end MayflyHelper
