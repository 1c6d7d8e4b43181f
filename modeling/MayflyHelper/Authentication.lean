import MayflyHelper.Framing
import MayflyHelper.Semantics.Service
import MayflyHelper.Server

/-! Who is served. The three factors are stated as the documentation states
them and are shown to be what `evaluate` decides. Connections that miss one
of them leave no trace, so they can be deleted from any session. -/
namespace MayflyHelper

open OracleProgram

/-- Pinning is off, or the credential is readable and its uid is listed or
root. -/
def PeerPolicy.Admits (policy : PeerPolicy) (peer : Option PeerCred) : Prop :=
  policy.isEnforced = false ∨ ∃ cred ∈ peer, cred.uid ∈ policy.allowedUids ∨ cred.uid = 0

instance (policy : PeerPolicy) (peer : Option PeerCred) : Decidable (policy.Admits peer) :=
  inferInstanceAs (Decidable (_ ∨ _))

theorem PeerPolicy.admits_none (policy : PeerPolicy) :
    policy.Admits none ↔ policy.isEnforced = false := by
  simp [Admits]

/-- An enforced policy lists root, so `authorize` need not test for it. -/
theorem PeerPolicy.admits_some (policy : PeerPolicy) (cred : PeerCred) :
    policy.Admits (some cred) ↔ (policy.authorize cred).isOk = true := by
  rw [authorize_isOk, Admits]
  constructor
  · rintro (hOff | ⟨found, hFound, hUid | hRoot⟩)
    · exact Or.inl hOff
    · cases hFound
      exact Or.inr hUid
    · cases hFound
      cases hOn : policy.isEnforced with
      | false => exact Or.inl rfl
      | true => exact Or.inr (hRoot ▸ policy.root_allowed hOn)
  · rintro (hOff | hUid)
    · exact Or.inl hOff
    · exact Or.inr ⟨cred, rfl, Or.inl hUid⟩

namespace HelperServer

variable {server : HelperServer} {peer : Option PeerCred} {request : Request}

/-- The three factors: peer, version and token, byte for byte. -/
structure Authenticates (server : HelperServer) (peer : Option PeerCred) (request : Request) :
    Prop where
  peer : server.peerPolicy.Admits peer
  version : request.protocolVersion = protocolVersion
  token : Text.asBytes request.token = Text.asBytes server.token

instance : Decidable (server.Authenticates peer request) :=
  decidable_of_iff
    (server.peerPolicy.Admits peer ∧ request.protocolVersion = protocolVersion ∧
      Text.asBytes request.token = Text.asBytes server.token)
    ⟨fun ⟨hPeer, hVersion, hToken⟩ => ⟨hPeer, hVersion, hToken⟩,
      fun ⟨hPeer, hVersion, hToken⟩ => ⟨hPeer, hVersion, hToken⟩⟩

/-- The peer is looked at first, whatever the request says. -/
theorem rejection_of_not_admitted (h : ¬server.peerPolicy.Admits peer) (request : Request) :
    ∃ detail, server.rejection peer request = some (Response.failure .unhealthy detail) := by
  unfold rejection
  cases peer with
  | none =>
      rw [PeerPolicy.admits_none] at h
      simp [h]
  | some cred =>
      rw [PeerPolicy.admits_some] at h
      simp [h]

theorem rejection_of_admitted (h : server.peerPolicy.Admits peer) (request : Request) :
    server.rejection peer request = rejection.checkRequest server request := by
  unfold rejection
  cases peer with
  | none =>
      rw [PeerPolicy.admits_none] at h
      simp [h]
  | some cred =>
      rw [PeerPolicy.admits_some] at h
      simp [h]

theorem rejection_cases (server : HelperServer) (peer : Option PeerCred) (request : Request) :
    (server.rejection peer request = none ∧ server.Authenticates peer request) ∨
      (∃ detail, server.rejection peer request = some (Response.failure .unhealthy detail)) ∧
        ¬server.Authenticates peer request := by
  by_cases hPeer : server.peerPolicy.Admits peer
  · rw [rejection_of_admitted hPeer, rejection.checkRequest]
    by_cases hVersion : request.protocolVersion = protocolVersion
    · by_cases hToken : Text.asBytes request.token = Text.asBytes server.token
      · refine Or.inl ⟨?_, hPeer, hVersion, hToken⟩
        rw [if_neg (not_not.mpr hVersion), (constantTimeEq_iff _ _).mpr hToken]
        rfl
      · refine Or.inr ⟨?_, fun h => hToken h.token⟩
        have hDiffer := mt (constantTimeEq_iff _ _).mp hToken
        rw [Bool.not_eq_true] at hDiffer
        rw [if_neg (not_not.mpr hVersion), hDiffer]
        exact ⟨_, rfl⟩
    · refine Or.inr ⟨?_, fun h => hVersion h.version⟩
      rw [if_pos hVersion]
      exact ⟨_, rfl⟩
  · exact Or.inr ⟨rejection_of_not_admitted hPeer request, fun h => hPeer h.peer⟩

/-- `evaluate` decides the three factors. -/
theorem rejection_eq_none_iff :
    server.rejection peer request = none ↔ server.Authenticates peer request := by
  rcases server.rejection_cases peer request with ⟨hNone, hAuth⟩ | ⟨⟨detail, hSome⟩, hNot⟩
  · exact iff_of_true hNone hAuth
  · exact iff_of_false (by simp [hSome]) hNot

/-- A request that is not dispatched is refused as unhealthy. -/
theorem rejection_eq_some {response : Response}
    (h : server.rejection peer request = some response) :
    response.ok = false ∧ response.outcome = .unhealthy := by
  rcases server.rejection_cases peer request with ⟨hNone, -⟩ | ⟨⟨detail, hSome⟩, -⟩
  · simp [hNone] at h
  · rw [hSome, Option.some.injEq] at h
    subst h
    exact ⟨rfl, rfl⟩

theorem evaluate_of_not_authenticates (h : ¬server.Authenticates peer request) :
    ∃ detail, server.evaluate peer request = pure (Response.failure .unhealthy detail) := by
  rcases server.rejection_cases peer request with ⟨-, hAuth⟩ | ⟨⟨detail, hSome⟩, -⟩
  · exact absurd hAuth h
  · exact ⟨detail, by rw [evaluate, hSome]⟩

theorem evaluate_of_authenticates (h : server.Authenticates peer request) :
    server.evaluate peer request = Ops.dispatch server.ops request := by
  rw [evaluate, rejection_eq_none_iff.mpr h]

end HelperServer

/-- The request a connection yields. Nothing is read from a socket whose
timeouts cannot be set. -/
def Connection.request (codec : Codec) (connection : Connection) : Option Request :=
  if connection.timeoutsSet then (HelperServer.readRequest codec connection.inbound).1.toOption
  else none

namespace HelperServer

variable (server : HelperServer) (codec : Codec) (host : Host)

def authenticated (connection : Connection) : Bool :=
  match connection.request codec with
  | some request => decide (server.Authenticates connection.peer request)
  | none => false

/-- The helper as a service of connections. -/
def serveConnection (w : World) (connection : Connection) : Handled × World :=
  (server.handleConnection codec connection).run host.oracle w

/-- The connection is answered with `response`. That goes out as one frame if
its encoding is within the cap and the socket takes it. -/
structure Answered (connection : Connection) (response : Response) (handled : Handled) : Prop where
  decided : handled.response = some response
  sent : ∀ body, codec.encodeResponse response = .ok body → body.length ≤ maxBodyBytes →
    connection.writable = true → handled.result = .ok () ∧ handled.outbound = frame body

variable {server codec host}

theorem reply_answered (connection : Connection) (response : Response) (unread : Bytes) :
    Answered codec connection response (reply codec connection response unread) where
  decided := by
    unfold reply
    split
    · rfl
    split
    · rfl
    split <;> rfl
  sent := by
    intro body hEncode hLength hWritable
    simp only [reply, hEncode, writeFrame_of_le hLength, hWritable, if_true, and_self]

/-- Every request that arrives is evaluated, and the answer is sent. -/
theorem serveConnection_of_request {connection : Connection} {request : Request}
    (h : connection.request codec = some request) (w : World) :
    server.serveConnection codec host w connection =
      (reply codec connection ((server.evaluate connection.peer request).run host.oracle w).1
          (readRequest codec connection.inbound).2,
        ((server.evaluate connection.peer request).run host.oracle w).2) := by
  unfold Connection.request at h
  split at h
  case isFalse => cases h
  case isTrue hSet =>
    cases hRead : (readRequest codec connection.inbound).1 with
    | error err => simp [hRead, Except.toOption] at h
    | ok received =>
        simp only [hRead, Except.toOption, Option.some.injEq] at h
        subst h
        simp [serveConnection, handleConnection, hSet, hRead]

/-- Without a request there is nothing but a protocol error to report. -/
theorem serveConnection_of_no_request {connection : Connection}
    (h : connection.request codec = none)
    (w : World) :
    server.serveConnection codec host w connection =
      (if connection.timeoutsSet then
          reply codec connection (Response.failure .unhealthy "protocol error".toList)
            (readRequest codec connection.inbound).2
        else ⟨.error (.io .other), none, [], connection.inbound⟩, w) := by
  unfold Connection.request at h
  split at h
  case isFalse hSet => simp [serveConnection, handleConnection, hSet]
  case isTrue hSet =>
    cases hRead : (readRequest codec connection.inbound).1 with
    | error err => simp [serveConnection, handleConnection, hSet, hRead]
    | ok received => simp [hRead, Except.toOption] at h

/-- A connection that is not authenticated leaves the world as it is. -/
theorem serveConnection_idle {connection : Connection}
    (h : server.authenticated codec connection = false) (w : World) :
    (server.serveConnection codec host w connection).2 = w ∧
      if connection.timeoutsSet then
        ∃ response, response.ok = false ∧
          Answered codec connection response (server.serveConnection codec host w connection).1
      else (server.serveConnection codec host w connection).1.response = none ∧
        (server.serveConnection codec host w connection).1.outbound = [] := by
  unfold authenticated at h
  cases hRequest : connection.request codec with
  | none =>
      rw [serveConnection_of_no_request hRequest]
      refine ⟨rfl, ?_⟩
      cases hSet : connection.timeoutsSet with
      | true => exact ⟨_, rfl, reply_answered ..⟩
      | false => exact ⟨rfl, rfl⟩
  | some request =>
      simp only [hRequest, decide_eq_false_iff_not] at h
      obtain ⟨detail, hEvaluate⟩ := evaluate_of_not_authenticates h
      rw [serveConnection_of_request hRequest, hEvaluate]
      refine ⟨rfl, ?_⟩
      cases hSet : connection.timeoutsSet with
      | true => exact ⟨_, rfl, reply_answered ..⟩
      | false => simp [Connection.request, hSet] at hRequest

/-- An authenticated connection is dispatched. -/
theorem serveConnection_dispatches {connection : Connection}
    (h : server.authenticated codec connection = true) (w : World) :
    ∃ request, connection.request codec = some request ∧
      Answered codec connection ((Ops.dispatch server.ops request).run host.oracle w).1
        (server.serveConnection codec host w connection).1 ∧
      (server.serveConnection codec host w connection).2 =
        ((Ops.dispatch server.ops request).run host.oracle w).2 := by
  unfold authenticated at h
  cases hRequest : connection.request codec with
  | none => simp [hRequest] at h
  | some request =>
      simp only [hRequest, decide_eq_true_eq] at h
      rw [serveConnection_of_request hRequest, evaluate_of_authenticates h]
      exact ⟨request, rfl, reply_answered .., rfl⟩

end HelperServer

/-- Connections that are not authenticated are sent a not-ok answer (or
dropped, when the socket options fail), change no file and run no `sshd`
command. They can be deleted from any session without a difference to the
world, to the commands run in it, or to what the other connections get. Every
authenticated connection is dispatched and sent what comes of that. -/
theorem unauthenticated_connections_leave_no_trace (server : HelperServer) (codec : Codec)
    (host : Host)
    (w : World) (connections : List Connection) :
    (∀ (v : World) (connection : Connection), server.authenticated codec connection = false →
      (server.serveConnection codec host v connection).2 = v ∧
        if connection.timeoutsSet then
          ∃ response, response.ok = false ∧
            HelperServer.Answered codec connection response
              (server.serveConnection codec host v connection).1
        else (server.serveConnection codec host v connection).1.response = none ∧
          (server.serveConnection codec host v connection).1.outbound = []) ∧
      Service.final (server.serveConnection codec host) w
          (connections.filter (server.authenticated codec)) =
        Service.final (server.serveConnection codec host) w connections ∧
      Service.log (server.serveConnection codec host) w
          (connections.filter (server.authenticated codec)) =
        (Service.log (server.serveConnection codec host) w connections).filter
          (fun entry => server.authenticated codec entry.1) ∧
      ∀ (v : World) (connection : Connection), server.authenticated codec connection = true →
        ∃ request, connection.request codec = some request ∧
          HelperServer.Answered codec connection
            ((Ops.dispatch server.ops request).run host.oracle v).1
            (server.serveConnection codec host v connection).1 ∧
          (server.serveConnection codec host v connection).2 =
            ((Ops.dispatch server.ops request).run host.oracle v).2 := by
  have hIdle : ∀ (v : World) (connection : Connection),
      server.authenticated codec connection = false →
      (server.serveConnection codec host v connection).2 = v :=
    fun v connection h => (HelperServer.serveConnection_idle h v).1
  exact ⟨fun v connection h => HelperServer.serveConnection_idle h v,
    Service.final_filter hIdle w connections, Service.log_filter hIdle w connections,
    fun v connection h => HelperServer.serveConnection_dispatches h v⟩

end MayflyHelper
