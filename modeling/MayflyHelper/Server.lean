import MayflyHelper.Ops

/-! The socket server: reading one request per connection, the three-factor
authentication, and start-up configuration from the environment. Audit lines,
the request counter and the accept loop's timing are not modelled. -/
namespace MayflyHelper

open OracleProgram

/-- The JSON encoding of the two messages, which is the business of
`serde_json`. -/
structure Codec where
  decodeRequest : Bytes → Except Error Request
  encodeResponse : Response → Except Error Bytes

structure HelperServer where
  token : Text
  ops : OpsConfig
  peerPolicy : PeerPolicy

/-- An accepted connection: what the kernel says about the peer, what it
sends, and whether the socket options and the answer go through. -/
structure Connection where
  peer : Option PeerCred
  inbound : Bytes
  timeoutsSet : Bool
  writable : Bool

/-- What came of a connection: the answer decided on, whether or not it could
be sent, the bytes written for it, and the part of the inbound stream that was
not consumed. -/
structure Handled where
  result : Except Error Unit
  response : Option Response
  outbound : Bytes
  unread : Bytes

namespace HelperServer

variable (server : HelperServer)

/-- The reasons not to dispatch, in the order they are tried: peer-uid
pinning, protocol version, capability token. -/
def rejection (peer : Option PeerCred) (request : Request) : Option Response :=
  match peer with
  | some cred =>
      if (server.peerPolicy.authorize cred).isOk then checkRequest
      else some (Response.failure .unhealthy "peer not authorized".toList)
  | none =>
      if server.peerPolicy.isEnforced then
        some (Response.failure .unhealthy "peer credentials unavailable".toList)
      else checkRequest
where
  checkRequest : Option Response :=
    if request.protocolVersion ≠ protocolVersion then
      some (Response.failure .unhealthy "unsupported protocol version".toList)
    else if !constantTimeEq (Text.asBytes request.token) (Text.asBytes server.token) then
      some (Response.failure .unhealthy "unauthenticated".toList)
    else none

def evaluate (peer : Option PeerCred) (request : Request) : HostProgram Response :=
  match server.rejection peer request with
  | some response => pure response
  | none => Ops.dispatch server.ops request

variable (codec : Codec)

/-- Read and decode one frame; the second component is what is left of the
stream. -/
def readRequest (stream : Bytes) : Except Error Request × Bytes :=
  match readFrame stream with
  | (.error err, rest) => (.error err, rest)
  | (.ok body, rest) =>
      if body.length > maxBodyBytes then (.error .helperProtocol, rest)
      else (codec.decodeRequest body, rest)

/-- Encode an answer and write it as one frame. -/
def reply (connection : Connection) (response : Response) (unread : Bytes) : Handled :=
  match codec.encodeResponse response with
  | .error err => ⟨.error err, some response, [], unread⟩
  | .ok body =>
      match writeFrame body with
      | .error err => ⟨.error err, some response, [], unread⟩
      | .ok frame =>
          if connection.writable then ⟨.ok (), some response, frame, unread⟩
          else ⟨.error .helperUnavailable, some response, [], unread⟩

/-- Read one request, authenticate, dispatch and reply. Without its timeouts a
socket is dropped unread. -/
def handleConnection (connection : Connection) : HostProgram Handled :=
  if !connection.timeoutsSet then pure ⟨.error (.io .other), none, [], connection.inbound⟩
  else do
    let received := readRequest codec connection.inbound
    let response ← match received.1 with
      | .ok request => server.evaluate connection.peer request
      | .error _ => pure (Response.failure .unhealthy "protocol error".toList)
    pure (reply codec connection response received.2)

end HelperServer

/-- The process environment, as bytes: a value need not be valid UTF-8. -/
abbrev Environment := Text → Option Bytes

/-- `std::env::var(name).ok()`: a value that is no UTF-8 counts as unset. -/
def Environment.var (environment : Environment) (name : Text) : Option Text :=
  (environment name).bind Text.fromUtf8

def allowedUidVariable : Text := "MAYFLY_HELPER_ALLOWED_UID".toList

/-- The uid-pinning policy. A value that does not parse counts as unset. -/
def peerPolicy (environment : Environment) : PeerPolicy :=
  match (environment.var allowedUidVariable).bind
      (fun value => Text.parseUnsigned (2 ^ 32) (Text.trim value)) with
  | some uid => PeerPolicy.enforced [UInt32.ofNat uid]
  | none => PeerPolicy.unenforced

def OpsConfig.fromEnv (environment : Environment) : OpsConfig :=
  { trustedCaPath := ((environment.var "MAYFLY_HELPER_TRUSTED_CA_PATH".toList).map PathBuf.mk).getD
      OpsConfig.default.trustedCaPath
    dropinPath := ((environment.var "MAYFLY_HELPER_DROPIN_PATH".toList).map PathBuf.mk).getD
      OpsConfig.default.dropinPath
    mainSshdConfig :=
      ((environment.var "MAYFLY_HELPER_MAIN_SSHD_CONFIG".toList).map PathBuf.mk).getD
      OpsConfig.default.mainSshdConfig }

/-- The server `run` builds once the token is loaded. -/
def HelperServer.fromEnv (environment : Environment) (token : Text) : HelperServer :=
  { token, ops := OpsConfig.fromEnv environment, peerPolicy := MayflyHelper.peerPolicy environment }

end MayflyHelper
