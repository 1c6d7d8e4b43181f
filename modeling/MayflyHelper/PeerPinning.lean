import MayflyHelper.Authentication
import MayflyHelper.Sandbox
import MayflyHelper.Text.Numeral

/-! The promise of uid pinning: a server that was configured with a uid serves
nobody else but root, and decides so before it looks at what the peer sends.
Both parts are missed in the code, the first by a configured value that does
not parse, the second by every peer that sends anything. -/
namespace MayflyHelper

open OracleProgram

namespace HelperServer

/-- A peer other than root is served only when `value` is, up to white space,
a numeral of its uid. -/
def PinnedTo (server : HelperServer) (value : Bytes) : Prop :=
  ∀ (cred : PeerCred) (request : Request), cred.uid ≠ 0 →
    server.rejection (some cred) request = none →
      ∃ text, Text.fromUtf8 value = some text ∧ Text.IsNumeralOf (Text.trim text) cred.uid.toNat

/-- The request that passes version and token. -/
def authenticRequest (server : HelperServer) (op : Operation) : Request :=
  { protocolVersion, token := server.token, op, content := none }

theorem rejection_unenforced {server : HelperServer} (h : server.peerPolicy.isEnforced = false)
    (cred : PeerCred) (op : Operation) :
    server.rejection (some cred) (server.authenticRequest op) = none :=
  rejection_eq_none_iff.mpr ⟨Or.inl h, rfl, rfl⟩

end HelperServer

/-- The uid a value of the variable names. -/
def NamesUid (value : Bytes) (uid : Nat) : Prop :=
  ∃ text, Text.fromUtf8 value = some text ∧ Text.IsNumeralOf (Text.trim text) uid ∧ uid < 2 ^ 32

section Policy

variable {environment : Environment} {value : Bytes}
  (hSet : environment allowedUidVariable = some value)

include hSet

theorem peerPolicy_of_namesUid {uid : Nat} (h : NamesUid value uid) :
    peerPolicy environment = PeerPolicy.enforced [UInt32.ofNat uid] := by
  obtain ⟨text, hText, hNumeral, hBound⟩ := h
  have hParse := (Text.parseUnsigned_eq_some (by decide)).mpr ⟨hNumeral, hBound⟩
  simp only [peerPolicy, Environment.var, hSet, Option.bind_some, hText, hParse]

/-- Every other value, set as it is, counts as unset. -/
theorem peerPolicy_of_not_namesUid (h : ¬∃ uid, NamesUid value uid) :
    peerPolicy environment = PeerPolicy.unenforced := by
  unfold peerPolicy Environment.var
  rw [hSet, Option.bind_some]
  cases hText : Text.fromUtf8 value with
  | none => rfl
  | some text =>
      rw [Option.bind_some]
      cases hParse : Text.parseUnsigned (2 ^ 32) (Text.trim text) with
      | none => rfl
      | some uid =>
          exact absurd ⟨uid, text, hText, (Text.parseUnsigned_eq_some (by decide)).mp hParse⟩ h

end Policy

/-- A server configured with a value for the uid is pinned to it exactly when
the value is UTF-8 and, up to white space, the numeral of a 32-bit number.
Any other value turns pinning off. -/
theorem pinnedTo_iff_namesUid (environment : Environment) (token : Text) (value : Bytes)
    (hSet : environment allowedUidVariable = some value) :
    (HelperServer.fromEnv environment token).PinnedTo value ↔ ∃ uid, NamesUid value uid := by
  constructor
  · intro hPinned
    by_contra hNot
    have hPolicy : (HelperServer.fromEnv environment token).peerPolicy.isEnforced = false := by
      rw [HelperServer.fromEnv, peerPolicy_of_not_namesUid hSet hNot]
      rfl
    -- Whoever asks is served, so uid 1 is, which the value does not name.
    obtain ⟨text, hText, hNumeral⟩ := hPinned ⟨1⟩ _ (by decide)
      (HelperServer.rejection_unenforced hPolicy ⟨1⟩ .ping)
    exact hNot ⟨1, text, hText, hNumeral, by decide⟩
  · rintro ⟨uid, text, hText, hNumeral, hBound⟩ cred request hUser hServed
    refine ⟨text, hText, ?_⟩
    have hPeer := (HelperServer.rejection_eq_none_iff.mp hServed).peer
    rw [PeerPolicy.admits_some, PeerPolicy.authorize_isOk, HelperServer.fromEnv,
      peerPolicy_of_namesUid hSet ⟨text, hText, hNumeral, hBound⟩, PeerPolicy.mem_enforced] at hPeer
    rcases hPeer with hOff | hUid | hRoot
    · cases hOff
    · rw [List.mem_singleton] at hUid
      rw [hUid, UInt32.toNat_ofNat', Nat.mod_eq_of_lt hBound]
      exact hNumeral
    · exact absurd hRoot hUser

/-- An environment with nothing but the uid variable. -/
def Environment.allowing (value : Bytes) : Environment :=
  fun name => if name = allowedUidVariable then some value else none

theorem pinnedTo_iff_namesUid_padded :
    (HelperServer.fromEnv (.allowing (Text.asBytes " +1000\n".toList)) "token".toList).PinnedTo
      (Text.asBytes " +1000\n".toList) :=
  (pinnedTo_iff_namesUid _ _ _ rfl).mpr
    ⟨1000, " +1000\n".toList, Text.fromUtf8_asBytes _,
      ⟨"1000".toList, Or.inr (by decide), by decide, by decide⟩, by decide⟩

/-- A stray letter after the uid, and uid 7 is served. -/
theorem not_pinnedTo_stray_letter :
    ¬(HelperServer.fromEnv (.allowing (Text.asBytes "1000x".toList)) "token".toList).PinnedTo
      (Text.asBytes "1000x".toList) := by
  intro hPinned
  obtain ⟨text, hText, hNumeral⟩ := hPinned ⟨7⟩ ⟨protocolVersion, "token".toList, .ping, none⟩
    (by decide) (by decide)
  rw [Text.fromUtf8_asBytes, Option.some.injEq] at hText
  subst hText
  have hParse := (Text.parseUnsigned_eq_some (by decide)).mpr ⟨hNumeral, UInt32.toNat_lt _⟩
  exact absurd hParse (by decide)

theorem readExact_length_le (count : Nat) (stream : Bytes) :
    (readExact count stream).2.length ≤ stream.length := by
  unfold readExact
  split <;> simp

/-- Asking for something consumes at least one byte of a stream that has one. -/
theorem readExact_length_lt {count : Nat} (hCount : 0 < count) {stream : Bytes}
    (hStream : stream ≠ []) :
    (readExact count stream).2.length < stream.length := by
  have hLength := List.length_pos_of_ne_nil hStream
  unfold readExact
  split
  · simp only [List.length_drop]
    omega
  · exact hLength

theorem readFrame_length_le (stream : Bytes) :
    (readFrame stream).2.length ≤ (readExact 4 stream).2.length := by
  unfold readFrame
  rcases hHeader : readExact 4 stream with ⟨_ | header, rest⟩
  · exact le_rfl
  · dsimp only
    split
    · exact le_rfl
    · have hBody := readExact_length_le (fromBeBytes header) rest
      rcases hRead : readExact (fromBeBytes header) rest with
        ⟨_ | body, last⟩ <;> rwa [hRead] at hBody

theorem readRequest_unread (codec : Codec) (stream : Bytes) :
    (HelperServer.readRequest codec stream).2 = (readFrame stream).2 := by
  unfold HelperServer.readRequest
  rcases readFrame stream with ⟨_ | body, rest⟩
  · rfl
  · dsimp only
    split <;> rfl

/-- The frame header is read from every stream that is not empty. -/
theorem readRequest_unread_eq_iff (codec : Codec) (stream : Bytes) :
    (HelperServer.readRequest codec stream).2 = stream ↔ stream = [] := by
  rw [readRequest_unread]
  constructor
  · intro hUnread
    by_contra hStream
    have hHeader := readExact_length_lt (by decide : 0 < 4) hStream
    have hFrame := readFrame_length_le stream
    rw [hUnread] at hFrame
    omega
  · rintro rfl
    rfl

namespace HelperServer

variable (server : HelperServer) (codec : Codec) (host : Host) (w : World)

/-- The connection, had the peer sent `inbound`. -/
def handled (connection : Connection) (inbound : Bytes) : Handled :=
  (server.serveConnection codec host w { connection with inbound }).1

/-- What the peer sends is neither consumed nor of any influence on the
refusal it gets. -/
def RefusesUnread (connection : Connection) (first second : Bytes) : Prop :=
  (server.handled codec host w connection first).unread = first ∧
    (server.handled codec host w connection second).unread = second ∧
    (server.handled codec host w connection first).outbound =
      (server.handled codec host w connection second).outbound ∧
    ∃ response, response.ok = false ∧
      (server.handled codec host w connection first).response = some response ∧
      (server.handled codec host w connection second).response = some response

variable {server codec host w}

@[simp] theorem reply_unread (connection : Connection) (response : Response) (unread : Bytes) :
    (reply codec connection response unread).unread = unread := by
  unfold reply
  split
  · rfl
  split
  · rfl
  split <;> rfl

theorem handled_unread {connection : Connection} (hSet : connection.timeoutsSet = true)
    (inbound : Bytes) :
    (server.handled codec host w connection inbound).unread = (readRequest codec inbound).2 := by
  cases hRequest : { connection with inbound }.request codec with
  | none => rw [handled, serveConnection_of_no_request hRequest, if_pos hSet, reply_unread]
  | some request => rw [handled, serveConnection_of_request hRequest, reply_unread]

theorem handled_response_unset {connection : Connection} (hSet : connection.timeoutsSet = false)
    (inbound : Bytes) : (server.handled codec host w connection inbound).response = none := by
  simp [handled, serveConnection, handleConnection, hSet]

theorem handled_silent {connection : Connection} (hSet : connection.timeoutsSet = true) :
    (server.handled codec host w connection []).response =
      some (Response.failure .unhealthy "protocol error".toList) := by
  have hNone : { connection with inbound := [] }.request codec = none := by
    simp only [Connection.request, hSet, if_true]
    rfl
  rw [handled, serveConnection_of_no_request hNone, if_pos hSet]
  exact (reply_answered ..).decided

end HelperServer

/-- A peer is refused unread only if it sends nothing, whether or not pinning
would refuse it. -/
theorem refusesUnread_iff_silent (server : HelperServer) (codec : Codec) (host : Host) (w : World)
    (connection : Connection) (first second : Bytes) :
    server.RefusesUnread codec host w connection first second ↔
      connection.timeoutsSet = true ∧ first = [] ∧ second = [] := by
  constructor
  · rintro ⟨hFirst, hSecond, -, response, -, hResponse, -⟩
    have hSet : connection.timeoutsSet = true := by
      by_contra hUnset
      rw [HelperServer.handled_response_unset (by simpa using hUnset)] at hResponse
      cases hResponse
    rw [HelperServer.handled_unread hSet, readRequest_unread_eq_iff] at hFirst hSecond
    exact ⟨hSet, hFirst, hSecond⟩
  · rintro ⟨hSet, rfl, rfl⟩
    have hUnread : (server.handled codec host w connection []).unread = [] := by
      rw [HelperServer.handled_unread hSet, readRequest_unread_eq_iff]
    exact ⟨hUnread, hUnread, rfl, _, rfl, HelperServer.handled_silent hSet,
      HelperServer.handled_silent hSet⟩

/-- Uid 7 is refused by a server pinned to uid 1000, but not before the one
byte it sends is consumed. -/
theorem not_refusesUnread_one_byte :
    (HelperServer.fromEnv (.allowing (Text.asBytes "1000".toList))
      "token".toList).peerPolicy.isEnforced = true ∧
      ¬(HelperServer.fromEnv (.allowing (Text.asBytes "1000".toList))
        "token".toList).peerPolicy.Admits
        (some ⟨7⟩) ∧
      ¬∀ codec,
        (HelperServer.fromEnv (.allowing (Text.asBytes "1000".toList)) "token".toList).RefusesUnread
        codec (Host.sandbox Host.noFailures (fun _ _ _ => .ok ())) (World.start Fs.bare)
        ⟨some ⟨7⟩, [], true, true⟩ [] [0] := by
  refine ⟨by decide, by decide, fun h => ?_⟩
  obtain ⟨-, hUnread, -⟩ := h ⟨fun _ => .error .helperProtocol, fun _ => .error .helperProtocol⟩
  rw [HelperServer.handled_unread rfl] at hUnread
  exact absurd hUnread (by decide)

end MayflyHelper
