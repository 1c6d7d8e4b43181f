import MayflyHelper.Json.Record
import MayflyHelper.Server

/-! The two messages as compact JSON. Variants are tagged in snake case, absent
optional fields are left out, and whatever cannot be read is one error. -/
namespace MayflyHelper

namespace Operation

def tag : Operation → Text
  | .ping => "ping".toList
  | .ensureDirectories => "ensure_directories".toList
  | .installSshdDropin => "install_sshd_dropin".toList
  | .applyTrustedCaKeys => "apply_trusted_ca_keys".toList
  | .verifyState => "verify_state".toList

def all : List Operation :=
  [.ping, .ensureDirectories, .installSshdDropin, .applyTrustedCaKeys, .verifyState]

def ofTag (t : Text) : Option Operation := all.find? (fun op => op.tag == t)

/-- An operation is told by its tag. -/
theorem ofTag_tag (op : Operation) : ofTag op.tag = some op := by
  cases op <;> decide

end Operation

namespace Outcome

def tag : Outcome → Text
  | .ok => "ok".toList
  | .applied => "applied".toList
  | .rolledBack => "rolled_back".toList
  | .notModified => "not_modified".toList
  | .unhealthy => "unhealthy".toList

def all : List Outcome := [.ok, .applied, .rolledBack, .notModified, .unhealthy]

def ofTag (t : Text) : Option Outcome := all.find? (fun outcome => outcome.tag == t)

/-- So is an outcome. -/
theorem ofTag_tag (outcome : Outcome) : ofTag outcome.tag = some outcome := by
  cases outcome <;> decide

end Outcome

/-- Decode a message, with one error for whatever is wrong with it. -/
def decodeMessage {Message : Type} (read : Json.Value → Option Message) (bytes : Bytes) :
    Except Error Message :=
  match (Json.parse bytes).bind read with
  | some message => .ok message
  | none => .error .helperProtocol

namespace Request

def fieldNames : List Text :=
  ["protocol_version".toList, "token".toList, "op".toList, "content".toList]

def members (request : Request) : List Json.Member :=
  [Json.Member.unsigned "protocol_version".toList request.protocolVersion.toNat,
    Json.Member.text "token".toList request.token,
    Json.Member.text "op".toList request.op.tag] ++
    (request.content.map (Json.Member.text "content".toList)).toList

def ofJson (json : Json.Value) : Option Request := do
  let found ← Json.entries fieldNames json
  let version ← Json.required (Json.asUnsigned (2 ^ 32)) "protocol_version".toList found
  let token ← Json.required Json.asText "token".toList found
  let op ← Json.required (Json.asVariant Operation.ofTag) "op".toList found
  let content ← Json.optional Json.asText "content".toList found
  some { protocolVersion := UInt32.ofNat version, token, op, content }

end Request

namespace Response

def fieldNames : List Text :=
  ["ok".toList, "outcome".toList, "helper_version".toList, "detail".toList]

def members (response : Response) : List Json.Member :=
  [Json.Member.bool "ok".toList response.ok,
    Json.Member.text "outcome".toList response.outcome.tag] ++
    (response.helperVersion.map (Json.Member.text "helper_version".toList)).toList ++
    (response.detail.map (Json.Member.text "detail".toList)).toList

def ofJson (json : Json.Value) : Option Response := do
  let found ← Json.entries fieldNames json
  let ok ← Json.required Json.asBool "ok".toList found
  let outcome ← Json.required (Json.asVariant Outcome.ofTag) "outcome".toList found
  let helperVersion ← Json.optional Json.asText "helper_version".toList found
  let detail ← Json.optional Json.asText "detail".toList found
  some { ok, outcome, helperVersion, detail }

end Response

/-- Serialise a request to compact JSON; this cannot fail. -/
def encodeRequest (request : Request) : Except Error Bytes :=
  .ok (Json.encodeObject request.members)

def decodeRequest (bytes : Bytes) : Except Error Request := decodeMessage Request.ofJson bytes

/-- Serialise a response to compact JSON; this cannot fail. -/
def encodeResponse (response : Response) : Except Error Bytes :=
  .ok (Json.encodeObject response.members)

def decodeResponse (bytes : Bytes) : Except Error Response := decodeMessage Response.ofJson bytes

/-- The encoding the server uses. -/
def Codec.json : Codec where
  decodeRequest := MayflyHelper.decodeRequest
  encodeResponse := MayflyHelper.encodeResponse

/-- A message whose members are read back as its fields is decoded from what
was encoded. -/
theorem decodeMessage_encodeObject {Message : Type} {read : Json.Value → Option Message}
    {list : List Json.Member} {message : Message} (hNe : list ≠ [])
    (hRead :
      read (.object (list.map (fun member => (Json.escape member.key, member.read)))) =
        some message) :
    decodeMessage read (Json.encodeObject list) = .ok message := by
  rw [decodeMessage, Json.parse_encodeObject list hNe, Option.bind_some, hRead]

/-- The members of a request are read back as its fields. -/
theorem Request.ofJson_members (request : Request) :
    Request.ofJson
      (.object (request.members.map (fun member => (Json.escape member.key, member.read)))) =
      some request := by
  obtain ⟨version, token, op, content⟩ := request
  have hVersion := Json.asUnsigned_encodeNat version.toNat_lt
  have hOp : Json.asVariant Operation.ofTag (.string (Json.escape op.tag)) = some op := by
    rw [Json.asVariant_escape, Operation.ofTag_tag]
  rw [Request.ofJson, Json.entries_encodeObject]
  cases content with
  | none =>
      simp [members, Json.Member.unsigned, Json.Member.text, Json.required,
        Json.optional, Json.lookup,
        hVersion, hOp]
  | some content =>
      simp [members, Json.Member.unsigned, Json.Member.text, Json.required,
        Json.optional, Json.lookup,
        hVersion, hOp]

/-- So are those of a response. -/
theorem Response.ofJson_members (response : Response) :
    Response.ofJson
      (.object (response.members.map (fun member => (Json.escape member.key, member.read)))) =
      some response := by
  obtain ⟨ok, outcome, helperVersion, detail⟩ := response
  have hOutcome : Json.asVariant Outcome.ofTag (.string (Json.escape outcome.tag)) =
    some outcome := by
    rw [Json.asVariant_escape, Outcome.ofTag_tag]
  rw [Response.ofJson, Json.entries_encodeObject]
  cases helperVersion with
  | none =>
      cases detail <;> simp [members, Json.Member.bool, Json.Member.text,
        Json.required, Json.optional,
        Json.lookup, Json.asBool, hOutcome]
  | some version =>
      cases detail <;> simp [members, Json.Member.bool, Json.Member.text,
        Json.required, Json.optional,
        Json.lookup, Json.asBool, hOutcome]

/-- Every request survives the wire. -/
theorem decodeRequest_encodeRequest (request : Request) :
    ∃ body, encodeRequest request = .ok body ∧ decodeRequest body = .ok request :=
  ⟨_, rfl, decodeMessage_encodeObject (by simp [Request.members]) request.ofJson_members⟩

/-- Every response does. -/
theorem decodeResponse_encodeResponse (response : Response) :
    ∃ body, encodeResponse response = .ok body ∧ decodeResponse body = .ok response :=
  ⟨_, rfl, decodeMessage_encodeObject (by simp [Response.members]) response.ofJson_members⟩

/-- White space, escapes and members nobody asked for make no difference. -/
example : decodeRequest (Text.asBytes
    "\x7b \"x\":[1e3,\x7b\x7d],\n\"op\":\"ping\", \"token\":\"a\\u0062\\n\", \"protocol_version\": 1\x7d ".toList) =
    .ok ⟨1, "ab\n".toList, .ping, none⟩ := by
  decide +kernel

end MayflyHelper
