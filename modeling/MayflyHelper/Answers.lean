import MayflyHelper.Authentication
import MayflyHelper.DispatchRules
import MayflyHelper.Framing
import MayflyHelper.Sandbox

/-! Answers. Whatever arrives and whatever the host does, a connection gets one
frame with a response that hangs together and says nothing but one of a few
fixed sentences. -/
namespace MayflyHelper

open OracleProgram

/-- Every error there is. -/
def Error.all : List Error :=
  [.io .notFound, .io .other, .unexpectedSymlink, .insecureOwnership,
    .insecurePermissions, .invalidPath,
    .notRoot, .invalidTrustedCa .empty, .invalidTrustedCa .malformed,
      .invalidTrustedCa .disallowedAlgorithm,
    .invalidTrustedCa .invalidEncoding, .invalidTrustedCa .illegalCharacter, .helperUnavailable,
    .helperProtocol, .helperUnauthenticated, .peerCredUnavailable, .sshdValidationFailed,
    .sshdReloadFailed, .sshdInactive]

/-- The list of the errors is complete. -/
theorem Error.mem_all (err : Error) : err ∈ Error.all := by
  cases err with
  | io kind => cases kind <;> decide
  | invalidTrustedCa reason => cases reason <;> decide
  | _ => decide

/-- The details that are no error's message. -/
def refusals : List Text :=
  ["protocol error".toList, "peer not authorized".toList, "peer credentials unavailable".toList,
    "unsupported protocol version".toList, "unauthenticated".toList, "missing content".toList]

/-- What a response may give as its detail. -/
def fixedDetails : List Text := Error.all.map Error.display ++ refusals

theorem mem_fixedDetails_of_refusal {detail : Text} (h : detail ∈ refusals) :
    detail ∈ fixedDetails :=
  List.mem_append_right _ h

/-- What an error says is one of the fixed sentences. -/
theorem display_mem_fixedDetails (err : Error) : err.display ∈ fixedDetails :=
  List.mem_append_left _ (List.mem_map_of_mem err.mem_all)

/-- A literal is measured by its characters, not by its encoding. -/
theorem short_literal {bound : Nat} (l : Text) (h : '/' ∉ l ∧ l.length ≤ bound) :
    '/' ∉ (String.ofList l).toList ∧ (String.ofList l).toList.length ≤ bound := by
  rw [String.toList_ofList]
  exact h

theorem TrustedCaError.display_short (reason : TrustedCaError) :
    '/' ∉ reason.display ∧ reason.display.length ≤ 40 := by
  cases reason <;> exact short_literal _ (by decide)

/-- It is short and names no path. -/
theorem Error.display_short (err : Error) : '/' ∉ err.display ∧ err.display.length ≤ 80 := by
  cases err with
  | invalidTrustedCa reason =>
      have hPlain : '/' ∉ "invalid TrustedUserCAKeys entry: ".toList ∧
          "invalid TrustedUserCAKeys entry: ".toList.length ≤ 40 := short_literal _ (by decide)
      have hReason := reason.display_short
      constructor
      · exact fun hMem => (List.mem_append.mp hMem).elim hPlain.1 hReason.1
      · have hLength : (Error.invalidTrustedCa reason).display.length = _ := List.length_append
        omega
  | _ => exact short_literal _ (by decide)

/-- A sentence of the fixed kind, without a slash. -/
theorem fixedDetails_short : ∀ detail ∈ fixedDetails, '/' ∉ detail ∧ detail.length ≤ 80 := by
  intro detail hDetail
  rcases List.mem_append.mp hDetail with hError | hRefusal
  · obtain ⟨err, -, rfl⟩ := List.mem_map.mp hError
    exact err.display_short
  · simp only [refusals, List.mem_cons, List.not_mem_nil, or_false] at hRefusal
    rcases hRefusal with rfl | rfl | rfl | rfl | rfl | rfl <;> exact short_literal _ (by decide)

namespace Outcome

/-- The outcomes of a success. -/
def IsSuccess (outcome : Outcome) : Prop :=
  outcome = .ok ∨ outcome = .applied ∨ outcome = .notModified

end Outcome

/-- `ok`, the outcome and the detail agree, and there is nothing in the
response that depends on the request or the host but the choice. -/
structure Response.Coherent (response : Response) : Prop where
  outcome : response.ok = true ↔ response.outcome.IsSuccess
  detail : response.ok = true ↔ response.detail = none
  fixed : ∀ detail ∈ response.detail, detail ∈ fixedDetails
  version : ∀ version ∈ response.helperVersion, version = Ops.helperVersion

namespace Response

/-- Success and a good outcome come without a detail. -/
theorem coherent_success {outcome : Outcome} (h : outcome.IsSuccess) :
    (success outcome).Coherent where
  outcome := iff_of_true rfl h
  detail := iff_of_true rfl rfl
  fixed := fun _ hDetail => by cases hDetail
  version := fun _ hVersion => by cases hVersion

/-- A failure comes with one of the fixed sentences. -/
theorem coherent_failure {outcome : Outcome} {detail : Text}
    (h : outcome = .unhealthy ∨ outcome = .rolledBack)
    (hDetail : detail ∈ fixedDetails) : (failure outcome detail).Coherent where
  outcome := by
    rcases h with rfl | rfl <;> simp [failure, Outcome.IsSuccess]
  detail := by simp [failure]
  fixed := fun other hOther => by
    cases hOther
    exact hDetail
  version := fun _ hVersion => by cases hVersion

end Response

theorem Ops.toResponse_coherent (result : Except Error Unit) :
    (Ops.toResponse result .ok).Coherent := by
  cases result with
  | ok _ => exact Response.coherent_success (.inl rfl)
  | error err => exact Response.coherent_failure (.inl rfl) (display_mem_fixedDetails err)

/-- A writing operation that succeeds reports the write or that none was
needed. -/
theorem UpdateResult.outcome {host : Host} {config : OpsConfig} {w w' : World} {path : Path}
    {Current : Option Bytes → Prop} {contents : Bytes} {done outcome : Outcome}
    (h : UpdateResult host config w path Current contents done (.ok outcome, w')) :
    outcome = .notModified ∨ outcome = done := by
  cases h with
  | current => exact .inl rfl
  | exchanged _ _ _ _ _ _ _ _ hExchange => exact .inr hExchange.outcome

/-- The answer to an operation, whatever its result. -/
theorem answer_coherent {op : Operation} {result : Except Error Outcome}
    (h : ∀ outcome, result = .ok outcome → outcome.IsSuccess) : (answer op result).Coherent := by
  cases result with
  | ok outcome => exact Response.coherent_success (h outcome rfl)
  | error err =>
      refine Response.coherent_failure ?_ (display_mem_fixedDetails err)
      split
      · exact .inr rfl
      · exact .inl rfl

theorem coherent_pong : (⟨true, .ok, some Ops.helperVersion, none⟩ : Response).Coherent where
  outcome := iff_of_true rfl (.inl rfl)
  detail := iff_of_true rfl rfl
  fixed := fun _ hDetail => by cases hDetail
  version := fun version hVersion => by
    cases hVersion
    rfl

/-- Every request gets a coherent answer. -/
theorem Ops.dispatch_coherent (host : Host) (config : OpsConfig) (w : World) (request : Request) :
    ((Ops.dispatch config request).run host.oracle w).1.Coherent := by
  cases hUpdate : request.update config with
  | some update =>
      obtain ⟨result, w', hRun, hResult⟩ := Ops.run_dispatch_update host config w hUpdate
      rw [hRun]
      refine answer_coherent fun outcome hOk => ?_
      rw [hOk] at hResult
      rcases hResult.outcome with rfl | rfl
      · exact .inr (.inr rfl)
      · rcases request.update_eq_some hUpdate with ⟨-, rfl⟩ | ⟨-, content, -, rfl⟩
        · exact .inl rfl
        · exact .inr (.inl rfl)
  | none =>
      obtain ⟨hInstall, hApply⟩ := request.update_eq_none hUpdate
      cases hOp : request.op with
      | ping =>
          simp only [dispatch, hOp, Program.run_pure]
          exact coherent_pong
      | ensureDirectories =>
          simp only [dispatch, hOp, Program.run_bind, Program.run_pure]
          exact toResponse_coherent _
      | verifyState =>
          simp only [dispatch, hOp, Program.run_bind, Program.run_pure]
          exact toResponse_coherent _
      | applyTrustedCaKeys =>
          simp only [dispatch, hOp, hApply hOp, Program.run_pure]
          exact Response.coherent_failure (.inr rfl)
            (mem_fixedDetails_of_refusal (by simp [refusals]))
      | installSshdDropin => exact (hInstall hOp).elim

namespace HelperServer

variable {server : HelperServer} {peer : Option PeerCred} {request : Request}

/-- A refusal is a coherent answer as well. -/
theorem rejection_coherent {response : Response}
    (h : server.rejection peer request = some response) :
    response.Coherent := by
  have hUnhealthy : ∀ detail ∈ refusals, (Response.failure .unhealthy detail).Coherent :=
    fun detail hDetail => Response.coherent_failure (.inl rfl) (mem_fixedDetails_of_refusal hDetail)
  have hCheck : rejection.checkRequest server request = some response → response.Coherent := by
    unfold rejection.checkRequest
    intro h
    split at h
    · cases h
      exact hUnhealthy _ (by simp [refusals])
    split at h
    · cases h
      exact hUnhealthy _ (by simp [refusals])
    · cases h
  unfold rejection at h
  split at h
  · split at h
    · exact hCheck h
    · cases h
      exact hUnhealthy _ (by simp [refusals])
  · split at h
    · cases h
      exact hUnhealthy _ (by simp [refusals])
    · exact hCheck h

/-- So is whatever a request from a peer is answered. -/
theorem evaluate_coherent (server : HelperServer) (host : Host) (w : World) (peer : Option PeerCred)
    (request : Request) : ((server.evaluate peer request).run host.oracle w).1.Coherent := by
  unfold evaluate
  cases hRejection : server.rejection peer request with
  | some response => exact rejection_coherent hRejection
  | none => exact Ops.dispatch_coherent host server.ops w request

end HelperServer

namespace Response

theorem length_tag (outcome : Outcome) : outcome.tag.length ≤ 12 := by
  cases outcome <;> decide +kernel

/-- No answer comes near the cap of a frame. -/
theorem Coherent.length_le {response : Response} (h : response.Coherent) :
    (Json.encodeObject response.members).length ≤ maxBodyBytes := by
  have hKeys : (Json.encodeString "ok".toList).length ≤ 100 ∧
    (Json.encodeString "outcome".toList).length ≤ 100 ∧
      (Json.encodeString "helper_version".toList).length ≤ 100 ∧
      (Json.encodeString "detail".toList).length ≤ 100 := by
    decide +kernel
  have hMembers : ∀ member ∈ response.members,
      (Json.encodeString member.key).length + member.written.length + 2 ≤ 800 := by
    intro member hMember
    simp only [members, List.mem_append, List.mem_cons, List.not_mem_nil, or_false,
      Option.mem_toList,
      Option.map_eq_some_iff] at hMember
    rcases hMember with ((rfl | rfl) | ⟨version, hVersion, rfl⟩) | ⟨text, hDetail, rfl⟩
    · have hBool := Json.length_encodeBool response.ok
      simp only [Json.Member.bool]
      omega
    · have hTag := length_tag response.outcome
      have hOutcome := Json.length_encodeString response.outcome.tag
      simp only [Json.Member.text]
      omega
    · have hNumber : (Json.encodeString version).length ≤ 100 := by
        rw [h.version version hVersion]
        decide
      simp only [Json.Member.text]
      omega
    · have hShort := (fixedDetails_short text (h.fixed text hDetail)).2
      have hText := Json.length_encodeString text
      simp only [Json.Member.text]
      omega
  have hCount : response.members.length ≤ 4 := by
    simp only [members, List.length_append, List.length_cons, List.length_nil, Option.length_toList]
    split <;> split <;> omega
  calc (Json.encodeObject response.members).length
      ≤ response.members.length * 800 + 2 := Json.length_encodeObject hMembers
    _ ≤ 4 * 800 + 2 := by omega
    _ ≤ maxBodyBytes := by decide

end Response

namespace HelperServer

variable (server : HelperServer)

/-- The request that is dispatched, if any, by the peer and the first frame. -/
def dispatched (peer : Option PeerCred) (first : Except Error Bytes) : Option Request :=
  match first.bind decodeRequest with
  | .ok request => if (server.rejection peer request).isNone then some request else none
  | .error _ => none

variable {server}

/-- A coherent answer goes out as one frame and is read back. -/
theorem reply_coherent {connection : Connection} (hWritable : connection.writable = true)
    {response : Response}
    (h : response.Coherent) (unread : Bytes) :
    ∃ body, (reply Codec.json connection response unread).result = .ok () ∧
      readFrame (reply Codec.json connection response unread).outbound = (.ok body, []) ∧
      decodeResponse body = .ok response := by
  obtain ⟨body, hEncode, hDecode⟩ := decodeResponse_encodeResponse response
  have hLength : body.length ≤ maxBodyBytes := by
    cases hEncode
    exact h.length_le
  have hReply : reply Codec.json connection response unread =
    ⟨.ok (), some response, frame body, unread⟩ := by
    simp only [reply, Codec.json, hEncode, writeFrame_of_le hLength, hWritable, if_true]
  have hFrame := readFrame_frame hLength []
  rw [List.append_nil] at hFrame
  rw [hReply]
  exact ⟨body, rfl, hFrame, hDecode⟩

/-- A frame that was read keeps within the cap. -/
theorem length_of_readFrame {stream body rest : Bytes} (h : readFrame stream = (.ok body, rest)) :
    body.length ≤ maxBodyBytes := by
  unfold readFrame at h
  rcases hHeader : readExact 4 stream with ⟨_ | header, left⟩
  · rw [hHeader] at h
    cases h
  rw [hHeader] at h
  dsimp only at h
  split at h
  · cases h
  rename_i hCap
  rcases hBody : readExact (fromBeBytes header) left with ⟨_ | found, last⟩
  · rw [hBody] at h
    cases h
  rw [hBody] at h
  cases h
  have hTake := congrArg Prod.fst hBody
  unfold readExact at hTake
  split at hTake
  · cases hTake
    rw [List.length_take]
    omega
  · cases hTake

/-- The size check after reading a frame never refuses: the reader has the
same cap. -/
theorem readRequest_eq (stream : Bytes) :
    (readRequest Codec.json stream).1 = (readFrame stream).1.bind decodeRequest := by
  unfold readRequest
  rcases hRead : readFrame stream with ⟨err | body, rest⟩
  · rfl
  have hLength := length_of_readFrame hRead
  dsimp only
  rw [if_neg (by omega)]
  rfl

/-- What a connection comes to: the answer that is sent, and the world after
the one request that was dispatched. -/
theorem serveConnection_eq (server : HelperServer) (host : Host) (w : World)
    {connection : Connection}
    (hSet : connection.timeoutsSet = true) :
    ∃ response unread, server.serveConnection Codec.json host w connection =
        (reply Codec.json connection response unread,
          match server.dispatched connection.peer (readFrame connection.inbound).1 with
          | some request => ((Ops.dispatch server.ops request).run host.oracle w).2
          | none => w) ∧
      response.Coherent ∧
      ∀ request, server.dispatched connection.peer (readFrame connection.inbound).1 = some request →
        response = ((Ops.dispatch server.ops request).run host.oracle w).1 := by
  have hRequest : connection.request Codec.json =
      ((readFrame connection.inbound).1.bind decodeRequest).toOption := by
    rw [Connection.request, if_pos hSet, readRequest_eq]
  unfold dispatched
  cases hFirst : (readFrame connection.inbound).1.bind decodeRequest with
  | error err =>
      rw [hFirst] at hRequest
      have hServe : server.serveConnection Codec.json host w connection = _ :=
        serveConnection_of_no_request hRequest w
      rw [if_pos hSet] at hServe
      refine ⟨_, _, hServe, ?_, fun request h => by cases h⟩
      exact Response.coherent_failure (.inl rfl) (mem_fixedDetails_of_refusal (by simp [refusals]))
  | ok request =>
      rw [hFirst] at hRequest
      have hServe : server.serveConnection Codec.json host w connection = _ :=
        serveConnection_of_request hRequest w
      have hCoherent := server.evaluate_coherent host w connection.peer request
      cases hRejection : server.rejection connection.peer request with
      | some response =>
          rw [evaluate, hRejection] at hServe hCoherent
          refine ⟨response, (readRequest Codec.json connection.inbound).2,
            hServe.trans ?_, hCoherent,
            fun other h => by simp [hRejection] at h⟩
          simp [hRejection]
      | none =>
          rw [evaluate, hRejection] at hServe hCoherent
          refine ⟨((Ops.dispatch server.ops request).run host.oracle w).1,
            (readRequest Codec.json connection.inbound).2, hServe.trans ?_, hCoherent,
              fun other h => ?_⟩
          · simp [hRejection]
          · simp only [hRejection, Option.isNone_none, if_true, Option.some.injEq] at h
            rw [h]

end HelperServer

/-- Every connection whose socket works is answered with one frame. It holds a
response whose parts agree and whose detail is one of a few fixed sentences,
and at most one operation was dispatched, on the strength of the first frame. -/
theorem connection_answered_once (server : HelperServer) (host : Host) (w : World)
    (connection : Connection)
    (hSet : connection.timeoutsSet = true) (hWritable : connection.writable = true) :
    ∃ body response, (server.serveConnection Codec.json host w connection).1.result = .ok () ∧
      readFrame (server.serveConnection Codec.json host w connection).1.outbound = (.ok body, []) ∧
      decodeResponse body = .ok response ∧
      (response.ok = true ↔ response.outcome.IsSuccess) ∧
        (response.ok = true ↔ response.detail = none) ∧
      (∀ detail, response.detail = some detail → detail ∈ fixedDetails) ∧
      (∀ detail ∈ fixedDetails, '/' ∉ detail) ∧
      match server.dispatched connection.peer (readFrame connection.inbound).1 with
      | some request =>
          (response, (server.serveConnection Codec.json host w connection).2) =
            (Ops.dispatch server.ops request).run host.oracle w
      | none => (server.serveConnection Codec.json host w connection).2 = w := by
  obtain ⟨response, unread, hServe, hCoherent, hDispatched⟩ := server.serveConnection_eq host w hSet
  obtain ⟨body, hResult, hFrame, hDecode⟩ := HelperServer.reply_coherent hWritable hCoherent unread
  rw [hServe]
  refine ⟨body, response, hResult, hFrame, hDecode, hCoherent.outcome,
    hCoherent.detail, hCoherent.fixed,
    fun detail hDetail => (fixedDetails_short detail hDetail).1, ?_⟩
  cases hFirst : server.dispatched connection.peer (readFrame connection.inbound).1 with
  | none => rfl
  | some request =>
      rw [hDispatched request hFirst]

/-- A peer that sends half a header gets its answer. -/
theorem connection_answered_once_half_header :
    ∃ body response,
      readFrame
        (HelperServer.serveConnection ⟨"token".toList, OpsConfig.default,
          PeerPolicy.unenforced⟩ Codec.json
        (Host.sandbox Host.noFailures (fun _ _ _ => .ok ())) (World.start Fs.bare)
        ⟨none, [0, 0], true, true⟩).1.outbound = (.ok body, []) ∧
      decodeResponse body = .ok response ∧ (response.ok = true ↔ response.detail = none) := by
  obtain ⟨body, response, -, hFrame, hDecode, -, hDetail, -⟩ :=
    connection_answered_once ⟨"token".toList, OpsConfig.default, PeerPolicy.unenforced⟩
      (Host.sandbox Host.noFailures (fun _ _ _ => .ok ())) (World.start Fs.bare) ⟨none, [0, 0],
        true, true⟩ rfl rfl
  exact ⟨body, response, hFrame, hDecode, hDetail⟩

end MayflyHelper
