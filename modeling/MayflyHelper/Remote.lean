import MayflyHelper.Answers
import MayflyHelper.Refinement

/-! Calls over the wire. A client that encodes its request, sends it as a frame
over a connection of its own and decodes the one frame it gets back has called
the service itself: the encoding, the framing and the server's reading and
writing cancel out. -/
namespace MayflyHelper

open OracleProgram

namespace Remote

/-- What a client makes of the bytes it gets. -/
def receive (stream : Bytes) : Except Error Response :=
  match readFrame stream with
  | (.ok body, _) => decodeResponse body
  | (.error err, _) => .error err

/-- One call: a request that cannot be encoded or framed is never sent. -/
def ask (server : HelperServer) (host : Host) (w : World) (call : Option PeerCred × Request) :
    Except Error Response × World :=
  match (encodeRequest call.2).bind writeFrame with
  | .error err => (.error err, w)
  | .ok bytes =>
      let handled := server.serveConnection Codec.json host w ⟨call.1, bytes, true, true⟩
      (receive handled.1.outbound, handled.2)

/-- The request fits into a frame. -/
def fits (call : Option PeerCred × Request) : Bool :=
  decide ((Json.encodeObject call.2.members).length ≤ maxBodyBytes)

variable {server : HelperServer} {host : Host}

theorem request_of_frame {peer : Option PeerCred} {body : Bytes} {request : Request}
    (hLength : body.length ≤ maxBodyBytes) (hDecode : decodeRequest body = .ok request) :
    (⟨peer, frame body, true, true⟩ : Connection).request Codec.json = some request := by
  have hFrame := readFrame_frame hLength []
  rw [List.append_nil] at hFrame
  have hRead : (HelperServer.readRequest Codec.json (frame body)).1 = .ok request := by
    rw [HelperServer.readRequest_eq, hFrame]
    exact hDecode
  simp only [Connection.request, if_true, hRead, Except.toOption]

theorem ask_of_not_fits {call : Option PeerCred × Request} (h : fits call = false) (w : World) :
    ask server host w call = (.error .helperProtocol, w) := by
  have hLength : maxBodyBytes < (Json.encodeObject call.2.members).length :=
    Nat.lt_of_not_le (of_decide_eq_false h)
  have hSent : writeFrame (Json.encodeObject call.2.members) = .error .helperProtocol := by
    rw [writeFrame, if_pos hLength]
  have hBind : (encodeRequest call.2).bind writeFrame =
    writeFrame (Json.encodeObject call.2.members) := rfl
  rw [ask, hBind, hSent]

/-- A request that is sent comes to what the service itself does. -/
theorem ask_of_fits {call : Option PeerCred × Request} (h : fits call = true) (w : World) :
    ask server host w call = (.ok (server.serve host w call).1, (server.serve host w call).2) := by
  have hLength : (Json.encodeObject call.2.members).length ≤ maxBodyBytes := of_decide_eq_true h
  have hBind : (encodeRequest call.2).bind writeFrame =
    writeFrame (Json.encodeObject call.2.members) := rfl
  obtain ⟨body, hEncode, hDecode⟩ := decodeRequest_encodeRequest call.2
  obtain rfl : Json.encodeObject call.2.members = body := Except.ok.inj hEncode
  have hCoherent := server.evaluate_coherent host w call.1 call.2
  rw [ask, hBind, writeFrame_of_le hLength]
  dsimp only
  rw [HelperServer.serveConnection_of_request (request_of_frame hLength hDecode)]
  have hReply : ∀ connection : Connection, connection.writable = true → ∀ unread,
      receive (HelperServer.reply Codec.json connection
        ((server.evaluate call.1 call.2).run host.oracle w).1
        unread).outbound = .ok ((server.evaluate call.1 call.2).run host.oracle w).1 := by
    intro connection hWritable unread
    obtain ⟨answer, -, hAnswer, hResponse⟩ := HelperServer.reply_coherent hWritable hCoherent unread
    rw [receive, hAnswer]
    exact hResponse
  rw [hReply _ rfl]
  rfl

end Remote

/-- A session of calls over the wire is a session of the service. Every call
that fits into a frame gets the very response of the service and has its
effect; one that does not is refused before it is sent. -/
theorem remote_session (server : HelperServer) (host : Host) (w : World)
    (calls : List (Option PeerCred × Request)) :
    Service.final (Remote.ask server host) w calls =
      Service.final (server.serve host) w (calls.filter Remote.fits) ∧
      (Service.log (Remote.ask server host) w calls).filter (fun entry => Remote.fits entry.1) =
        (Service.log (server.serve host) w (calls.filter Remote.fits)).map
          (fun entry => (entry.1, .ok entry.2)) ∧
      ∀ entry ∈ Service.log (Remote.ask server host) w calls, Remote.fits entry.1 = false →
        entry.2 = .error .helperProtocol := by
  induction calls generalizing w with
  | nil => exact ⟨rfl, rfl, fun _ h => by cases h⟩
  | cons call rest ih =>
      cases hFits : Remote.fits call with
      | true =>
          obtain ⟨hFinal, hLog, hRefused⟩ := ih (server.serve host w call).2
          have hAsk : Remote.ask server host w call = _ := Remote.ask_of_fits hFits w
          refine ⟨?_, ?_, ?_⟩
          · rw [Service.final_cons, List.filter_cons_of_pos hFits, Service.final_cons, hAsk]
            exact hFinal
          · simp only [List.filter_cons, Service.log, hFits, if_true, List.map_cons, hAsk]
            exact congrArg _ hLog
          · rw [Service.log, hAsk]
            intro entry hEntry hNot
            rcases List.mem_cons.mp hEntry with rfl | hMem
            · rw [hFits] at hNot
              cases hNot
            · exact hRefused entry hMem hNot
      | false =>
          obtain ⟨hFinal, hLog, hRefused⟩ := ih w
          have hAsk : Remote.ask server host w call = _ := Remote.ask_of_not_fits hFits w
          have hNot : ¬Remote.fits call = true := by simp [hFits]
          refine ⟨?_, ?_, ?_⟩
          · rw [Service.final_cons, List.filter_cons_of_neg hNot, hAsk]
            exact hFinal
          · simp only [List.filter_cons, Service.log, hFits, Bool.false_eq_true, if_false, hAsk]
            exact hLog
          · rw [Service.log, hAsk]
            intro entry hEntry hSmall
            rcases List.mem_cons.mp hEntry with rfl | hMem
            · rfl
            · exact hRefused entry hMem hSmall

end MayflyHelper
