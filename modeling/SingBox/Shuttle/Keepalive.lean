import SingBox.Shuttle.Stream
import SingBox.Shuttle.Session

/-! The places that answer a ping, and what becomes of a session that is answered by one of
them. -/

namespace SingBox.Shuttle
open Lib Codec FrameType List

/-- What the loop of `handleSession` does with a frame. -/
inductive SessionAction
  | openStream (frame : Frame)
  | write (frame : Frame)
  | goOn
  | stop
  | fail (err : String)

def handleSessionFrame (frame : Frame) : SessionAction :=
  if frame.type = openRequest then .openStream frame
  else if frame.type = ping then .write (pongFrame frame.payload)
  else if frame.type = pong then .goOn
  else if frame.type = close then .stop
  else .fail ("unexpected frame before open request: " ++ toString frame.type)

def resetFrame (streamId : UInt32) (code : UInt8) : Frame :=
  { type := reset, flags := 0, streamId, payload := [code] }

/-- What the loop of `handleUDPStream` does with a frame: what it writes, and whether it goes
on. -/
def handleUDPFrame (streamId : UInt32) (maxPacketSize : Nat) (frame : Frame) : List Frame × Bool :=
  if frame.streamId ≠ streamId then ([], true)
  else if frame.type = data then
    match decodeUDPDatagram frame.payload with
    | .error _ => ([resetFrame streamId ErrorCode.protocol], false)
    | .ok datagram =>
      if datagram.payload.length > maxPacketSize then
        ([resetFrame streamId ErrorCode.payloadTooLarge], false)
      else ([], true)
  else if frame.type = endRequest ∨ frame.type = endResponse ∨ frame.type = reset then ([], false)
  else if frame.type = ping then ([pongFrame frame.payload], true)
  else ([resetFrame streamId ErrorCode.unknownFrame], false)

/-- A place that reads frames and has a case for pings: the two loops of the server, a stream
and the handshake of the client. -/
inductive Responder
  | handleSession
  | handleUDPStream (streamId : UInt32) (maxPacketSize : Nat)
  | streamRead (c : StreamConn) (size : Nat)
  | dialContext (c : StreamConn) (request : OpenRequest)

namespace Responder

/-- What is written there when this is the next frame on the connection. -/
def written : Responder → Frame → List Frame
  | .handleSession, frame =>
    match handleSessionFrame frame with
    | .write frame => [frame]
    | _ => []
  | .handleUDPStream streamId maxPacketSize, frame => (handleUDPFrame streamId maxPacketSize frame).1
  | .streamRead c size, frame => ({ c with written := [] }.onFrame size frame).2.written
  | .dialContext c request, frame =>
    (Shuttle.dialContext { c with conn := wire [frame], written := [] } request).2.written

/-- The first pong that the other side can read, or the error after it has waited for it. -/
def conn (r : Responder) (ping : Frame) : Except String Frame :=
  match (r.written ping).find? (·.type = pong) with
  | some frame => .ok frame
  | none => .error "i/o timeout"

end Responder

section Layout

variable (ping : Ping)

lemma length_encodePing : (encodePing ping).length = 17 := by
  simp [encodePing]

lemma sendable_pingFrame : Sendable (pingFrame ping) := by
  refine ⟨rfl, ?_⟩
  change (encodePing ping).length ≤ maxPayloadLength
  rw [length_encodePing]
  decide

end Layout

section Echo

variable {ping : Ping} {frame : Frame}

lemma streamRead_written (c : StreamConn) (size : Nat)
    (h : frame ∈ (Responder.streamRead c size).written (pingFrame ping)) :
    frame = pongFrame (encodePing ping) := by
  change frame ∈ (({ c with written := [] } : StreamConn).onFrame size
      (pingFrame ping)).2.written at h
  unfold StreamConn.onFrame at h
  by_cases hid : (pingFrame ping).streamId ≠ c.streamId
  · simp [if_pos hid] at h
  · rw [if_neg hid] at h
    exact mem_singleton.mp h

lemma dialContext_written (c : StreamConn) (request : OpenRequest)
    (h : frame ∈ (Responder.dialContext c request).written (pingFrame ping))
    (hpong : frame.type = pong) : frame = pongFrame (encodePing ping) := by
  have hread : readFrame maxPayloadLength (wire [pingFrame ping]) = (.ok (pingFrame ping), []) := by
    simpa [wire] using readFrame_wire (sendable_pingFrame ping) [] []
  have hend : readFrame maxPayloadLength [] = (.error "read frame header: EOF", []) := rfl
  change frame ∈ (dialContext { c with conn := wire [pingFrame ping], written := [] }
    request).2.written
    at h
  cases henc : encodeOpenRequest request with
  | error err =>
    simp only [dialContext, henc] at h
    cases h
  | ok requestData =>
    simp only [dialContext, henc, hread, hend, nil_append, singleton_append] at h
    obtain rfl | h := mem_cons.mp h
    · exact absurd (show openRequest = pong from hpong) (by decide)
    · exact mem_singleton.mp h

/-- Every pong that is written for a ping is a copy of its payload. -/
theorem written_pong (r : Responder) (h : frame ∈ r.written (pingFrame ping))
    (hpong : frame.type = pong) : frame = pongFrame (encodePing ping) := by
  cases r with
  | handleSession => exact mem_singleton.mp h
  | handleUDPStream streamId maxPacketSize =>
    change frame ∈ (handleUDPFrame streamId maxPacketSize (pingFrame ping)).1 at h
    unfold handleUDPFrame at h
    by_cases hid : (pingFrame ping).streamId ≠ streamId
    · simp [if_pos hid] at h
    · rw [if_neg hid] at h
      exact mem_singleton.mp h
  | streamRead c size => exact streamRead_written c size h
  | dialContext c request => exact dialContext_written c request h hpong

end Echo

/-- The side that sent a ping takes no copy of it for an answer. -/
theorem answered_echo (ping : Ping) : answered ping (.ok (pongFrame (encodePing ping))) = false := by
  rw [answered]
  rfl

lemma not_answered (r : Responder) (ping : Ping) :
    answered ping (r.conn (pingFrame ping)) = false := by
  unfold Responder.conn
  split
  · rename_i frame hfind
    have hpong : frame.type = pong := by simpa using find?_some hfind
    rw [written_pong r (mem_of_find?_eq_some hfind) hpong, answered_echo]
  · rfl

section Closed

variable (r : Responder) (now : Nat) (token : UInt32)

lemma ClientSession.checkLifecycle_eq {s : ClientSession} (h : (s.checkLifecycle now).1) :
    s.checkLifecycle now = (true, s) ∧ s.closed = false := by
  unfold checkLifecycle at h ⊢
  dsimp only at h ⊢
  split at h
  · cases h
  split at h
  · cases h
  · rename_i hclosed hdue
    rw [if_neg hclosed, if_neg hdue]
    exact ⟨rfl, by simpa using hclosed⟩

variable {s : InboundSession}

lemma InboundSession.checkLifecycle_eq (h : (s.checkLifecycle now).1) :
    s.checkLifecycle now = (true, s) ∧ s.closed = false := by
  unfold checkLifecycle at h ⊢
  dsimp only at h ⊢
  split at h
  · cases h
  split at h
  · cases h
  split at h
  · cases h
  · rename_i hclosed hold hidle
    rw [if_neg hclosed, if_neg hold, if_neg hidle]
    exact ⟨rfl, by simpa using hclosed⟩

/-- An idle session of the client that is not due to end otherwise. -/
theorem ClientSession.tick_closed {s : ClientSession} (hact : s.active = false)
    (henabled : s.keepaliveEnabled) (hlife : (s.checkLifecycle now).1) :
    (s.tick now token r.conn).2.closed := by
  obtain ⟨heq, hclosed⟩ := checkLifecycle_eq now hlife
  rw [tick, heq]
  simp [henabled, sendKeepalive, hclosed, hact, not_answered, close]

/-- An idle session of the server that is not due to end otherwise. -/
theorem InboundSession.tick_closed (hact : s.active = false)
    (hlife : (s.checkLifecycle now).1) : (s.tick now token r.conn).2.closed ∧
      (s.tick now token r.conn).2.closeReason = "keepalive timeout" := by
  obtain ⟨heq, hclosed⟩ := checkLifecycle_eq now hlife
  rw [tick, heq]
  simp [sendPing, hclosed, hact, not_answered, close]

end Closed

/-- No place that reads pings answers one so that it is heard, and an idle session that sends
one is closed for it, whoever answers. -/
theorem ping_never_answered (r : Responder) (now : Nat) (token : UInt32) :
    (∀ ping, ¬ ∃ frame ∈ r.written (pingFrame ping), answered ping (.ok frame) = true) ∧
    (∀ s : ClientSession, s.active = false → s.keepaliveEnabled = true →
      (s.checkLifecycle now).1 = true → (s.tick now token r.conn).2.closed = true) ∧
    (∀ s : InboundSession, s.active = false → (s.checkLifecycle now).1 = true →
      (s.tick now token r.conn).2.closed = true ∧
        (s.tick now token r.conn).2.closeReason = "keepalive timeout") := by
  refine ⟨?_, ?_, ?_⟩
  · rintro ping ⟨frame, hmem, hans⟩
    by_cases hpong : frame.type = FrameType.pong
    · simp [written_pong r hmem hpong, answered_echo] at hans
    · simp [answered, if_pos hpong] at hans
  · intro s hact henabled hlife
    exact s.tick_closed r now token hact henabled hlife
  · intro s hact hlife
    exact s.tick_closed r now token hact hlife

def idleSession : ClientSession where
  capabilities := Capability.reuse ||| Capability.keepalive
  maxStreams := 8
  keepalive := 5000

theorem idleSession_closed : (idleSession.tick 5000 9 Responder.handleSession.conn).2.closed = true :=
  (ping_never_answered .handleSession 5000 9).2.1 idleSession rfl (by decide) (by decide)

/-- The server's answer to the first ping of that session. -/
theorem server_answer_not_heard :
    let ping : Ping := { timestamp := 5000, counter := 1, token := 9 }
    Responder.handleSession.written (pingFrame ping) = [pongFrame (encodePing ping)] ∧
      answered ping (.ok (pongFrame (encodePing ping))) = false ∧
      (idleSession.tick 5000 9 Responder.handleSession.conn).2.closed = true := by
  decide

end SingBox.Shuttle
