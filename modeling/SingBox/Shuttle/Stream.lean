import SingBox.Lib.Reader
import SingBox.Shuttle.Request

/-! A stream over a connection: what is written goes out in data frames, what is read comes
from those that arrive. -/

namespace SingBox.Shuttle
open Lib Codec FrameType

abbrev Read := ReadResult UInt8 String

/-- `streamConn`, with what is left to read from its connection and the frames that were
written to it. -/
structure StreamConn where
  streamId : UInt32
  firstPayload : Bytes := []
  readBuffer : Bytes := []
  readEOF : Bool := false
  conn : Bytes := []
  written : List Frame := []
  deriving DecidableEq

def pongFrame (payload : Bytes) : Frame := { type := pong, flags := 0, streamId := 0, payload }

def dataFrame (streamId : UInt32) (payload : Bytes) : Frame :=
  { type := data, flags := 0, streamId, payload }

/-- The frame that closes a stream, for either end. -/
def endFrame (streamId : UInt32) : Frame :=
  { type := endResponse, flags := 0, streamId, payload := [] }

namespace StreamConn

variable (c : StreamConn) (size : Nat)

/-- `readBuffer.Read`, of a buffer that is not empty. -/
def takeBuffered : Read × StreamConn :=
  (.data (c.readBuffer.take size), { c with readBuffer := c.readBuffer.drop size })

/-- What `Read` does with a frame: it returns, or it goes on to the next one. -/
def onFrame (frame : Frame) : Option Read × StreamConn :=
  if frame.streamId ≠ c.streamId then
    (some (.error ("unexpected stream id: " ++ toString frame.streamId)), c)
  else if frame.type = data then
    if frame.payload = [] then (none, c)
    else
      let taken := { c with readBuffer := c.readBuffer ++ frame.payload }.takeBuffered size
      (some taken.1, taken.2)
  else if frame.type = endRequest ∨ frame.type = endResponse ∨ frame.type = close then
    (some .eof, { c with readEOF := true })
  else if frame.type = reset then (some (.error "stream reset"), c)
  else if frame.type = ping then
    (none, { c with written := c.written ++ [pongFrame frame.payload] })
  else if frame.type = pong then (none, c)
  else (some (.error ("unexpected stream frame type: " ++ toString frame.type)), c)

/-- The loop of `Read`. The first argument bounds the number of frames. -/
def readLoop : Nat → StreamConn → Nat → Read × StreamConn
  | 0, c, _ => (.error "no frame", c)
  | fuel + 1, c, size =>
    match readFrame maxPayloadLength c.conn with
    | (.error err, conn) => (.error err, { c with conn })
    | (.ok frame, conn) =>
      match { c with conn }.onFrame size frame with
      | (some result, c) => (result, c)
      | (none, c) => readLoop fuel c size

def read : Read × StreamConn :=
  if c.firstPayload.length > 0 then
    (.data (c.firstPayload.take size), { c with firstPayload := c.firstPayload.drop size })
  else if c.readBuffer.length > 0 then c.takeBuffered size
  else if c.readEOF then (.eof, c)
  -- no frame is shorter than its header, so the connection ends first
  else readLoop (c.conn.length + 1) c size

/-- The loop of `Write`: the frames for what is left. The first argument bounds their
number. -/
def writeLoop (streamId : UInt32) : Nat → Bytes → List Frame
  | 0, _ => []
  | fuel + 1, p =>
    if p = [] then []
    else dataFrame streamId (p.take maxPayloadLength) ::
      writeLoop streamId fuel (p.drop maxPayloadLength)

def write (p : Bytes) : StreamConn :=
  { c with written := c.written ++ writeLoop c.streamId p.length p }

end StreamConn

def wire (frames : List Frame) : Bytes :=
  frames.flatMap fun frame => frameHeader frame ++ frame.payload

/-- What a writer accepts and a reader too. -/
def Sendable (frame : Frame) : Prop :=
  validateFrameState frame = none ∧ frame.payload.length ≤ maxPayloadLength

lemma readFrame_wire {frame : Frame} (h : Sendable frame) (frames : List Frame) (rest : Bytes) :
    readFrame maxPayloadLength (wire (frame :: frames) ++ rest) =
        (.ok frame, wire frames ++ rest) := by
  have hread := readFrame_append h.1 h.2 (.inr (Int.ofNat_le.mpr h.2)) (wire frames ++ rest)
  rwa [← List.append_assoc] at hread

namespace StreamConn

variable {c : StreamConn} {size : Nat} {frame : Frame} {streamId : UInt32}

lemma onFrame_endFrame (h : streamId = c.streamId) :
    c.onFrame size (endFrame streamId) = (some .eof, { c with readEOF := true }) := by
  subst h
  simp [onFrame, endFrame, data, endRequest, endResponse]

lemma onFrame_conn (c : StreamConn) (size : Nat) (frame : Frame) :
    (c.onFrame size frame).2.conn = c.conn := by
  unfold onFrame
  repeat' split
  all_goals rfl

/-- The bound on the number of frames makes no difference as long as it is large enough. -/
theorem readLoop_eq {fuel fuel' : Nat} (h : c.conn.length < fuel) (h' : c.conn.length < fuel') :
    readLoop fuel c size = readLoop fuel' c size := by
  induction fuel generalizing c fuel' with
  | zero => exact absurd h (Nat.not_lt_zero _)
  | succ fuel ih =>
    obtain ⟨fuel', rfl⟩ := Nat.exists_eq_add_one_of_ne_zero (Nat.ne_zero_of_lt h')
    unfold readLoop
    split
    · rfl
    · rename_i frame conn hread
      have hless := length_of_readFrame hread
      have hconn := onFrame_conn { c with conn } size frame
      split
      · rfl
      · rename_i next hnext
        rw [hnext] at hconn
        apply ih <;> rw [hconn] <;> dsimp only <;> omega

/-- Nothing is buffered and the end has not been seen, so that `Read` reads a frame. -/
structure Waiting (c : StreamConn) : Prop where
  firstPayload : c.firstPayload = []
  readBuffer : c.readBuffer = []
  readEOF : c.readEOF = false

lemma Waiting.read_eq (h : c.Waiting) : c.read size = readLoop (c.conn.length + 1) c size := by
  simp [read, h.firstPayload, h.readBuffer, h.readEOF]

lemma Waiting.read_frame (h : c.Waiting) {conn : Bytes}
    (hframe : readFrame maxPayloadLength c.conn = (.ok frame, conn)) : c.read size =
      match { c with conn }.onFrame size frame with
      | (some result, c) => (result, c)
      | (none, c) => readLoop (c.conn.length + 1) c size := by
  have hless := length_of_readFrame hframe
  have hconn := onFrame_conn { c with conn } size frame
  rw [h.read_eq, readLoop, hframe]
  dsimp only
  split
  · rfl
  · rename_i next hnext
    rw [hnext] at hconn
    exact readLoop_eq (by rw [hconn]; exact hless) (Nat.lt_succ_self _)

variable {frame : Frame} {conn : Bytes} (h : c.Waiting)
include h

lemma Waiting.with_conn (conn : Bytes) : ({ c with conn } : StreamConn).Waiting := { h with }

section
variable (hframe : readFrame maxPayloadLength c.conn = (.ok frame, conn))
include hframe

lemma Waiting.read_other (hstr : frame.streamId ≠ c.streamId) : c.read size =
      (.error ("unexpected stream id: " ++ toString frame.streamId), { c with conn }) := by
  have hon : ({ c with conn } : StreamConn).onFrame size frame = _ := if_pos hstr
  rw [h.read_frame hframe, hon]

section
variable (hstr : frame.streamId = c.streamId)
include hstr

lemma Waiting.read_empty (htype : frame.type = data)
    (hpay : frame.payload = []) : c.read size = ({ c with conn } : StreamConn).read size := by
  have hon : ({ c with conn } : StreamConn).onFrame size frame = (none, { c with conn }) := by
    simp [onFrame, hstr, htype, hpay]
  rw [h.read_frame hframe, hon, (h.with_conn conn).read_eq]

lemma Waiting.read_data (htype : frame.type = data) (hpay : frame.payload ≠ []) : c.read size =
      (.data (frame.payload.take size), { c with conn, readBuffer := frame.payload.drop size }) := by
  rw [h.read_frame hframe]
  simp [onFrame, hstr, htype, hpay, takeBuffered, h.readBuffer]

end

end

lemma Waiting.read_endFrame
    (hframe : readFrame maxPayloadLength c.conn = (.ok (endFrame streamId), conn))
    (hstr : streamId = c.streamId) : c.read size = (.eof, { c with conn, readEOF := true }) := by
  have hon : ({ c with conn } : StreamConn).onFrame size (endFrame streamId) = _ :=
    onFrame_endFrame hstr
  rw [h.read_frame hframe, hon]

end StreamConn

namespace ErrorCode

def ok : UInt8 := 0x00
def protocol : UInt8 := 0x0b
def unknownFrame : UInt8 := 0x0c
def payloadTooLarge : UInt8 := 0x0d

end ErrorCode

def openRequestFrame (streamId : UInt32) (payload : Bytes) : Frame :=
  { type := openRequest, flags := 0, streamId, payload }

/-- What `DialContext` makes of the frame that it takes for the response. -/
def checkOpenResponse (frame : Frame) : Except Bytes Unit :=
  if frame.type ≠ openResponse then
    .error (utf8 ("expected open response, got frame type: " ++ toString frame.type))
  else
    match decodeOpenResponse frame.payload with
    | .error err => .error err
    | .ok response =>
      if response.status ≠ ErrorCode.ok then .error (utf8 "connect failed: " ++ response.message)
      else .ok ()

/-- `DialContext` after it has got a stream: its error, and the stream. -/
def dialContext (c : StreamConn) (request : OpenRequest) : Except Bytes Unit × StreamConn :=
  match encodeOpenRequest request with
  | .error err => (.error err, c)
  | .ok requestData =>
    let c := { c with written := c.written ++ [openRequestFrame c.streamId requestData] }
    match readFrame maxPayloadLength c.conn with
    | (.error err, conn) => (.error (utf8 err), { c with conn })
    | (.ok frame, conn) =>
      if frame.type = ping then
        let c := { c with written := c.written ++ [pongFrame frame.payload] }
        match readFrame maxPayloadLength conn with
        | (.error err, conn) => (.error (utf8 err), { c with conn })
        | (.ok frame, conn) => (checkOpenResponse frame, { c with conn })
      else (checkOpenResponse frame, { c with conn })

end SingBox.Shuttle
