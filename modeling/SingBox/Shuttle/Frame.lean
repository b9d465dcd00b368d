import SingBox.Lib.Codec

/-! Frames, the unit of what the two ends of a session send each other. -/

namespace SingBox.Shuttle
open Lib Codec List

namespace FrameType

def clientHello : UInt8 := 0x01
def serverHello : UInt8 := 0x02
def openRequest : UInt8 := 0x03
def openResponse : UInt8 := 0x04
def data : UInt8 := 0x05
def endRequest : UInt8 := 0x06
def endResponse : UInt8 := 0x07
def reset : UInt8 := 0x08
def ping : UInt8 := 0x09
def pong : UInt8 := 0x0a
def close : UInt8 := 0x0b

end FrameType

def headerSize : Nat := 8
def maxPayloadLength : Nat := 65535

structure Frame where
  type : UInt8
  flags : UInt8
  streamId : UInt32
  payload : Bytes
  deriving DecidableEq

def validFrameType (frameType : UInt8) : Bool :=
  FrameType.clientHello ≤ frameType ∧ frameType ≤ FrameType.close

/-- The frame types that belong to no stream. -/
def isControl (frameType : UInt8) : Bool :=
  frameType = FrameType.clientHello ∨ frameType = FrameType.serverHello ∨
    frameType = FrameType.ping ∨ frameType = FrameType.pong ∨ frameType = FrameType.close

variable (frame : Frame)

/-- The error of a frame that is on a stream and should not be, or the other way round. -/
def validateFrameState : Option String :=
  if !validFrameType frame.type then some ("unknown frame type: " ++ toString frame.type)
  else if isControl frame.type ∧ frame.streamId ≠ 0 then
    some ("control frame with non-zero stream id: " ++ toString frame.streamId)
  else if ¬ isControl frame.type ∧ frame.streamId = 0 then
    some "stream frame with zero stream id"
  else none

def frameHeader : Bytes :=
  [frame.type, frame.flags] ++ putBigEndian 4 frame.streamId.toNat ++
    putBigEndian 2 frame.payload.length

/-- `WriteFrame`: what is passed to the writer, call by call. -/
def writeFrame : Except String (List Bytes) :=
  if !validFrameType frame.type then .error ("unknown frame type: " ++ toString frame.type)
  else if frame.payload.length > maxPayloadLength then
    .error ("payload too large: " ++ toString frame.payload.length)
  else if frame.payload.length = 0 then .ok [frameHeader frame]
  else .ok [frameHeader frame, frame.payload]

/-- `WriteBufferedFrame`, which writes header and payload in one call. -/
def writeBufferedFrame : Except String Bytes :=
  if !validFrameType frame.type then .error ("unknown frame type: " ++ toString frame.type)
  else if frame.payload.length > maxPayloadLength then
    .error ("payload too large: " ++ toString frame.payload.length)
  else .ok (frameHeader frame ++ frame.payload)

/-- `io.ReadFull`, and what is left to read. -/
def readFull (n : Nat) (conn : Bytes) : Except String Bytes × Bytes :=
  if n ≤ conn.length then (.ok (conn.take n), conn.drop n)
  else (.error (if conn = [] then "EOF" else "unexpected EOF"), [])

/-- `ReadFrame` after the header. -/
def readPayload (maxPayload : Int) (frameType flags : UInt8) (streamId : UInt32) (length : Nat)
    (conn : Bytes) : Except String Frame × Bytes :=
  if !validFrameType frameType then
    (.error ("unknown frame type: " ++ toString frameType), conn)
  else
    let maxPayload :=
      if maxPayload < 0 ∨ maxPayload > maxPayloadLength then (maxPayloadLength : Int)
      else maxPayload
    if length > maxPayload then (.error ("payload too large: " ++ toString length), conn)
    else
      match readFull length conn with
      | (.error err, conn) => (.error ("read frame payload: " ++ err), conn)
      | (.ok payload, conn) =>
        let frame : Frame := { type := frameType, flags, streamId, payload }
        match validateFrameState frame with
        | some err => (.error err, conn)
        | none => (.ok frame, conn)

/-- `ReadFrame`, and what is left to read. -/
def readFrame (maxPayload : Int) (conn : Bytes) : Except String Frame × Bytes :=
  match readFull headerSize conn with
  | (.error err, conn) => (.error ("read frame header: " ++ err), conn)
  | (.ok header, conn) =>
    readPayload maxPayload (header.getD 0 0) (header.getD 1 0)
      (UInt32.ofNat (ofBigEndian (header.extract 2 6))) (ofBigEndian (header.extract 6 8)) conn

variable {frame : Frame}

lemma validFrameType_of_valid (h : validateFrameState frame = none) :
    validFrameType frame.type := by
  by_contra hnot
  simp [validateFrameState, if_pos (by simpa using hnot)] at h

@[simp] lemma length_frameHeader (frame : Frame) : (frameHeader frame).length = headerSize := by
  simp [frameHeader, headerSize]

@[simp] lemma readFull_append (bytes rest : Bytes) :
    readFull bytes.length (bytes ++ rest) = (.ok bytes, rest) := by
  rw [readFull, if_pos (by simp), take_left, drop_left]

lemma readFull_header (frame : Frame) (rest : Bytes) :
    readFull headerSize (frameHeader frame ++ rest) = (.ok (frameHeader frame), rest) := by
  rw [← length_frameHeader frame, readFull_append]

section Header

variable (frame : Frame)

lemma header_streamId :
    UInt32.ofNat (ofBigEndian ((frameHeader frame).extract 2 6)) = frame.streamId := by
  have hslice : (frameHeader frame).extract 2 6 = putBigEndian 4 frame.streamId.toNat := rfl
  rw [hslice, ofBigEndian_putBigEndian frame.streamId.toNat_lt, UInt32.ofNat_toNat]

variable {frame} in
lemma header_length (h : frame.payload.length ≤ maxPayloadLength) :
    ofBigEndian ((frameHeader frame).extract 6 8) = frame.payload.length := by
  have hslice : (frameHeader frame).extract 6 8 = putBigEndian 2 frame.payload.length := rfl
  have hlt : frame.payload.length < 256 ^ 2 := by
    unfold maxPayloadLength at h
    omega
  rw [hslice, ofBigEndian_putBigEndian hlt]

end Header

variable {maxPayload : Int}

section
variable (hval : validateFrameState frame = none)
include hval

section
variable (hlen : frame.payload.length ≤ maxPayloadLength)
include hlen

section
variable (hmax : maxPayload < 0 ∨ frame.payload.length ≤ maxPayload)
include hmax

lemma readPayload_append (rest : Bytes) :
    readPayload maxPayload frame.type frame.flags frame.streamId frame.payload.length
      (frame.payload ++ rest) = (.ok frame, rest) := by
  have htype := validFrameType_of_valid hval
  have hle : ¬ (frame.payload.length : Int) > (if maxPayload < 0 ∨ maxPayload > maxPayloadLength
      then (maxPayloadLength : Int) else maxPayload) := by
    split <;> omega
  rw [readPayload, htype, if_neg (by decide)]
  simp [if_neg hle, hval]

/-- A reader that admits the payload gives back the frame and takes no byte more. -/
theorem readFrame_append (rest : Bytes) :
    readFrame maxPayload (frameHeader frame ++ frame.payload ++ rest) = (.ok frame, rest) := by
  rw [append_assoc, readFrame, readFull_header]
  dsimp only
  rw [header_streamId, header_length hlen]
  exact readPayload_append hval hlen hmax rest

end

end

end

lemma length_of_readFull {n : Nat} {conn bytes rest : Bytes}
    (h : readFull n conn = (.ok bytes, rest)) : rest.length + n = conn.length := by
  unfold readFull at h
  split at h
  · cases h
    rw [length_drop]
    omega
  · cases h

variable {conn rest : Bytes}

lemma length_of_readPayload {frameType flags : UInt8} {streamId : UInt32} {length : Nat}
    (h : readPayload maxPayload frameType flags streamId length conn = (.ok frame, rest)) :
    rest.length ≤ conn.length := by
  unfold readPayload at h
  generalize (if maxPayload < 0 ∨ maxPayload > maxPayloadLength then (maxPayloadLength : Int)
    else maxPayload) = limit at h
  split at h
  · cases h
  dsimp only at h
  split at h
  · cases h
  split at h
  · cases h
  · rename_i hread
    have hlen := length_of_readFull hread
    split at h
    · cases h
    · cases h
      omega

lemma length_of_readFrame
    (h : readFrame maxPayload conn = (.ok frame, rest)) : rest.length < conn.length := by
  unfold readFrame at h
  split at h
  · cases h
  · rename_i hread
    have hheader := length_of_readFull hread
    have hpay := length_of_readPayload h
    unfold headerSize at hheader
    omega

end SingBox.Shuttle
