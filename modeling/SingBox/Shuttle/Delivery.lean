import SingBox.Shuttle.Stream

/-! What a stream delivers of what its peer sent on it, for every way of cutting it into
frames and every size of the buffers it is read into. -/

namespace SingBox.Shuttle
open Lib Codec Reader List Nat FrameType

inductive SentKind
  | data
  | ping
  | pong
  deriving DecidableEq

/-- A frame that the peer sends while the stream is open: part of what is written on the
stream, or a control frame between such parts. -/
structure Sent where
  kind : SentKind
  flags : UInt8 := 0
  payload : Bytes
  fits : payload.length ≤ maxPayloadLength

namespace Sent

def frame (streamId : UInt32) (sent : Sent) : Frame :=
  match sent.kind with
  | .data => { type := data, flags := sent.flags, streamId, payload := sent.payload }
  | .ping => { type := ping, flags := sent.flags, streamId := 0, payload := sent.payload }
  | .pong => { type := pong, flags := sent.flags, streamId := 0, payload := sent.payload }

def bytes (sent : Sent) : Bytes := if sent.kind = .data then sent.payload else []

end Sent

def carried (sent : List Sent) : Bytes := sent.flatMap Sent.bytes

/-- The reading end of a stream whose peer has sent these frames and closed it; more may
follow on the connection. -/
def receiving (streamId : UInt32) (sent : List Sent) (later : Bytes) : StreamConn :=
  { streamId, conn := wire (sent.map (Sent.frame streamId) ++ [endFrame streamId]) ++ later }

/-- The end that reads gets these bytes and then the end of the stream. -/
structure Transparent (streamId : UInt32) (sent : List Sent) (later bytes : Bytes) : Prop where
  delivers : ∀ sizes, Delivers bytes (reads StreamConn.read (receiving streamId sent later) sizes)
  complete : ∀ sizes, (∀ size ∈ sizes, 0 < size) → bytes.length < sizes.length →
    delivered (reads StreamConn.read (receiving streamId sent later) sizes) = bytes ∧
      ∃ call ∈ reads StreamConn.read (receiving streamId sent later) sizes, call.2 = .eof

section Write

/-- One piece of a call of `Write`. -/
def Sent.ofData (payload : Bytes) (fits : payload.length ≤ maxPayloadLength) : Sent :=
  { kind := .data, payload, fits }

lemma writeLoop_carried (streamId : UInt32) {fuel : Nat} {p : Bytes} (h : p.length ≤ fuel) :
    ∃ sent : List Sent, (∀ s ∈ sent, s.kind = .data) ∧
      sent.map (Sent.frame streamId) = StreamConn.writeLoop streamId fuel p ∧ carried sent = p := by
  induction fuel generalizing p with
  | zero => exact ⟨[], by simp, rfl, (length_eq_zero_iff.mp (le_zero.mp h)).symm⟩
  | succ fuel ih =>
    by_cases hp : p = []
    · exact ⟨[], by simp, by simp [StreamConn.writeLoop, hp], hp.symm⟩
    · have hless : (p.drop maxPayloadLength).length ≤ fuel := by
        rw [length_drop]
        unfold maxPayloadLength
        omega
      obtain ⟨sent, hdata, hframes, hbytes⟩ := ih hless
      refine ⟨Sent.ofData (p.take maxPayloadLength) (length_take_le ..) :: sent, ?_, ?_, ?_⟩
      · intro s hs
        obtain rfl | hs := mem_cons.mp hs
        · rfl
        · exact hdata s hs
      · rw [StreamConn.writeLoop, if_neg hp, ← hframes]
        rfl
      · change p.take maxPayloadLength ++ carried sent = p
        rw [hbytes, take_append_drop]

lemma carried_append (sent more : List Sent) :
    carried (sent ++ more) = carried sent ++ carried more :=
  flatMap_append

/-- The frames of calls of `Write` are one way of cutting what was written. -/
theorem writes_carried (c : StreamConn) (writes : List Bytes) :
    ∃ sent : List Sent, (∀ s ∈ sent, s.kind = .data) ∧
      (writes.foldl StreamConn.write c).written = c.written ++ sent.map (Sent.frame c.streamId) ∧
      carried sent = writes.flatten := by
  induction writes generalizing c with
  | nil => exact ⟨[], by simp, by simp, rfl⟩
  | cons p writes ih =>
    obtain ⟨first, hfirst, hframes, hbytes⟩ := writeLoop_carried c.streamId (le_refl p.length)
    obtain ⟨sent, hdata, hwritten, hrest⟩ := ih (c.write p)
    refine ⟨first ++ sent, ?_, ?_, ?_⟩
    · intro s hs
      obtain hs | hs := mem_append.mp hs
      · exact hfirst s hs
      · exact hdata s hs
    · rw [foldl_cons, hwritten, map_append, hframes, ← append_assoc]
      rfl
    · rw [carried_append, hbytes, hrest, flatten_cons]

end Write

/-- What is left to deliver: what is buffered and what the frames on the connection carry, or
nothing after the end. -/
inductive Holds (streamId : UInt32) (later : Bytes) : StreamConn → Bytes → Prop
  | more {c : StreamConn} {sent : List Sent} (hstream : c.streamId = streamId)
      (hfirst : c.firstPayload = []) (heof : c.readEOF = false) (hdata : ∀ s ∈ sent, s.kind = .data)
      (hconn : c.conn = wire (sent.map (Sent.frame streamId) ++ [endFrame streamId]) ++ later) :
      Holds streamId later c (c.readBuffer ++ carried sent)
  | done {c : StreamConn} (hfirst : c.firstPayload = []) (hbuffer : c.readBuffer = [])
      (heof : c.readEOF = true) : Holds streamId later c []

lemma take_ne_nil {bytes : Bytes} (h : bytes ≠ []) {size : Nat} (hsize : 0 < size) :
    bytes.take size ≠ [] := by
  simp [h, Nat.pos_iff_ne_zero.mp hsize]

lemma streamId_of_control {streamId : UInt32} {s : Sent} (h : s.kind ≠ .data) :
    (s.frame streamId).streamId = 0 := by
  obtain ⟨kind, flags, payload, fits⟩ := s
  cases kind with
  | data => exact absurd rfl h
  | ping | pong => rfl

section Read

variable {streamId : UInt32} (hid : streamId ≠ 0)
include hid

lemma validateFrameState_of_stream {frame : Frame} (htype : validFrameType frame.type)
    (hctl : isControl frame.type = false) (hstream : frame.streamId = streamId) :
    validateFrameState frame = none := by
  simp [validateFrameState, htype, hctl, hstream, hid]

lemma sendable_frame (s : Sent) : Sendable (s.frame streamId) := by
  obtain ⟨kind, flags, payload, fits⟩ := s
  cases kind with
  | data => exact ⟨validateFrameState_of_stream hid rfl rfl rfl, fits⟩
  | ping | pong => exact ⟨rfl, fits⟩

lemma sendable_endFrame : Sendable (endFrame streamId) :=
  ⟨validateFrameState_of_stream hid rfl rfl rfl, zero_le _⟩

variable {sent : List Sent} (later : Bytes) {c : StreamConn}

/-- `Read` while nothing is buffered: empty frames are passed over, then a frame is buffered
or the stream ends. -/
theorem good_of_waiting (size : Nat) (hdata : ∀ s ∈ sent, s.kind = .data)
    (hw : c.Waiting) (hstream : c.streamId = streamId)
    (hconn : c.conn = wire (sent.map (Sent.frame streamId) ++ [endFrame streamId]) ++ later) :
    Good (Holds streamId later) size (carried sent) (c.read size) := by
  induction sent generalizing c with
  | nil =>
    have hframe := readFrame_wire (sendable_endFrame hid) [] later
    rw [hw.read_endFrame (hconn ▸ hframe) hstream.symm]
    exact .eof (.done hw.firstPayload hw.readBuffer rfl)
  | cons s sent ih =>
    have hkind : s.kind = .data := hdata s mem_cons_self
    have hrest : ∀ t ∈ sent, t.kind = .data := fun t ht => hdata t (mem_cons_of_mem s ht)
    have hbytes : carried (s :: sent) = s.payload ++ carried sent := by
      change s.bytes ++ carried sent = _
      rw [Sent.bytes, if_pos hkind]
    have hid' : (s.frame streamId).streamId = c.streamId := by rw [Sent.frame, hkind, hstream]
    have htype : (s.frame streamId).type = data := by rw [Sent.frame, hkind]
    have hpay : (s.frame streamId).payload = s.payload := by rw [Sent.frame, hkind]
    have hframe := readFrame_wire (sendable_frame hid s)
      (sent.map (Sent.frame streamId) ++ [endFrame streamId]) later
    rw [hbytes]
    by_cases hnil : s.payload = []
    · rw [hw.read_empty (hconn ▸ hframe) hid' htype (hpay.trans hnil), hnil]
      exact ih hrest (hw.with_conn _) hstream rfl
    · rw [hw.read_data (hconn ▸ hframe) hid' htype (hpay ▸ hnil), hpay]
      have hsplit : s.payload ++ carried sent =
          s.payload.take size ++ (s.payload.drop size ++ carried sent) := by
        rw [← append_assoc, take_append_drop]
      rw [hsplit]
      exact .data (length_take_le ..) (take_ne_nil hnil)
        (.more hstream hw.firstPayload hw.readEOF hrest rfl)

lemma good_of_holds (c : StreamConn) (bytes : Bytes) (size : Nat)
    (h : Holds streamId later c bytes) : Good (Holds streamId later) size bytes (c.read size) := by
  cases h with
  | @more sent hstream hfirst heof hdata hconn =>
    by_cases hbuffer : c.readBuffer = []
    · rw [hbuffer]
      exact good_of_waiting hid later size hdata ⟨hfirst, hbuffer, heof⟩ hstream hconn
    · have hread : c.read size = c.takeBuffered size := by
        simp [StreamConn.read, hfirst, length_pos_iff, hbuffer]
      have hsplit : c.readBuffer ++ carried sent =
          c.readBuffer.take size ++ (c.readBuffer.drop size ++ carried sent) := by
        rw [← append_assoc, take_append_drop]
      rw [hread, hsplit]
      exact .data (length_take_le ..) (take_ne_nil hbuffer)
        (.more hstream hfirst heof hdata hconn)
  | done hfirst hbuffer heof =>
    have hread : c.read size = (.eof, c) := by simp [StreamConn.read, hfirst, hbuffer, heof]
    rw [hread]
    exact .eof (.done hfirst hbuffer heof)

lemma delivers_of_data (hdata : ∀ s ∈ sent, s.kind = .data) (later : Bytes) (sizes : List Nat) :
    Delivers (carried sent) (reads StreamConn.read (receiving streamId sent later) sizes) :=
  delivers_of_invariant (good_of_holds hid later)
    (.more (c := receiving streamId sent later) rfl rfl rfl hdata rfl) sizes

/-- A control frame is reached after the data before it, and is an error then. -/
theorem exists_error_of_control (h : ∃ s ∈ sent, s.kind ≠ .data)
    (hw : c.Waiting) (hstream : c.streamId = streamId)
    (hconn : c.conn = wire (sent.map (Sent.frame streamId) ++ [endFrame streamId]) ++ later) :
    ∃ sizes, ∃ call ∈ reads StreamConn.read c sizes, ∃ err, call.2 = .error err := by
  induction sent generalizing c with
  | nil =>
    obtain ⟨s, hs, -⟩ := h
    cases hs
  | cons s sent ih =>
    have hframe := readFrame_wire (sendable_frame hid s)
      (sent.map (Sent.frame streamId) ++ [endFrame streamId]) later
    by_cases hkind : s.kind = .data
    · have hrest : ∃ t ∈ sent, t.kind ≠ .data := by
        obtain ⟨t, ht, hctl⟩ := h
        obtain rfl | ht := mem_cons.mp ht
        · exact absurd hkind hctl
        · exact ⟨t, ht, hctl⟩
      have hid' : (s.frame streamId).streamId = c.streamId := by rw [Sent.frame, hkind, hstream]
      have htype : (s.frame streamId).type = data := by rw [Sent.frame, hkind]
      by_cases hnil : (s.frame streamId).payload = []
      · obtain ⟨sizes, hsizes⟩ := ih hrest
          (hw.with_conn (wire (sent.map (Sent.frame streamId) ++ [endFrame streamId]) ++ later))
          hstream rfl
        refine ⟨sizes, ?_⟩
        rwa [reads_congr fun size => hw.read_empty (hconn ▸ hframe) hid' htype hnil]
      · -- a buffer of just this size leaves nothing buffered
        obtain ⟨n, hn⟩ : ∃ n, n = (s.frame streamId).payload.length := ⟨_, rfl⟩
        have hread : c.read n = _ := hw.read_data (hconn ▸ hframe) hid' htype hnil
        rw [drop_of_length_le (le_of_eq hn.symm)] at hread
        have hnext : (c.read n).2.Waiting := by
          rw [hread]
          exact { hw with readBuffer := rfl }
        obtain ⟨sizes, call, hcall, herr⟩ :=
          ih hrest hnext (by rw [hread]; exact hstream) (by rw [hread])
        exact ⟨n :: sizes, call, mem_cons_of_mem _ hcall, herr⟩
    · have hother : (s.frame streamId).streamId ≠ c.streamId := by
        rw [streamId_of_control hkind, hstream]
        exact hid.symm
      have hread : c.read 1 = _ := hw.read_other (hconn ▸ hframe) hother
      exact ⟨[1], _, mem_singleton_self _, _, congrArg Prod.fst hread⟩

/-- The stream is transparent exactly if the peer puts no control frame between its data. The
frames that `Write` makes are one of the ways to cut what is written. -/
theorem transparent_iff (writes : List Bytes) {sent : List Sent}
    (hcut : carried sent = writes.flatten) (later : Bytes) :
    (Transparent streamId sent later writes.flatten ↔ ∀ s ∈ sent, s.kind = .data) ∧
      ∃ own : List Sent, (∀ s ∈ own, s.kind = .data) ∧ carried own = writes.flatten ∧
        (writes.foldl StreamConn.write { streamId }).written = own.map (Sent.frame streamId) := by
  refine ⟨⟨?_, ?_⟩, ?_⟩
  · intro h s hs
    by_contra hkind
    obtain ⟨sizes, call, hcall, err, herr⟩ := exists_error_of_control hid later ⟨s, hs, hkind⟩
      (c := receiving streamId sent later) ⟨rfl, rfl, rfl⟩ rfl rfl
    exact (h.delivers sizes).not_error hcall err herr
  · intro hdata
    have hdelivers := delivers_of_data hid hdata later
    rw [hcut] at hdelivers
    refine ⟨hdelivers, ?_⟩
    intro sizes hpos hlen
    apply (hdelivers sizes).complete
    · intro call hcall
      exact hpos call.1 (size_mem_of_mem_reads hcall)
    · rwa [length_reads]
  · obtain ⟨own, hdata, hwritten, hbytes⟩ := writes_carried { streamId } writes
    exact ⟨own, hdata, hbytes, by simpa using hwritten⟩

end Read

/-- Two writes in three frames, one of them empty. -/
theorem transparent_three_frames :
    Transparent 5 [.ofData [1, 2] (by decide), .ofData [] (by decide), .ofData [3] (by decide)] [9]
      [1, 2, 3] :=
  (transparent_iff (show (5 : UInt32) ≠ 0 by decide) [[1], [2, 3]] (by decide) [9]).1.mpr (by decide)

def withPing : List Sent :=
  [.ofData [1] (by decide), { kind := .ping, payload := [7], fits := by decide },
    .ofData [2] (by decide)]

theorem ping_breaks_stream : ¬ Transparent 5 withPing [] [1, 2] := by
  intro h
  have hmem : (1, .error "unexpected stream id: 0") ∈
      reads StreamConn.read (receiving 5 withPing []) [1, 1] := by decide
  exact (h.delivers [1, 1]).not_error hmem _ rfl

end SingBox.Shuttle
