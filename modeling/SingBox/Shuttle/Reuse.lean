import SingBox.Lib.Machine
import SingBox.Shuttle.Stream
import SingBox.Shuttle.Session

/-! One session of the pool and the streams that are opened on it one after another, while
frames of the peer are on their way. The streams of UDP associations, which `openUDPAssociation`
opens and `ReadFrom` reads, are left out. -/

namespace SingBox.Shuttle.Reuse
open Lib Machine Option List FrameType

/-- A frame on its way to the client, with the stream that the peer sent it for; a frame of
the session itself is for none. -/
structure InFlight where
  stream : Option Nat
  frame : Frame
  deriving DecidableEq

/-- How far a stream is: `DialContext` waits for the response, and may have answered a ping;
the stream is used; `Close` has written its frame and waits for one more. -/
inductive Phase
  | opening (pinged : Bool)
  | streaming
  | draining
  deriving DecidableEq

/-- The stream that has the session, by its number among the streams of the session. -/
structure Current where
  stream : Nat
  conn : StreamConn
  phase : Phase
  deriving DecidableEq

/-- What became of a frame that a stream took. -/
inductive Outcome
  | answered
  | openResponse
  | refused (err : Bytes)
  | read (result : Option Read)
  deriving DecidableEq

structure Taken where
  stream : Nat
  frame : InFlight
  outcome : Outcome
  deriving DecidableEq

/-- A session, the ids of the streams opened on it, the frames that have not been read and the
frames that streams have taken so far. -/
structure State where
  session : ClientSession
  nextStreamId : UInt32 := 1
  streams : List UInt32 := []
  current : Option Current := none
  inbox : List InFlight := []
  taken : List Taken := []
  deriving DecidableEq

inductive Action
  /-- `OpenStream` and the open request. -/
  | openStream (now : Nat)
  /-- A stream of another session is given an id. -/
  | elsewhere
  /-- The peer sends a frame. -/
  | send (frame : InFlight)
  /-- The stream takes the next frame, for `DialContext` or for a `Read` with a buffer of this
  size. -/
  | receive (size : Nat)
  /-- A `Read` that is served from what is buffered. -/
  | readBuffered (size : Nat)
  /-- `Close` up to its read. -/
  | close
  /-- The rest of `Close`: a frame arrived before the deadline or none did. -/
  | drain (arrived : Bool) (now : Nat)
  /-- A keepalive between streams; the next frame is taken for its answer. -/
  | keepalive (now : Nat) (token : UInt32)

/-- `allocateStreamID`: the number after this one. -/
def nextId (streamId : UInt32) : UInt32 := if streamId + 1 = 0 then 1 else streamId + 1

/-- A frame that the peer may send: well formed, and on a stream that was opened. -/
def InFlight.valid (f : InFlight) (streams : List UInt32) : Bool :=
  (validateFrameState f.frame).isNone &&
    match f.stream with
    | none => isControl f.frame.type
    | some n => !isControl f.frame.type && streams[n]? = some f.frame.streamId

namespace Current

def waiting (cur : Current) : Bool :=
  cur.conn.firstPayload = [] ∧ cur.conn.readBuffer = [] ∧ cur.conn.readEOF = false

/-- The stream with the frame that it takes. -/
def receive (cur : Current) (size : Nat) (frame : Frame) : Option (Outcome × Current) :=
  match cur.phase with
  | .opening pinged =>
    if frame.type = ping ∧ pinged = false then
      some (.answered, { cur with
        conn := { cur.conn with written := cur.conn.written ++ [pongFrame frame.payload] }
        phase := .opening true })
    else
      match checkOpenResponse frame with
      | .ok () => some (.openResponse, { cur with phase := .streaming })
      | .error err => some (.refused err, { cur with phase := .draining })
  | .streaming =>
    if cur.waiting then
      let next := cur.conn.onFrame size frame
      some (.read next.1, { cur with conn := next.2 })
    else none
  | .draining => none

end Current

def step : Machine State Action
  | s, .openStream now =>
    if s.current.isSome then none
    else (s.session.tryAcquire now).map fun session => { s with
      session
      nextStreamId := nextId s.nextStreamId
      streams := s.streams ++ [s.nextStreamId]
      current := some {
        stream := s.streams.length
        conn := { streamId := s.nextStreamId }
        phase := .opening false } }
  | s, .elsewhere => some { s with nextStreamId := nextId s.nextStreamId }
  | s, .send f => if f.valid s.streams then some { s with inbox := s.inbox ++ [f] } else none
  | s, .receive size =>
    match s.current, s.inbox with
    | some cur, f :: inbox => (cur.receive size f.frame).map fun next => { s with
        current := some next.2
        inbox
        taken := { stream := cur.stream, frame := f, outcome := next.1 } :: s.taken }
    | _, _ => none
  | s, .readBuffered size =>
    s.current.bind fun cur =>
      if cur.phase = .streaming ∧ cur.conn.readBuffer ≠ [] then
        some { s with current := some { cur with conn := (cur.conn.takeBuffered size).2 } }
      else none
  | s, .close =>
    s.current.bind fun cur =>
      if cur.phase = .streaming then
        some { s with current := some { cur with phase := .draining } }
      else none
  | s, .drain arrived now =>
    s.current.bind fun cur =>
      if cur.phase = .draining ∧ (arrived = true → s.inbox ≠ []) then
        some { s with
          current := none
          session := s.session.release true now
          inbox := if arrived then s.inbox.tail else s.inbox }
      else none
  | s, .keepalive now token =>
    if s.current.isSome || s.session.closed then none
    else
      let conn : Frame → Except String Frame := fun _ =>
        match s.inbox with
        | [] => .error "i/o timeout"
        | f :: _ => .ok f.frame
      some { s with
        session := (s.session.sendKeepalive now token conn).2
        inbox := s.inbox.tail }

variable (s : State)

/-- No stream has taken a frame of another stream, neither as its response nor as part of what
it reads. -/
def Clean : Prop :=
  ∀ t ∈ s.taken, t.frame.stream = none ∨ t.frame.stream = some t.stream

/-- The peer sends nothing for a stream that was given back, and a stream is given back with
no frame of it unread but the next one, which arrives in time. Neither matters once the
session is closed. -/
def Settled : Action → Prop
  | .send f => s.session.closed = true ∨ f.stream = none ∨ f.stream = s.current.map Current.stream
  | .drain arrived now => (s.session.release true now).closed = true ∨
      ∀ f ∈ (if arrived then s.inbox.tail else s.inbox), f.stream = none
  | _ => True

section Invariant

/-- What is in flight is for the stream that has the session, or the session is closed and
will have no other. -/
structure Separate (s : State) : Prop where
  clean : Clean s
  inbox : s.session.closed = true ∨
    ∀ f ∈ s.inbox, f.stream = none ∨ f.stream = s.current.map Current.stream
  closed : s.session.closed = true → s.current = none

variable {s t : State} {now : Nat}

lemma closed_of_tryAcquire {session session' : ClientSession}
    (h : session.tryAcquire now = some session') :
    session.closed = false ∧ session'.closed = false := by
  obtain ⟨hopen, rfl⟩ := ClientSession.tryAcquire_eq_some h
  exact ⟨hopen.closed, hopen.closed⟩

variable {size : Nat}

lemma stream_of_receive {cur : Current} {frame : Frame} {next : Outcome × Current}
    (h : cur.receive size frame = some next) : next.2.stream = cur.stream := by
  unfold Current.receive at h
  repeat' split at h
  all_goals cases h
  all_goals rfl

section
variable (hs : Separate s)
include hs

lemma separate_openStream (h : step s (.openStream now) = some t) : Separate t := by
  simp only [step] at h
  split at h
  · cases h
  rename_i hnone
  obtain ⟨session, hacq, rfl⟩ := map_eq_some_iff.mp h
  obtain ⟨hopen, hclosed⟩ := closed_of_tryAcquire hacq
  have hcur : s.current = none := by simpa using hnone
  refine ⟨hs.clean, .inr ?_, fun h => ?_⟩
  · intro f hf
    obtain hc | hinbox := hs.inbox
    · simp [hopen] at hc
    · obtain hf | hf := hinbox f hf
      · exact .inl hf
      · rw [hcur] at hf
        exact .inl hf
  · simp [hclosed] at h

lemma separate_send {f : InFlight} (hsettled : Settled s (.send f))
    (h : step s (.send f) = some t) : Separate t := by
  simp only [step] at h
  split at h
  · cases h
    refine { hs with inbox := ?_ }
    obtain hclosed | hfor := hsettled
    · exact .inl hclosed
    · obtain hclosed | hinbox := hs.inbox
      · exact .inl hclosed
      · refine .inr fun g hg => ?_
        obtain hg | hg := mem_append.mp hg
        · exact hinbox g hg
        · rwa [mem_singleton.mp hg]
  · cases h

lemma separate_receive (h : step s (.receive size) = some t) : Separate t := by
  simp only [step] at h
  split at h
  · rename_i cur f inbox hcur hinbox
    obtain ⟨next, hreceive, rfl⟩ := map_eq_some_iff.mp h
    have hstr := stream_of_receive hreceive
    have hopen : ¬ s.session.closed := fun hclosed => by
      simp [hs.closed hclosed] at hcur
    have hall := hs.inbox.resolve_left hopen
    rw [hinbox, hcur] at hall
    refine ⟨?_, .inr ?_, fun hclosed => absurd hclosed hopen⟩
    · intro taken htaken
      obtain rfl | htaken := mem_cons.mp htaken
      · exact hall f mem_cons_self
      · exact hs.clean taken htaken
    · intro g hg
      change g.stream = none ∨ g.stream = some next.2.stream
      rw [hstr]
      exact hall g (mem_cons_of_mem f hg)
  · cases h

lemma separate_of_current {cur cur' : Current} (hcur : s.current = some cur)
    (hstr : cur'.stream = cur.stream) : Separate { s with current := some cur' } := by
  refine ⟨hs.clean, ?_, fun hclosed => ?_⟩
  · obtain hclosed | hinbox := hs.inbox
    · exact .inl hclosed
    · refine .inr fun f hf => ?_
      have := hinbox f hf
      rw [hcur] at this
      change f.stream = none ∨ f.stream = some cur'.stream
      rwa [hstr]
  · simp [hs.closed hclosed] at hcur

lemma separate_keepalive {token : UInt32}
    (h : step s (.keepalive now token) = some t) : Separate t := by
  simp only [step] at h
  split at h
  · cases h
  rename_i hidle
  cases h
  simp only [Bool.or_eq_true, not_or, Bool.not_eq_true, isSome_eq_false_iff,
    isNone_iff_eq_none] at hidle
  obtain ⟨hcur, hopen⟩ := hidle
  refine ⟨hs.clean, ?_, fun _ => hcur⟩
  obtain hclosed | hinbox := hs.inbox
  · simp [hopen] at hclosed
  · exact .inr fun f hf => hinbox f (mem_of_mem_tail hf)

end

lemma separate_step {a : Action} (hsettled : Settled s a) (h : step s a = some t)
    (hs : Separate s) : Separate t := by
  cases a with
  | openStream now => exact separate_openStream hs h
  | elsewhere =>
    cases h
    exact { hs with }
  | send f => exact separate_send hs hsettled h
  | receive size => exact separate_receive hs h
  | readBuffered size | close =>
    obtain ⟨cur, hcur, h⟩ := bind_eq_some_iff.mp h
    split at h
    · cases h
      exact separate_of_current hs hcur rfl
    · cases h
  | drain arrived now =>
    obtain ⟨cur, -, h⟩ := bind_eq_some_iff.mp h
    split at h
    · cases h
      refine ⟨hs.clean, ?_, fun _ => rfl⟩
      obtain hclosed | hrest := hsettled
      · exact .inl hclosed
      · exact .inr fun f hf => .inl (hrest f hf)
    · cases h
  | keepalive now token => exact separate_keepalive hs h

end Invariant

/-- In every run in which streams are given back with nothing of them left to come, no stream
takes a frame of another. -/
theorem reuse_clean {session : ClientSession} {s : State}
    (h : Reaches step Settled { session } s) : Clean s := by
  have hstart : Separate { session } :=
    ⟨fun t ht => absurd ht not_mem_nil, .inr fun f hf => absurd hf not_mem_nil, fun _ => rfl⟩
  exact (h.invariant hstart separate_step).clean

instance (s : State) : Decidable (Clean s) :=
  inferInstanceAs (Decidable (∀ t ∈ s.taken, t.frame.stream = none ∨ t.frame.stream = some t.stream))

instance (s : State) : (a : Action) → Decidable (Settled s a)
  | .send f => inferInstanceAs (Decidable (s.session.closed = true ∨ f.stream = none ∨
      f.stream = s.current.map Current.stream))
  | .drain arrived now => inferInstanceAs (Decidable ((s.session.release true now).closed = true ∨
      ∀ f ∈ (if arrived then s.inbox.tail else s.inbox), f.stream = none))
  | .openStream _ | .elsewhere | .receive _ | .readBuffered _ | .close | .keepalive _ _ => isTrue ⟨⟩

section Runs

def sampleSession : ClientSession where
  capabilities := Capability.reuse
  maxStreams := 8

/-- A frame that the peer sends for a stream, whose id is one more than its number here. -/
def sent (stream : Nat) (type : UInt8) (payload : Bytes) : Action :=
  .send { stream := some stream
          frame := { type, flags := 0, streamId := UInt32.ofNat (stream + 1), payload } }

def opened (stream : Nat) : List Action :=
  [.openStream 0, sent stream openResponse [0, 0, 0], .receive 0]

/-- A stream whose last frame comes while it is closed, and another stream. -/
def twoStreams : List Action :=
  opened 0 ++ [sent 0 data [1, 2], .receive 1, .readBuffered 1, .close,
    sent 0 endResponse [], .drain true 5] ++ opened 1

theorem reuse_clean_two_streams : ∃ s, run step { session := sampleSession } twoStreams = some s ∧
      s.taken.length = 3 ∧ Clean s := by
  refine exists_checked (fun s a => decide (Settled s a)) (by decide) fun hs => ⟨by decide, ?_⟩
  exact reuse_clean (.runChecked (fun _ _ h => of_decide_eq_true h) .start hs)

/-- A stream that is closed with two frames of it unread, and the next stream. -/
def closedEarly : List Action :=
  opened 0 ++ [sent 0 data [1], sent 0 endResponse [], .close,
    .drain true 5, .openStream 5, .receive 0]

/-- A stream whose peer pings twice before it accepts it, and the next stream. -/
def acceptedLate : List Action :=
  let ping : Action := .send { stream := none, frame := pingFrame ⟨0, 0, 0⟩ }
  [.openStream 0, ping, ping, .receive 0, .receive 0, .drain false 5,
    sent 0 openResponse [0, 0, 0], .openStream 5, .receive 0]

/-- What the last frame was that a stream took: the number of the stream, that of the stream it
was sent for, and what became of it. -/
def lastTaken : Option (Nat × Option Nat × Outcome) :=
  s.taken.head?.map fun t => (t.stream, t.frame.stream, t.outcome)

/-- The end of the first stream fails the second, and a late response of the first is taken
for the response of the second. -/
theorem stale_frames_taken :
    (∃ s, run step { session := sampleSession } closedEarly = some s ∧ ¬ Clean s ∧
      lastTaken s = some (1, some 0, .refused (utf8 "expected open response, got frame type: 7"))) ∧
    ∃ s, run step { session := sampleSession } acceptedLate = some s ∧ ¬ Clean s ∧
      lastTaken s = some (1, some 0, .openResponse) := by
  constructor
  · exact exists_end (by decide +kernel) fun _ => by decide +kernel
  · exact exists_end (by decide) fun _ => by decide

end Runs

end SingBox.Shuttle.Reuse
