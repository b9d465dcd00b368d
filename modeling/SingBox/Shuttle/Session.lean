import SingBox.Shuttle.Frame

/-! Sessions: the limits under which a connection carries one stream after another, and the
pings by which each side learns whether the other one is still there. -/

namespace SingBox.Shuttle
open Lib Codec

def keepaliveMagic : UInt8 := 0x6e

structure Ping where
  timestamp : UInt64
  counter : UInt32
  token : UInt32
  deriving DecidableEq

structure Pong where
  counter : UInt32
  token : UInt32
  deriving DecidableEq

variable (ping : Ping)

def encodePing : Bytes :=
  [keepaliveMagic] ++ putBigEndian 8 ping.timestamp.toNat ++ putBigEndian 4 ping.counter.toNat ++
    putBigEndian 4 ping.token.toNat

def encodePong (pong : Pong) : Bytes :=
  [keepaliveMagic] ++ putBigEndian 4 pong.counter.toNat ++ putBigEndian 4 pong.token.toNat

def decodePong (payload : Bytes) : Except String Pong :=
  if payload.length ≠ 9 then .error ("invalid pong length: " ++ toString payload.length)
  else if payload.getD 0 0 ≠ keepaliveMagic then
    .error ("invalid pong magic: " ++ toString (payload.getD 0 0))
  else .ok {
    counter := UInt32.ofNat (ofBigEndian (payload.extract 1 5))
    token := UInt32.ofNat (ofBigEndian (payload.extract 5 9)) }

def validatePong (pong : Pong) : Option String :=
  if ping.counter ≠ pong.counter ∨ ping.token ≠ pong.token then some "pong mismatch" else none

def pingFrame : Frame :=
  { type := FrameType.ping, flags := 0, streamId := 0, payload := encodePing ping }

/-- The end of `sendKeepalive` and of `sendPing`: whether what was read next, if anything,
answers the ping. -/
def answered : Except String Frame → Bool
  | .error _ => false
  | .ok frame =>
    if frame.type ≠ FrameType.pong then false
    else
      match decodePong frame.payload with
      | .error _ => false
      | .ok pong => (validatePong ping pong).isNone

namespace Capability

def reuse : UInt16 := 0x0001
def keepalive : UInt16 := 0x0002
def udpAssociate : UInt16 := 0x0004

end Capability

/-- What `newClientSession` reads of the options. -/
structure SessionOptions where
  maxRequests : UInt32 := 0
  idleTimeout : Nat := 0
  maxAge : Nat := 0
  keepaliveInterval : Nat := 0

/-- `clientSession`. Times and durations are in milliseconds. -/
structure ClientSession where
  capabilities : UInt16
  maxStreams : UInt16
  maxRequests : UInt32 := 0
  idleTimeout : Nat := 0
  maxAge : Nat := 0
  keepalive : Nat := 0
  createdAt : Nat := 0
  active : Bool := false
  closed : Bool := false
  streamCount : UInt16 := 0
  requestCount : UInt32 := 0
  lastActivity : Nat := 0
  counter : UInt32 := 0
  deriving DecidableEq

def newClientSession (now : Nat) (capabilities maxStreams : UInt16) (opts : SessionOptions) :
    ClientSession where
  capabilities
  maxStreams
  maxRequests := opts.maxRequests
  idleTimeout := opts.idleTimeout
  maxAge := opts.maxAge
  keepalive := opts.keepaliveInterval
  createdAt := now
  lastActivity := now

namespace ClientSession

variable (s : ClientSession) (now : Nat)

def canOpenLocked : Bool :=
  if s.closed || s.active then false
  else if s.capabilities &&& Capability.reuse = 0 ∧ s.streamCount > 0 then false
  else if s.streamCount ≥ s.maxStreams then false
  else if s.maxRequests > 0 ∧ s.requestCount ≥ s.maxRequests then false
  else if s.maxAge > 0 ∧ now - s.createdAt ≥ s.maxAge then false
  else if s.idleTimeout > 0 ∧ now - s.lastActivity ≥ s.idleTimeout then false
  else true

def tryAcquire : Option ClientSession :=
  if s.canOpenLocked now then
    some { s with
      active := true
      streamCount := s.streamCount + 1
      requestCount := s.requestCount + 1
      lastActivity := now }
  else none

def close : ClientSession := { s with closed := true }

def release (reusable : Bool) (now : Nat) : ClientSession :=
  let s := { s with active := false, lastActivity := now }
  if !reusable || !s.canOpenLocked now then s.close else s

def markActivity : ClientSession := { s with lastActivity := now }

def keepaliveEnabled : Bool := s.capabilities &&& Capability.keepalive ≠ 0 ∧ s.keepalive > 0

def hasLifecycleTimers : Bool := s.maxAge > 0 ∨ s.idleTimeout > 0

def checkLifecycle : Bool × ClientSession :=
  let tooOld : Bool := s.maxAge > 0 ∧ now - s.createdAt ≥ s.maxAge
  let idle : Bool := !s.active ∧ s.idleTimeout > 0 ∧ now - s.lastActivity ≥ s.idleTimeout
  if s.closed then (false, s)
  else if tooOld || idle then (false, s.close)
  else (true, s)

/-- `sendKeepalive`. The connection takes the ping and gives the next frame that can be read
from it, or the error of the write, of the read or of the deadline. -/
def sendKeepalive (token : UInt32) (conn : Frame → Except String Frame) : Bool × ClientSession :=
  if s.closed || s.active then (!s.closed, s)
  else
    let counter := s.counter + 1
    let s := { s with counter, lastActivity := now }
    let ping : Ping := { timestamp := UInt64.ofNat now, counter, token }
    if answered ping (conn (pingFrame ping)) then (true, s.markActivity now)
    else (false, s.close)

/-- One turn of `backgroundLoop`, and whether there is a next one. -/
def tick (token : UInt32) (conn : Frame → Except String Frame) : Bool × ClientSession :=
  match s.checkLifecycle now with
  | (false, s) => (false, s)
  | (true, s) => if s.keepaliveEnabled then s.sendKeepalive now token conn else (true, s)

/-- What it takes to open a session. -/
structure Openable (s : ClientSession) (now : Nat) : Prop where
  closed : s.closed = false
  active : s.active = false
  streams : s.streamCount < s.maxStreams
  requests : 0 < s.maxRequests → s.requestCount < s.maxRequests
  young : 0 < s.maxAge → now - s.createdAt < s.maxAge

variable {now : Nat}

lemma openable_of_canOpenLocked {s : ClientSession} (h : s.canOpenLocked now) : s.Openable now := by
  unfold ClientSession.canOpenLocked at h
  split at h
  · cases h
  rename_i hopen
  split at h
  · cases h
  split at h
  · cases h
  rename_i hstrs
  split at h
  · cases h
  rename_i hreqs
  split at h
  · cases h
  rename_i hage
  simp only [Bool.or_eq_true, not_or, Bool.not_eq_true] at hopen
  refine ⟨hopen.1, hopen.2, by simpa using hstrs, fun hpos => ?_, fun hpos => ?_⟩
  · by_contra hle
    exact hreqs ⟨hpos, by simpa using hle⟩
  · by_contra hle
    exact hage ⟨hpos, by omega⟩

lemma tryAcquire_eq_some {s s' : ClientSession} (h : s.tryAcquire now = some s') :
    s.Openable now ∧ s' = { s with
      active := true
      streamCount := s.streamCount + 1
      requestCount := s.requestCount + 1
      lastActivity := now } := by
  obtain ⟨hopen, hs'⟩ := Option.ite_none_right_eq_some.mp h
  exact ⟨openable_of_canOpenLocked hopen, (Option.some.inj hs').symm⟩

end ClientSession

structure InboundSession where
  capabilities : UInt16
  maxStreams : UInt16
  maxRequests : UInt32 := 0
  idleTimeout : Nat := 0
  maxAge : Nat := 0
  keepalive : Nat := 0
  createdAt : Nat := 0
  active : Bool := false
  closed : Bool := false
  streamCount : UInt16 := 0
  requestCount : UInt32 := 0
  lastActivity : Nat := 0
  counter : UInt32 := 0
  closeReason : String := ""
  deriving DecidableEq

def newInboundSession (now : Nat) (capabilities maxStreams : UInt16) (opts : SessionOptions) :
    InboundSession where
  capabilities
  maxStreams
  maxRequests := opts.maxRequests
  idleTimeout := opts.idleTimeout
  maxAge := opts.maxAge
  keepalive := opts.keepaliveInterval
  createdAt := now
  lastActivity := now

namespace InboundSession

variable (s : InboundSession) (now : Nat)

def canAccept : Option InboundSession :=
  if s.closed then none
  else if s.active then none
  else if s.streamCount ≥ s.maxStreams then none
  else if s.maxRequests > 0 ∧ s.requestCount ≥ s.maxRequests then none
  else if s.maxAge > 0 ∧ now - s.createdAt ≥ s.maxAge then none
  else if s.idleTimeout > 0 ∧ now - s.lastActivity ≥ s.idleTimeout then none
  else some { s with
    streamCount := s.streamCount + 1
    requestCount := s.requestCount + 1
    lastActivity := now
    active := true }

def reusable : Bool :=
  !s.closed ∧ s.capabilities &&& Capability.reuse ≠ 0 ∧ s.streamCount < s.maxStreams ∧
    (s.maxRequests = 0 ∨ s.requestCount < s.maxRequests) ∧
    (s.maxAge = 0 ∨ now - s.createdAt < s.maxAge)

def close : InboundSession := { s with closed := true }

def release : InboundSession :=
  let s := { s with active := false, lastActivity := now }
  if s.reusable now then s else s.close

def keepaliveEnabled : Bool := s.capabilities &&& Capability.keepalive ≠ 0 ∧ s.keepalive > 0

def checkLifecycle : Bool × InboundSession :=
  let tooOld : Bool := s.maxAge > 0 ∧ now - s.createdAt ≥ s.maxAge
  let idle : Bool := !s.active ∧ s.idleTimeout > 0 ∧ now - s.lastActivity ≥ s.idleTimeout
  if s.closed then (false, s)
  else if tooOld then (false, { s with closeReason := "max age exceeded" }.close)
  else if idle then (false, { s with closeReason := "idle timeout" }.close)
  else (true, s)

/-- `sendPing`, with the connection as for `sendKeepalive`. -/
def sendPing (token : UInt32) (conn : Frame → Except String Frame) : Bool × InboundSession :=
  if s.active then (true, s)
  else if s.closed then (false, s)
  else
    let counter := s.counter + 1
    let s := { s with counter, lastActivity := now }
    let ping : Ping := { timestamp := UInt64.ofNat now, counter, token }
    if answered ping (conn (pingFrame ping)) then (true, { s with lastActivity := now })
    else (false, { s with closeReason := "keepalive timeout" }.close)

/-- One turn of the loop of `startKeepalive`. -/
def tick (token : UInt32) (conn : Frame → Except String Frame) : Bool × InboundSession :=
  match s.checkLifecycle now with
  | (false, s) => (false, s)
  | (true, s) => s.sendPing now token conn

end InboundSession

end SingBox.Shuttle
