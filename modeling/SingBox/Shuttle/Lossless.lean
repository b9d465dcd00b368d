import SingBox.Shuttle.Request

/-! What is encoded is decoded as it was, or the encoder refuses it. -/

namespace SingBox.Shuttle
open Lib Codec Netip List AddressType BitVec UInt8

lemma extract_cons_append (type : UInt8) (bytes rest : Bytes) {j : Nat}
    (hj : 1 + bytes.length = j) : (type :: bytes ++ rest).extract 1 j = bytes :=
  extract_append_append [type] bytes rest rfl hj

lemma ofNat_ofBigEndian (n : UInt16) : UInt16.ofNat (ofBigEndian (putBigEndian 2 n.toNat)) = n := by
  have hlt : n.toNat < 256 ^ 2 := n.toNat_lt
  rw [ofBigEndian_putBigEndian hlt, UInt16.ofNat_toNat]

section Addresses

/-- The form in which an address comes back: with the type that the encoder took it to have,
and with the text of its bits if it is an IP address. -/
def Address.canonical (address : Address) : Address where
  type := address.resolvedType
  host :=
    if address.resolvedType = domain then address.host
    else (parseAddr address.host).elim address.host fun addr => addr.withoutZone.text

variable {address : Address}

lemma resolvedType_ne_zero (address : Address) : address.resolvedType ≠ 0 := by
  unfold Address.resolvedType
  split
  · split
    · split <;> decide
    · decide
  · assumption

/-- What the encoder does with an address that it accepts. -/
inductive Encoded (address : Address) : Bytes → Prop
  | ipv4 (bits : BitVec 32) (htype : address.resolvedType = ipv4)
      (hhost : parseAddr address.host = some (.v4 bits)) :
      Encoded address (ipv4 :: putBigEndian 4 bits.toNat)
  | ipv6 (bits : BitVec 128) (zone : Bytes) (htype : address.resolvedType = ipv6)
      (hhost : parseAddr address.host = some (.v6 bits zone)) :
      Encoded address (ipv6 :: putBigEndian 16 bits.toNat)
  | domain (htype : address.resolvedType = domain)
      (hne : address.host.length ≠ 0) (hle : address.host.length ≤ 255) :
      Encoded address (domain :: ofNat address.host.length :: address.host)

variable {bytes : Bytes}

lemma encoded_of_encodeAddress (h : encodeAddress address = .ok bytes) : Encoded address bytes := by
  unfold encodeAddress at h
  split at h
  · split at h
    · cases h
      exact .ipv4 _ ‹_› ‹_›
    · cases h
  split at h
  · split at h
    · cases h
      exact .ipv6 _ _ ‹_› ‹_›
    · cases h
  split at h
  · split at h
    · cases h
    · rename_i hlen
      cases h
      exact .domain ‹_› (fun h => hlen (.inl h)) (Nat.le_of_not_lt fun h => hlen (.inr h))
  · cases h

lemma decodeAddress_ipv4 (bits : BitVec 32) (rest : Bytes) :
    decodeAddress (ipv4 :: putBigEndian 4 bits.toNat ++ rest) =
      .ok ({ type := ipv4, host := (Addr.v4 bits).text }, 5) := by
  have hslice : (ipv4 :: putBigEndian 4 bits.toNat ++ rest).extract 1 5 =
      putBigEndian 4 bits.toNat :=
    extract_cons_append _ _ rest (by rw [length_putBigEndian])
  have hbits : ofBigEndian (putBigEndian 4 bits.toNat) = bits.toNat :=
    ofBigEndian_putBigEndian bits.isLt
  have htype : (ipv4 :: putBigEndian 4 bits.toNat ++ rest).getD 0 0 =
      ipv4 := rfl
  have hlen : (ipv4 :: putBigEndian 4 bits.toNat ++ rest).length = 5 + rest.length := by
    simp only [length_append, length_cons, length_putBigEndian]
  simp only [decodeAddress, htype, hlen, hslice, hbits, ofNat_toNat, setWidth_eq,
    if_true, show ¬ 5 + rest.length < 1 by omega, show ¬ 5 + rest.length < 5 by omega, if_false]

lemma decodeAddress_ipv6 (bits : BitVec 128) (rest : Bytes) :
    decodeAddress (ipv6 :: putBigEndian 16 bits.toNat ++ rest) =
      .ok ({ type := ipv6, host := (Addr.v6 bits []).text }, 17) := by
  have hslice : (ipv6 :: putBigEndian 16 bits.toNat ++ rest).extract 1 17 =
      putBigEndian 16 bits.toNat :=
    extract_cons_append _ _ rest (by rw [length_putBigEndian])
  have hlt : bits.toNat < 256 ^ 16 := bits.isLt
  have hbits := ofBigEndian_putBigEndian hlt
  have htype : (ipv6 :: putBigEndian 16 bits.toNat ++ rest).getD 0 0 =
      ipv6 := rfl
  have hlen : (ipv6 :: putBigEndian 16 bits.toNat ++ rest).length = 17 + rest.length := by
    simp only [length_append, length_cons, length_putBigEndian]
  simp only [decodeAddress, htype, hlen, hslice, hbits, ofNat_toNat, setWidth_eq,
    if_true, show ipv6 ≠ ipv4 by decide,
    show ¬ 17 + rest.length < 1 by omega, show ¬ 17 + rest.length < 17 by omega, if_false]

lemma decodeAddress_domain {host : Bytes} (hne : host.length ≠ 0) (hle : host.length ≤ 255)
    (rest : Bytes) : decodeAddress (domain :: ofNat host.length :: host ++ rest) =
      .ok ({ type := domain, host }, 2 + host.length) := by
  have hslice : (domain :: ofNat host.length :: host ++ rest).extract 2
      (2 + host.length) = host :=
    extract_append_append [domain, ofNat host.length] host rest rfl rfl
  have htype : (domain :: ofNat host.length :: host ++ rest).getD 0 0 =
      domain := rfl
  have hbyte : ((domain :: ofNat host.length :: host ++ rest).getD 1 0).toNat =
      host.length := toNat_ofNat_of_lt' (Nat.lt_of_le_of_lt hle (by decide))
  have hlen : (domain :: ofNat host.length :: host ++ rest).length =
      2 + host.length + rest.length := by
    simp only [length_append, length_cons]
    omega
  simp only [decodeAddress, htype, hlen, hbyte, hslice, hne, if_true,
    show domain ≠ ipv4 by decide,
    show domain ≠ ipv6 by decide,
    show ¬ 2 + host.length + rest.length < 1 by omega,
    show ¬ 2 + host.length + rest.length < 2 by omega,
    show ¬ 2 + host.length + rest.length < 2 + host.length by omega, if_false]

lemma decodeAddress_of_encoded (h : Encoded address bytes) (rest : Bytes) :
    decodeAddress (bytes ++ rest) = .ok (address.canonical, bytes.length) := by
  cases h with
  | ipv4 bits htype hhost =>
    rw [decodeAddress_ipv4, length_cons, length_putBigEndian, Address.canonical, htype, hhost]
    rfl
  | ipv6 bits zone htype hhost =>
    rw [decodeAddress_ipv6, length_cons, length_putBigEndian, Address.canonical, htype, hhost]
    rfl
  | domain htype hne hle =>
    rw [decodeAddress_domain hne hle, Address.canonical, htype, if_pos rfl, length_cons,
      length_cons, Nat.add_comm 2]

section
variable (h : encodeAddress address = .ok bytes)
include h

/-- An address that the encoder accepts comes back in its canonical form, whatever follows. -/
theorem decodeAddress_append
    (rest : Bytes) : decodeAddress (bytes ++ rest) = .ok (address.canonical, bytes.length) :=
  decodeAddress_of_encoded (encoded_of_encodeAddress h) rest

lemma length_of_encodeAddress : 2 < bytes.length := by
  cases encoded_of_encodeAddress h with
  | ipv4 bits | ipv6 bits => simp
  | domain htype hne hle =>
    simp only [length_cons]
    omega

end

lemma canonical_canonical (address : Address) : address.canonical.canonical = address.canonical := by
  have htype : address.canonical.resolvedType = address.resolvedType :=
    if_neg (resolvedType_ne_zero address)
  unfold Address.canonical at htype ⊢
  rw [Address.mk.injEq]
  refine ⟨htype, ?_⟩
  rw [htype]
  split
  · rfl
  · cases hparse : parseAddr address.host with
    | none => simp [hparse]
    | some addr =>
      rw [Option.elim_some, parseAddr_text, Option.elim_some]
      cases addr <;> rfl

end Addresses

section Messages

lemma decodeHello_encodeHello (hello : Hello) : decodeHello (encodeHello hello) = .ok hello := by
  have hlen : (encodeHello hello).length = 6 := by simp [encodeHello]
  have hcaps : (encodeHello hello).extract 1 3 = putBigEndian 2 hello.capabilities.toNat := rfl
  have hmax : (encodeHello hello).extract 3 5 = putBigEndian 2 hello.maxStreams.toNat := rfl
  rw [decodeHello, if_neg (by rw [hlen]; decide), hcaps, hmax, ofNat_ofBigEndian, ofNat_ofBigEndian]
  rfl

variable {bytes : Bytes}

lemma decodeOpenResponse_encodeOpenResponse {response : OpenResponse}
    (h : encodeOpenResponse response = .ok bytes) : decodeOpenResponse bytes = .ok response := by
  unfold encodeOpenResponse at h
  split at h
  · cases h
  rename_i hle
  cases h
  have hbyte := toNat_ofNat_of_lt' (Nat.lt_succ_of_le (Nat.le_of_not_lt hle))
  set payload := [response.status, response.reserved, ofNat response.message.length] ++
    response.message with hpay
  have hlen : payload.length = 3 + response.message.length := by
    rw [hpay, length_append]
    rfl
  have hlength : (payload.getD 2 0).toNat = response.message.length := hbyte
  simp only [decodeOpenResponse, hlen, hlength, show ¬ 3 + response.message.length < 3 by omega,
    ne_eq, not_true_eq_false, if_false]
  rfl

lemma decodeOpenRequest_encodeOpenRequest {request : OpenRequest}
    (h : encodeOpenRequest request = .ok bytes) :
    decodeOpenRequest bytes = .ok { request with address := request.address.canonical } := by
  unfold encodeOpenRequest at h
  split at h
  · cases h
  split at h
  · cases h
  rename_i hcmd hport
  cases haddr : encodeAddress request.address with
  | error err => rw [haddr] at h; cases h
  | ok address =>
    rw [haddr] at h
    cases h
    set payload := [request.command] ++ address ++ putBigEndian 2 request.port.toNat with hpay
    have hlen : payload.length = 1 + address.length + 2 := by
      rw [hpay, length_append, length_append, length_putBigEndian, length_singleton]
    have hget : payload.getD 0 0 = request.command := rfl
    have hdrop : payload.drop 1 = address ++ putBigEndian 2 request.port.toNat := rfl
    have hlast : payload.drop (payload.length - 2) = putBigEndian 2 request.port.toNat := by
      rw [hlen, hpay, drop_left']
      rw [length_append, length_singleton, Nat.add_sub_cancel]
    have hbound := length_of_encodeAddress haddr
    simp only [decodeOpenRequest, hget, hdrop, decodeAddress_append haddr, hlast,
      ofNat_ofBigEndian, hcmd, hport, if_false]
    rw [hlen, if_neg (by omega), if_neg (by simp)]

section Datagram

variable (address port length data : Bytes)

def datagramBytes : Bytes := [udpFragmentNone] ++ address ++ port ++ length ++ data

lemma drop_one_datagramBytes :
    (datagramBytes address port length data).drop 1 = address ++ (port ++ length ++ data) := by
  simp [datagramBytes]

variable {address port length} (hport : port.length = 2)
include hport

lemma length_datagramBytes (hlen : length.length = 2) :
    (datagramBytes address port length data).length = 1 + address.length + 4 + data.length := by
  simp only [datagramBytes, length_append, length_singleton, hport, hlen]

lemma port_of_datagramBytes :
    (datagramBytes address port length data).extract (1 + address.length) (1 + address.length + 2) =
      port := by
  rw [datagramBytes, append_assoc _ length]
  exact extract_append_append ([udpFragmentNone] ++ address) port _ (by simp; omega) (by omega)

lemma length_of_datagramBytes (hlen : length.length = 2) :
    (datagramBytes address port length data).extract (1 + address.length + 2)
      (1 + address.length + 4) = length :=
  extract_append_append ([udpFragmentNone] ++ address ++ port) length data (by simp; omega) (by omega)

lemma data_of_datagramBytes (hlen : length.length = 2) (n : Nat) :
    (datagramBytes address port length data).extract (1 + address.length + 4)
      (1 + address.length + 4 + n) = data.take n := by
  have hbefore : ([udpFragmentNone] ++ address ++ port ++ length).length =
      1 + address.length + 4 := by
    simp only [length_append, length_singleton, hport, hlen]
  rw [datagramBytes, extract_eq_take_drop, ← hbefore, drop_left, Nat.add_sub_cancel_left]

end Datagram

/-- A datagram comes back with as much of its payload as the length field says. -/
theorem decodeUDPDatagram_encodeUDPDatagram {datagram : Datagram}
    (h : encodeUDPDatagram datagram = .ok bytes) : decodeUDPDatagram bytes = .ok {
      address := datagram.address.canonical
      port := datagram.port
      payload := datagram.payload.take (datagram.payload.length % 65536) } := by
  unfold encodeUDPDatagram at h
  cases haddr : encodeAddress datagram.address with
  | error err => rw [haddr] at h; cases h
  | ok address =>
    rw [haddr] at h
    cases h
    have hport : (putBigEndian 2 datagram.port.toNat).length = 2 := length_putBigEndian ..
    have hlen : (putBigEndian 2 datagram.payload.length).length = 2 := length_putBigEndian ..
    have hdataLen : ofBigEndian (putBigEndian 2 datagram.payload.length) =
        datagram.payload.length % 65536 := ofBigEndian_putBigEndian_mod 2 _
    change decodeUDPDatagram (datagramBytes address _ _ datagram.payload) = _
    have hget : (datagramBytes address (putBigEndian 2 datagram.port.toNat)
      (putBigEndian 2 datagram.payload.length) datagram.payload).getD 0 0 = udpFragmentNone := rfl
    simp only [decodeUDPDatagram, hget, drop_one_datagramBytes, decodeAddress_append haddr,
      length_datagramBytes datagram.payload hport hlen,
      port_of_datagramBytes datagram.payload hport,
      length_of_datagramBytes datagram.payload hport hlen, hdataLen,
      data_of_datagramBytes datagram.payload hport hlen, ofNat_ofBigEndian, ne_eq,
      not_true_eq_false, if_false]
    rw [if_neg (by omega), if_neg (by omega), if_neg (by omega)]

end Messages

section Frames

/-- The two ways of writing a frame write the same bytes, and no reader that admits its payload
takes more or less than these. -/
structure FrameLossless (frame : Frame) : Prop where
  same : (writeFrame frame).map flatten = writeBufferedFrame frame
  written : frame.payload.length ≤ maxPayloadLength → ∃ bytes, writeBufferedFrame frame = .ok bytes
  refused : frame.payload.length > maxPayloadLength → ∃ err, writeBufferedFrame frame = .error err
  read : ∀ bytes, writeBufferedFrame frame = .ok bytes → ∀ maxPayload : Int,
    maxPayload < 0 ∨ frame.payload.length ≤ maxPayload →
    ∀ rest, readFrame maxPayload (bytes ++ rest) = (.ok frame, rest)

variable {frame : Frame}

section
variable (hval : validateFrameState frame = none)
include hval

lemma writeBufferedFrame_of_le (hle : frame.payload.length ≤ maxPayloadLength) :
    writeBufferedFrame frame = .ok (frameHeader frame ++ frame.payload) := by
  rw [writeBufferedFrame, validFrameType_of_valid hval, if_neg (by decide),
    if_neg (Nat.not_lt.mpr hle)]

lemma writeBufferedFrame_of_gt
    (hgt : frame.payload.length > maxPayloadLength) : writeBufferedFrame frame =
      .error ("payload too large: " ++ toString frame.payload.length) := by
  rw [writeBufferedFrame, validFrameType_of_valid hval, if_neg (by decide), if_pos hgt]

end

lemma writeFrame_flatten (frame : Frame) :
    (writeFrame frame).map flatten = writeBufferedFrame frame := by
  unfold writeFrame writeBufferedFrame
  split
  · rfl
  split
  · rfl
  split
  · rename_i hzero
    rw [length_eq_zero_iff.mp hzero]
    simp [Except.map]
  · simp [Except.map]

lemma frameLossless (hval : validateFrameState frame = none) : FrameLossless frame where
  same := writeFrame_flatten frame
  written hle := ⟨_, writeBufferedFrame_of_le hval hle⟩
  refused hgt := ⟨_, writeBufferedFrame_of_gt hval hgt⟩
  read bytes h maxPayload hmax rest := by
    by_cases hle : frame.payload.length ≤ maxPayloadLength
    · rw [writeBufferedFrame_of_le hval hle] at h
      cases h
      exact readFrame_append hval hle hmax rest
    · simp [writeBufferedFrame_of_gt hval (Nat.lt_of_not_le hle)] at h

end Frames

/-- What each pair of codecs gives back for every value that its encoder accepts. -/
structure CodecsLossless : Prop where
  frame : ∀ frame, validateFrameState frame = none → FrameLossless frame
  hello : ∀ hello, decodeHello (encodeHello hello) = .ok hello
  openResponse : ∀ response bytes, encodeOpenResponse response = .ok bytes →
    decodeOpenResponse bytes = .ok response
  address : ∀ address bytes, encodeAddress address = .ok bytes →
    decodeAddress bytes = .ok (address.canonical, bytes.length)
  openRequest : ∀ request bytes, encodeOpenRequest request = .ok bytes →
    decodeOpenRequest bytes = .ok { request with address := request.address.canonical }
  datagram : ∀ datagram bytes, datagram.payload.length < 65536 →
    encodeUDPDatagram datagram = .ok bytes →
    decodeUDPDatagram bytes = .ok { datagram with address := datagram.address.canonical }
  canonical : ∀ address : Address, address.canonical.canonical = address.canonical

/-- Every codec gives back what it was given, or fails, up to the form of addresses. -/
theorem codecs_lossless : CodecsLossless where
  frame _ := frameLossless
  hello := decodeHello_encodeHello
  openResponse _ _ := decodeOpenResponse_encodeOpenResponse
  address address bytes h := by simpa using decodeAddress_append h []
  openRequest _ _ := decodeOpenRequest_encodeOpenRequest
  datagram datagram bytes hlt h := by
    have hdec := decodeUDPDatagram_encodeUDPDatagram h
    rwa [Nat.mod_eq_of_lt hlt, List.take_length] at hdec
  canonical := canonical_canonical

/-- The request for `example.com:443` that names no address type. -/
def untypedRequest : OpenRequest where
  command := Command.connect
  address := { host := [101, 120, 97, 109, 112, 108, 101, 46, 99, 111, 109] }
  port := 443

theorem untyped_request_comes_back_typed : ∃ bytes, encodeOpenRequest untypedRequest = .ok bytes ∧
      decodeOpenRequest bytes ≠ .ok untypedRequest := by
  refine ⟨_, rfl, ?_⟩
  have hdec := decodeOpenRequest_encodeOpenRequest
    (rfl : encodeOpenRequest untypedRequest = .ok _)
  intro h
  have htype := congrArg (fun request : OpenRequest => request.address.type) (Except.ok.inj h)
  revert htype
  decide

end SingBox.Shuttle
