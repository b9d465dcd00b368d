import SingBox.Lib.Netip
import SingBox.Shuttle.Frame

/-! What frames carry: the two hellos, the request to open a stream and its response, and
datagrams, with the addresses in them. -/

namespace SingBox.Shuttle
open Lib Codec Netip

def utf8 (text : String) : Bytes := text.toUTF8.toList

structure Hello where
  version : UInt8
  capabilities : UInt16
  maxStreams : UInt16
  reserved : UInt8 := 0
  deriving DecidableEq

def encodeHello (hello : Hello) : Bytes :=
  [hello.version] ++ putBigEndian 2 hello.capabilities.toNat ++
    putBigEndian 2 hello.maxStreams.toNat ++ [hello.reserved]

variable (payload : Bytes)

def decodeHello : Except Bytes Hello :=
  if payload.length ≠ 6 then .error (utf8 ("invalid hello length: " ++ toString payload.length))
  else .ok {
    version := payload.getD 0 0
    capabilities := UInt16.ofNat (ofBigEndian (payload.extract 1 3))
    maxStreams := UInt16.ofNat (ofBigEndian (payload.extract 3 5))
    reserved := payload.getD 5 0 }

namespace AddressType

def ipv4 : UInt8 := 0x01
def domain : UInt8 := 0x03
def ipv6 : UInt8 := 0x04

end AddressType

/-- A host with the type of its text, or with type 0, which leaves it to the text. -/
structure Address where
  type : UInt8 := 0
  host : Bytes
  deriving DecidableEq

/-- The type that the encoder takes an address to have. -/
def Address.resolvedType (address : Address) : UInt8 :=
  if address.type = 0 then
    match parseAddr address.host with
    | some addr => if addr.is4 then AddressType.ipv4 else AddressType.ipv6
    | none => AddressType.domain
  else address.type

def encodeAddress (address : Address) : Except Bytes Bytes :=
  if address.resolvedType = AddressType.ipv4 then
    match parseAddr address.host with
    | some (.v4 bits) => .ok (AddressType.ipv4 :: putBigEndian 4 bits.toNat)
    | _ => .error (utf8 "invalid ipv4 address: " ++ address.host)
  else if address.resolvedType = AddressType.ipv6 then
    match parseAddr address.host with
    | some (.v6 bits _) => .ok (AddressType.ipv6 :: putBigEndian 16 bits.toNat)
    | _ => .error (utf8 "invalid ipv6 address: " ++ address.host)
  else if address.resolvedType = AddressType.domain then
    if address.host.length = 0 ∨ address.host.length > 255 then
      .error (utf8 ("invalid domain length: " ++ toString address.host.length))
    else .ok (AddressType.domain :: UInt8.ofNat address.host.length :: address.host)
  else .error (utf8 ("invalid address type: " ++ toString address.resolvedType))

def decodeAddress : Except Bytes (Address × Nat) :=
  if payload.length < 1 then .error (utf8 "missing address type")
  else
    let type := payload.getD 0 0
    if type = AddressType.ipv4 then
      if payload.length < 5 then .error (utf8 "truncated ipv4 address")
      else
        let addr := Addr.v4 (BitVec.ofNat 32 (ofBigEndian (payload.extract 1 5)))
        .ok ({ type := AddressType.ipv4, host := addr.text }, 5)
    else if type = AddressType.ipv6 then
      if payload.length < 17 then .error (utf8 "truncated ipv6 address")
      else
        let addr := Addr.v6 (BitVec.ofNat 128 (ofBigEndian (payload.extract 1 17))) []
        .ok ({ type := AddressType.ipv6, host := addr.text }, 17)
    else if type = AddressType.domain then
      if payload.length < 2 then .error (utf8 "truncated domain length")
      else
        let length := (payload.getD 1 0).toNat
        if length = 0 then .error (utf8 "empty domain")
        else if payload.length < 2 + length then .error (utf8 "truncated domain")
        else .ok ({ type := AddressType.domain, host := payload.extract 2 (2 + length) }, 2 + length)
    else .error (utf8 ("invalid address type: " ++ toString type))

namespace Command

def connect : UInt8 := 0x01
def udpAssociate : UInt8 := 0x03

end Command

structure OpenRequest where
  command : UInt8
  address : Address
  port : UInt16
  deriving DecidableEq

def encodeOpenRequest (request : OpenRequest) : Except Bytes Bytes :=
  if request.command ≠ Command.connect ∧ request.command ≠ Command.udpAssociate then
    .error (utf8 ("unsupported command: " ++ toString request.command))
  else if request.command = Command.connect ∧ request.port = 0 then
    .error (utf8 "invalid connect port")
  else
    match encodeAddress request.address with
    | .error err => .error err
    | .ok address => .ok ([request.command] ++ address ++ putBigEndian 2 request.port.toNat)

def decodeOpenRequest : Except Bytes OpenRequest :=
  if payload.length < 1 + 1 + 2 then .error (utf8 "truncated open request")
  else
    let command := payload.getD 0 0
    if command ≠ Command.connect ∧ command ≠ Command.udpAssociate then
      .error (utf8 ("unsupported command: " ++ toString command))
    else
      match decodeAddress (payload.drop 1) with
      | .error err => .error err
      | .ok (address, offset) =>
        if payload.length ≠ 1 + offset + 2 then .error (utf8 "invalid open request length")
        else
          let port := UInt16.ofNat (ofBigEndian (payload.drop (payload.length - 2)))
          if command = Command.connect ∧ port = 0 then .error (utf8 "invalid connect port")
          else .ok { command, address, port }

structure OpenResponse where
  status : UInt8
  reserved : UInt8 := 0
  message : Bytes := []
  deriving DecidableEq

def encodeOpenResponse (response : OpenResponse) : Except Bytes Bytes :=
  if response.message.length > 255 then
    .error (utf8 ("open response message too long: " ++ toString response.message.length))
  else
    .ok ([response.status, response.reserved, UInt8.ofNat response.message.length] ++
      response.message)

def decodeOpenResponse : Except Bytes OpenResponse :=
  if payload.length < 3 then .error (utf8 "truncated open response")
  else
    let length := (payload.getD 2 0).toNat
    if payload.length ≠ 3 + length then .error (utf8 "invalid open response length")
    else .ok {
      status := payload.getD 0 0, reserved := payload.getD 1 0, message := payload.drop 3 }

def udpFragmentNone : UInt8 := 0x00

structure Datagram where
  address : Address
  port : UInt16
  payload : Bytes
  deriving DecidableEq

/-- `EncodeUDPdatagram`. The length of the payload is taken modulo 65536. -/
def encodeUDPDatagram (datagram : Datagram) : Except Bytes Bytes :=
  match encodeAddress datagram.address with
  | .error err => .error err
  | .ok addrBytes =>
    .ok ([udpFragmentNone] ++ addrBytes ++ putBigEndian 2 datagram.port.toNat ++
      putBigEndian 2 datagram.payload.length ++ datagram.payload)

def decodeUDPDatagram : Except Bytes Datagram :=
  if payload.length < 5 then .error (utf8 "truncated UDP datagram")
  else
    let frag := payload.getD 0 0
    if frag ≠ udpFragmentNone then
      .error (utf8 ("unsupported fragmentation: " ++ toString frag))
    else
      match decodeAddress (payload.drop 1) with
      | .error err => .error (utf8 "decode UDP address: " ++ err)
      | .ok (address, consumed) =>
        let offset := 1 + consumed
        if payload.length < offset + 4 then
          .error (utf8 "truncated UDP datagram header after address")
        else
          let port := UInt16.ofNat (ofBigEndian (payload.extract offset (offset + 2)))
          let dataLen := ofBigEndian (payload.extract (offset + 2) (offset + 4))
          if dataLen > payload.length - (offset + 4) then
            .error (utf8 ("UDP data length mismatch: expected " ++ toString dataLen ++
              " but only " ++ toString (payload.length - (offset + 4)) ++ " bytes available"))
          else .ok {
            address, port, payload := payload.extract (offset + 4) (offset + 4 + dataLen) }

end SingBox.Shuttle
