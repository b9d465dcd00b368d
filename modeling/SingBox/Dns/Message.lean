import Mathlib.Algebra.Group.Nat.Defs
import Mathlib.Data.List.Basic

/-! DNS messages as the router and the rule items see them, the options of a query, and the EDNS0
record of a message with the client subnet that it carries. -/

namespace SingBox.Dns

/-- `netip.Addr`; the zero value is the invalid address. -/
inductive Addr
  | invalid
  | v4 (bits : BitVec 32)
  | v6 (bits : BitVec 128)
  deriving DecidableEq

namespace Addr

def isValid : Addr → Bool
  | .invalid => false
  | _ => true

/-- `Addr.Unmap`: an IPv4-mapped IPv6 address becomes the IPv4 address. -/
def unmap : Addr → Addr
  | .v6 bits => if bits.extractLsb' 32 96 = 0xffff#96 then .v4 (bits.extractLsb' 0 32) else .v6 bits
  | a => a

end Addr

/-- `netip.Prefix`; an absent prefix stands for the zero value. -/
structure Prefix where
  addr : Addr
  bits : Nat
  deriving DecidableEq

structure Question where
  name : String
  qtype : Nat
  qclass : Nat
  deriving DecidableEq

def typeA : Nat := 1
def typeSOA : Nat := 6
def typeAAAA : Nat := 28
def typeOPT : Nat := 41
def typeHTTPS : Nat := 65

def rcodeSuccess : Nat := 0
def rcodeFormatError : Nat := 1
def rcodeNameError : Nat := 3
def rcodeRefused : Nat := 5

inductive SVCBKeyValue
  | ipv4Hint (hint : List Addr)
  | ipv6Hint (hint : List Addr)
  | other (key : Nat) (value : String)
  deriving DecidableEq

/-- An EDNS0 option: the client subnet, padding, or any other code. -/
inductive EDNS0
  | subnet (p : Prefix)
  | padding (length : Nat)
  | other (code : Nat) (value : String)
  deriving DecidableEq

inductive RData
  | a (addr : Addr)
  | aaaa (addr : Addr)
  | https (value : List SVCBKeyValue)
  | soa (minttl : Nat)
  | opt (option : List EDNS0)
  | other (value : String)
  deriving DecidableEq

/-- A resource record: the header every record has, and its data. -/
structure RR where
  name : String
  rrtype : Nat
  rclass : Nat
  ttl : Nat
  data : RData
  deriving DecidableEq

structure Msg where
  id : Nat := 0
  response : Bool := false
  authoritative : Bool := false
  recursionDesired : Bool := false
  recursionAvailable : Bool := false
  rcode : Nat := rcodeSuccess
  question : List Question := []
  answer : List RR := []
  ns : List RR := []
  extra : List RR := []
  deriving DecidableEq

def SVCBKeyValue.addresses : SVCBKeyValue → List Addr
  | .ipv4Hint hint => (hint.map Addr.unmap).filter Addr.isValid
  | .ipv6Hint hint => hint.filter Addr.isValid
  | .other _ _ => []

/-- The addresses one answer record exposes for matching. -/
def RR.addresses (r : RR) : List Addr :=
  match r.data with
  | .a addr => [addr].filter Addr.isValid
  | .aaaa addr => [addr].filter Addr.isValid
  | .https value => value.flatMap SVCBKeyValue.addresses
  | _ => []

/-- `DNSResponseAddresses`: a missing or failed response exposes nothing. -/
def dnsResponseAddresses : Option Msg → List Addr
  | none => []
  | some response =>
    if response.rcode ≠ rcodeSuccess then [] else response.answer.flatMap RR.addresses

inductive DomainStrategy
  | asIS
  | preferIPv4
  | preferIPv6
  | ipv4Only
  | ipv6Only
  deriving DecidableEq

/-- `adapter.DNSQueryOptions`. A TTL or a subnet that is not set is absent; a
timeout of zero is not set. -/
structure DNSQueryOptions where
  strategy : DomainStrategy := .asIS
  lookupStrategy : DomainStrategy := .asIS
  disableCache : Bool := false
  disableOptimisticCache : Bool := false
  rewriteTTL : Option Nat := none
  timeout : Nat := 0
  clientSubnet : Option Prefix := none
  removeClientSubnet : Bool := false
  deriving DecidableEq

/-- `RuleActionDNSRouteOptions`. -/
structure DNSRouteOptions where
  strategy : DomainStrategy := .asIS
  timeout : Nat := 0
  disableCache : Bool := false
  disableOptimisticCache : Bool := false
  rewriteTTL : Option Nat := none
  clientSubnet : Option Prefix := none
  removeClientSubnet : Bool := false
  deriving DecidableEq

/-- A transport, by its tag and by whether it hands out fake addresses. -/
structure DNSTransport where
  tag : String
  isFakeIP : Bool := false
  deriving DecidableEq

/-- `applyDNSRouteOptions`. The strategy is left alone: a rule that sets it
forces the legacy mode. -/
def applyDNSRouteOptions (options : DNSQueryOptions) (routeOptions : DNSRouteOptions) :
    DNSQueryOptions :=
  let options := { options with
    disableCache := options.disableCache || routeOptions.disableCache
    disableOptimisticCache := options.disableOptimisticCache || routeOptions.disableOptimisticCache
    rewriteTTL := routeOptions.rewriteTTL <|> options.rewriteTTL
    timeout := if routeOptions.timeout > 0 then routeOptions.timeout else options.timeout }
  let options := match routeOptions.clientSubnet with
    | some subnet => { options with clientSubnet := some subnet, removeClientSubnet := false }
    | none => options
  if routeOptions.removeClientSubnet then
    { options with clientSubnet := none, removeClientSubnet := true }
  else
    options

/-- The router's transport manager and its default strategy. -/
structure Transports where
  transport : String → Option DNSTransport
  default : DNSTransport
  defaultDomainStrategy : DomainStrategy := .asIS

def Transports.finalizeExchangeOptions (r : Transports) (options : DNSQueryOptions) :
    DNSQueryOptions :=
  if options.strategy = .asIS then { options with strategy := r.defaultDomainStrategy }
  else options

inductive DNSRoute
  | missing
  | skipped
  | resolved (transport : DNSTransport) (options : DNSQueryOptions)
  deriving DecidableEq

def Transports.resolveDNSRoute (r : Transports) (server : String) (routeOptions : DNSRouteOptions)
    (allowFakeIP : Bool) (options : DNSQueryOptions) : DNSRoute :=
  match r.transport server with
  | none => .missing
  | some transport =>
    if transport.isFakeIP && !allowFakeIP then .skipped
    else
      let options := applyDNSRouteOptions options routeOptions
      .resolved transport { options with disableCache := options.disableCache || transport.isFakeIP }

def edns0Subnet : Nat := 8
def edns0Padding : Nat := 12

/-- `EDNS0.Option`. -/
def EDNS0.code : EDNS0 → Nat
  | .subnet _ => edns0Subnet
  | .padding _ => edns0Padding
  | .other code _ => code

def EDNS0.subnet? : EDNS0 → Option Prefix
  | .subnet p => some p
  | _ => none

def Addr.bitLen : Addr → Nat
  | .invalid => 0
  | .v4 _ => 32
  | .v6 _ => 128

/-- `netip.PrefixFrom`. A length that the address does not have is kept as 255,
the byte that stands for no length. -/
def prefixFrom (addr : Addr) (bits : Nat) : Prefix :=
  { addr, bits := if bits ≤ addr.bitLen then bits else 255 }

def Prefix.isValid (p : Prefix) : Bool := p.addr.isValid && decide (p.bits ≤ p.addr.bitLen)

variable (r : RR) (f : List EDNS0 → List EDNS0) (message : Msg)

/-- The header says that the record is an OPT record. -/
def RR.isOPT : Bool := r.rrtype == typeOPT

def RData.isOPT : RData → Bool
  | .opt _ => true
  | _ => false

def RData.options : RData → List EDNS0
  | .opt option => option
  | _ => []

/-- Changes the options of an OPT record, and no other record. -/
def RR.mapOptions (r : RR) : RR :=
  match r.data with
  | .opt option => { r with data := .opt (f option) }
  | _ => r

/-- `OPT.Version`, a byte of the TTL field. -/
def RR.version : Nat := r.ttl / 0x10000 % 0x100

/-- `OPT.Do`, a bit of the TTL field. -/
def RR.dnssecOK : Bool := r.ttl / 0x8000 % 2 == 1

/-- `Msg.IsEdns0`: the last OPT record of the additional section. -/
def Msg.isEdns0 (m : Msg) : Option RR := m.extra.reverse.find? RR.isOPT

def Msg.setEdns0 (m : Msg) (udpSize : Nat) (dnssecOK : Bool) : Msg :=
  { m with extra := m.extra ++ [{
      name := ".", rrtype := typeOPT, rclass := udpSize,
      ttl := if dnssecOK then 0x8000 else 0, data := .opt [] }] }

def clientSubnetFromMessage : Option Prefix :=
  match (message.extra.flatMap fun r => r.data.options).findSome? EDNS0.subnet? with
  | none => none
  | some p => if p.addr.isValid then some (prefixFrom p.addr.unmap p.bits) else none

def withoutCode (code : Nat) (options : List EDNS0) : List EDNS0 :=
  options.filter fun option => option.code != code

/-- Takes the subnet out of every OPT record; a message that has none is
returned as it is. -/
def removeClientSubnet : Msg :=
  { message with extra := message.extra.map (RR.mapOptions (withoutCode edns0Subnet)) }

/-- Overwrites the first subnet option, or appends one. -/
def setSubnetOption (p : Prefix) : List EDNS0 → List EDNS0
  | [] => [.subnet p]
  | .subnet _ :: options => .subnet p :: options
  | option :: options => option :: setSubnetOption p options

/-- The record that `setClientSubnet` appends. -/
def subnetRecord (p : Prefix) : RR :=
  { name := ".", rrtype := typeOPT, rclass := 0, ttl := 0, data := .opt [.subnet p] }

/-- The loop of `setClientSubnet` ends on the first record with a subnet option,
or else on the last record: only if that one is an OPT record the option joins
it. -/
def setSubnetRecord (p : Prefix) : List RR → List RR
  | [] => [subnetRecord p]
  | [r] => if r.data.isOPT then [r.mapOptions (setSubnetOption p)] else [r, subnetRecord p]
  | r :: records =>
    if r.data.options.any fun option => option.subnet?.isSome then
      r.mapOptions (setSubnetOption p) :: records
    else
      r :: setSubnetRecord p records

def setClientSubnet (clientSubnet : Prefix) : Msg :=
  { message with extra := setSubnetRecord clientSubnet message.extra }

/-- Padding says nothing about the answer. -/
def stripDNSPadding (response : Msg) : Msg :=
  { response with extra := response.extra.map (RR.mapOptions (withoutCode edns0Padding)) }

/-- One question, no authority, and no more than a plain OPT record that holds
subnets only: `isSimpleRequest` of `beginExchange`. -/
def Msg.isSimpleRequest (message : Msg) : Bool :=
  message.question.length == 1 && message.ns.isEmpty &&
    match message.extra with
    | [] => true
    | [r] => r.isOPT && decide (0 < r.rclass) && r.ttl == 0 &&
        r.data.options.all fun option => option.code == edns0Subnet
    | _ => false

@[simp] lemma RR.mapOptions_rrtype (r : RR) : (r.mapOptions f).rrtype = r.rrtype := by
  unfold RR.mapOptions
  split <;> rfl

@[simp] lemma RR.mapOptions_ttl (r : RR) : (r.mapOptions f).ttl = r.ttl := by
  unfold RR.mapOptions
  split <;> rfl

@[simp] lemma RR.mapOptions_isOPT (r : RR) : (r.mapOptions f).isOPT = r.isOPT := by
  simp [RR.isOPT]

variable {m : Msg}

lemma Msg.isEdns0_eq_none : m.isEdns0 = none ↔ ∀ r ∈ m.extra, r.isOPT = false := by
  simp [Msg.isEdns0]

variable (h : m.isSimpleRequest = true)
include h

/-- A simple request has no OPT record or just one, of version 0. -/
theorem Msg.isSimpleRequest_extra : m.extra = [] ∨ ∃ r, m.extra = [r] ∧ r.isOPT ∧ r.ttl = 0 := by
  unfold Msg.isSimpleRequest at h
  rw [Bool.and_eq_true] at h
  obtain ⟨-, hextra⟩ := h
  split at hextra
  · exact .inl ‹_›
  · next r hr =>
    simp only [Bool.and_eq_true, beq_iff_eq] at hextra
    exact .inr ⟨r, hr, hextra.1.1.1, hextra.1.2⟩
  · cases hextra

/-- What is sent for a simple request with an OPT record has one, of version 0. -/
theorem isEdns0_removeClientSubnet
    (hopt : m.isEdns0 ≠ none) : ∃ r, (removeClientSubnet m).isEdns0 = some r ∧ r.ttl = 0 := by
  obtain hextra | ⟨r, hextra, hr, httl⟩ := Msg.isSimpleRequest_extra h
  · exact absurd (Msg.isEdns0_eq_none.mpr (by simp [hextra])) hopt
  · refine ⟨r.mapOptions (withoutCode edns0Subnet), ?_, (RR.mapOptions_ttl _ r).trans httl⟩
    simp [Msg.isEdns0, removeClientSubnet, hextra, hr]

lemma isEdns0_setClientSubnet (p : Prefix) :
    ∃ r, (setClientSubnet m p).isEdns0 = some r ∧ r.ttl = 0 := by
  obtain hextra | ⟨r, hextra, hr, httl⟩ := Msg.isSimpleRequest_extra h
  · simp [Msg.isEdns0, setClientSubnet, hextra, setSubnetRecord, subnetRecord, RR.isOPT]
  · by_cases hdata : r.data.isOPT
    · refine ⟨_, ?_, (RR.mapOptions_ttl (setSubnetOption p) r).trans httl⟩
      simp [Msg.isEdns0, setClientSubnet, hextra, setSubnetRecord, hdata, hr]
    · simp [Msg.isEdns0, setClientSubnet, hextra, setSubnetRecord, hdata, subnetRecord, RR.isOPT]

end SingBox.Dns
