import SingBox.Dns.Message

/-! The metadata a rule is matched against. Matching only ever writes the rule
cache, so `InboundContext` holds what a rule reads and `RuleCache` what it
writes. -/

namespace SingBox.Route
open Dns

/-- The fields of a connection or query that are neither destination addresses
nor DNS responses. -/
structure Flow where
  inbound : String := ""
  ipVersion : Nat := 0
  network : String := ""
  sourceAddr : Addr := .invalid
  sourcePort : Nat := 0
  destinationFqdn : String := ""
  destinationPort : Nat := 0
  user : String := ""
  outbound : String := ""
  protocol : String := ""
  domain : String := ""
  client : String := ""
  processPath : String := ""
  packageName : String := ""
  queryType : Nat := 0
  queryClientSubnet : Option Prefix := none
  queryDNSSEC : Bool := false
  clashMode : String := ""
  networkType : String := ""
  deriving DecidableEq

structure InboundContext where
  flow : Flow := {}
  destinationAddr : Addr := .invalid
  destinationAddresses : List Addr := []
  dnsResponse : Option Msg := none
  namedDNSResponses : String → Option Msg := fun _ => none
  destinationAddressMatchFromResponse : Bool := false

variable (c : InboundContext)

def InboundContext.dnsResponseAddressesForMatch : List Addr :=
  dnsResponseAddresses c.dnsResponse

/-- A copy of the metadata whose destination addresses are those of `response`. -/
def InboundContext.withResponse (response : Option Msg) : InboundContext :=
  { c with dnsResponse := response, destinationAddressMatchFromResponse := true }

/-- `ruleMatchState`: a set of item groups, one flag for each bit. -/
structure RuleMatchState where
  sourceAddress : Bool := false
  sourcePort : Bool := false
  destinationAddress : Bool := false
  destinationPort : Bool := false
  deriving DecidableEq

namespace RuleMatchState

def none : RuleMatchState := {}

/-- The bit `ruleMatchDestinationAddress` alone. -/
def destination : RuleMatchState := { destinationAddress := true }

def union (a b : RuleMatchState) : RuleMatchState :=
  ⟨a.sourceAddress || b.sourceAddress, a.sourcePort || b.sourcePort,
    a.destinationAddress || b.destinationAddress, a.destinationPort || b.destinationPort⟩

def clear (a b : RuleMatchState) : RuleMatchState :=
  ⟨a.sourceAddress && !b.sourceAddress, a.sourcePort && !b.sourcePort,
    a.destinationAddress && !b.destinationAddress, a.destinationPort && !b.destinationPort⟩

end RuleMatchState

/-- The part of the rule cache that steers matching; nested rules read it. -/
structure MatchFlags where
  ipCidrMatchSource : Bool := false
  ipCidrAcceptEmpty : Bool := false
  ignoreDestinationIPCIDRMatch : Bool := false
  deriving DecidableEq

structure RuleCache where
  flags : MatchFlags := {}
  matchedRuleSetTag : String := ""
  deferredIPCIDRMatchGroups : RuleMatchState := .none
  deriving DecidableEq

namespace RuleCache

variable (m : RuleCache)

def resetRuleMatchCache : RuleCache :=
  { m with matchedRuleSetTag := "", deferredIPCIDRMatchGroups := .none }

/-- `ResetRuleCache` also forgets both ip_cidr settings of a rule-set reference. -/
def resetRuleCache : RuleCache :=
  { m with flags := { m.flags with ipCidrMatchSource := false, ipCidrAcceptEmpty := false } }
    |>.resetRuleMatchCache

/-- The cache every caller matches a top-level rule with. -/
def fresh : RuleCache := {}

def setDeferred (groups : RuleMatchState) : RuleCache :=
  { m with deferredIPCIDRMatchGroups := groups }

/-- `recordMatchedRuleSet` keeps the first tag. -/
def recordMatchedRuleSet (tag : String) : RuleCache :=
  if m.matchedRuleSetTag = "" then { m with matchedRuleSetTag := tag } else m

end RuleCache

structure RuleMatchSnapshot where
  ipCidrMatchSource : Bool
  ipCidrAcceptEmpty : Bool
  deferredIPCIDRMatchGroups : RuleMatchState
  matchedRuleSetTag : String

def snapshotRuleMatch (m : RuleCache) : RuleMatchSnapshot :=
  ⟨m.flags.ipCidrMatchSource, m.flags.ipCidrAcceptEmpty, m.deferredIPCIDRMatchGroups,
    m.matchedRuleSetTag⟩

def RuleMatchSnapshot.restore (s : RuleMatchSnapshot) (m : RuleCache) : RuleCache :=
  { flags := { m.flags with
      ipCidrMatchSource := s.ipCidrMatchSource, ipCidrAcceptEmpty := s.ipCidrAcceptEmpty }
    matchedRuleSetTag := s.matchedRuleSetTag
    deferredIPCIDRMatchGroups := s.deferredIPCIDRMatchGroups }

/-- The section of the response a `response_*` item selects. -/
inductive ResponseSection
  | answer
  | ns
  | extra
  deriving DecidableEq

def ResponseSection.select : ResponseSection → Msg → List RR
  | .answer, response => response.answer
  | .ns, response => response.ns
  | .extra, response => response.extra

/-- The items of a rule. Every item that reads neither a destination address
nor a response (domain, port, network, process, query type and so on) is a
predicate of the flow. `ip_version` and `preferred_by` also read the
destination addresses. The IP set, the public-address test and the record
comparison come from other packages and are given as functions. -/
inductive RuleItem
  | flow (p : Flow → Bool)
  | address (p : Flow → Addr → List Addr → Bool)
  | ipCIDR (isSource : Bool) (ipSet : Addr → Bool)
  | ipIsPrivate (isSource : Bool) (isPublicAddr : Addr → Bool)
  | ipAcceptAny
  | dnsResponseRCode (rcode : Nat)
  | dnsResponseRecord (selector : ResponseSection) (records : List (RR → Bool))

namespace RuleItem

def matchIPCIDR (isSource : Bool) (ipSet : Addr → Bool) (c : InboundContext)
    (f : MatchFlags) : Bool :=
  if isSource || f.ipCidrMatchSource then
    ipSet c.flow.sourceAddr
  else if c.destinationAddressMatchFromResponse then
    let addresses := c.dnsResponseAddressesForMatch
    -- Only a response without any address falls back to accept_empty.
    if addresses.isEmpty then f.ipCidrAcceptEmpty else addresses.any ipSet
  else if c.destinationAddr.isValid then
    ipSet c.destinationAddr
  else if !c.destinationAddresses.isEmpty then
    c.destinationAddresses.any ipSet
  else
    f.ipCidrAcceptEmpty

def matchIPIsPrivate (isSource : Bool) (isPublicAddr : Addr → Bool) (c : InboundContext) : Bool :=
  if isSource then
    !isPublicAddr c.flow.sourceAddr
  else if c.destinationAddressMatchFromResponse then
    c.dnsResponseAddressesForMatch.any fun a => !isPublicAddr a
  else if c.destinationAddr.isValid then
    !isPublicAddr c.destinationAddr
  else
    c.destinationAddresses.any fun a => !isPublicAddr a

def matchIPAcceptAny : Bool :=
  if c.destinationAddressMatchFromResponse then
    !c.dnsResponseAddressesForMatch.isEmpty
  else
    !c.destinationAddresses.isEmpty

def matchDNSResponseRecord (selector : ResponseSection) (records : List (RR → Bool)) :
    Option Msg → Bool
  | none => false
  | some response => records.any fun expected => (selector.select response).any expected

def «match» (item : RuleItem) (c : InboundContext) (f : MatchFlags) : Bool :=
  match item with
  | .flow p => p c.flow
  | .address p => p c.flow c.destinationAddr c.destinationAddresses
  | .ipCIDR isSource ipSet => matchIPCIDR isSource ipSet c f
  | .ipIsPrivate isSource isPublicAddr => matchIPIsPrivate isSource isPublicAddr c
  | .ipAcceptAny => matchIPAcceptAny c
  | .dnsResponseRCode rcode => (c.dnsResponse.map (·.rcode)) == some rcode
  | .dnsResponseRecord selector records => matchDNSResponseRecord selector records c.dnsResponse

/-- The items whose answer can change with the DNS response. -/
def readsResponse : RuleItem → Bool
  | .flow _ => false
  | .address _ => false
  | .ipCIDR isSource _ => !isSource
  | .ipIsPrivate isSource _ => !isSource
  | .ipAcceptAny => true
  | .dnsResponseRCode _ => true
  | .dnsResponseRecord _ _ => true

/-- The `response_*` items, which read the response whatever the rule is
matched for. -/
def isResponseMatchField : RuleItem → Bool
  | .dnsResponseRCode _ => true
  | .dnsResponseRecord _ _ => true
  | _ => false

/-- The items whose answer can change with the destination address, the
resolved addresses or the DNS response. -/
def readsDestination : RuleItem → Bool
  | .address _ => true
  | item => item.readsResponse

end RuleItem

end SingBox.Route
