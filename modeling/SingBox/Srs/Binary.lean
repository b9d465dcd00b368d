import SingBox.Lib.Cidr
import SingBox.Lib.Decoder
import SingBox.Lib.LinkedMap

/-! The compiled form of a rule-set: a tree of rules, each a list of items with a number before
every one. -/

namespace SingBox.Srs
open Lib Netip Codec Decoder

/-- `badoption.Prefixable` behind a pointer; none if the pointer is nil or there is no
address. -/
abbrev Prefixable := Option Prefix

structure IPRange where
  fromAddr : Addr
  toAddr : Addr
  deriving DecidableEq

abbrev IPSet := List IPRange

/-- What `AddPrefix` or `Add` of `netipx.IPSetBuilder` was given. -/
inductive Added
  | cidr (p : Prefix)
  | addr (a : Addr)
  deriving DecidableEq

def Added.covers : Added → Addr → Bool
  | .cidr p, a => p.contains a
  | .addr b, a => a.zone = [] && b.withoutZone = a

/-- What the codec takes from libraries: the matchers for domains, the sets of addresses, the
readers of slices and the compression. -/
structure Libraries where
  Matcher : Type
  AdGuardMatcher : Type
  /-- `domain.NewMatcher` of domains, of suffixes and of whether the old form is wanted. -/
  newMatcher : List Bytes → List Bytes → Bool → Matcher
  matchDomain : Matcher → Bytes → Bool
  dumpMatcher : Matcher → List Bytes × List Bytes
  writeMatcher : Matcher → Bytes
  readMatcher : Decoder Matcher
  newAdGuardMatcher : List Bytes → AdGuardMatcher
  matchAdGuard : AdGuardMatcher → Bytes → Bool
  dumpAdGuardMatcher : AdGuardMatcher → List Bytes
  writeAdGuardMatcher : AdGuardMatcher → Bytes
  readAdGuardMatcher : Decoder AdGuardMatcher
  /-- `IPSetBuilder.IPSet`. -/
  ipSet : List Added → IPSet
  /-- `IPSet.Contains`. -/
  contains : IPSet → Addr → Bool
  /-- `IPSet.Prefixes`. -/
  prefixes : IPSet → List Prefix
  /-- `M.AddrFromIP` of four or sixteen bytes. -/
  addrFromIP : Bytes → Addr
  /-- `varbin.ReadSlice` of bytes and of numbers of two bytes. -/
  readSlice8 : Decoder Bytes
  readSlice16 : Decoder (List UInt16)
  /-- What a `zlib.Writer` writes for a content, and what can be read from a `zlib.Reader`. -/
  compress : Bytes → Bytes
  decompress : Bytes → Except String Bytes

structure DefaultHeadlessRule (L : Libraries) where
  queryType : List UInt16 := []
  network : List Bytes := []
  domain : List Bytes := []
  domainSuffix : List Bytes := []
  domainKeyword : List Bytes := []
  domainRegex : List Bytes := []
  sourceIPCIDR : List Bytes := []
  ipCIDR : List Bytes := []
  sourcePort : List UInt16 := []
  sourcePortRange : List Bytes := []
  port : List UInt16 := []
  portRange : List Bytes := []
  processName : List Bytes := []
  processPath : List Bytes := []
  processPathRegex : List Bytes := []
  packageName : List Bytes := []
  packageNameRegex : List Bytes := []
  networkType : List UInt8 := []
  networkIsExpensive : Bool := false
  networkIsConstrained : Bool := false
  wifiSSID : List Bytes := []
  wifiBSSID : List Bytes := []
  networkInterfaceAddress : LinkedMap UInt8 (List Prefixable) := ∅
  defaultInterfaceAddress : List Prefixable := []
  invert : Bool := false
  domainMatcher : Option L.Matcher := none
  sourceIPSet : Option IPSet := none
  ipSet : Option IPSet := none
  adGuardDomain : List Bytes := []
  adGuardDomainMatcher : Option L.AdGuardMatcher := none

/-- The mode of a logical rule, which is any text. -/
inductive LogicalMode
  | and
  | or
  | other (text : String)
  deriving DecidableEq

/-- `option.HeadlessRule`: its type, which is any text, and the options for this type. -/
inductive HeadlessRule (L : Libraries)
  | default (options : DefaultHeadlessRule L)
  | logical (mode : LogicalMode) (rules : List (HeadlessRule L)) (invert : Bool)
  | other (type : String)

/-- A property of every rule that a logical rule has if its rules have it. -/
@[elab_as_elim]
lemma HeadlessRule.induction {L : Libraries} {motive : HeadlessRule L → Prop}
    (default : ∀ options, motive (.default options))
    (logical : ∀ mode rules invert, (∀ r ∈ rules, motive r) → motive (.logical mode rules invert))
    (other : ∀ type, motive (.other type)) (r : HeadlessRule L) : motive r :=
  @HeadlessRule.rec L motive (fun rules => ∀ r ∈ rules, motive r) default logical other
    (fun _ h => absurd h List.not_mem_nil)
    (fun _ _ hr hrules => List.forall_mem_cons.mpr ⟨hr, hrules⟩) r

/-- The kinds of items, in the order of their numbers. -/
inductive RuleItem
  | queryType
  | network
  | domain
  | domainKeyword
  | domainRegex
  | sourceIPCIDR
  | ipCIDR
  | sourcePort
  | sourcePortRange
  | port
  | portRange
  | processName
  | processPath
  | packageName
  | wifiSSID
  | wifiBSSID
  | adGuardDomain
  | processPathRegex
  | networkType
  | networkIsExpensive
  | networkIsConstrained
  | networkInterfaceAddress
  | defaultInterfaceAddress
  | packageNameRegex
  deriving DecidableEq

namespace RuleItem

def all : List RuleItem := [
  queryType, network, domain, domainKeyword, domainRegex, sourceIPCIDR, ipCIDR, sourcePort,
  sourcePortRange, port, portRange, processName, processPath, packageName, wifiSSID, wifiBSSID,
  adGuardDomain, processPathRegex, networkType, networkIsExpensive, networkIsConstrained,
  networkInterfaceAddress, defaultInterfaceAddress, packageNameRegex]

def code (item : RuleItem) : UInt8 := UInt8.ofNat (all.idxOf item)

def ofCode (code : UInt8) : Option RuleItem := all[code.toNat]?

end RuleItem

def finalCode : UInt8 := 0xFF

def magicBytes : Bytes := [0x53, 0x52, 0x53]

def ruleSetVersion1 : UInt8 := 1
def ruleSetVersion2 : UInt8 := 2
def ruleSetVersion3 : UInt8 := 3
def ruleSetVersion4 : UInt8 := 4
def ruleSetVersion5 : UInt8 := 5
def ruleSetVersionCurrent : UInt8 := ruleSetVersion5

def maxLogicalRuleDepth : Nat := 100

variable (L : Libraries)

section Write

/-- A write that did not succeed. -/
inductive Failure
  | error (text : String)
  | panic (text : String)
  deriving DecidableEq

def Failure.withCause (text : String) : Failure → Failure
  | .error err => .error (text ++ ": " ++ err)
  | .panic err => .panic err

def putBool (b : Bool) : UInt8 := if b then 1 else 0

variable (item : RuleItem) (generateVersion : UInt8)

def writeRuleItemString (value : List Bytes) : Bytes :=
  item.code :: (putUvarint value.length ++ value.flatMap putField)

def writeRuleItemUint8 (value : List UInt8) : Bytes := item.code :: putField value

def writeRuleItemUint16 (value : List UInt16) : Bytes :=
  item.code :: (putUvarint value.length ++ value.flatMap fun n => putBigEndian 2 n.toNat)

def writeIPSet (set : IPSet) : Bytes :=
  1 :: (putBigEndian 8 set.length ++
    set.flatMap fun rr => putField rr.fromAddr.asSlice ++ putField rr.toAddr.asSlice)

/-- What the builder is given for a text. -/
def parseCIDR (text : Bytes) : Option Added :=
  match parsePrefix text with
  | some p => some (.cidr p)
  | none => (parseAddr text).map .addr

/-- The loop of `writeRuleItemCIDR`, from the text with this number on. The cause is left out of its
error. -/
def parseCIDRs : Nat → List Bytes → Except Failure (List Added)
  | _, [] => .ok []
  | i, text :: texts =>
    match parseCIDR text with
    | none => .error (.error ("parse [" ++ toString i ++ "]"))
    | some added => (parseCIDRs (i + 1) texts).map (added :: ·)

def writeRuleItemCIDR (value : List Bytes) : Except Failure Bytes :=
  (parseCIDRs 0 value).map fun added => item.code :: writeIPSet (L.ipSet added)

/-- The bits of no valid length are -1. -/
def writePrefix : Prefixable → Bytes
  | none => putField [] ++ [255]
  | some p => putField p.addr.asSlice ++ [(p.bits.map UInt8.ofNat).getD 255]

def writePrefixes (value : List Prefixable) : Bytes :=
  putUvarint value.length ++ value.flatMap writePrefix

def writeInterfaceAddresses (entries : List (UInt8 × List Prefixable)) : Bytes :=
  putUvarint entries.length ++ entries.flatMap fun entry => entry.1 :: writePrefixes entry.2

/-- One of the blocks of `writeDefaultRule`: an item that the rule may have. -/
def block (present : Bool) (written : Except Failure Bytes) : Except Failure Bytes :=
  if present then written else .ok []

/-- The check of the version in such a block. -/
def since (generateVersion minimum : UInt8) (err : String) (written : Bytes) :
    Except Failure Bytes :=
  if generateVersion < minimum then .error (.error err) else .ok written

def blocks (generateVersion : UInt8) (rule : DefaultHeadlessRule L) : List (Except Failure Bytes) := [
  block (rule.queryType ≠ []) (.ok (writeRuleItemUint16 .queryType rule.queryType)),
  block (rule.network ≠ []) (.ok (writeRuleItemString .network rule.network)),
  block (rule.domain ≠ [] ∨ rule.domainSuffix ≠ []) (.ok (RuleItem.domain.code ::
    L.writeMatcher (L.newMatcher rule.domain rule.domainSuffix (generateVersion = ruleSetVersion1)))),
  block (rule.domainKeyword ≠ []) (.ok (writeRuleItemString .domainKeyword rule.domainKeyword)),
  block (rule.domainRegex ≠ []) (.ok (writeRuleItemString .domainRegex rule.domainRegex)),
  block (rule.sourceIPCIDR ≠ []) ((writeRuleItemCIDR L .sourceIPCIDR rule.sourceIPCIDR).mapError
    (Failure.withCause "source_ip_cidr")),
  block (rule.ipCIDR ≠ []) ((writeRuleItemCIDR L .ipCIDR rule.ipCIDR).mapError
    (Failure.withCause "ipcidr")),
  block (rule.sourcePort ≠ []) (.ok (writeRuleItemUint16 .sourcePort rule.sourcePort)),
  block (rule.sourcePortRange ≠ []) (.ok (writeRuleItemString .sourcePortRange rule.sourcePortRange)),
  block (rule.port ≠ []) (.ok (writeRuleItemUint16 .port rule.port)),
  block (rule.portRange ≠ []) (.ok (writeRuleItemString .portRange rule.portRange)),
  block (rule.processName ≠ []) (.ok (writeRuleItemString .processName rule.processName)),
  block (rule.processPath ≠ []) (.ok (writeRuleItemString .processPath rule.processPath)),
  block (rule.processPathRegex ≠ [])
    (.ok (writeRuleItemString .processPathRegex rule.processPathRegex)),
  block (rule.packageName ≠ []) (.ok (writeRuleItemString .packageName rule.packageName)),
  block (rule.packageNameRegex ≠ []) (since generateVersion ruleSetVersion5
    "`package_name_regex` rule item is only supported in version 5 or later"
    (writeRuleItemString .packageNameRegex rule.packageNameRegex)),
  block (rule.networkType ≠ []) (since generateVersion ruleSetVersion3
    "`network_type` rule item is only supported in version 3 or later"
    (writeRuleItemUint8 .networkType rule.networkType)),
  block rule.networkIsExpensive (since generateVersion ruleSetVersion3
    "`network_is_expensive` rule item is only supported in version 3 or later"
    [RuleItem.networkIsExpensive.code]),
  block rule.networkIsConstrained (since generateVersion ruleSetVersion3
    "`network_is_constrained` rule item is only supported in version 3 or later"
    [RuleItem.networkIsConstrained.code]),
  block (rule.networkInterfaceAddress.entries ≠ []) (since generateVersion ruleSetVersion4
    "`network_interface_address` rule item is only supported in version 4 or later"
    (RuleItem.networkInterfaceAddress.code ::
      writeInterfaceAddresses rule.networkInterfaceAddress.entries)),
  block (rule.defaultInterfaceAddress ≠ []) (since generateVersion ruleSetVersion4
    "`default_interface_address` rule item is only supported in version 4 or later"
    (RuleItem.defaultInterfaceAddress.code :: writePrefixes rule.defaultInterfaceAddress)),
  block (rule.wifiSSID ≠ []) (.ok (writeRuleItemString .wifiSSID rule.wifiSSID)),
  block (rule.wifiBSSID ≠ []) (.ok (writeRuleItemString .wifiBSSID rule.wifiBSSID)),
  block (rule.adGuardDomain ≠ []) (since generateVersion ruleSetVersion2
    "AdGuard rule items is only supported in version 2 or later"
    (RuleItem.adGuardDomain.code ::
      L.writeAdGuardMatcher (L.newAdGuardMatcher rule.adGuardDomain)))]

/-- What is written one after another, up to the first failure. -/
def concat : List (Except Failure Bytes) → Except Failure Bytes
  | [] => .ok []
  | written :: rest => do
    let bytes ← written
    let more ← concat rest
    return bytes ++ more

def writeDefaultRule (rule : DefaultHeadlessRule L) : Except Failure Bytes := do
  let items ← concat (blocks L generateVersion rule)
  return 0 :: (items ++ [finalCode, putBool rule.invert])

def writeMode : LogicalMode → Except Failure UInt8
  | .and => .ok 0
  | .or => .ok 1
  | .other text => .error (.panic ("unknown logical mode: " ++ text))

mutual

/-- `writeRule`, with `writeLogicalRule`. -/
def writeRule (generateVersion : UInt8) : HeadlessRule L → Except Failure Bytes
  | .default options => writeDefaultRule L generateVersion options
  | .logical mode rules invert => do
    let mode ← writeMode mode
    let body ← writeRules generateVersion rules
    return [1, mode] ++ putUvarint rules.length ++ body ++ [putBool invert]
  | .other type => .error (.panic ("unknown rule type: " ++ type))

def writeRules (generateVersion : UInt8) : List (HeadlessRule L) → Except Failure Bytes
  | [] => .ok []
  | rule :: rules => do
    let bytes ← writeRule generateVersion rule
    let more ← writeRules generateVersion rules
    return bytes ++ more

end

def write (rules : List (HeadlessRule L)) (generateVersion : UInt8) : Except Failure Bytes := do
  let body ← writeRules L generateVersion rules
  return magicBytes ++ [generateVersion] ++ L.compress (putUvarint rules.length ++ body)

end Write

section Read

def errInvalid : String := "invalid argument"

/-- The beginning of `readIPSetAddr` and of `readPrefix`. -/
def readAddr : Decoder Addr := do
  let addrLen ← readUvarint
  if addrLen ≠ 4 ∧ addrLen ≠ 16 then fail errInvalid
  else return L.addrFromIP (← readFull addrLen)

def readIPSet : Decoder IPSet := do
  let version ← readByte
  if version ≠ 1 then fail errInvalid
  else do
    let length ← readBigEndian 8
    times length fun _ => do
      let fromAddr ← readAddr L
      let toAddr ← readAddr L
      return { fromAddr, toAddr }

def readPrefix : Decoder Prefixable := do
  let addr ← readAddr L
  let prefixBits ← readByte
  return some (prefixFrom addr prefixBits.toNat)

def readPrefixes : Decoder (List Prefixable) := do
  let prefixCount ← readUvarint
  times prefixCount fun _ => readPrefix L

def readRuleItemString : Decoder (List Bytes) := do
  let length ← readUvarint
  times length fun _ => L.readSlice8

def readInterfaceAddresses : Decoder (List (UInt8 × List Prefixable)) := do
  let size ← readUvarint
  times size fun _ => do
    let key ← readByte
    let value ← readPrefixes L
    return (key, value)

variable (recover : Bool)

/-- The cases of `readDefaultRule` for the items. -/
def readItem (rule : DefaultHeadlessRule L) : RuleItem → Decoder (DefaultHeadlessRule L)
  | .queryType => do return { rule with queryType := ← L.readSlice16 }
  | .network => do return { rule with network := ← readRuleItemString L }
  | .domain => do
    let matcher ← L.readMatcher
    return { rule with
      domainMatcher := some matcher
      domain := if recover then (L.dumpMatcher matcher).1 else rule.domain
      domainSuffix := if recover then (L.dumpMatcher matcher).2 else rule.domainSuffix }
  | .domainKeyword => do return { rule with domainKeyword := ← readRuleItemString L }
  | .domainRegex => do return { rule with domainRegex := ← readRuleItemString L }
  | .sourceIPCIDR => do
    let set ← readIPSet L
    return { rule with
      sourceIPSet := some set
      sourceIPCIDR := if recover then (L.prefixes set).map Prefix.text else rule.sourceIPCIDR }
  | .ipCIDR => do
    let set ← readIPSet L
    return { rule with
      ipSet := some set
      ipCIDR := if recover then (L.prefixes set).map Prefix.text else rule.ipCIDR }
  | .sourcePort => do return { rule with sourcePort := ← L.readSlice16 }
  | .sourcePortRange => do return { rule with sourcePortRange := ← readRuleItemString L }
  | .port => do return { rule with port := ← L.readSlice16 }
  | .portRange => do return { rule with portRange := ← readRuleItemString L }
  | .processName => do return { rule with processName := ← readRuleItemString L }
  | .processPath => do return { rule with processPath := ← readRuleItemString L }
  | .processPathRegex => do return { rule with processPathRegex := ← readRuleItemString L }
  | .packageName => do return { rule with packageName := ← readRuleItemString L }
  | .packageNameRegex => do return { rule with packageNameRegex := ← readRuleItemString L }
  | .wifiSSID => do return { rule with wifiSSID := ← readRuleItemString L }
  | .wifiBSSID => do return { rule with wifiBSSID := ← readRuleItemString L }
  | .adGuardDomain => do
    let matcher ← L.readAdGuardMatcher
    return { rule with
      adGuardDomainMatcher := some matcher
      adGuardDomain := if recover then L.dumpAdGuardMatcher matcher else rule.adGuardDomain }
  | .networkType => do return { rule with networkType := ← L.readSlice8 }
  | .networkIsExpensive => return { rule with networkIsExpensive := true }
  | .networkIsConstrained => return { rule with networkIsConstrained := true }
  | .networkInterfaceAddress => do
    return { rule with networkInterfaceAddress := .ofEntries (← readInterfaceAddresses L) }
  | .defaultInterfaceAddress => do
    return { rule with defaultInterfaceAddress := ← readPrefixes L }

/-- The loop of `readDefaultRule`. Every round takes a byte, so that a stream with as many bytes
as there are rounds has none when there are no more rounds. -/
def readItems (recover : Bool) :
    Nat → UInt8 → DefaultHeadlessRule L → Decoder (DefaultHeadlessRule L)
  | 0, _, _ => fail "EOF"
  | rounds + 1, lastItemType, rule => do
    let itemType ← readByte
    if itemType = finalCode then return { rule with invert := ← readBool }
    else
      match RuleItem.ofCode itemType with
      | none =>
        fail ("unknown rule item type: " ++ toString itemType ++ ", last type: " ++
          toString lastItemType)
      | some item => do
        let rule ← readItem L recover rule item
        readItems recover rounds itemType rule

def readDefaultRule : Decoder (DefaultHeadlessRule L) := fun bytes =>
  readItems L recover bytes.length 0 {} bytes

def readMode : Decoder LogicalMode := do
  let mode ← readByte
  if mode = 0 then return .and
  else if mode = 1 then return .or
  else fail ("unknown logical mode: " ++ toString mode)

def readLogicalRule (readRule : Decoder (HeadlessRule L)) : Decoder (HeadlessRule L) := do
  let mode ← readMode
  let length ← readUvarint
  let rules ← times length fun i => readRule.withCause ("read logical rule [" ++ toString i ++ "]")
  let invert ← readBool
  return .logical mode rules invert

/-- `readRule`, by how many more levels there may be: none if the depth is above
`maxLogicalRuleDepth`. -/
def readRule (recover : Bool) : Nat → Decoder (HeadlessRule L)
  | 0 => fail "logical rule nested too deep"
  | levels + 1 => do
    let ruleType ← readByte
    if ruleType = 0 then return .default (← readDefaultRule L recover)
    else if ruleType = 1 then readLogicalRule L (readRule recover levels)
    else fail ("unknown rule type: " ++ toString ruleType)

structure PlainRuleSetCompat where
  version : UInt8
  rules : List (HeadlessRule L)

/-- The part of `Read` behind the compression. -/
def readRuleSet : Decoder (List (HeadlessRule L)) := do
  let length ← readUvarint
  times length fun i =>
    (readRule L recover (maxLogicalRuleDepth + 1)).withCause ("read rule[" ++ toString i ++ "]")

/-- The part of `Read` before the compression: the version. -/
def readHeader : Decoder UInt8 := do
  let magic ← readFull 3
  if magic ≠ magicBytes then fail "invalid sing-box rule-set file"
  else do
    let version ← readByte
    if version > ruleSetVersionCurrent then fail ("unsupported version: " ++ toString version)
    else return version

def read (content : Bytes) : Except String (PlainRuleSetCompat L) := do
  let version ← (readHeader content).1
  let bytes ← L.decompress (readHeader content).2
  let rules ← (readRuleSet L recover bytes).1
  return { version, rules }

end Read

end SingBox.Srs
