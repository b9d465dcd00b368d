import SingBox.Srs.Items

/-! What a default rule is after it was written and read. -/

namespace SingBox.Srs
open Lib Codec Netip Decoder Option

variable {L : Libraries}

namespace DefaultHeadlessRule

variable (rule : DefaultHeadlessRule L)

def strings : List (List Bytes) := [
  rule.network, rule.domainKeyword, rule.domainRegex, rule.sourceIPCIDR, rule.ipCIDR,
  rule.sourcePortRange, rule.portRange, rule.processName, rule.processPath, rule.processPathRegex,
  rule.packageName, rule.packageNameRegex, rule.wifiSSID, rule.wifiBSSID]

/-- The lengths of slices and strings are numbers of the type `int`. -/
structure Sized (rule : DefaultHeadlessRule L) : Prop where
  strings : ∀ value ∈ rule.strings, value.length < 2 ^ 63 ∧ ∀ s ∈ value, s.length < 2 ^ 63
  numbers : ∀ value ∈ [rule.queryType, rule.sourcePort, rule.port], value.length < 2 ^ 63
  networkType : rule.networkType.length < 2 ^ 63
  networkInterfaceAddress : rule.networkInterfaceAddress.entries.length < 2 ^ 63 ∧
    ∀ entry ∈ rule.networkInterfaceAddress.entries, entry.2.length < 2 ^ 63
  defaultInterfaceAddress : rule.defaultInterfaceAddress.length < 2 ^ 63

/-- Every prefix of an interface address has an address. -/
def addressed : Bool :=
  rule.networkInterfaceAddress.entries.all (fun entry => entry.2.all isSome) &&
    rule.defaultInterfaceAddress.all isSome

def hasDomain : Bool := rule.domain ≠ [] ∨ rule.domainSuffix ≠ []

def matcher (generateVersion : UInt8) (rule : DefaultHeadlessRule L) : L.Matcher :=
  L.newMatcher rule.domain rule.domainSuffix (generateVersion = ruleSetVersion1)

end DefaultHeadlessRule

def cidrSet (L : Libraries) (texts : List Bytes) : IPSet := L.ipSet (texts.filterMap parseCIDR)

variable (recover : Bool) (generateVersion : UInt8)

/-- The rule that comes back: domains and addresses as matchers and sets, with texts for them
only if they are to be recovered, and all else as it was. -/
def compiled (rule : DefaultHeadlessRule L) : DefaultHeadlessRule L :=
  let matcher := rule.matcher generateVersion
  { rule with
    domain := if rule.hasDomain && recover then (L.dumpMatcher matcher).1 else []
    domainSuffix := if rule.hasDomain && recover then (L.dumpMatcher matcher).2 else []
    domainMatcher := if rule.hasDomain then some matcher else none
    sourceIPCIDR := if rule.sourceIPCIDR ≠ [] ∧ recover then
      (L.prefixes (cidrSet L rule.sourceIPCIDR)).map Prefix.text else []
    sourceIPSet := if rule.sourceIPCIDR ≠ [] then some (cidrSet L rule.sourceIPCIDR) else none
    ipCIDR := if rule.ipCIDR ≠ [] ∧ recover then
      (L.prefixes (cidrSet L rule.ipCIDR)).map Prefix.text else []
    ipSet := if rule.ipCIDR ≠ [] then some (cidrSet L rule.ipCIDR) else none
    adGuardDomain := if rule.adGuardDomain ≠ [] ∧ recover then
      L.dumpAdGuardMatcher (L.newAdGuardMatcher rule.adGuardDomain) else []
    adGuardDomainMatcher := if rule.adGuardDomain ≠ [] then
      some (L.newAdGuardMatcher rule.adGuardDomain) else none }

/-- The value of an item that was there, or else the value before. -/
def kept {α : Type} : List α → List α → List α
  | [], old => old
  | a :: new, _ => a :: new

variable {α : Type}

lemma kept_nil (new : List α) : kept new [] = new := by
  cases new <;> rfl

variable (r : DefaultHeadlessRule L)

/-- How the items of a rule change the rule that is being read, block by block. -/
def sets :
    List (DefaultHeadlessRule L → Option (DefaultHeadlessRule L)) := [
  fun rule => some { rule with queryType := kept r.queryType rule.queryType },
  fun rule => some { rule with network := kept r.network rule.network },
  fun rule => some { rule with
    domainMatcher := if r.hasDomain then some (r.matcher generateVersion) else rule.domainMatcher
    domain := if r.hasDomain && recover then (L.dumpMatcher (r.matcher generateVersion)).1
      else rule.domain
    domainSuffix := if r.hasDomain && recover then (L.dumpMatcher (r.matcher generateVersion)).2
      else rule.domainSuffix },
  fun rule => some { rule with domainKeyword := kept r.domainKeyword rule.domainKeyword },
  fun rule => some { rule with domainRegex := kept r.domainRegex rule.domainRegex },
  fun rule => some { rule with
    sourceIPSet := if r.sourceIPCIDR ≠ [] then some (cidrSet L r.sourceIPCIDR) else rule.sourceIPSet
    sourceIPCIDR := if r.sourceIPCIDR ≠ [] ∧ recover then
      (L.prefixes (cidrSet L r.sourceIPCIDR)).map Prefix.text else rule.sourceIPCIDR },
  fun rule => some { rule with
    ipSet := if r.ipCIDR ≠ [] then some (cidrSet L r.ipCIDR) else rule.ipSet
    ipCIDR := if r.ipCIDR ≠ [] ∧ recover then
      (L.prefixes (cidrSet L r.ipCIDR)).map Prefix.text else rule.ipCIDR },
  fun rule => some { rule with sourcePort := kept r.sourcePort rule.sourcePort },
  fun rule => some { rule with sourcePortRange := kept r.sourcePortRange rule.sourcePortRange },
  fun rule => some { rule with port := kept r.port rule.port },
  fun rule => some { rule with portRange := kept r.portRange rule.portRange },
  fun rule => some { rule with processName := kept r.processName rule.processName },
  fun rule => some { rule with processPath := kept r.processPath rule.processPath },
  fun rule => some { rule with processPathRegex := kept r.processPathRegex rule.processPathRegex },
  fun rule => some { rule with packageName := kept r.packageName rule.packageName },
  fun rule => some { rule with packageNameRegex := kept r.packageNameRegex rule.packageNameRegex },
  fun rule => some { rule with networkType := kept r.networkType rule.networkType },
  fun rule => some { rule with
    networkIsExpensive := r.networkIsExpensive || rule.networkIsExpensive },
  fun rule => some { rule with
    networkIsConstrained := r.networkIsConstrained || rule.networkIsConstrained },
  fun rule => (guard (·.all fun entry => entry.2.all isSome)
      r.networkInterfaceAddress.entries).map fun entries =>
    { rule with networkInterfaceAddress :=
        .ofEntries (kept entries rule.networkInterfaceAddress.entries) },
  fun rule => (guard (·.all isSome) r.defaultInterfaceAddress).map fun value =>
    { rule with defaultInterfaceAddress := kept value rule.defaultInterfaceAddress },
  fun rule => some { rule with wifiSSID := kept r.wifiSSID rule.wifiSSID },
  fun rule => some { rule with wifiBSSID := kept r.wifiBSSID rule.wifiBSSID },
  fun rule => some { rule with
    adGuardDomainMatcher := if r.adGuardDomain ≠ [] then
      some (L.newAdGuardMatcher r.adGuardDomain) else rule.adGuardDomainMatcher
    adGuardDomain := if r.adGuardDomain ≠ [] ∧ recover then
      L.dumpAdGuardMatcher (L.newAdGuardMatcher r.adGuardDomain) else rule.adGuardDomain }]

lemma restored_sets :
    (restored (sets recover generateVersion r) {}).map ({ · with invert := r.invert }) =
      if r.addressed then some (compiled recover generateVersion r) else none := by
  unfold DefaultHeadlessRule.addressed
  cases hnet : r.networkInterfaceAddress.entries.all fun entry => entry.2.all isSome with
  | false => simp [restored, sets, Option.guard, hnet]
  | true =>
    cases hdef : r.defaultInterfaceAddress.all isSome with
    | false => simp [restored, sets, Option.guard, hnet, hdef]
    | true =>
      have hmap : LinkedMap.ofEntries (kept r.networkInterfaceAddress.entries
          (∅ : LinkedMap UInt8 (List Prefixable)).entries) = r.networkInterfaceAddress := by
        rw [show (∅ : LinkedMap UInt8 (List Prefixable)).entries = [] from rfl, kept_nil,
          LinkedMap.ofEntries_entries]
      simp [restored, sets, hnet, hdef, hmap, kept_nil, compiled]

section Restores

variable {recover : Bool} {item : RuleItem} {written : Except Failure Bytes} {payload : Bytes}

/-- An item that is a list, and the field of the rule that it goes into. -/
theorem restores_list [DecidableEq α] {values : List α} {o : Option (List α)}
    {d : Decoder (List α)} (field : DefaultHeadlessRule L → List α)
    (update : DefaultHeadlessRule L → List α → DefaultHeadlessRule L)
    (hupd : ∀ rule, update rule (field rule) = rule)
    (hitem : ∀ rule, readItem L recover rule item = d >>= fun value => pure (update rule value))
    (hwritten : ∀ bytes, written = .ok bytes → bytes = item.code :: payload)
    (hread : Returns d payload o) (hnil : values = [] → o = some values)
    (ho : ∀ value, o = some value → value = values) : Restores recover (block (values ≠ []) written)
      (fun rule => o.map fun value => update rule (kept value (field rule))) := by
  apply restores_block hwritten
  · intro habsent rule
    have hvalues : values = [] := by simpa using habsent
    rw [hnil hvalues, hvalues, map_some]
    exact congrArg some (hupd rule)
  · intro hpresent rule
    have hne : values ≠ [] := by simpa using hpresent
    rw [hitem rule]
    have hmap := hread.map (f := update rule)
    cases o with
    | none => exact hmap
    | some value =>
      cases ho value rfl
      cases values with
      | nil => exact absurd rfl hne
      | cons v values => exact hmap

variable {r : DefaultHeadlessRule L}

lemma restores_strings (hL : L.Lawful) (hr : r.Sized) {values : List Bytes}
    {field : DefaultHeadlessRule L → List Bytes} (item : RuleItem)
    (update : DefaultHeadlessRule L → List Bytes → DefaultHeadlessRule L)
    (hwritten : ∀ bytes, written = .ok bytes → bytes = writeRuleItemString item values := by
      exact fun _ => eq_of_ok)
    (hvalues : values ∈ r.strings := by simp [DefaultHeadlessRule.strings])
    (hupd : ∀ rule, update rule (field rule) = rule := by exact fun _ => rfl)
    (hitem : ∀ rule, readItem L recover rule item =
      readRuleItemString L >>= fun value => pure (update rule value) := by exact fun _ => rfl) :
    Restores recover (block (values ≠ []) written)
      (fun rule => some (update rule (kept values (field rule)))) :=
  have hlen := hr.strings values hvalues
  restores_list field update hupd hitem hwritten (reads_strings hL hlen.1 hlen.2)
    (fun _ => rfl) (fun _ h => (some.inj h).symm)

lemma restores_numbers (hL : L.Lawful) (hr : r.Sized) {values : List UInt16}
    {field : DefaultHeadlessRule L → List UInt16} (item : RuleItem)
    (update : DefaultHeadlessRule L → List UInt16 → DefaultHeadlessRule L)
    (hvalues : values ∈ [r.queryType, r.sourcePort, r.port] := by simp)
    (hupd : ∀ rule, update rule (field rule) = rule := by exact fun _ => rfl)
    (hitem : ∀ rule, readItem L recover rule item =
      L.readSlice16 >>= fun value => pure (update rule value) := by exact fun _ => rfl) :
    Restores recover (block (values ≠ []) (.ok (writeRuleItemUint16 item values)))
      (fun rule => some (update rule (kept values (field rule)))) :=
  restores_list field update hupd hitem (fun _ => eq_of_ok)
    (hL.readSlice16 values (hr.numbers values hvalues)) (fun _ => rfl) (fun _ h => (some.inj h).symm)

variable {texts : List Bytes}

lemma parseCIDRs_eq {i : Nat} {added : List Added}
    (h : parseCIDRs i texts = .ok added) : added = texts.filterMap parseCIDR := by
  induction texts generalizing i added with
  | nil =>
    cases h
    rfl
  | cons text texts ih =>
    unfold parseCIDRs at h
    cases htext : parseCIDR text with
    | none =>
      rw [htext] at h
      cases h
    | some first =>
      rw [htext] at h
      cases hmore : parseCIDRs (i + 1) texts with
      | error err =>
        rw [hmore] at h
        cases h
      | ok more =>
        rw [hmore] at h
        cases h
        rw [List.filterMap_cons, htext, ih hmore]

lemma cidr_written {err : String} {bytes : Bytes}
    (h : (writeRuleItemCIDR L item texts).mapError (Failure.withCause err) = .ok bytes) :
    bytes = item.code :: writeIPSet (cidrSet L texts) := by
  unfold writeRuleItemCIDR at h
  cases hparse : parseCIDRs 0 texts with
  | error err =>
    rw [hparse] at h
    cases h
  | ok added =>
    rw [hparse] at h
    cases h
    rw [parseCIDRs_eq hparse, cidrSet]

lemma reads_cidrSet (hL : L.Lawful) (hlen : texts.length < 2 ^ 63) :
    Reads (readIPSet L) (writeIPSet (cidrSet L texts)) (cidrSet L texts) := by
  have hset : (cidrSet L texts).length ≤ (texts.filterMap parseCIDR).length := hL.length _
  have htexts : (texts.filterMap parseCIDR).length ≤ texts.length := List.length_filterMap_le _ _
  exact reads_ipSet hL (by omega) (hL.plain _)

variable {present : Bool}

lemma restores_value {d : Decoder α} {value : α}
    (update : DefaultHeadlessRule L → α → DefaultHeadlessRule L)
    {set : DefaultHeadlessRule L → DefaultHeadlessRule L}
    (hitem : ∀ rule, readItem L recover rule item = d >>= fun value => pure (update rule value))
    (hwritten : ∀ bytes, written = .ok bytes → bytes = item.code :: payload)
    (hread : Reads d payload value) (habsent : present = false → ∀ rule, set rule = rule)
    (hpresent : present → ∀ rule, update rule value = set rule) :
    Restores recover (block present written) (fun rule => some (set rule)) := by
  apply restores_block hwritten
  · intro h rule
    rw [habsent h]
  · intro h rule
    rw [hitem rule]
    exact hread.map (hpresent h rule)

lemma restores_flag (field : DefaultHeadlessRule L → Bool)
    (update : DefaultHeadlessRule L → Bool → DefaultHeadlessRule L)
    (hupd : ∀ rule, update rule (field rule) = rule)
    (hitem : ∀ rule, readItem L recover rule item = pure (update rule true))
    (hwritten : ∀ bytes, written = .ok bytes → bytes = [item.code]) :
    Restores recover (block present written)
      (fun rule => some (update rule (present || field rule))) := by
  apply restores_block hwritten
  · rintro rfl rule
    exact congrArg some (hupd rule)
  · rintro rfl rule
    rw [hitem rule]
    exact Reads.pure _

lemma restores_sets (hL : L.Lawful) (hr : r.Sized) (generateVersion : UInt8) :
    List.Forall₂ (Restores recover) (blocks L generateVersion r)
        (sets recover generateVersion r) := by
  refine .cons ?queryType <| .cons ?network <| .cons ?domain <| .cons ?domainKeyword <|
    .cons ?domainRegex <| .cons ?sourceIPCIDR <| .cons ?ipCIDR <| .cons ?sourcePort <|
    .cons ?sourcePortRange <| .cons ?port <| .cons ?portRange <| .cons ?processName <|
    .cons ?processPath <| .cons ?processPathRegex <| .cons ?packageName <|
    .cons ?packageNameRegex <| .cons ?networkType <| .cons ?networkIsExpensive <|
    .cons ?networkIsConstrained <| .cons ?networkInterfaceAddress <|
    .cons ?defaultInterfaceAddress <| .cons ?wifiSSID <| .cons ?wifiBSSID <|
    .cons ?adGuardDomain .nil
  case queryType => exact restores_numbers hL hr .queryType ({ · with queryType := · })
  case sourcePort => exact restores_numbers hL hr .sourcePort ({ · with sourcePort := · })
  case port => exact restores_numbers hL hr .port ({ · with port := · })
  case network => exact restores_strings hL hr .network ({ · with network := · })
  case domainKeyword => exact restores_strings hL hr .domainKeyword ({ · with domainKeyword := · })
  case domainRegex => exact restores_strings hL hr .domainRegex ({ · with domainRegex := · })
  case sourcePortRange =>
    exact restores_strings hL hr .sourcePortRange ({ · with sourcePortRange := · })
  case portRange => exact restores_strings hL hr .portRange ({ · with portRange := · })
  case processName => exact restores_strings hL hr .processName ({ · with processName := · })
  case processPath => exact restores_strings hL hr .processPath ({ · with processPath := · })
  case processPathRegex =>
    exact restores_strings hL hr .processPathRegex ({ · with processPathRegex := · })
  case packageName => exact restores_strings hL hr .packageName ({ · with packageName := · })
  case wifiSSID => exact restores_strings hL hr .wifiSSID ({ · with wifiSSID := · })
  case wifiBSSID => exact restores_strings hL hr .wifiBSSID ({ · with wifiBSSID := · })
  case packageNameRegex =>
    exact restores_strings hL hr .packageNameRegex ({ · with packageNameRegex := · })
        (fun _ => eq_of_since)
  case networkType =>
    exact restores_list _ ({ · with networkType := · }) (fun _ => rfl)
      (fun _ => rfl) (fun _ => eq_of_since) (hL.readSlice8 _ hr.networkType) (fun _ => rfl)
      (fun _ h => (some.inj h).symm)
  case networkIsExpensive =>
    exact restores_flag _ ({ · with networkIsExpensive := · }) (fun _ => rfl) (fun _ => rfl)
      (fun _ => eq_of_since)
  case networkIsConstrained =>
    exact restores_flag _ ({ · with networkIsConstrained := · }) (fun _ => rfl) (fun _ => rfl)
      (fun _ => eq_of_since)
  case networkInterfaceAddress =>
    have hupd (rule : DefaultHeadlessRule L) :
        { rule with
          networkInterfaceAddress := LinkedMap.ofEntries rule.networkInterfaceAddress.entries } =
          rule := by
      rw [LinkedMap.ofEntries_entries]
    exact restores_list (fun rule => rule.networkInterfaceAddress.entries)
      ({ · with networkInterfaceAddress := LinkedMap.ofEntries · }) hupd (fun _ => rfl)
      (fun _ => eq_of_since)
      (returns_interfaceAddresses hL hr.networkInterfaceAddress.1 hr.networkInterfaceAddress.2)
      (fun h => by rw [h]; rfl) (fun _ h => (guard_eq_some_iff.mp h).1.symm)
  case defaultInterfaceAddress =>
    exact restores_list (fun rule => rule.defaultInterfaceAddress)
      ({ · with defaultInterfaceAddress := · }) (fun _ => rfl) (fun _ => rfl) (fun _ => eq_of_since)
      (returns_prefixes hL hr.defaultInterfaceAddress)
      (fun h => by rw [h]; rfl) (fun _ h => (guard_eq_some_iff.mp h).1.symm)
  case domain =>
    exact restores_value _ (fun _ => rfl) (fun _ => eq_of_ok)
      (hL.readMatcher (r.matcher generateVersion))
      (fun h _ => by simp_all [DefaultHeadlessRule.hasDomain])
      (fun h _ => by simp_all [DefaultHeadlessRule.hasDomain])
  case sourceIPCIDR =>
    exact restores_value _ (fun _ => rfl) (fun _ => cidr_written)
      (reads_cidrSet hL (hr.strings r.sourceIPCIDR (by simp [DefaultHeadlessRule.strings])).1)
      (fun h _ => by simp_all) (fun h _ => by simp_all)
  case ipCIDR =>
    exact restores_value _ (fun _ => rfl) (fun _ => cidr_written)
      (reads_cidrSet hL (hr.strings r.ipCIDR (by simp [DefaultHeadlessRule.strings])).1)
      (fun h _ => by simp_all) (fun h _ => by simp_all)
  case adGuardDomain =>
    exact restores_value _ (fun _ => rfl) (fun _ => eq_of_since) (hL.readAdGuardMatcher _)
      (fun h _ => by simp_all) (fun h _ => by simp_all)

end Restores

/-- A default rule that was written is read as it is compiled, unless a prefix has no
address. -/
theorem returns_defaultRule (hL : L.Lawful) {r : DefaultHeadlessRule L} (hr : r.Sized)
    {generateVersion : UInt8} {bytes : Bytes}
    (hbytes : concat (blocks L generateVersion r) = .ok bytes) (recover : Bool) :
    Returns (readDefaultRule L recover) (bytes ++ [finalCode, putBool r.invert])
      (if r.addressed then some (compiled recover generateVersion r) else none) := by
  intro rest
  rw [← restored_sets]
  exact gives_readItems (restores_sets hL hr generateVersion) hbytes r.invert rest (Nat.le_refl _)
    0 {}

end SingBox.Srs
