import SingBox.Route.Destination

/-! Loading a rule-set: the options of its rules, the rules built from them, the
metadata read off them, and the states a set goes through. -/

namespace SingBox.Route
open Dns Lib Option List

/-- `option.DefaultHeadlessRule` as parsed. A field whose item is built by another
package (domain matchers, port ranges, processes, network state) is the
predicate it becomes; an address list is a list of address ranges. -/
structure DefaultHeadlessOptions where
  queryType : Option (Flow → Bool) := none
  network : Option (Flow → Bool) := none
  domain : Option (Flow → Bool) := none
  domainKeyword : Option (Flow → Bool) := none
  domainRegex : Option (Flow → Bool) := none
  sourceIPCIDR : List (Addr → Bool) := []
  ipCIDR : List (Addr → Bool) := []
  sourcePort : Option (Flow → Bool) := none
  sourcePortRange : Option (Flow → Bool) := none
  port : Option (Flow → Bool) := none
  portRange : Option (Flow → Bool) := none
  processName : Option (Flow → Bool) := none
  processPath : Option (Flow → Bool) := none
  processPathRegex : Option (Flow → Bool) := none
  packageName : Option (Flow → Bool) := none
  packageNameRegex : Option (Flow → Bool) := none
  networkType : Option (Flow → Bool) := none
  networkIsExpensive : Option (Flow → Bool) := none
  networkIsConstrained : Option (Flow → Bool) := none
  wifiSSID : Option (Flow → Bool) := none
  wifiBSSID : Option (Flow → Bool) := none
  networkInterfaceAddress : Option (Flow → Bool) := none
  defaultInterfaceAddress : Option (Flow → Bool) := none
  invert : Bool := false
  domainMatcher : Option (Flow → Bool) := none
  sourceIPSet : Option (Addr → Bool) := none
  ipSet : Option (Addr → Bool) := none
  adGuardDomain : Option (Flow → Bool) := none
  adGuardDomainMatcher : Option (Flow → Bool) := none

namespace DefaultHeadlessOptions

variable (o : DefaultHeadlessOptions)

/-- The fields for network state, which need a network manager. -/
def networkFields : List (Option (Flow → Bool)) :=
  [o.networkType, o.networkIsExpensive, o.networkIsConstrained, o.wifiSSID, o.wifiBSSID,
    o.networkInterfaceAddress, o.defaultInterfaceAddress]

def isProcessHeadlessRule : Bool :=
  o.processName.isSome || o.processPath.isSome || o.processPathRegex.isSome ||
  o.packageName.isSome || o.packageNameRegex.isSome

def isWIFIHeadlessRule : Bool := o.wifiSSID.isSome || o.wifiBSSID.isSome

def isIPCIDRHeadlessRule : Bool := !o.ipCIDR.isEmpty || o.ipSet.isSome

def isDNSQueryTypeHeadlessRule : Bool := o.queryType.isSome

/-- Some field apart from `ip_cidr`, its compiled form and `invert` is set. -/
def isNonIPCIDRHeadlessRule : Bool :=
  !o.sourceIPCIDR.isEmpty || o.sourceIPSet.isSome || o.isProcessHeadlessRule ||
  o.isDNSQueryTypeHeadlessRule || o.networkFields.any isSome ||
  [o.network, o.domain, o.domainKeyword, o.domainRegex, o.sourcePort, o.sourcePortRange, o.port,
    o.portRange, o.domainMatcher, o.adGuardDomain, o.adGuardDomainMatcher].any isSome

def isValid : Bool := o.isIPCIDRHeadlessRule || o.isNonIPCIDRHeadlessRule

end DefaultHeadlessOptions

/-- `NewIPCIDRItem` for a list, and `NewRawIPCIDRItem` for a compiled set without
a list. -/
def ipCIDRItems (isSource : Bool) (ranges : List (Addr → Bool)) (ipSet : Option (Addr → Bool)) :
    List RuleItem :=
  if !ranges.isEmpty then
    [.ipCIDR isSource fun a => ranges.any fun range => range a]
  else
    (ipSet.map (RuleItem.ipCIDR isSource)).toList

/-- The items of the fields that are set. -/
def flowItems (fields : List (Option (Flow → Bool))) : List RuleItem :=
  fields.filterMap fun field => field.map RuleItem.flow

def newDefaultHeadlessRule (networkManager : Bool) (o : DefaultHeadlessOptions) : DefaultRule where
  items := flowItems ([o.queryType, o.network, o.processName, o.processPath, o.processPathRegex,
    o.packageName, o.packageNameRegex] ++ if networkManager then o.networkFields else [])
  sourceAddressItems := ipCIDRItems true o.sourceIPCIDR o.sourceIPSet
  sourcePortItems := flowItems [o.sourcePort, o.sourcePortRange]
  -- The matchers of a compiled set stand in only where the plain list is empty.
  destinationAddressItems := flowItems [o.domain <|> o.domainMatcher, o.domainKeyword,
    o.domainRegex, o.adGuardDomain <|> o.adGuardDomainMatcher]
  destinationIPCIDRItems := ipCIDRItems false o.ipCIDR o.ipSet
  destinationPortItems := flowItems [o.port, o.portRange]
  invert := o.invert

/-- `option.HeadlessRule`. -/
inductive HeadlessOptions
  | default (options : DefaultHeadlessOptions)
  | logical (mode : LogicalMode) (rules : List HeadlessOptions) (invert : Bool)

mutual

def HeadlessOptions.isValid : HeadlessOptions → Bool
  | .default o => o.isValid
  | .logical _ rules _ => !rules.isEmpty && HeadlessOptions.allValid rules

def HeadlessOptions.allValid : List HeadlessOptions → Bool
  | [] => true
  | rule :: rules => rule.isValid && HeadlessOptions.allValid rules

end

mutual

def newHeadlessRule (networkManager : Bool) : HeadlessOptions → Except String HeadlessRule
  | .default o =>
    if o.isValid then .ok (.default (newDefaultHeadlessRule networkManager o))
    else .error "missing conditions"
  | .logical mode rules invert =>
    if !rules.isEmpty && HeadlessOptions.allValid rules then
      (newHeadlessRules networkManager "sub rule" rules 0).map fun rules =>
        .logical mode rules invert
    else .error "missing conditions"

/-- The loop over a list of options; `label` names the list in errors. -/
def newHeadlessRules (networkManager : Bool) (label : String) :
    List HeadlessOptions → Nat → Except String (List HeadlessRule)
  | [], _ => .ok []
  | options :: rest, i =>
    match newHeadlessRule networkManager options with
    | .error err => .error (label ++ "[" ++ toString i ++ "]: " ++ err)
    | .ok rule => (newHeadlessRules networkManager label rest (i + 1)).map (rule :: ·)

end

mutual

def HeadlessOptions.has (cond : DefaultHeadlessOptions → Bool) : HeadlessOptions → Bool
  | .default o => cond o
  | .logical _ rules _ => hasHeadlessRule cond rules

def hasHeadlessRule (cond : DefaultHeadlessOptions → Bool) : List HeadlessOptions → Bool
  | [] => false
  | rule :: rules => rule.has cond || hasHeadlessRule cond rules

end

def buildRuleSetMetadata (rules : List HeadlessOptions) : RuleSetMetadata where
  containsProcessRule := hasHeadlessRule DefaultHeadlessOptions.isProcessHeadlessRule rules
  containsWIFIRule := hasHeadlessRule DefaultHeadlessOptions.isWIFIHeadlessRule rules
  containsIPCIDRRule := hasHeadlessRule DefaultHeadlessOptions.isIPCIDRHeadlessRule rules
  containsDNSQueryTypeRule :=
    hasHeadlessRule DefaultHeadlessOptions.isDNSQueryTypeHeadlessRule rules
  containsNonIPCIDRRule := hasHeadlessRule DefaultHeadlessOptions.isNonIPCIDRHeadlessRule rules

namespace RuleSet

/-- `reloadRules` of a local set and the end of `loadBytes` of a remote one:
rules and metadata change together or not at all. -/
def reloadRules (networkManager : Bool)
    (validateRuleSetMetadataUpdate : String → RuleSetMetadata → Except String Unit) (s : RuleSet)
    (options : List HeadlessOptions) : Except String RuleSet := do
  let rules ← newHeadlessRules networkManager "parse rule_set.rules." options 0
  let metadata := buildRuleSetMetadata options
  validateRuleSetMetadataUpdate s.tag metadata
  return { s with rules, metadata }

/-- What happens to a set: an attempt to load options, or the end of its use by
`Cleanup` or `Close`. -/
inductive Event
  | reload (networkManager : Bool)
      (validateRuleSetMetadataUpdate : String → RuleSetMetadata → Except String Unit)
      (options : List HeadlessOptions)
  | drop

def step (s : RuleSet) : Event → RuleSet
  | .reload networkManager validate options =>
    match s.reloadRules networkManager validate options with
    | .ok s => s
    | .error _ => s
  | .drop => { s with rules := [] }

def run (tag : String) (events : List Event) : RuleSet := events.foldl step { tag, rules := [] }

end RuleSet

/-! ## Rules and options have the same leaves -/

/-- Induction over options: every rule of a logical rule first. -/
theorem HeadlessOptions.induct {P : HeadlessOptions → Prop} (hd : ∀ o, P (.default o))
    (hl : ∀ mode rules invert, (∀ rule ∈ rules, P rule) → P (.logical mode rules invert)) :
    ∀ o, P o := by
  refine @HeadlessOptions.rec P (fun rules => ∀ rule ∈ rules, P rule) hd hl (by simp) ?_
  intro o rules ih ihs r hr
  obtain rfl | hr := mem_cons.mp hr
  · exact ih
  · exact ihs r hr

lemma hasHeadlessRule_eq_false {cond : DefaultHeadlessOptions → Bool}
    {rules : List HeadlessOptions} :
    hasHeadlessRule cond rules = false ↔ ∀ rule ∈ rules, rule.has cond = false := by
  induction rules with
  | nil => simp [hasHeadlessRule]
  | cons rule rules ih => simp [hasHeadlessRule, ih]

variable {options : List HeadlessOptions} {networkManager : Bool}

/-- Every rule of a built list comes from one of the options. -/
theorem newHeadlessRules_ok {label : String} {i : Nat} {rules : List HeadlessRule}
    (h : newHeadlessRules networkManager label options i = .ok rules) :
    ∀ rule ∈ rules, ∃ o ∈ options, newHeadlessRule networkManager o = .ok rule := by
  induction options generalizing i rules with
  | nil =>
    cases h
    simp
  | cons o options ih =>
    rw [newHeadlessRules] at h
    cases hrule : newHeadlessRule networkManager o with
    | error err => simp [hrule] at h
    | ok rule =>
      cases hrest : newHeadlessRules networkManager label options (i + 1) with
      | error err => simp [hrule, hrest, Except.map] at h
      | ok rest =>
        simp only [hrule, hrest, Except.map, Except.ok.injEq] at h
        subst h
        intro r hr
        obtain rfl | hr := mem_cons.mp hr
        · exact ⟨o, mem_cons_self, hrule⟩
        · obtain ⟨o', ho', hr'⟩ := ih hrest r hr
          exact ⟨o', mem_cons_of_mem o ho', hr'⟩

/-- Every default rule of a built rule comes from default options, which count
for every condition on the whole. -/
theorem newHeadlessRule_leaves {o : HeadlessOptions} {rule : HeadlessRule}
    (h : newHeadlessRule networkManager o = .ok rule) :
    ∀ leaf ∈ rule.leaves, ∃ d, leaf = newDefaultHeadlessRule networkManager d ∧
      ∀ cond, o.has cond = false → cond d = false := by
  induction o using HeadlessOptions.induct generalizing rule with
  | hd d =>
    rw [newHeadlessRule] at h
    split at h
    · cases h
      simpa [HeadlessRule.leaves, HeadlessOptions.has] using ⟨d, rfl, fun _ => id⟩
    · cases h
  | hl mode options invert ih =>
    rw [newHeadlessRule] at h
    split at h
    · cases hrules : newHeadlessRules networkManager "sub rule" options 0 with
      | error err => simp [hrules, Except.map] at h
      | ok rules =>
        simp only [hrules, Except.map, Except.ok.injEq] at h
        subst h
        rw [HeadlessRule.forall_leaves_logical]
        intro rule hr leaf hl
        obtain ⟨o, ho, hrule⟩ := newHeadlessRules_ok hrules rule hr
        obtain ⟨d, hd, hcond⟩ := ih o ho hrule leaf hl
        refine ⟨d, hd, fun cond hno => hcond cond ?_⟩
        exact hasHeadlessRule_eq_false.mp hno o ho
    · cases h

variable {item : RuleItem}

lemma mem_flowItems {fields : List (Option (Flow → Bool))}
    (h : item ∈ flowItems fields) : ∃ p, item = .flow p := by
  simp only [flowItems, mem_filterMap, map_eq_some_iff] at h
  obtain ⟨_, -, p, -, rfl⟩ := h
  exact ⟨p, rfl⟩

lemma mem_ipCIDRItems {isSource : Bool} {ranges : List (Addr → Bool)}
    {ipSet : Option (Addr → Bool)} (h : item ∈ ipCIDRItems isSource ranges ipSet) :
    ∃ ipSet, item = .ipCIDR isSource ipSet := by
  unfold ipCIDRItems at h
  split at h
  · exact ⟨_, mem_singleton.mp h⟩
  · cases ipSet with
    | none => simp at h
    | some ipSet => exact ⟨ipSet, by simpa using h⟩

/-- A built rule reads the destination, and a response, through ip_cidr only. -/
theorem newDefaultHeadlessRule_onlyIPCIDR (networkManager : Bool) (d : DefaultHeadlessOptions) :
    (newDefaultHeadlessRule networkManager d).OnlyIPCIDR RuleItem.readsDestination := by
  constructor
  · intro item hi
    simp only [DefaultRule.plainItems, newDefaultHeadlessRule, mem_append] at hi
    obtain (((hi | hi) | hi) | hi) | hi := hi
    · obtain ⟨p, rfl⟩ := mem_flowItems hi; rfl
    · obtain ⟨p, rfl⟩ := mem_ipCIDRItems hi; rfl
    · obtain ⟨p, rfl⟩ := mem_flowItems hi; rfl
    · obtain ⟨p, rfl⟩ := mem_flowItems hi; rfl
    · obtain ⟨p, rfl⟩ := mem_flowItems hi; rfl
  · intro item hi
    obtain ⟨p, rfl⟩ := mem_ipCIDRItems hi
    rfl

lemma newDefaultHeadlessRule_destinationIPCIDRItems (networkManager : Bool)
    {d : DefaultHeadlessOptions} (h : d.isIPCIDRHeadlessRule = false) :
    (newDefaultHeadlessRule networkManager d).destinationIPCIDRItems = [] := by
  simp only [DefaultHeadlessOptions.isIPCIDRHeadlessRule, Bool.or_eq_false_iff,
    Bool.not_eq_false'] at h
  have hset : d.ipSet = none := by simpa using h.2
  simp [newDefaultHeadlessRule, ipCIDRItems, h.1, hset]

/-! ## Every state of a set -/

/-- What holds of a set in every state: its rules read the destination through
ip_cidr items only, and the metadata tell of every such item. -/
structure RuleSet.Loaded (s : RuleSet) : Prop where
  onlyIPCIDR : ∀ rule ∈ s.rules, ∀ leaf ∈ rule.leaves, leaf.OnlyIPCIDR RuleItem.readsDestination
  metadata : s.metadata.containsIPCIDRRule = false →
    ∀ rule ∈ s.rules, ∀ leaf ∈ rule.leaves, leaf.destinationIPCIDRItems = []

variable {validate : String → RuleSetMetadata → Except String Unit} {s s' : RuleSet}

section
variable (h : s.reloadRules networkManager validate options = .ok s')
include h

lemma RuleSet.reloadRules_ok :
    newHeadlessRules networkManager "parse rule_set.rules." options 0 = .ok s'.rules ∧
      s'.metadata = buildRuleSetMetadata options := by
  unfold RuleSet.reloadRules at h
  cases hrules : newHeadlessRules networkManager "parse rule_set.rules." options 0 with
  | error err => simp [hrules, bind, Except.bind] at h
  | ok rules =>
    cases hval : validate s.tag (buildRuleSetMetadata options) with
    | error err => simp [hrules, hval, bind, Except.bind] at h
    | ok u =>
      simp only [hrules, hval, bind, Except.bind, pure, Except.pure, Except.ok.injEq] at h
      subst h
      exact ⟨rfl, rfl⟩

lemma RuleSet.reloadRules_loaded : s'.Loaded := by
  obtain ⟨hrules, hmeta⟩ := RuleSet.reloadRules_ok h
  refine ⟨fun rule hr leaf hl => ?_, fun hno rule hr leaf hl => ?_⟩ <;>
    obtain ⟨o, ho, hrule⟩ := newHeadlessRules_ok hrules rule hr <;>
    obtain ⟨d, rfl, hcond⟩ := newHeadlessRule_leaves hrule leaf hl
  · exact newDefaultHeadlessRule_onlyIPCIDR networkManager d
  · rw [hmeta] at hno
    exact newDefaultHeadlessRule_destinationIPCIDRItems networkManager
      (hcond _ (hasHeadlessRule_eq_false.mp hno o ho))

end

lemma RuleSet.Loaded.step {s : RuleSet} (h : s.Loaded) (e : RuleSet.Event) : (s.step e).Loaded := by
  cases e with
  | drop => exact ⟨by simp [RuleSet.step], by simp [RuleSet.step]⟩
  | reload networkManager validate options =>
    simp only [RuleSet.step]
    split
    · exact RuleSet.reloadRules_loaded ‹_›
    · exact h

lemma RuleSet.run_loaded (tag : String) (events : List RuleSet.Event) :
    (RuleSet.run tag events).Loaded := by
  suffices h : ∀ s : RuleSet, s.Loaded → (events.foldl RuleSet.step s).Loaded by
    exact h _ ⟨by simp, by simp⟩
  induction events with
  | nil => exact fun s hs => hs
  | cons e events ih => exact fun s hs => ih _ (hs.step e)

end SingBox.Route
