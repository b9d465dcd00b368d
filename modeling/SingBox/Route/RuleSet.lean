import SingBox.Route.Abstract

/-! Rule-sets and the rules that refer to them: route and DNS rules. -/

namespace SingBox.Route
open Dns

structure RuleSetMetadata where
  containsProcessRule : Bool := false
  containsWIFIRule : Bool := false
  containsIPCIDRRule : Bool := false
  containsDNSQueryTypeRule : Bool := false
  containsNonIPCIDRRule : Bool := false
  deriving DecidableEq

/-- A local or remote rule-set as loaded. -/
structure RuleSet where
  tag : String
  rules : List HeadlessRule
  metadata : RuleSetMetadata := {}

structure RuleSetItem where
  setList : List RuleSet
  ipCidrMatchSource : Bool := false
  ipCidrAcceptEmpty : Bool := false

/-- `mergeableRuleIn`. A headless rule never has a rule-set item of its own, so
that test of the source is left to the type. -/
def mergeableRuleIn : List HeadlessRule → Option DefaultRule
  | [.default rule] => if rule.invert then none else some rule
  | _ => none

/-- The loop of `matchAnyHeadlessRule`, left at the first match that is not
deferred. -/
def matchAnyLoop (c : InboundContext) (snapshot : RuleMatchSnapshot) :
    List Matcher → Bool → RuleMatchState → RuleCache → Bool × RuleCache
  | [], matched, deferredGroups, m =>
    let m := snapshot.restore m
    if matched then
      (true, m.setDeferred (m.deferredIPCIDRMatchGroups.union deferredGroups))
    else
      (false, m)
  | rule :: rules, matched, deferredGroups, m =>
    match rule c m.resetRuleMatchCache with
    | (false, m) => matchAnyLoop c snapshot rules matched deferredGroups m
    | (true, m) =>
      if m.deferredIPCIDRMatchGroups = .none then
        (true, snapshot.restore m)
      else
        matchAnyLoop c snapshot rules true (deferredGroups.union m.deferredIPCIDRMatchGroups) m

def matchAnyHeadlessRule (rules : List Matcher) : Matcher :=
  fun c m => matchAnyLoop c (snapshotRuleMatch m) rules false .none m

/-- `LocalRuleSet.Match` and `RemoteRuleSet.Match`. -/
def RuleSet.match (s : RuleSet) : Matcher := matchAnyHeadlessRule (s.rules.map HeadlessRule.match)

def RuleSetItem.prepareNestedMatch (item : RuleSetItem) (m : RuleCache) : RuleCache :=
  { m.resetRuleMatchCache with
    flags := { m.flags with
      ipCidrMatchSource := item.ipCidrMatchSource, ipCidrAcceptEmpty := item.ipCidrAcceptEmpty } }

/-- The variables of the loop in `matchWithOuterGroups`. -/
structure RuleSetLoop where
  matched : Bool
  deferredGroups : RuleMatchState
  matchedTag : String

/-- A deferred match of `ruleSet`: the first tag is kept and the loop goes on. -/
def RuleSetLoop.defer (loop : RuleSetLoop) (ruleSet : RuleSet) (groups : RuleMatchState) :
    RuleSetLoop :=
  ⟨true, loop.deferredGroups.union groups,
    if loop.matchedTag = "" then ruleSet.tag else loop.matchedTag⟩

namespace RuleSetItem

def matchLoop (item : RuleSetItem) (outerGroups : RuleGroupMatch) (c : InboundContext)
    (snapshot : RuleMatchSnapshot) : List RuleSet → RuleSetLoop → RuleCache → Bool × RuleCache
  | [], loop, m =>
    let m := snapshot.restore m
    if loop.matched then
      let m := m.recordMatchedRuleSet loop.matchedTag
      (true, m.setDeferred (m.deferredIPCIDRMatchGroups.union loop.deferredGroups))
    else
      (false, m)
  | ruleSet :: rest, loop, m =>
    let m := item.prepareNestedMatch m
    match mergeableRuleIn ruleSet.rules with
    | some branch =>
      match branch.evaluateForMerge c m with
      | (none, m) => item.matchLoop outerGroups c snapshot rest loop m
      | (some branchGroups, m) =>
        let merged := outerGroups.mergeWith branchGroups
        if merged.done then
          let branchDeferredGroups := m.deferredIPCIDRMatchGroups.clear merged.satisfied
          if branchDeferredGroups = .none then
            let m := (snapshot.restore m).recordMatchedRuleSet ruleSet.tag
            (true, m.setDeferred (m.deferredIPCIDRMatchGroups.clear merged.satisfied))
          else
            item.matchLoop outerGroups c snapshot rest
              (loop.defer ruleSet branchDeferredGroups) m
        else
          item.matchLoop outerGroups c snapshot rest loop m
    | none =>
      if outerGroups.done then
        match ruleSet.match c m with
        | (true, m) =>
          if m.deferredIPCIDRMatchGroups = .none then
            (true, (snapshot.restore m).recordMatchedRuleSet ruleSet.tag)
          else
            item.matchLoop outerGroups c snapshot rest
              (loop.defer ruleSet m.deferredIPCIDRMatchGroups) m
        | (false, m) => item.matchLoop outerGroups c snapshot rest loop m
      else
        item.matchLoop outerGroups c snapshot rest loop m

def matchWithOuterGroups (item : RuleSetItem) (outerGroups : RuleGroupMatch) : Matcher :=
  fun c m => item.matchLoop outerGroups c (snapshotRuleMatch m) item.setList ⟨false, .none, ""⟩ m

def containsDestinationIPCIDRRule (item : RuleSetItem) : Bool :=
  if item.ipCidrMatchSource then false
  else item.setList.any fun ruleSet => ruleSet.metadata.containsIPCIDRRule

end RuleSetItem

lemma enabled_of_no_tag : "" ≠ "" → false = true := by simp

/-- A default route or DNS rule. `matchResponse` and its tag are set on DNS
rules only; `DNSRuleMatchResponse` has a tag only when it is enabled. -/
structure DefaultDNSRule extends DefaultRule where
  ruleSetItem : Option RuleSetItem := none
  matchResponse : Bool := false
  matchResponseTag : String := ""
  enabled_of_tag : matchResponseTag ≠ "" → matchResponse = true := by
      first | exact enabled_of_no_tag | simp

namespace DefaultDNSRule

variable (r : DefaultDNSRule)

/-- The embedded `abstractDefaultRule.Match`. -/
def abstractMatch : Matcher :=
  r.toDefaultRule.match (r.ruleSetItem.map RuleSetItem.matchWithOuterGroups)

/-- The response a rule with match_response is bound to. -/
def boundResponse (c : InboundContext) : Option Msg :=
  if r.matchResponseTag ≠ "" then c.namedDNSResponses r.matchResponseTag else c.dnsResponse

/-- `matchForMatch`. A rule with match_response is matched on a copy of the
metadata, so it leaves the caller's rule cache alone. -/
def matchForMatch : Matcher := fun c m =>
  if r.matchResponse then
    match r.boundResponse c with
    | none => (r.invert, m)
    | some response => ((r.abstractMatch (c.withResponse (some response)) m).1, m)
  else
    r.abstractMatch c m

end DefaultDNSRule

inductive Rule
  | default (rule : DefaultDNSRule)
  | logical (mode : LogicalMode) (rules : List Rule) (invert : Bool)

mutual

def Rule.match : Rule → Matcher
  | .default rule => rule.matchForMatch
  | .logical mode rules invert => logicalMatch mode (Rule.matchers rules) invert

def Rule.matchers : List Rule → List Matcher
  | [] => []
  | rule :: rules => rule.match :: Rule.matchers rules

end

lemma Rule.matchers_eq (rules : List Rule) : Rule.matchers rules = rules.map Rule.match := by
  induction rules with
  | nil => rfl
  | cons rule rules ih => rw [Rule.matchers, ih, List.map_cons]

/-- Induction over a rule: every rule of a logical rule first. -/
theorem Rule.induct {P : Rule → Prop} (hd : ∀ rule, P (.default rule))
    (hl : ∀ mode rules invert, (∀ rule ∈ rules, P rule) → P (.logical mode rules invert)) :
    ∀ rule, P rule := by
  refine @Rule.rec P (fun rules => ∀ rule ∈ rules, P rule) hd hl (by simp) ?_
  intro rule rules ih ihs r hr
  obtain rfl | hr := List.mem_cons.mp hr
  · exact ih
  · exact ihs r hr

/-- The `Match` of the embedded abstract rule, which the legacy entry points
call directly. -/
def Rule.abstractMatch : Rule → Matcher
  | .default rule => rule.abstractMatch
  | .logical mode rules invert => (Rule.logical mode rules invert).match

/-- `LegacyPreMatch`: destination ip_cidr items are left out until the response
is there. -/
def Rule.legacyPreMatch (rule : Rule) : Matcher := fun c m =>
  let skip : Bool := match rule with
    | .default r => r.matchResponse
    | .logical _ _ _ => false
  if skip then
    (false, m)
  else
    let (matched, m) := rule.abstractMatch c
      { m with flags := { m.flags with ignoreDestinationIPCIDRMatch := true } }
    (matched, { m with flags := { m.flags with ignoreDestinationIPCIDRMatch := false } })

/-- `MatchAddressLimit`, on a copy of the metadata. -/
def Rule.matchAddressLimit (rule : Rule) (c : InboundContext) (m : RuleCache)
    (response : Option Msg) : Bool :=
  (rule.abstractMatch (c.withResponse response) m.resetRuleCache).1

def DefaultDNSRule.withAddressLimit (r : DefaultDNSRule) : Bool :=
  !r.destinationIPCIDRItems.isEmpty ||
  r.ruleSetItem.any fun item => item.containsDestinationIPCIDRRule

mutual

def Rule.withAddressLimit : Rule → Bool
  | .default rule => rule.withAddressLimit
  | .logical _ rules _ => Rule.anyWithAddressLimit rules

def Rule.anyWithAddressLimit : List Rule → Bool
  | [] => false
  | rule :: rules => rule.withAddressLimit || Rule.anyWithAddressLimit rules

end

end SingBox.Route
