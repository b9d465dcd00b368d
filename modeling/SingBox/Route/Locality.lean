import SingBox.Route.Load
import SingBox.Route.PreMatch

/-! What a rule reads of the DNS responses: the response each of its default rules
is bound to, and nothing else. -/

namespace SingBox.Route
open Dns Lib List HeadlessRule RuleItem
open InboundContext (withResponse dnsResponseAddressesForMatch)
open Rule (induct verdict verdicts_eq)

/-! ## Metadata on which all items answer alike -/

section
variable {c c' : InboundContext}

/-- Every item of the rule answers alike on both metadata. -/
def DefaultRule.SameOn (c c' : InboundContext) (r : DefaultRule) : Prop :=
  ∀ item ∈ r.plainItems ++ r.destinationIPCIDRItems, ∀ f, item.match c f = item.match c' f

namespace DefaultRule.SameOn
variable {r : DefaultRule} {f : MatchFlags} (h : r.SameOn c c')
include h

lemma matchAnyItem_eq {items : List RuleItem}
    (hitems : items ⊆ r.plainItems ++ r.destinationIPCIDRItems) :
    matchAnyItem items c f = matchAnyItem items c' f :=
  matchAnyItem_congr fun item hi => h item (hitems hi) f

lemma matchItems_eq : r.matchItems c f = r.matchItems c' f :=
  matchItems_congr fun item hi => h item (mem_append_left _ hi) f

lemma groups_eq : r.groups c f = r.groups c' f := by
  have hsa : matchAnyItem r.sourceAddressItems c f = matchAnyItem r.sourceAddressItems c' f :=
    h.matchAnyItem_eq fun item hi => by simp [plainItems, hi]
  have hsp : matchAnyItem r.sourcePortItems c f = matchAnyItem r.sourcePortItems c' f :=
    h.matchAnyItem_eq fun item hi => by simp [plainItems, hi]
  have hda : matchAnyItem r.destinationAddressItems c f =
      matchAnyItem r.destinationAddressItems c' f :=
    h.matchAnyItem_eq fun item hi => by simp [plainItems, hi]
  have hdi : matchAnyItem r.destinationIPCIDRItems c f =
      matchAnyItem r.destinationIPCIDRItems c' f :=
    h.matchAnyItem_eq fun item hi => by simp [hi]
  have hdp : matchAnyItem r.destinationPortItems c f = matchAnyItem r.destinationPortItems c' f :=
    h.matchAnyItem_eq fun item hi => by simp [plainItems, hi]
  rw [DefaultRule.groups, DefaultRule.groups, hsa, hsp, hda, hdi, hdp]

lemma verdict_eq : r.verdict none c f = r.verdict none c' f := by
  simp [DefaultRule.verdict, innerVerdict, h.matchItems_eq, h.groups_eq]

end DefaultRule.SameOn

def RuleSet.SameOn (c c' : InboundContext) (s : RuleSet) : Prop :=
  ∀ rule ∈ s.rules, ∀ leaf ∈ rule.leaves, leaf.SameOn c c'

variable {f : MatchFlags}

lemma HeadlessRule.verdict_eq_of_sameOn {rule : HeadlessRule}
    (h : ∀ leaf ∈ rule.leaves, leaf.SameOn c c') : rule.verdict c f = rule.verdict c' f := by
  induction rule using HeadlessRule.induct generalizing f with
  | hd rule => exact (forall_leaves_default.mp h).verdict_eq
  | hl mode rules invert ih =>
    have hrules : rules.map (fun rule => rule.verdict c f.reset) =
        rules.map fun rule => rule.verdict c' f.reset :=
      map_congr_left fun rule hr => ih rule hr (forall_leaves_logical.mp h rule hr)
    rw [HeadlessRule.verdict, HeadlessRule.verdict, verdicts_eq, verdicts_eq, hrules]

lemma RuleSet.SameOn.outcome_eq {s : RuleSet} (h : s.SameOn c c')
    (g : RuleGroupMatch) : RuleSetItem.outcome g c f s = RuleSetItem.outcome g c' f s := by
  have hverd : s.verdict c f = s.verdict c' f := congrArg Verdict.any
    (map_congr_left fun rule hr => verdict_eq_of_sameOn (h rule hr))
  unfold RuleSetItem.outcome
  cases hb : mergeableRuleIn s.rules with
  | none => simp only [hverd]
  | some branch =>
    have hrules := (mergeableRuleIn_eq_some.mp hb).1
    have hbranch : branch.SameOn c c' :=
      forall_leaves_default.mp (h (.default branch) (by simp [hrules]))
    simp [hbranch.matchItems_eq, hbranch.groups_eq]

lemma DefaultDNSRule.abstractVerdict_eq_of_sameOn {r : DefaultDNSRule}
    (h : r.toDefaultRule.SameOn c c')
    (hsets : ∀ item ∈ r.ruleSetItem, ∀ s ∈ item.setList, s.SameOn c c') :
    r.abstractVerdict c f = r.abstractVerdict c' f := by
  unfold DefaultDNSRule.abstractVerdict
  cases hitem : r.ruleSetItem with
  | none => exact h.verdict_eq
  | some item =>
    have hout : ∀ g, item.setList.map (RuleSetItem.outcome g c (item.nestedFlags f)) =
        item.setList.map (RuleSetItem.outcome g c' (item.nestedFlags f)) := fun g =>
      map_congr_left fun s hs => (hsets item hitem s hs).outcome_eq g
    simp only [Option.map_some, DefaultRule.verdict, DefaultRule.innerVerdict, h.matchItems_eq,
      h.groups_eq, RuleSetItem.verdict, hout]

end

/-! ## Responses -/

/-- Metadata outside any response check that differ in the responses only. -/
structure InboundContext.SameButResponses (c c' : InboundContext) : Prop where
  flow : c.flow = c'.flow
  destinationAddr : c.destinationAddr = c'.destinationAddr
  destinationAddresses : c.destinationAddresses = c'.destinationAddresses
  fromDestination : c.destinationAddressMatchFromResponse = false
  fromDestination' : c'.destinationAddressMatchFromResponse = false

variable {c c' : InboundContext} {item : RuleItem}

lemma RuleItem.match_sameButResponses (h : c.SameButResponses c')
    (hitem : item.isResponseMatchField = false) (f : MatchFlags) :
    item.match c f = item.match c' f := by
  obtain ⟨hflow, haddr, haddrs, hfrom, hfrom'⟩ := h
  cases item with
  | dnsResponseRCode rcode | dnsResponseRecord selector records => cases hitem
  | flow p | address p => simp [RuleItem.match, hflow, haddr, haddrs]
  | ipCIDR isSource ipSet => simp [RuleItem.match, matchIPCIDR, hflow, haddr, haddrs, hfrom, hfrom']
  | ipIsPrivate isSource isPublicAddr =>
    simp [RuleItem.match, matchIPIsPrivate, hflow, haddr, haddrs, hfrom, hfrom']
  | ipAcceptAny => simp [RuleItem.match, matchIPAcceptAny, haddrs, hfrom, hfrom']

lemma RuleItem.match_withResponse_eq (h : c.SameButResponses c') (item : RuleItem)
    (response : Option Msg) (f : MatchFlags) :
    item.match (c.withResponse response) f = item.match (c'.withResponse response) f := by
  obtain ⟨hflow, haddr, haddrs, -, -⟩ := h
  cases item <;>
    simp [RuleItem.match, matchIPCIDR, matchIPIsPrivate, matchIPAcceptAny,
      withResponse, dnsResponseAddressesForMatch, hflow, haddr,
      haddrs]

/-- The rule reads a response with match_response only, and its sets never do by
themselves. -/
structure DefaultDNSRule.ReadsBound (r : DefaultDNSRule) : Prop where
  own : r.matchResponse = false → ∀ item ∈ r.plainItems ++ r.destinationIPCIDRItems,
    item.isResponseMatchField = false
  sets : ∀ ref ∈ r.ruleSetItem, ∀ s ∈ ref.setList, ∀ rule ∈ s.rules, ∀ leaf ∈ rule.leaves,
    ∀ item ∈ leaf.plainItems ++ leaf.destinationIPCIDRItems, item.isResponseMatchField = false

lemma DefaultDNSRule.ReadsBound.verdict_eq {r : DefaultDNSRule} (h : r.ReadsBound)
    (hsame : c.SameButResponses c')
    (hbound : r.matchResponse → r.boundResponse c = r.boundResponse c') (f : MatchFlags) :
    r.verdict c f = r.verdict c' f := by
  unfold DefaultDNSRule.verdict
  cases hmatch : r.matchResponse with
  | false =>
    exact abstractVerdict_eq_of_sameOn
      (fun item hi f => match_sameButResponses hsame (h.own hmatch item hi) f)
      (fun ref href s hs rule hr leaf hl item hi f =>
        match_sameButResponses hsame (h.sets ref href s hs rule hr leaf hl item hi) f)
  | true =>
    simp only [if_true, hbound hmatch]
    cases r.boundResponse c' with
    | none => rfl
    | some response =>
      have hverd : r.abstractVerdict (c.withResponse (some response)) f =
          r.abstractVerdict (c'.withResponse (some response)) f :=
        abstractVerdict_eq_of_sameOn
          (fun item _ f => match_withResponse_eq hsame item _ f)
          (fun _ _ _ _ _ _ _ _ item _ f => match_withResponse_eq hsame item _ f)
      simp [hverd]

variable {rule : Rule}

/-- A rule matches alike on metadata that agree on the responses it is bound to. -/
theorem Rule.match_eq_of_bound (h : ∀ leaf ∈ rule.leaves, leaf.ReadsBound)
    (hsame : c.SameButResponses c') (hbound : ∀ leaf ∈ rule.leaves, leaf.matchResponse →
      leaf.boundResponse c = leaf.boundResponse c') :
    (rule.match c .fresh).1 = (rule.match c' .fresh).1 := by
  have hverd := verdict_eq_of_leaves fun leaf hl f => (h leaf hl).verdict_eq hsame (hbound leaf hl) f
  rw [(rule.match_computes c .fresh rfl).1, (rule.match_computes c' .fresh rfl).1, hverd]

/-! ## The check on a response -/

variable {a b : Msg}

/-- The check on a response reads its addresses. -/
theorem RuleItem.match_withResponse_congr
    (h : dnsResponseAddresses (some a) = dnsResponseAddresses (some b))
    (hitem : item.isResponseMatchField = false) (f : MatchFlags) :
    item.match (c.withResponse (some a)) f = item.match (c.withResponse (some b)) f := by
  cases item with
  | dnsResponseRCode rcode | dnsResponseRecord selector records => cases hitem
  | flow p | address p => rfl
  | ipCIDR isSource ipSet =>
    simp [RuleItem.match, matchIPCIDR, withResponse, dnsResponseAddressesForMatch, h]
  | ipIsPrivate isSource isPublicAddr =>
    simp [RuleItem.match, matchIPIsPrivate, withResponse, dnsResponseAddressesForMatch, h]
  | ipAcceptAny =>
    simp [RuleItem.match, matchIPAcceptAny, withResponse, dnsResponseAddressesForMatch, h]

/-- A legacy rule checks responses with the same addresses alike. -/
theorem Rule.matchAddressLimit_congr (hrule : ∀ leaf ∈ rule.leaves, leaf.ReadsBound)
    (hresp : ∀ leaf ∈ rule.leaves, leaf.matchResponse = false)
    (h : dnsResponseAddresses (some a) = dnsResponseAddresses (some b)) :
    rule.matchAddressLimit c .fresh (some a) = rule.matchAddressLimit c .fresh (some b) := by
  have hverd : ∀ f, rule.verdict (c.withResponse (some a)) f =
      rule.verdict (c.withResponse (some b)) f := verdict_eq_of_leaves fun leaf hl f => by
    rw [DefaultDNSRule.verdict, DefaultDNSRule.verdict, hresp leaf hl]
    exact DefaultDNSRule.abstractVerdict_eq_of_sameOn
      (fun item hi f => match_withResponse_congr h ((hrule leaf hl).own (hresp leaf hl) item hi) f)
      (fun ref href s hs rule hr sub hsub item hi f =>
        match_withResponse_congr h ((hrule leaf hl).sets ref href s hs rule hr sub hsub item hi) f)
  rw [Rule.matchAddressLimit_eq hresp, Rule.matchAddressLimit_eq hresp, hverd]

end SingBox.Route
