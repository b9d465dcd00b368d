import SingBox.Route.Semantics

/-! Rules that compare no destination address. The verdict of such a rule is the
same on metadata that its other items cannot tell apart, with or without the
destination ip_cidr items. -/

namespace SingBox.Route
open Dns Lib List HeadlessRule Rule RuleItem DefaultRule

mutual

/-- The rule compares a destination address with ip_cidr items when it is matched
with `matchSource`. Below a logical rule that setting is gone. -/
def HeadlessRule.comparesDestination : HeadlessRule → Bool → Bool
  | .default rule, matchSource => !matchSource && !rule.destinationIPCIDRItems.isEmpty
  | .logical _ rules _, _ => HeadlessRule.anyComparesDestination rules false

def HeadlessRule.anyComparesDestination : List HeadlessRule → Bool → Bool
  | [], _ => false
  | rule :: rules, matchSource =>
    rule.comparesDestination matchSource || HeadlessRule.anyComparesDestination rules matchSource

end

variable {rules : List HeadlessRule}

lemma HeadlessRule.anyComparesDestination_eq_false
    {matchSource : Bool} : HeadlessRule.anyComparesDestination rules matchSource = false ↔
      ∀ rule ∈ rules, rule.comparesDestination matchSource = false := by
  induction rules with
  | nil => simp [HeadlessRule.anyComparesDestination]
  | cons rule rules ih => simp [HeadlessRule.anyComparesDestination, ih]

lemma HeadlessRule.comparesDestination_eq_false {rule : HeadlessRule}
    (h : ∀ leaf ∈ rule.leaves, leaf.destinationIPCIDRItems = []) (matchSource : Bool) :
    rule.comparesDestination matchSource = false := by
  induction rule using HeadlessRule.induct generalizing matchSource with
  | hd rule =>
    rw [forall_leaves_default] at h
    simp [HeadlessRule.comparesDestination, h]
  | hl mode rules invert ih =>
    rw [forall_leaves_logical] at h
    rw [HeadlessRule.comparesDestination, anyComparesDestination_eq_false]
    intro rule hr
    exact ih rule hr (h rule hr) false

def RuleSet.comparesDestination (s : RuleSet) (matchSource : Bool) : Bool :=
  HeadlessRule.anyComparesDestination s.rules matchSource

def RuleSetItem.comparesDestination (item : RuleSetItem) : Bool :=
  item.setList.any fun s => s.comparesDestination item.ipCidrMatchSource

def DefaultDNSRule.comparesDestination (r : DefaultDNSRule) : Bool :=
  !r.destinationIPCIDRItems.isEmpty || r.ruleSetItem.any RuleSetItem.comparesDestination

/-! ## Metadata that items cannot tell apart -/

/-- The rule's items answer alike on both metadata, under the flags of each. Its
destination ip_cidr items have to only when they match the source. -/
structure DefaultRule.Alike (c c' : InboundContext) (f f' : MatchFlags) (r : DefaultRule) :
    Prop where
  matchSource : f.ipCidrMatchSource = f'.ipCidrMatchSource
  plain : ∀ item ∈ r.plainItems, item.match c f = item.match c' f'
  source : f.ipCidrMatchSource = true → ∀ item ∈ r.destinationIPCIDRItems,
    item.match c f = item.match c' f'

variable (c c' : InboundContext)

def HeadlessRule.Alike (rule : HeadlessRule) : Prop :=
  ∀ leaf ∈ rule.leaves, ∀ f f', f.ipCidrMatchSource = f'.ipCidrMatchSource → leaf.Alike c c' f f'

def RuleSet.Alike (s : RuleSet) : Prop := ∀ rule ∈ s.rules, rule.Alike c c'

/-- A rule outside rule-sets is never matched with the source setting. -/
structure DefaultDNSRule.Alike (c c' : InboundContext) (r : DefaultDNSRule) : Prop where
  own : ∀ f f', f.ipCidrMatchSource = false → f'.ipCidrMatchSource = false →
    r.toDefaultRule.Alike c c' f f'
  sets : ∀ item ∈ r.ruleSetItem, ∀ s ∈ item.setList, s.Alike c c'

section
variable {c c' : InboundContext} {f f' : MatchFlags}

lemma matchAnyItem_congr {items : List RuleItem}
    (h : ∀ item ∈ items, item.match c f = item.match c' f') :
    matchAnyItem items c f = matchAnyItem items c' f' := by
  rw [matchAnyItem, matchAnyItem, Bool.eq_iff_iff, any_eq_true, any_eq_true]
  exact exists_congr fun item => and_congr_right fun hi => by rw [h item hi]

namespace DefaultRule

variable {r : DefaultRule}

lemma matchItems_congr (h : ∀ item ∈ r.plainItems, item.match c f = item.match c' f') :
    r.matchItems c f = r.matchItems c' f' := by
  rw [DefaultRule.matchItems, DefaultRule.matchItems, Bool.eq_iff_iff, all_eq_true, all_eq_true]
  exact forall₂_congr fun item hi => by rw [h item (by simp [plainItems, hi])]

lemma Alike.matchItems (h : r.Alike c c' f f') : r.matchItems c f = r.matchItems c' f' :=
  matchItems_congr h.plain

/-- The groups that no destination address is part of, and the destination
address items on their own. -/
theorem Alike.groups (h : r.Alike c c' f f') :
    let g := r.groups c f
    let g' := r.groups c' f'
    g.required.sourceAddress = g'.required.sourceAddress ∧
    g.satisfied.sourceAddress = g'.satisfied.sourceAddress ∧
    g.required.sourcePort = g'.required.sourcePort ∧
    g.satisfied.sourcePort = g'.satisfied.sourcePort ∧
    g.required.destinationPort = g'.required.destinationPort ∧
    g.satisfied.destinationPort = g'.satisfied.destinationPort ∧
    matchAnyItem r.destinationAddressItems c f = matchAnyItem r.destinationAddressItems c' f' := by
  have hplain : ∀ items : List RuleItem, (∀ item ∈ items, item ∈ r.plainItems) →
      matchAnyItem items c f = matchAnyItem items c' f' := fun items hs =>
    matchAnyItem_congr fun item hi => h.plain item (hs item hi)
  have hsa := hplain r.sourceAddressItems fun item hi => by simp [plainItems, hi]
  have hsp := hplain r.sourcePortItems fun item hi => by simp [plainItems, hi]
  have hda := hplain r.destinationAddressItems fun item hi => by simp [plainItems, hi]
  have hdp := hplain r.destinationPortItems fun item hi => by simp [plainItems, hi]
  have hip : (r.destinationIPCIDRMatchesSource f && matchAnyItem r.destinationIPCIDRItems c f) =
      (r.destinationIPCIDRMatchesSource f' && matchAnyItem r.destinationIPCIDRItems c' f') := by
    unfold destinationIPCIDRMatchesSource
    cases hs : f.ipCidrMatchSource with
    | false => simp [← h.matchSource, hs]
    | true => rw [matchAnyItem_congr (h.source hs), ← h.matchSource, hs]
  refine ⟨?_, ?_, rfl, hsp, rfl, hdp, hda⟩
  · simp [DefaultRule.groups, destinationIPCIDRMatchesSource, h.matchSource]
  · simp [DefaultRule.groups, hsa, hip]

variable (hno : (!f.ipCidrMatchSource && !r.destinationIPCIDRItems.isEmpty) = false)
include hno

lemma Alike.groups_eq (h : r.Alike c c' f f') : r.groups c f = r.groups c' f' := by
  obtain ⟨h1, h2, h3, h4, h5, h6, h7⟩ := h.groups
  have hd : r.destinationIPCIDRMatchesDestination f = false := by
    rw [destinationIPCIDRMatchesDestination, Bool.and_assoc, hno, Bool.and_false]
  have hd' : r.destinationIPCIDRMatchesDestination f' = false := by
    rw [destinationIPCIDRMatchesDestination, Bool.and_assoc, ← h.matchSource, hno, Bool.and_false]
  have hr : (r.groups c f).required = (r.groups c' f').required := by
    simp only [DefaultRule.groups] at h1 ⊢
    rw [h1, hd, hd']
  have hsat : (r.groups c f).satisfied = (r.groups c' f').satisfied := by
    simp only [DefaultRule.groups] at h2 h4 h6 ⊢
    rw [h2, h4, h6, h7, hd, hd']
    simp
  exact congrArg₂ RuleGroupMatch.mk hr hsat

lemma defers_eq_false : r.defers f = false := by
  rw [defers, Bool.and_assoc f.ignoreDestinationIPCIDRMatch, hno, Bool.and_false, Bool.false_and]

lemma Alike.verdict_eq (h : r.Alike c c' f f') : r.verdict none c f = r.verdict none c' f' := by
  simp only [verdict, innerVerdict, h.matchItems, h.groups_eq hno, defers_eq_false hno,
    defers_eq_false (h.matchSource ▸ hno)]

end DefaultRule

lemma HeadlessRule.Alike.verdict_eq {rule : HeadlessRule} (h : rule.Alike c c')
    (hms : f.ipCidrMatchSource = f'.ipCidrMatchSource)
    (hno : rule.comparesDestination f.ipCidrMatchSource = false) :
    rule.verdict c f = rule.verdict c' f' := by
  induction rule using HeadlessRule.induct generalizing f f' with
  | hd rule =>
    rw [HeadlessRule.verdict, HeadlessRule.verdict]
    exact (forall_leaves_default.mp h f f' hms).verdict_eq hno
  | hl mode rules invert ih =>
    rw [HeadlessRule.comparesDestination, anyComparesDestination_eq_false] at hno
    have hrules : rules.map (fun rule => rule.verdict c f.reset) =
        rules.map fun rule => rule.verdict c' f'.reset :=
      map_congr_left fun rule hr =>
        ih rule hr (forall_leaves_logical.mp h rule hr) rfl (hno rule hr)
    rw [HeadlessRule.verdict, HeadlessRule.verdict, verdicts_eq, verdicts_eq, hrules]

variable {s : RuleSet}

lemma RuleSet.Alike.verdict_eq (h : s.Alike c c') (hms : f.ipCidrMatchSource = f'.ipCidrMatchSource)
    (hno : s.comparesDestination f.ipCidrMatchSource = false) :
    s.verdict c f = s.verdict c' f' := by
  rw [RuleSet.comparesDestination, anyComparesDestination_eq_false] at hno
  exact congrArg Verdict.any
    (map_congr_left fun rule hr => (h rule hr).verdict_eq hms (hno rule hr))

lemma RuleSet.Alike.branch {branch : DefaultRule} (h : s.Alike c c')
    (hb : mergeableRuleIn s.rules = some branch)
    (hms : f.ipCidrMatchSource = f'.ipCidrMatchSource) : branch.Alike c c' f f' := by
  have hrules := (mergeableRuleIn_eq_some.mp hb).1
  exact forall_leaves_default.mp (h (.default branch) (by simp [hrules])) f f' hms

lemma RuleSet.comparesDestination_branch {branch : DefaultRule}
    (hb : mergeableRuleIn s.rules = some branch) (matchSource : Bool) :
    s.comparesDestination matchSource =
      (!matchSource && !branch.destinationIPCIDRItems.isEmpty) := by
  rw [RuleSet.comparesDestination, (mergeableRuleIn_eq_some.mp hb).1,
    HeadlessRule.anyComparesDestination, HeadlessRule.anyComparesDestination, Bool.or_false,
    HeadlessRule.comparesDestination]

lemma RuleSet.Alike.outcome_eq (h : s.Alike c c') (hms : f.ipCidrMatchSource = f'.ipCidrMatchSource)
    (hno : s.comparesDestination f.ipCidrMatchSource = false) (g : RuleGroupMatch) :
    RuleSetItem.outcome g c f s = RuleSetItem.outcome g c' f' s := by
  unfold RuleSetItem.outcome
  cases hb : mergeableRuleIn s.rules with
  | none => simp only [h.verdict_eq hms hno]
  | some branch =>
    rw [RuleSet.comparesDestination_branch hb] at hno
    have hbranch := h.branch hb hms
    simp only [hbranch.matchItems, hbranch.groups_eq hno, defers_eq_false hno,
      defers_eq_false (hms ▸ hno)]

lemma DefaultDNSRule.Alike.abstractVerdict_eq {r : DefaultDNSRule} (h : r.Alike c c')
    (hf : f.ipCidrMatchSource = false) (hf' : f'.ipCidrMatchSource = false)
    (hno : r.comparesDestination = false) : r.abstractVerdict c f = r.abstractVerdict c' f' := by
  rw [DefaultDNSRule.comparesDestination, Bool.or_eq_false_iff] at hno
  obtain ⟨hown, hsets⟩ := hno
  have halike := h.own f f' hf hf'
  have hno : (!f.ipCidrMatchSource && !r.destinationIPCIDRItems.isEmpty) = false := by simp [hown]
  unfold DefaultDNSRule.abstractVerdict
  cases hitem : r.ruleSetItem with
  | none => exact halike.verdict_eq hno
  | some item =>
    have hout : ∀ g, item.setList.map (RuleSetItem.outcome g c (item.nestedFlags f)) =
        item.setList.map (RuleSetItem.outcome g c' (item.nestedFlags f')) := fun g =>
      map_congr_left fun s hs => by
        refine (h.sets item hitem s hs).outcome_eq (by rfl) ?_ g
        simp only [hitem, Option.any_some, RuleSetItem.comparesDestination, any_eq_false,
          Bool.not_eq_true] at hsets
        exact hsets s hs
    simp only [Option.map_some, DefaultRule.verdict, DefaultRule.innerVerdict, halike.matchItems,
      halike.groups_eq hno, defers_eq_false hno,
      defers_eq_false (halike.matchSource ▸ hno), RuleSetItem.verdict, hout]

variable {rule : Rule}

lemma Rule.verdict_eq_of_leaves
    (h : ∀ leaf ∈ rule.leaves, ∀ f, leaf.verdict c f = leaf.verdict c' f) (f : MatchFlags) :
    rule.verdict c f = rule.verdict c' f := by
  induction rule using Rule.induct generalizing f with
  | hd rule => exact forall_leaves_default.mp h f
  | hl mode rules invert ih =>
    have hrules : rules.map (fun rule => rule.verdict c f.reset) =
        rules.map fun rule => rule.verdict c' f.reset :=
      map_congr_left fun rule hr => ih rule hr (forall_leaves_logical.mp h rule hr) f.reset
    rw [Rule.verdict, Rule.verdict, verdicts_eq, verdicts_eq, hrules]

/-- **A rule that compares no destination gives one verdict** on metadata its
items cannot tell apart, whether or not destination ip_cidr items are ignored. -/
theorem DefaultDNSRule.Alike.verdict_eq {r : DefaultDNSRule} (h : r.Alike c c')
    (hresp : r.matchResponse = false) (hno : r.comparesDestination = false)
    (hf : f.ipCidrMatchSource = false) (hf' : f'.ipCidrMatchSource = false) :
    r.verdict c f = r.verdict c' f' := by
  simp only [DefaultDNSRule.verdict, hresp, Bool.false_eq_true, if_false,
    h.abstractVerdict_eq hf hf' hno]

mutual

/-- The verdict of the tree over given verdicts of its default rules. -/
def Rule.verdictWith (v : DefaultDNSRule → Verdict) : Rule → Verdict
  | .default rule => v rule
  | .logical mode rules invert => (logicalVerdict mode (Rule.verdictsWith v rules)).invertIf invert

def Rule.verdictsWith (v : DefaultDNSRule → Verdict) : List Rule → List Verdict
  | [] => []
  | rule :: rules => rule.verdictWith v :: Rule.verdictsWith v rules

end

variable {v w : DefaultDNSRule → Verdict}

end

/-! ## Items and the metadata they read -/

variable {c c' : InboundContext} {item : RuleItem}

/-- The items a rule-set's destination ip_cidr list holds. -/
def RuleItem.isIPCIDR : RuleItem → Bool
  | .ipCIDR _ _ => true
  | _ => false

/-- A rule of a set where only ip_cidr items read what `reads` tells. -/
structure DefaultRule.OnlyIPCIDR (reads : RuleItem → Bool) (r : DefaultRule) : Prop where
  plain : ∀ item ∈ r.plainItems, reads item = false
  ipCIDR : ∀ item ∈ r.destinationIPCIDRItems, item.isIPCIDR = true

/-- A rule whose items outside the destination ip_cidr lists, its own and those
of its sets, do not read what `reads` tells. -/
structure DefaultDNSRule.OnlyIPCIDR (reads : RuleItem → Bool) (r : DefaultDNSRule) : Prop where
  noMatchResponse : r.matchResponse = false
  plain : ∀ item ∈ r.plainItems, reads item = false
  leaves : ∀ item ∈ r.ruleSetItem, ∀ s ∈ item.setList, ∀ rule ∈ s.rules, ∀ leaf ∈ rule.leaves,
    leaf.OnlyIPCIDR reads

end SingBox.Route
