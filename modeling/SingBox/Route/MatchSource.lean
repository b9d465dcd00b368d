import SingBox.Route.Destination

/-! `rule_set_ip_cidr_match_source`: what a rule that refers to its rule-sets by
source address can learn about the destination. -/

namespace SingBox.Route
open Dns Lib Option List HeadlessRule

def RuleItem.bySource : RuleItem → RuleItem
  | .ipCIDR _ ipSet => .ipCIDR true ipSet
  | item => item

def DefaultRule.bySource (r : DefaultRule) : DefaultRule :=
  { r with
    sourceAddressItems := r.sourceAddressItems ++ r.destinationIPCIDRItems.map RuleItem.bySource
    destinationIPCIDRItems := [] }

mutual

/-- The ip_cidr items of the rule are compared with the source, also below a logical rule. -/
def HeadlessRule.bySource : HeadlessRule → HeadlessRule
  | .default rule => .default rule.bySource
  | .logical mode rules invert => .logical mode (HeadlessRule.allBySource rules) invert

def HeadlessRule.allBySource : List HeadlessRule → List HeadlessRule
  | [] => []
  | rule :: rules => rule.bySource :: HeadlessRule.allBySource rules

end

lemma HeadlessRule.allBySource_eq (rules : List HeadlessRule) :
    HeadlessRule.allBySource rules = rules.map HeadlessRule.bySource := by
  induction rules with
  | nil => rfl
  | cons rule rules ih => rw [HeadlessRule.allBySource, ih, map_cons]

def RuleSet.bySource (s : RuleSet) : RuleSet :=
  { s with rules := s.rules.map HeadlessRule.bySource }

def RuleSetItem.bySource (item : RuleSetItem) : RuleSetItem :=
  if item.ipCidrMatchSource then { item with setList := item.setList.map RuleSet.bySource }
  else item

def DefaultDNSRule.bySource (r : DefaultDNSRule) : DefaultDNSRule :=
  { r with ruleSetItem := r.ruleSetItem.map RuleSetItem.bySource }

lemma HeadlessRule.mem_leaves_bySource {rule : HeadlessRule} {leaf : DefaultRule}
    (h : leaf ∈ rule.bySource.leaves) : ∃ own ∈ rule.leaves, own.bySource = leaf := by
  induction rule using HeadlessRule.induct with
  | hd rule => exact ⟨rule, mem_singleton_self _, (mem_singleton.mp h).symm⟩
  | hl mode rules invert ih =>
    rw [HeadlessRule.bySource, HeadlessRule.leaves, mem_leavesOf, allBySource_eq] at h
    obtain ⟨_, hrule, hl⟩ := h
    obtain ⟨rule, hr, rfl⟩ := mem_map.mp hrule
    obtain ⟨own, hown, heq⟩ := ih rule hr hl
    exact ⟨own, mem_leavesOf.mpr ⟨rule, hr, hown⟩, heq⟩

lemma RuleSet.bySource_comparesDestination (s : RuleSet) (matchSource : Bool) :
    s.bySource.comparesDestination matchSource = false := by
  rw [RuleSet.comparesDestination, anyComparesDestination_eq_false]
  intro rule hr
  obtain ⟨rule, -, rfl⟩ := mem_map.mp hr
  refine comparesDestination_eq_false (fun leaf hl => ?_) matchSource
  obtain ⟨own, -, rfl⟩ := mem_leaves_bySource hl
  rfl

namespace DefaultDNSRule

variable {r : DefaultDNSRule}

/-- By source address a rule compares no destination that it does not compare otherwise. -/
theorem bySource_comparesDestination (hown : r.destinationIPCIDRItems = [])
    (hsets : ∀ item ∈ r.ruleSetItem, item.ipCidrMatchSource = false →
      ∀ s ∈ item.setList, s.comparesDestination false = false) :
    r.bySource.comparesDestination = false := by
  rw [DefaultDNSRule.comparesDestination, bySource, hown]
  cases hitem : r.ruleSetItem with
  | none => rfl
  | some item =>
    simp only [isEmpty_nil, Bool.not_true, map_some, any_some, Bool.false_or,
      RuleSetItem.bySource, RuleSetItem.comparesDestination, List.any_eq_false, Bool.not_eq_true]
    cases hms : item.ipCidrMatchSource with
    | false => simpa [hms] using hsets item hitem hms
    | true =>
      rw [if_pos rfl]
      exact forall_mem_map.mpr fun s _ => s.bySource_comparesDestination _

lemma OnlyIPCIDR.bySource {reads : RuleItem → Bool} (h : r.OnlyIPCIDR reads)
    (hsource : ∀ ipSet, reads (.ipCIDR true ipSet) = false) : r.bySource.OnlyIPCIDR reads := by
  refine { h with leaves := fun item hitem s hs rule hr leaf hl => ?_ }
  obtain ⟨item, hi, rfl⟩ := Option.map_eq_some_iff.mp hitem
  unfold RuleSetItem.bySource at hs
  split at hs
  · obtain ⟨s, hmem, rfl⟩ := mem_map.mp hs
    obtain ⟨rule, hrule, rfl⟩ := mem_map.mp hr
    obtain ⟨own, hown, rfl⟩ := mem_leaves_bySource hl
    obtain ⟨hplain, hcidr⟩ := h.leaves item hi s hmem rule hrule own hown
    refine ⟨fun x hx => ?_, nofun⟩
    have hx : x ∈ own.plainItems ∨ ∃ y ∈ own.destinationIPCIDRItems, y.bySource = x := by
      simp only [DefaultRule.plainItems, DefaultRule.bySource, mem_append, List.mem_map] at hx ⊢
      tauto
    obtain hx | ⟨y, hy, rfl⟩ := hx
    · exact hplain x hx
    · have hy := hcidr y hy
      cases y with
      | ipCIDR isSource ipSet => exact hsource ipSet
      | _ => cases hy
  · exact h.leaves item hi s hs rule hr leaf hl

end DefaultDNSRule

/-! ## Where the option is kept -/

section
variable {c : InboundContext} {f : MatchFlags}

lemma RuleItem.match_bySource {item : RuleItem} (h : item.isIPCIDR) (hf : f.ipCidrMatchSource) :
    item.bySource.match c f = item.match c f := by
  cases item with
  | ipCIDR isSource ipSet => simp [RuleItem.bySource, RuleItem.match, RuleItem.matchIPCIDR, hf]
  | _ => cases h

namespace DefaultRule
variable {r : DefaultRule} (h : ∀ item ∈ r.destinationIPCIDRItems, item.isIPCIDR = true)
  (hf : f.ipCidrMatchSource)
include h hf

lemma groups_bySource : r.bySource.groups c f = r.groups c f := by
  have hmoved : matchAnyItem (r.destinationIPCIDRItems.map RuleItem.bySource) c f =
      matchAnyItem r.destinationIPCIDRItems c f := by
    rw [matchAnyItem, matchAnyItem, List.any_map, Bool.eq_iff_iff, List.any_eq_true,
      List.any_eq_true]
    exact exists_congr fun item => and_congr_right fun hi => by
      rw [Function.comp_apply, RuleItem.match_bySource (h item hi) hf]
  simp only [groups, bySource, matchAnyItem_append, hmoved, destinationIPCIDRMatchesSource,
    destinationIPCIDRMatchesDestination, hf]
  cases hd : r.destinationIPCIDRItems <;> simp [matchAnyItem]

lemma verdict_bySource : r.bySource.verdict none c f = r.verdict none c f := by
  have hno : r.bySource.hasNoItem = r.hasNoItem := by
    rw [Bool.eq_iff_iff]
    simp only [hasNoItem, bySource, Bool.and_eq_true, List.isEmpty_iff, append_eq_nil_iff,
      map_eq_nil_iff]
    tauto
  have hitems : r.bySource.matchItems c f = r.matchItems c f := rfl
  have hdefers : r.bySource.defers f = r.defers f := by simp [defers, hf]
  have hinvert : r.bySource.invert = r.invert := rfl
  simp only [verdict, innerVerdict, hno, hitems, groups_bySource h hf, hdefers, hinvert]

end DefaultRule

lemma HeadlessRule.bySource_eq_self {rule : HeadlessRule}
    (h : rule.comparesDestination false = false) : rule.bySource = rule := by
  induction rule using HeadlessRule.induct with
  | hd rule =>
    have hnil : rule.destinationIPCIDRItems = [] := by
      simpa [HeadlessRule.comparesDestination] using h
    rw [HeadlessRule.bySource, DefaultRule.bySource, hnil, map_nil, append_nil, ← hnil]
  | hl mode rules invert ih =>
    rw [HeadlessRule.comparesDestination, anyComparesDestination_eq_false] at h
    rw [HeadlessRule.bySource, allBySource_eq,
      map_congr_left (g := id) fun rule hr => ih rule hr (h rule hr),
      List.map_id]

lemma HeadlessRule.verdict_bySource {rule : HeadlessRule}
    (h : ∀ leaf ∈ rule.leaves, ∀ item ∈ leaf.destinationIPCIDRItems, item.isIPCIDR = true)
    (hf : f.ipCidrMatchSource) (hno : rule.comparesDestination true = false) :
    rule.bySource.verdict c f = rule.verdict c f := by
  cases rule with
  | default rule => exact DefaultRule.verdict_bySource (forall_leaves_default.mp h) hf
  | logical mode rules invert => rw [bySource_eq_self hno]

lemma mergeableRuleIn_bySource (rules : List HeadlessRule) :
    mergeableRuleIn (rules.map HeadlessRule.bySource) =
      (mergeableRuleIn rules).map DefaultRule.bySource := by
  obtain _ | ⟨rule, _ | ⟨next, rules⟩⟩ := rules
  · rfl
  · cases rule with
    | logical mode rules invert => rfl
    | default rule =>
      cases hi : rule.invert <;>
        simp [mergeableRuleIn, HeadlessRule.bySource, DefaultRule.bySource, hi]
  · cases rule <;> rfl

lemma RuleSet.outcome_bySource {s : RuleSet} (h : ∀ rule ∈ s.rules, ∀ leaf ∈ rule.leaves,
      ∀ item ∈ leaf.destinationIPCIDRItems, item.isIPCIDR = true)
    (hf : f.ipCidrMatchSource) (hno : s.comparesDestination true = false) (g : RuleGroupMatch) :
    RuleSetItem.outcome g c f s.bySource = RuleSetItem.outcome g c f s := by
  rw [RuleSet.comparesDestination, anyComparesDestination_eq_false] at hno
  have hverdict : s.bySource.verdict c f = s.verdict c f := by
    rw [RuleSet.verdict, RuleSet.bySource, List.map_map]
    exact congrArg Verdict.any
      (map_congr_left fun rule hr => verdict_bySource (h rule hr) hf (hno rule hr))
  unfold RuleSetItem.outcome
  rw [RuleSet.bySource, mergeableRuleIn_bySource, ← RuleSet.bySource, hverdict]
  cases hb : mergeableRuleIn s.rules with
  | none => rfl
  | some branch =>
    have hbranch := h (.default branch) (by simp [(mergeableRuleIn_eq_some.mp hb).1]) branch
      (mem_singleton_self _)
    have hdefers : branch.bySource.defers f = branch.defers f := by simp [DefaultRule.defers, hf]
    have hitems : branch.bySource.matchItems c f = branch.matchItems c f := rfl
    simp only [map_some, hitems, hdefers, DefaultRule.groups_bySource hbranch hf]

end

/-- The sets referred to by source address have no ip_cidr items inside logical rules. -/
def DefaultDNSRule.Unnested (r : DefaultDNSRule) : Prop :=
  ∀ item ∈ r.ruleSetItem, item.ipCidrMatchSource = true →
    ∀ s ∈ item.setList, s.comparesDestination true = false

/-- Outside logical rules the option reaches all that it should. -/
theorem DefaultDNSRule.Unnested.verdict_bySource {reads : RuleItem → Bool} {r : DefaultDNSRule}
    (h : r.Unnested) (honly : r.OnlyIPCIDR reads) (c : InboundContext) (f : MatchFlags) :
    r.bySource.verdict c f = r.verdict c f := by
  have hitem : ∀ item ∈ r.ruleSetItem, item.bySource.verdict = item.verdict := by
    intro item hi
    unfold RuleSetItem.bySource
    split
    · next hms =>
      funext g defers c f
      simp only [RuleSetItem.verdict, List.map_map]
      refine congrArg (RuleSetItem.loopVerdict g defers · false) (map_congr_left fun s hs => ?_)
      exact RuleSet.outcome_bySource (fun rule hr leaf hl =>
        (honly.leaves item hi s hs rule hr leaf hl).ipCIDR) hms (h item hi hms s hs) g
    · rfl
  have habstract : ∀ c, r.bySource.abstractVerdict c f = r.abstractVerdict c f := by
    intro c
    rw [DefaultDNSRule.abstractVerdict, DefaultDNSRule.abstractVerdict, DefaultDNSRule.bySource]
    dsimp only
    cases hr : r.ruleSetItem with
    | none => rfl
    | some item => rw [map_some, map_some, map_some, hitem item hr]
  have hbound : r.bySource.boundResponse c = r.boundResponse c := rfl
  simp only [DefaultDNSRule.verdict, habstract, hbound]
  rfl

def singleAddress (a : BitVec 32) : DefaultRule :=
  { destinationIPCIDRItems := [.ipCIDR false fun b => b == .v4 a] }

end SingBox.Route
