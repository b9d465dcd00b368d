import SingBox.Route.MatchSource

/-! The match before the lookup against the match on its response. The first one
leaves destination ip_cidr items out; it must not exclude a rule that the
second one accepts. -/

namespace SingBox.Route
open Dns Lib Verdict RuleSetItem Option List HeadlessRule Rule DefaultRule RuleGroupMatch

/-- The flags of `LegacyPreMatch`. -/
def MatchFlags.ignoring (f : MatchFlags) : MatchFlags :=
  { f with ignoreDestinationIPCIDRMatch := true }

/-- A legacy rule: no match_response and no `response_*` item, so that only the
destination ip_cidr lists read the response. -/
abbrev DefaultDNSRule.Legacy (r : DefaultDNSRule) : Prop := r.OnlyIPCIDR RuleItem.readsResponse

variable {rule : Rule}

section
variable (h : ∀ leaf ∈ rule.leaves, leaf.matchResponse = false)
include h

lemma Rule.abstractMatch_eq_match : rule.abstractMatch = rule.match := by
  cases rule with
  | logical mode rules invert => rfl
  | default rule =>
    rw [forall_leaves_default] at h
    funext c m
    simp [Rule.abstractMatch, Rule.match, DefaultDNSRule.matchForMatch, h]

lemma Rule.matchAddressLimit_eq (c : InboundContext) (response : Option Msg) :
    rule.matchAddressLimit c .fresh response = (rule.verdict (c.withResponse response) {}).holds := by
  rw [Rule.matchAddressLimit, abstractMatch_eq_match h]
  exact (rule.match_computes _ _ rfl).answer

end

/-! ## Groups before and after the lookup -/

/-- The groups of one match before the lookup and after it. `address` and `ip`
tell whether there are destination address items and ip_cidr items. -/
structure RuleGroupMatch.Deferral (pre post : RuleGroupMatch) (address ip : Bool) : Prop where
  sourceAddress : pre.required.sourceAddress = post.required.sourceAddress ∧
    pre.satisfied.sourceAddress = post.satisfied.sourceAddress
  sourcePort : pre.required.sourcePort = post.required.sourcePort ∧
    pre.satisfied.sourcePort = post.satisfied.sourcePort
  destinationPort : pre.required.destinationPort = post.required.destinationPort ∧
    pre.satisfied.destinationPort = post.satisfied.destinationPort
  requiredBefore : pre.required.destinationAddress = address
  requiredAfter : post.required.destinationAddress = (address || ip)
  satisfied : pre.satisfied.destinationAddress = true → post.satisfied.destinationAddress = true
  same : ip = false → post.satisfied.destinationAddress = pre.satisfied.destinationAddress

namespace RuleGroupMatch.Deferral
variable {pre post pre' post' : RuleGroupMatch} {address ip address' ip' : Bool}
  (h : pre.Deferral post address ip)
include h

lemma mergeWith (h' : pre'.Deferral post' address' ip') :
    (pre.mergeWith pre').Deferral (post.mergeWith post') (address || address') (ip || ip') := by
  obtain ⟨⟨a1, a2⟩, ⟨a3, a4⟩, ⟨a5, a6⟩, a7, a8, a9, a10⟩ := h
  obtain ⟨⟨b1, b2⟩, ⟨b3, b4⟩, ⟨b5, b6⟩, b7, b8, b9, b10⟩ := h'
  constructor <;> simp only [RuleGroupMatch.mergeWith, RuleMatchState.union] <;> grind -linarith

/-- Without a mixed group, groups that are done after the lookup were done before. -/
theorem done_before (hmix : (address && ip) = false) (hpost : post.done) : pre.done := by
  obtain ⟨⟨a1, a2⟩, ⟨a3, a4⟩, ⟨a5, a6⟩, a7, a8, a9, a10⟩ := h
  rw [done_iff] at hpost ⊢
  grind -linarith

/-- Groups that are done before the lookup stay so unless an ip_cidr item is
still to come. -/
theorem done_after (hpre : pre.done) (hip : ip → pre.satisfied.destinationAddress) : post.done := by
  obtain ⟨⟨a1, a2⟩, ⟨a3, a4⟩, ⟨a5, a6⟩, a7, a8, a9, a10⟩ := h
  rw [done_iff] at hpre ⊢
  grind -linarith

end RuleGroupMatch.Deferral

variable (r : DefaultRule)

/-- The destination ip_cidr items are compared with the destination. -/
def DefaultRule.looksAtDestination (f : MatchFlags) : Bool :=
  !f.ipCidrMatchSource && !r.destinationIPCIDRItems.isEmpty

section
variable {c c' : InboundContext} {f : MatchFlags} {r : DefaultRule}

lemma DefaultRule.Alike.deferral (h : r.Alike c c' f.ignoring f)
    (hf : f.ignoreDestinationIPCIDRMatch = false) :
    (r.groups c f.ignoring).Deferral (r.groups c' f) (!r.destinationAddressItems.isEmpty)
      (r.looksAtDestination f) := by
  obtain ⟨h1, h2, h3, h4, h5, h6, h7⟩ := h.groups
  refine ⟨⟨h1, h2⟩, ⟨h3, h4⟩, ⟨h5, h6⟩, ?_, ?_, ?_, ?_⟩
  · simp [DefaultRule.groups, destinationIPCIDRMatchesDestination, MatchFlags.ignoring]
  · simp [DefaultRule.groups, destinationIPCIDRMatchesDestination, looksAtDestination, hf]
  · simp only [DefaultRule.groups, h7]
    simp +contextual [destinationIPCIDRMatchesDestination, MatchFlags.ignoring]
  · intro hip
    have hpost : r.destinationIPCIDRMatchesDestination f = false := by
      rw [destinationIPCIDRMatchesDestination, hf]
      simpa [looksAtDestination] using hip
    simp only [DefaultRule.groups, h7, hpost]
    simp [destinationIPCIDRMatchesDestination, MatchFlags.ignoring]

lemma DefaultRule.defers_ignoring :
    r.defers f.ignoring = (r.looksAtDestination f && r.destinationAddressItems.isEmpty) := by
  simp [defers, looksAtDestination, MatchFlags.ignoring]

lemma DefaultRule.defers_of_not_ignoring
    (hf : f.ignoreDestinationIPCIDRMatch = false) : r.defers f = false := by
  simp [defers, hf]

/-- Before the lookup only destination address items can satisfy their group. -/
theorem DefaultRule.satisfied_ignoring :
    (r.groups c f.ignoring).satisfied.destinationAddress =
      matchAnyItem r.destinationAddressItems c f.ignoring := by
  simp [groups, destinationIPCIDRMatchesDestination, MatchFlags.ignoring]

end

/-! ## Mixed groups -/

/-- The destination address group holds items of both kinds. -/
def mixes (addressItems ipItems : List RuleItem) : Bool := !addressItems.isEmpty && !ipItems.isEmpty

mutual

/-- A default rule in the tree has a mixed group when it is matched with
`matchSource`. -/
def HeadlessRule.mixes : HeadlessRule → Bool → Bool
  | .default rule, matchSource =>
    !matchSource && Route.mixes rule.destinationAddressItems rule.destinationIPCIDRItems
  | .logical _ rules _, _ => HeadlessRule.anyMixes rules false

def HeadlessRule.anyMixes : List HeadlessRule → Bool → Bool
  | [], _ => false
  | rule :: rules, matchSource => rule.mixes matchSource || HeadlessRule.anyMixes rules matchSource

end

lemma HeadlessRule.anyMixes_eq_false {rules : List HeadlessRule} {matchSource : Bool} :
    HeadlessRule.anyMixes rules matchSource = false ↔
      ∀ rule ∈ rules, rule.mixes matchSource = false := by
  induction rules with
  | nil => simp [HeadlessRule.anyMixes]
  | cons rule rules ih => simp [HeadlessRule.anyMixes, ih]

/-- The set brings a mixed group, merged into the rule `r` if it can be. -/
def RuleSet.mixesWith (matchSource : Bool) (s : RuleSet) : Bool :=
  match mergeableRuleIn s.rules with
  | some branch => mixes (r.destinationAddressItems ++ branch.destinationAddressItems)
      (r.destinationIPCIDRItems ++ if matchSource then [] else branch.destinationIPCIDRItems)
  | none => HeadlessRule.anyMixes s.rules matchSource

lemma mixes_merged (r branch : DefaultRule) (matchSource : Bool) :
    mixes (r.destinationAddressItems ++ branch.destinationAddressItems)
      (r.destinationIPCIDRItems ++ if matchSource then [] else branch.destinationIPCIDRItems) =
    ((!r.destinationAddressItems.isEmpty || !branch.destinationAddressItems.isEmpty) &&
      (!r.destinationIPCIDRItems.isEmpty ||
        !matchSource && !branch.destinationIPCIDRItems.isEmpty)) := by
  unfold mixes
  cases r.destinationAddressItems <;> cases branch.destinationAddressItems <;>
    cases r.destinationIPCIDRItems <;> cases matchSource <;> simp

def DefaultDNSRule.mixes (r : DefaultDNSRule) : Bool :=
  Route.mixes r.destinationAddressItems r.destinationIPCIDRItems ||
  r.ruleSetItem.any fun item =>
    item.setList.any fun s => s.mixesWith r.toDefaultRule item.ipCidrMatchSource

/-! ## Rules of a set -/

section
variable {c c' : InboundContext} {f : MatchFlags}

lemma DefaultRule.Alike.safe {r : DefaultRule} (h : r.Alike c c' f.ignoring f)
    (hf : f.ignoreDestinationIPCIDRMatch = false)
    (hmix : (!f.ipCidrMatchSource && mixes r.destinationAddressItems r.destinationIPCIDRItems) =
      false) (side : Bool) : Safe side (r.verdict none c f.ignoring) (r.verdict none c' f) := by
  have hd := h.deferral hf
  have hbefore := hd.done_before (by
    simp only [looksAtDestination, Bool.and_left_comm, mixes] at hmix ⊢; exact hmix)
  unfold verdict
  split
  · exact safe_refl _ _
  · apply Safe.invertIf
    simp only [innerVerdict, h.matchItems, defers_ignoring, defers_of_not_ignoring hf]
    generalize (side ^^ r.invert) = side
    cases r.matchItems c' f with
    | false => exact safe_refl _ _
    | true =>
      cases hpre : (r.groups c f.ignoring).done with
      | false =>
        have hpost : (r.groups c' f).done = false := by
          rw [hpre] at hbefore; simpa using hbefore
        simp [hpost, safe_refl]
      | true =>
        cases hdef : r.looksAtDestination f && r.destinationAddressItems.isEmpty with
        | true => exact safe_maybe _ _
        | false =>
          have hpost := hd.done_after hpre (by
            have := (done_iff _).mp hpre |>.2.2.1
            rw [hd.requiredBefore] at this
            grind -linarith)
          simp [hpost, safe_refl]

lemma logicalVerdict_safe {α : Type} {side : Bool} {v w : α → Verdict} {l : List α}
    (mode : LogicalMode) (h : ∀ x ∈ l, Safe side (v x) (w x)) :
    Safe side (logicalVerdict mode (l.map v)) (logicalVerdict mode (l.map w)) := by
  cases mode with
  | and => exact safe_all h
  | or => exact safe_any h

lemma HeadlessRule.Alike.safe {rule : HeadlessRule} (h : rule.Alike c c')
    (hf : f.ignoreDestinationIPCIDRMatch = false) (hmix : rule.mixes f.ipCidrMatchSource = false)
    (side : Bool) : Safe side (rule.verdict c f.ignoring) (rule.verdict c' f) := by
  induction rule using HeadlessRule.induct generalizing f side with
  | hd rule =>
    rw [HeadlessRule.verdict, HeadlessRule.verdict]
    exact (forall_leaves_default.mp h f.ignoring f rfl).safe hf hmix side
  | hl mode rules invert ih =>
    rw [HeadlessRule.mixes, anyMixes_eq_false] at hmix
    rw [HeadlessRule.verdict, HeadlessRule.verdict, verdicts_eq, verdicts_eq]
    exact Safe.invertIf (logicalVerdict_safe mode fun rule hr =>
      ih rule hr (f := f.reset) (forall_leaves_logical.mp h rule hr) hf
        (hmix rule hr) _)

lemma RuleSet.Alike.safe {s : RuleSet} (h : s.Alike c c')
    (hf : f.ignoreDestinationIPCIDRMatch = false)
    (hmix : HeadlessRule.anyMixes s.rules f.ipCidrMatchSource = false) (side : Bool) :
    Safe side (s.verdict c f.ignoring) (s.verdict c' f) := by
  rw [anyMixes_eq_false] at hmix
  exact safe_any fun rule hr => (h rule hr).safe hf (hmix rule hr) side

end

/-! ## References to sets -/

namespace RuleSetItem

variable {outcomes : List (Verdict × Bool)} {deferred : Bool} {g : RuleGroupMatch} {defers : Bool}

lemma loopVerdict_eq_no : loopVerdict g defers outcomes deferred = .no ↔
      deferred = false ∧ ∀ o ∈ outcomes, o.1 = .no := by
  induction outcomes generalizing deferred with
  | nil => cases deferred <;> cases h : g.satisfied.destinationAddress <;> simp [loopVerdict, h]
  | cons o outcomes ih =>
    obtain ⟨v, satisfies⟩ := o
    cases v with
    | no | maybe => simp [loopVerdict, ih]
    | yes =>
      rw [loopVerdict]
      split <;> simp

/-- A definite match comes from a set that matches for certain, or from the
outer rule's own address items clearing the deferral of the sets. -/
theorem loopVerdict_eq_yes (h : loopVerdict g defers outcomes deferred = .yes) :
    (∃ satisfies, (.yes, satisfies) ∈ outcomes ∧
      (defers → satisfies ∨ g.satisfied.destinationAddress)) ∨
    ((deferred ∨ ∃ o ∈ outcomes, o.1 = .maybe) ∧ g.satisfied.destinationAddress) := by
  induction outcomes generalizing deferred with
  | nil => cases deferred <;> cases hg : g.satisfied.destinationAddress <;> simp_all [loopVerdict]
  | cons o outcomes ih =>
    obtain ⟨v, satisfies⟩ := o
    cases v with
    | no =>
      obtain ⟨b, hb, hs⟩ | ⟨hm, hg⟩ := ih h
      · exact .inl ⟨b, mem_cons_of_mem _ hb, hs⟩
      · exact .inr ⟨hm.imp_right (.imp fun _ => .imp_left (mem_cons_of_mem _)), hg⟩
    | maybe =>
      obtain ⟨b, hb, hs⟩ | ⟨-, hg⟩ := ih h
      · exact .inl ⟨b, mem_cons_of_mem _ hb, hs⟩
      · exact .inr ⟨.inr ⟨_, mem_cons_self, rfl⟩, hg⟩
    | yes =>
      refine .inl ⟨satisfies, mem_cons_self, fun hd => ?_⟩
      cases hs : satisfies <;> cases hg : g.satisfied.destinationAddress <;>
        simp_all [loopVerdict]

lemma loopVerdict_of_mem_yes (h : ∃ o ∈ outcomes, o.1 = .yes) :
    loopVerdict g false outcomes deferred = .yes := by
  induction outcomes generalizing deferred with
  | nil => simp at h
  | cons o outcomes ih =>
    obtain ⟨v, satisfies⟩ := o
    cases v with
    | yes => rfl
    | no | maybe => exact ih (by simpa using h)

end RuleSetItem

section
variable {c c' : InboundContext} {f : MatchFlags} {pre post : RuleGroupMatch} {address ip : Bool}
  {s : RuleSet}

section
variable (hf : f.ignoreDestinationIPCIDRMatch = false)
include hf

/-- A set that fails before the lookup fails after it. -/
theorem RuleSet.Alike.outcome_no {r : DefaultRule} (h : s.Alike c c')
    (hg : pre.Deferral post (!r.destinationAddressItems.isEmpty) (!r.destinationIPCIDRItems.isEmpty))
    (hr : mixes r.destinationAddressItems r.destinationIPCIDRItems = false)
    (hs : s.mixesWith r f.ipCidrMatchSource = false) (hno : (outcome pre c f.ignoring s).1 = .no) :
    (outcome post c' f s).1 = .no := by
  unfold outcome at hno ⊢
  unfold RuleSet.mixesWith at hs
  cases hb : mergeableRuleIn s.rules with
  | none =>
    simp only [hb] at hno hs ⊢
    have hsafe := h.safe hf hs true
    have hbefore := hg.done_before hr
    grind -linarith [Safe, ofBool]
  | some branch =>
    simp only [hb] at hno hs ⊢
    have halike : branch.Alike c c' f.ignoring f := h.branch hb rfl
    rw [mixes_merged] at hs
    have hbefore := (hg.mergeWith (halike.deferral hf)).done_before hs
    rw [halike.matchItems] at hno
    grind -linarith

/-- A set that matches for certain before the lookup matches after it, when
nothing of the outer rule is deferred either. -/
theorem RuleSet.Alike.outcome_yes (h : s.Alike c c') (hg : pre.Deferral post address ip)
    (hs : mergeableRuleIn s.rules = none →
      HeadlessRule.anyMixes s.rules f.ipCidrMatchSource = false)
    {satisfies : Bool} (hyes : outcome pre c f.ignoring s = (.yes, satisfies))
    (hdefers : (ip && !address) →
      satisfies ∨ pre.satisfied.destinationAddress) :
    (outcome post c' f s).1 = .yes := by
  unfold outcome at hyes ⊢
  cases hb : mergeableRuleIn s.rules with
  | none =>
    simp only [hb, Prod.mk.injEq] at hyes ⊢
    have hsafe := h.safe hf (hs hb) false
    have hdone : pre.done := by grind -linarith
    have hafter := hg.done_after hdone (by
      have := (done_iff _).mp hdone |>.2.2.1
      rw [hg.requiredBefore] at this
      grind -linarith)
    grind -linarith [Safe, ofBool]
  | some branch =>
    simp only [hb] at hyes ⊢
    have halike : branch.Alike c c' f.ignoring f := h.branch hb rfl
    have hm := hg.mergeWith (halike.deferral hf)
    rw [halike.matchItems, branch.defers_ignoring] at hyes
    rw [defers_of_not_ignoring hf]
    have hdone : (pre.mergeWith (branch.groups c f.ignoring)).done := by grind -linarith
    have hafter := hm.done_after hdone (by
      have hreq := (done_iff _).mp hdone |>.2.2.1
      have hsat : pre.satisfied.destinationAddress →
          (pre.mergeWith (branch.groups c f.ignoring)).satisfied.destinationAddress := by
        simp +contextual [RuleGroupMatch.mergeWith, RuleMatchState.union]
      rw [hm.requiredBefore] at hreq
      grind -linarith)
    grind -linarith

end

end

/-! ## Whole rules -/

/-- The rule's own address items clear the deferral of a set that was not merged with them: they
match, one set is deferred, and none matches for certain. -/
def DefaultDNSRule.Clears (c : InboundContext) (r : DefaultDNSRule) : Bool :=
  let f := MatchFlags.ignoring {}
  r.matchItems c f && matchAnyItem r.destinationAddressItems c f &&
    r.ruleSetItem.any fun item =>
      let outcomes := item.setList.map fun s => (outcome (r.groups c f) c (item.nestedFlags f) s).1
      decide (.yes ∉ outcomes) && decide (.maybe ∈ outcomes)

section
variable {c c' : InboundContext} {r : DefaultDNSRule} (h : r.Alike c c') (hmix : r.mixes = false)
  (hclears : r.Clears c = false)
include h hmix hclears

lemma DefaultDNSRule.Alike.item_safe {item : RuleSetItem} (hitem : item ∈ r.ruleSetItem)
    (hitems : r.matchItems c (MatchFlags.ignoring {})) (side : Bool) : Safe side
      (item.verdict (r.groups c (MatchFlags.ignoring {})) (r.defers (MatchFlags.ignoring {})) c
        (MatchFlags.ignoring {}))
      (item.verdict (r.groups c' {}) (r.defers {}) c' {}) := by
  have hg := (h.own (MatchFlags.ignoring {}) {} rfl rfl).deferral rfl
  have hsets := h.sets item hitem
  rw [DefaultDNSRule.mixes, Bool.or_eq_false_iff, hitem, any_some] at hmix
  simp only [List.any_eq_false, Bool.not_eq_true] at hmix
  obtain ⟨hown, hmix⟩ := hmix
  rw [show r.looksAtDestination {} = !r.destinationIPCIDRItems.isEmpty by
    simp [DefaultRule.looksAtDestination]] at hg
  intro hpre
  cases side with
  | true =>
    simp only [Bool.not_true, ofBool, Bool.false_eq_true, if_false,
      RuleSetItem.verdict, loopVerdict_eq_no, List.forall_mem_map, true_and] at hpre ⊢
    intro s hs
    exact (hsets s hs).outcome_no rfl hg hown (hmix s hs) (hpre s hs)
  | false =>
    simp only [Bool.not_false, ofBool, if_true, RuleSetItem.verdict] at hpre ⊢
    rw [r.toDefaultRule.not_defers]
    obtain ⟨s, hs, satisfies, hyes, hdefers⟩ : ∃ s ∈ item.setList, ∃ satisfies,
        outcome (r.groups c (MatchFlags.ignoring {})) c (item.nestedFlags (MatchFlags.ignoring {}))
          s = (.yes, satisfies) ∧ (r.defers (MatchFlags.ignoring {}) → satisfies ∨
            (r.groups c (MatchFlags.ignoring {})).satisfied.destinationAddress) := by
      obtain ⟨satisfies, hmem, hdefers⟩ | ⟨hmaybe, hsat⟩ := loopVerdict_eq_yes hpre
      · obtain ⟨s, hs, hyes⟩ := mem_map.mp hmem
        exact ⟨s, hs, satisfies, hyes, hdefers⟩
      · -- The source clears a deferral here; another set matches for certain.
        obtain ⟨o, ho, hm⟩ := hmaybe.resolve_left (by simp)
        obtain ⟨s, hs, rfl⟩ := mem_map.mp ho
        simp only [Clears, hitems, mem_def.mp hitem, ← satisfied_ignoring, hsat, Bool.true_and,
          any_some,
          Bool.and_eq_false_iff, decide_eq_false_iff_not, not_not] at hclears
        obtain ⟨s', hs', hyes⟩ := mem_map.mp
          (hclears.resolve_right fun hno => hno (mem_map.mpr ⟨s, hs, hm⟩))
        exact ⟨s', hs', _, Prod.ext hyes (Eq.refl _), fun _ => .inr hsat⟩
    rw [defers_ignoring] at hdefers
    refine loopVerdict_of_mem_yes ⟨_, mem_map_of_mem hs, ?_⟩
    refine (hsets s hs).outcome_yes rfl hg (fun hb => ?_) hyes (by
      simpa [DefaultRule.looksAtDestination] using hdefers)
    have := hmix s hs
    rwa [RuleSet.mixesWith, hb] at this

lemma DefaultDNSRule.Alike.safe (side : Bool) :
    Safe side (r.abstractVerdict c (MatchFlags.ignoring {})) (r.abstractVerdict c' {}) := by
  have halike := h.own (MatchFlags.ignoring {}) {} rfl rfl
  unfold DefaultDNSRule.abstractVerdict
  cases hitem : r.ruleSetItem with
  | none =>
    rw [DefaultDNSRule.mixes, Bool.or_eq_false_iff] at hmix
    exact halike.safe rfl (by simpa using hmix.1) side
  | some item =>
    simp only [map_some, DefaultRule.verdict, DefaultRule.innerVerdict, isNone_some,
      Bool.and_false, Bool.false_eq_true, if_false, ← halike.matchItems]
    apply Safe.invertIf
    cases hitems : r.matchItems c (MatchFlags.ignoring {}) with
    | false => exact safe_refl _ _
    | true => exact h.item_safe hmix hclears hitem hitems _

end

section
variable {c : InboundContext} (hlegacy : ∀ leaf ∈ rule.leaves, leaf.Legacy)
  (hmix : ∀ leaf ∈ rule.leaves, leaf.mixes = false)
include hlegacy hmix

end

variable (domain : String)

def addressResponse (a : BitVec 32) : Msg where
  response := true
  answer := [⟨"example.com.", typeA, 1, 60, .a (.v4 a)⟩]

end SingBox.Route
