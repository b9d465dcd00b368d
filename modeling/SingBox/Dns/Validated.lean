import SingBox.Dns.Rule

/-! What the checks on a rule list guarantee to the walk. -/

namespace SingBox.Dns
open Route List Rule

variable {r : DNSRule}

/-! ## One rule -/

lemma validateDNSRuleAction_ok {action : DNSRuleAction} {race : Bool}
    (h : validateDNSRuleAction action race = .ok ()) : action.isReplyReject = false ∧
    (race → action.isFinal ∧ action.isSpeculativeRoute = false) := by
  unfold validateDNSRuleAction at h
  split at h
  · cases h
  · rename_i hreply
    refine ⟨by simpa using hreply, fun hrace => ?_⟩
    split at h
    · cases h
    · rw [hrace] at h
      split at h
      · cases h
      · rename_i hfinal
        split at h
        · cases h
        · rename_i hspec
          exact ⟨by simpa using hfinal, by simpa using hspec⟩

variable {rule : DefaultDNSRule}

lemma hasBindings_of_matchResponse (hrule : r.rule = .default rule)
    (h : rule.matchResponse) : r.hasBindings := by
  rw [DNSRule.hasBindings, DNSRule.matchResponseTags, DNSRule.matchResponseAnonymous, hrule,
    matchResponseTags, matchResponseAnonymous, defaultMatchResponseTags, h]
  by_cases htag : rule.matchResponseTag = "" <;> simp [htag]

/-- A race rule has a final action and something to wait for. -/
structure DNSRule.RaceReady (r : DNSRule) : Prop where
  hasBindings : r.hasBindings = true
  final : r.action.isFinal = true
  notReply : r.action.isReplyReject = false
  notSpeculative : r.action.isSpeculativeRoute = false

lemma raceReady_of_newDNSRule (h : newDNSRule r = .ok ()) (hrace : r.race) : r.RaceReady := by
  unfold newDNSRule at h
  split at h
  · cases h
  · rename_i hval
    obtain ⟨hreply, hfinal⟩ := validateDNSRuleAction_ok hval
    obtain ⟨hfinal, hspec⟩ := hfinal hrace
    refine ⟨?_, hfinal, hreply, hspec⟩
    split at h
    · rename_i rule hrule
      split at h
      · cases h
      · rename_i hmatch
        exact hasBindings_of_matchResponse hrule (by simpa [hrace] using hmatch)
    · split at h
      · cases h
      · split at h
        · cases h
        · rename_i hbind
          simpa [hrace] using hbind

/-! ## The tags of a rule -/

variable {use : DNSRuleResponseUse}

lemma referencedTags_default (h : validateLegacyDNSModeDisabledDefaultRule rule = .ok use) :
    defaultMatchResponseTags rule ⊆ use.referencedTags := by
  intro tag htag
  unfold defaultMatchResponseTags at htag
  split at htag
  · cases htag
  · rename_i hne
    have hmatch := rule.enabled_of_tag hne
    unfold validateLegacyDNSModeDisabledDefaultRule at h
    simp only [hmatch, hne, Bool.not_true, Bool.and_false, Bool.false_and, Bool.false_eq_true,
      if_false, ne_eq, not_false_eq_true, if_true] at h
    split at h
    · cases h
    · cases h
      exact htag

variable {rule : Rule} {rules : List Rule} {i : Nat}

lemma validateSubRules_ok (h : validateSubRules rules i = .ok use) (hr : rule ∈ rules) :
    ∃ used, validateRuleTree rule = .ok used ∧ used.referencedTags ⊆ use.referencedTags := by
  induction rules generalizing i use with
  | nil => cases hr
  | cons first rules ih =>
    rw [validateSubRules] at h
    split at h
    · cases h
    · rename_i used hused
      cases hrest : validateSubRules rules (i + 1) with
      | error err =>
        rw [hrest] at h
        cases h
      | ok rest =>
        rw [hrest] at h
        cases h
        obtain rfl | hr := mem_cons.mp hr
        · exact ⟨used, hused, subset_append_left _ _⟩
        · obtain ⟨used', hused', hsub⟩ := ih hrest hr
          exact ⟨used', hused', List.Subset.trans hsub (subset_append_right _ _)⟩

lemma validateRuleTree_leaves (h : validateRuleTree rule = .ok use) : ∀ leaf ∈ rule.leaves,
      ∃ used, validateLegacyDNSModeDisabledDefaultRule leaf = .ok used ∧
        used.referencedTags ⊆ use.referencedTags := by
  induction rule using Rule.induct generalizing use with
  | hd rule =>
    rw [forall_leaves_default]
    exact ⟨use, h, List.Subset.refl _⟩
  | hl mode rules invert ih =>
    rw [forall_leaves_logical]
    intro rule hr leaf hleaf
    obtain ⟨used, hused, hsub⟩ := validateSubRules_ok h hr
    obtain ⟨used', hused', hsub'⟩ := ih rule hr hused leaf hleaf
    exact ⟨used', hused', List.Subset.trans hsub' hsub⟩

variable {tag : String}

lemma mem_allMatchResponseTags :
    tag ∈ allMatchResponseTags rules ↔ ∃ rule ∈ rules, tag ∈ matchResponseTags rule := by
  induction rules with
  | nil => simp [allMatchResponseTags]
  | cons rule rules ih => simp [allMatchResponseTags, ih]

lemma mem_matchResponseTags :
    tag ∈ matchResponseTags rule ↔ ∃ leaf ∈ rule.leaves, tag ∈ defaultMatchResponseTags leaf := by
  induction rule using Rule.induct with
  | hd rule => simp [matchResponseTags, Rule.leaves]
  | hl mode rules invert ih =>
    rw [matchResponseTags, mem_eraseDups, mem_allMatchResponseTags]
    constructor
    · rintro ⟨rule, hr, htag⟩
      obtain ⟨leaf, hleaf, htag⟩ := (ih rule hr).mp htag
      exact ⟨leaf, mem_leavesOf.mpr ⟨rule, hr, hleaf⟩, htag⟩
    · rintro ⟨leaf, hleaf, htag⟩
      obtain ⟨rule, hr, hleaf⟩ := mem_leavesOf.mp hleaf
      exact ⟨rule, hr, (ih rule hr).mpr ⟨leaf, hleaf, htag⟩⟩

lemma matchResponseTags_subset
    (h : validateRuleTree rule = .ok use) : matchResponseTags rule ⊆ use.referencedTags := by
  intro tag htag
  obtain ⟨leaf, hleaf, htag⟩ := mem_matchResponseTags.mp htag
  obtain ⟨used, hused, hsub⟩ := validateRuleTree_leaves h leaf hleaf
  exact hsub (referencedTags_default hused htag)

/-! ## The rule list -/

/-- A checked rule on its own. -/
structure DNSRule.Valid (r : DNSRule) : Prop where
  race : r.race = true → r.RaceReady
  notReply : r.action.isReplyReject = false
  leaves : ∀ leaf ∈ r.rule.leaves, ∃ used, validateLegacyDNSModeDisabledDefaultRule leaf = .ok used
  /-- A respond action of a logical rule answers with the anonymous response. -/
  respond : r.action = .respond → r.matchResponseTag = "" → r.matchResponseTags = []

/-- A checked list: tags are defined once, and before they are used. -/
structure ValidRules (rules : List DNSRule) : Prop where
  rule : ∀ r ∈ rules, r.Valid
  defined : ∀ i r, rules[i]? = some r → ∀ tag ∈ r.matchResponseTags,
    tag ∈ (rules.take i).filterMap DNSRule.evaluateTag
  distinct : (rules.filterMap DNSRule.evaluateTag).Nodup

lemma validateRespond_ok {use' : DNSRuleResponseUse} (h : validateRespond r use = .ok use') :
    use'.referencedTags = use.referencedTags ∧
    (∀ mode rules invert, r.action = .respond → r.rule = .logical mode rules invert →
      use.referencedTags = []) := by
  unfold validateRespond at h
  split at h
  · split at h
    · cases h
    · rename_i hempty
      cases h
      exact ⟨rfl, fun _ _ _ _ _ => by simpa using hempty⟩
  · rename_i hrule
    cases h
    exact ⟨rfl, fun _ _ _ _ hlog => by simp [hrule] at hlog⟩
  · rename_i hlog hdef
    cases h
    exact ⟨rfl, fun mode rules invert hact hrule => (hlog mode rules invert hact hrule).elim⟩

lemma valid_of_checks (hnew : newDNSRule r = .ok ())
    (hrule : validateLegacyDNSModeDisabledRule r = .ok use) :
    r.Valid ∧ r.matchResponseTags ⊆ use.referencedTags := by
  unfold validateLegacyDNSModeDisabledRule at hrule
  cases htree : validateRuleTree r.rule with
  | error err =>
    rw [htree] at hrule
    cases hrule
  | ok used =>
    rw [htree] at hrule
    obtain ⟨hsame, hrespond⟩ := validateRespond_ok hrule
    have htags := matchResponseTags_subset htree
    refine ⟨⟨fun hrace => raceReady_of_newDNSRule hnew hrace, ?_, ?_, ?_⟩, hsame ▸ htags⟩
    · unfold newDNSRule at hnew
      split at hnew
      · cases hnew
      · rename_i hval
        exact (validateDNSRuleAction_ok hval).1
    · intro leaf hleaf
      obtain ⟨used', hused', -⟩ := validateRuleTree_leaves htree leaf hleaf
      exact ⟨used', hused'⟩
    · intro hact htag
      cases hcase : r.rule with
      | default rule =>
        have htag : rule.matchResponseTag = "" := by
          simpa [DNSRule.matchResponseTag, hcase] using htag
        simp [DNSRule.matchResponseTags, hcase, matchResponseTags, defaultMatchResponseTags, htag]
      | logical mode rules invert =>
        exact subset_nil.mp (hrespond mode rules invert hact hcase ▸ htags)

namespace ValidateState
variable {s s' : ValidateState} {label : String}

lemma checkUse_ok (h : s.checkUse label use = .ok ()) : use.referencedTags ⊆ s.definedTags := by
  unfold checkUse at h
  split at h
  · split at h <;> cases h
  · split at h
    · cases h
    · rename_i hfind
      intro tag htag
      simpa using find?_eq_none.mp hfind tag htag

lemma define_ok (h : s.define label r.action = .ok s') :
    s'.definedTags = s.definedTags ++ r.evaluateTag.toList ∧
    ∀ tag, r.evaluateTag = some tag → tag ∉ s.definedTags := by
  unfold define at h
  unfold DNSRule.evaluateTag
  split at h
  · split at h
    · rename_i hempty
      cases h
      simp [hempty]
    · rename_i hne
      split at h
      · cases h
      · rename_i hnew
        cases h
        simp [hne, hnew]
  · cases h
    simp

lemma step_ok (hnew : newDNSRule r = .ok ()) (h : s.step i r = .ok s') :
    r.Valid ∧ r.matchResponseTags ⊆ s.definedTags ∧
    s'.definedTags = s.definedTags ++ r.evaluateTag.toList ∧
    ∀ tag, r.evaluateTag = some tag → tag ∉ s.definedTags := by
  unfold step at h
  dsimp only at h
  split at h
  · cases h
  · rename_i use hrule
    split at h
    · cases h
    · rename_i hcheck
      obtain ⟨hval, htags⟩ := valid_of_checks hnew hrule
      exact ⟨hval, List.Subset.trans htags (checkUse_ok hcheck), define_ok h⟩

end ValidateState

variable {rules : List DNSRule}

/-- The checked rest of a list, after the tags that were defined before it. -/
theorem validateFrom_ok {s : ValidateState}
    (h : validateFrom rules i s = .ok ()) (hs : s.definedTags.Nodup) : (∀ r ∈ rules, r.Valid) ∧
    (∀ k r, rules[k]? = some r → ∀ tag ∈ r.matchResponseTags,
      tag ∈ s.definedTags ++ (rules.take k).filterMap DNSRule.evaluateTag) ∧
    (s.definedTags ++ rules.filterMap DNSRule.evaluateTag).Nodup := by
  induction rules generalizing i s with
  | nil => simpa using hs
  | cons r rules ih =>
    rw [validateFrom] at h
    split at h
    · cases h
    · rename_i hnew
      split at h
      · cases h
      · rename_i s' hstep
        obtain ⟨hval, htags, hdefined, hfresh⟩ := ValidateState.step_ok hnew hstep
        have hnext : ∀ rest : List DNSRule,
            s'.definedTags ++ rest.filterMap DNSRule.evaluateTag =
              s.definedTags ++ (r :: rest).filterMap DNSRule.evaluateTag := by
          intro rest
          rw [hdefined, append_assoc, filterMap_cons]
          cases r.evaluateTag <;> rfl
        have hs' : s'.definedTags.Nodup := by
          rw [hdefined]
          cases htag : r.evaluateTag with
          | none => simpa using hs
          | some tag =>
            have hnew : tag ∉ s.definedTags := hfresh tag htag
            refine nodup_append.mpr ⟨hs, by simp, ?_⟩
            intro a ha b hb
            rw [mem_singleton.mp hb]
            intro hab
            exact hnew (hab ▸ ha)
        obtain ⟨hall, hbefore, hdist⟩ := ih h hs'
        refine ⟨forall_mem_cons.mpr ⟨hval, hall⟩, ?_, hnext rules ▸ hdist⟩
        intro k
        cases k with
        | zero =>
          rintro first ⟨rfl⟩ tag htag
          exact mem_append_left _ (htags htag)
        | succ k =>
          intro later hlater tag htag
          rw [take_succ_cons, ← hnext]
          exact hbefore k later hlater tag htag

lemma validRules_of_ok
    (h : validateLegacyDNSModeDisabledRules rules = .ok ()) : ValidRules rules := by
  obtain ⟨hval, hdefined, hdist⟩ := validateFrom_ok h nodup_nil
  exact ⟨hval, by simpa using hdefined, by simpa using hdist⟩

end SingBox.Dns
