import SingBox.Route.Verdict

/-! What a rule means, as a Boolean of the metadata alone: no rule cache, no
order of evaluation, no deferral. Without rule-set settings `Match` computes
exactly this value. -/

namespace SingBox.Route
open Dns Lib Option List HeadlessRule Rule RuleGroupMatch RuleSetItem

variable (group : List RuleItem)

/-- A group of items: without items it asks for nothing. -/
def groupMatches (c : InboundContext) : Bool :=
  group.isEmpty || group.any fun it => it.match c {}

namespace DefaultRule

variable (r : DefaultRule) (c : InboundContext)

/-- Every item of the rule that stands alone matches. -/
def itemsMatch : Bool := r.items.all fun it => it.match c {}

/-- Every group of the rule has a match. Destination ip_cidr items are
alternatives to the destination address items. -/
def groupsMatch : Bool :=
  groupMatches r.sourceAddressItems c && groupMatches r.sourcePortItems c &&
  groupMatches (r.destinationAddressItems ++ r.destinationIPCIDRItems) c &&
  groupMatches r.destinationPortItems c

/-- The groups of both rules, each one joined with its counterpart. -/
def mergeGroups (r branch : DefaultRule) : DefaultRule where
  sourceAddressItems := r.sourceAddressItems ++ branch.sourceAddressItems
  sourcePortItems := r.sourcePortItems ++ branch.sourcePortItems
  destinationAddressItems := r.destinationAddressItems ++ branch.destinationAddressItems
  destinationIPCIDRItems := r.destinationIPCIDRItems ++ branch.destinationIPCIDRItems
  destinationPortItems := r.destinationPortItems ++ branch.destinationPortItems

/-- The value of a default rule; `ruleSetItem` says whether a referenced set
matches together with the rule's groups. -/
def value (ruleSetItem : Option Bool) (c : InboundContext) : Bool :=
  if r.hasNoItem && ruleSetItem.isNone then true
  else r.invert ^^ (r.itemsMatch c && ruleSetItem.getD (r.groupsMatch c))

end DefaultRule

def logicalValue : LogicalMode → List Bool → Bool
  | .and, values => values.all id
  | .or, values => values.any id

mutual

def HeadlessRule.value : HeadlessRule → InboundContext → Bool
  | .default rule, c => rule.value none c
  | .logical mode rules invert, c => invert ^^ logicalValue mode (HeadlessRule.values rules c)

def HeadlessRule.values : List HeadlessRule → InboundContext → List Bool
  | [], _ => []
  | rule :: rules, c => rule.value c :: HeadlessRule.values rules c

end

lemma HeadlessRule.values_eq (rules : List HeadlessRule) (c : InboundContext) :
    HeadlessRule.values rules c = rules.map fun rule => rule.value c := by
  induction rules with
  | nil => rfl
  | cons rule rules ih => rw [HeadlessRule.values, ih, map_cons]

/-- A set is merged if it is a single default rule that is not inverted. -/
lemma mergeableRuleIn_eq_some {rules : List HeadlessRule} {branch : DefaultRule} :
    mergeableRuleIn rules = some branch ↔ rules = [.default branch] ∧ branch.invert = false := by
  constructor
  · intro h
    unfold mergeableRuleIn at h
    split at h
    · split at h <;> simp_all
    · cases h
  · rintro ⟨rfl, hinvert⟩
    simp [mergeableRuleIn, hinvert]

variable (r : DefaultRule) (c : InboundContext) (s : RuleSet)

/-- A referenced set next to the groups of the rule `r`. A set that is one plain
default rule is merged into `r`; any other set stands beside it. -/
def RuleSet.valueWith : Bool :=
  match mergeableRuleIn s.rules with
  | some branch => branch.itemsMatch c && (r.mergeGroups branch).groupsMatch c
  | none => r.groupsMatch c && s.rules.any fun rule => rule.value c

def DefaultDNSRule.abstractValue (r : DefaultDNSRule) (c : InboundContext) : Bool :=
  r.toDefaultRule.value
    (r.ruleSetItem.map fun item => item.setList.any (RuleSet.valueWith r.toDefaultRule c)) c

/-- With match_response a rule is about the response it is bound to. -/
def DefaultDNSRule.value (r : DefaultDNSRule) (c : InboundContext) : Bool :=
  if r.matchResponse then
    match r.boundResponse c with
    | none => r.invert
    | some response => r.abstractValue (c.withResponse (some response))
  else
    r.abstractValue c

mutual

def Rule.value : Rule → InboundContext → Bool
  | .default rule, c => rule.value c
  | .logical mode rules invert, c => invert ^^ logicalValue mode (Rule.values rules c)

def Rule.values : List Rule → InboundContext → List Bool
  | [], _ => []
  | rule :: rules, c => rule.value c :: Rule.values rules c

end

lemma Rule.values_eq (rules : List Rule) (c : InboundContext) :
    Rule.values rules c = rules.map fun rule => rule.value c := by
  induction rules with
  | nil => rfl
  | cons rule rules ih => rw [Rule.values, ih, map_cons]

/-! ## The leaves of a rule -/

mutual

/-- The default rules a rule is built from. -/
def Rule.leaves : Rule → List DefaultDNSRule
  | .default rule => [rule]
  | .logical _ rules _ => Rule.leavesOf rules

def Rule.leavesOf : List Rule → List DefaultDNSRule
  | [] => []
  | rule :: rules => rule.leaves ++ Rule.leavesOf rules

end

variable {rules : List Rule}

lemma Rule.mem_leavesOf {leaf : DefaultDNSRule} :
    leaf ∈ Rule.leavesOf rules ↔ ∃ rule ∈ rules, leaf ∈ rule.leaves := by
  induction rules with
  | nil => simp [Rule.leavesOf]
  | cons rule rules ih => simp [Rule.leavesOf, ih]

variable {P : DefaultDNSRule → Prop}

@[simp] lemma Rule.forall_leaves_default {rule : DefaultDNSRule} :
    (∀ leaf ∈ (Rule.default rule).leaves, P leaf) ↔ P rule := by
  simp [Rule.leaves]

variable {mode : LogicalMode} {invert : Bool}

@[simp] lemma Rule.forall_leaves_logical :
    (∀ leaf ∈ (Rule.logical mode rules invert).leaves, P leaf) ↔
      ∀ rule ∈ rules, ∀ leaf ∈ rule.leaves, P leaf := by
  simp only [Rule.leaves, mem_leavesOf]
  grind -linarith

mutual

def HeadlessRule.leaves : HeadlessRule → List DefaultRule
  | .default rule => [rule]
  | .logical _ rules _ => HeadlessRule.leavesOf rules

def HeadlessRule.leavesOf : List HeadlessRule → List DefaultRule
  | [] => []
  | rule :: rules => rule.leaves ++ HeadlessRule.leavesOf rules

end

variable {rules : List HeadlessRule}

lemma HeadlessRule.mem_leavesOf {leaf : DefaultRule} :
    leaf ∈ HeadlessRule.leavesOf rules ↔ ∃ rule ∈ rules, leaf ∈ rule.leaves := by
  induction rules with
  | nil => simp [HeadlessRule.leavesOf]
  | cons rule rules ih => simp [HeadlessRule.leavesOf, ih]

variable {P : DefaultRule → Prop}

@[simp] lemma HeadlessRule.forall_leaves_default {rule : DefaultRule} :
    (∀ leaf ∈ (HeadlessRule.default rule).leaves, P leaf) ↔ P rule := by
  simp [HeadlessRule.leaves]

@[simp] lemma HeadlessRule.forall_leaves_logical :
    (∀ leaf ∈ (HeadlessRule.logical mode rules invert).leaves, P leaf) ↔
      ∀ rule ∈ rules, ∀ leaf ∈ rule.leaves, P leaf := by
  simp only [HeadlessRule.leaves, mem_leavesOf]
  grind -linarith

/-! ## Groups -/

lemma RuleGroupMatch.done_iff (g : RuleGroupMatch) : g.done ↔
      (g.required.sourceAddress → g.satisfied.sourceAddress) ∧
      (g.required.sourcePort → g.satisfied.sourcePort) ∧
      (g.required.destinationAddress → g.satisfied.destinationAddress) ∧
      (g.required.destinationPort → g.satisfied.destinationPort) := by
  simp [RuleGroupMatch.done, RuleMatchState.clear, RuleMatchState.none]

lemma groupMatches_iff (c : InboundContext) :
    groupMatches group c ↔ (group.isEmpty = false → matchAnyItem group c {}) := by
  unfold groupMatches matchAnyItem
  cases group.isEmpty <;> simp

lemma matchAnyItem_append (xs ys : List RuleItem) (c : InboundContext) (f : MatchFlags) :
    matchAnyItem (xs ++ ys) c f = (matchAnyItem xs c f || matchAnyItem ys c f) := by
  simp [matchAnyItem]

lemma matchAnyItem_of_isEmpty {items : List RuleItem} (h : items.isEmpty)
    (c : InboundContext) (f : MatchFlags) : matchAnyItem items c f = false := by
  rw [isEmpty_iff.mp h]; rfl

/-- Outside rule-set settings the bit masks say what the groups mean. -/
theorem DefaultRule.groups_done : (r.groups c {}).done = r.groupsMatch c := by
  rw [Bool.eq_iff_iff, done_iff]
  simp only [groupsMatch, Bool.and_eq_true, groupMatches_iff, matchAnyItem_append, groups,
    destinationIPCIDRMatchesSource, destinationIPCIDRMatchesDestination]
  cases hd : r.destinationIPCIDRItems.isEmpty <;>
    simp [matchAnyItem_of_isEmpty, hd, and_assoc] <;> grind -linarith

/-- Merging bit masks is joining the groups. -/
theorem DefaultRule.mergeWith_groups_done (r branch : DefaultRule) (c : InboundContext) :
    ((r.groups c {}).mergeWith (branch.groups c {})).done =
      (r.mergeGroups branch).groupsMatch c := by
  rw [Bool.eq_iff_iff, done_iff]
  simp only [RuleGroupMatch.mergeWith, RuleMatchState.union, groupsMatch, mergeGroups,
    Bool.and_eq_true, groupMatches_iff, matchAnyItem_append, groups,
    destinationIPCIDRMatchesSource, destinationIPCIDRMatchesDestination]
  cases hd : r.destinationIPCIDRItems.isEmpty <;>
    cases hb : branch.destinationIPCIDRItems.isEmpty <;>
      simp [matchAnyItem_of_isEmpty, hd, hb, and_assoc] <;> grind -linarith

/-! ## The verdict of a match that ignores nothing -/

lemma DefaultRule.not_defers : r.defers {} = false := by
  simp [DefaultRule.defers]

lemma DefaultRule.verdict_none_eq_value : r.verdict none c {} = .ofBool (r.value none c) := by
  unfold DefaultRule.verdict DefaultRule.value DefaultRule.innerVerdict
  simp only [r.not_defers, r.groups_done]
  have hitems : r.matchItems c {} = r.itemsMatch c := rfl
  rw [hitems]
  cases r.hasNoItem <;> cases r.itemsMatch c <;> cases r.groupsMatch c <;> cases r.invert <;> rfl

lemma logicalVerdict_eq_value {α : Type} (mode : LogicalMode) {f : α → Verdict} {g : α → Bool}
    {l : List α} (h : ∀ x ∈ l, f x = .ofBool (g x)) :
    logicalVerdict mode (l.map f) = .ofBool (logicalValue mode (l.map g)) := by
  cases mode with
  | and => simpa [logicalVerdict, logicalValue] using Verdict.all_ofBool h
  | or => simpa [logicalVerdict, logicalValue] using Verdict.any_ofBool h

lemma HeadlessRule.verdict_eq_value (rule : HeadlessRule) (c : InboundContext) :
    rule.verdict c {} = .ofBool (rule.value c) := by
  induction rule using HeadlessRule.induct with
  | hd rule => exact rule.verdict_none_eq_value c
  | hl mode rules invert ih =>
    rw [HeadlessRule.verdict, HeadlessRule.value, verdicts_eq,
      values_eq, ← Verdict.ofBool_invertIf, ← logicalVerdict_eq_value mode ih]
    rfl

lemma RuleSet.verdict_eq_value (c : InboundContext) :
    s.verdict c {} = .ofBool (s.rules.any fun rule => rule.value c) :=
  Verdict.any_ofBool fun rule _ => rule.verdict_eq_value c

lemma RuleSetItem.outcome_eq_value :
    (RuleSetItem.outcome (r.groups c {}) c {} s).1 = .ofBool (s.valueWith r c) := by
  unfold RuleSetItem.outcome RuleSet.valueWith
  cases mergeableRuleIn s.rules with
  | some branch =>
    have hitems : branch.matchItems c {} = branch.itemsMatch c := rfl
    simp only [branch.not_defers, r.mergeWith_groups_done, hitems]
    cases branch.itemsMatch c <;> cases (r.mergeGroups branch).groupsMatch c <;> rfl
  | none =>
    simp only [r.groups_done, s.verdict_eq_value]
    cases r.groupsMatch c <;> simp [Verdict.ofBool]

/-- Without deferral the loop over the sets is a plain `any`. -/
theorem RuleSetItem.loopVerdict_ofBool (g : RuleGroupMatch) {outcomes : List (Verdict × Bool)}
    {values : List Bool} (h : outcomes.map Prod.fst = values.map Verdict.ofBool) :
    RuleSetItem.loopVerdict g false outcomes false = .ofBool (values.any id) := by
  induction outcomes generalizing values with
  | nil =>
    cases values with
    | nil => rfl
    | cons v values => simp at h
  | cons o outcomes ih =>
    obtain ⟨w, satisfies⟩ := o
    cases values with
    | nil => simp at h
    | cons v values =>
      simp only [map_cons, cons.injEq] at h
      obtain ⟨rfl, h⟩ := h
      cases v with
      | true => simp [Verdict.ofBool, RuleSetItem.loopVerdict]
      | false => simpa [Verdict.ofBool, RuleSetItem.loopVerdict] using ih h

/-- A reference without the two ip_cidr settings. -/
def RuleSetItem.Plain (item : RuleSetItem) : Prop :=
  item.ipCidrMatchSource = false ∧ item.ipCidrAcceptEmpty = false

instance (item : RuleSetItem) : Decidable item.Plain := inferInstanceAs (Decidable (_ ∧ _))

lemma RuleSetItem.verdict_eq_value {item : RuleSetItem} (h : item.Plain) (r : DefaultRule)
    (c : InboundContext) : item.verdict (r.groups c {}) (r.defers {}) c {} =
      .ofBool (item.setList.any (RuleSet.valueWith r c)) := by
  have houtcomes : (item.setList.map (RuleSetItem.outcome (r.groups c {}) c {})).map Prod.fst =
      (item.setList.map (RuleSet.valueWith r c)).map Verdict.ofBool := by
    simp [outcome_eq_value]
  rw [RuleSetItem.verdict, RuleSetItem.nestedFlags, h.1, h.2, r.not_defers,
    loopVerdict_ofBool _ houtcomes, List.any_map]
  rfl

variable {r : DefaultDNSRule}

section
variable (h : ∀ item ∈ r.ruleSetItem, item.Plain)
include h

lemma DefaultDNSRule.abstractVerdict_eq_value (c : InboundContext) :
    r.abstractVerdict c {} = .ofBool (r.abstractValue c) := by
  unfold DefaultDNSRule.abstractVerdict DefaultDNSRule.abstractValue
  cases hitem : r.ruleSetItem with
  | none => exact r.toDefaultRule.verdict_none_eq_value c
  | some item =>
    have hplain := verdict_eq_value (h item hitem) r.toDefaultRule c
    have hitems : r.matchItems c {} = r.itemsMatch c := rfl
    simp only [DefaultRule.verdict, DefaultRule.innerVerdict, DefaultRule.value, map_some,
      isNone_some, Bool.and_false, Bool.false_eq_true, if_false, getD_some, hplain,
      hitems, ← Verdict.ofBool_invertIf]
    cases r.itemsMatch c <;> simp [Verdict.ofBool]

lemma DefaultDNSRule.verdict_eq_value (c : InboundContext) :
    r.verdict c {} = .ofBool (r.value c) := by
  unfold DefaultDNSRule.verdict DefaultDNSRule.value
  cases r.matchResponse with
  | false => exact abstractVerdict_eq_value h c
  | true => cases r.boundResponse c <;> simp [abstractVerdict_eq_value h]

end

lemma Rule.verdict_eq_value {rule : Rule}
    (h : ∀ leaf ∈ rule.leaves, ∀ item ∈ leaf.ruleSetItem, item.Plain) (c : InboundContext) :
    rule.verdict c {} = .ofBool (rule.value c) := by
  induction rule using Rule.induct with
  | hd rule => exact DefaultDNSRule.verdict_eq_value (forall_leaves_default.mp h) c
  | hl mode rules invert ih =>
    rw [forall_leaves_logical] at h
    rw [Rule.verdict, Rule.value, verdicts_eq, values_eq, ← Verdict.ofBool_invertIf,
      ← logicalVerdict_eq_value mode fun rule hr => ih rule hr (h rule hr)]
    rfl

/-- **`Match` is the meaning of the rule.** On a fresh rule cache, and as long as
no reference asks for the source address or for empty responses, the threaded
evaluation of any rule tree gives its stateless value. -/
theorem Rule.match_eq_value (rule : Rule)
    (h : ∀ leaf ∈ rule.leaves, ∀ item ∈ leaf.ruleSetItem, item.Plain) (c : InboundContext) :
    (rule.match c .fresh).1 = rule.value c := by
  have hrun := (rule.match_computes c .fresh rfl).answer
  rw [hrun, show RuleCache.fresh.flags = {} from rfl, rule.verdict_eq_value h, Verdict.holds_ofBool]

/-- Neither a port nor a name: the name is in a set that is merged into its rule. -/
def notPortOrName : Rule :=
  .logical .or
    [.default { destinationPortItems := [.flow fun flow => flow.destinationPort == 53] }, .default
      { sourcePortItems := [.flow fun flow => flow.sourcePort == 0]
        ruleSetItem := some { setList := [⟨"names", [.default
          { destinationAddressItems := [.flow fun flow => flow.domain == "example.com"] }], {}⟩] } }]
    true

theorem Rule.match_eq_value_notPortOrName :
    (notPortOrName.match {} .fresh).1 = notPortOrName.value {} ∧ notPortOrName.value {} = true := by
  refine ⟨match_eq_value _ ?_ _, by decide⟩
  simp [notPortOrName, Rule.leaves, Rule.leavesOf, RuleSetItem.Plain]

end SingBox.Route
