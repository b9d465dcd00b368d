import SingBox.Route.Context

/-! Default and logical rules: the evaluation that every route, DNS and
headless rule shares. -/

namespace SingBox.Route
open Dns

/-- `ruleGroupMatch`: the groups a rule has items for, and those with a match. -/
structure RuleGroupMatch where
  required : RuleMatchState := .none
  satisfied : RuleMatchState := .none
  deriving DecidableEq

def RuleGroupMatch.done (g : RuleGroupMatch) : Bool := g.required.clear g.satisfied == .none

def RuleGroupMatch.mergeWith (g other : RuleGroupMatch) : RuleGroupMatch :=
  ⟨g.required.union other.required, g.satisfied.union other.satisfied⟩

/-- `Match`: the answer, and the rule cache it leaves behind. -/
abbrev Matcher := InboundContext → RuleCache → Bool × RuleCache

structure DefaultRule where
  items : List RuleItem := []
  sourceAddressItems : List RuleItem := []
  sourcePortItems : List RuleItem := []
  destinationAddressItems : List RuleItem := []
  destinationIPCIDRItems : List RuleItem := []
  destinationPortItems : List RuleItem := []
  invert : Bool := false

/-- The items outside the destination ip_cidr list. -/
def DefaultRule.plainItems (r : DefaultRule) : List RuleItem :=
  r.items ++ r.sourceAddressItems ++ r.sourcePortItems ++ r.destinationAddressItems ++
  r.destinationPortItems

def matchAnyItem (items : List RuleItem) (c : InboundContext) (f : MatchFlags) : Bool :=
  items.any fun it => it.match c f

namespace DefaultRule

variable (r : DefaultRule) (f : MatchFlags) (c : InboundContext)

/-- `allItems` is empty, apart from a rule-set item. -/
def hasNoItem : Bool :=
  r.items.isEmpty && r.sourceAddressItems.isEmpty && r.sourcePortItems.isEmpty &&
  r.destinationAddressItems.isEmpty && r.destinationIPCIDRItems.isEmpty &&
  r.destinationPortItems.isEmpty

def destinationIPCIDRMatchesSource : Bool :=
  f.ipCidrMatchSource && !r.destinationIPCIDRItems.isEmpty

def destinationIPCIDRMatchesDestination : Bool :=
  !f.ignoreDestinationIPCIDRMatch && !f.ipCidrMatchSource && !r.destinationIPCIDRItems.isEmpty

/-- The groups `evaluateGroups` returns. An ip_cidr item belongs to the source
address group of a rule-set that matches the source, and else to the
destination address group. -/
def groups (f : MatchFlags) : RuleGroupMatch where
  required :=
    { sourceAddress := !r.sourceAddressItems.isEmpty || r.destinationIPCIDRMatchesSource f
      sourcePort := !r.sourcePortItems.isEmpty
      destinationAddress :=
        !r.destinationAddressItems.isEmpty || r.destinationIPCIDRMatchesDestination f
      destinationPort := !r.destinationPortItems.isEmpty }
  satisfied :=
    { sourceAddress := matchAnyItem r.sourceAddressItems c f ||
        r.destinationIPCIDRMatchesSource f && matchAnyItem r.destinationIPCIDRItems c f
      sourcePort := matchAnyItem r.sourcePortItems c f
      destinationAddress := matchAnyItem r.destinationAddressItems c f ||
        r.destinationIPCIDRMatchesDestination f && matchAnyItem r.destinationIPCIDRItems c f
      destinationPort := matchAnyItem r.destinationPortItems c f }

/-- The rule leaves its destination ip_cidr items to the response check. -/
def defers : Bool :=
  f.ignoreDestinationIPCIDRMatch && !f.ipCidrMatchSource && !r.destinationIPCIDRItems.isEmpty &&
  r.destinationAddressItems.isEmpty

def evaluateGroups (m : RuleCache) : RuleGroupMatch × RuleCache :=
  (r.groups c m.flags,
    if r.defers m.flags then m.setDeferred (m.deferredIPCIDRMatchGroups.union .destination) else m)

def matchItems (f : MatchFlags) : Bool := r.items.all fun it => it.match c f

variable (ruleSetItem : Option (RuleGroupMatch → Matcher))

/-- `matchInner`; `ruleSetItem` is the rule-set item's `matchWithOuterGroups`. -/
def matchInner : Matcher :=
  fun c m =>
    let (groups, m) := r.evaluateGroups c m
    if !r.matchItems c m.flags then
      (false, m)
    else
      let (matched, m) := match ruleSetItem with
        | some matchWithOuterGroups => matchWithOuterGroups groups c m
        | none => (groups.done, m)
      if matched then
        (true, m.setDeferred (m.deferredIPCIDRMatchGroups.clear groups.satisfied))
      else
        (false, m)

/-- `abstractDefaultRule.Match`. An inverted rule whose match is deferred may
still fail, so its inversion may still hold. -/
def «match» : Matcher :=
  fun c m =>
    if r.hasNoItem && ruleSetItem.isNone then
      (true, m)
    else
      let (matched, m) := r.matchInner ruleSetItem c m
      if r.invert then
        if !matched then
          (true, m.setDeferred .none)
        else
          (m.deferredIPCIDRMatchGroups != .none, m)
      else
        (matched, m)

/-- `evaluateForMerge`: nothing when an item of the rule fails. -/
def evaluateForMerge (m : RuleCache) : Option RuleGroupMatch × RuleCache :=
  let (groups, m) := r.evaluateGroups c m
  if r.matchItems c m.flags then (some groups, m) else (none, m)

end DefaultRule

inductive LogicalMode
  | and
  | or
  deriving DecidableEq

/-- The variables of the loop in `abstractLogicalRule.Match`. -/
structure LogicalLoop where
  matched : Bool
  deferredGroups : RuleMatchState
  nestedTag : String

def logicalAnd (c : InboundContext) :
    List Matcher → RuleMatchState → String → RuleCache → LogicalLoop × RuleCache
  | [], deferredGroups, nestedTag, m => (⟨true, deferredGroups, nestedTag⟩, m)
  | rule :: rules, deferredGroups, nestedTag, m =>
    match rule c m.resetRuleCache with
    | (false, m) => (⟨false, .none, nestedTag⟩, m)
    | (true, m) =>
      logicalAnd c rules (deferredGroups.union m.deferredIPCIDRMatchGroups)
        (if nestedTag = "" then m.matchedRuleSetTag else nestedTag) m

def logicalOr (c : InboundContext) :
    List Matcher → LogicalLoop → RuleCache → LogicalLoop × RuleCache
  | [], loop, m => (loop, m)
  | rule :: rules, loop, m =>
    match rule c m.resetRuleCache with
    | (false, m) => logicalOr c rules loop m
    | (true, m) =>
      let nestedTag := if loop.nestedTag = "" then m.matchedRuleSetTag else loop.nestedTag
      if m.deferredIPCIDRMatchGroups = .none then
        (⟨true, .none, nestedTag⟩, m)
      else
        logicalOr c rules
          ⟨true, loop.deferredGroups.union m.deferredIPCIDRMatchGroups, nestedTag⟩ m

def logicalLoop (mode : LogicalMode) (rules : List Matcher) (c : InboundContext) (m : RuleCache) :
    LogicalLoop × RuleCache :=
  match mode with
  | .and => logicalAnd c rules .none "" m
  | .or => logicalOr c rules ⟨false, .none, ""⟩ m

/-- `abstractLogicalRule.Match` over the `Match` functions of its rules. -/
def logicalMatch (mode : LogicalMode) (rules : List Matcher) (invert : Bool) : Matcher :=
  fun c m =>
    let snapshot := snapshotRuleMatch m
    let (loop, m) := logicalLoop mode rules c m
    let m := (snapshot.restore m).recordMatchedRuleSet loop.nestedTag
    let m := if loop.matched then
        m.setDeferred (m.deferredIPCIDRMatchGroups.union loop.deferredGroups)
      else m
    if invert then
      (!loop.matched || loop.deferredGroups != .none, m)
    else
      (loop.matched, m)

/-- `adapter.HeadlessRule`: the rules of a rule-set, which refer to no other
rule-set. -/
inductive HeadlessRule
  | default (rule : DefaultRule)
  | logical (mode : LogicalMode) (rules : List HeadlessRule) (invert : Bool)

mutual

def HeadlessRule.match : HeadlessRule → Matcher
  | .default rule => rule.match none
  | .logical mode rules invert => logicalMatch mode (HeadlessRule.matchers rules) invert

def HeadlessRule.matchers : List HeadlessRule → List Matcher
  | [] => []
  | rule :: rules => rule.match :: HeadlessRule.matchers rules

end

lemma HeadlessRule.matchers_eq (rules : List HeadlessRule) :
    HeadlessRule.matchers rules = rules.map HeadlessRule.match := by
  induction rules with
  | nil => rfl
  | cons rule rules ih => rw [HeadlessRule.matchers, ih, List.map_cons]

/-- Induction over a headless rule: every rule of a logical rule first. -/
theorem HeadlessRule.induct {P : HeadlessRule → Prop} (hd : ∀ rule, P (.default rule))
    (hl : ∀ mode rules invert, (∀ rule ∈ rules, P rule) → P (.logical mode rules invert)) :
    ∀ rule, P rule := by
  refine @HeadlessRule.rec P (fun rules => ∀ rule ∈ rules, P rule) hd hl (by simp) ?_
  intro rule rules ih ihs r hr
  obtain rfl | hr := List.mem_cons.mp hr
  · exact ih
  · exact ihs r hr

end SingBox.Route
