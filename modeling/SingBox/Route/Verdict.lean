import SingBox.Lib.Kleene
import SingBox.Route.RuleSet

/-! A rule's verdict without the rule cache, and the theorem that `Match`
computes it. A match with deferred groups is the verdict `maybe`. -/

namespace SingBox.Route
open Dns Lib List Verdict

/-- The deferral a match leaves in the rule cache. -/
def deferredMask : Verdict → RuleMatchState
  | .maybe => .destination
  | _ => .none

variable (f : MatchFlags) (r : DefaultRule) (c : InboundContext) (m : RuleCache)

/-- The flags a rule nested in a logical rule is matched with. -/
def MatchFlags.reset : MatchFlags :=
  { f with ipCidrMatchSource := false, ipCidrAcceptEmpty := false }

variable (item : RuleSetItem)

/-- The flags the rules of a referenced set are matched with. -/
def RuleSetItem.nestedFlags (f : MatchFlags) : MatchFlags :=
  { f with
    ipCidrMatchSource := item.ipCidrMatchSource, ipCidrAcceptEmpty := item.ipCidrAcceptEmpty }

/-- The verdict of a rule-set item, from the outer groups and from whether the
outer rule itself defers. -/
abbrev ItemVerdict := RuleGroupMatch → Bool → InboundContext → MatchFlags → Verdict

variable (ruleSetItem : Option ItemVerdict)

def DefaultRule.innerVerdict (c : InboundContext) (f : MatchFlags) : Verdict :=
  if !r.matchItems c f then .no
  else match ruleSetItem with
    | some v => v (r.groups c f) (r.defers f) c f
    | none => if !(r.groups c f).done then .no else if r.defers f then .maybe else .yes

def DefaultRule.verdict (c : InboundContext) (f : MatchFlags) : Verdict :=
  if r.hasNoItem && ruleSetItem.isNone then .yes
  else (r.innerVerdict ruleSetItem c f).invertIf r.invert

def logicalVerdict : LogicalMode → List Verdict → Verdict
  | .and, vs => all vs
  | .or, vs => any vs

mutual

def HeadlessRule.verdict : HeadlessRule → InboundContext → MatchFlags → Verdict
  | .default rule, c, f => rule.verdict none c f
  | .logical mode rules invert, c, f =>
    (logicalVerdict mode (HeadlessRule.verdicts rules c f.reset)).invertIf invert

def HeadlessRule.verdicts : List HeadlessRule → InboundContext → MatchFlags → List Verdict
  | [], _, _ => []
  | rule :: rules, c, f => rule.verdict c f :: HeadlessRule.verdicts rules c f

end

lemma HeadlessRule.verdicts_eq (rules : List HeadlessRule) (c : InboundContext) (f : MatchFlags) :
    HeadlessRule.verdicts rules c f = rules.map fun rule => rule.verdict c f := by
  induction rules with
  | nil => rfl
  | cons rule rules ih => rw [HeadlessRule.verdicts, ih, map_cons]

def RuleSet.verdict (s : RuleSet) (c : InboundContext) (f : MatchFlags) : Verdict :=
  any (s.rules.map fun rule => rule.verdict c f)

namespace RuleSetItem

/-- The verdict of one referenced set, and whether its branch satisfies the
merged destination address group. -/
def outcome (g : RuleGroupMatch) (c : InboundContext) (f : MatchFlags) (s : RuleSet) :
    Verdict × Bool :=
  match mergeableRuleIn s.rules with
  | some branch =>
    let merged := g.mergeWith (branch.groups c f)
    if !branch.matchItems c f || !merged.done then (.no, false)
    else if branch.defers f && !merged.satisfied.destinationAddress then (.maybe, false)
    else (.yes, merged.satisfied.destinationAddress)
  | none => (if g.done then s.verdict c f else .no, false)

/-- The verdict of the whole reference. `defers` tells that the outer rule left
its own ip_cidr items out, `deferred` that an earlier set did. At the end of
the loop the outer rule's satisfied groups clear the deferral, also that of a
set that was not merged into them. -/
def loopVerdict (g : RuleGroupMatch) (defers : Bool) : List (Verdict × Bool) → Bool → Verdict
  | [], deferred =>
    if !deferred then .no else if g.satisfied.destinationAddress then .yes else .maybe
  | (.no, _) :: rest, deferred => loopVerdict g defers rest deferred
  | (.maybe, _) :: rest, _ => loopVerdict g defers rest true
  | (.yes, satisfies) :: _, _ =>
    if defers && !satisfies && !g.satisfied.destinationAddress then .maybe else .yes

def verdict (g : RuleGroupMatch) (defers : Bool) (c : InboundContext) (f : MatchFlags) : Verdict :=
  loopVerdict g defers (item.setList.map (outcome g c (item.nestedFlags f))) false

end RuleSetItem

def DefaultDNSRule.abstractVerdict (r : DefaultDNSRule) (c : InboundContext) (f : MatchFlags) :
    Verdict :=
  r.toDefaultRule.verdict (r.ruleSetItem.map RuleSetItem.verdict) c f

/-- A rule with match_response is matched on a copy, so its own deferral is
never seen. -/
def DefaultDNSRule.verdict (r : DefaultDNSRule) (c : InboundContext) (f : MatchFlags) : Verdict :=
  if r.matchResponse then
    match r.boundResponse c with
    | none => .ofBool r.invert
    | some response => .ofBool (r.abstractVerdict (c.withResponse (some response)) f).holds
  else
    r.abstractVerdict c f

mutual

def Rule.verdict : Rule → InboundContext → MatchFlags → Verdict
  | .default rule, c, f => rule.verdict c f
  | .logical mode rules invert, c, f =>
    (logicalVerdict mode (Rule.verdicts rules c f.reset)).invertIf invert

def Rule.verdicts : List Rule → InboundContext → MatchFlags → List Verdict
  | [], _, _ => []
  | rule :: rules, c, f => rule.verdict c f :: Rule.verdicts rules c f

end

lemma Rule.verdicts_eq (rules : List Rule) (c : InboundContext) (f : MatchFlags) :
    Rule.verdicts rules c f = rules.map fun rule => rule.verdict c f := by
  induction rules with
  | nil => rfl
  | cons rule rules ih => rw [Rule.verdicts, ih, map_cons]

/-! ## Bit masks -/

namespace RuleMatchState

variable (s : RuleMatchState)

@[simp] lemma none_union : none.union s = s := by
  simp [none, union]

@[simp] lemma union_none : s.union none = s := by
  simp [none, union]

@[simp] lemma none_clear : none.clear s = none := by
  simp [none, clear]

@[simp] lemma destination_ne_none : destination ≠ none := by decide

@[simp] lemma destination_union : destination.union destination = destination := by decide

lemma destination_clear :
    destination.clear s = if s.destinationAddress then none else destination := by
  cases h : s.destinationAddress <;> simp [destination, clear, none, h]

end RuleMatchState

@[simp] lemma deferredMask_no : deferredMask .no = .none := rfl
@[simp] lemma deferredMask_maybe : deferredMask .maybe = .destination := rfl
@[simp] lemma deferredMask_yes : deferredMask .yes = .none := rfl

@[simp] lemma RuleCache.resetRuleCache_flags : m.resetRuleCache.flags = m.flags.reset := rfl

variable (s : RuleMatchState) (tag : String)

@[simp] lemma RuleCache.setDeferred_flags : (m.setDeferred s).flags = m.flags := rfl

@[simp] lemma RuleCache.setDeferred_deferred :
    (m.setDeferred s).deferredIPCIDRMatchGroups = s := rfl

@[simp] lemma RuleCache.recordMatchedRuleSet_flags :
    (m.recordMatchedRuleSet tag).flags = m.flags := by
  unfold RuleCache.recordMatchedRuleSet; split <;> rfl

@[simp] lemma RuleCache.recordMatchedRuleSet_deferred :
    (m.recordMatchedRuleSet tag).deferredIPCIDRMatchGroups = m.deferredIPCIDRMatchGroups := by
  unfold RuleCache.recordMatchedRuleSet; split <;> rfl

@[simp] lemma restore_deferred (m₀ m : RuleCache) :
    ((snapshotRuleMatch m₀).restore m).deferredIPCIDRMatchGroups =
      m₀.deferredIPCIDRMatchGroups := rfl

/-- Restoring a snapshot brings all flags back as long as nobody touched the
third one. -/
theorem restore_flags {m₀ m : RuleCache}
    (h : m.flags.ignoreDestinationIPCIDRMatch = m₀.flags.ignoreDestinationIPCIDRMatch) :
    ((snapshotRuleMatch m₀).restore m).flags = m₀.flags := by
  simp [snapshotRuleMatch, RuleMatchSnapshot.restore, h]

@[simp] lemma RuleSetItem.prepareNestedMatch_flags (m : RuleCache) :
    (item.prepareNestedMatch m).flags = item.nestedFlags m.flags := rfl

/-! ## `Match` computes the verdict -/

/-- What a match leaves for its caller: the answer, the deferral of a match,
and the flags as they were. -/
structure Reports (v : Verdict) (m : RuleCache) (res : Bool × RuleCache) : Prop where
  answer : res.1 = v.holds
  deferred : res.1 = true → res.2.deferredIPCIDRMatchGroups = deferredMask v
  flags : res.2.flags = m.flags

/-- The matcher computes the verdict whenever it starts without a deferral. -/
def Computes (μ : Matcher) (v : InboundContext → MatchFlags → Verdict) : Prop :=
  ∀ c m, m.deferredIPCIDRMatchGroups = .none → Reports (v c m.flags) m (μ c m)

variable {f : MatchFlags}

lemma Computes.run {μ : Matcher} {v : InboundContext → MatchFlags → Verdict}
    (h : Computes μ v) (c : InboundContext) {m : RuleCache} (hf : m.flags = f)
    (hd : m.deferredIPCIDRMatchGroups = .none) : ∃ m', μ c m = ((v c f).holds, m') ∧ m'.flags = f ∧
      (v c f ≠ .no → m'.deferredIPCIDRMatchGroups = deferredMask (v c f)) := by
  obtain ⟨answer, deferred, flags⟩ := h c m hd
  subst hf
  refine ⟨(μ c m).2, Prod.ext answer rfl, flags, fun hv => deferred ?_⟩
  rw [answer]
  cases hw : v c m.flags <;> simp_all

lemma deferredMask_maybe_ne : deferredMask .maybe ≠ .none := by simp

/-- A deferred match beside what was found so far. -/
theorem or_maybe {a : Verdict} (ha : a ≠ .yes) : a.or .maybe ≠ .yes ∧
    (deferredMask a).union (deferredMask .maybe) = deferredMask (a.or .maybe) ∧
    true = (a.or .maybe).holds := by
  cases a <;> simp_all [Verdict.or]

section
variable {α : Type} {μ : α → Matcher} {v : α → InboundContext → MatchFlags → Verdict}
  (c : InboundContext) (rules : List α) (h : ∀ rule ∈ rules, Computes (μ rule) (v rule))
include h

/-- The loop of an `and` rule; `a` is the verdict of the rules already seen. -/
theorem logicalAnd_reports (f : MatchFlags) (a : Verdict) (tag : String) (m : RuleCache)
    (ha : a ≠ .no) (hf : m.flags.reset = f) : ∃ tag' m',
      let w := a.and (all (rules.map fun rule => v rule c f))
      logicalAnd c (rules.map μ) (deferredMask a) tag m = (⟨w.holds, deferredMask w, tag'⟩, m') ∧
      m'.flags.ignoreDestinationIPCIDRMatch = m.flags.ignoreDestinationIPCIDRMatch := by
  induction rules generalizing a tag m with
  | nil => exact ⟨tag, m, by cases a <;> simp_all [logicalAnd, Verdict.all], rfl⟩
  | cons rule rules ih =>
    obtain ⟨m', hres, flags, deferred⟩ :=
      (h rule mem_cons_self).run c (m := m.resetRuleCache) hf rfl
    have hi : m'.flags.ignoreDestinationIPCIDRMatch = m.flags.ignoreDestinationIPCIDRMatch := by
      rw [flags, ← hf]; rfl
    have hf' : m'.flags.reset = f := by rw [flags, ← hf]; rfl
    have next := ih fun r hr => h r (mem_cons_of_mem rule hr)
    simp only [map_cons, logicalAnd, hres, Verdict.all]
    cases hv : v rule c f with
    | no => exact ⟨tag, m', by simp, hi⟩
    | maybe =>
      have ha' : a.and .maybe ≠ .no := by cases a <;> simp_all [Verdict.and]
      have hm : (deferredMask a).union (deferredMask .maybe) = deferredMask (a.and .maybe) := by
        cases a <;> simp_all [Verdict.and]
      simp only [Verdict.holds_maybe, deferred (by simp [hv]), hv, hm, ← Verdict.and_assoc, ← hi]
      exact next _ _ m' ha' hf'
    | yes =>
      simp only [holds_yes, deferred (by simp [hv]), hv, deferredMask_yes,
        RuleMatchState.union_none, yes_and, ← hi]
      exact next a _ m' ha hf'

/-- The loop of an `or` rule, which a match without deferral leaves early. -/
theorem logicalOr_reports (f : MatchFlags) (a : Verdict) (tag : String) (m : RuleCache)
    (ha : a ≠ .yes) (hf : m.flags.reset = f) : ∃ tag' m',
      let w := a.or (any (rules.map fun rule => v rule c f))
      logicalOr c (rules.map μ) ⟨a.holds, deferredMask a, tag⟩ m =
        (⟨w.holds, deferredMask w, tag'⟩, m') ∧
      m'.flags.ignoreDestinationIPCIDRMatch = m.flags.ignoreDestinationIPCIDRMatch := by
  induction rules generalizing a tag m with
  | nil => exact ⟨tag, m, by simp [logicalOr, Verdict.any], rfl⟩
  | cons rule rules ih =>
    obtain ⟨m', hres, flags, deferred⟩ :=
      (h rule mem_cons_self).run c (m := m.resetRuleCache) hf rfl
    have hi : m'.flags.ignoreDestinationIPCIDRMatch = m.flags.ignoreDestinationIPCIDRMatch := by
      rw [flags, ← hf]; rfl
    have hf' : m'.flags.reset = f := by rw [flags, ← hf]; rfl
    have next := ih fun r hr => h r (mem_cons_of_mem rule hr)
    simp only [map_cons, logicalOr, hres, Verdict.any]
    cases hv : v rule c f with
    | no =>
      simp only [holds_no, no_or, ← hi]
      exact next a tag m' ha hf'
    | maybe =>
      obtain ⟨ha', hm, hh⟩ := or_maybe ha
      simp only [holds_maybe, deferred (by simp [hv]), hv, deferredMask_maybe_ne, if_false, hm,
        ← Verdict.or_assoc, ← hi]
      rw [hh]
      exact next _ _ m' ha' hf'
    | yes =>
      simp only [holds_yes, deferred (by simp [hv]), hv, deferredMask_yes, if_true, yes_or, or_yes]
      exact ⟨_, m', rfl, hi⟩

lemma logicalLoop_reports (mode : LogicalMode) (m : RuleCache) : ∃ tag m',
      let w := logicalVerdict mode (rules.map fun rule => v rule c m.flags.reset)
      logicalLoop mode (rules.map μ) c m = (⟨w.holds, deferredMask w, tag⟩, m') ∧
      m'.flags.ignoreDestinationIPCIDRMatch = m.flags.ignoreDestinationIPCIDRMatch := by
  cases mode with
  | and => simpa [logicalLoop, logicalVerdict] using
      logicalAnd_reports c rules h _ .yes "" m (by simp) rfl
  | or => simpa [logicalLoop, logicalVerdict] using
      logicalOr_reports c rules h _ .no "" m (by simp) rfl

lemma logicalMatch_computes (mode : LogicalMode) (invert : Bool) :
    Computes (logicalMatch mode (rules.map μ) invert) fun c f =>
      (logicalVerdict mode (rules.map fun rule => v rule c f.reset)).invertIf invert := by
  intro c m hd
  obtain ⟨tag, m', hloop, hi⟩ := logicalLoop_reports c rules h mode m
  have hflags := restore_flags hi
  simp only [logicalMatch, hloop]
  cases logicalVerdict mode (rules.map fun rule => v rule c m.flags.reset) <;> cases invert <;>
    constructor <;> simp [Verdict.invertIf, Verdict.not, hflags, hd]

/-- The loop over the rules of a set; `a` is the verdict so far. -/
theorem matchAnyLoop_reports (m₀ : RuleCache) (a : Verdict) (m : RuleCache)
    (h₀ : m₀.deferredIPCIDRMatchGroups = .none) (ha : a ≠ .yes) (hf : m.flags = m₀.flags) :
    Reports (a.or (any (rules.map fun rule => v rule c m₀.flags))) m₀
      (matchAnyLoop c (snapshotRuleMatch m₀) (rules.map μ) a.holds (deferredMask a) m) := by
  induction rules generalizing a m with
  | nil =>
    have hflags : ((snapshotRuleMatch m₀).restore m).flags = m₀.flags := restore_flags (by rw [hf])
    simp only [map_nil, matchAnyLoop, Verdict.any]
    cases a <;> constructor <;> simp_all
  | cons rule rules ih =>
    obtain ⟨m', hres, flags, deferred⟩ :=
      (h rule mem_cons_self).run c (m := m.resetRuleMatchCache) hf rfl
    have next := ih fun r hr => h r (mem_cons_of_mem rule hr)
    simp only [map_cons, matchAnyLoop, hres, Verdict.any]
    cases hv : v rule c m₀.flags with
    | no =>
      simp only [holds_no, no_or]
      exact next a m' ha flags
    | maybe =>
      obtain ⟨ha', hm, hh⟩ := or_maybe ha
      simp only [holds_maybe, deferred (by simp [hv]), hv, deferredMask_maybe_ne, if_false, hm,
        ← Verdict.or_assoc]
      rw [hh]
      exact next _ m' ha' flags
    | yes =>
      simp only [holds_yes, deferred (by simp [hv]), hv, deferredMask_yes, if_true, yes_or, or_yes]
      exact ⟨rfl, fun _ => by simp [h₀], restore_flags (by rw [flags])⟩

lemma matchAnyHeadlessRule_computes : Computes (matchAnyHeadlessRule (rules.map μ)) fun c f =>
    any (rules.map fun rule => v rule c f) := by
  intro c m hd
  simpa [matchAnyHeadlessRule] using matchAnyLoop_reports c rules h m .no m hd (by simp) rfl

end

/-! ## Default rules -/

lemma evaluateGroups_deferred {m : RuleCache} (hd : m.deferredIPCIDRMatchGroups = .none) :
    (r.evaluateGroups c m).2.deferredIPCIDRMatchGroups =
      if r.defers m.flags then .destination else .none := by
  unfold DefaultRule.evaluateGroups
  cases r.defers m.flags <;> simp [hd]

@[simp] lemma evaluateGroups_flags : (r.evaluateGroups c m).2.flags = m.flags := by
  unfold DefaultRule.evaluateGroups
  cases r.defers m.flags <;> rfl

/-- A rule that defers has no item that could satisfy the destination address
group before the lookup. -/
theorem defers_not_satisfied {r : DefaultRule} (h : r.defers f)
    (c : InboundContext) : (r.groups c f).satisfied.destinationAddress = false := by
  simp only [DefaultRule.defers, Bool.and_eq_true, List.isEmpty_iff] at h
  simp [DefaultRule.groups, DefaultRule.destinationIPCIDRMatchesDestination, matchAnyItem, h.2,
    h.1.1.1]

/-- What the rule-set item leaves for `matchInner`: its satisfied groups are
still to be cleared. -/
structure ItemReports (g : RuleGroupMatch) (v : Verdict) (m : RuleCache)
    (res : Bool × RuleCache) : Prop where
  answer : res.1 = v.holds
  deferred : res.1 = true → res.2.deferredIPCIDRMatchGroups.clear g.satisfied = deferredMask v
  flags : res.2.flags = m.flags

/-- The rule-set item computes the verdict, starting with the deferral of the
outer rule. -/
def ItemComputes (μ : RuleGroupMatch → Matcher) (v : ItemVerdict) : Prop :=
  ∀ g defers c m, m.deferredIPCIDRMatchGroups = (if defers then .destination else .none) →
    ItemReports g (v g defers c m.flags) m (μ g c m)

lemma DefaultRule.matchInner_none_computes :
    Computes (r.matchInner none) (r.innerVerdict none) := by
  intro c m hd
  have hdef := evaluateGroups_deferred r c hd
  have hfl := evaluateGroups_flags r c m
  have hg : (r.evaluateGroups c m).1 = r.groups c m.flags := rfl
  simp only [matchInner, innerVerdict, hfl, hg]
  cases r.matchItems c m.flags with
  | false => exact ⟨rfl, by simp, hfl⟩
  | true =>
    cases (r.groups c m.flags).done with
    | false => exact ⟨rfl, by simp, hfl⟩
    | true =>
      cases hdf : r.defers m.flags with
      | false => exact ⟨rfl, fun _ => by simp [hdef, hdf], hfl⟩
      | true =>
        refine ⟨rfl, fun _ => ?_, hfl⟩
        simp [hdef, hdf, RuleMatchState.destination_clear, defers_not_satisfied hdf c]

lemma DefaultRule.matchInner_some_computes {μ : RuleGroupMatch → Matcher} {v : ItemVerdict}
    (h : ItemComputes μ v) : Computes (r.matchInner (some μ)) (r.innerVerdict (some v)) := by
  intro c m hd
  have hdef := evaluateGroups_deferred r c hd
  have hfl := evaluateGroups_flags r c m
  have hg : (r.evaluateGroups c m).1 = r.groups c m.flags := rfl
  obtain ⟨answer, deferred, flags⟩ := h (r.groups c m.flags) (r.defers m.flags) c _ hdef
  rw [hfl] at answer deferred flags
  simp only [matchInner, innerVerdict, hfl, hg]
  cases r.matchItems c m.flags with
  | false => exact ⟨rfl, by simp, hfl⟩
  | true =>
    simp only [answer] at deferred ⊢
    cases hv : (v (r.groups c m.flags) (r.defers m.flags) c m.flags).holds with
    | false => exact ⟨by simp [hv], by simp, flags⟩
    | true => exact ⟨by simp [hv], fun _ => by simpa using deferred hv, flags⟩

/-- Inverting a match keeps a deferral and decides everything else. -/
theorem DefaultRule.match_computes {μ : Option (RuleGroupMatch → Matcher)}
    {v : Option ItemVerdict} (hnone : μ.isNone = v.isNone)
    (h : Computes (r.matchInner μ) (r.innerVerdict v)) : Computes (r.match μ) (r.verdict v) := by
  intro c m hd
  obtain ⟨m', hres, flags, deferred⟩ := h.run c rfl hd
  simp only [«match», verdict, hnone]
  split
  · exact ⟨rfl, fun _ => hd, rfl⟩
  · simp only [hres]
    cases hv : r.innerVerdict v c m.flags <;> cases r.invert <;>
      constructor <;> simp_all [Verdict.invertIf, Verdict.not]

lemma HeadlessRule.match_computes (rule : HeadlessRule) : Computes rule.match rule.verdict := by
  induction rule using HeadlessRule.induct with
  | hd rule =>
    have h := rule.match_computes rfl rule.matchInner_none_computes
    intro c m hd
    rw [HeadlessRule.match, HeadlessRule.verdict]
    exact h c m hd
  | hl mode rules invert ih =>
    have h := logicalMatch_computes rules ih mode invert
    intro c m hd
    rw [HeadlessRule.match, HeadlessRule.verdict, HeadlessRule.matchers_eq,
      HeadlessRule.verdicts_eq]
    exact h c m hd

lemma RuleSet.match_computes (s : RuleSet) : Computes s.match s.verdict :=
  matchAnyHeadlessRule_computes s.rules fun rule _ => rule.match_computes

/-! ## Rule-set references -/

lemma evaluateForMerge_eq : r.evaluateForMerge c m =
      (if r.matchItems c m.flags then some (r.groups c m.flags) else none,
        (r.evaluateGroups c m).2) := by
  simp only [DefaultRule.evaluateForMerge, evaluateGroups_flags]
  split <;> rfl

lemma clear_deferral (defers : Bool) (s : RuleMatchState) :
    (if defers then RuleMatchState.destination else .none).clear s =
      if defers && !s.destinationAddress then .destination else .none := by
  cases defers <;> cases h : s.destinationAddress <;> simp [RuleMatchState.destination_clear, h]

lemma RuleSetLoop.defer_eq (deferred : Bool) (tag : String) (s : RuleSet) :
    ∃ tag', (RuleSetLoop.mk deferred (if deferred then .destination else .none) tag).defer s
      .destination = ⟨true, if true then .destination else .none, tag'⟩ :=
  ⟨_, by cases deferred <;> simp only [RuleSetLoop.defer] <;> rfl⟩

namespace RuleSetItem

/-- The loop over the sets reports their verdict; `deferred` tells that a set
before matched with a deferral. -/
def LoopReports (g : RuleGroupMatch) (defers : Bool) (c : InboundContext)
    (m₀ : RuleCache) (sets : List RuleSet) : Prop :=
  ∀ (deferred : Bool) (tag : String) (m : RuleCache),
    m.flags.ignoreDestinationIPCIDRMatch = m₀.flags.ignoreDestinationIPCIDRMatch →
    ItemReports g
      (loopVerdict g defers (sets.map (outcome g c (item.nestedFlags m₀.flags))) deferred) m₀
      (item.matchLoop g c (snapshotRuleMatch m₀) sets
        ⟨deferred, if deferred then .destination else .none, tag⟩ m)

section
variable {item : RuleSetItem} {g : RuleGroupMatch} {defers : Bool} {c : InboundContext}
  {m₀ m : RuleCache} {s : RuleSet} {sets : List RuleSet}

lemma prepareNestedMatch_nestedFlags
    (hf : m.flags.ignoreDestinationIPCIDRMatch = m₀.flags.ignoreDestinationIPCIDRMatch) :
    (item.prepareNestedMatch m).flags = item.nestedFlags m₀.flags := by
  simp [nestedFlags, hf]

/-- What a set leaves in the cache does not bear on the sets that follow. -/
theorem LoopReports.nested (h : LoopReports item g defers c m₀ sets) (deferred : Bool)
    (tag : String) (hf : m.flags = item.nestedFlags m₀.flags) : ItemReports g
      (loopVerdict g defers (sets.map (outcome g c (item.nestedFlags m₀.flags))) deferred) m₀
      (item.matchLoop g c (snapshotRuleMatch m₀) sets
        ⟨deferred, if deferred then .destination else .none, tag⟩ m) := by
  apply h deferred tag m
  rw [hf]
  rfl

lemma restore_nestedFlags (hf : m.flags = item.nestedFlags m₀.flags) :
    ((snapshotRuleMatch m₀).restore m).flags = m₀.flags := by
  apply restore_flags
  rw [hf]
  rfl

variable (h₀ : m₀.deferredIPCIDRMatchGroups = if defers then .destination else .none)
include h₀

lemma loopReports_nil : LoopReports item g defers c m₀ [] := by
  intro deferred tag m hf
  have hfl := restore_flags hf
  simp only [map_nil, loopVerdict, matchLoop]
  cases deferred with
  | false => exact ⟨rfl, by simp, hfl⟩
  | true =>
    refine ⟨by cases g.satisfied.destinationAddress <;> rfl, fun _ => ?_, by simpa using hfl⟩
    have hu : m₀.deferredIPCIDRMatchGroups.union .destination = .destination := by
      cases defers <;> simp [h₀]
    cases hs : g.satisfied.destinationAddress <;>
      simp [hu, RuleMatchState.destination_clear, hs]

/-- A set that is merged into the rule ends the loop when the merged groups match
without a deferral. -/
theorem LoopReports.cons_merged {branch : DefaultRule}
    (hbranch : mergeableRuleIn s.rules = some branch) (h : LoopReports item g defers c m₀ sets) :
    LoopReports item g defers c m₀ (s :: sets) := by
  intro deferred tag m hf
  have hn : (item.prepareNestedMatch m).flags = item.nestedFlags m₀.flags :=
    prepareNestedMatch_nestedFlags hf
  have hd : (item.prepareNestedMatch m).deferredIPCIDRMatchGroups = .none := rfl
  simp only [map_cons, matchLoop, outcome, hbranch]
  generalize item.prepareNestedMatch m = m₁ at hn hd
  have hdef := evaluateGroups_deferred branch c hd
  have hfl := evaluateGroups_flags branch c m₁
  rw [hn] at hdef hfl
  simp only [evaluateForMerge_eq, hn]
  generalize (branch.evaluateGroups c m₁).2 = m₂ at hdef hfl
  cases branch.matchItems c (item.nestedFlags m₀.flags) with
  | false => exact h.nested deferred tag hfl
  | true =>
    simp only [↓reduceIte, Bool.not_true, Bool.false_or]
    generalize g.mergeWith (branch.groups c (item.nestedFlags m₀.flags)) = merged
    cases hdone : merged.done with
    | false => simpa [hdone, loopVerdict] using h.nested deferred tag hfl
    | true =>
      simp only [hdef, clear_deferral, ↓reduceIte, Bool.not_true, Bool.false_eq_true]
      cases hb : branch.defers (item.nestedFlags m₀.flags) &&
          !merged.satisfied.destinationAddress with
      | true =>
        obtain ⟨tag', htag⟩ := RuleSetLoop.defer_eq deferred tag s
        simpa [loopVerdict, htag] using h.nested true tag' hfl
      | false =>
        have hr := restore_nestedFlags hfl
        simp only [Bool.false_eq_true, ↓reduceIte, loopVerdict]
        refine ⟨by split <;> rfl, fun _ => ?_, by simpa using hr⟩
        simp only [h₀, RuleCache.setDeferred_deferred, RuleCache.recordMatchedRuleSet_deferred,
          restore_deferred, clear_deferral]
        cases defers <;> cases merged.satisfied.destinationAddress <;>
          cases g.satisfied.destinationAddress <;> rfl

/-- A set that is matched on its own ends the loop when it matches without a
deferral. -/
theorem LoopReports.cons_nested (hbranch : mergeableRuleIn s.rules = none)
    (h : LoopReports item g defers c m₀ sets) : LoopReports item g defers c m₀ (s :: sets) := by
  intro deferred tag m hf
  have hn : (item.prepareNestedMatch m).flags = item.nestedFlags m₀.flags :=
    prepareNestedMatch_nestedFlags hf
  have hd : (item.prepareNestedMatch m).deferredIPCIDRMatchGroups = .none := rfl
  simp only [map_cons, matchLoop, outcome, hbranch]
  generalize item.prepareNestedMatch m = m₁ at hn hd
  cases hdone : g.done with
  | false => simpa [hdone, loopVerdict] using h.nested deferred tag hn
  | true =>
    obtain ⟨m', hres, hfl, hdef⟩ := s.match_computes.run c hn hd
    simp only [if_true, hres]
    cases hv : s.verdict c (item.nestedFlags m₀.flags) with
    | no => exact h.nested deferred tag hfl
    | maybe =>
      obtain ⟨tag', htag⟩ := RuleSetLoop.defer_eq deferred tag s
      simp only [holds_maybe, hdef (by simp [hv]), hv, deferredMask_maybe_ne, if_false]
      simpa [loopVerdict, htag] using h.nested true tag' hfl
    | yes =>
      have hr := restore_nestedFlags hfl
      simp only [holds_yes, hdef (by simp [hv]), hv, deferredMask_yes, if_true]
      simp only [loopVerdict]
      refine ⟨by split <;> rfl, fun _ => ?_, by simpa using hr⟩
      simp only [h₀, RuleCache.recordMatchedRuleSet_deferred, restore_deferred, clear_deferral]
      cases defers <;> cases g.satisfied.destinationAddress <;> rfl

lemma matchLoop_reports : LoopReports item g defers c m₀ sets := by
  induction sets with
  | nil => exact loopReports_nil h₀
  | cons s sets ih =>
    cases hbranch : mergeableRuleIn s.rules with
    | some branch => exact ih.cons_merged h₀ hbranch
    | none => exact ih.cons_nested h₀ hbranch

end

lemma matchWithOuterGroups_computes : ItemComputes item.matchWithOuterGroups item.verdict := by
  intro g defers c m hd
  exact matchLoop_reports hd false "" m rfl

end RuleSetItem

lemma DefaultDNSRule.abstractMatch_computes (r : DefaultDNSRule) :
    Computes r.abstractMatch r.abstractVerdict := by
  have h : Computes (r.toDefaultRule.matchInner (r.ruleSetItem.map
      RuleSetItem.matchWithOuterGroups))
      (r.toDefaultRule.innerVerdict (r.ruleSetItem.map RuleSetItem.verdict)) := by
    cases r.ruleSetItem with
    | none => exact r.matchInner_none_computes
    | some item => exact r.matchInner_some_computes item.matchWithOuterGroups_computes
  exact r.toDefaultRule.match_computes (by simp) h

lemma DefaultDNSRule.matchForMatch_computes (r : DefaultDNSRule) :
    Computes r.matchForMatch r.verdict := by
  intro c m hd
  unfold DefaultDNSRule.matchForMatch DefaultDNSRule.verdict
  split
  · cases r.boundResponse c with
    | none => exact ⟨by simp, fun h => by cases hi : r.invert <;> simp_all [ofBool], rfl⟩
    | some response =>
      have h := (r.abstractMatch_computes (c.withResponse (some response)) m hd).answer
      refine ⟨by simpa using h, fun hm => ?_, rfl⟩
      simp only [h] at hm
      simp [hm, hd, ofBool]
  · exact r.abstractMatch_computes c m hd

/-- **Every rule computes its verdict.** -/
theorem Rule.match_computes (rule : Rule) : Computes rule.match rule.verdict := by
  induction rule using Rule.induct with
  | hd rule =>
    intro c m hd
    rw [Rule.match, Rule.verdict]
    exact rule.matchForMatch_computes c m hd
  | hl mode rules invert ih =>
    have h := logicalMatch_computes rules ih mode invert
    intro c m hd
    rw [Rule.match, Rule.verdict, Rule.matchers_eq, Rule.verdicts_eq]
    exact h c m hd

end SingBox.Route
