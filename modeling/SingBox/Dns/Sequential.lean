import SingBox.Dns.Responses
import SingBox.Route.Locality

/-! Without race rules the walk decides as if it made every exchange on the spot. -/

namespace SingBox.Dns
open Route Function List Option Nat
open Relation.ReflTransGen (refl)

/-- The rule-sets a rule refers to hold what they were loaded with. -/
def DNSRule.Loaded (r : DNSRule) : Prop :=
  ∀ leaf ∈ r.rule.leaves, ∀ ref ∈ leaf.ruleSetItem, ∀ s ∈ ref.setList,
    ∃ tag events, s = RuleSet.run tag events

/-- What the reference interpreter has read so far. -/
structure SequentialState where
  options : DNSQueryOptions
  anonymous : Option (DNSTransport × Option Msg) := none
  responses : String → Option Msg := fun _ => none
  transports : String → Option DNSTransport := fun _ => none

inductive SequentialStep
  | next (q : SequentialState)
  | done (d : Call.Decision)

namespace Call

/-! ## The reference interpreter -/

section
variable (e : Call)

def sequentialContext (q : SequentialState) : InboundContext :=
  { e.metadata with
    dnsResponse := q.anonymous.bind Prod.snd
    namedDNSResponses := q.responses
    destinationAddressMatchFromResponse := false }

/-- An evaluate action makes its exchange and keeps the outcome. -/
def sequentialEvaluate (i : Nat) (q : SequentialState) (tag : String) (transport : DNSTransport)
    (options : DNSRouteOptions) : SequentialState :=
  let outcome := e.outcome i transport
    (e.transports.finalizeExchangeOptions (applyDNSRouteOptions q.options options))
  if tag = "" then { q with anonymous := some (transport, outcome.toOption) }
  else { q with
    responses := update q.responses tag outcome.toOption
    transports := update q.transports tag (some transport) }

def sequentialRespond (q : SequentialState) (tag : String) : ExchangeResult :=
  if tag ≠ "" then
    match q.responses tag with
    | none => respondMissing
    | some response => { response := some response, transport := q.transports tag }
  else
    match q.anonymous with
    | some (transport, some response) => { response := some response, transport := some transport }
    | _ => respondMissing

/-- The action of rule `i`, which matches. -/
def sequentialAct (r : DNSRule) (i : Nat) (q : SequentialState) : SequentialStep :=
  match r.action with
  | .routeOptions options => .next { q with options := applyDNSRouteOptions q.options options }
  | .evaluate server tag options _ =>
    match e.transports.transport server with
    | none => .next (if tag = "" then { q with anonymous := none } else q)
    | some transport => .next (e.sequentialEvaluate i q tag transport options)
  | .respond => .done (.result (sequentialRespond q r.matchResponseTag))
  | .route server options _ =>
    match e.transports.resolveDNSRoute server options e.allowFakeIP q.options with
    | .resolved transport options => .done (.exchange transport options)
    | _ => .next q
  | .reject method =>
    match e.rejectResult method with
    | some result => .done (.result result)
    | none => .next q
  | .predefined response => .done (.result { response := some (response e.message) })

def sequentialRule (r : DNSRule) (i : Nat) (q : SequentialState) : SequentialStep :=
  if (r.rule.match (e.sequentialContext q) .fresh).1 then e.sequentialAct r i q else .next q

/-- The reference interpreter: the rules in order, each exchange where it is asked
for. -/
def sequential : List DNSRule → Nat → SequentialState → Decision
  | [], _, q => .exchange e.transports.default q.options
  | r :: rules, i, q =>
    match e.sequentialRule r i q with
    | .next q => sequential rules (i + 1) q
    | .done d => d

end

/-! ## The walk against the interpreter -/

variable {e : Call} {rules : List DNSRule} {s t : WalkState} {r : DNSRule}

/-- What the interpreter has read at a state of the walk: every launched exchange
counts as made. -/
def inOrder (e : Call) (s : WalkState) : SequentialState where
  options := s.effectiveOptions
  anonymous := s.anonymousFuture.map fun f => (f.transport, (e.outcomeOf f).toOption)
  responses tag := (s.namedFutures tag).bind fun f => (e.outcomeOf f).toOption
  transports tag := (s.namedFutures tag).map Future.transport

lemma inOrder_settleDNSFutures (e : Call) (s : WalkState) :
    e.inOrder (e.settleDNSFutures s) = e.inOrder s := by
  simp [inOrder]

lemma inOrder_evaluate (e : Call) (s : WalkState) (tag : String) (transport : DNSTransport)
    (options : DNSRouteOptions) : e.inOrder (e.evaluate s tag transport options) =
      e.sequentialEvaluate s.ruleIndex (e.inOrder s) tag transport options := by
  unfold evaluate sequentialEvaluate
  split
  · rfl
  · have hresps : (fun used => (update s.namedFutures tag (some (e.newFuture s tag false
        transport (applyDNSRouteOptions s.effectiveOptions options))) used).bind fun f =>
        (e.outcomeOf f).toOption) = update (e.inOrder s).responses tag
        (e.outcome s.ruleIndex transport (e.transports.finalizeExchangeOptions
          (applyDNSRouteOptions s.effectiveOptions options))).toOption := by
      funext used
      by_cases hused : used = tag
      · subst hused
        simp [outcomeOf, newFuture]
      · simp [update_of_ne hused, inOrder]
    have htrans : (fun used => (update s.namedFutures tag (some (e.newFuture s tag
        false transport (applyDNSRouteOptions s.effectiveOptions options))) used).map
        Future.transport) = update (e.inOrder s).transports tag (some transport) := by
      funext used
      by_cases hused : used = tag
      · subst hused
        simp [newFuture]
      · simp [update_of_ne hused, inOrder]
    simp only [inOrder] at hresps htrans ⊢
    rw [hresps, htrans]

/-- The responses a rule is bound to are those the interpreter has read. -/
structure Informed (e : Call) (r : DNSRule) (s : WalkState) : Prop where
  anonymous : r.matchResponseAnonymous = true → ∀ f, s.anonymousFuture = some f →
    e.resolved s.now f = true
  named : ∀ tag ∈ r.matchResponseTags, s.namedResponses tag = (e.inOrder s).responses tag
  transports : ∀ tag ∈ r.matchResponseTags, s.namedResponses tag ≠ none →
    s.namedTransports tag = (e.inOrder s).transports tag

/-- The outcome of a rule against what the interpreter does with it. -/
inductive Follows (e : Call) (s : WalkState) (step : SequentialStep) : Outcome → Prop
  | next (t : WalkState) (h : step = .next (e.inOrder t)) : Follows e s step (.next t)
  | await (t : WalkState) (f : Future) (hsame : e.inOrder t = e.inOrder s)
      (hindex : t.ruleIndex = s.ruleIndex) : Follows e s step (.suspended t (.await f))
  | done (t : WalkState) (result : ExchangeResult) (h : step = .done (.result result)) :
      Follows e s step (.done t result)
  | pending (t : WalkState) (transport : DNSTransport) (options : DNSQueryOptions)
      (h : step = .done (.exchange transport options)) :
      Follows e s step (.suspended t (.pending (.exchange transport options)))

lemma Follows.of_same {step : SequentialStep} {outcome : Outcome}
    (hsame : e.inOrder t = e.inOrder s) (hindex : t.ruleIndex = s.ruleIndex)
    (h : Follows e t step outcome) : Follows e s step outcome := by
  cases h with
  | next u h => exact .next u h
  | await u f hu hindex' => exact .await u f (hu.trans hsame) (hindex'.trans hindex)
  | done u result h => exact .done u result h
  | pending u transport options h => exact .pending u transport options h

lemma mem_matchResponseTags_of_tag (htag : r.matchResponseTag ≠ "") :
    r.matchResponseTag ∈ r.matchResponseTags := by
  unfold DNSRule.matchResponseTag at htag ⊢
  unfold DNSRule.matchResponseTags
  split at htag
  · rename_i rule hrule
    rw [hrule, matchResponseTags, defaultMatchResponseTags, if_neg htag]
    exact mem_singleton_self _
  · exact absurd rfl htag

lemma follows_respond (h : Informed e r s) (hvalid : r.Valid) (hact : r.action = .respond) :
    Follows e s (.done (.result (sequentialRespond (e.inOrder s) r.matchResponseTag)))
      (e.respond r s) := by
  unfold respond sequentialRespond
  split
  · rename_i htag
    have hmem := mem_matchResponseTags_of_tag htag
    rw [← h.named _ hmem]
    cases hresp : s.namedResponses r.matchResponseTag with
    | none => exact .done _ _ rfl
    | some response =>
      have htrans := h.transports _ hmem (by simp [hresp])
      rw [← htrans]
      exact .done _ _ rfl
  · rename_i htag
    have htag : r.matchResponseTag = "" := by simpa using htag
    cases hf : s.anonymousFuture with
    | none =>
      simp only [inOrder, hf, map_none]
      exact .done _ _ rfl
    | some f =>
      dsimp only
      by_cases hwait : (!r.hasBindings && !e.resolved s.now f)
      · rw [if_pos hwait]
        exact .await _ f rfl rfl
      · rw [if_neg hwait]
        -- A rule bound to the anonymous response alone has waited for it already.
        have hres : e.resolved s.now f := by
          cases hbind : r.hasBindings with
          | false => simpa [hbind] using hwait
          | true =>
            rw [DNSRule.hasBindings, hvalid.respond hact htag] at hbind
            exact h.anonymous (by simpa using hbind) f hf
        have hview : e.view s.tick.now f = (e.outcomeOf f).toOption :=
          view_of_resolved (resolved_mono hres (le_succ _))
        simp only [inOrder, hf, map_some, hview]
        cases (e.outcomeOf f).toOption with
        | none | some response => exact .done _ _ rfl

lemma follows_act (h : Informed e r s) (hvalid : r.Valid) (harmed : s.armedRules = [])
    (hterm : s.terminalFuture = none) :
    Follows e s (e.sequentialAct r s.ruleIndex (e.inOrder s)) (e.act s r) := by
  unfold act sequentialAct
  cases hact : r.action with
  | routeOptions options => exact .next _ rfl
  | evaluate server tag options speculative =>
    dsimp only
    cases e.transports.transport server with
    | none =>
      dsimp only
      split
      · exact .next _ rfl
      · exact .next _ rfl
    | some transport =>
      simp only [harmed, isEmpty_nil, Bool.not_true, Bool.and_false, Bool.false_eq_true, if_false]
      exact .next _ (congrArg SequentialStep.next (inOrder_evaluate e s tag transport options).symm)
  | respond =>
    simp only [unlessArmed, harmed, isEmpty_nil, Bool.not_true, Bool.false_eq_true, if_false]
    exact follows_respond h hvalid hact
  | route server options speculative =>
    have hopts : (e.inOrder s).options = s.effectiveOptions := rfl
    dsimp only
    rw [hopts]
    cases e.transports.resolveDNSRoute server options e.allowFakeIP s.effectiveOptions with
    | missing | skipped => exact .next _ rfl
    | resolved transport queryOptions =>
      simp only [route, harmed, hterm, isEmpty_nil, Bool.not_true, Bool.false_eq_true,
        if_false, filter_none]
      exact .pending _ _ _ rfl
  | reject method =>
    simp only [unlessArmed, harmed, isEmpty_nil, Bool.not_true, Bool.false_eq_true, if_false]
    cases e.rejectResult method with
    | none => exact .next _ rfl
    | some result => exact .done _ _ rfl
  | predefined response =>
    simp only [unlessArmed, harmed, isEmpty_nil, Bool.not_true, Bool.false_eq_true, if_false]
    exact .done _ _ rfl

/-! ## One rule -/

variable {leaf : DefaultDNSRule}

/-- A checked rule reads nothing but the responses it is bound to. -/
theorem readsBound_of_valid (hvalid : r.Valid) (hloaded : r.Loaded)
    (hleaf : leaf ∈ r.rule.leaves) : leaf.ReadsBound where
  own hmatch item hi := by
    obtain ⟨used, hused⟩ := hvalid.leaves leaf hleaf
    unfold validateLegacyDNSModeDisabledDefaultRule at hused
    simp only [hmatch, Bool.not_false, Bool.and_true, Bool.true_and] at hused
    split at hused
    · cases hused
    · rename_i hfields
      simp only [Bool.or_eq_true, Bool.not_eq_true', not_or, Bool.not_eq_true,
        Bool.not_eq_false, List.any_eq_false, List.isEmpty_iff] at hfields
      rw [hfields.2, List.append_nil] at hi
      exact hfields.1 item hi
  sets ref href s hs rule hr leaf' hleaf' item hi := by
    obtain ⟨tag, events, rfl⟩ := hloaded leaf hleaf ref href s hs
    obtain hi | hi := mem_append.mp hi
    · have hreads := ((RuleSet.run_loaded tag events).onlyIPCIDR rule hr leaf' hleaf').plain item hi
      cases item <;> first | rfl | cases hreads
    · have hcidr := ((RuleSet.run_loaded tag events).onlyIPCIDR rule hr leaf' hleaf').ipCIDR item hi
      cases item <;> first | rfl | cases hcidr

lemma anonymous_of_leaf {rule : Rule} (hleaf : leaf ∈ rule.leaves)
    (hmatch : leaf.matchResponse) (htag : leaf.matchResponseTag = "") :
    matchResponseAnonymous rule := by
  have hany : ∀ rules : List Rule, (∃ rule ∈ rules, matchResponseAnonymous rule) →
      anyMatchResponseAnonymous rules := by
    intro rules
    induction rules with
    | nil => simp
    | cons first rules ih =>
      rintro ⟨rule, hr, h⟩
      rw [anyMatchResponseAnonymous, Bool.or_eq_true]
      obtain rfl | hr := mem_cons.mp hr
      · exact .inl h
      · exact .inr (ih ⟨rule, hr, h⟩)
  induction rule using Rule.induct with
  | hd rule =>
    rw [Rule.leaves, mem_singleton] at hleaf
    subst hleaf
    simp [matchResponseAnonymous, hmatch, htag]
  | hl mode rules invert ih =>
    obtain ⟨rule, hr, hleaf⟩ := Rule.mem_leavesOf.mp hleaf
    exact hany rules ⟨rule, hr, ih rule hr hleaf⟩

/-- A rule that has waited for its responses matches as it does in the
interpreter. -/
theorem matchRule_eq (h : Informed e r s) (hvalid : r.Valid) (hloaded : r.Loaded) :
    e.matchRule s r (s.anonymousFuture.bind (e.view s.now)) =
      (r.rule.match (e.sequentialContext (e.inOrder s)) .fresh).1 := by
  refine Rule.match_eq_of_bound (fun leaf hleaf => readsBound_of_valid hvalid hloaded hleaf)
    ⟨rfl, rfl, rfl, rfl, rfl⟩ ?_
  intro leaf hleaf hmatch
  unfold DefaultDNSRule.boundResponse
  split
  · rename_i htag
    have hmem : leaf.matchResponseTag ∈ r.matchResponseTags := by
      refine mem_matchResponseTags.mpr ⟨leaf, hleaf, ?_⟩
      rw [defaultMatchResponseTags, if_neg htag]
      exact mem_singleton_self _
    exact h.named _ hmem
  · rename_i htag
    have hanon := anonymous_of_leaf hleaf hmatch (by simpa using htag)
    dsimp only [context, sequentialContext, inOrder]
    cases hf : s.anonymousFuture with
    | none => rfl
    | some f => exact view_of_resolved (h.anonymous hanon f hf)

lemma follows_tryRule (h : Informed e r s) (hvalid : r.Valid) (hloaded : r.Loaded)
    (harmed : s.armedRules = []) (hterm : s.terminalFuture = none) :
    Follows e s (e.sequentialRule r s.ruleIndex (e.inOrder s)) (e.tryRule s r) := by
  have hmatch : e.matchRule (noteMatch s s.ruleIndex r).tick r
      (s.anonymousFuture.bind (e.view s.now)) =
      (r.rule.match (e.sequentialContext (e.inOrder s)) .fresh).1 := matchRule_eq h hvalid hloaded
  unfold tryRule sequentialRule
  dsimp only
  rw [hmatch]
  split
  · have hlater : Informed e r (noteMatch s s.ruleIndex r).tick :=
      { h with anonymous := fun ha f hf => resolved_mono (h.anonymous ha f hf) (le_succ _) }
    have hfollows := follows_act hlater hvalid harmed hterm
    exact Follows.of_same (t := (noteMatch s s.ruleIndex r).tick) rfl rfl hfollows
  · exact .next _ rfl

/-- What a rule waited for was settled before, when nothing comes in between. -/
theorem informed_of_quiet (h : Tracked e rules (check s (boundFutures s r)).tick)
    (hfresh : s.Fresh) (hready : ∀ f ∈ boundFutures s r, e.resolved s.now f)
    (hquiet : ∀ event ∈ (check s (boundFutures s r)).tick.trace, event.Quiet e) :
    Informed e r (check s (boundFutures s r)).tick := by
  have hsettled : ∀ tag ∈ r.matchResponseTags, ∀ f, s.namedFutures tag = some f →
      f.origin ∈ s.settled := by
    intro tag htag f hf
    have hlook := hquiet _ (mem_append_right _ (mem_singleton_self _))
    obtain ⟨hmem, rfl, -⟩ := h.registry.named tag f hf
    exact h.recorded.settled_of_quiet hfresh hlook hmem
      (mem_append_left _ (mem_filterMap.mpr ⟨f.tag, htag, hf⟩)) (ne_of_mem_matchResponseTags htag)
  refine ⟨?_, ?_, ?_⟩
  · intro hanon f hf
    refine resolved_mono (hready f (mem_append_right _ ?_)) (le_succ _)
    rw [if_pos hanon]
    exact mem_toList.mpr hf
  · intro tag htag
    exact h.namedResponses_eq (ne_of_mem_matchResponseTags htag) (hsettled tag htag)
  · intro tag htag hresp
    have hne := ne_of_mem_matchResponseTags htag
    cases hnamed : s.namedFutures tag with
    | none =>
      have hnone := h.namedResponses_eq hne (hsettled tag htag)
      refine absurd (hnone.trans ?_) hresp
      change (s.namedFutures tag).bind _ = none
      rw [hnamed]
      rfl
    | some f =>
      obtain ⟨hf, rfl, -⟩ := h.registry.named tag f hnamed
      have htrans := (h.recorded.response f hf (hsettled f.tag htag f hnamed) hne).2
      have hinOrder : (e.inOrder (check s (boundFutures s r)).tick).transports f.tag =
          some f.transport := congrArg (Option.map Future.transport) hnamed
      rw [htrans, hinOrder]

lemma informed_of_unbound (hbind : r.hasBindings = false) : Informed e r s := by
  simp only [DNSRule.hasBindings, Bool.or_eq_false_iff, Bool.not_eq_false',
    List.isEmpty_iff] at hbind
  exact ⟨by simp [hbind.2], by simp [hbind.1], by simp [hbind.1]⟩

lemma follows_walkRule (h : Tracked e rules s) (hr : rules[s.ruleIndex]? = some r)
    (hrules : ValidRules rules) (hvalid : r.Valid) (hloaded : r.Loaded) (hrace : r.race = false)
    (harmed : s.armedRules = []) (hterm : s.terminalFuture = none)
    (hquiet : ∀ event ∈ (e.walkRule s r).state.trace, event.Quiet e) :
    Follows e s (e.sequentialRule r s.ruleIndex (e.inOrder s)) (e.walkRule s r) := by
  unfold walkRule at hquiet ⊢
  cases hbind : r.hasBindings with
  | false => exact follows_tryRule (informed_of_unbound hbind) hvalid hloaded harmed hterm
  | true =>
    obtain ⟨t, ht⟩ : ∃ t, t = e.settleDNSFutures s := ⟨_, rfl⟩
    have hst : Reaches e rules s t := ht ▸ (Step.settle s).reaches
    have hfresh : t.Fresh := ht ▸ fresh_settleDNSFutures h.launched
    have hsame : e.inOrder t = e.inOrder s := by rw [ht, inOrder_settleDNSFutures]
    have hindex : t.ruleIndex = s.ruleIndex := by rw [ht, settleDNSFutures_ruleIndex]
    have harmed' : t.armedRules = [] := by rw [ht, settleDNSFutures_armedRules, harmed]
    have hterm' : t.terminalFuture = none := by
      rw [ht, settleDNSFutures_terminalFuture, hterm]
    simp only [hbind, hrace, Bool.not_true, Bool.false_eq_true, if_false, ← ht] at hquiet ⊢
    apply Follows.of_same hsame hindex
    rw [← hindex, ← hsame]
    cases hfind : (boundFutures t r).find? fun f => !e.resolved t.now f with
    | some f => exact .await _ f rfl rfl
    | none =>
      rw [hfind] at hquiet
      have hlook := (hst.step (.look t (boundFutures t r))).step .tick
      have htracked := h.reaches hrules hlook
      have hready : ∀ f ∈ boundFutures t r, e.resolved t.now f := by
        intro f hf
        simpa using find?_eq_none.mp hfind f hf
      have hmoves : Moves e rules (check t (boundFutures t r)).tick
          (e.tryRule (check t (boundFutures t r)).tick r) :=
        moves_tryRule htracked.launched (hindex ▸ hr) (by simp [hrace]) (fun _ => hfresh)
          fun f hf => ⟨_, mem_append_right _ (mem_singleton_self _), hf⟩
      have hinformed := informed_of_quiet htracked hfresh hready
        fun event hmem => hquiet event (hmoves.trace_prefix.subset hmem)
      have hfollows := follows_tryRule hinformed hvalid hloaded harmed' hterm'
      exact Follows.of_same (t := (check t (boundFutures t r)).tick) rfl rfl hfollows

/-! ## Whole calls -/

/-- What the interpreter decides from a state of the walk on. -/
def sequentialFrom (e : Call) (rules : List DNSRule) (s : WalkState) : Decision :=
  e.sequential (rules.drop s.ruleIndex) s.ruleIndex (e.inOrder s)

/-- A list without race rules, over loaded rule-sets. -/
structure Ordered (rules : List DNSRule) : Prop where
  valid : ValidRules rules
  noRace : ∀ r ∈ rules, r.race = false
  loaded : ∀ r ∈ rules, r.Loaded

lemma Ordered.armedRules_eq (h : Ordered rules) (ht : Tracked e rules s) : s.armedRules = [] := by
  cases harmed : s.armedRules with
  | nil => rfl
  | cons a rest =>
    obtain ⟨-, hrule, hrace⟩ := ht.ledger.entry a (by simp [harmed])
    simp [h.noRace a.rule (mem_of_getElem? hrule)] at hrace

lemma Ordered.terminalFuture_eq (h : Ordered rules) (ht : Tracked e rules s) :
    s.terminalFuture = none := by
  cases hterm : s.terminalFuture with
  | none => rfl
  | some f =>
    obtain ⟨⟨r, hr, hrace⟩, -⟩ := ht.ledger.terminal f hterm
    simp [h.noRace r hr] at hrace

/-- The end of a walk against the decision of the interpreter. -/
inductive Agrees (e : Call) (rules : List DNSRule) (d : Decision) : Outcome → Prop
  | await (t : WalkState) (f : Future) (h : e.sequentialFrom rules t = d) :
      Agrees e rules d (.suspended t (.await f))
  | done (t : WalkState) (result : ExchangeResult) (h : d = .result result) :
      Agrees e rules d (.done t result)
  | pending (t : WalkState) (transport : DNSTransport) (options : DNSQueryOptions)
      (h : d = .exchange transport options) :
      Agrees e rules d (.suspended t (.pending (.exchange transport options)))

lemma agrees_walkDNSRules {rest : List DNSRule} (hrules : Ordered rules)
    (h : Tracked e rules s) (hrest : rules.drop s.ruleIndex = rest)
    (hquiet : ∀ event ∈ (e.walkDNSRules rest s).outcome.state.trace, event.Quiet e) :
    Agrees e rules (e.sequentialFrom rules s) (e.walkDNSRules rest s).outcome := by
  induction rest generalizing s with
  | nil =>
    rw [walkDNSRules, hrules.armedRules_eq h]
    refine .pending _ _ _ ?_
    rw [sequentialFrom, hrest, sequential]
    rfl
  | cons r rest ih =>
    have hr : rules[s.ruleIndex]? = some r := by
      rw [← head?_drop, hrest]
      rfl
    have hmem : r ∈ rules := mem_of_getElem? hr
    have hmoves := moves_walkRule (e := e) h.launched hr
    have hfollows := follows_walkRule h hr hrules.valid (hrules.valid.rule r hmem)
      (hrules.loaded r hmem) (hrules.noRace r hmem) (hrules.armedRules_eq h)
      (hrules.terminalFuture_eq h)
    have hfrom : e.sequentialFrom rules s = match e.sequentialRule r s.ruleIndex (e.inOrder s) with
        | .next q => e.sequential rest (s.ruleIndex + 1) q
        | .done d => d := by
      rw [sequentialFrom, hrest, sequential]
    rw [walkDNSRules] at hquiet ⊢
    generalize e.walkRule s r = outcome at hmoves hfollows hquiet ⊢
    cases hmoves with
    | next t hindex hreach =>
      have hdrop : rules.drop (t.ruleIndex + 1) = rest := by
        rw [hindex, ← tail_drop, hrest]
        rfl
      have hnext := h.reaches hrules.valid hreach
      have hwalk := moves_walkDNSRules (e := e) hnext.launched hdrop
      have hstep := hfollows fun event hmem => hquiet event (hwalk.trace_prefix.subset hmem)
      have hagrees := ih hnext hdrop hquiet
      cases hstep with
      | next _ hq =>
        have hsame : e.sequentialFrom rules { t with ruleIndex := t.ruleIndex + 1 } =
            e.sequentialFrom rules s := by
          rw [hfrom, hq, sequentialFrom, hdrop, hindex]
          rfl
        rwa [← hsame]
    | await t f hreach hf =>
      cases hfollows hquiet with
      | await _ _ hsame hindex =>
        refine .await t f ?_
        rw [sequentialFrom, hsame, hindex, sequentialFrom]
    | drain t hreach => cases hfollows hquiet
    | pending t p hends harmed hfuture =>
      cases hfollows hquiet with
      | pending _ transport options hq =>
        refine .pending t transport options ?_
        rw [hfrom, hq]
    | done t result hends =>
      cases hfollows hquiet with
      | done _ _ hq =>
        refine .done t result ?_
        rw [hfrom, hq]

/-- The decision of the interpreter, unless the caller gave up while the walk was
waiting. -/
def Decides (e : Call) (d decision : Decision) : Prop :=
  decision = d ∨ (∃ now, e.ctxDone now = true) ∧ decision = .result { err := some e.ctxErr }

variable {d : Decision} {fuel : Nat}

/-- The rest of a call after a walk, when the loop that follows decides as the
interpreter does. -/
theorem decides_of_walk (hrules : Ordered rules) (h : Tracked e rules s)
    (hloop : ∀ u f, Tracked e rules u → f ∈ u.futures →
      e.resumeLoop rules fuel u (.await f) = some (t, d) →
      Decides e (e.sequentialFrom rules u) d)
    (hres : (match e.walkDNSRules (rules.drop s.ruleIndex) s with
      | .done u r => some (u, .result r)
      | .suspended u suspension => e.resumeLoop rules fuel u suspension) = some (t, d))
    (hquiet : ∀ event ∈ t.trace, event.Quiet e) : Decides e (e.sequentialFrom rules s) d := by
  have hmoves := moves_walkDNSRules (e := e) h.launched rfl
  have hagrees := agrees_walkDNSRules hrules h rfl
  generalize e.walkDNSRules (rules.drop s.ruleIndex) s = result at hmoves hagrees hres
  cases result with
  | done u r =>
    cases hres
    cases hagrees hquiet with
    | done _ _ hd => exact .inl hd.symm
  | suspended u suspension =>
    cases hmoves with
    | await _ f hreach hf =>
      have hu : Tracked e rules u := h.reaches hrules.valid hreach
      have hends := (ends_resumeLoop hu.launched (.await u f refl hf) hres).1
      cases hagrees fun event hmem => hquiet event (hends.trace_prefix.subset hmem) with
      | await _ _ hd => exact hd ▸ hloop u f hu hf hres
    | drain _ hreach =>
      have hu : Tracked e rules u := h.reaches hrules.valid hreach
      have hends := (ends_resumeLoop hu.launched (.drain u refl) hres).1
      cases hagrees fun event hmem => hquiet event (hends.trace_prefix.subset hmem)
    | pending _ p hends harmed hfuture =>
      cases fuel with
      | zero => cases hres
      | succ fuel =>
        dsimp only at hres
        rw [resumeLoop_pending e rules harmed, some.injEq] at hres
        have htrace := (finishPendingExchange_frame e (e.settleDNSFutures u) p).2.1
        rw [hres, settleDNSFutures_trace] at htrace
        cases hagrees fun event hmem => hquiet event (htrace ▸ hmem) with
        | pending _ transport options hd =>
          cases hres
          exact .inl hd.symm

lemma decides_resumeLoop {f : Future} (hrules : Ordered rules)
    (h : Tracked e rules s) (hf : f ∈ s.futures)
    (hresume : e.resumeLoop rules fuel s (.await f) = some (t, d))
    (hquiet : ∀ event ∈ t.trace, event.Quiet e) : Decides e (e.sequentialFrom rules s) d := by
  induction fuel generalizing s f with
  | zero => cases hresume
  | succ fuel ih =>
    obtain ⟨u, hu⟩ : ∃ u, u = e.settleDNSFutures s := ⟨_, rfl⟩
    have hsu : Reaches e rules s u := hu ▸ (Step.settle s).reaches
    have hsame : e.sequentialFrom rules u = e.sequentialFrom rules s := by
      rw [sequentialFrom, sequentialFrom, hu, settleDNSFutures_ruleIndex, inOrder_settleDNSFutures]
    have hfuts : u.futures = s.futures := by rw [hu, settleDNSFutures_futures]
    have hidle : e.sweepArmedDNSRules u = .idle u :=
      sweepArmedDNSRules_of_nil (hrules.armedRules_eq (h.reaches hrules.valid hsu))
    rw [resumeLoop, ← hu, hidle] at hresume
    dsimp only at hresume
    rw [← hsame]
    split at hresume
    · split at hresume
      · rename_i hdone
        cases hresume
        exact .inr ⟨⟨_, hdone⟩, rfl⟩
      · obtain ⟨v, hwait, hresume⟩ := bind_eq_some_iff.mp hresume
        obtain ⟨now, hlater, rfl⟩ := wait_eq_some hwait
        have hv := (hsu.step .tick).step (.wait u.tick now now (le_of_lt hlater) (le_refl _))
        have hdecides := ih (h.reaches hrules.valid hv) (hfuts ▸ hf) hresume
        exact hdecides
    · have hsame' : e.sequentialFrom rules u.tick = e.sequentialFrom rules u := rfl
      rw [← hsame']
      exact decides_of_walk hrules (h.reaches hrules.valid (hsu.step .tick))
        (fun v g hv hg hresume => ih hv hg hresume) hresume hquiet

/-- For every checked list without race rules, over loaded rule-sets: a call
returns, and if no exchange under a tag completes between a settling and a look that
finds it completed, it ends with the decision of the reference interpreter, whatever the
outcomes of the exchanges and the order in which they complete. -/
theorem exchangeWithRules_sequential (e : Call) {rules : List DNSRule} (options : DNSQueryOptions)
    (hvalid : validateLegacyDNSModeDisabledRules rules = .ok ())
    (hrace : ∀ r ∈ rules, r.race = false) (hloaded : ∀ r ∈ rules, r.Loaded) :
    ∃ n s d, (∀ fuel, n ≤ fuel → e.exchangeWithRules rules options fuel = some (s, d)) ∧
      ((∀ event ∈ s.trace, event.Quiet e) → d = e.sequential rules 0 { options } ∨
        (∃ now, e.ctxDone now = true) ∧ d = .result { err := some e.ctxErr }) := by
  obtain ⟨n, s, d, hret⟩ := exchangeWithRules_returns e rules options
  refine ⟨n, s, d, hret, fun hquiet => ?_⟩
  have hrules : Ordered rules := ⟨validRules_of_ok hvalid, hrace, hloaded⟩
  have hrun : Run e rules options { effectiveOptions := options } := refl
  have htracked := Tracked.of_run hrules.valid hrun
  have hreturn := hret n (le_refl n)
  have hres : ∃ t, t.trace = s.trace ∧
      (match e.walkDNSRules rules { effectiveOptions := options } with
        | .done u r => some (u, .result r)
        | .suspended u suspension => e.resumeLoop rules n u suspension) = some (t, d) := by
    unfold exchangeWithRules at hreturn
    cases hwalk : e.walkDNSRules rules { effectiveOptions := options } with
    | done u r =>
      rw [hwalk] at hreturn
      cases hreturn
      exact ⟨u, rfl, rfl⟩
    | suspended u suspension =>
      rw [hwalk] at hreturn
      obtain ⟨⟨t, d'⟩, hresume, hcancel⟩ := map_eq_some_iff.mp hreturn
      cases hcancel
      exact ⟨t, rfl, hresume⟩
  obtain ⟨t, htrace, hres⟩ := hres
  have hquiet : ∀ event ∈ t.trace, event.Quiet e := htrace ▸ hquiet
  exact decides_of_walk hrules htracked
    (fun u f hu hf hresume => decides_resumeLoop hrules hu hf hresume hquiet) hres hquiet

/-- The rules of the example above, answered while the second rule waits. -/
theorem exchangeWithRules_sequential_awaited :
    validateLegacyDNSModeDisabledRules respondRules = .ok () ∧
    ∃ n s d, (∀ fuel, n ≤ fuel →
        (answersAt 5).exchangeWithRules respondRules {} fuel = some (s, d)) ∧
      (∀ event ∈ s.trace, event.Quiet (answersAt 5)) ∧ d = .result awaitedResult ∧
      (d = (answersAt 5).sequential respondRules 0 { options := {} } ∨
        (∃ now, (answersAt 5).ctxDone now = true) ∧
          d = .result { err := some (answersAt 5).ctxErr }) := by
  have hvalid : validateLegacyDNSModeDisabledRules respondRules = .ok () := by rfl
  have hloaded : ∀ r ∈ respondRules, r.Loaded := by
    intro r hr leaf hleaf ref href
    have hnone : leaf.ruleSetItem = none := by
      simp only [respondRules, mem_cons, not_mem_nil, or_false] at hr
      obtain rfl | rfl := hr <;> rw [mem_singleton.mp hleaf]
    simp [hnone] at href
  obtain ⟨n, s, d, hret, hsequential⟩ := exchangeWithRules_sequential (answersAt 5) {} hvalid
    (by simp [respondRules]) hloaded
  obtain ⟨hd, hquiet⟩ := quiet_awaited hret
  exact ⟨hvalid, n, s, d, hret, hquiet, hd, hsequential hquiet⟩

end Call

end SingBox.Dns
