import SingBox.Dns.Accepted
import SingBox.Dns.Rule

/-! The legacy mode: rules are tried one after another, and when the answer to a rule
with an address limit is rejected, the next rule is looked for. -/

namespace SingBox.Dns
open Route List Nat

/-- `dnsRuleActionDisablesLegacyDNSMode`, with the actions that disable the mode
altogether. -/
def DNSRule.disablesLegacyDNSMode (r : DNSRule) : Bool :=
  r.race ||
    match r.action with
    | .route _ options speculative => options.disableOptimisticCache || speculative
    | .evaluate .. | .respond => true
    | .routeOptions options => options.disableOptimisticCache
    | .reject _ | .predefined _ => false

variable (options : DNSQueryOptions)

/-- The options of a route or route-options action, as `matchDNS` applies them. -/
def applyLegacyOptions (routeOptions : DNSRouteOptions) : DNSQueryOptions :=
  let options := { options with
    strategy := if routeOptions.strategy ≠ .asIS then routeOptions.strategy else options.strategy
    disableCache := options.disableCache || routeOptions.disableCache
    rewriteTTL := routeOptions.rewriteTTL <|> options.rewriteTTL
    timeout := if routeOptions.timeout > 0 then routeOptions.timeout else options.timeout }
  let options := match routeOptions.clientSubnet with
    | some subnet => { options with clientSubnet := some subnet, removeClientSubnet := false }
    | none => options
  if routeOptions.removeClientSubnet then
    { options with clientSubnet := none, removeClientSubnet := true }
  else
    options

/-- What a query is matched with in the legacy mode. -/
structure LegacyCall where
  transports : Transports
  rules : List DNSRule
  metadata : InboundContext
  isAddressQuery : Bool
  allowFakeIP : Bool
  options : DNSQueryOptions

/-- What `matchDNS` returns, with the place in the list that it started from. -/
structure LegacyMatch where
  start : Nat
  transport : Option DNSTransport
  rule : Option (Nat × DNSRule)
  options : DNSQueryOptions

inductive LegacyAnswer
  | response (response : Msg)
  | rejected (cached : Bool)
  | failed (err : String)

/-- How a call ends: by the action of a rule, or with the answer to an exchange. -/
inductive LegacyResult
  | refused
  | dropped
  | rejected (method : RejectMethod)
  | predefined (response : Msg → Msg)
  | exchanged (found : LegacyMatch) (answer : LegacyAnswer)

namespace LegacyCall

variable (e : LegacyCall)

/-- The rule is not left out, and `LegacyPreMatch` holds. -/
def preMatches (r : DNSRule) : Bool :=
  !(r.rule.withAddressLimit && !e.isAddressQuery) &&
    (r.rule.legacyPreMatch { e.metadata with destinationAddressMatchFromResponse := false }
      .fresh).1

def matchLoop (start : Nat) : List DNSRule → Nat → DNSQueryOptions → LegacyMatch
  | [], _, options => ⟨start, some e.transports.default, none, options⟩
  | r :: rules, i, options =>
    if e.preMatches r then
      match r.action with
      | .route server routeOptions _ =>
        match e.transports.transport server with
        | none => matchLoop start rules (i + 1) options
        | some transport =>
          if transport.isFakeIP && !e.allowFakeIP then matchLoop start rules (i + 1) options
          else
            let options := applyLegacyOptions options routeOptions
            ⟨start, some transport, some (i, r),
              { options with disableCache := options.disableCache || transport.isFakeIP }⟩
      | .routeOptions routeOptions =>
        matchLoop start rules (i + 1) (applyLegacyOptions options routeOptions)
      | .reject _ | .predefined _ => ⟨start, none, some (i, r), options⟩
      | .evaluate .. | .respond => matchLoop start rules (i + 1) options
    else matchLoop start rules (i + 1) options

/-- `matchDNS`, from the rule after the one found last. -/
def matchDNS (start : Nat) : LegacyMatch := e.matchLoop start (e.rules.drop start) start e.options

/-- The loop of `exchangeLegacy` and of `Lookup`, which differ in the actions that end
them and in the answers after which the next rule is looked for. -/
def retryLoop (stops : DNSRuleAction → Option LegacyResult) (retries : LegacyAnswer → Bool)
    (answer : Nat → LegacyAnswer) : Nat → Nat → Nat → Option LegacyResult
  | 0, _, _ => none
  | fuel + 1, attempt, start =>
    let found := e.matchDNS start
    match found.rule with
    | none => some (.exchanged found (answer attempt))
    | some (i, r) =>
      match stops r.action with
      | some result => some result
      | none =>
        let responseCheck := addressLimitResponseCheck (some r.rule) e.metadata
        if responseCheck.isSome && retries (answer attempt) then
          retryLoop stops retries answer fuel (attempt + 1) (i + 1)
        else some (.exchanged found (answer attempt))

variable (answer : Nat → LegacyAnswer)

/-- `exchangeLegacy`; every attempt passes a rule. -/
def exchangeLegacy : Option LegacyResult :=
  e.retryLoop
    (fun
      | .reject .default => some .refused
      | .reject .drop => some .dropped
      | .predefined response => some (.predefined response)
      | _ => none)
    (fun
      | .rejected _ => true
      | _ => false)
    answer (e.rules.length + 1) 0 0

/-- `Lookup` in the legacy mode, where any error leads on to the next rule. -/
def lookup : Option LegacyResult :=
  e.retryLoop
    (fun
      | .reject method => some (.rejected method)
      | .predefined response => some (.predefined response)
      | _ => none)
    (fun
      | .response _ => false
      | _ => true)
    answer (e.rules.length + 1) 0 0

end LegacyCall

/-! ## The options that a query is to have -/

/-- The options that an action can set. -/
inductive OptionField
  | strategy | disableCache | disableOptimisticCache | rewriteTTL | timeout | clientSubnet
  deriving DecidableEq

variable (o : DNSRouteOptions)

def DNSRouteOptions.sets : OptionField → Bool
  | .strategy => o.strategy != .asIS
  | .disableCache => o.disableCache
  | .disableOptimisticCache => o.disableOptimisticCache
  | .rewriteTTL => o.rewriteTTL.isSome
  | .timeout => decide (0 < o.timeout)
  | .clientSubnet => o.clientSubnet.isSome || o.removeClientSubnet

/-- Each option that is set replaces what was there. -/
def DNSQueryOptions.overlay : DNSQueryOptions where
  strategy := if o.sets .strategy then o.strategy else options.strategy
  lookupStrategy := options.lookupStrategy
  disableCache := if o.sets .disableCache then true else options.disableCache
  disableOptimisticCache :=
    if o.sets .disableOptimisticCache then true else options.disableOptimisticCache
  rewriteTTL := if o.sets .rewriteTTL then o.rewriteTTL else options.rewriteTTL
  timeout := if o.sets .timeout then o.timeout else options.timeout
  clientSubnet :=
    if o.sets .clientSubnet then (if o.removeClientSubnet then none else o.clientSubnet)
    else options.clientSubnet
  removeClientSubnet :=
    if o.sets .clientSubnet then o.removeClientSubnet else options.removeClientSubnet

/-- The two have the same value of an option. -/
def DNSQueryOptions.Agree (a b : DNSQueryOptions) : OptionField → Prop
  | .strategy => a.strategy = b.strategy
  | .disableCache => a.disableCache = b.disableCache
  | .disableOptimisticCache => a.disableOptimisticCache = b.disableOptimisticCache
  | .rewriteTTL => a.rewriteTTL = b.rewriteTTL
  | .timeout => a.timeout = b.timeout
  | .clientSubnet => a.clientSubnet = b.clientSubnet ∧ a.removeClientSubnet = b.removeClientSubnet

namespace LegacyCall

variable (e : LegacyCall)

/-- The options of the route-options rules that match, in order. -/
def routeOptions (rules : List DNSRule) : List DNSRouteOptions :=
  rules.filterMap fun r =>
    if e.preMatches r then
      match r.action with
      | .routeOptions options => some options
      | _ => none
    else none

variable (found : LegacyMatch)

/-- What the rule that is used adds: its own options, and no cache for fake addresses. -/
def ownOptions : List DNSRouteOptions :=
  match found.rule with
  | none => []
  | some (_, r) =>
    match r.action with
    | .route _ options _ =>
      [{ options with disableCache := options.disableCache || found.transport.any (·.isFakeIP) }]
    | _ => []

/-- The rules before the one that is used; all of them if it is none. -/
def rulesBefore : List DNSRule :=
  match found.rule with
  | some (j, _) => e.rules.take j
  | none => e.rules

/-- The options of every matching route-options rule before, and those of the rule. -/
def expectedOptions : DNSQueryOptions :=
  (e.routeOptions (e.rulesBefore found) ++ ownOptions found).foldl .overlay e.options

end LegacyCall

/-! ## Lemmas -/

lemma applyLegacyOptions_eq {o : DNSRouteOptions} (h : o.disableOptimisticCache = false) :
    applyLegacyOptions options o = options.overlay o := by
  cases hnet : o.clientSubnet <;> cases hremove : o.removeClientSubnet <;>
    cases hcache : o.disableCache <;> cases httl : o.rewriteTTL <;>
    simp [applyLegacyOptions, DNSQueryOptions.overlay, DNSRouteOptions.sets, h, hnet, hremove,
      hcache, httl]

namespace DNSQueryOptions

variable (a : DNSQueryOptions) (f : OptionField)

lemma agree_refl : a.Agree a f := by
  cases f <;> simp [Agree]

variable (a b : DNSQueryOptions)

lemma agree_overlay : (a.overlay o).Agree (b.overlay o) f ↔ o.sets f ∨ a.Agree b f := by
  cases f <;> simp only [Agree, overlay] <;> split <;> simp_all

lemma overlay_disableCache (options : DNSQueryOptions) (o : DNSRouteOptions) (b : Bool) :
    { options.overlay o with disableCache := (options.overlay o).disableCache || b } =
      options.overlay { o with disableCache := o.disableCache || b } := by
  cases b with
  | false => simp only [Bool.or_false]
  | true =>
    simp only [Bool.or_true]
    rfl

variable (os : List DNSRouteOptions)

lemma agree_foldl :
    (os.foldl overlay a).Agree (os.foldl overlay b) f ↔
      (∃ o ∈ os, o.sets f) ∨ a.Agree b f := by
  induction os generalizing a b with
  | nil => simp
  | cons o os ih =>
    rw [foldl_cons, foldl_cons, ih, agree_overlay, exists_mem_cons_iff, or_assoc]
    exact or_left_comm

lemma lookupStrategy_foldl : (os.foldl overlay a).lookupStrategy = a.lookupStrategy := by
  induction os generalizing a with
  | nil => rfl
  | cons o os ih => exact ih (a.overlay o)

lemma eq_iff_agree {a b : DNSQueryOptions} (h : a.lookupStrategy = b.lookupStrategy) :
    a = b ↔ ∀ f, a.Agree b f := by
  constructor
  · rintro rfl
    exact a.agree_refl
  · intro hagree
    have hnet := hagree .clientSubnet
    cases a
    cases b
    simp only [DNSQueryOptions.mk.injEq]
    exact ⟨hagree .strategy, h, hagree .disableCache, hagree .disableOptimisticCache,
      hagree .rewriteTTL, hagree .timeout, hnet.1, hnet.2⟩

/-- Options that are overlaid first make no difference just when each option they
change is set again. -/
theorem foldl_append_eq_iff (before os : List DNSRouteOptions) (a : DNSQueryOptions) :
    os.foldl overlay a = (before ++ os).foldl overlay a ↔
      ∀ f, (∃ o ∈ os, o.sets f) ∨ (before.foldl overlay a).Agree a f := by
  rw [foldl_append, eq_comm, eq_iff_agree (by simp only [lookupStrategy_foldl])]
  exact forall_congr' fun f => agree_foldl ..

end DNSQueryOptions

namespace LegacyCall

variable {e : LegacyCall} {start : Nat}

lemma routeOptions_append (rules rules' : List DNSRule) :
    e.routeOptions (rules ++ rules') = e.routeOptions rules ++ e.routeOptions rules' :=
  filterMap_append ..

/-- What the loop from rule `i` on comes to: the options of the matching route-options
rules that it passes, and those of the rule that it finds. -/
structure Finds (e : LegacyCall) (start i : Nat) (rules : List DNSRule) (options : DNSQueryOptions)
    (found : LegacyMatch) : Prop where
  start : found.start = start
  place : ∀ j r, found.rule = some (j, r) → i ≤ j ∧ j < i + rules.length
  options : found.options = (e.routeOptions (match found.rule with
    | some (j, _) => rules.take (j - i)
    | none => rules) ++ ownOptions found).foldl .overlay options

variable {found : LegacyMatch} {options : DNSQueryOptions}

lemma Finds.next {i : Nat} {r : DNSRule} {rules : List DNSRule}
    (h : Finds e start (i + 1) rules ((e.routeOptions [r]).foldl .overlay options) found) :
    Finds e start i (r :: rules) options found := { h with
  place j r' hrule := by
    obtain ⟨hle, hlt⟩ := h.place j r' hrule
    rw [length_cons]
    omega
  options := by
    rw [h.options, ← foldl_append, ← append_assoc, ← routeOptions_append]
    cases hrule : found.rule with
    | none => rfl
    | some x =>
      obtain ⟨j, r'⟩ := x
      obtain ⟨hle, -⟩ := h.place j r' hrule
      obtain ⟨k, rfl⟩ := Nat.exists_eq_add_of_le hle
      have h1 : i + 1 + k - i = k + 1 := by omega
      have h2 : i + 1 + k - (i + 1) = k := by omega
      simp only [h1, h2]
      rfl }

lemma matchLoop_finds (rules : List DNSRule) (i : Nat) (options : DNSQueryOptions)
    (hlegacy : ∀ r ∈ rules, r.disablesLegacyDNSMode = false) :
    Finds e start i rules options (e.matchLoop start rules i options) := by
  induction rules generalizing i options with
  | nil => exact ⟨rfl, fun j r' h => (by cases h), rfl⟩
  | cons r rules ih =>
    have hr := hlegacy r mem_cons_self
    have hrules : ∀ r ∈ rules, r.disablesLegacyDNSMode = false :=
      fun r h => hlegacy r (mem_cons_of_mem _ h)
    have hpass : e.routeOptions [r] = [] →
        Finds e start i (r :: rules) options (e.matchLoop start rules (i + 1) options) := by
      intro hnone
      apply Finds.next
      rw [hnone]
      exact ih (i + 1) options hrules
    rw [matchLoop]
    by_cases hmatch : e.preMatches r
    case neg =>
      rw [if_neg hmatch]
      exact hpass (by simp [routeOptions, hmatch])
    rw [if_pos hmatch]
    cases hact : r.action with
    | route server o speculative =>
      have hnone : e.routeOptions [r] = [] := by simp [routeOptions, hact]
      dsimp only
      cases e.transports.transport server with
      | none => exact hpass hnone
      | some transport =>
        dsimp only
        split
        · exact hpass hnone
        have hcache : o.disableOptimisticCache = false := by
          simp only [DNSRule.disablesLegacyDNSMode, hact, Bool.or_eq_false_iff] at hr
          exact hr.2.1
        refine ⟨rfl, ?_, ?_⟩
        · rintro j r' ⟨⟩
          rw [length_cons]
          omega
        · simp only [Nat.sub_self, take_zero, ownOptions, hact, Option.any_some]
          rw [applyLegacyOptions_eq options hcache]
          exact DNSQueryOptions.overlay_disableCache ..
    | routeOptions o =>
      have hcache : o.disableOptimisticCache = false := by
        simp only [DNSRule.disablesLegacyDNSMode, hact, Bool.or_eq_false_iff] at hr
        exact hr.2
      apply Finds.next
      have hone : e.routeOptions [r] = [o] := by simp [routeOptions, hact, hmatch]
      rw [hone, foldl_cons, foldl_nil, ← applyLegacyOptions_eq options hcache]
      exact ih (i + 1) _ hrules
    | reject | predefined =>
      refine ⟨rfl, ?_, ?_⟩
      · rintro j r' ⟨⟩
        rw [length_cons]
        omega
      · simp [ownOptions, hact, routeOptions]
    | evaluate | respond => exact hpass (by simp [routeOptions, hact])

lemma matchDNS_finds (hlegacy : ∀ r ∈ e.rules, r.disablesLegacyDNSMode = false) (start : Nat) :
    Finds e start start (e.rules.drop start) e.options (e.matchDNS start) :=
  matchLoop_finds _ _ _ fun r h => hlegacy r (mem_of_mem_drop h)

lemma Finds.rulesBefore (h : Finds e start start (e.rules.drop start) options found) :
    e.rulesBefore found = e.rules.take start ++ (match found.rule with
      | some (j, _) => (e.rules.drop start).take (j - start)
      | none => e.rules.drop start) := by
  unfold LegacyCall.rulesBefore
  cases hrule : found.rule with
  | none => exact (take_append_drop start e.rules).symm
  | some x =>
    obtain ⟨j, r⟩ := x
    obtain ⟨hle, -⟩ := h.place j r hrule
    rw [← take_add, Nat.add_sub_cancel' hle]

/-- The options are as they should be just when each option that was changed before
the rule started from is set again. -/
theorem Finds.options_iff (h : Finds e start start (e.rules.drop start) e.options found) :
    found.options = e.expectedOptions found ↔
      ∀ f, (∃ o ∈ e.routeOptions ((e.rulesBefore found).drop start) ++ ownOptions found,
          o.sets f) ∨
        ((e.routeOptions (e.rules.take start)).foldl .overlay e.options).Agree e.options f := by
  have hstart : ∀ j r, found.rule = some (j, r) → start < e.rules.length := by
    intro j r hrule
    obtain ⟨hle, hlt⟩ := h.place j r hrule
    rw [length_drop] at hlt
    omega
  have hsince : (e.rulesBefore found).drop start = (match found.rule with
      | some (j, _) => (e.rules.drop start).take (j - start)
      | none => e.rules.drop start) := by
    cases hrule : found.rule with
    | none => rw [LegacyCall.rulesBefore, hrule]
    | some x =>
      have hlen : (e.rules.take start).length = start := by
        have := hstart x.1 x.2 hrule
        rw [length_take]
        omega
      rw [h.rulesBefore, hrule]
      exact drop_left' hlen
  rw [expectedOptions, h.options, hsince, h.rulesBefore, routeOptions_append, append_assoc]
  exact DNSQueryOptions.foldl_append_eq_iff ..

/-- The loop returns, and an exchange is made for a rule that `matchDNS` has found. -/
theorem retryLoop_spec (hlegacy : ∀ r ∈ e.rules, r.disablesLegacyDNSMode = false)
    (stops : DNSRuleAction → Option LegacyResult)
    (hstops : ∀ action found a, stops action ≠ some (.exchanged found a))
    (retries : LegacyAnswer → Bool) (answer : Nat → LegacyAnswer) (fuel attempt start : Nat)
    (hstart : start ≤ e.rules.length) (hfuel : e.rules.length < fuel + start) :
    ∃ result, e.retryLoop stops retries answer fuel attempt start = some result ∧
      ∀ found a, result = .exchanged found a → found = e.matchDNS found.start := by
  induction fuel generalizing attempt start with
  | zero => omega
  | succ fuel ih =>
    have hfinds := matchDNS_finds hlegacy start
    have hexch : ∀ found a,
        LegacyResult.exchanged (e.matchDNS start) (answer attempt) = .exchanged found a →
          found = e.matchDNS found.start := by
      rintro found a ⟨⟩
      rw [hfinds.start]
    rw [retryLoop]
    cases hrule : (e.matchDNS start).rule with
    | none => exact ⟨_, rfl, hexch⟩
    | some x =>
      obtain ⟨i, r⟩ := x
      obtain ⟨hle, hlt⟩ := hfinds.place i r hrule
      rw [length_drop] at hlt
      dsimp only
      cases hres : stops r.action with
      | some result =>
        refine ⟨result, rfl, ?_⟩
        rintro found a rfl
        exact absurd hres (hstops r.action found a)
      | none =>
        dsimp only
        split
        · exact ih (attempt + 1) (i + 1) (by omega) (by omega)
        · exact ⟨_, rfl, hexch⟩

/-- In the legacy mode a query is answered; and the options of the exchange that
answers it are the initial ones overlaid by those of all matching route-options rules
before the rule that is used, and by its own, just when each option that was changed
before the last rejected rule is set again after it. -/
theorem legacy_options_iff (e : LegacyCall) (answer : Nat → LegacyAnswer)
    (hlegacy : ∀ r ∈ e.rules, r.disablesLegacyDNSMode = false) :
    (e.exchangeLegacy answer).isSome = true ∧ (e.lookup answer).isSome = true ∧
    ∀ found a, e.exchangeLegacy answer = some (.exchanged found a) ∨
        e.lookup answer = some (.exchanged found a) →
      (found.options = e.expectedOptions found ↔
        ∀ f, (∃ o ∈ e.routeOptions ((e.rulesBefore found).drop found.start) ++ ownOptions found,
            o.sets f = true) ∨
          ((e.routeOptions (e.rules.take found.start)).foldl .overlay e.options).Agree
            e.options f) := by
  obtain ⟨exchanged, hexchange, hexch⟩ : ∃ result, e.exchangeLegacy answer = some result ∧ _ :=
    retryLoop_spec hlegacy _ (by intro action found a; split <;> exact nofun) _ _ _ _ _
      (zero_le _) (lt_succ_self _)
  obtain ⟨looked, hlook, hlooked⟩ : ∃ result, e.lookup answer = some result ∧ _ :=
    retryLoop_spec hlegacy _ (by intro action found a; split <;> exact nofun) _ _ _ _ _
      (zero_le _) (lt_succ_self _)
  refine ⟨hexchange ▸ rfl, hlook ▸ rfl, ?_⟩
  intro found a h
  have hfound : found = e.matchDNS found.start := by
    obtain h | h := h
    · exact hexch found a (Option.some.inj (hexchange.symm.trans h))
    · exact hlooked found a (Option.some.inj (hlook.symm.trans h))
  have hfinds := matchDNS_finds hlegacy found.start
  rw [← hfound] at hfinds
  exact hfinds.options_iff

def anyQuery (action : DNSRuleAction) : DNSRule := ⟨.logical .and [] false, action, false⟩

/-- A rule that is limited to the address 0.0.0.2. -/
def limitedRoute : DNSRule := ⟨limitedRule 2, .route "first" {} false, false⟩

/-- An address query, with every server loaded. -/
def sampleCall (rules : List DNSRule) : LegacyCall where
  transports := { transport := fun tag => some { tag }, default := { tag := "default" } }
  rules
  metadata := {}
  isAddressQuery := true
  allowFakeIP := true
  options := {}

def firstRejected : Nat → LegacyAnswer
  | 0 => .rejected false
  | _ => .response {}

theorem legacy_options_of_later_rule :
    ∃ found a, (sampleCall [limitedRoute, anyQuery (.routeOptions { rewriteTTL := some 60 }),
        anyQuery (.route "second" {} false)]).exchangeLegacy firstRejected =
          some (.exchanged found a) ∧
      found.start = 1 ∧ found.options = { rewriteTTL := some 60 } ∧
      found.options = (sampleCall [limitedRoute, anyQuery (.routeOptions { rewriteTTL := some 60 }),
        anyQuery (.route "second" {} false)]).expectedOptions found := by
  refine ⟨_, _, rfl, rfl, rfl, ?_⟩
  obtain ⟨-, -, h⟩ := legacy_options_iff (sampleCall [limitedRoute,
    anyQuery (.routeOptions { rewriteTTL := some 60 }), anyQuery (.route "second" {} false)])
    firstRejected (by decide)
  refine (h _ _ (.inl rfl)).mpr fun f => .inr ?_
  have hnone rules : (sampleCall rules).routeOptions [limitedRoute] = [] := by
    simp [routeOptions, limitedRoute]
  change (((sampleCall _).routeOptions [limitedRoute]).foldl DNSQueryOptions.overlay {}).Agree {} f
  exact DNSQueryOptions.agree_refl {} f

/-- The route-options rule before the rejected rule is forgotten. -/
theorem options_lost_after_rejection :
    ∃ found a, (sampleCall [anyQuery (.routeOptions { rewriteTTL := some 60 }), limitedRoute,
        anyQuery (.route "second" {} false)]).exchangeLegacy firstRejected =
          some (.exchanged found a) ∧
      found.options = {} ∧ (sampleCall [anyQuery (.routeOptions { rewriteTTL := some 60 }),
        limitedRoute, anyQuery (.route "second" {} false)]).expectedOptions found =
          { rewriteTTL := some 60 } :=
  ⟨_, _, rfl, rfl, rfl⟩

end LegacyCall

end SingBox.Dns
