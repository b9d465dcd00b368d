import SingBox.Dns.Async
import SingBox.Dns.Validated

/-! The race barrier: no decision outside the race passes an armed rule. -/

namespace SingBox.Dns
open Route List Nat

def Event.judgedIndex : Event → Option Nat
  | .judged i _ _ _ => some i
  | _ => none

def Event.raceMatched (rules : List DNSRule) : Event → Option Nat
  | .matched i _ _ _ => if rules[i]?.any DNSRule.race then some i else none
  | _ => none

/-- The transport is missing, or a fakeip one that the call does not allow. -/
def Transports.Unusable (r : Transports) (server : String) (allowFakeIP : Bool) : Prop :=
  r.transport server = none ∨
  ∃ transport, r.transport server = some transport ∧ transport.isFakeIP = true ∧ allowFakeIP = false

namespace Call
variable {e : Call} {rules : List DNSRule} {s t u : WalkState} {trace : List Event}

/-- What the record of a call says about race rules. -/
structure Barrier (e : Call) (rules : List DNSRule) (trace : List Event) : Prop where
  /-- A race rule is matched only to be judged. -/
  matched : trace.filterMap (Event.raceMatched rules) = trace.filterMap Event.judgedIndex
  /-- No race rule is judged twice. -/
  once : (trace.filterMap Event.judgedIndex).Nodup
  /-- A judged rule was armed, for the same futures. -/
  armed : ∀ before i bound now verdict, before ++ [.judged i bound now verdict] <+: trace →
    .armed i bound ∈ before
  /-- The futures of a judged rule were resolved. -/
  resolved : ∀ i bound now verdict, .judged i bound now verdict ∈ trace →
    ∀ f ∈ bound, e.resolved now f = true
  /-- A matching rule is skipped for its transport only. -/
  skipped : ∀ i bound now, .judged i bound now .skipped ∈ trace →
    ∃ r server options, rules[i]? = some r ∧ r.action = .route server options false ∧
      e.transports.Unusable server e.allowFakeIP
  /-- A decision outside the race leaves no armed rule behind. -/
  cleared : ∀ before j speculative, before ++ [.decided j speculative] <+: trace →
    ∀ i bound, .armed i bound ∈ before →
      i < j ∧ ∃ now verdict, .judged i bound now verdict ∈ before ∧ verdict ≠ .committed
  /-- A speculative exchange is decided on by the rule that launched it. -/
  speculative : ∀ j f, .decided j (some f) ∈ trace →
    f.origin = j ∧ ∃ r server options, rules[j]? = some r ∧ r.action = .route server options true

lemma prefix_concat {before : List Event} {x event : Event} : before ++ [x] <+: trace ++ [event] ↔
      (before = trace ∧ x = event) ∨ before ++ [x] <+: trace := by
  rw [prefix_concat_iff, append_singleton_inj]

namespace Barrier

lemma nil : Barrier e rules [] := by
  constructor <;> simp

variable (h : Barrier e rules trace)
include h

lemma other (event : Event)
    (hmatched : event.raceMatched rules = none) (hjudged : event.judgedIndex = none)
    (hdecided : ∀ j speculative, event ≠ .decided j speculative) :
    Barrier e rules (trace ++ [event]) := by
  have hnot : ∀ i bound now verdict, Event.judged i bound now verdict ≠ event := by
    rintro i bound now verdict rfl
    cases hjudged
  constructor
  · simp [filterMap_append, hmatched, hjudged, h.matched]
  · simpa [filterMap_append, hjudged] using h.once
  · intro before i bound now verdict hpre
    obtain ⟨-, heq⟩ | hpre := prefix_concat.mp hpre
    · exact absurd heq (hnot i bound now verdict)
    · exact h.armed before i bound now verdict hpre
  · intro i bound now verdict hmem
    obtain hmem | hmem := mem_append.mp hmem
    · exact h.resolved i bound now verdict hmem
    · exact absurd (mem_singleton.mp hmem) (hnot i bound now verdict)
  · intro i bound now hmem
    obtain hmem | hmem := mem_append.mp hmem
    · exact h.skipped i bound now hmem
    · exact absurd (mem_singleton.mp hmem) (hnot i bound now .skipped)
  · intro before j speculative hpre
    obtain ⟨-, heq⟩ | hpre := prefix_concat.mp hpre
    · exact absurd heq.symm (hdecided j speculative)
    · exact h.cleared before j speculative hpre
  · intro j f hmem
    obtain hmem | hmem := mem_append.mp hmem
    · exact h.speculative j f hmem
    · exact absurd (mem_singleton.mp hmem).symm (hdecided j (some f))

/-- The match of an armed race rule, and its judgement. -/
theorem judged {i now : Nat} {bound : List Future}
    {verdict : RaceVerdict} {tags : List String} {named : String → Option Msg}
    {registered : String → Option Future} (hrace : rules[i]?.any DNSRule.race)
    (hnew : i ∉ trace.filterMap Event.judgedIndex) (harmed : .armed i bound ∈ trace)
    (hres : ∀ f ∈ bound, e.resolved now f)
    (hskipped : verdict = .skipped → ∃ r server options, rules[i]? = some r ∧
      r.action = .route server options false ∧ e.transports.Unusable server e.allowFakeIP) :
    Barrier e rules (trace ++ [.matched i tags named registered, .judged i bound now verdict]) := by
  have hsplit : ∀ event : Event, trace ++ [.matched i tags named registered, event] =
      trace ++ [.matched i tags named registered] ++ [event] := by simp
  constructor
  · rw [filterMap_append, filterMap_append, h.matched]
    simp [filterMap_cons, Event.raceMatched, Event.judgedIndex, hrace]
  · have hlast : [Event.matched i tags named registered,
        .judged i bound now verdict].filterMap Event.judgedIndex = [i] := rfl
    rw [filterMap_append, hlast]
    refine nodup_append.mpr ⟨h.once, by simp, ?_⟩
    intro k hk k' hk' hsame
    rw [hsame, mem_singleton.mp hk'] at hk
    exact hnew hk
  · intro before i' bound' now' verdict' hpre
    rw [hsplit] at hpre
    obtain ⟨hbefore, heq⟩ | hpre := prefix_concat.mp hpre
    · cases heq
      rw [hbefore]
      exact mem_append_left _ harmed
    · obtain ⟨-, heq⟩ | hpre := prefix_concat.mp hpre
      · cases heq
      · exact h.armed before i' bound' now' verdict' hpre
  · intro i' bound' now' verdict' hmem
    obtain hmem | hmem := mem_append.mp hmem
    · exact h.resolved i' bound' now' verdict' hmem
    · obtain heq | hmem := mem_cons.mp hmem
      · cases heq
      · cases mem_singleton.mp hmem
        exact hres
  · intro i' bound' now' hmem
    obtain hmem | hmem := mem_append.mp hmem
    · exact h.skipped i' bound' now' hmem
    · obtain heq | hmem := mem_cons.mp hmem
      · cases heq
      · cases mem_singleton.mp hmem
        exact hskipped rfl
  · intro before j speculative hpre
    rw [hsplit] at hpre
    obtain ⟨-, heq⟩ | hpre := prefix_concat.mp hpre
    · cases heq
    · obtain ⟨-, heq⟩ | hpre := prefix_concat.mp hpre
      · cases heq
      · exact h.cleared before j speculative hpre
  · intro j f hmem
    obtain hmem | hmem := mem_append.mp hmem
    · exact h.speculative j f hmem
    · simp at hmem

lemma decided {j : Nat} {speculative : Option Future}
    (hcleared : ∀ i bound, .armed i bound ∈ trace →
      i < j ∧ ∃ now verdict, .judged i bound now verdict ∈ trace ∧ verdict ≠ .committed)
    (hspec : ∀ f, speculative = some f → f.origin = j ∧
      ∃ r server options, rules[j]? = some r ∧ r.action = .route server options true) :
    Barrier e rules (trace ++ [.decided j speculative]) := by
  constructor
  · rw [filterMap_append, filterMap_append, h.matched]
    rfl
  · rw [filterMap_append]
    exact (append_nil _).symm ▸ h.once
  · intro before i bound now verdict hpre
    obtain ⟨-, heq⟩ | hpre := prefix_concat.mp hpre
    · cases heq
    · exact h.armed before i bound now verdict hpre
  · intro i bound now verdict hmem
    obtain hmem | hmem := mem_append.mp hmem
    · exact h.resolved i bound now verdict hmem
    · cases mem_singleton.mp hmem
  · intro i bound now hmem
    obtain hmem | hmem := mem_append.mp hmem
    · exact h.skipped i bound now hmem
    · cases mem_singleton.mp hmem
  · intro before j' speculative' hpre
    obtain ⟨hbefore, heq⟩ | hpre := prefix_concat.mp hpre
    · cases heq
      rwa [hbefore]
    · exact h.cleared before j' speculative' hpre
  · intro j' f hmem
    obtain hmem | hmem := mem_append.mp hmem
    · exact h.speculative j' f hmem
    · cases mem_singleton.mp hmem
      exact hspec f rfl

end Barrier

/-! ## Runs keep the barrier -/

/-- The armed rules against the record: every rule that was armed is still armed or
was judged, and no rule is both. -/
structure Ledger (e : Call) (rules : List DNSRule) (s : WalkState) : Prop where
  barrier : Barrier e rules s.trace
  below : ∀ i bound, .armed i bound ∈ s.trace → i < s.ruleIndex
  account : ∀ i bound, .armed i bound ∈ s.trace →
    (∃ a ∈ s.armedRules, a.ruleIndex = i ∧ a.bound = bound) ∨
    ∃ now verdict, .judged i bound now verdict ∈ s.trace ∧ verdict ≠ .committed
  entry : ∀ a ∈ s.armedRules, .armed a.ruleIndex a.bound ∈ s.trace ∧
    rules[a.ruleIndex]? = some a.rule ∧ a.rule.race = true
  waiting : ∀ a ∈ s.armedRules, ∀ f ∈ a.bound, f ∈ a.futures ∨ e.resolved s.now f = true
  distinct : (s.trace.filterMap Event.judgedIndex ++ s.armedRules.map ArmedRule.ruleIndex).Nodup
  terminal : ∀ f, s.terminalFuture = some f → (∃ r ∈ rules, r.race = true) ∧
    ∃ r server options, rules[f.origin]? = some r ∧ r.action = .route server options true

lemma ledger_initial (options : DNSQueryOptions) :
    Ledger e rules { effectiveOptions := options } := by
  constructor <;> simp [Barrier.nil]

namespace Ledger

section
variable (h : Ledger e rules s)
include h

lemma frame (htrace : t.trace = s.trace)
    (harmed : t.armedRules = s.armedRules) (hidx : s.ruleIndex ≤ t.ruleIndex)
    (hnow : s.now ≤ t.now) (hterm : t.terminalFuture = s.terminalFuture) : Ledger e rules t := by
  cases s
  cases t
  subst htrace harmed hterm
  refine { h with
    below := fun i bound hmem => lt_of_lt_of_le (h.below i bound hmem) hidx
    waiting := fun a ha f hf => ?_ }
  obtain hf | hf := h.waiting a ha f hf
  · exact .inl hf
  · exact .inr (resolved_mono hf hnow)

lemma record {event : Event}
    (hbarrier : Barrier e rules (s.trace ++ [event])) (hjudged : event.judgedIndex = none)
    (harmed : ∀ i bound, .armed i bound ≠ event) : Ledger e rules (s.record event) := { h with
  barrier := hbarrier
  below i bound hmem := by
    obtain hmem | hmem := mem_append.mp hmem
    · exact h.below i bound hmem
    · exact absurd (mem_singleton.mp hmem) (harmed i bound)
  account i bound hmem := by
    obtain hmem | hmem := mem_append.mp hmem
    · obtain ha | ⟨now, verdict, hmem, hopen⟩ := h.account i bound hmem
      · exact .inl ha
      · exact .inr ⟨now, verdict, mem_append_left _ hmem, hopen⟩
    · exact absurd (mem_singleton.mp hmem) (harmed i bound)
  entry a ha := ⟨mem_append_left _ (h.entry a ha).1, (h.entry a ha).2⟩
  distinct := by
    have hsame : (s.trace ++ [event]).filterMap Event.judgedIndex =
        s.trace.filterMap Event.judgedIndex := by
      simp [filterMap_append, hjudged]
    rw [WalkState.record, hsame]
    exact h.distinct }

lemma armed_of_judged {i now : Nat} {bound : List Future} {verdict : RaceVerdict}
    (hmem : .judged i bound now verdict ∈ s.trace) : .armed i bound ∈ s.trace := by
  obtain ⟨before, after, htrace⟩ := append_of_mem hmem
  have hpre : before ++ [.judged i bound now verdict] <+: s.trace := by
    rw [htrace]
    exact ⟨after, by simp⟩
  have harmed := h.barrier.armed before i bound now verdict hpre
  rw [htrace]
  exact mem_append_left _ harmed

/-- The rules in the ledger come before the current one. -/
theorem lt_of_mem {i : Nat}
    (hi : i ∈ s.trace.filterMap Event.judgedIndex ++ s.armedRules.map ArmedRule.ruleIndex) :
    i < s.ruleIndex := by
  obtain hi | hi := mem_append.mp hi
  · obtain ⟨event, hmem, hevent⟩ := mem_filterMap.mp hi
    cases event with
    | judged j bound now verdict =>
      cases hevent
      exact h.below _ bound (h.armed_of_judged hmem)
    | checked | matched | armed | decided => cases hevent
  · obtain ⟨a, ha, rfl⟩ := mem_map.mp hi
    exact h.below _ _ (h.entry a ha).1

lemma arm {r : DNSRule} (hr : rules[s.ruleIndex]? = some r) (hrace : r.race) :
    Ledger e rules { e.armedState s r with ruleIndex := s.ruleIndex + 1 } := { h with
  barrier := by
    have hchecked := h.barrier.other (.checked s.settledAt
      ((boundFutures s r).filter (e.resolved s.now))) rfl rfl (by simp)
    have harmed := hchecked.other (.armed s.ruleIndex (boundFutures s r)) rfl rfl (by simp)
    simpa [armedState] using harmed
  below i bound hmem := by
    obtain hmem | hmem := mem_append.mp hmem
    · exact lt_succ_of_lt (h.below i bound hmem)
    · have hi : i = s.ruleIndex ∧ bound = boundFutures s r := by simpa using hmem
      rw [hi.1]
      exact lt_succ_self _
  account i bound hmem := by
    obtain hmem | hmem := mem_append.mp hmem
    · obtain ⟨a, ha, hsame⟩ | ⟨now, verdict, hmem, hopen⟩ := h.account i bound hmem
      · exact .inl ⟨a, mem_append_left _ ha, hsame⟩
      · exact .inr ⟨now, verdict, mem_append_left _ hmem, hopen⟩
    · have hi : i = s.ruleIndex ∧ bound = boundFutures s r := by simpa using hmem
      exact .inl ⟨e.armedEntry s r, mem_append_right _ (mem_singleton_self _), hi.1.symm, hi.2.symm⟩
  entry a ha := by
    obtain ha | ha := mem_append.mp ha
    · exact ⟨mem_append_left _ (h.entry a ha).1, (h.entry a ha).2⟩
    · rw [mem_singleton.mp ha]
      exact ⟨mem_append_right _ (by simp [armedEntry]), hr, hrace⟩
  waiting a ha f hf := by
    obtain ha | ha := mem_append.mp ha
    · obtain hf | hf := h.waiting a ha f hf
      · exact .inl hf
      · exact .inr (resolved_mono hf (le_succ _))
    · rw [mem_singleton.mp ha] at hf ⊢
      cases hres : e.resolved s.now f with
      | true => exact .inr (resolved_mono hres (le_succ _))
      | false => exact .inl (mem_filter.mpr ⟨hf, by rw [hres]; rfl⟩)
  distinct := by
    have hsame : (e.armedState s r).trace.filterMap Event.judgedIndex =
        s.trace.filterMap Event.judgedIndex := by
      rw [armedState, filterMap_append]
      exact append_nil _
    rw [hsame, armedState, map_append, ← append_assoc]
    refine nodup_append.mpr ⟨h.distinct, by simp, ?_⟩
    intro i hi j hj hij
    have hj : j = s.ruleIndex := by simpa [armedEntry] using hj
    exact absurd (h.lt_of_mem hi) (by omega) }

end

lemma armedAction_skip {armed : ArmedRule} (h : e.armedAction u armed = .skip)
    (hready : armed.rule.RaceReady) : ∃ server options,
      armed.rule.action = .route server options false ∧
      e.transports.Unusable server e.allowFakeIP := by
  obtain ⟨-, hfinal, hreply, hspec⟩ := hready
  unfold armedAction at h
  split at h
  · cases h
  · rename_i server options speculative hact
    rw [hact] at hspec
    cases hspec
    refine ⟨server, options, hact, ?_⟩
    unfold Transports.resolveDNSRoute at h
    cases htrans : e.transports.transport server with
    | none => exact .inl htrans
    | some transport =>
      rw [htrans] at h
      dsimp only at h
      split at h
      · cases h
      · rename_i hroute
        refine .inr ⟨transport, htrans, ?_⟩
        split at hroute
        · rename_i hfake
          simpa using hfake
        · exact absurd rfl (hroute _ _)
  · rename_i method hact
    cases method with
    | default | drop => cases h
    | reply =>
      rw [hact] at hreply
      cases hreply
  · cases h
  · rename_i hact
    rw [hact] at hfinal
    cases hfinal
  · rename_i hact
    rw [hact] at hfinal
    cases hfinal

section judge
variable {armed : ArmedRule} {before after : List ArmedRule} {verdict : RaceVerdict} {now : Nat}

/-- A judgement of an armed rule keeps the barrier, whatever the verdict. -/
theorem barrier_judged (h : Ledger e rules s) (hvalid : ValidRules rules)
    (harmed : s.armedRules = before ++ armed :: after)
    (hready : ∀ f ∈ armed.futures, e.resolved s.now f)
    (hskip : verdict = .skipped → ∃ u, e.armedAction u armed = .skip) :
    Barrier e rules (judgedState s armed (before ++ after) verdict now).trace := by
  have hmem : armed ∈ s.armedRules := by simp [harmed]
  obtain ⟨hevent, hrule, hrace⟩ := h.entry armed hmem
  have hchecked := h.barrier.other (.checked s.settledAt armed.futures) rfl rfl (by simp)
  have hnew : armed.ruleIndex ∉ s.trace.filterMap Event.judgedIndex := by
    intro hi
    exact (nodup_append.mp h.distinct).2.2 _ hi _ (mem_map_of_mem hmem) rfl
  have hnew' : armed.ruleIndex ∉ (s.trace ++ [Event.checked s.settledAt
      armed.futures]).filterMap Event.judgedIndex := by
    rw [filterMap_append]
    exact (append_nil _).symm ▸ hnew
  have hres : ∀ f ∈ armed.bound, e.resolved (s.now + 1) f := by
    intro f hf
    obtain hf | hf := h.waiting armed hmem f hf
    · exact resolved_mono (hready f hf) (le_succ _)
    · exact resolved_mono hf (le_succ _)
  have hskipped : verdict = .skipped → ∃ r server options, rules[armed.ruleIndex]? = some r ∧
      r.action = .route server options false ∧ e.transports.Unusable server e.allowFakeIP := by
    intro hskipped
    obtain ⟨u, hu⟩ := hskip hskipped
    have hraceReady := (hvalid.rule armed.rule (mem_of_getElem? hrule)).race hrace
    obtain ⟨server, options, hact, hunusable⟩ := armedAction_skip hu hraceReady
    exact ⟨armed.rule, server, options, hrule, hact, hunusable⟩
  have hjudged : Barrier e rules (s.trace ++ [.checked s.settledAt
      armed.futures] ++ [.matched armed.ruleIndex armed.rule.matchResponseTags
        s.namedResponses s.namedFutures, .judged armed.ruleIndex armed.bound (s.now + 1) verdict]) :=
    hchecked.judged (by simp [hrule, hrace]) hnew' (mem_append_left _ hevent) hres hskipped
  simpa [judgedState] using hjudged

lemma judge (h : Ledger e rules s) (hvalid : ValidRules rules)
    (harmed : s.armedRules = before ++ armed :: after)
    (hready : ∀ f ∈ armed.futures, e.resolved s.now f) (hnow : s.now < now)
    (hopen : verdict ≠ .committed)
    (hskip : verdict = .skipped → ∃ u, e.armedAction u armed = .skip) :
    Ledger e rules (judgedState s armed (before ++ after) verdict now) := by
  have hold : ∀ i bound, .armed i bound ∈ (judgedState s armed (before ++ after) verdict now).trace →
      .armed i bound ∈ s.trace := by
    intro i bound hmem
    simpa [judgedState] using hmem
  have hsub : ∀ a ∈ before ++ after, a ∈ s.armedRules := by
    intro a ha
    rw [harmed]
    obtain ha | ha := mem_append.mp ha
    · exact mem_append_left _ ha
    · exact mem_append_right _ (mem_cons_of_mem _ ha)
  refine ⟨h.barrier_judged hvalid harmed hready hskip, fun i bound hmem => h.below i bound
    (hold i bound hmem), ?_, ?_, ?_, ?_, h.terminal⟩
  · intro i bound hmem
    obtain ⟨a, ha, hi, hbound⟩ | ⟨now', verdict', hmem, ho⟩ := h.account i bound (hold i bound hmem)
    · rw [harmed] at ha
      obtain ha | ha := mem_append.mp ha
      · exact .inl ⟨a, mem_append_left _ ha, hi, hbound⟩
      · obtain rfl | ha := mem_cons.mp ha
        · subst hi hbound
          exact .inr ⟨s.now + 1, verdict, mem_append_right _ (by simp), hopen⟩
        · exact .inl ⟨a, mem_append_right _ ha, hi, hbound⟩
    · exact .inr ⟨now', verdict', mem_append_left _ hmem, ho⟩
  · intro a ha
    exact ⟨mem_append_left _ (h.entry a (hsub a ha)).1, (h.entry a (hsub a ha)).2⟩
  · intro a ha f hf
    obtain hf | hf := h.waiting a (hsub a ha) f hf
    · exact .inl hf
    · exact .inr (resolved_mono hf (le_of_lt hnow))
  · have hjudged : (judgedState s armed (before ++ after) verdict now).trace.filterMap
        Event.judgedIndex = s.trace.filterMap Event.judgedIndex ++ [armed.ruleIndex] := by
      rw [judgedState, filterMap_append]
      rfl
    have hdist := h.distinct
    rw [harmed, map_append, map_cons] at hdist
    rw [hjudged, judgedState, map_append, append_assoc]
    have hperm : (before.map ArmedRule.ruleIndex ++
        armed.ruleIndex :: after.map ArmedRule.ruleIndex).Perm
        ([armed.ruleIndex] ++ (before.map ArmedRule.ruleIndex ++ after.map ArmedRule.ruleIndex)) :=
      perm_middle
    exact (hperm.append_left _).nodup_iff.mp hdist

end judge

lemma step (h : Ledger e rules s) (hvalid : ValidRules rules) (hs : Step e rules s t) :
    Ledger e rules t := by
  cases hs with
  | elapse now hnow | wait now taken hnow => exact h.frame rfl rfl (le_refl _) hnow rfl
  | settle => exact h.frame (by simp) (by simp) (by simp) (by simp) (by simp)
  | look => exact h.record (h.barrier.other _ rfl rfl (by simp)) rfl (by simp)
  | matched r hr hrace =>
    have hnotRace : (Event.matched s.ruleIndex r.matchResponseTags s.namedResponses
        s.namedFutures).raceMatched rules = none := by
      have hrace : r.race = false := by
        cases hrace' : r.race with
        | false => rfl
        | true =>
          have hready := (hvalid.rule r (mem_of_getElem? hr)).race hrace'
          rw [← hready.hasBindings, hrace hrace']
      simp [Event.raceMatched, hr, hrace]
    exact (h.record (h.barrier.other _ hnotRace rfl (by simp)) rfl (by simp)).frame rfl rfl
      (le_refl _) (le_succ _) rfl
  | next => exact h.frame rfl rfl (le_succ _) (le_refl _) rfl
  | options | unbind => exact h.frame rfl rfl (le_refl _) (le_refl _) rfl
  | launch r server tag options speculative transport =>
    obtain ⟨anonymous, named, heval⟩ := evaluate_frame e s tag transport options
    rw [heval]
    exact h.frame rfl rfl (le_succ _) (le_refl _) rfl
  | speculate r server options transport queryOptions hr hact harmed hterm =>
    refine { h with terminal := ?_ }
    rintro f ⟨rfl⟩
    refine ⟨?_, r, server, options, hr, hact⟩
    obtain ⟨a, ha⟩ := exists_mem_of_ne_nil _ harmed
    obtain ⟨-, hrule, hrace⟩ := h.entry a ha
    exact ⟨a.rule, mem_of_getElem? hrule, hrace⟩
  | arm r hr hrace hfresh => exact h.arm hr hrace
  | judge armed before after verdict now harmed hready hfresh hnow hopen hskip =>
    exact h.judge hvalid harmed hready hnow hopen hskip
  | decide speculative harmed hspec =>
    refine h.record (h.barrier.decided (fun i bound hmem => ⟨h.below i bound hmem, ?_⟩) ?_) rfl
      (by simp)
    · obtain ⟨a, ha, -⟩ | hjudged := h.account i bound hmem
      · simp [harmed] at ha
      · exact hjudged
    · intro f hf
      obtain ⟨hterm, horigin⟩ := hspec f hf
      exact ⟨horigin, horigin ▸ (h.terminal f hterm).2⟩

lemma reaches (h : Ledger e rules s) (hvalid : ValidRules rules) (hr : Reaches e rules s t) :
    Ledger e rules t := by
  induction hr with
  | refl => exact h
  | tail _ hs ih => exact ih.step hvalid hs

end Ledger

end Call

end SingBox.Dns
