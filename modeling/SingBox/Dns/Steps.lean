import SingBox.Dns.WalkFacts
import Mathlib.Logic.Relation

/-! The walk as a transition system. Every call of the router is a run of it, so
what each step keeps holds at every point of every call. -/

namespace SingBox.Dns
open List Nat Option
open List.Subset (refl)

/-- No exchange was launched since the last settling. -/
def WalkState.Fresh (s : WalkState) : Prop := ∀ f ∈ s.futures, f.launchedAt ≤ s.settledAt

namespace Call
variable {e : Call} {rules : List DNSRule} {s t u : WalkState}

/-- The future was found resolved by a look that followed the last settling. -/
def Looked (s : WalkState) (f : Future) : Prop :=
  ∃ found, .checked s.settledAt found ∈ s.trace ∧ f ∈ found

/-- The entry for a race rule that is armed at `s`. -/
def armedEntry (e : Call) (s : WalkState) (r : DNSRule) : ArmedRule where
  ruleIndex := s.ruleIndex
  rule := r
  bound := boundFutures s r
  futures := (boundFutures s r).filter fun f => !e.resolved s.now f
  anonymousFuture := if r.matchResponseAnonymous then s.anonymousFuture else none
  options := s.effectiveOptions

def armedState (e : Call) (s : WalkState) (r : DNSRule) : WalkState :=
  { s with
    armedRules := s.armedRules ++ [e.armedEntry s r]
    now := s.now + 1
    trace := s.trace ++ [.checked s.settledAt ((boundFutures s r).filter (e.resolved s.now)),
       .armed s.ruleIndex (boundFutures s r)] }

/-- The moves of a walk that has not committed a race rule. -/
inductive Step (e : Call) (rules : List DNSRule) : WalkState → WalkState → Prop
  | elapse (s : WalkState) (now : Nat) (hnow : s.now ≤ now) : Step e rules s { s with now }
  | wait (s : WalkState) (now taken : Nat) (hnow : s.now ≤ now) (htaken : taken ≤ now) :
      Step e rules s { s with now, taken }
  | settle (s : WalkState) : Step e rules s (e.settleDNSFutures s)
  | look (s : WalkState) (found : List Future) : Step e rules s (check s found)
  | matched (s : WalkState) (r : DNSRule) (hr : rules[s.ruleIndex]? = some r)
      (hrace : r.race = true → r.hasBindings = false)
      (hfresh : r.hasBindings = true → s.Fresh)
      (hlooked : ∀ f ∈ boundFutures s r, Looked s f) :
      Step e rules s (noteMatch s s.ruleIndex r).tick
  | next (s : WalkState) (hlt : s.ruleIndex < rules.length) :
      Step e rules s { s with ruleIndex := s.ruleIndex + 1 }
  | options (s : WalkState) (options : DNSQueryOptions) :
      Step e rules s { s with effectiveOptions := options }
  | unbind (s : WalkState) : Step e rules s { s with anonymousFuture := none }
  | launch (s : WalkState) (r : DNSRule) (server tag : String) (options : DNSRouteOptions)
      (speculative : Bool) (transport : DNSTransport) (hr : rules[s.ruleIndex]? = some r)
      (haction : r.action = .evaluate server tag options speculative) (hnow : 0 < s.now) :
      Step e rules s { e.evaluate s tag transport options with ruleIndex := s.ruleIndex + 1 }
  | speculate (s : WalkState) (r : DNSRule) (server : String) (options : DNSRouteOptions)
      (transport : DNSTransport) (queryOptions : DNSQueryOptions)
      (hr : rules[s.ruleIndex]? = some r) (haction : r.action = .route server options true)
      (harmed : s.armedRules ≠ []) (hterminal : s.terminalFuture = none) (hnow : 0 < s.now) :
      Step e rules s
        { s with futures := s.futures ++ [e.newFuture s "" true transport queryOptions]
                 terminalFuture := some (e.newFuture s "" true transport queryOptions) }
  | arm (s : WalkState) (r : DNSRule) (hr : rules[s.ruleIndex]? = some r)
      (hrace : r.race = true) (hfresh : s.Fresh) :
      Step e rules s { e.armedState s r with ruleIndex := s.ruleIndex + 1 }
  | judge (s : WalkState) (armed : ArmedRule) (before after : List ArmedRule)
      (verdict : RaceVerdict) (now : Nat) (harmed : s.armedRules = before ++ armed :: after)
      (hready : ∀ f ∈ armed.futures, e.resolved s.now f = true) (hfresh : s.Fresh)
      (hnow : s.now < now) (hopen : verdict ≠ .committed)
      (hskip : verdict = .skipped → ∃ t, e.armedAction t armed = .skip) :
      Step e rules s (judgedState s armed (before ++ after) verdict now)
  | decide (s : WalkState) (speculative : Option Future) (harmed : s.armedRules = [])
      (hspec : ∀ f, speculative = some f → s.terminalFuture = some f ∧ f.origin = s.ruleIndex) :
      Step e rules s (s.record (.decided s.ruleIndex speculative))

/-- The last move of a walk that commits a race rule. -/
inductive Commits (e : Call) : WalkState → WalkState → Prop
  | judge (s : WalkState) (armed : ArmedRule) (before after : List ArmedRule) (now : Nat)
      (harmed : s.armedRules = before ++ armed :: after)
      (hready : ∀ f ∈ armed.futures, e.resolved s.now f = true) (hfresh : s.Fresh)
      (hnow : s.now < now) :
      Commits e s (judgedState s armed (before ++ after) .committed now)

def Reaches (e : Call) (rules : List DNSRule) : WalkState → WalkState → Prop :=
  Relation.ReflTransGen (Step e rules)

/-- The states of a walk up to the commit of a race rule. -/
def Run (e : Call) (rules : List DNSRule) (options : DNSQueryOptions) : WalkState → Prop :=
  Reaches e rules { effectiveOptions := options }

lemma Reaches.step (h : Reaches e rules s t) (hs : Step e rules t u) : Reaches e rules s u :=
  Relation.ReflTransGen.tail h hs

lemma Step.reaches (hs : Step e rules s t) : Reaches e rules s t := Relation.ReflTransGen.single hs

lemma Reaches.trans (h : Reaches e rules s t) (h' : Reaches e rules t u) : Reaches e rules s u :=
  Relation.ReflTransGen.trans h h'

lemma Step.tick : Step e rules s s.tick := .elapse s (s.now + 1) (le_succ _)

lemma Step.now_le (h : Step e rules s t) : s.now ≤ t.now := by
  cases h with
  | elapse now hnow | wait now taken hnow => exact hnow
  | settle =>
    rw [settleDNSFutures_now]
    exact le_succ _
  | matched | arm => exact le_succ _
  | judge armed before after verdict now harmed hready hfresh hnow => exact Nat.le_of_lt hnow
  | launch r server tag options speculative transport =>
    obtain ⟨anonymous, named, heval⟩ := evaluate_frame e s tag transport options
    exact Nat.le_of_eq (by rw [heval])
  | look | next | options | unbind | speculate | decide => exact Nat.le_refl _

lemma Reaches.now_le (h : Reaches e rules s t) : s.now ≤ t.now := by
  induction h with
  | refl => exact Nat.le_refl _
  | tail _ hs ih => exact Nat.le_trans ih hs.now_le

lemma Step.trace_prefix (h : Step e rules s t) : s.trace <+: t.trace := by
  cases h with
  | settle => exact ⟨[], by rw [settleDNSFutures_trace, append_nil]⟩
  | launch r server tag options speculative transport =>
    obtain ⟨anonymous, named, heval⟩ := evaluate_frame e s tag transport options
    exact ⟨[], by rw [heval, append_nil]⟩
  | look | matched | arm | judge | decide => exact prefix_append _ _
  | elapse | wait | next | options | unbind | speculate => exact prefix_rfl

lemma Reaches.trace_prefix (h : Reaches e rules s t) : s.trace <+: t.trace := by
  induction h with
  | refl => exact prefix_rfl
  | tail _ hs ih => exact ih.trans hs.trace_prefix

/-! ## Launched futures -/

/-- Every future the state refers to was launched by a rule, in the past. -/
structure Launched (rules : List DNSRule) (s : WalkState) : Prop where
  anonymous : ∀ f, s.anonymousFuture = some f → f ∈ s.futures
  named : ∀ tag f, s.namedFutures tag = some f → f ∈ s.futures
  bound : ∀ a ∈ s.armedRules, a.bound ⊆ s.futures
  pending : ∀ a ∈ s.armedRules, a.futures ⊆ a.bound
  origin : ∀ f ∈ s.futures, f.origin < rules.length
  launchedAt : ∀ f ∈ s.futures, f.launchedAt ≤ s.now
  taken : s.taken ≤ s.now

lemma launched_initial (options : DNSQueryOptions) :
    Launched rules { effectiveOptions := options } := by
  constructor <;> simp

namespace Launched

variable (h : Launched rules s)
include h

lemma frame (hfutures : t.futures = s.futures)
    (hanon : t.anonymousFuture = s.anonymousFuture ∨ t.anonymousFuture = none)
    (hnamed : t.namedFutures = s.namedFutures) (harmed : t.armedRules ⊆ s.armedRules)
    (hnow : s.now ≤ t.now) (htaken : t.taken ≤ t.now) : Launched rules t := by
  cases s
  cases t
  subst hfutures hnamed
  refine ⟨fun f hf => ?_, h.named, fun a ha => h.bound a (harmed ha),
    fun a ha => h.pending a (harmed ha),
    h.origin, fun f hf => Nat.le_trans (h.launchedAt f hf) hnow, htaken⟩
  obtain hsame | hnone := hanon
  · exact h.anonymous f (hsame ▸ hf)
  · cases hnone.symm.trans hf

lemma boundFutures_subset (r : DNSRule) : boundFutures s r ⊆ s.futures := by
  intro f hf
  rw [boundFutures, mem_append] at hf
  obtain hf | hf := hf
  · obtain ⟨tag, -, htag⟩ := mem_filterMap.mp hf
    exact h.named tag f htag
  · split at hf
    · exact h.anonymous f (mem_toList.mp hf)
    · cases hf

/-- One more future, launched now by the current rule. -/
theorem append {f : Future} (horigin : f.origin < rules.length) (hlaunch : f.launchedAt ≤ s.now) :
    Launched rules { s with futures := s.futures ++ [f] } := { h with
  anonymous g hg := mem_append_left _ (h.anonymous g hg)
  named tag g hg := mem_append_left _ (h.named tag g hg)
  bound a ha := fun g hg => mem_append_left _ (h.bound a ha hg)
  origin g hg := by
    obtain hg | hg := mem_append.mp hg
    · exact h.origin g hg
    · rwa [mem_singleton.mp hg]
  launchedAt g hg := by
    obtain hg | hg := mem_append.mp hg
    · exact h.launchedAt g hg
    · rw [mem_singleton.mp hg]
      exact hlaunch }

lemma evaluate (hlt : s.ruleIndex < rules.length) (tag : String) (transport : DNSTransport)
    (options : DNSRouteOptions) : Launched rules (e.evaluate s tag transport options) := by
  have happend := h.append (f := e.newFuture s tag false transport
    (applyDNSRouteOptions s.effectiveOptions options)) hlt (Nat.le_refl _)
  unfold Call.evaluate
  split
  · exact { happend with
      anonymous := by
        rintro f ⟨rfl⟩
        exact mem_append_right _ (mem_singleton_self _) }
  · refine { happend with named := ?_ }
    intro tag' f hf
    dsimp only at hf ⊢
    by_cases htag : tag' = tag
    · subst htag
      rw [Function.update_self] at hf
      cases hf
      exact mem_append_right _ (mem_singleton_self _)
    · rw [Function.update_of_ne htag] at hf
      exact happend.named tag' f hf

lemma armedState (r : DNSRule) : Launched rules (e.armedState s r) := { h with
  bound a ha := by
    obtain ha | ha := mem_append.mp ha
    · exact h.bound a ha
    · rw [mem_singleton.mp ha]
      exact h.boundFutures_subset r
  pending a ha := by
    obtain ha | ha := mem_append.mp ha
    · exact h.pending a ha
    · rw [mem_singleton.mp ha]
      intro f hf
      exact mem_of_mem_filter hf
  launchedAt f hf := le_succ_of_le (h.launchedAt f hf)
  taken := le_succ_of_le h.taken }

lemma step (hs : Step e rules s t) : Launched rules t := by
  cases hs with
  | elapse now hnow => exact h.frame rfl (.inl rfl) rfl (refl _) hnow (Nat.le_trans h.taken hnow)
  | wait now taken hnow htaken => exact h.frame rfl (.inl rfl) rfl (refl _) hnow htaken
  | settle =>
    have htaken := h.taken
    exact h.frame (by simp) (.inl (by simp)) (by simp) (by simp) (by simp) (by simp; omega)
  | matched =>
    exact h.frame rfl (.inl rfl) rfl (refl _) (le_succ _)
      (le_succ_of_le h.taken)
  | look | next | options | decide =>
    exact h.frame rfl (.inl rfl) rfl (refl _) (Nat.le_refl _) h.taken
  | unbind => exact h.frame rfl (.inr rfl) rfl (refl _) (Nat.le_refl _) h.taken
  | launch r server tag options speculative transport hr =>
    have hlt : s.ruleIndex < rules.length := (List.getElem?_eq_some_iff.mp hr).1
    exact (h.evaluate hlt tag transport options).frame rfl (.inl rfl) rfl (refl _)
      (Nat.le_refl _) (h.evaluate hlt tag transport options).taken
  | speculate r server options transport queryOptions hr =>
    have happend := h.append (f := e.newFuture s "" true transport queryOptions)
      (List.getElem?_eq_some_iff.mp hr).1 (Nat.le_refl _)
    exact happend.frame rfl (.inl rfl) rfl (refl _) (Nat.le_refl _) happend.taken
  | arm r hr hrace hfresh =>
    exact (h.armedState r).frame rfl (.inl rfl) rfl (refl _) (Nat.le_refl _)
      (h.armedState (e := e) r).taken
  | judge armed before after verdict now harmed hready hfresh hnow =>
    have hsub : before ++ after ⊆ s.armedRules := by
      rw [harmed]
      exact ((sublist_cons_self armed after).append_left before).subset
    exact h.frame rfl (.inl rfl) rfl hsub (Nat.le_of_lt hnow)
      (Nat.le_trans h.taken (Nat.le_of_lt hnow))

lemma reaches (hr : Reaches e rules s t) : Launched rules t := by
  induction hr with
  | refl => exact h
  | tail _ hs ih => exact ih.step hs

end Launched

lemma fresh_settleDNSFutures (h : Launched rules s) : (e.settleDNSFutures s).Fresh := by
  intro f hf
  rw [settleDNSFutures_futures] at hf
  exact h.launchedAt f hf

/-! ## The sweep is a run -/

section
variable (e rules)

/-- A round of the sweep of `s`, whose current rule counts as rule `k`. -/
structure Sweeping (k : Nat) (s : WalkState) (rest waiting : List ArmedRule) (t : WalkState) :
    Prop where
  frame : ∃ now trace, t = { s with armedRules := waiting ++ rest, now, trace } ∧ s.now ≤ now
  rest_subset : rest ⊆ s.armedRules
  pending : waiting ≠ [] → ∃ a ∈ s.armedRules, ∃ f ∈ a.futures, e.resolved s.now f = false
  reaches : Reaches e rules { s with ruleIndex := k } { t with ruleIndex := k }

/-- The outcomes of the sweep of `s`, whose current rule counts as rule `k`. -/
inductive Sweeps (k : Nat) (s : WalkState) : SweepOutcome → Prop
  | idle (t : WalkState) (h : Sweeping e rules k s [] t.armedRules t) : Sweeps k s (.idle t)
  | result (t u : WalkState) (r : ExchangeResult)
      (hreach : Reaches e rules { s with ruleIndex := k } u)
      (hcommit : Commits e u { t with ruleIndex := k }) : Sweeps k s (.result t r)
  | pending (t u : WalkState) (transport : DNSTransport) (options : DNSQueryOptions)
      (hreach : Reaches e rules { s with ruleIndex := k } u)
      (hcommit : Commits e u { t with ruleIndex := k }) :
      Sweeps k s (.pending t (.exchange transport options))

end

namespace Sweeping
variable {k : Nat} {armed : ArmedRule} {rest waiting : List ArmedRule}

lemma pass (h : Sweeping e rules k s (armed :: rest) waiting t)
    (hpending : ∃ f ∈ armed.futures, e.resolved t.now f = false) :
    Sweeping e rules k s rest (waiting ++ [armed]) t.tick where
  frame := by
    obtain ⟨now, trace, rfl, hnow⟩ := h.frame
    have hmoved : waiting ++ [armed] ++ rest = waiting ++ armed :: rest := (append_cons ..).symm
    rw [hmoved]
    exact ⟨now + 1, _, rfl, le_succ_of_le hnow⟩
  rest_subset := List.Subset.trans (subset_cons_self _ _) h.rest_subset
  pending _ := by
    obtain ⟨f, hf, hunres⟩ := hpending
    obtain ⟨now, trace, rfl, hnow⟩ := h.frame
    exact ⟨armed, h.rest_subset mem_cons_self, f, hf, unresolved_of_le hunres hnow⟩
  reaches := h.reaches.step .tick

section
variable (h : Sweeping e rules k s rest waiting t)
include h

lemma fresh (hfresh : s.Fresh) : t.Fresh := by
  obtain ⟨now, trace, rfl, -⟩ := h.frame
  exact hfresh

lemma armedRules_eq : t.armedRules = waiting ++ rest := by
  obtain ⟨now, trace, rfl, -⟩ := h.frame
  rfl

end

variable (h : Sweeping e rules k s (armed :: rest) waiting t)
include h

variable {now : Nat}

lemma judge (hfresh : s.Fresh)
    {verdict : RaceVerdict} (hready : ∀ f ∈ armed.futures, e.resolved t.now f)
    (hnow : t.now < now) (hopen : verdict ≠ .committed)
    (hskip : verdict = .skipped → ∃ u, e.armedAction u armed = .skip) :
    Sweeping e rules k s rest waiting (judgedState t armed (waiting ++ rest) verdict now) := { h with
  frame := by
    obtain ⟨now', trace, rfl, hle⟩ := h.frame
    exact ⟨now, _, rfl, Nat.le_of_lt (Nat.lt_of_le_of_lt hle hnow)⟩
  rest_subset := List.Subset.trans (subset_cons_self _ _) h.rest_subset
  reaches := h.reaches.step (.judge { t with ruleIndex := k } armed waiting rest verdict now
    h.armedRules_eq hready (h.fresh hfresh) hnow hopen hskip) }

lemma commits (hfresh : s.Fresh)
    (hready : ∀ f ∈ armed.futures, e.resolved t.now f) (hnow : t.now < now) :
    Commits e { t with ruleIndex := k }
      { judgedState t armed (waiting ++ rest) .committed now with ruleIndex := k } :=
  .judge { t with ruleIndex := k } armed waiting rest now h.armedRules_eq hready
    (h.fresh hfresh) hnow

end Sweeping

lemma sweeps_sweepArmedDNSRules (e : Call) (rules : List DNSRule) (hfresh : s.Fresh) (k : Nat) :
    Sweeps e rules k s (e.sweepArmedDNSRules s) := by
  have hstart : Sweeping e rules k s s.armedRules [] s :=
    { frame := ⟨s.now, s.trace, rfl, Nat.le_refl _⟩
      rest_subset := refl _
      pending := by simp
      reaches := Relation.ReflTransGen.refl }
  have hswept : Swept e (Sweeping e rules k s) (e.sweepArmedDNSRules s) :=
    sweepLoop_induct (fun armed rest waiting t h hpending => h.pass hpending)
      (fun armed rest waiting t verdict now h hready hnow hopen hskip =>
        h.judge hfresh hready hnow hopen hskip) hstart
  generalize e.sweepArmedDNSRules s = outcome at hswept ⊢
  cases hswept with
  | idle waiting t h =>
    refine .idle _ ?_
    obtain ⟨now, trace, rfl, hnow⟩ := h.frame
    have hwaiting : waiting ++ [] = waiting := append_nil waiting
    rwa [hwaiting] at h
  | result armed rest waiting t now r h hready hnow =>
    exact .result _ _ r h.reaches (h.commits hfresh hready hnow)
  | pending armed rest waiting t now transport options h hready hnow =>
    exact .pending _ _ transport options h.reaches (h.commits hfresh hready hnow)

/-! ## The walk is a run -/

section
variable (e rules)

/-- `t` has the futures and the record of a run from `s`, or of one with a commit
at its end. -/
def Ends (s t : WalkState) : Prop :=
  ∃ u v, Reaches e rules s u ∧ (v = u ∨ Commits e u v) ∧ t.futures = v.futures ∧ t.trace = v.trace

/-- A future that is to be returned was decided on, for the rule that launched it. -/
def Answers (t : WalkState) (f : Future) : Prop := .decided f.origin (some f) ∈ t.trace

def Outcome.state : Outcome → WalkState
  | .next s => s
  | .done s _ => s
  | .suspended s _ => s

/-- The outcomes of a rule that the walk meets at `s`. -/
inductive Moves (s : WalkState) : Outcome → Prop
  | next (t : WalkState) (hindex : t.ruleIndex = s.ruleIndex)
      (h : Reaches e rules s { t with ruleIndex := t.ruleIndex + 1 }) : Moves s (.next t)
  | await (t : WalkState) (f : Future) (h : Reaches e rules s t) (hf : f ∈ t.futures) :
      Moves s (.suspended t (.await f))
  | drain (t : WalkState) (h : Reaches e rules s t) : Moves s (.suspended t .drain)
  | pending (t : WalkState) (p : Pending) (h : Ends e rules s t) (harmed : t.armedRules = [])
      (hfuture : ∀ f, p = .future f → Answers t f) : Moves s (.suspended t (.pending p))
  | done (t : WalkState) (r : ExchangeResult) (h : Ends e rules s t) : Moves s (.done t r)

end

lemma Reaches.ends (h : Reaches e rules s t) : Ends e rules s t := ⟨t, t, h, .inl rfl, rfl, rfl⟩

lemma Ends.of_reaches (hst : Reaches e rules s t) (h : Ends e rules t u) : Ends e rules s u := by
  obtain ⟨v, w, hreach, hend⟩ := h
  exact ⟨v, w, hst.trans hreach, hend⟩

lemma Ends.trace_prefix (h : Ends e rules s t) : s.trace <+: t.trace := by
  obtain ⟨u, v, hreach, hend, -, htrace⟩ := h
  rw [htrace]
  obtain rfl | hcommit := hend
  · exact hreach.trace_prefix
  · cases hcommit
    exact hreach.trace_prefix.trans (prefix_append _ _)

lemma Moves.trace_prefix {outcome : Outcome} (h : Moves e rules s outcome) :
    s.trace <+: outcome.state.trace := by
  cases h with
  | next t _ h | await t f h hf | drain t h | pending t p h harmed hfuture | done t r h =>
      exact h.trace_prefix

lemma Moves.of_reaches {outcome : Outcome} (hst : Reaches e rules s t)
    (hindex : ∀ v, outcome = .next v → t.ruleIndex = s.ruleIndex)
    (h : Moves e rules t outcome) : Moves e rules s outcome := by
  cases h with
  | next u hu h => exact .next u (hu.trans (hindex u rfl)) (hst.trans h)
  | await u f h hf => exact .await u f (hst.trans h) hf
  | drain u h => exact .drain u (hst.trans h)
  | pending u p h harmed hfuture => exact .pending u p (h.of_reaches hst) harmed hfuture
  | done u r h => exact .done u r (h.of_reaches hst)

variable {r : DNSRule}

lemma moves_act (h : Launched rules s) (hr : rules[s.ruleIndex]? = some r) (hnow : 0 < s.now) :
    Moves e rules s (e.act s r) := by
  have hlt : s.ruleIndex < rules.length := (List.getElem?_eq_some_iff.mp hr).1
  have hacts := acts_act e s r
  generalize e.act s r = outcome at hacts ⊢
  cases hacts with
  | pass => exact .next s rfl (Step.next s hlt).reaches
  | options options => exact .next _ rfl ((Step.options s _).reaches.step (.next _ hlt))
  | unbind => exact .next _ rfl ((Step.unbind s).reaches.step (.next _ hlt))
  | launch server tag options speculative transport haction =>
    have hindex : (e.evaluate s tag transport options).ruleIndex = s.ruleIndex := by
      obtain ⟨anonymous, named, heval⟩ := evaluate_frame e s tag transport options
      rw [heval]
    refine .next _ hindex ?_
    rw [hindex]
    exact (Step.launch s r server tag options speculative transport hr haction hnow).reaches
  | drain => exact .drain s Relation.ReflTransGen.refl
  | speculate server options transport queryOptions haction harmed hterminal =>
    exact .drain _
      (Step.speculate s r server options transport queryOptions hr haction harmed hterminal
        hnow).reaches
  | await f harmed hf hunres => exact .await _ f Step.tick.reaches (h.anonymous f hf)
  | done now result harmed hle =>
    exact .done _ result
      ((Step.elapse s now hle).reaches.step (.decide _ none harmed (by simp))).ends
  | exchange transport options harmed =>
    exact .pending _ _ (Step.decide s none harmed (by simp)).reaches.ends harmed (by simp)
  | speculative f harmed hf horigin =>
    refine .pending _ _ (Step.decide s (some f) harmed ?_).reaches.ends harmed ?_
    · rintro g ⟨rfl⟩
      exact ⟨hf, horigin⟩
    · rintro g ⟨rfl⟩
      rw [Answers, horigin]
      exact mem_append_right _ (mem_singleton_self _)

lemma moves_tryRule (h : Launched rules s) (hr : rules[s.ruleIndex]? = some r)
    (hrace : r.race → r.hasBindings = false) (hfresh : r.hasBindings → s.Fresh)
    (hlooked : ∀ f ∈ boundFutures s r, Looked s f) : Moves e rules s (e.tryRule s r) := by
  have hstep : Step e rules s (noteMatch s s.ruleIndex r).tick := .matched s r hr hrace hfresh hlooked
  unfold tryRule
  dsimp only
  split
  · exact (moves_act (h.step hstep) hr (succ_pos _)).of_reaches hstep.reaches fun _ _ => rfl
  · exact .next _ rfl (hstep.reaches.step (.next _ (List.getElem?_eq_some_iff.mp hr).1))

lemma raceRule_eq (e : Call) (s : WalkState) (r : DNSRule) : e.raceRule s r =
      if !(e.armedEntry s r).futures.isEmpty then .next (e.armedState s r)
      else match e.sweepArmedDNSRules (e.armedState s r) with
        | .idle s => .next s
        | .result s r => .done s r
        | .pending s p => .suspended { s with armedRules := [] } (.pending p) := by
  have hst : ({ check s ((boundFutures s r).filter (e.resolved s.now)) with
      armedRules := s.armedRules ++ [e.armedEntry s r] }.record
          (.armed s.ruleIndex (boundFutures s r))).tick = e.armedState s r := by
    simp [check, WalkState.record, WalkState.tick, armedState]
  rw [← hst]
  rfl

lemma moves_raceRule (hr : rules[s.ruleIndex]? = some r) (hrace : r.race)
    (hfresh : s.Fresh) : Moves e rules s (e.raceRule s r) := by
  have harm : Reaches e rules s { e.armedState s r with ruleIndex := s.ruleIndex + 1 } :=
    (Step.arm s r hr hrace hfresh).reaches
  rw [raceRule_eq]
  split
  · exact .next _ rfl harm
  · have hfresh' : (e.armedState s r).Fresh := hfresh
    have hsweeps := sweeps_sweepArmedDNSRules e rules hfresh' (s.ruleIndex + 1)
    generalize e.sweepArmedDNSRules (e.armedState s r) = outcome at hsweeps ⊢
    cases hsweeps with
    | idle t h =>
      have hindex : t.ruleIndex = s.ruleIndex := by
        obtain ⟨now, trace, hframe, -⟩ := h.frame
        rw [hframe]
        rfl
      refine .next t hindex ?_
      rw [hindex]
      exact harm.trans h.reaches
    | result t u result hreach hcommit =>
      exact .done t result ⟨u, _, harm.trans hreach, .inr hcommit, rfl, rfl⟩
    | pending t u transport options hreach hcommit =>
      exact .pending _ _ ⟨u, _, harm.trans hreach, .inr hcommit, rfl, rfl⟩ rfl (by simp)

lemma boundFutures_eq_nil (hbind : r.hasBindings = false) : boundFutures s r = [] := by
  simp only [DNSRule.hasBindings, Bool.or_eq_false_iff, Bool.not_eq_false',
    List.isEmpty_iff] at hbind
  rw [boundFutures, hbind.1, hbind.2]
  rfl

lemma moves_walkRule (h : Launched rules s) (hr : rules[s.ruleIndex]? = some r) :
    Moves e rules s (e.walkRule s r) := by
  unfold walkRule
  cases hbind : r.hasBindings with
  | false =>
    apply moves_tryRule h hr (fun _ => hbind) (by simp [hbind])
    rw [boundFutures_eq_nil hbind]
    simp
  | true =>
    obtain ⟨t, ht⟩ : ∃ t, t = e.settleDNSFutures s := ⟨_, rfl⟩
    have hst : Reaches e rules s t := ht ▸ (Step.settle s).reaches
    have hfresh : t.Fresh := ht ▸ fresh_settleDNSFutures h
    have hindex : t.ruleIndex = s.ruleIndex := by rw [ht, settleDNSFutures_ruleIndex]
    have hlaunch : Launched rules t := h.reaches hst
    simp only [Bool.not_true, Bool.false_eq_true, if_false, ← ht]
    apply Moves.of_reaches hst (fun _ _ => hindex)
    rw [← hindex] at hr
    cases hrace : r.race with
    | true => exact moves_raceRule hr hrace hfresh
    | false =>
      cases hfind : (boundFutures t r).find? fun f => !e.resolved t.now f with
      | some f =>
        exact .await _ f Step.tick.reaches
            (hlaunch.boundFutures_subset r (mem_of_find?_eq_some hfind))
      | none =>
        have hlook : Reaches e rules t (check t (boundFutures t r)).tick :=
          (Step.look t _).reaches.step .tick
        refine Moves.of_reaches hlook (fun _ _ => rfl)
          (moves_tryRule (hlaunch.reaches hlook) hr (by simp [hrace]) (fun _ => hfresh) ?_)
        exact fun f hf => ⟨_, mem_append_right _ (mem_singleton_self _), hf⟩

def WalkResult.outcome : WalkResult → Outcome
  | .done s r => .done s r
  | .suspended s suspension => .suspended s suspension

@[simp] lemma WalkResult.outcome_ne_next (result : WalkResult) : result.outcome ≠ .next s := by
  cases result <;> simp [outcome]

lemma moves_walkDNSRules {rest : List DNSRule} (h : Launched rules s)
    (hrest : rules.drop s.ruleIndex = rest) : Moves e rules s (e.walkDNSRules rest s).outcome := by
  induction rest generalizing s with
  | nil =>
    rw [walkDNSRules]
    split
    · exact .drain s Relation.ReflTransGen.refl
    · rename_i harmed
      have harmed : s.armedRules = [] := by simpa using harmed
      exact .pending _ _ (Step.decide s none harmed (by simp)).reaches.ends harmed (by simp)
  | cons r rest ih =>
    have hr : rules[s.ruleIndex]? = some r := by
      rw [← head?_drop, hrest]
      rfl
    have hmoves := moves_walkRule (e := e) h hr
    rw [walkDNSRules]
    generalize e.walkRule s r = outcome at hmoves ⊢
    cases hmoves with
    | next t hindex hreach =>
      have hdrop : rules.drop (t.ruleIndex + 1) = rest := by
        rw [hindex, ← tail_drop, hrest]
        rfl
      have hwalk := ih (s := { t with ruleIndex := t.ruleIndex + 1 }) (h.reaches hreach) hdrop
      exact hwalk.of_reaches hreach (by simp)
    | await t f hreach hf => exact .await t f hreach hf
    | drain t hreach => exact .drain t hreach
    | pending t p hends harmed hfuture => exact .pending t p hends harmed hfuture
    | done t result hends => exact .done t result hends

/-! ## The resume loop is a run -/

/-- One round of the resume loop at `s`, in a call that started at `s₀`, when the
suspension is not a pending exchange. -/
inductive Round (e : Call) (rules : List DNSRule) (s₀ s : WalkState) (suspension : Suspension)
    (fuel : Nat) : Option (WalkState × Decision) → Prop
  | ended (t : WalkState) (d : Decision) (hends : Ends e rules s₀ t) (hd : ∀ f, d ≠ .future f) :
      Round e rules s₀ s suspension fuel (some (t, d))
  | blocked (t : WalkState) (hreach : Reaches e rules s₀ t) (hnow : s.now < t.now)
      (hfutures : t.futures = s.futures) (htaken : t.taken = s.taken)
      (hpending : ∃ f ∈ s.futures, e.resolved s.now f = false) :
      Round e rules s₀ s suspension fuel
        ((e.wait t).bind fun s => e.resumeLoop rules fuel s suspension)
  | walked (t u : WalkState) (suspension' : Suspension) (hreach : Reaches e rules s₀ t)
      (hnow : s.now < t.now)
      (hidle : t.armedRules ≠ [] → ∃ f ∈ t.futures, e.resolved s.now f = false)
      (hwalk : e.walkDNSRules (rules.drop t.ruleIndex) t = .suspended u suspension') :
      Round e rules s₀ s suspension fuel (e.resumeLoop rules fuel u suspension')

/-- What settling and a sweep without a commit leave to the rest of a round. -/
structure Rested (e : Call) (rules : List DNSRule) (s t : WalkState) : Prop where
  reaches : Reaches e rules s t
  now_lt : s.now < t.now
  taken : t.taken = s.taken
  futures : t.futures = s.futures
  pending : t.armedRules ≠ [] → ∃ f ∈ s.futures, e.resolved s.now f = false

lemma rested_of_sweeping (h : Launched rules s)
    (hsweep : Sweeping e rules s.ruleIndex (e.settleDNSFutures s) [] t.armedRules t) :
    Rested e rules s t := by
  have hlaunch : Launched rules (e.settleDNSFutures s) := h.step (.settle s)
  obtain ⟨now, trace, hframe, hnow⟩ := hsweep.frame
  rw [settleDNSFutures_now] at hnow
  refine ⟨(Step.settle s).reaches.trans ?_, ?_, ?_, ?_, ?_⟩
  · have hreach := hsweep.reaches
    rw [← settleDNSFutures_ruleIndex e s] at hreach
    rw [hframe] at hreach ⊢
    exact hreach
  · rwa [hframe]
  · rw [hframe, settleDNSFutures_taken]
  · rw [hframe, settleDNSFutures_futures]
  · intro harmed
    obtain ⟨a, ha, f, hf, hunres⟩ := hsweep.pending harmed
    have hmem := hlaunch.bound a ha (hlaunch.pending a ha hf)
    rw [settleDNSFutures_now] at hunres
    rw [settleDNSFutures_futures] at hmem
    exact ⟨f, hmem, unresolved_of_le hunres (le_succ _)⟩

lemma finishPendingExchange_frame (e : Call) (s : WalkState) (p : Pending) :
    (e.finishPendingExchange s p).1.futures = s.futures ∧
    (e.finishPendingExchange s p).1.trace = s.trace ∧
    ∀ f, (e.finishPendingExchange s p).2 = .future f → p = .future f := by
  cases p with
  | exchange transport options => exact ⟨rfl, rfl, by simp [finishPendingExchange]⟩
  | future f =>
    dsimp only [finishPendingExchange]
    split <;> exact ⟨rfl, rfl, by simp⟩

lemma sweepArmedDNSRules_of_nil (harmed : s.armedRules = []) :
    e.sweepArmedDNSRules s = .idle s := by
  rw [sweepArmedDNSRules, harmed, sweepLoop, ← harmed]

/-- With nothing armed, the loop ends with the exchange it was entered with. -/
theorem resumeLoop_pending (e : Call) (rules : List DNSRule) (harmed : s.armedRules = [])
    (fuel : Nat) (p : Pending) : e.resumeLoop rules (fuel + 1) s (.pending p) =
      some (e.finishPendingExchange (e.settleDNSFutures s) p) := by
  have hidle : e.sweepArmedDNSRules (e.settleDNSFutures s) = .idle (e.settleDNSFutures s) :=
    sweepArmedDNSRules_of_nil (by rw [settleDNSFutures_armedRules, harmed])
  rw [resumeLoop, hidle]

variable {suspension : Suspension} {s₀ : WalkState} {fuel : Nat}

/-- The part of a round that follows the sweep. -/
theorem round_of_rested {blocked : Bool}
    (h₀ : Launched rules s₀) (hreach : Reaches e rules s₀ s) (hrest : Rested e rules s t)
    (hblocked : blocked → ∃ f ∈ s.futures, e.resolved s.now f = false) :
    Round e rules s₀ s suspension fuel
      (if blocked then
        if e.ctxDone t.now then some (t, .result { err := some e.ctxErr })
        else (e.wait t.tick).bind fun s => e.resumeLoop rules fuel s suspension
      else
        match e.walkDNSRules (rules.drop t.ruleIndex) t.tick with
        | .done s r => some (s, .result r)
        | .suspended s suspension => e.resumeLoop rules fuel s suspension) := by
  have hreach' : Reaches e rules s₀ t := hreach.trans hrest.reaches
  have hnow : s.now < t.tick.now := lt_succ_of_lt hrest.now_lt
  cases blocked with
  | true =>
    simp only [if_true]
    split
    · exact .ended t _ hreach'.ends (by simp)
    · exact .blocked t.tick (hreach'.step .tick) hnow hrest.futures hrest.taken (hblocked rfl)
  | false =>
    have hmoves := moves_walkDNSRules (e := e) (s := t.tick) (h₀.reaches (hreach'.step .tick)) rfl
    cases hwalk : e.walkDNSRules (rules.drop t.ruleIndex) t.tick with
    | done u r =>
      have hwalk' : e.walkDNSRules (rules.drop t.tick.ruleIndex) t.tick = .done u r := hwalk
      rw [hwalk'] at hmoves
      cases hmoves with
      | done _ _ hends => exact .ended u _ (hends.of_reaches (hreach'.step .tick)) (by simp)
    | suspended u suspension' =>
      exact .walked t.tick u suspension' (hreach'.step .tick) hnow
        (fun harmed => hrest.futures ▸ hrest.pending harmed) hwalk

lemma round_resumeLoop (fuel : Nat) (h₀ : Launched rules s₀) (hreach : Reaches e rules s₀ s)
    (hawait : ∀ f, suspension = .await f → f ∈ s.futures) (hsusp : ∀ p, suspension ≠ .pending p) :
    Round e rules s₀ s suspension fuel (e.resumeLoop rules (fuel + 1) s suspension) := by
  have hlaunch : Launched rules s := h₀.reaches hreach
  have hsweeps := sweeps_sweepArmedDNSRules e rules
    (fresh_settleDNSFutures (e := e) hlaunch) s.ruleIndex
  have hsettle : Reaches e rules s₀ { e.settleDNSFutures s with ruleIndex := s.ruleIndex } := by
    have hstep := hreach.step (.settle s)
    rwa [← settleDNSFutures_ruleIndex e s]
  rw [resumeLoop]
  generalize e.sweepArmedDNSRules (e.settleDNSFutures s) = outcome at hsweeps ⊢
  cases hsweeps with
  | result t u r hsweep hcommit =>
    exact .ended t _ ⟨u, _, hsettle.trans hsweep, .inr hcommit, rfl, rfl⟩ (by simp)
  | pending t u transport options hsweep hcommit =>
    exact .ended _ _ ⟨u, _, hsettle.trans hsweep, .inr hcommit, rfl, rfl⟩ (by simp)
  | idle t hsweep =>
    have hrest : Rested e rules s t := rested_of_sweeping hlaunch hsweep
    cases suspension with
    | pending p => exact absurd rfl (hsusp p)
    | await f =>
      refine round_of_rested h₀ hreach hrest fun hblocked => ⟨f, hawait f rfl, ?_⟩
      exact unresolved_of_le (by simpa using hblocked) (Nat.le_of_lt hrest.now_lt)
    | drain =>
      apply round_of_rested h₀ hreach hrest
      intro hblocked
      apply hrest.pending
      simpa using hblocked

lemma wait_eq_some (h : e.wait s = some t) :
    ∃ now, s.now < now ∧ t = { s with now, taken := now } := by
  unfold wait at h
  split at h
  · cases h
    exact ⟨s.now + 1, lt_succ_self _, rfl⟩
  · obtain ⟨at', hat, rfl⟩ := map_eq_some_iff.mp h
    have hlater := (mem_filter.mp (min?_mem hat)).2
    exact ⟨at' + 1, lt_succ_of_lt (of_decide_eq_true hlater), rfl⟩

variable {d : Decision}

/-- However the loop was entered, it ends as a run does. -/
theorem ends_resumeLoop
    (h₀ : Launched rules s₀) (hmoves : Moves e rules s₀ (.suspended s suspension))
    (hresume : e.resumeLoop rules fuel s suspension = some (t, d)) :
    Ends e rules s₀ t ∧ ∀ f, d = .future f → Answers t f := by
  induction fuel generalizing s suspension with
  | zero => cases hresume
  | succ fuel ih =>
    have hagain : Reaches e rules s₀ s → (∀ f, suspension = .await f → f ∈ s.futures) →
        (∀ p, suspension ≠ .pending p) →
        Ends e rules s₀ t ∧ ∀ f, d = .future f → Answers t f := by
      intro hreach hawait hsusp
      have hround := round_resumeLoop (e := e) fuel h₀ hreach hawait hsusp
      generalize e.resumeLoop rules (fuel + 1) s suspension = result at hround hresume
      cases hround with
      | ended u d' hends hd =>
        cases hresume
        exact ⟨hends, fun f hf => absurd hf (hd f)⟩
      | blocked u hu hnow hfutures htaken hpending =>
        obtain ⟨v, hwait, hresume⟩ := bind_eq_some_iff.mp hresume
        obtain ⟨now, hlater, rfl⟩ := wait_eq_some hwait
        have hv := hu.step (.wait u now now (Nat.le_of_lt hlater) (Nat.le_refl _))
        refine ih ?_ hresume
        cases suspension with
        | await f => exact .await _ f hv (hfutures ▸ hawait f rfl)
        | drain => exact .drain _ hv
        | pending p => exact absurd rfl (hsusp p)
      | walked u v suspension' hu hnow hidle hwalk =>
        have hmoves := moves_walkDNSRules (e := e) (h₀.reaches hu) rfl
        rw [hwalk] at hmoves
        exact ih (hmoves.of_reaches hu (by simp)) hresume
    cases hmoves with
    | await _ f hreach hf => exact hagain hreach (by rintro g ⟨rfl⟩; exact hf) (by simp)
    | drain _ hreach => exact hagain hreach (by simp) (by simp)
    | pending _ p hends harmed hfuture =>
      rw [resumeLoop_pending e rules harmed] at hresume
      obtain ⟨hfutures, htrace, hdec⟩ := finishPendingExchange_frame e (e.settleDNSFutures s) p
      rw [some.injEq] at hresume
      rw [hresume] at hfutures htrace hdec
      rw [settleDNSFutures_futures] at hfutures
      rw [settleDNSFutures_trace] at htrace
      refine ⟨?_, fun f hf => ?_⟩
      · obtain ⟨u, v, hreach, hend, hvf, hvt⟩ := hends
        exact ⟨u, v, hreach, hend, hfutures.trans hvf, htrace.trans hvt⟩
      · rw [Answers, htrace]
        exact hfuture f (hdec f hf)

/-- A call is a run, with the commit of a race rule at its end or without one. A
future that it returns was decided on for the rule that launched it. -/
theorem ends_exchangeWithRules {options : DNSQueryOptions}
    (h : e.exchangeWithRules rules options fuel = some (t, d)) :
    Ends e rules { effectiveOptions := options } t ∧ ∀ f, d = .future f → Answers t f := by
  have h₀ : Launched rules { effectiveOptions := options } := launched_initial options
  have hmoves := moves_walkDNSRules (e := e) h₀ rfl
  rw [drop_zero] at hmoves
  unfold exchangeWithRules at h
  cases hwalk : e.walkDNSRules rules { effectiveOptions := options } with
  | done u r =>
    rw [hwalk] at h hmoves
    cases h
    cases hmoves with
    | done _ _ hends => exact ⟨hends, by simp⟩
  | suspended u suspension =>
    rw [hwalk] at h hmoves
    obtain ⟨⟨v, d'⟩, hresume, hcancel⟩ := map_eq_some_iff.mp h
    cases hcancel
    have hends := ends_resumeLoop h₀ hmoves hresume
    exact hends

end Call

end SingBox.Dns
