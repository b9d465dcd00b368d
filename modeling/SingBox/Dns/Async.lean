import Mathlib.Data.Finset.Lattice.Fold
import SingBox.Dns.Steps

/-! Every call ends, and the two entries of the rule exchange agree: the one that
waits and the one that calls back. -/

namespace SingBox.Dns
open Nat List

namespace Call
variable {e : Call} {rules : List DNSRule} {s t : WalkState} {r : DNSRule}

/-! ## The walk once every exchange has completed -/

/-- From this time on, every exchange a rule can launch is complete. -/
def Late (e : Call) (rules : List DNSRule) (now : Nat) : Prop :=
  ∀ i < rules.length, e.sentAt i ≤ now

lemma Late.mono {now later : Nat} (h : Late e rules now) (hle : now ≤ later) : Late e rules later :=
  fun i hi => le_trans (h i hi) hle

variable {f : Future}

lemma Late.resolved {now : Nat} (h : Late e rules now) (hl : Launched rules s)
    (hf : f ∈ s.futures) : e.resolved now f :=
  resolved_iff.mpr (le_trans (e.done_le_sent _) (h _ (hl.origin f hf)))

/-- The outcomes of a rule when nothing is left to wait for. -/
inductive Finishes : Outcome → Prop
  | next (t : WalkState) (harmed : t.armedRules = []) : Finishes (.next t)
  | pending (t : WalkState) (p : Pending) : Finishes (.suspended t (.pending p))
  | done (t : WalkState) (r : ExchangeResult) : Finishes (.done t r)

section
variable (h : Launched rules s) (hlate : Late e rules s.now) (harmed : s.armedRules = [])
include h hlate harmed

lemma finishes_act : Finishes (e.act s r) := by
  have hacts := acts_act e s r
  generalize e.act s r = outcome at hacts ⊢
  cases hacts with
  | pass | options | unbind => exact .next _ harmed
  | launch server tag options speculative transport =>
    obtain ⟨anonymous, named, heval⟩ := evaluate_frame e s tag transport options
    rw [heval]
    exact .next _ harmed
  | drain hne | speculate _ _ _ _ _ hne => exact absurd harmed hne
  | await f _ hf hunres =>
    simp [hlate.resolved h (h.anonymous f hf)] at hunres
  | done => exact .done _ _
  | exchange | speculative => exact .pending _ _

lemma finishes_tryRule : Finishes (e.tryRule s r) := by
  have hlater : Launched rules (noteMatch s s.ruleIndex r).tick :=
    h.frame rfl (.inl rfl) rfl (List.Subset.refl _) (le_succ _) (le_succ_of_le h.taken)
  unfold tryRule
  dsimp only
  split
  · exact finishes_act hlater (hlate.mono (le_succ _)) harmed
  · exact .next _ harmed

lemma finishes_raceRule (hfresh : s.Fresh) : Finishes (e.raceRule s r) := by
  have hbound : ∀ f ∈ boundFutures s r, e.resolved s.now f :=
    fun f hf => hlate.resolved h (h.boundFutures_subset r hf)
  have hempty : (e.armedEntry s r).futures = [] := by
    apply filter_eq_nil_iff.mpr
    intro f hf
    rw [hbound f hf]
    simp
  have hfresh' : (e.armedState s r).Fresh := hfresh
  have hsweeps := sweeps_sweepArmedDNSRules e rules hfresh' s.ruleIndex
  rw [raceRule_eq, hempty]
  generalize e.sweepArmedDNSRules (e.armedState s r) = outcome at hsweeps ⊢
  cases hsweeps with
  | result => exact .done _ _
  | pending => exact .pending _ _
  | idle t hsweep =>
    refine .next t (Classical.byContradiction fun hne => ?_)
    obtain ⟨a, ha, f, hf, hunres⟩ := hsweep.pending hne
    -- The only armed rule is the one just armed, and it waits for nothing.
    have ha : a = e.armedEntry s r := by simpa [armedState, harmed] using ha
    simp [ha, hempty] at hf

lemma finishes_walkRule : Finishes (e.walkRule s r) := by
  unfold walkRule
  cases hbind : r.hasBindings with
  | false => exact finishes_tryRule h hlate harmed
  | true =>
    obtain ⟨t, ht⟩ : ∃ t, t = e.settleDNSFutures s := ⟨_, rfl⟩
    have hlaunch : Launched rules t := ht ▸ h.step (.settle s)
    have hfresh : t.Fresh := ht ▸ fresh_settleDNSFutures h
    have harmed' : t.armedRules = [] := by rw [ht, settleDNSFutures_armedRules, harmed]
    have hlate' : Late e rules t.now := by
      rw [ht, settleDNSFutures_now]
      exact hlate.mono (le_succ _)
    simp only [Bool.not_true, Bool.false_eq_true, if_false, ← ht]
    split
    · exact finishes_raceRule hlaunch hlate' harmed' hfresh
    · split
      · rename_i f hfind
        have hmem := hlaunch.boundFutures_subset r (mem_of_find?_eq_some hfind)
        have hnot := find?_some hfind
        simp [hlate'.resolved hlaunch hmem] at hnot
      · have hlater := (hlaunch.step (e := e) (.look t (boundFutures t r))).step (e := e) .tick
        exact finishes_tryRule hlater (hlate'.mono (le_succ _)) harmed'

lemma finishes_walkDNSRules {rest : List DNSRule}
    (hrest : rules.drop s.ruleIndex = rest) : Finishes (e.walkDNSRules rest s).outcome := by
  induction rest generalizing s with
  | nil =>
    rw [walkDNSRules, harmed]
    exact .pending _ _
  | cons r rest ih =>
    have hr : rules[s.ruleIndex]? = some r := by
      rw [← head?_drop, hrest]
      rfl
    have hfinishes := finishes_walkRule (r := r) h hlate harmed
    have hmoves := moves_walkRule (e := e) h hr
    rw [walkDNSRules]
    generalize e.walkRule s r = outcome at hfinishes hmoves ⊢
    cases hfinishes with
    | pending => exact .pending _ _
    | done => exact .done _ _
    | next t harmed' =>
      cases hmoves with
      | next _ hidx hreach =>
        have hdrop : rules.drop (t.ruleIndex + 1) = rest := by
          rw [hidx, ← tail_drop, hrest]
          rfl
        exact ih (h.reaches hreach)
          (hlate.mono hreach.now_le) harmed' hdrop

end

/-! ## The resume loop ends -/

lemma wait_isSome (hf : f ∈ s.futures) (hsent : s.taken ≤ e.sentAt f.origin) :
    ∃ t, e.wait s = some t := by
  have hmem : max f.launchedAt (e.sentAt f.origin) ∈ e.sends s := mem_map.mpr ⟨f, hf, rfl⟩
  have htaken : s.taken ≤ max f.launchedAt (e.sentAt f.origin) := le_trans hsent (le_max_right _ _)
  generalize max f.launchedAt (e.sentAt f.origin) = sent at hmem htaken
  unfold wait
  split
  · exact ⟨_, rfl⟩
  · rename_i hnone
    have hlater : s.now < sent := by
      apply Nat.lt_of_not_le
      intro hle
      apply hnone
      exact any_eq_true.mpr ⟨sent, hmem, decide_eq_true ⟨htaken, hle⟩⟩
    have hfilter : sent ∈ (e.sends s).filter fun t => decide (s.now < t) :=
      mem_filter.mpr ⟨hmem, decide_eq_true hlater⟩
    cases hmin : ((e.sends s).filter fun t => decide (s.now < t)).min? with
    | none =>
      simp [min?_eq_none_iff.mp hmin] at hfilter
    | some first => exact ⟨_, rfl⟩

variable {suspension : Suspension} {s₀ : WalkState}

/-- When every exchange has completed, the walk goes to its end in two rounds. -/
theorem resumeLoop_isSome_of_late (h₀ : Launched rules s₀) (hlate : Late e rules s.now)
    (hreach : Reaches e rules s₀ s) (hawait : ∀ f, suspension = .await f → f ∈ s.futures)
    (hsusp : ∀ p, suspension ≠ .pending p) :
    ∃ result, e.resumeLoop rules 2 s suspension = some result := by
  have hround := round_resumeLoop 1 h₀ hreach hawait hsusp
  generalize e.resumeLoop rules (1 + 1) s suspension = result at hround ⊢
  cases hround with
  | ended t d => exact ⟨_, rfl⟩
  | blocked t ht hnow hfuts htaken hpend =>
    obtain ⟨f, hf, hunres⟩ := hpend
    simp [hlate.resolved (h₀.reaches hreach) hf] at hunres
  | walked t u suspension' ht hnow hidle hwalk =>
    have hlaunch : Launched rules t := h₀.reaches ht
    have harmed : t.armedRules = [] := by
      apply Classical.byContradiction
      intro hne
      obtain ⟨f, hf, hunres⟩ := hidle hne
      simp [hlate.resolved hlaunch hf] at hunres
    have hfinishes := finishes_walkDNSRules hlaunch (hlate.mono (le_of_lt hnow)) harmed rfl
    have hmoves := moves_walkDNSRules (e := e) hlaunch rfl
    rw [hwalk] at hfinishes hmoves
    cases hfinishes with
    | pending _ p =>
      cases hmoves with
      | pending _ _ _ harmed' => exact ⟨_, resumeLoop_pending e rules harmed' 0 p⟩

/-- Before that time every round takes time, and after it two rounds are enough. -/
theorem resumeLoop_isSome {last : Nat}
    (h₀ : Launched rules s₀) (hlate : Late e rules last) (n : Nat) (hn : last ≤ s.now + n)
    (hreach : Reaches e rules s₀ s) (hawait : ∀ f, suspension = .await f → f ∈ s.futures)
    (hsusp : ∀ p, suspension ≠ .pending p) :
    ∃ result, e.resumeLoop rules (n + 2) s suspension = some result := by
  induction n generalizing s suspension with
  | zero => exact resumeLoop_isSome_of_late h₀ (hlate.mono hn) hreach hawait hsusp
  | succ n ih =>
    have hlaunch : Launched rules s := h₀.reaches hreach
    have hround := round_resumeLoop (n + 2) h₀ hreach hawait hsusp
    generalize e.resumeLoop rules (n + 2 + 1) s suspension = result at hround ⊢
    cases hround with
    | ended t d => exact ⟨_, rfl⟩
    | blocked t ht hnow hfuts htaken hpend =>
      obtain ⟨f, hf, hunres⟩ := hpend
      have hdone : s.now < e.doneAt f.origin := by simpa [resolved] using hunres
      have hsent : t.taken ≤ e.sentAt f.origin := by
        have := e.done_le_sent f.origin
        have := hlaunch.taken
        omega
      obtain ⟨v, hwait⟩ := wait_isSome (hfuts ▸ hf) hsent
      obtain ⟨now, hlater, rfl⟩ := wait_eq_some hwait
      rw [hwait]
      exact ih (by dsimp only; omega)
        (ht.step (.wait t now now (le_of_lt hlater) (le_refl _)))
        (fun f hf => hfuts ▸ hawait f hf) hsusp
    | walked t u suspension' ht hnow hidle hwalk =>
      have hmoves := moves_walkDNSRules (e := e) (h₀.reaches ht) rfl
      rw [hwalk] at hmoves
      cases hmoves with
      | await _ f hu hf =>
        have := hu.now_le
        exact ih (by omega) (ht.trans hu) (by rintro g ⟨rfl⟩; exact hf) (by simp)
      | drain _ hu =>
        have := hu.now_le
        exact ih (by omega) (ht.trans hu) (by simp) (by simp)
      | pending _ p _ harmed => exact ⟨_, resumeLoop_pending e rules harmed _ p⟩

variable {result : WalkState × Decision}

lemma resumeLoop_succ {fuel : Nat} (h : e.resumeLoop rules fuel s suspension = some result) :
    e.resumeLoop rules (fuel + 1) s suspension = some result := by
  induction fuel generalizing s suspension with
  | zero => cases h
  | succ fuel ih =>
    rw [resumeLoop] at h ⊢
    cases hsweep : e.sweepArmedDNSRules (e.settleDNSFutures s) with
    | result t r | pending t p =>
      rwa [hsweep] at h
    | idle t =>
      rw [hsweep] at h
      cases suspension with
      | pending p => exact h
      | await f | drain =>
        dsimp only at h ⊢
        split
        · rename_i hblocked
          rw [if_pos hblocked] at h
          split
          · rename_i hdone
            rwa [if_pos hdone] at h
          · rename_i hdone
            rw [if_neg hdone] at h
            obtain ⟨u, hwait, hresume⟩ := Option.bind_eq_some_iff.mp h
            rw [hwait]
            exact ih hresume
        · rename_i hblocked
          rw [if_neg hblocked] at h
          cases hwalk : e.walkDNSRules (rules.drop t.ruleIndex) t.tick with
          | done u r =>
            rwa [hwalk] at h
          | suspended u suspension' =>
            rw [hwalk] at h
            exact ih h

lemma resumeLoop_mono {fuel more : Nat} (hle : fuel ≤ more)
    (h : e.resumeLoop rules fuel s suspension = some result) :
    e.resumeLoop rules more s suspension = some result := by
  induction hle with
  | refl => exact h
  | step _ ih => exact resumeLoop_succ ih

lemma exists_late (e : Call) (rules : List DNSRule) : ∃ last, Late e rules last := by
  refine ⟨(Finset.range rules.length).sup e.sentAt, fun i hi => ?_⟩
  exact Finset.le_sup (Finset.mem_range.mpr hi)

lemma resumeLoop_ends (h₀ : Launched rules s₀)
    (hmoves : Moves e rules s₀ (.suspended s suspension)) :
    ∃ n result, ∀ fuel, n ≤ fuel → e.resumeLoop rules fuel s suspension = some result := by
  obtain ⟨last, hlate⟩ := exists_late e rules
  have hmono : ∀ n, (∃ result, e.resumeLoop rules n s suspension = some result) →
      ∃ n result, ∀ fuel, n ≤ fuel → e.resumeLoop rules fuel s suspension = some result := by
    rintro n ⟨result, h⟩
    exact ⟨n, result, fun fuel hle => resumeLoop_mono hle h⟩
  cases hmoves with
  | await _ f hreach hf =>
    exact hmono _ (resumeLoop_isSome h₀ hlate last (le_add_left _ _) hreach
      (by rintro g ⟨rfl⟩; exact hf) (by simp))
  | drain _ hreach =>
    exact hmono _ (resumeLoop_isSome h₀ hlate last (le_add_left _ _) hreach (by simp) (by simp))
  | pending _ p _ harmed => exact hmono 1 ⟨_, resumeLoop_pending e rules harmed 0 p⟩

lemma exchangeWithRules_mono {options : DNSQueryOptions} {fuel more : Nat} (hle : fuel ≤ more)
    (h : e.exchangeWithRules rules options fuel = some result) :
    e.exchangeWithRules rules options more = some result := by
  unfold exchangeWithRules at h ⊢
  cases hwalk : e.walkDNSRules rules { effectiveOptions := options } with
  | done t r => rwa [hwalk] at h
  | suspended t suspension =>
    rw [hwalk] at h
    obtain ⟨ended, hresume, rfl⟩ := Option.map_eq_some_iff.mp h
    exact Option.map_eq_some_iff.mpr ⟨ended, resumeLoop_mono hle hresume, rfl⟩

/-- Every call returns, and how much more it may loop does not matter. -/
theorem exchangeWithRules_returns (e : Call) (rules : List DNSRule) (options : DNSQueryOptions) :
    ∃ n s d, ∀ fuel, n ≤ fuel → e.exchangeWithRules rules options fuel = some (s, d) := by
  have h₀ : Launched rules { effectiveOptions := options } := launched_initial options
  have hmoves := moves_walkDNSRules (e := e) h₀ rfl
  rw [drop_zero] at hmoves
  unfold exchangeWithRules
  cases hwalk : e.walkDNSRules rules { effectiveOptions := options } with
  | done s r => exact ⟨0, _, _, fun _ _ => rfl⟩
  | suspended s suspension =>
    rw [hwalk] at hmoves
    obtain ⟨n, ⟨t, d⟩, hresume⟩ := resumeLoop_ends h₀ hmoves
    refine ⟨n, cancelDNSFutures t, d, fun fuel hle => ?_⟩
    dsimp only
    rw [resumeExchangeWithRules, hresume fuel hle]
    rfl

/-! ## The two entries -/

variable {p : Pending}

lemma armedRules_of_tryRule (h : e.tryRule s r = .suspended t (.pending p)) :
    t.armedRules = [] := by
  unfold tryRule at h
  dsimp only at h
  split at h
  · have hacts := acts_act e (noteMatch s s.ruleIndex r).tick r
    rw [h] at hacts
    cases hacts with
    | exchange transport options harmed | speculative f harmed => exact harmed
  · cases h

lemma armedRules_of_walkRule (h : e.walkRule s r = .suspended t (.pending p)) :
    t.armedRules = [] := by
  unfold walkRule at h
  split at h
  · exact armedRules_of_tryRule h
  · dsimp only at h
    split at h
    · rw [raceRule_eq] at h
      split at h
      · cases h
      · cases hsweep : e.sweepArmedDNSRules (e.armedState (e.settleDNSFutures s) r) with
        | idle u | result u result =>
          simp [hsweep] at h
        | pending u p =>
          rw [hsweep] at h
          cases h
          rfl
    · split at h
      · cases h
      · exact armedRules_of_tryRule h

/-- A walk that ends with a pending exchange has no armed rules left. -/
theorem armedRules_of_walkDNSRules {rest : List DNSRule}
    (h : e.walkDNSRules rest s = .suspended t (.pending p)) : t.armedRules = [] := by
  induction rest generalizing s with
  | nil =>
    rw [walkDNSRules] at h
    split at h
    · cases h
    · rename_i harmed
      have harmed : s.armedRules = [] := by simpa using harmed
      cases h
      exact harmed
  | cons r rest ih =>
    rw [walkDNSRules] at h
    cases hrule : e.walkRule s r with
    | next u =>
      rw [hrule] at h
      exact ih h
    | done u result =>
      simp [hrule] at h
    | suspended u suspension =>
      rw [hrule] at h
      cases h
      exact armedRules_of_walkRule hrule

def AllCancelled (s : WalkState) : Prop := ∀ f ∈ s.futures, f.origin ∈ s.cancelled

lemma allCancelled_cancelDNSFutures (s : WalkState) : AllCancelled (cancelDNSFutures s) :=
  fun _ hf => mem_map_of_mem hf

/-- With enough budget both entries return. The callback is called once, with the
result the other entry returns, and neither leaves an exchange running. The armed
rules are gone whenever a walk asks for its last exchange. -/
theorem exchangeWithRulesAsync_agrees (e : Call) (rules : List DNSRule)
    (options : DNSQueryOptions) : (∃ n s s' d, ∀ fuel, n ≤ fuel →
      e.exchangeWithRules rules options fuel = some (s, d) ∧
      e.exchangeWithRulesAsync rules options fuel = some (s', [d.finish e]) ∧
      AllCancelled s ∧ AllCancelled s') ∧
    ∀ rest s t p, e.walkDNSRules rest s = .suspended t (.pending p) → t.armedRules = [] := by
  refine ⟨?_, fun rest s t p h => armedRules_of_walkDNSRules h⟩
  have h₀ : Launched rules { effectiveOptions := options } := launched_initial options
  have hmoves := moves_walkDNSRules (e := e) h₀ rfl
  rw [drop_zero] at hmoves
  unfold exchangeWithRules exchangeWithRulesAsync
  cases hwalk : e.walkDNSRules rules { effectiveOptions := options } with
  | done s r =>
    exact ⟨0, _, _, .result r, fun _ _ => ⟨rfl, rfl, allCancelled_cancelDNSFutures s,
      allCancelled_cancelDNSFutures s⟩⟩
  | suspended s suspension =>
    rw [hwalk] at hmoves
    obtain ⟨n, ⟨t, d⟩, hresume⟩ := resumeLoop_ends h₀ hmoves
    have hsync : ∀ fuel, n ≤ fuel → e.resumeExchangeWithRules rules fuel s suspension =
        some (cancelDNSFutures t, d) := by
      intro fuel hle
      rw [resumeExchangeWithRules, hresume fuel hle]
      rfl
    have hcancel := allCancelled_cancelDNSFutures t
    by_cases hshort : ∃ transport options, suspension = .pending (.exchange transport options)
    · -- The short cut of the callback entry skips the loop, which would not do anything.
      obtain ⟨transport, options, rfl⟩ := hshort
      have hloop := resumeLoop_pending e rules (armedRules_of_walkDNSRules hwalk) n
        (.exchange transport options)
      rw [hresume (n + 1) (Nat.le_succ n)] at hloop
      cases hloop
      exact ⟨n, _, _, _, fun fuel hle => ⟨hsync fuel hle, rfl, hcancel,
        allCancelled_cancelDNSFutures s⟩⟩
    · refine ⟨n, _, _, d, fun fuel hle => ⟨hsync fuel hle, ?_, hcancel, hcancel⟩⟩
      split
      · rename_i heq
        cases heq
      · rename_i transport options heq
        cases heq
        exact absurd ⟨transport, options, rfl⟩ hshort
      · rename_i heq
        cases heq
        rw [hsync fuel hle]
        rfl

end Call

end SingBox.Dns
