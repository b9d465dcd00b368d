import SingBox.Dns.Barrier

/-! The named responses against the futures they come from: which future a tag
stands for, and when its response is there to be matched. -/

namespace SingBox.Dns
open Route Function List Nat
open List.Subset (refl)

variable {tag : String} {rules : List DNSRule} {r r' : DNSRule} {i j : Nat}

/-- Two rules of a checked list do not define the same tag. -/
theorem ValidRules.index_unique (h : ValidRules rules)
    (hi : rules[i]? = some r) (hj : rules[j]? = some r')
    (htag : r.evaluateTag = some tag) (htag' : r'.evaluateTag = some tag) : i = j := by
  have hdist := pairwise_filterMap.mp h.distinct
  rw [pairwise_iff_getElem] at hdist
  obtain ⟨hilt, rfl⟩ := List.getElem?_eq_some_iff.mp hi
  obtain ⟨hjlt, rfl⟩ := List.getElem?_eq_some_iff.mp hj
  obtain hlt | heq | hlt := lt_trichotomy i j
  · exact absurd rfl (hdist i j hilt hjlt hlt tag htag tag htag')
  · exact heq
  · exact absurd rfl (hdist j i hjlt hilt hlt tag htag' tag htag)

/-- A tag that a rule uses is not defined by the rules that follow it. -/
theorem ValidRules.tag_ne {tag tag' : String}
    (hvalid : ValidRules rules) (hi : rules[i]? = some r) (htag : tag ∈ r.matchResponseTags)
    (hle : i ≤ j) (hj : rules[j]? = some r') (hdefines : r'.evaluateTag = some tag') :
    tag ≠ tag' := by
  rintro rfl
  obtain ⟨r'', hmem, hdefined⟩ := mem_filterMap.mp (hvalid.defined i r hi tag htag)
  obtain ⟨k, hk, hget⟩ := mem_iff_getElem.mp hmem
  rw [length_take] at hk
  have hk' : rules[k]? = some r'' := by
    rw [← hget, getElem_take]
    exact getElem?_eq_getElem (by omega)
  have := hvalid.index_unique hk' hj hdefined hdefines
  omega

variable {r : DNSRule} {options : DNSRouteOptions} {server tag : String} {speculative : Bool}

lemma evaluateTag_of_action (h : r.action = .evaluate server tag options speculative)
    (htag : tag ≠ "") : r.evaluateTag = some tag := by
  simp [DNSRule.evaluateTag, h, htag]

lemma ne_of_mem_matchResponseTags (h : tag ∈ r.matchResponseTags) : tag ≠ "" := by
  obtain ⟨leaf, -, htag⟩ := mem_matchResponseTags.mp h
  unfold defaultMatchResponseTags at htag
  split at htag
  · cases htag
  · rename_i hne
    rwa [mem_singleton.mp htag]

namespace Call
variable {e : Call} {rules : List DNSRule} {s t : WalkState}

/-! ## What a tag stands for -/

/-- Futures are told apart by the rule that launched them, and a tag stands for the
one future that carries it. -/
structure Registry (rules : List DNSRule) (s : WalkState) : Prop where
  origins : (s.futures.map Future.origin).Nodup
  evaluated : ∀ f ∈ s.futures, f.terminal = false → f.origin < s.ruleIndex ∧
    ∃ r server options speculative, rules[f.origin]? = some r ∧
      r.action = .evaluate server f.tag options speculative
  speculated : ∀ f ∈ s.futures, f.terminal = true → f.tag = "" ∧ f.origin ≤ s.ruleIndex ∧
    s.terminalFuture = some f ∧
    ∃ r server options, rules[f.origin]? = some r ∧ r.action = .route server options true
  named : ∀ tag f, s.namedFutures tag = some f → f ∈ s.futures ∧ f.tag = tag ∧ tag ≠ ""
  tagged : ∀ f ∈ s.futures, f.tag ≠ "" → s.namedFutures f.tag = some f

namespace Registry

section
variable (h : Registry rules s)
include h

variable {f g : Future}

lemma eq_of_origin (hf : f ∈ s.futures)
    (hg : g ∈ s.futures) (horigin : f.origin = g.origin) : f = g :=
  inj_on_of_nodup_map h.origins hf hg horigin

lemma eq_of_tag (hf : f ∈ s.futures)
    (hg : g ∈ s.futures) (htag : f.tag = g.tag) (hne : f.tag ≠ "") : f = g := by
  have hf' := h.tagged f hf hne
  have hg' := h.tagged g hg (htag ▸ hne)
  rw [htag, hg'] at hf'
  exact (Option.some.inj hf').symm

lemma frame (hfuts : t.futures = s.futures)
    (hnamed : t.namedFutures = s.namedFutures) (hterminal : t.terminalFuture = s.terminalFuture)
    (hidx : s.ruleIndex ≤ t.ruleIndex) : Registry rules t := by
  cases s
  cases t
  subst hfuts hnamed hterminal
  refine ⟨h.origins, fun f hf hkind => ?_, fun f hf hkind => ?_, h.named, h.tagged⟩
  · obtain ⟨hlt, hrule⟩ := h.evaluated f hf hkind
    exact ⟨lt_of_lt_of_le hlt hidx, hrule⟩
  · obtain ⟨htag, hle, hterm, hrule⟩ := h.speculated f hf hkind
    exact ⟨htag, le_trans hle hidx, hterm, hrule⟩

end

variable {options : DNSRouteOptions} {server tag : String} {r : DNSRule} {speculative : Bool}
  {f : Future} (h : Registry rules s)
include h

/-- No future was launched yet by an evaluate rule that the walk has reached. -/
theorem origin_ne (hr : rules[s.ruleIndex]? = some r)
    (hact : r.action = .evaluate server tag options speculative)
    (hf : f ∈ s.futures) : f.origin ≠ s.ruleIndex := by
  intro horigin
  cases hkind : f.terminal with
  | false =>
    have := (h.evaluated f hf hkind).1
    omega
  | true =>
    obtain ⟨-, -, -, r', server', options', hr', hact'⟩ := h.speculated f hf hkind
    rw [horigin, hr] at hr'
    cases hr'
    rw [hact] at hact'
    cases hact'

lemma tag_ne (hvalid : ValidRules rules) (hr : rules[s.ruleIndex]? = some r)
    (hact : r.action = .evaluate server tag options speculative) (hf : f ∈ s.futures)
    (htag : f.tag ≠ "") : f.tag ≠ tag := by
  rintro rfl
  cases hkind : f.terminal with
  | true => exact htag (h.speculated f hf hkind).1
  | false =>
    obtain ⟨-, r', server', options', speculative', hr', hact'⟩ := h.evaluated f hf hkind
    exact h.origin_ne hr hact hf (hvalid.index_unique hr' hr
      (evaluateTag_of_action hact' htag) (evaluateTag_of_action hact htag))

lemma nodup_append (horigin : f.origin = s.ruleIndex)
    (hnew : ∀ g ∈ s.futures, g.origin ≠ s.ruleIndex) :
    ((s.futures ++ [f]).map Future.origin).Nodup := by
  rw [map_append]
  refine List.nodup_append.mpr ⟨h.origins, by simp, ?_⟩
  intro i hi j hj hij
  obtain ⟨g, hg, rfl⟩ := mem_map.mp hi
  have hj : j = f.origin := by simpa using hj
  exact hnew g hg (hij.trans (hj.trans horigin))

lemma launch (hvalid : ValidRules rules)
    (transport : DNSTransport) (hr : rules[s.ruleIndex]? = some r)
    (hact : r.action = .evaluate server tag options speculative) :
    Registry rules { e.evaluate s tag transport options with ruleIndex := s.ruleIndex + 1 } := by
  obtain ⟨f, hf⟩ : ∃ f, f = e.newFuture s tag false transport
      (applyDNSRouteOptions s.effectiveOptions options) := ⟨_, rfl⟩
  have hforigin : f.origin = s.ruleIndex := by rw [hf]; rfl
  have hftag : f.tag = tag := by rw [hf]; rfl
  have hfkind : f.terminal = false := by rw [hf]; rfl
  have horig := h.nodup_append hforigin fun g hg => h.origin_ne hr hact hg
  have hevaluated : ∀ g ∈ s.futures ++ [f], g.terminal = false → g.origin < s.ruleIndex + 1 ∧
      ∃ r server options speculative, rules[g.origin]? = some r ∧
        r.action = .evaluate server g.tag options speculative := by
    intro g hg hkind
    obtain hg | hg := mem_append.mp hg
    · obtain ⟨hlt, hrule⟩ := h.evaluated g hg hkind
      exact ⟨lt_succ_of_lt hlt, hrule⟩
    · rw [mem_singleton.mp hg, hforigin, hftag]
      exact ⟨lt_succ_self _, r, server, options, speculative, hr, hact⟩
  have hspeculated : ∀ g ∈ s.futures ++ [f], g.terminal → g.tag = "" ∧
      g.origin ≤ s.ruleIndex + 1 ∧ s.terminalFuture = some g ∧
      ∃ r server options, rules[g.origin]? = some r ∧ r.action = .route server options true := by
    intro g hg hkind
    obtain hg | hg := mem_append.mp hg
    · obtain ⟨htag, hle, hrest⟩ := h.speculated g hg hkind
      exact ⟨htag, le_succ_of_le hle, hrest⟩
    · simp [mem_singleton.mp hg, hfkind] at hkind
  have hkeep : ∀ tag' g, s.namedFutures tag' = some g →
      g ∈ s.futures ++ [f] ∧ g.tag = tag' ∧ tag' ≠ "" := fun tag' g hg =>
    ⟨mem_append_left _ (h.named tag' g hg).1, (h.named tag' g hg).2⟩
  unfold evaluate
  rw [← hf]
  split
  · rename_i hempty
    refine ⟨horig, hevaluated, hspeculated, hkeep, ?_⟩
    intro g hg htag
    obtain hg | hg := mem_append.mp hg
    · exact h.tagged g hg htag
    · rw [mem_singleton.mp hg, hftag] at htag
      exact absurd hempty htag
  · rename_i hne
    refine ⟨horig, hevaluated, hspeculated, ?_, ?_⟩
    · intro tag' g hg
      dsimp only at hg
      by_cases htag : tag' = tag
      · rw [htag, update_self] at hg
        cases hg
        exact ⟨mem_append_right _ (mem_singleton_self _), hftag.trans htag.symm, htag ▸ hne⟩
      · rw [update_of_ne htag] at hg
        exact hkeep tag' g hg
    · intro g hg htag
      dsimp only
      obtain hg | hg := mem_append.mp hg
      · rw [update_of_ne (h.tag_ne hvalid hr hact hg htag)]
        exact h.tagged g hg htag
      · rw [mem_singleton.mp hg, hftag, update_self]

lemma speculate (transport : DNSTransport) (queryOptions : DNSQueryOptions)
    (hr : rules[s.ruleIndex]? = some r) (hact : r.action = .route server options true)
    (hterminal : s.terminalFuture = none) : Registry rules
      { s with futures := s.futures ++ [e.newFuture s "" true transport queryOptions]
               terminalFuture := some (e.newFuture s "" true transport queryOptions) } := by
  obtain ⟨f, hf⟩ : ∃ f, f = e.newFuture s "" true transport queryOptions := ⟨_, rfl⟩
  have hforigin : f.origin = s.ruleIndex := by rw [hf]; rfl
  have hftag : f.tag = "" := by rw [hf]; rfl
  have hfkind : f.terminal := by rw [hf]; rfl
  -- Only one exchange is speculative in a call, so all others came from evaluate rules.
  have hold : ∀ g ∈ s.futures, g.terminal = false := by
    intro g hg
    cases hkind : g.terminal with
    | false => rfl
    | true =>
      have hterm := (h.speculated g hg hkind).2.2.1
      simp [hterminal] at hterm
  have hnew : ∀ g ∈ s.futures, g.origin ≠ s.ruleIndex := fun g hg =>
    Nat.ne_of_lt (h.evaluated g hg (hold g hg)).1
  rw [← hf]
  refine ⟨h.nodup_append hforigin hnew, ?_, ?_, ?_, ?_⟩
  · intro g hg hkind
    obtain hg | hg := mem_append.mp hg
    · exact h.evaluated g hg hkind
    · simp [mem_singleton.mp hg, hfkind] at hkind
  · intro g hg hkind
    obtain hg | hg := mem_append.mp hg
    · simp [hold g hg] at hkind
    · rw [mem_singleton.mp hg, hforigin]
      exact ⟨hftag, le_refl _, rfl, r, server, options, hr, hact⟩
  · intro tag g hg
    exact ⟨mem_append_left _ (h.named tag g hg).1, (h.named tag g hg).2⟩
  · intro g hg htag
    obtain hg | hg := mem_append.mp hg
    · exact h.tagged g hg htag
    · rw [mem_singleton.mp hg] at htag
      exact absurd hftag htag

lemma step (hvalid : ValidRules rules) (hs : Step e rules s t) : Registry rules t := by
  cases hs with
  | settle => exact h.frame (by simp) (by simp) (by simp) (by simp)
  | next | arm => exact h.frame rfl rfl rfl (le_succ _)
  | launch r server tag options speculative transport hr hact =>
    exact h.launch hvalid transport hr hact
  | speculate r server options transport queryOptions hr hact harmed hterm =>
    exact h.speculate transport queryOptions hr hact hterm
  | elapse | wait | look | matched | options | unbind | judge | decide =>
    exact h.frame rfl rfl rfl (le_refl _)

end Registry

/-! ## What is under a tag -/

/-- Settled futures have left their response under their tag, and nothing else has.
Settling has reached every future that was resolved at its time. -/
structure Recorded (e : Call) (s : WalkState) : Prop where
  launched : ∀ i ∈ s.settled, ∃ f ∈ s.futures, f.origin = i
  resolved : ∀ f ∈ s.futures, f.origin ∈ s.settled → e.resolved s.now f = true
  response : ∀ f ∈ s.futures, f.origin ∈ s.settled → f.tag ≠ "" →
    s.namedResponses f.tag = (e.outcomeOf f).toOption ∧
    s.namedTransports f.tag = some f.transport
  absent : ∀ tag, tag ≠ "" → (∀ f ∈ s.futures, f.tag = tag → f.origin ∉ s.settled) →
    s.namedResponses tag = none
  complete : ∀ f ∈ s.futures, f.launchedAt ≤ s.settledAt → e.resolved s.settledAt f = true →
    f.origin ∈ s.settled
  settledAt : s.settledAt < s.now ∨ s.settledAt = 0 ∧ s.now = 0

lemma recorded_initial (options : DNSQueryOptions) :
    Recorded e { effectiveOptions := options } := by
  constructor <;> simp

namespace Recorded

variable (h : Recorded e s)
include h

lemma frame (hfuts : t.futures = s.futures)
    (hsettled : t.settled = s.settled) (hresps : t.namedResponses = s.namedResponses)
    (htrans : t.namedTransports = s.namedTransports) (hat : t.settledAt = s.settledAt)
    (hnow : s.now ≤ t.now) : Recorded e t := by
  cases s
  cases t
  subst hfuts hsettled hresps htrans hat
  have hsettledAt := h.settledAt
  refine { h with
    resolved := fun f hf hs => resolved_mono (h.resolved f hf hs) hnow, settledAt := ?_ }
  dsimp only at hnow hsettledAt ⊢
  omega

variable {f : Future}

lemma append (hnew : ∀ g ∈ s.futures, g.origin ≠ f.origin)
    (hat : s.settledAt < f.launchedAt) : Recorded e { s with futures := s.futures ++ [f] } := by
  have hunsettled : f.origin ∉ s.settled := by
    intro hs
    obtain ⟨g, hg, horigin⟩ := h.launched f.origin hs
    exact hnew g hg horigin
  constructor
  · intro i hi
    obtain ⟨g, hg, horigin⟩ := h.launched i hi
    exact ⟨g, mem_append_left _ hg, horigin⟩
  · intro g hg hs
    obtain hg | hg := mem_append.mp hg
    · exact h.resolved g hg hs
    · rw [mem_singleton.mp hg] at hs
      exact absurd hs hunsettled
  · intro g hg hs
    obtain hg | hg := mem_append.mp hg
    · exact h.response g hg hs
    · rw [mem_singleton.mp hg] at hs
      exact absurd hs hunsettled
  · intro tag hne hnone
    exact h.absent tag hne fun g hg => hnone g (mem_append_left _ hg)
  · intro g hg hlaunch hres
    obtain hg | hg := mem_append.mp hg
    · exact h.complete g hg hlaunch hres
    · rw [mem_singleton.mp hg] at hlaunch
      exact absurd hat (not_lt.mpr hlaunch)
  · exact h.settledAt

lemma settleFuture (hreg : Registry rules s)
    (hf : f ∈ s.futures) : Recorded e (e.settleFuture s f) := by
  unfold Call.settleFuture
  split
  · exact h
  · rename_i hcond
    obtain ⟨hunsettled, hres⟩ : f.origin ∉ s.settled ∧ e.resolved s.now f := by
      simpa only [Bool.or_eq_true, decide_eq_true_eq, Bool.not_eq_true', not_or,
        Bool.not_eq_false] using hcond
    have hlaunch : ∀ i ∈ f.origin :: s.settled, ∃ g ∈ s.futures, g.origin = i := by
      intro i hi
      obtain rfl | hi := mem_cons.mp hi
      · exact ⟨f, hf, rfl⟩
      · exact h.launched i hi
    have hres' : ∀ g ∈ s.futures, g.origin ∈ f.origin :: s.settled → e.resolved s.now g := by
      intro g hg hs
      obtain horigin | hs := mem_cons.mp hs
      · exact hreg.eq_of_origin hg hf horigin ▸ hres
      · exact h.resolved g hg hs
    have hcompl : ∀ g ∈ s.futures, g.launchedAt ≤ s.settledAt →
        e.resolved s.settledAt g → g.origin ∈ f.origin :: s.settled :=
      fun g hg hat hr => mem_cons_of_mem _ (h.complete g hg hat hr)
    split
    · rename_i hempty
      refine ⟨hlaunch, hres', ?_, ?_, hcompl, h.settledAt⟩
      · intro g hg hs htag
        obtain horigin | hs := mem_cons.mp hs
        · exact absurd (hreg.eq_of_origin hg hf horigin ▸ hempty) htag
        · exact h.response g hg hs htag
      · intro tag hne hnone
        exact h.absent tag hne fun g hg htag hs => hnone g hg htag (mem_cons_of_mem _ hs)
    · refine ⟨hlaunch, hres', ?_, ?_, hcompl, h.settledAt⟩
      · intro g hg hs htag
        dsimp only
        by_cases hsame : g.tag = f.tag
        · rw [hreg.eq_of_tag hg hf hsame htag, update_self, update_self]
          exact ⟨view_of_resolved hres, rfl⟩
        · rw [update_of_ne hsame, update_of_ne hsame]
          refine h.response g hg ?_ htag
          obtain horigin | hs := mem_cons.mp hs
          · exact absurd (by rw [hreg.eq_of_origin hg hf horigin]) hsame
          · exact hs
      · intro tag htag hnone
        dsimp only
        have hother : tag ≠ f.tag := by
          rintro rfl
          exact hnone f hf rfl mem_cons_self
        rw [update_of_ne hother]
        exact h.absent tag htag fun g hg htag hs => hnone g hg htag (mem_cons_of_mem _ hs)

lemma foldl_settleFuture (hreg : Registry rules s) {fs : List Future}
    (hfs : fs ⊆ s.futures) : Recorded e (fs.foldl e.settleFuture s) := by
  induction fs generalizing s with
  | nil => exact h
  | cons f fs ih =>
    obtain ⟨settled, responses, transports, hframe⟩ := settleFuture_frame e s f
    have hstep := h.settleFuture hreg (hfs mem_cons_self)
    refine ih hstep ?_ ?_
    · rw [hframe]
      exact hreg.frame rfl rfl rfl (le_refl _)
    · rw [hframe]
      exact List.Subset.trans (subset_cons_self _ _) hfs

end Recorded

lemma settled_settleFuture (e : Call) (s : WalkState) (f : Future) :
    s.settled ⊆ (e.settleFuture s f).settled ∧
    (e.resolved s.now f → f.origin ∈ (e.settleFuture s f).settled) := by
  unfold settleFuture
  split
  · rename_i hcond
    refine ⟨refl _, fun hres => ?_⟩
    simpa [hres] using hcond
  · split
    · exact ⟨subset_cons_self _ _, fun _ => mem_cons_self⟩
    · exact ⟨subset_cons_self _ _, fun _ => mem_cons_self⟩

lemma settled_foldl (e : Call) (fs : List Future) (s : WalkState) :
    s.settled ⊆ (fs.foldl e.settleFuture s).settled ∧
    ∀ f ∈ fs, e.resolved s.now f → f.origin ∈ (fs.foldl e.settleFuture s).settled := by
  induction fs generalizing s with
  | nil => exact ⟨refl _, by simp⟩
  | cons f fs ih =>
    obtain ⟨hgrow, hhead⟩ := settled_settleFuture e s f
    obtain ⟨hgrow', htail⟩ := ih (e.settleFuture s f)
    have hnow : (e.settleFuture s f).now = s.now := by
      obtain ⟨settled, responses, transports, hframe⟩ := settleFuture_frame e s f
      rw [hframe]
    rw [hnow] at htail
    refine ⟨List.Subset.trans hgrow hgrow', fun g hg hres => ?_⟩
    obtain rfl | hg := mem_cons.mp hg
    · exact hgrow' (hhead hres)
    · exact htail g hg hres

namespace Recorded

lemma settle (h : Recorded e s) (hreg : Registry rules s) : Recorded e (e.settleDNSFutures s) := by
  have hfold := h.foldl_settleFuture hreg (refl _)
  obtain ⟨settled, responses, transports, hframe⟩ := foldl_settleFuture_frame e s.futures s
  have hcompl := (settled_foldl e s.futures s).2
  rw [hframe] at hfold hcompl
  rw [settleDNSFutures, hframe]
  refine ⟨hfold.launched, ?_, hfold.response, hfold.absent, ?_, .inl (lt_succ_self _)⟩
  · intro f hf hs
    exact resolved_mono (hfold.resolved f hf hs) (le_succ _)
  · intro f hf _ hres
    exact hcompl f hf hres

lemma step (h : Recorded e s) (hreg : Registry rules s) (hs : Step e rules s t) : Recorded e t := by
  have hat := h.settledAt
  cases hs with
  | settle => exact h.settle hreg
  | launch r server tag options speculative transport hr hact hnow =>
    have happend := h.append (f := e.newFuture s tag false transport
      (applyDNSRouteOptions s.effectiveOptions options))
      (fun g hg => hreg.origin_ne hr hact hg) (by dsimp only [newFuture]; omega)
    obtain ⟨anonymous, named, heval⟩ := evaluate_frame e s tag transport options
    rw [heval]
    exact happend.frame rfl rfl rfl rfl rfl (le_refl _)
  | speculate r server options transport queryOptions hr hact harmed hterm hnow =>
    have hnew := (hreg.speculate (e := e) transport queryOptions hr hact hterm).origins
    rw [map_append] at hnew
    have happend := h.append (f := e.newFuture s "" true transport queryOptions)
      (fun g hg => (nodup_append.mp hnew).2.2 _ (mem_map_of_mem hg) _ (by simp))
      (by dsimp only [newFuture]; omega)
    exact happend.frame rfl rfl rfl rfl rfl (le_refl _)
  | elapse now hnow | wait now taken hnow => exact h.frame rfl rfl rfl rfl rfl hnow
  | judge armed before after verdict now harmed hready hfresh hnow =>
    exact h.frame rfl rfl rfl rfl rfl (le_of_lt hnow)
  | matched | arm => exact h.frame rfl rfl rfl rfl rfl (le_succ _)
  | look | next | options | unbind | decide => exact h.frame rfl rfl rfl rfl rfl (le_refl _)

end Recorded

/-! ## What a rule is matched against -/

end Call

/-- No future with a tag that a look found resolved had completed after the settling
before it. -/
def Event.Quiet (e : Call) : Event → Prop
  | .checked settledAt found => ∀ f ∈ found, f.tag ≠ "" → e.doneAt f.origin ≤ settledAt
  | _ => True

instance (e : Call) : (event : Event) → Decidable (event.Quiet e)
  | .checked settledAt found =>
    inferInstanceAs (Decidable (∀ f ∈ found, f.tag ≠ "" → e.doneAt f.origin ≤ settledAt))
  | .matched _ _ _ _ | .armed _ _ | .judged _ _ _ _ | .decided _ _ => isTrue trivial

/-- A rule was matched, for each of its tags, against the response of the future that
the tag stands for. -/
def Event.Faithful (e : Call) : Event → Prop
  | .matched _ tags named registered =>
    ∀ tag ∈ tags, named tag = (registered tag).bind fun f => (e.outcomeOf f).toOption
  | _ => True

instance (e : Call) : (event : Event) → Decidable (event.Faithful e)
  | .matched _ tags named registered => inferInstanceAs (Decidable (∀ tag ∈ tags,
      named tag = (registered tag).bind fun f => (e.outcomeOf f).toOption))
  | .checked _ _ | .armed _ _ | .judged _ _ _ _ | .decided _ _ => isTrue trivial

namespace Call
variable {e : Call} {rules : List DNSRule} {s t : WalkState}

/-- All that is known of a state of a run. -/
structure Tracked (e : Call) (rules : List DNSRule) (s : WalkState) : Prop where
  launched : Launched rules s
  ledger : Ledger e rules s
  registry : Registry rules s
  recorded : Recorded e s

lemma Tracked.reaches (h : Tracked e rules s) (hvalid : ValidRules rules)
    (hr : Reaches e rules s t) : Tracked e rules t := by
  induction hr with
  | refl => exact h
  | tail _ hs ih =>
    exact ⟨ih.launched.step hs, ih.ledger.step hvalid hs, ih.registry.step hvalid hs,
      ih.recorded.step ih.registry hs⟩

lemma Tracked.of_run {options : DNSQueryOptions} (hvalid : ValidRules rules)
    (h : Run e rules options s) : Tracked e rules s :=
  Tracked.reaches ⟨launched_initial options, ledger_initial options,
    ⟨by simp, by simp, by simp, by simp, by simp⟩, recorded_initial options⟩ hvalid h

/-- Once the future of a tag is settled, its response is under the tag. -/
theorem Tracked.namedResponses_eq (h : Tracked e rules s) (hne : tag ≠ "")
    (hsettled : ∀ f, s.namedFutures tag = some f → f.origin ∈ s.settled) :
    s.namedResponses tag = (s.namedFutures tag).bind fun f => (e.outcomeOf f).toOption := by
  cases hnamed : s.namedFutures tag with
  | none =>
    apply h.recorded.absent tag hne
    intro f hf htag
    subst htag
    simp [h.registry.tagged f hf hne] at hnamed
  | some f =>
    obtain ⟨hf, rfl, -⟩ := h.registry.named tag f hnamed
    exact (h.recorded.response f hf (hsettled f hnamed) hne).1

variable {now : Nat}

/-- What a quiet look finds resolved under a tag was settled before it. -/
theorem Recorded.settled_of_quiet (h : Recorded e s) (hfresh : s.Fresh) {found : List Future}
    (hquiet : (Event.checked s.settledAt found).Quiet e) {f : Future} (hf : f ∈ s.futures)
    (hfound : f ∈ found) (hne : f.tag ≠ "") : f.origin ∈ s.settled :=
  h.complete f hf (hfresh f hf) (resolved_iff.mpr (hquiet f hfound hne))

/-- The futures behind the tags of armed rules, and which of them have left their
response. -/
structure Bound (e : Call) (s : WalkState) : Prop where
  tags : ∀ a ∈ s.armedRules, ∀ tag ∈ a.rule.matchResponseTags, ∀ f,
    s.namedFutures tag = some f → f ∈ a.bound
  settled : (∀ event ∈ s.trace, event.Quiet e) → ∀ a ∈ s.armedRules, ∀ f ∈ a.bound,
    f.tag ≠ "" → f ∈ a.futures ∨ f.origin ∈ s.settled
  faithful : (∀ event ∈ s.trace, event.Quiet e) → ∀ event ∈ s.trace, event.Faithful e

namespace Bound

variable (h : Bound e s)
include h

lemma frame (hnamed : t.namedFutures = s.namedFutures)
    (harmed : t.armedRules = s.armedRules) (hsettled : s.settled ⊆ t.settled)
    (htrace : ∃ events, t.trace = s.trace ++ events ∧ ((∀ event ∈ t.trace, event.Quiet e) →
      ∀ event ∈ events, event.Faithful e)) : Bound e t := by
  obtain ⟨events, htrace, hfaithful⟩ := htrace
  have hquiet : (∀ event ∈ t.trace, event.Quiet e) → ∀ event ∈ s.trace, event.Quiet e := by
    intro hquiet event hmem
    exact hquiet event (htrace ▸ mem_append_left _ hmem)
  refine ⟨?_, ?_, ?_⟩
  · rw [hnamed, harmed]
    exact h.tags
  · rw [harmed]
    intro hq a ha f hf hne
    obtain hf | hs := h.settled (hquiet hq) a ha f hf hne
    · exact .inl hf
    · exact .inr (hsettled hs)
  · intro hq event hmem
    rw [htrace] at hmem
    obtain hmem | hmem := mem_append.mp hmem
    · exact h.faithful (hquiet hq) event hmem
    · exact hfaithful hq event hmem

variable (ht : Tracked e rules s)
include ht

/-- The match of the current rule, after its futures were found resolved. -/
theorem matched (hfresh : r.hasBindings → s.Fresh) (hlooked : ∀ f ∈ boundFutures s r, Looked s f) :
    Bound e (noteMatch s s.ruleIndex r).tick := by
  refine h.frame rfl rfl (refl _) ⟨_, rfl, fun hquiet event hmem => ?_⟩
  rw [mem_singleton.mp hmem]
  intro tag htag
  have hne := ne_of_mem_matchResponseTags htag
  apply ht.namedResponses_eq hne
  intro f hf
  obtain ⟨hmem, rfl, -⟩ := ht.registry.named tag f hf
  have hbind : r.hasBindings := by
    cases hempty : r.matchResponseTags with
    | nil =>
      simp [hempty] at htag
    | cons first rest => simp [DNSRule.hasBindings, hempty]
  obtain ⟨found, hlook, hfound⟩ := hlooked f
    (mem_append_left _ (mem_filterMap.mpr ⟨f.tag, htag, hf⟩))
  exact ht.recorded.settled_of_quiet (hfresh hbind) (hquiet _ (mem_append_left _ hlook)) hmem
    hfound hne

/-- The match of an armed rule, after those it waited for were found resolved. -/
theorem judge {armed : ArmedRule} {before after : List ArmedRule} {verdict : RaceVerdict}
    (harmed : s.armedRules = before ++ armed :: after) (hfresh : s.Fresh) :
    Bound e (judgedState s armed (before ++ after) verdict now) := by
  have hmem : armed ∈ s.armedRules := by simp [harmed]
  have hsub : before ++ after ⊆ s.armedRules := by
    rw [harmed]
    exact ((sublist_cons_self armed after).append_left before).subset
  have hquiet : (∀ event ∈ (judgedState s armed (before ++ after) verdict now).trace,
      event.Quiet e) → ∀ event ∈ s.trace, event.Quiet e :=
    fun hq event hev => hq event (mem_append_left _ hev)
  refine ⟨fun a ha => h.tags a (hsub ha), fun hq a ha => h.settled (hquiet hq) a (hsub ha), ?_⟩
  intro hq event hev
  obtain hev | hev := mem_append.mp hev
  · exact h.faithful (hquiet hq) event hev
  · obtain rfl | hev := mem_cons.mp hev
    · trivial
    · obtain rfl | hev := mem_cons.mp hev
      · intro tag htag
        have hne := ne_of_mem_matchResponseTags htag
        apply ht.namedResponses_eq hne
        intro f hf
        obtain ⟨hlaunched, rfl, -⟩ := ht.registry.named tag f hf
        have hbound := h.tags armed hmem f.tag htag f hf
        obtain hwait | hs := h.settled (hquiet hq) armed hmem f hbound hne
        · exact ht.recorded.settled_of_quiet hfresh (hq _ (mem_append_right _ mem_cons_self))
            hlaunched hwait hne
        · exact hs
      · rw [mem_singleton.mp hev]
        trivial

lemma arm (r : DNSRule) (hfresh : s.Fresh) :
    Bound e { e.armedState s r with ruleIndex := s.ruleIndex + 1 } := by
  have hquiet : (∀ event ∈ (e.armedState s r).trace, event.Quiet e) →
      ∀ event ∈ s.trace, event.Quiet e :=
    fun hq event hev => hq event (mem_append_left _ hev)
  refine ⟨?_, ?_, ?_⟩
  · intro a ha tag htag f hf
    obtain ha | ha := mem_append.mp ha
    · exact h.tags a ha tag htag f hf
    · rw [mem_singleton.mp ha] at htag ⊢
      exact mem_append_left _ (mem_filterMap.mpr ⟨tag, htag, hf⟩)
  · intro hq a ha f hf hne
    obtain ha | ha := mem_append.mp ha
    · exact h.settled (hquiet hq) a ha f hf hne
    · rw [mem_singleton.mp ha] at hf ⊢
      cases hres : e.resolved s.now f with
      | false => exact .inl (mem_filter.mpr ⟨hf, by rw [hres]; rfl⟩)
      | true =>
        exact .inr (ht.recorded.settled_of_quiet hfresh (hq _ (mem_append_right _ mem_cons_self))
          (ht.launched.boundFutures_subset r hf) (mem_filter.mpr ⟨hf, hres⟩) hne)
  · intro hq event hev
    obtain hev | hev := mem_append.mp hev
    · exact h.faithful (hquiet hq) event hev
    · obtain rfl | hev := mem_cons.mp hev
      · trivial
      · rw [mem_singleton.mp hev]
        trivial

lemma launch (hvalid : ValidRules rules)
    (transport : DNSTransport) (hr : rules[s.ruleIndex]? = some r)
    (hact : r.action = .evaluate server tag options speculative) :
    Bound e { e.evaluate s tag transport options with ruleIndex := s.ruleIndex + 1 } := by
  unfold evaluate
  split
  · exact { h with }
  · rename_i hne
    refine { h with tags := ?_ }
    intro a ha used hused f hf
    obtain ⟨hevent, hrule, -⟩ := ht.ledger.entry a ha
    have hbelow := ht.ledger.below _ _ hevent
    have hother : used ≠ tag := hvalid.tag_ne hrule hused (le_of_lt hbelow) hr
      (evaluateTag_of_action hact hne)
    dsimp only at hf
    rw [update_of_ne hother] at hf
    exact h.tags a ha used hused f hf

lemma step (hvalid : ValidRules rules) (hs : Step e rules s t) : Bound e t := by
  cases hs with
  | settle =>
    refine h.frame (by simp) (by simp) ?_ ⟨[], by simp, by simp⟩
    exact (settled_foldl e s.futures s).1
  | look | decide =>
    refine h.frame rfl rfl (refl _) ⟨_, rfl, fun _ event hmem => ?_⟩
    rw [mem_singleton.mp hmem]
    trivial
  | matched r hr hrace hfresh hlooked => exact h.matched ht hfresh hlooked
  | arm r hr hrace hfresh => exact h.arm ht r hfresh
  | judge armed before after verdict now harmed hready hfresh =>
    exact h.judge ht harmed hfresh
  | launch r server tag options speculative transport hr hact =>
    exact h.launch ht hvalid transport hr hact
  | elapse | wait | next | options | unbind | speculate =>
    exact h.frame rfl rfl (refl _) ⟨[], by simp, by simp⟩

end Bound

lemma Run.bound {options : DNSQueryOptions} (hvalid : ValidRules rules)
    (h : Run e rules options s) : Bound e s := by
  induction h with
  | refl => exact ⟨by simp, by simp, by simp⟩
  | tail hrun hs ih => exact ih.step (Tracked.of_run hvalid hrun) hvalid hs

/-- For every checked list: a call returns, and if in it no exchange under a tag
completes between a settling and a look that finds it completed, then every rule is
matched against the responses of the futures its tags stand for. -/
theorem exchangeWithRules_faithful (e : Call) {rules : List DNSRule} (options : DNSQueryOptions)
    (hvalid : validateLegacyDNSModeDisabledRules rules = .ok ()) :
    ∃ n s d, (∀ fuel, n ≤ fuel → e.exchangeWithRules rules options fuel = some (s, d)) ∧
      ((∀ event ∈ s.trace, event.Quiet e) → ∀ event ∈ s.trace, event.Faithful e) := by
  obtain ⟨n, s, d, hret⟩ := exchangeWithRules_returns e rules options
  refine ⟨n, s, d, hret, ?_⟩
  obtain ⟨⟨t, u, hrun, hend, -, htrace⟩, -⟩ := ends_exchangeWithRules (hret n (Nat.le_refl n))
  have hvalid : ValidRules rules := validRules_of_ok hvalid
  have hbound : Bound e t := Run.bound hvalid hrun
  rw [htrace]
  obtain rfl | hcommit := hend
  · exact hbound.faithful
  · cases hcommit with
    | judge armed before after now harmed hready hfresh =>
      exact (hbound.judge (Tracked.of_run hvalid hrun) harmed hfresh).faithful

/-- A rule answers with the response an earlier rule asks for. -/
def respondRules : List DNSRule :=
  [{ rule := .default {}, action := .evaluate "local" "first" {} false },
   { rule := .default { matchResponse := true, matchResponseTag := "first" },
     action := .respond }]

def answersAt (time : Nat) : Call where
  transports :=
    { transport := fun server => some { tag := server }, default := { tag := "default" } }
  metadata := {}
  message := {}
  doneAt := fun _ => time
  sentAt := fun _ => time
  done_le_sent := fun _ => le_refl _
  outcome := fun _ _ _ => .ok { id := 7 }
  exchange := fun _ _ => .ok {}

def awaitedResult : ExchangeResult where
  response := some { id := 7 }
  transport := some { tag := "local" }

/-- A response that comes while the rule waits for it completes between no settling and
the look after it. -/
lemma quiet_awaited {n : Nat} {d : Decision} (hret : ∀ fuel, n ≤ fuel →
      (answersAt 5).exchangeWithRules respondRules {} fuel = some (s, d)) :
    d = .result awaitedResult ∧ ∀ event ∈ s.trace, event.Quiet (answersAt 5) := by
  have hrun : ((answersAt 5).exchangeWithRules respondRules {} 8).map (fun r =>
      (r.2, decide (∀ event ∈ r.1.trace, event.Quiet (answersAt 5)))) =
      some (.result awaitedResult, true) := by decide +kernel
  obtain ⟨⟨t, d'⟩, h, hres⟩ := Option.map_eq_some_iff.mp hrun
  obtain ⟨rfl, hquiet⟩ := Prod.mk.injEq .. ▸ hres
  cases (exchangeWithRules_mono (Nat.le_add_right 8 n) h).symm.trans (hret _ (Nat.le_add_left ..))
  exact ⟨rfl, of_decide_eq_true hquiet⟩

/-- It is found. -/
theorem exchangeWithRules_faithful_awaited :
    validateLegacyDNSModeDisabledRules respondRules = .ok () ∧
    ∃ n s d, (∀ fuel, n ≤ fuel →
        (answersAt 5).exchangeWithRules respondRules {} fuel = some (s, d)) ∧
      d = .result awaitedResult ∧ (∀ event ∈ s.trace, event.Quiet (answersAt 5)) ∧
      ∀ event ∈ s.trace, event.Faithful (answersAt 5) := by
  have hvalid : validateLegacyDNSModeDisabledRules respondRules = .ok () := by rfl
  obtain ⟨n, s, d, hret, hfaithful⟩ := exchangeWithRules_faithful (answersAt 5) {} hvalid
  obtain ⟨hd, hquiet⟩ := quiet_awaited hret
  exact ⟨hvalid, n, s, d, hret, hd, hquiet, hfaithful hquiet⟩

/-- No rule of a checked list launches two exchanges in a call, and an evaluating one launches its
exchange under its own tag. -/
theorem exchangeWithRules_launches_once (e : Call) (rules : List DNSRule)
    (options : DNSQueryOptions) (fuel : Nat) {d : Decision}
    (hvalid : validateLegacyDNSModeDisabledRules rules = .ok ())
    (h : e.exchangeWithRules rules options fuel = some (s, d)) :
    (s.futures.map Future.origin).Nodup ∧ ∀ f ∈ s.futures, f.terminal = false →
      ∃ r server options speculative, rules[f.origin]? = some r ∧
        r.action = .evaluate server f.tag options speculative := by
  obtain ⟨⟨t, u, hrun, hend, hfutures, -⟩, -⟩ := ends_exchangeWithRules h
  have hreg : Registry rules t := (Tracked.of_run (validRules_of_ok hvalid) hrun).registry
  have hsame : s.futures = t.futures := by
    rw [hfutures]
    obtain rfl | hcommit := hend
    · rfl
    · cases hcommit
      rfl
  rw [hsame]
  exact ⟨hreg.origins, fun f hf hterm => (hreg.evaluated f hf hterm).2⟩

theorem exchangeWithRules_launches_first : ∃ s d,
    (answersAt 5).exchangeWithRules respondRules {} 8 = some (s, d) ∧
      (s.futures.map Future.origin).Nodup := by
  have hsome : ((answersAt 5).exchangeWithRules respondRules {} 8).isSome := by decide +kernel
  obtain ⟨⟨s, d⟩, h⟩ := Option.isSome_iff_exists.mp hsome
  exact ⟨s, d, h, (exchangeWithRules_launches_once _ respondRules {} 8 (by rfl) h).1⟩

/-- One that comes between the settling and the look is not: the rule is matched
without it, and the call goes on to the default transport. -/
theorem response_lost_after_settling : validateLegacyDNSModeDisabledRules respondRules = .ok () ∧
    ∃ s, (answersAt 2).exchangeWithRules respondRules {} 8 =
        some (s, .exchange { tag := "default" } {}) ∧
      ¬ ∀ event ∈ s.trace, event.Faithful (answersAt 2) := by
  refine ⟨by rfl, ?_⟩
  have hrun : ((answersAt 2).exchangeWithRules respondRules {} 8).map (fun r =>
      (r.2, decide (∀ event ∈ r.1.trace, event.Faithful (answersAt 2)))) =
      some (.exchange { tag := "default" } {}, false) := by decide +kernel
  obtain ⟨⟨s, d⟩, h, hres⟩ := Option.map_eq_some_iff.mp hrun
  obtain ⟨rfl, hunfaithful⟩ := Prod.mk.injEq .. ▸ hres
  exact ⟨s, h, of_decide_eq_false hunfaithful⟩

end Call

end SingBox.Dns
