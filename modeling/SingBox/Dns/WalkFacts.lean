import SingBox.Dns.Walk

/-! What each part of the walk can do to its state. Later modules take the walk
apart with these facts and never look at the definitions again. -/

namespace SingBox.Dns
open List

namespace Call
variable {e : Call} {s : WalkState} {f : Future} {now : Nat}

@[simp] lemma resolved_iff : e.resolved now f ↔ e.doneAt f.origin ≤ now := by
  simp [resolved]

variable {now later : Nat}

lemma resolved_mono (h : e.resolved now f) (hle : now ≤ later) : e.resolved later f := by
  rw [resolved_iff] at h ⊢
  omega

lemma unresolved_of_le (h : e.resolved later f = false)
    (hle : now ≤ later) : e.resolved now f = false := by
  cases hres : e.resolved now f with
  | false => rfl
  | true =>
    simp [resolved_mono hres hle] at h

lemma view_of_resolved (h : e.resolved now f) : e.view now f = (e.outcomeOf f).toOption := by
  simp [view, h]

/-! ## Settling -/

lemma settleFuture_frame (e : Call) (s : WalkState) (f : Future) :
    ∃ settled responses transports, e.settleFuture s f =
      { s with settled, namedResponses := responses, namedTransports := transports } := by
  unfold settleFuture
  split
  · exact ⟨_, _, _, rfl⟩
  · split
    · exact ⟨_, _, _, rfl⟩
    · exact ⟨_, _, _, rfl⟩

lemma foldl_settleFuture_frame (e : Call) (fs : List Future) (s : WalkState) :
    ∃ settled responses transports, fs.foldl e.settleFuture s =
      { s with settled, namedResponses := responses, namedTransports := transports } := by
  induction fs generalizing s with
  | nil => exact ⟨_, _, _, rfl⟩
  | cons f fs ih =>
    obtain ⟨a, b, c, h⟩ := settleFuture_frame e s f
    obtain ⟨a', b', c', h'⟩ := ih (e.settleFuture s f)
    refine ⟨a', b', c', ?_⟩
    rw [foldl_cons, h', h]

lemma settleDNSFutures_eq (e : Call) (s : WalkState) : e.settleDNSFutures s = { s with
    settled := (e.settleDNSFutures s).settled
    namedResponses := (e.settleDNSFutures s).namedResponses
    namedTransports := (e.settleDNSFutures s).namedTransports
    settledAt := s.now, now := s.now + 1 } := by
  obtain ⟨_, _, _, h⟩ := foldl_settleFuture_frame e s.futures s
  rw [settleDNSFutures, h]
  rfl

section
variable (e s)

@[simp] lemma settleDNSFutures_ruleIndex : (e.settleDNSFutures s).ruleIndex = s.ruleIndex := by
  rw [settleDNSFutures_eq]

@[simp] lemma settleDNSFutures_effectiveOptions :
    (e.settleDNSFutures s).effectiveOptions = s.effectiveOptions := by
  rw [settleDNSFutures_eq]

@[simp] lemma settleDNSFutures_anonymousFuture :
    (e.settleDNSFutures s).anonymousFuture = s.anonymousFuture := by
  rw [settleDNSFutures_eq]

@[simp] lemma settleDNSFutures_namedFutures :
    (e.settleDNSFutures s).namedFutures = s.namedFutures := by
  rw [settleDNSFutures_eq]

@[simp] lemma settleDNSFutures_futures : (e.settleDNSFutures s).futures = s.futures := by
  rw [settleDNSFutures_eq]

@[simp] lemma settleDNSFutures_armedRules : (e.settleDNSFutures s).armedRules = s.armedRules := by
  rw [settleDNSFutures_eq]

@[simp] lemma settleDNSFutures_terminalFuture :
    (e.settleDNSFutures s).terminalFuture = s.terminalFuture := by
  rw [settleDNSFutures_eq]

@[simp] lemma settleDNSFutures_taken : (e.settleDNSFutures s).taken = s.taken := by
  rw [settleDNSFutures_eq]

@[simp] lemma settleDNSFutures_trace : (e.settleDNSFutures s).trace = s.trace := by
  rw [settleDNSFutures_eq]

@[simp] lemma settleDNSFutures_now : (e.settleDNSFutures s).now = s.now + 1 := by
  rw [settleDNSFutures_eq]

end

/-! ## The action of a rule -/

lemma evaluate_frame (e : Call) (s : WalkState) (tag : String) (transport : DNSTransport)
    (options : DNSRouteOptions) : ∃ anonymous named, e.evaluate s tag transport options = { s with
        futures := s.futures ++ [e.newFuture s tag false transport
          (applyDNSRouteOptions s.effectiveOptions options)]
        anonymousFuture := anonymous
        namedFutures := named } := by
  unfold evaluate
  split
  · exact ⟨_, _, rfl⟩
  · exact ⟨_, _, rfl⟩

/-- The outcomes of the action of a matching rule `r`. -/
inductive Acts (e : Call) (r : DNSRule) (s : WalkState) : Outcome → Prop
  | pass : Acts e r s (.next s)
  | options (options : DNSRouteOptions) (haction : r.action = .routeOptions options) :
      Acts e r s (.next
        { s with effectiveOptions := applyDNSRouteOptions s.effectiveOptions options })
  | unbind (server : String) (options : DNSRouteOptions) (speculative : Bool)
      (haction : r.action = .evaluate server "" options speculative) :
      Acts e r s (.next { s with anonymousFuture := none })
  | launch (server tag : String) (options : DNSRouteOptions) (speculative : Bool)
      (transport : DNSTransport) (haction : r.action = .evaluate server tag options speculative) :
      Acts e r s (.next (e.evaluate s tag transport options))
  | drain (harmed : s.armedRules ≠ []) : Acts e r s (.suspended s .drain)
  | speculate (server : String) (options : DNSRouteOptions) (transport : DNSTransport)
      (queryOptions : DNSQueryOptions) (haction : r.action = .route server options true)
      (harmed : s.armedRules ≠ []) (hterminal : s.terminalFuture = none) :
      Acts e r s (.suspended
        { s with futures := s.futures ++ [e.newFuture s "" true transport queryOptions]
                 terminalFuture := some (e.newFuture s "" true transport queryOptions) } .drain)
  | await (f : Future) (harmed : s.armedRules = []) (hf : s.anonymousFuture = some f)
      (hunresolved : e.resolved s.now f = false) : Acts e r s (.suspended s.tick (.await f))
  | done (now : Nat) (result : ExchangeResult) (harmed : s.armedRules = [])
      (hnow : s.now ≤ now) :
      Acts e r s (.done ({ s with now }.record (.decided s.ruleIndex none)) result)
  | exchange (transport : DNSTransport) (options : DNSQueryOptions) (harmed : s.armedRules = []) :
      Acts e r s (.suspended (s.record (.decided s.ruleIndex none))
        (.pending (.exchange transport options)))
  | speculative (f : Future) (harmed : s.armedRules = []) (hf : s.terminalFuture = some f)
      (horigin : f.origin = s.ruleIndex) :
      Acts e r s (.suspended (s.record (.decided s.ruleIndex (some f))) (.pending (.future f)))

variable {r : DNSRule}

lemma acts_unlessArmed {outcome : WalkState → Outcome}
    (h : s.armedRules = [] → Acts e r s (outcome s)) : Acts e r s (unlessArmed s outcome) := by
  unfold unlessArmed
  cases harmed : s.armedRules with
  | nil => simpa [harmed] using h harmed
  | cons a as => exact .drain (by simp [harmed])

section
variable (harmed : s.armedRules = [])
include harmed

variable (result : ExchangeResult)

lemma acts_finish : Acts e r s (finish s result) :=
  .done s.now result harmed (Nat.le_refl _)

lemma acts_finish_tick : Acts e r s (finish s.tick result) :=
  .done (s.now + 1) result harmed (Nat.le_succ _)

lemma acts_respond : Acts e r s (e.respond r s) := by
  unfold respond
  split
  · cases s.namedResponses r.matchResponseTag with
    | none | some response => exact acts_finish harmed _
  · cases hf : s.anonymousFuture with
    | none => exact acts_finish harmed _
    | some f =>
      dsimp only
      split
      · rename_i hwait
        simp only [Bool.and_eq_true, Bool.not_eq_true'] at hwait
        exact .await f harmed hf hwait.2
      · cases e.view s.tick.now f with
        | none | some response => exact acts_finish_tick harmed _

end

lemma acts_route {server : String} {options : DNSRouteOptions} {speculative : Bool}
    (haction : r.action = .route server options speculative) (transport : DNSTransport)
    (queryOptions : DNSQueryOptions) :
    Acts e r s (e.route s transport queryOptions speculative) := by
  unfold route
  cases harmed : s.armedRules with
  | cons a as =>
    have hne : s.armedRules ≠ [] := by simp [harmed]
    simp only [isEmpty_cons, Bool.not_false, if_true]
    split
    · rename_i hspec
      simp only [Bool.and_eq_true, Option.isNone_iff_eq_none] at hspec
      rw [hspec.1] at haction
      rw [← harmed]
      exact .speculate server options transport queryOptions haction hne hspec.2
    · exact .drain hne
  | nil =>
    cases hf : s.terminalFuture.filter fun f => f.origin == s.ruleIndex with
    | none => exact .exchange transport queryOptions harmed
    | some f =>
      rw [Option.filter_eq_some_iff] at hf
      exact .speculative f harmed hf.1 (by simpa using hf.2)

lemma acts_act (e : Call) (s : WalkState) (r : DNSRule) : Acts e r s (e.act s r) := by
  unfold act
  cases haction : r.action with
  | routeOptions options => exact .options options haction
  | evaluate server tag options speculative =>
    dsimp only
    cases e.transports.transport server with
    | none =>
      dsimp only
      split
      · rename_i htag
        subst htag
        exact .unbind server options speculative haction
      · exact .pass
    | some transport =>
      dsimp only
      split
      · rename_i harmed
        exact .drain (by simpa using And.right (by simpa using harmed))
      · exact .launch server tag options speculative transport haction
  | respond => exact acts_unlessArmed acts_respond
  | route server options speculative =>
    dsimp only
    split
    · exact acts_route haction _ _
    · exact .pass
  | reject method =>
    apply acts_unlessArmed
    intro harmed
    cases e.rejectResult method with
    | none => exact .pass
    | some result => exact acts_finish harmed _
  | predefined response => exact acts_unlessArmed fun harmed => acts_finish harmed _

/-! ## The sweep -/

/-- A ready rule, found at `s`, has been judged; `others` are still armed. -/
def judgedState (s : WalkState) (armed : ArmedRule) (others : List ArmedRule)
    (verdict : RaceVerdict) (now : Nat) : WalkState :=
  { s with
    armedRules := others
    now
    trace := s.trace ++ [.checked s.settledAt armed.futures,
       .matched armed.ruleIndex armed.rule.matchResponseTags s.namedResponses s.namedFutures,
       .judged armed.ruleIndex armed.bound (s.now + 1) verdict] }

/-- The outcomes of judging a rule that was found ready at `s`. -/
inductive Judges (e : Call) (armed : ArmedRule) (others : List ArmedRule) (s : WalkState) :
    SweepOutcome → Prop
  | missed (now : Nat) (hnow : s.now < now) :
      Judges e armed others s (.idle (judgedState s armed others .missed now))
  | skipped (now : Nat) (hnow : s.now < now) (hskip : ∃ t, e.armedAction t armed = .skip) :
      Judges e armed others s (.idle (judgedState s armed others .skipped now))
  | result (now : Nat) (hnow : s.now < now) (r : ExchangeResult) :
      Judges e armed others s (.result (judgedState s armed others .committed now) r)
  | pending (now : Nat) (hnow : s.now < now) (transport : DNSTransport)
      (options : DNSQueryOptions) :
      Judges e armed others s (.pending (judgedState s armed others .committed now)
        (.exchange transport options))

lemma armedAction_pending {armed : ArmedRule} {p : Pending}
    (h : e.armedAction s armed = .pending p) :
    ∃ transport options, p = .exchange transport options := by
  unfold armedAction at h
  split at h
  · cases h
  · split at h
    · cases h
      exact ⟨_, _, rfl⟩
    · cases h
  · split at h <;> cases h
  · cases h
  · cases h
  · cases h

lemma judges_judge (e : Call) (armed : ArmedRule) (others : List ArmedRule) (s : WalkState) :
    Judges e armed others s
      (e.judge { (check s armed.futures).tick with armedRules := others } armed) := by
  obtain ⟨t, ht⟩ : ∃ t, t = { (check s armed.futures).tick with armedRules := others } :=
    ⟨_, rfl⟩
  have hrec : ∀ verdict, (noteMatch t armed.ruleIndex armed.rule).tick.record
      (.judged armed.ruleIndex armed.bound t.now verdict) =
      judgedState s armed others verdict (s.now + 2) := by
    subst ht
    simp [judgedState, check, noteMatch, WalkState.record, WalkState.tick]
  have htick : ∀ verdict, (judgedState s armed others verdict (s.now + 2)).tick =
      judgedState s armed others verdict (s.now + 3) := fun _ => rfl
  rw [← ht]
  unfold judge
  dsimp only
  split
  · rw [hrec]
    exact .missed _ (by omega)
  · cases haction : e.armedAction (noteMatch t armed.ruleIndex armed.rule).tick armed with
    | skip =>
      simp only [hrec, htick]
      exact .skipped _ (by omega) ⟨_, haction⟩
    | result r =>
      simp only [hrec, htick]
      exact .result _ (by omega) r
    | pending p =>
      obtain ⟨transport, options, rfl⟩ := armedAction_pending haction
      simp only [hrec, htick]
      exact .pending _ (by omega) transport options

/-- How a sweep ends, given what holds at each round of its loop. -/
inductive Swept (e : Call) (P : List ArmedRule → List ArmedRule → WalkState → Prop) :
    SweepOutcome → Prop
  | idle (waiting : List ArmedRule) (s : WalkState) (h : P [] waiting s) :
      Swept e P (.idle { s with armedRules := waiting })
  | result (armed : ArmedRule) (rest waiting : List ArmedRule) (s : WalkState) (now : Nat)
      (r : ExchangeResult) (h : P (armed :: rest) waiting s)
      (hready : ∀ f ∈ armed.futures, e.resolved s.now f = true) (hnow : s.now < now) :
      Swept e P (.result (judgedState s armed (waiting ++ rest) .committed now) r)
  | pending (armed : ArmedRule) (rest waiting : List ArmedRule) (s : WalkState) (now : Nat)
      (transport : DNSTransport) (options : DNSQueryOptions) (h : P (armed :: rest) waiting s)
      (hready : ∀ f ∈ armed.futures, e.resolved s.now f = true) (hnow : s.now < now) :
      Swept e P (.pending (judgedState s armed (waiting ++ rest) .committed now)
        (.exchange transport options))

/-- Induction over the loop of the sweep: a rule is passed over or judged. -/
theorem sweepLoop_induct {P : List ArmedRule → List ArmedRule → WalkState → Prop}
    (hpass : ∀ armed rest waiting s, P (armed :: rest) waiting s →
      (∃ f ∈ armed.futures, e.resolved s.now f = false) →
      P rest (waiting ++ [armed]) s.tick)
    (hjudge : ∀ armed rest waiting s verdict now, P (armed :: rest) waiting s →
      (∀ f ∈ armed.futures, e.resolved s.now f) → s.now < now → verdict ≠ .committed →
      (verdict = .skipped → ∃ t, e.armedAction t armed = .skip) →
      P rest waiting (judgedState s armed (waiting ++ rest) verdict now))
    {rest waiting : List ArmedRule} (h : P rest waiting s) :
    Swept e P (e.sweepLoop rest waiting s) := by
  induction rest generalizing waiting s with
  | nil => exact .idle waiting s h
  | cons armed rest ih =>
    rw [sweepLoop]
    cases hready : armed.futures.all (e.resolved s.now) with
    | false =>
      obtain ⟨f, hf, hpend⟩ := all_eq_false.mp hready
      exact ih (hpass armed rest waiting s h ⟨f, hf, eq_false_of_ne_true hpend⟩)
    | true =>
      have hall := all_eq_true.mp hready
      have hjudges := judges_judge e armed (waiting ++ rest) s
      rw [if_neg (by simp)]
      dsimp only
      generalize e.judge { (check s armed.futures).tick with armedRules := waiting ++ rest } armed =
        outcome at hjudges ⊢
      cases hjudges with
      | missed now hnow =>
        exact ih (hjudge armed rest waiting s .missed now h hall hnow (by simp) (by simp))
      | skipped now hnow hskip =>
        exact ih (hjudge armed rest waiting s .skipped now h hall hnow (by simp) fun _ => hskip)
      | result now hnow r => exact .result armed rest waiting s now r h hall hnow
      | pending now hnow transport options =>
        exact .pending armed rest waiting s now transport options h hall hnow

end Call

end SingBox.Dns
