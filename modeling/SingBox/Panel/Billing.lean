import SingBox.Panel.Journal

/-! What each operation of the reporter keeps. -/

namespace SingBox.Panel
open List Option Tracker

namespace Node

variable {R : Reporter} {exact : Prop} {s t : Node} {i : Nat}

/-- An operation of one call: the invariant is kept, and so is what the other
calls rely on. -/
structure Keeps (R : Reporter) (exact : Prop) (i : Nat) (s t : Node) : Prop where
  inv : t.Inv R exact
  others : ∀ j, j ≠ i → Rely j s t

/-! The journal does not see the tracker, and the other way round. -/

lemma Journal.congr (h : s.Journal R) (hstore : t.store = s.store)
    (hjour : t.journaled = s.journaled) (hacc : t.accepted = s.accepted)
    (hmemory : t.memory = s.memory) : t.Journal R := by
  cases s
  cases t
  subst hstore hjour hacc hmemory
  exact { h with }

lemma Apart.congr (h : s.Apart) (haccs : t.accounts = s.accounts)
    (hjour : t.journaled = s.journaled) (hstage : t.staging = none → s.staging = none) :
    t.Apart := by
  cases s
  cases t
  subst haccs hjour
  exact { h with settled := fun hnone => h.settled (hstage hnone) }

lemma Covered.congr (h : s.Covered) (haccs : t.accounts = s.accounts)
    (hjour : t.journaled = s.journaled) (harchive : t.archive = s.archive) : t.Covered := by
  cases s
  cases t
  subst haccs hjour harchive
  exact { h with }

/-! The memory and the marks of the calls. -/

section
variable (h : s.Inv R exact)
include h

lemma Inv.setMemory {f : ReporterMemory → ReporterMemory}
    (hf : ∀ r, (f s.memory).pendingReport = some r → ∃ e ∈ s.journaled, e.report = some r ∧
      e.idempotencyKey = (f s.memory).pendingKey ∧ e.bodyHash = (f s.memory).pendingHash) :
    Keeps R exact i s { s with memory := f s.memory } := by
  refine ⟨⟨?_, h.apart.congr rfl rfl id, fun hx => (h.covered hx).congr rfl rfl rfl⟩, ?_⟩
  · exact { h.journal with memory := fun hr => hf _ hr }
  · intro j _
    exact .of_frame rfl (fun _ => le_refl _) rfl id id Iff.rfl (.of_eq rfl) rfl

lemma Inv.setRecovering (b : Bool) : Keeps R exact i s (s.setRecovering i b) := by
  refine ⟨⟨h.journal.congr rfl rfl rfl rfl, h.apart.congr rfl rfl id,
    fun hx => (h.covered hx).congr rfl rfl rfl⟩, ?_⟩
  intro j hj
  refine .of_frame rfl (fun _ => le_refl _) rfl id id Iff.rfl (.of_eq rfl) ?_
  exact Function.update_of_ne hj ..

lemma Keeps.refl : Keeps R exact i s s := ⟨h, fun j _ => .refl j s⟩

end

lemma Keeps.trans {u : Node} (h : Keeps R exact i s t) (h' : Keeps R exact i t u) :
    Keeps R exact i s u :=
  ⟨h'.inv, fun j hj => (h.others j hj).trans (h'.others j hj)⟩

/-! The staging. -/

variable {S : StagedSnapshot} {order : List Key}

lemma based_stage (t : Tracker) (horder : order.Perm t.live.keys)
    (startedAt endedAt : Int) (configRevision : String)
    (hS : (t.stageForReport order startedAt endedAt configRevision).1.staged = some S) :
    (t.stageForReport order startedAt endedAt configRevision).1.Based S := by
  cases hS
  intro x hx
  obtain ⟨k, -, hk⟩ := mem_filterMap.mp hx
  obtain ⟨hsrc, hbytes⟩ := record_spec hk
  rw [hsrc]
  exact ⟨rfl, rfl, hbytes.trans (t.amount_snapshot horder k).symm⟩

/-- Every key with bytes gets a record while its tag is mapped. -/
theorem whole_stage (ha : s.accounts.Valid)
    (hmapped : ∀ k, s.tracker.live.lookup k ≠ none → s.tracker.inboundMapping k.inboundTag ≠ none)
    (horder : order.Perm s.tracker.live.keys) {k : Key} (hk : s.tracker.bytes k ≠ 0) :
    ∃ x ∈ order.filterMap s.tracker.record, x.source.key = k := by
  have hlive : s.tracker.live.lookup k ≠ none := fun habsent => hk (bytes_of_absent habsent)
  have huser := ha.wired.users hlive
  obtain ⟨inboundID, hid⟩ := ne_none_iff_exists'.mp (hmapped k hlive)
  have hrec : s.tracker.record k ≠ none := by
    simp [Tracker.record, hid, huser]
  obtain ⟨x, hx⟩ := ne_none_iff_exists'.mp hrec
  have hmem : k ∈ order := by
    rw [horder.mem_iff, ← AList.mem_keys, ← AList.lookup_isSome]
    exact isSome_iff_ne_none.mpr hlive
  refine ⟨x, mem_filterMap.mpr ⟨k, hmem, hx⟩, ?_⟩
  rw [(record_spec hx).1]

lemma Inv.stageForReport (h : s.Inv R exact) (hstage : s.staging = none)
    (horder : order.Perm s.tracker.live.keys) (startedAt endedAt : Int) (configRevision : String) :
    Keeps R exact i s { s.withTracker
        (s.tracker.stageForReport order startedAt endedAt configRevision).1 with
      staging := some i } := by
  have hsettled := h.apart.settled hstage
  refine ⟨⟨h.journal.congr rfl rfl rfl rfl, ?_, ?_⟩, ?_⟩
  · exact ⟨h.apart.valid.stageForReport horder startedAt endedAt configRevision,
      fun hS => based_stage s.tracker horder startedAt endedAt configRevision hS,
      fun he => .inl (hsettled _ he), nofun, h.apart.disjoint⟩
  · intro hx
    have hcov := h.covered hx
    refine { hcov with whole := ?_, confirmed := ?_ }
    · rintro S ⟨⟩ k hk
      rw [amount_snapshot _ horder] at hk
      exact whole_stage h.apart.valid hcov.mapped horder hk
    · rintro S ⟨⟩ hconf
      cases hconf
  · intro j hj
    refine ⟨rfl, fun _ => le_refl _, id, id, id, ?_, ?_, rfl, fun _ => rfl⟩
    · intro _ hi
      exact hj (some.inj hi).symm
    · intro hj'
      cases hstage.symm.trans hj'

/-- A confirmation leaves report and snapshot as they are. -/
structure Confirms (f : StagedSnapshot → StagedSnapshot) : Prop where
  report : ∀ S, (f S).report = S.report
  snapshot : ∀ S, (f S).snapshot = S.snapshot
  confirmed : ∀ S, (f S).confirmed = true

lemma confirms_journaled : Confirms fun S => { S with journaled := true } :=
  ⟨fun _ => rfl, fun _ => rfl, fun _ => rfl⟩

lemma confirms_accepted : Confirms fun S => { S with accepted := true } :=
  ⟨fun _ => rfl, fun _ => rfl, fun _ => Bool.or_true _⟩

variable {f : StagedSnapshot → StagedSnapshot}

lemma handled_confirm (hf : Confirms f) (t : Tracker) :
    Handled t { t with staged := t.staged.map f } := by
  constructor
  · intro S' hS'
    obtain ⟨S, hS, rfl⟩ := map_eq_some_iff.mp hS'
    exact ⟨S, hS, hf.report S, fun _ => hf.confirmed S⟩
  · intro S hS hnone
    simp [hS] at hnone

lemma Inv.confirm (h : s.Inv R exact) (hf : Confirms f)
    (hS : exact → ∀ S, s.tracker.staged = some S →
      (∃ e ∈ s.journaled, e.records = S.report.records) ∨ ∀ k, amount S.snapshot k = 0) :
    Keeps R exact i s
      (s.withTracker { s.tracker with staged := s.tracker.staged.map f }) := by
  have hstaged : ∀ {records}, s.tracker.Staged records →
      Tracker.Staged { s.tracker with staged := s.tracker.staged.map f } records := by
    rintro records ⟨S, hS, hrecs⟩
    refine ⟨f S, by simp [hS], ?_⟩
    rw [hf.report, hrecs]
  refine ⟨⟨h.journal.congr rfl rfl rfl rfl, ?_, ?_⟩, ?_⟩
  · refine ⟨h.apart.valid.confirm hf.snapshot, ?_, ?_, h.apart.settled, h.apart.disjoint⟩
    · intro S' hS'
      obtain ⟨S, hS, rfl⟩ := map_eq_some_iff.mp hS'
      intro x hx
      rw [hf.report] at hx
      rw [hf.snapshot]
      exact h.apart.based hS x hx
    · intro e he
      exact (h.apart.placed he).imp_right hstaged
  · intro hx
    have hcov := h.covered hx
    refine { hcov with whole := ?_, confirmed := ?_ }
    · intro S' hS'
      obtain ⟨S, hS, rfl⟩ := map_eq_some_iff.mp hS'
      rw [hf.report, hf.snapshot]
      exact hcov.whole hS
    · intro S' hS' _
      obtain ⟨S, hstaged, rfl⟩ := map_eq_some_iff.mp hS'
      rw [hf.report, hf.snapshot]
      exact hS hx S hstaged
  · intro j _
    exact .of_frame rfl (fun _ => le_refl _) rfl id id Iff.rfl (handled_confirm hf _) rfl

/-- After the subtraction of a snapshot its records are settled. -/
theorem settled_of_resets {t t' : Tracker} (hS : t.Based S)
    (h : Accounts.Resets t S t') : t'.Settled S.report.records := by
  intro x hx
  obtain ⟨hproc, hoffset, hbytes⟩ := hS x hx
  refine .inr ⟨hproc.trans h.process.symm, fun d => ?_⟩
  rw [h.removed, hoffset, hbytes]
  exact le_refl _

variable {a : Accounts} {t' : Tracker}

lemma removed_le_of_resets (ha : a.Valid)
    (h : Accounts.Resets a.tracker S t') (k : Key) : a.tracker.removed k ≤ t'.removed k := by
  rw [h.removed]
  exact le_add_of_nonneg_right (amount_nonneg (ha.fits S h.staged).1 k)

/-- What a reset subtracts is in a journaled report, or nothing. -/
theorem Covered.reset (h : s.Covered) (hapart : s.Apart) (hreset : Accounts.Resets s.tracker S t')
    (hlive : ∀ k, t'.live.lookup k ≠ none → s.tracker.live.lookup k ≠ none) :
    (s.withTracker t').Covered := by
  refine ⟨?_, ?_, ?_, ?_, h.keys⟩
  · intro process k d j hj hlt
    by_cases hold : j < s.removedBy process k d
    · exact h.removed hj hold
    · -- The byte is one of those just subtracted.
      have hproc : process = s.tracker.process := by
        by_contra hne
        have hne' : process ≠ (s.withTracker t').tracker.process := hreset.process ▸ hne
        rw [removedBy_of_ne _ hne'] at hlt
        rw [removedBy_of_ne _ hne] at hold
        exact hold hlt
      subst hproc
      rw [removedBy_of_eq _ rfl] at hold
      rw [removedBy_of_eq _ hreset.process.symm, tracker_withTracker, hreset.removed,
        Pi.add_apply] at hlt
      have hamount : amount S.snapshot k ≠ 0 := by
        intro hzero
        rw [hzero, Pi.zero_apply] at hlt
        omega
      obtain ⟨e, he, hrecs⟩ | hzero := h.confirmed hreset.staged hreset.confirmed
      · obtain ⟨x, hx, hkey⟩ := h.whole hreset.staged k hamount
        obtain ⟨hproc, hoffset, hbytes⟩ := hapart.based hreset.staged x hx
        refine ⟨e, he, x, hrecs ▸ hx, hproc, hkey, ?_, ?_⟩
        · rw [hoffset, hkey]
          omega
        · rwa [hoffset, hbytes, hkey]
      · exact absurd (hzero k) hamount
  · intro k hk
    rw [tracker_withTracker, hreset.mapping]
    exact h.mapped k (hlive k hk)
  · intro S' hS'
    cases hreset.unstaged.symm.trans hS'
  · intro S' hS'
    cases hreset.unstaged.symm.trans hS'

lemma unstage_staging {j : Nat} (h : j ≠ i) :
    s.staging = some j ↔ (s.unstage i).staging = some j := by
  unfold unstage
  split
  · next hi =>
    rw [hi]
    constructor
    · intro hj
      exact absurd (some.inj hj).symm h
    · exact nofun
  · exact Iff.rfl

section
variable (h : s.Inv R exact)
include h

lemma Inv.unstage (hsettled : s.staging = some i → ∀ e ∈ s.journaled, s.tracker.Settled e.records) :
    Keeps R exact i s (s.unstage i) := by
  refine ⟨⟨h.journal.congr rfl rfl rfl rfl, ?_, fun hx => (h.covered hx).congr rfl rfl rfl⟩, ?_⟩
  · refine { h.apart with settled := ?_ }
    intro hnone
    by_cases hi : s.staging = some i
    · exact hsettled hi
    · simp only [Node.unstage, if_neg hi] at hnone
      exact h.apart.settled hnone
  · intro j hj
    exact .of_frame rfl (fun _ => le_refl _) rfl id id (unstage_staging hj) (.of_eq rfl) rfl

/-- The subtraction of whatever is staged and confirmed. -/
theorem Inv.reset : Keeps R exact i s (s.withTracker s.tracker.resetLiveCountersWhenJournaled) := by
  have hval := h.apart.valid.resetLiveCountersWhenJournaled
  obtain ⟨hsame, -⟩ | ⟨S, hreset⟩ := h.apart.valid.reset_cases
  · rw [hsame]
    exact .refl h
  have hrem := removed_le_of_resets h.apart.valid hreset
  have hS := settled_of_resets (h.apart.based hreset.staged) hreset
  have hsettled : ∀ e ∈ s.journaled,
      s.tracker.resetLiveCountersWhenJournaled.Settled e.records := by
    intro e he
    obtain hsettled | ⟨S', hS', hrecs⟩ := h.apart.placed he
    · exact hsettled.mono hreset.process hrem
    · cases hreset.staged.symm.trans hS'
      exact hrecs ▸ hS
  refine ⟨⟨h.journal.congr rfl rfl rfl rfl, ?_, ?_⟩, ?_⟩
  · refine ⟨hval, ?_, fun he => .inl (hsettled _ he), fun _ => hsettled, h.apart.disjoint⟩
    intro S' hS'
    cases hreset.unstaged.symm.trans hS'
  · intro hx
    exact (h.covered hx).reset h.apart hreset fun _ => reset_live
  · intro j _
    refine .of_frame hreset.process hrem rfl id id Iff.rfl ⟨?_, ?_⟩ rfl
    · intro S' hS'
      cases hreset.unstaged.symm.trans hS'
    · intro S' hS' _
      cases hreset.staged.symm.trans hS'
      exact hS

/-- A reset by the call that staged, after it has confirmed its snapshot. -/
theorem Inv.resetOwn (hi : s.staging = some i → (∃ S, s.tracker.staged = some S ∧ S.confirmed) ∨
      ∀ e ∈ s.journaled, s.tracker.Settled e.records) : Keeps R exact i s
      ((s.withTracker s.tracker.resetLiveCountersWhenJournaled).unstage i) := by
  have hreset := h.reset (i := i)
  refine hreset.trans (hreset.inv.unstage fun hstage e he => ?_)
  obtain hsettled | ⟨S, hS, -⟩ := hreset.inv.apart.placed he
  · exact hsettled
  -- Something is still staged, so nothing was subtracted.
  · obtain ⟨hsame, hunconf⟩ | ⟨S', hresets⟩ := h.apart.valid.reset_cases
    · rw [tracker_withTracker, hsame]
      obtain ⟨S', hS', hconf⟩ | hsettled := hi hstage
      · simp [hunconf S' hS'] at hconf
      · exact hsettled e he
    · cases hresets.unstaged.symm.trans hS

/-! The state on disk. -/

/-- A save that journals nothing: what it drops from the pending reports was
accepted, or is quarantined. -/
theorem Inv.rewrite {st : State} (hpend : ∀ {q}, q ∈ st.pending → ∃ e ∈ s.journaled, e.core = q)
    (hquar : ∀ {q}, q ∈ st.quarantined → ∃ e ∈ s.journaled, e.core = q)
    (hgrows : ∀ {q}, q ∈ s.store.quarantined → q ∈ st.quarantined)
    (hkept : ∀ e ∈ s.journaled, s.Accepted R e ∨ e.core ∈ st.pending ∨ e.core ∈ st.quarantined) :
    Keeps R exact i s { s with store := st } := by
  refine ⟨⟨?_, h.apart.congr rfl rfl id, fun hx => (h.covered hx).congr rfl rfl rfl⟩, ?_⟩
  · exact { h.journal with pending := hpend, quarantined := hquar, kept := fun he => hkept _ he }
  · intro j _
    exact .of_frame rfl (fun _ => le_refl _) rfl id hgrows Iff.rfl (.of_eq rfl) rfl

end

lemma retryFirst_core (bodyHash : String) (startedAt : Int) (pendings : List PendingReport) :
    (retryFirst bodyHash startedAt pendings).map (·.core) = pendings.map (·.core) := by
  induction pendings with
  | nil => rfl
  | cons p pendings ih =>
    unfold retryFirst
    split
    · rfl
    · rw [map_cons, map_cons, ih]

lemma Inv.countRetry (h : s.Inv R exact) (bodyHash : String) (startedAt : Int) :
    Keeps R exact i s (s.saved (.countRetry bodyHash startedAt)) := by
  have hpend : (StoreUpdate.apply s.store (.countRetry bodyHash startedAt)).pending =
      s.store.pending := retryFirst_core bodyHash startedAt s.store.pendingReports
  apply h.rewrite
  · rw [hpend]
    exact h.journal.pending
  · exact h.journal.quarantined
  · exact id
  · intro e he
    rw [hpend]
    exact h.journal.kept he

/-- The key of an entry follows from its hash. -/
theorem Issued.key_eq {e e' : PendingReport} (h : R.Issued e) (h' : R.Issued e')
    (hhash : e.bodyHash = e'.bodyHash) : e.idempotencyKey = e'.idempotencyKey := by
  obtain ⟨r, -, hstart, hbody, hkey⟩ := h
  obtain ⟨r', -, hstart', hbody', hkey'⟩ := h'
  rw [← hhash] at hbody'
  have heq : r.startedAt = r'.startedAt := R.startedAt_eq hbody hbody'
  rw [hkey, hkey', hhash, ← hstart, ← hstart', heq]

variable {e : PendingReport} {r : TrafficReport}

/-- Entries with the hash of an accepted report are dropped, whatever start they are
looked up by. -/
theorem Inv.removePending (h : s.Inv R exact) (he : e ∈ s.journaled)
    (hr : e.report = some r) (haccepted : (e.idempotencyKey, r) ∈ s.accepted)
    (startedAt : Int) : Keeps R exact i s (s.saved (.removePending e.bodyHash startedAt)) := by
  have hissued := h.journal.issued he
  apply h.rewrite
  · intro q hq
    obtain ⟨p, hp, rfl⟩ := mem_map.mp hq
    exact h.journal.pending (mem_map_of_mem (mem_of_mem_filter hp))
  · exact h.journal.quarantined
  · exact id
  · intro e' he'
    obtain hacc | hpend | hquar := h.journal.kept he'
    · exact .inl hacc
    · obtain ⟨p, hp, hcore⟩ := mem_map.mp hpend
      by_cases hfor : p.isFor e.bodyHash startedAt
      · obtain ⟨hhash, -⟩ : p.bodyHash = e.bodyHash ∧ p.startedAt = startedAt := by
          simpa [PendingReport.isFor] using hfor
        have hhash' : e'.bodyHash = e.bodyHash :=
          (congrArg PendingReport.bodyHash hcore).symm.trans hhash
        obtain ⟨r', hr', -, hbody, -⟩ := hissued
        cases hr.symm.trans hr'
        refine .inl ⟨r, ?_, hhash' ▸ hbody⟩
        rwa [Issued.key_eq (h.journal.issued he') (h.journal.issued he) hhash']
      · refine .inr (.inl (mem_map.mpr ⟨p, mem_filter.mpr ⟨hp, ?_⟩, hcore⟩))
        simpa using hfor
    · exact .inr (.inr hquar)

/-- The pending reports are replaced: each report on record is among those that
remain, or was accepted, or is quarantined. -/
theorem Inv.finishRecovery (h : s.Inv R exact) {remaining : List PendingReport}
    {quarantined : List QuarantinedReport}
    (hremaining : ∀ q ∈ remaining, ∃ e ∈ s.journaled, e.core = q.core)
    (hquarantined : ∀ q ∈ quarantined, ∃ e ∈ s.journaled, e.core = q.pendingReport.core)
    (hkept : ∀ e ∈ s.journaled, s.Accepted R e ∨ e.core ∈ remaining.map (·.core) ∨
      e.core ∈ quarantined.map (·.pendingReport.core) ∨ e.core ∈ s.store.quarantined) :
    Keeps R exact i s (s.saved (.finishRecovery remaining quarantined)) := by
  have hquar : ∀ q, q ∈ (StoreUpdate.apply s.store
      (.finishRecovery remaining quarantined)).quarantined ↔
      q ∈ s.store.quarantined ∨ q ∈ quarantined.map (·.pendingReport.core) := by
    intro q
    simp [StoreUpdate.apply, State.quarantined]
  apply h.rewrite
  · intro q hq
    obtain ⟨p, hp, rfl⟩ := mem_map.mp hq
    exact hremaining p hp
  · intro q hq
    obtain hq | hq := (hquar q).mp hq
    · exact h.journal.quarantined hq
    · obtain ⟨p, hp, rfl⟩ := mem_map.mp hq
      exact hquarantined p hp
  · intro q hq
    exact (hquar q).mpr (.inl hq)
  · intro e he
    obtain hacc | hrem | hnew | hold := hkept e he
    · exact .inl hacc
    · exact .inr (.inl hrem)
    · exact .inr (.inr ((hquar _).mpr (.inr hnew)))
    · exact .inr (.inr ((hquar _).mpr (.inl hold)))

/-- An update that puts a report on record and drops none. -/
structure Appends (u : StoreUpdate) (p : PendingReport) : Prop where
  journals : u.journals = [p]
  endsRecovery : u.endsRecovery = false
  pending : ∀ {st q}, q ∈ (u.apply st).pending → q ∈ st.pending ∨ p.core = q
  quarantined : ∀ {st q}, q ∈ (u.apply st).quarantined → q ∈ st.quarantined ∨ p.core = q
  pending_mono : ∀ {st q}, q ∈ st.pending → q ∈ (u.apply st).pending
  quarantined_mono : ∀ {st q}, q ∈ st.quarantined → q ∈ (u.apply st).quarantined
  appended : ∀ st, p.core ∈ (u.apply st).pending ∨ p.core ∈ (u.apply st).quarantined

lemma appends_pending (p : PendingReport) : Appends (.appendPending p) p := by
  have hpend : ∀ st q, q ∈ (StoreUpdate.apply st (.appendPending p)).pending ↔
      q ∈ st.pending ∨ q = p.core := by
    simp [StoreUpdate.apply, State.pending]
  refine ⟨rfl, rfl, ?_, .inl, ?_, id, ?_⟩
  · intro st q hq
    exact ((hpend st q).mp hq).imp_right Eq.symm
  · intro st q hq
    exact (hpend st q).mpr (.inl hq)
  · intro st
    exact .inl ((hpend st _).mpr (.inr rfl))

lemma appends_quarantined (q : QuarantinedReport) :
    Appends (.appendQuarantined q) q.pendingReport := by
  have hquar : ∀ st p, p ∈ (StoreUpdate.apply st (.appendQuarantined q)).quarantined ↔
      p ∈ st.quarantined ∨ p = q.pendingReport.core := by
    simp [StoreUpdate.apply, State.quarantined]
  refine ⟨rfl, rfl, .inl, ?_, id, ?_, ?_⟩
  · intro st p hp
    exact ((hquar st p).mp hp).imp_right Eq.symm
  · intro st p hp
    exact (hquar st p).mpr (.inl hp)
  · intro st
    exact .inr ((hquar st _).mpr (.inr rfl))

variable (h : s.Inv R exact)
include h

lemma Inv.append {u : StoreUpdate} {p : PendingReport}
    (hu : Appends u p) (hissued : R.Issued p) (hstage : s.staging = some i)
    (hplaced : s.tracker.Settled p.records ∨ s.tracker.Staged p.records)
    (hfresh : ∀ e ∈ s.journaled, ∀ {process k d j}, Carry e.records process k d j →
      ¬Carry p.records process k d j)
    (hothers : ∀ j, j ≠ i → s.recovering j = false)
    (hkeys : exact → ∀ e ∈ s.journaled, e.idempotencyKey ≠ p.idempotencyKey) :
    Keeps R exact i s (s.saved u) := by
  have hjour : (s.saved u).journaled = p :: s.journaled := by
    rw [saved, hu.journals]
    rfl
  have hmem : ∀ {e}, e ∈ (s.saved u).journaled → e = p ∨ e ∈ s.journaled := by
    intro e he
    rw [hjour] at he
    exact mem_cons.mp he
  have hold : ∀ {e}, e ∈ s.journaled → e ∈ (s.saved u).journaled := by
    intro e he
    rw [hjour]
    exact mem_cons_of_mem p he
  have hnew : p ∈ (s.saved u).journaled := by
    rw [hjour]
    exact mem_cons_self
  have hgrow : ∀ {P : PendingReport → Prop}, (∃ e ∈ s.journaled, P e) →
      ∃ e ∈ (s.saved u).journaled, P e := fun ⟨e, he, hP⟩ => ⟨e, hold he, hP⟩
  refine ⟨⟨⟨?_, ?_, ?_, ?_, ?_, ?_⟩, ⟨h.apart.valid, h.apart.based, ?_, ?_, ?_⟩, ?_⟩, ?_⟩
  · intro e he
    obtain rfl | he := hmem he
    · exact hissued
    · exact h.journal.issued he
  · intro q hq
    obtain hq | hq := hu.pending hq
    · exact hgrow (h.journal.pending hq)
    · exact ⟨p, hnew, hq⟩
  · intro q hq
    obtain hq | hq := hu.quarantined hq
    · exact hgrow (h.journal.quarantined hq)
    · exact ⟨p, hnew, hq⟩
  · intro key r hr
    exact hgrow (h.journal.sent hr)
  · intro r hr
    exact hgrow (h.journal.memory hr)
  · intro e he
    obtain rfl | he := hmem he
    · exact .inr (hu.appended s.store)
    · exact (h.journal.kept he).imp_right fun hkept => hkept.imp hu.pending_mono hu.quarantined_mono
  · intro e he
    obtain rfl | he := hmem he
    · exact hplaced
    · exact h.apart.placed he
  · intro hnone
    cases hstage.symm.trans hnone
  · intro e e' he he' hne process k d j hcarry hcarry'
    obtain rfl | he := hmem he
    · obtain rfl | he' := hmem he'
      · exact hne rfl
      · exact hfresh e' he' hcarry' hcarry
    · obtain rfl | he' := hmem he'
      · exact hfresh e he hcarry hcarry'
      · exact h.apart.disjoint he he' hne hcarry hcarry'
  · intro hx
    have hcov := h.covered hx
    refine ⟨fun hj hlt => hgrow (hcov.removed hj hlt), hcov.mapped, hcov.whole,
      fun hS hc => (hcov.confirmed hS hc).imp_left hgrow, ?_⟩
    intro e e' he he' hkey
    obtain rfl | he := hmem he
    · obtain rfl | he' := hmem he'
      · rfl
      · exact absurd hkey.symm (hkeys hx e' he')
    · obtain rfl | he' := hmem he'
      · exact absurd hkey (hkeys hx e he)
      · exact hcov.keys he he' hkey
  · intro j hj
    refine ⟨rfl, fun _ => le_refl _, hold, id, hu.quarantined_mono, fun hs => hs, ?_, rfl, ?_⟩
    · intro hs
      exact absurd (some.inj (hstage.symm.trans hs)).symm hj
    · simp [hothers j hj]

lemma Inv.accept (he : e ∈ s.journaled) (hr : e.report = some r) :
    Keeps R exact i s { s with accepted := (e.idempotencyKey, r) :: s.accepted } := by
  have hgrow : ∀ {a}, a ∈ s.accepted → a ∈ (e.idempotencyKey, r) :: s.accepted :=
    fun ha => mem_cons_of_mem _ ha
  refine ⟨⟨?_, h.apart.congr rfl rfl id, fun hx => (h.covered hx).congr rfl rfl rfl⟩, ?_⟩
  · refine { h.journal with sent := ?_, kept := ?_ }
    · intro key r' hr'
      obtain heq | hr' := mem_cons.mp hr'
      · cases heq
        exact ⟨e, he, rfl, hr⟩
      · exact h.journal.sent hr'
    · intro e' he'
      refine (h.journal.kept he').imp_left ?_
      rintro ⟨r', hr', hbody⟩
      exact ⟨r', hgrow hr', hbody⟩
  · intro j _
    exact .of_frame rfl (fun _ => le_refl _) rfl hgrow id Iff.rfl (.of_eq rfl) rfl

/-! What happens besides the calls. -/

lemma Inv.grows (ha : a.Valid) (hstaged : a.tracker.staged = s.tracker.staged)
    (hrem : a.tracker.removed = s.tracker.removed) (hproc : a.tracker.process = s.tracker.process)
    (hmapped : exact → ∀ k, a.tracker.live.lookup k ≠ none →
      a.tracker.inboundMapping k.inboundTag ≠ none) :
    Inv R exact { s with accounts := a } ∧ ∀ i, Rely i s { s with accounts := a } := by
  have hsettled : ∀ {records}, s.tracker.Settled records → a.tracker.Settled records :=
    fun hrecs => hrecs.mono hproc fun k => le_of_eq (congrFun hrem k).symm
  have hremoves : ∀ process k, Node.removedBy { s with accounts := a } process k =
      s.removedBy process k := by
    intro process k
    unfold removedBy
    rw [hproc, hrem]
  refine ⟨⟨h.journal.congr rfl rfl rfl rfl, ⟨ha, ?_, ?_, ?_, h.apart.disjoint⟩, ?_⟩, ?_⟩
  · intro S hS x hx
    rw [hproc, hrem]
    exact h.apart.based (hstaged ▸ hS) x hx
  · intro e he
    refine (h.apart.placed he).imp hsettled ?_
    rintro ⟨S, hS, hrecs⟩
    exact ⟨S, hstaged ▸ hS, hrecs⟩
  · intro hnone e he
    exact hsettled (h.apart.settled hnone e he)
  · intro hx
    have hcov := h.covered hx
    refine ⟨?_, hmapped hx, fun hS => hcov.whole (hstaged ▸ hS),
      fun hS => hcov.confirmed (hstaged ▸ hS), hcov.keys⟩
    intro process k d j hj hlt
    rw [hremoves] at hlt
    exact hcov.removed hj hlt
  · intro i
    exact .of_frame hproc (fun k => le_of_eq (congrFun hrem k).symm) rfl id id Iff.rfl
      (.of_eq hstaged) rfl

lemma Inv.activity {x : Activity} (ha : s.accounts.activity x = some a) :
    Inv R exact { s with accounts := a } ∧ ∀ i, Rely i s { s with accounts := a } := by
  obtain ⟨hval, hgrows⟩ := h.apart.valid.activity ha
  refine h.grows hval hgrows.staged hgrows.removed hgrows.process ?_
  intro hx k hk
  rw [hgrows.mapping]
  obtain hlive | hmapped := Accounts.activity_live ha hk
  · exact (h.covered hx).mapped k hlive
  · exact hmapped

/-- A new process begins with nothing staged; what was journaled before it is
settled. -/
theorem Inv.restart (now : Int) (rev : String) : (s.restart now rev).Inv R exact := by
  have hsettled : ∀ e ∈ s.journaled, (s.restart now rev).tracker.Settled e.records := by
    intro e he x hx
    left
    have hle : x.source.process ≤ s.tracker.process := by
      obtain hold | ⟨S, hS, hrecs⟩ := h.apart.placed he
      · exact hold.process_le hx
      · exact Nat.le_of_eq (h.apart.based hS x (hrecs ▸ hx)).1
    exact Nat.lt_succ_of_le hle
  refine ⟨?_, ⟨?_, nofun, fun he => .inl (hsettled _ he), fun _ => hsettled, h.apart.disjoint⟩, ?_⟩
  · exact { h.journal with memory := nofun }
  · exact ⟨⟨nofun, nofun, fun _ => rfl, nofun⟩, fun _ => le_refl _, nofun, fun _ => rfl⟩
  · intro hx
    have hcov := h.covered hx
    refine ⟨?_, nofun, nofun, nofun, hcov.keys⟩
    intro process k d j hj hlt
    by_cases hnew : process = s.tracker.process + 1
    · rw [removedBy_of_eq _ hnew] at hlt
      exact absurd hlt (not_lt.mpr hj)
    · rw [removedBy_of_ne _ hnew] at hlt
      apply hcov.removed hj
      by_cases hold : process = s.tracker.process
      · subst hold
        rw [removedBy_of_eq _ rfl]
        simpa [Node.restart] using hlt
      · rw [removedBy_of_ne _ hold]
        simpa [Node.restart, Function.update_of_ne hold] using hlt

end Node

end SingBox.Panel
