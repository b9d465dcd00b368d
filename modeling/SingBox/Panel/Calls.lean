import SingBox.Panel.Billing

/-! The calls of the reporter keep the invariant, side by side and one after the
other. -/

namespace SingBox.Panel
open Lib List Prog Option
open PendingReport (idempotencyKey startedAt bodyHash core records)

/-- How calls and their surroundings have to behave. A call stages when no other
call has staged and is yet to subtract, and journals when no other call is about
to replace the pending reports. For bytes to be billed exactly once, moreover,
what is staged when an accepted report is confirmed was journaled or has no bytes,
keys are not used twice, and the inbound mapping stays. -/
def Reporter.conduct (R : Reporter) (exact : Prop) : System.Conduct R.system where
  admits s i op env :=
    match op with
    | .stageForReport .. => s.staging = none ∨ s.staging = some i
    | .updateAndSave u => env.saveError = none → ∀ p ∈ u.journals,
        (∀ j, j ≠ i → s.recovering j = false) ∧
        (exact → ∀ e ∈ s.journaled, e.idempotencyKey ≠ p.idempotencyKey)
    | .confirmAccepted => exact → ∀ S, s.tracker.staged = some S →
        (∃ e ∈ s.journaled, e.records = S.report.records) ∨ ∀ k, amount S.snapshot k = 0
    | _ => True
  occurs _ e :=
    match e with
    | .updateInboundMapping _ => ¬exact
    | _ => True

namespace Node

/-- The call has not staged anything that it is yet to subtract. -/
def Free (i : Nat) (s : Node) : Prop := s.staging ≠ some i

/-- A call that staged leaves nothing behind that is journaled and not settled. -/
def Done (i : Nat) (s : Node) : Prop :=
  s.staging = some i → ∀ e ∈ s.journaled, s.tracker.Settled e.records

variable {i : Nat} {s : Node}

lemma Free.done (h : s.Free i) : s.Done i := fun hi => absurd hi h

variable {s t : Node}

lemma Free.rely (h : s.Free i) (ht : Rely i s t) : t.Free i := ht.unstaged h

lemma Done.rely (h : s.Done i) (ht : Rely i s t) : t.Done i := by
  intro hi e he
  by_cases hs : s.staging = some i
  · obtain ⟨-, hjour, -⟩ := ht.staging hs
    exact (h hs e (hjour ▸ he)).mono ht.process ht.removed
  · exact absurd hi (ht.unstaged hs)

lemma free_unstage (i : Nat) (s : Node) : (s.unstage i).Free i := by
  unfold Free unstage
  split
  · exact nofun
  · assumption

lemma unstage_of_free (h : s.Free i) : s.unstage i = s := by
  unfold unstage
  rw [if_neg h]

end Node

namespace Reporter
open Node System

variable (R : Reporter) (exact : Prop)

def protocol : Protocol (R.conduct exact) where
  inv := Node.Inv R exact
  rely := Node.Rely
  idle i s := s.Free i ∧ s.recovering i = false
  during _ _ _ := True
  done i _ s := s.Done i
  rely_refl := Node.Rely.refl
  rely_trans := Node.Rely.trans
  idle_rely h ht := ⟨h.1.rely ht, ht.recovering.trans h.2⟩
  during_rely h _ := h
  done_rely h ht := h.rely ht

/-- The program, run by a thread for the call, ends as it says. -/
abbrev Meets {α : Type} := (R.protocol exact).Meets (α := α)

variable {R exact} {α : Type} {i : Nat} {call : ReporterCall} {Q : α → Node → Prop} {s : Node}

lemma meets_call {op : ReporterOp} {next : op.Ans → ReporterProg α}
    (h : ∀ t, Rely i s t → t.Inv R exact → ∀ env u answer,
      (R.conduct exact).admits t i op env → t.exec i op env = some (u, answer) →
      Keeps R exact i t u ∧ R.Meets exact i call Q (next answer) u) :
    R.Meets exact i call Q (.call op next) s := by
  intro t ht hinv env u answer hadm hexec
  obtain ⟨hkeeps, hnext⟩ := h t ht hinv env u answer hadm hexec
  exact ⟨hkeeps.inv, hkeeps.others, trivial, hnext⟩

lemma meets_now {next : Int → ReporterProg α}
    (h : ∀ t now, Rely i s t → t.Inv R exact → R.Meets exact i call Q (next now) t) :
    R.Meets exact i call Q (.call .now next) s := by
  apply meets_call
  rintro t ht hinv env u answer - ⟨⟩
  exact ⟨.refl hinv, h t env.now ht hinv⟩

lemma meets_state {next : State → ReporterProg α}
    (h : ∀ t, Rely i s t → t.Inv R exact → R.Meets exact i call Q (next t.store) t) :
    R.Meets exact i call Q (.call .state next) s := by
  apply meets_call
  rintro t ht hinv env u answer - ⟨⟩
  exact ⟨.refl hinv, h t ht hinv⟩

lemma meets_memory {next : ReporterMemory → ReporterProg α}
    (h : ∀ t, Rely i s t → t.Inv R exact → R.Meets exact i call Q (next t.memory) t) :
    R.Meets exact i call Q (.call .memory next) s := by
  apply meets_call
  rintro t ht hinv env u answer - ⟨⟩
  exact ⟨.refl hinv, h t ht hinv⟩

variable {next : Unit → ReporterProg α}

lemma meets_setMemory {f : ReporterMemory → ReporterMemory}
    (hf : ∀ t, Rely i s t → t.Inv R exact → ∀ r, (f t.memory).pendingReport = some r →
      ∃ e ∈ t.journaled, e.report = some r ∧
        e.idempotencyKey = (f t.memory).pendingKey ∧ e.bodyHash = (f t.memory).pendingHash)
    (h : ∀ t, Rely i s t → R.Meets exact i call Q (next ()) t) :
    R.Meets exact i call Q (.call (.setMemory f) next) s := by
  apply meets_call
  rintro t ht hinv env u answer - ⟨⟩
  have hkeeps := fun i => hinv.setMemory (i := i) (hf t ht hinv)
  have hrely := (hkeeps (i + 1)).others i (by omega)
  exact ⟨hkeeps i, h _ (ht.trans hrely)⟩

/-- A confirmation and a reset after an accepted report, by a call that has nothing
staged itself. -/
theorem meets_settle (hfree : s.Free i)
    (h : ∀ t, Rely i s t → t.Inv R exact → R.Meets exact i call Q (next ()) t) :
    R.Meets exact i call Q
      (.call .confirmAccepted fun _ => .call .resetLiveCountersWhenJournaled next) s := by
  apply meets_call
  rintro t ht hinv env u answer hadm ⟨⟩
  have hconf := fun i => hinv.confirm (i := i) confirms_accepted hadm
  refine ⟨hconf i, meets_call ?_⟩
  rintro t' ht' hinv' env' u' answer' - ⟨⟩
  have hu := (hconf (i + 1)).others i (by omega)
  have hfree' : t'.Free i := ((hfree.rely ht).rely hu).rely ht'
  have hreset := fun i => hinv'.reset (i := i)
  have hu' := (hreset (i + 1)).others i (by omega)
  have hunstage := unstage_of_free (hfree'.rely hu')
  rw [hunstage]
  refine ⟨hreset i, h _ ?_ (hreset i).inv⟩
  exact ht.trans (hu.trans (ht'.trans hu'))

variable {report : TrafficReport}

lemma meets_reportTraffic {idempotencyKey : String} {next : SendResult → ReporterProg α}
    (hsent : ∃ e ∈ s.journaled, e.idempotencyKey = idempotencyKey ∧ e.report = some report)
    (h : ∀ t result, Rely i s t → t.Inv R exact →
      (result = .accepted → (idempotencyKey, report) ∈ t.accepted) →
      R.Meets exact i call Q (next result) t) :
    R.Meets exact i call Q (.call (.reportTraffic report idempotencyKey) next) s := by
  apply meets_call
  intro t ht hinv env u answer _ hexec
  obtain ⟨e, he, rfl, hr⟩ := hsent
  simp only [Node.exec] at hexec
  split at hexec
  · cases hexec
  · next hmade =>
    split at hexec
    · cases hexec
      have haccept := fun i => hinv.accept (i := i) (ht.journaled he) hr
      have hu := (haccept (i + 1)).others i (by omega)
      exact ⟨haccept i, h _ _ (ht.trans hu) (haccept i).inv fun _ => mem_cons_self⟩
    · next hrefused =>
      cases hexec
      refine ⟨.refl hinv, h _ _ ht hinv fun hres => ?_⟩
      exact absurd ⟨hres, by simpa using hrefused⟩ hmade

lemma meets_nilDereference {next : Empty → ReporterProg α} :
    R.Meets exact i call Q (.call .nilDereference next) s := by
  intro t _ _ env u answer
  exact answer.elim

/-- The report was journaled under this key and hash. -/
def OnRecord (s : Node) (report : TrafficReport) (idempotencyKey bodyHash : String) : Prop :=
  ∃ e ∈ s.journaled, e.report = some report ∧ e.idempotencyKey = idempotencyKey ∧
    e.bodyHash = bodyHash

variable {idempotencyKey bodyHash : String} {t : Node}

lemma OnRecord.rely (h : OnRecord s report idempotencyKey bodyHash) (ht : Rely i s t) :
    OnRecord t report idempotencyKey bodyHash :=
  let ⟨e, he, hrest⟩ := h
  ⟨e, ht.journaled he, hrest⟩

variable {u : StoreUpdate}

/-- A save that fails changes nothing but that a recovery ends. -/
theorem meets_updateAndSave {next : Option String → ReporterProg α}
    (hends : u.endsRecovery = false) (hsaved : ∀ t, Rely i s t → t.Inv R exact →
      (∀ p ∈ u.journals, (∀ j, j ≠ i → t.recovering j = false) ∧
        (exact → ∀ e ∈ t.journaled, e.idempotencyKey ≠ p.idempotencyKey)) →
      Keeps R exact i t (t.saved u) ∧ R.Meets exact i call Q (next none) (t.saved u))
    (hfail : ∀ t err, Rely i s t → t.Inv R exact → R.Meets exact i call Q (next (some err)) t) :
    R.Meets exact i call Q (.call (.updateAndSave u) next) s := by
  apply meets_call
  intro t ht hinv env t' answer hadm hexec
  simp only [Node.exec, hends, Bool.false_eq_true, if_false] at hexec
  cases herror : env.saveError with
  | some err =>
    rw [herror] at hexec
    cases hexec
    exact ⟨.refl hinv, hfail t err ht hinv⟩
  | none =>
    rw [herror] at hexec
    cases hexec
    exact hsaved t ht hinv (hadm herror)

lemma forgetPending_meets (hfree : s.Free i) :
    R.Meets exact i call (fun _ t => t.Free i) forgetPending s := by
  apply meets_now
  intro t now ht _
  apply meets_setMemory
  · exact fun _ _ _ => nofun
  · intro u hu
    exact (hfree.rely ht).rely hu

lemma sendAndFinalize_meets
    (startedAt : Int) (hfree : s.Free i) (hrec : OnRecord s report idempotencyKey bodyHash) :
    R.Meets exact i call (fun _ t => t.Free i)
      (sendAndFinalize report idempotencyKey bodyHash startedAt) s := by
  have hsent : ∃ e ∈ s.journaled, e.idempotencyKey = idempotencyKey ∧ e.report = some report :=
    let ⟨e, he, hr, hkey, _⟩ := hrec
    ⟨e, he, hkey, hr⟩
  refine meets_reportTraffic hsent ?_
  intro t result ht _ hacc
  have hfree := hfree.rely ht
  have hrec := hrec.rely ht
  cases result with
  | failed message retryable isConflict =>
    cases isConflict with
    | true => exact hfree
    | false => cases retryable <;> exact hfree
  | accepted =>
    have hacc := hacc rfl
    apply meets_settle hfree
    intro t' ht' _
    have hfree := hfree.rely ht'
    have hrec := hrec.rely ht'
    have hacc := ht'.accepted hacc
    apply meets_updateAndSave rfl
    · intro u hu hinv _
      obtain ⟨e, he, hr, hkey, hhash⟩ := hrec.rely hu
      have hacc := hu.accepted hacc
      rw [← hkey] at hacc
      rw [← hhash]
      have hkeeps := fun i => hinv.removePending (i := i) he hr hacc startedAt
      have hrely := (hkeeps (i + 1)).others i (by omega)
      exact ⟨hkeeps i, forgetPending_meets ((hfree.rely hu).rely hrely)⟩
    · intro u err hu _
      exact forgetPending_meets (hfree.rely hu)

lemma retryPending_meets (hfree : s.Free i) :
    R.Meets exact i call (fun _ t => t.Free i) retryPending s := by
  apply meets_memory
  intro t ht _
  have hfree := hfree.rely ht
  dsimp only [ret_bind]
  cases t.memory.pendingReport with
  | none => exact meets_nilDereference
  | some report =>
    apply meets_updateAndSave rfl
    · intro u hu hinv _
      have hkeeps := fun i => hinv.countRetry (i := i) t.memory.pendingHash report.startedAt
      have hrely := (hkeeps (i + 1)).others i (by omega)
      refine ⟨hkeeps i, meets_memory ?_⟩
      intro v hv hinv
      have hfree := ((hfree.rely hu).rely hrely).rely hv
      dsimp only [ret_bind]
      cases hpend : v.memory.pendingReport with
      | none => exact meets_nilDereference
      | some report =>
        have hrec := hinv.journal.memory hpend
        exact sendAndFinalize_meets _ hfree hrec
    · intro u err hu _
      exact hfree.rely hu

/-- What a recovery made of pending reports: what it keeps and what it quarantines
are such reports, and the others were accepted. -/
structure Recovered (R : Reporter) (t : Node) (pendings : List PendingReport)
    (out : List PendingReport × List QuarantinedReport) : Prop where
  remaining : ∀ q ∈ out.1, ∃ pr ∈ pendings, pr.core = q.core
  quarantined : ∀ q ∈ out.2, ∃ pr ∈ pendings, pr.core = q.pendingReport.core
  kept : ∀ pr ∈ pendings, t.Accepted R pr ∨ pr.core ∈ out.1.map (·.core) ∨
    pr.core ∈ out.2.map (·.pendingReport.core)

lemma Accepted.rely {e : PendingReport} (h : s.Accepted R e) (ht : Rely i s t) : t.Accepted R e :=
  let ⟨r, hr, hbody⟩ := h
  ⟨r, ht.accepted hr, hbody⟩

lemma recovered_remaining (t : Node) {pr q : PendingReport} (h : pr.core = q.core) :
    Recovered R t [pr] ([q], []) := by
  refine ⟨?_, nofun, ?_⟩
  · intro q' hq'
    cases mem_singleton.mp hq'
    exact ⟨pr, mem_singleton_self pr, h⟩
  · intro pr' hpr'
    cases mem_singleton.mp hpr'
    exact .inr (.inl (mem_singleton.mpr h))

variable {pendings : List PendingReport} {pr : PendingReport}

lemma Recovered.cons
    {first rest : List PendingReport × List QuarantinedReport} (h : Recovered R s [pr] first)
    (ht : Rely i s t) (h' : Recovered R t pendings rest) :
    Recovered R t (pr :: pendings) (first.1 ++ rest.1, first.2 ++ rest.2) := by
  have hhead : ∀ {P : PendingReport → Prop}, (∃ p ∈ [pr], P p) → ∃ p ∈ pr :: pendings, P p :=
    fun ⟨p, hp, hP⟩ => ⟨p, mem_singleton.mp hp ▸ mem_cons_self, hP⟩
  have htail : ∀ {P : PendingReport → Prop}, (∃ p ∈ pendings, P p) → ∃ p ∈ pr :: pendings, P p :=
    fun ⟨p, hp, hP⟩ => ⟨p, mem_cons_of_mem pr hp, hP⟩
  refine ⟨?_, ?_, ?_⟩
  · intro q hq
    obtain hq | hq := mem_append.mp hq
    · exact hhead (h.remaining q hq)
    · exact htail (h'.remaining q hq)
  · intro q hq
    obtain hq | hq := mem_append.mp hq
    · exact hhead (h.quarantined q hq)
    · exact htail (h'.quarantined q hq)
  · intro p hp
    simp only [map_append, mem_append]
    obtain rfl | hp := mem_cons.mp hp
    · obtain hacc | hrem | hquar := h.kept p (mem_singleton_self p)
      · exact .inl (Accepted.rely hacc ht)
      · exact .inr (.inl (.inl hrem))
      · exact .inr (.inr (.inl hquar))
    · obtain hacc | hrem | hquar := h'.kept p hp
      · exact .inl hacc
      · exact .inr (.inl (.inr hrem))
      · exact .inr (.inr (.inr hquar))

lemma recoverReport_meets (hfree : s.Free i) (hissued : R.Issued pr)
    (hrec : ∃ e ∈ s.journaled, e.core = pr.core) :
    R.Meets exact i call (fun out t => Rely i s t ∧ Recovered R t [pr] out)
      (R.recoverReport pr) s := by
  obtain ⟨report, hr, hstart, hbody, hkey⟩ := hissued
  obtain ⟨e, he, hcore⟩ := hrec
  have hkeys := congrArg idempotencyKey hcore
  have hreps := congrArg PendingReport.report hcore
  have hsent : ∃ e ∈ s.journaled, e.idempotencyKey = pr.idempotencyKey ∧
      e.report = some report := ⟨e, he, hkeys, hreps.trans hr⟩
  have horiginal : originalBody pr = .ret (some report) := by
    unfold originalBody
    rw [hr]
    rfl
  unfold recoverReport
  simp only [horiginal, hbody, pure_eq, bind_eq, ret_bind, ne_eq, not_true, if_false]
  cases invalidWindowReason report with
  | some reason =>
    apply meets_now
    intro t now ht _
    refine ⟨ht, nofun, ?_, ?_⟩
    · intro q hq
      cases mem_singleton.mp hq
      exact ⟨pr, mem_singleton_self pr, rfl⟩
    · intro p hp
      cases mem_singleton.mp hp
      exact .inr (.inr (mem_singleton_self _))
  | none =>
    refine meets_reportTraffic hsent ?_
    intro t result ht _ hacc
    cases result with
    | accepted =>
      apply meets_settle (hfree.rely ht)
      intro u hu _
      refine ⟨ht.trans hu, nofun, nofun, ?_⟩
      intro p hp
      cases mem_singleton.mp hp
      exact .inl ⟨report, hu.accepted (hacc rfl), hbody⟩
    | failed message retryable isConflict =>
      cases isConflict with
      | true => exact ⟨ht, recovered_remaining t rfl⟩
      | false => cases retryable <;> exact ⟨ht, recovered_remaining t rfl⟩

lemma recoverReports_meets (hfree : s.Free i) (hissued : ∀ pr ∈ pendings, R.Issued pr)
    (hrec : ∀ pr ∈ pendings, ∃ e ∈ s.journaled, e.core = pr.core) :
    R.Meets exact i call (fun out t => Rely i s t ∧ Recovered R t pendings out)
      (R.recoverReports pendings) s := by
  induction pendings generalizing s with
  | nil => exact ⟨.refl i s, nofun, nofun, nofun⟩
  | cons pr pendings ih =>
    obtain ⟨hpr, hissued⟩ := forall_mem_cons.mp hissued
    obtain ⟨hfirst, hrec⟩ := forall_mem_cons.mp hrec
    refine Protocol.meets_bind.mpr ((recoverReport_meets hfree hpr hfirst).mono ?_)
    rintro first t ⟨ht, hfirst⟩
    have hrec : ∀ pr ∈ pendings, ∃ e ∈ t.journaled, e.core = pr.core :=
      fun pr hpr => let ⟨e, he, hcore⟩ := hrec pr hpr; ⟨e, ht.journaled he, hcore⟩
    refine Protocol.meets_bind.mpr ((ih (hfree.rely ht) hissued hrec).mono ?_)
    rintro rest u ⟨hu, hrest⟩
    exact ⟨ht.trans hu, hfirst.cons hu hrest⟩

variable {e e' : PendingReport}

lemma Issued.of_core (h : R.Issued e) (hcore : e.core = e'.core) : R.Issued e' := by
  have hrep := congrArg PendingReport.report hcore
  have hstart := congrArg startedAt hcore
  have hhash := congrArg bodyHash hcore
  have hkey := congrArg idempotencyKey hcore
  dsimp only [core] at hrep hstart hhash hkey
  unfold Reporter.Issued at h ⊢
  rwa [hrep, hstart, hhash, hkey] at h

lemma Accepted.of_core (h : s.Accepted R e) (hcore : e.core = e'.core) : s.Accepted R e' := by
  have hhash := congrArg bodyHash hcore
  have hkey := congrArg idempotencyKey hcore
  dsimp only [core] at hhash hkey
  unfold Node.Accepted at h ⊢
  rwa [hhash, hkey] at h

/-- Nothing on record gets lost between the copy and the replacement. -/
theorem Recovered.kept_of_copy {t v w : Node}
    {out : List PendingReport × List QuarantinedReport} (hinv : t.Inv R exact)
    (hv : Rely i (t.setRecovering i true) v) (hout : Recovered R v t.store.pendingReports out)
    (hw : Rely i v w) (hjour : w.journaled = t.journaled) :
    ∀ e ∈ w.journaled, w.Accepted R e ∨ e.core ∈ out.1.map (·.core) ∨
      e.core ∈ out.2.map (·.pendingReport.core) ∨ e.core ∈ w.store.quarantined := by
  intro e he
  obtain hacc | hpend | hquarantined := hinv.journal.kept (hjour ▸ he)
  · have hacc : (t.setRecovering i true).Accepted R e := hacc
    exact .inl (Accepted.rely hacc (hv.trans hw))
  · obtain ⟨pr, hpr, hcore⟩ := mem_map.mp hpend
    obtain hacc | hrem | hquar := hout.kept pr hpr
    · exact .inl (Accepted.of_core (Accepted.rely hacc hw) hcore)
    · exact .inr (.inl (hcore ▸ hrem))
    · exact .inr (.inr (.inl (hcore ▸ hquar)))
  · exact .inr (.inr (.inr (hw.quarantined (hv.quarantined hquarantined))))

lemma recovery_meets (hfree : s.Free i) :
    R.Meets exact i call (fun _ t => t.Free i) R.recovery s := by
  apply meets_call
  rintro t ht hinv env u answer - ⟨⟩
  refine ⟨hinv.setRecovering _, ?_⟩
  have hfree := hfree.rely ht
  dsimp only [ret_bind]
  cases hempty : t.store.pendingReports.isEmpty with
  | true => exact hfree
  | false =>
    have hrec : ∀ pr ∈ t.store.pendingReports, ∃ e ∈ t.journaled, e.core = pr.core :=
      fun pr hpr => hinv.journal.pending (mem_map_of_mem hpr)
    have hissued : ∀ pr ∈ t.store.pendingReports, R.Issued pr := by
      intro pr hpr
      obtain ⟨e, he, hcore⟩ := hrec pr hpr
      exact Issued.of_core (hinv.journal.issued he) hcore
    have hmarked : (t.setRecovering i true).Free i := hfree
    refine Protocol.meets_bind.mpr ((recoverReports_meets hmarked hissued hrec).mono ?_)
    rintro out v ⟨hv, hout⟩
    apply meets_call
    intro w hw hinv' env' x answer' _ hexec
    have hfree : w.Free i := (hmarked.rely hv).rely hw
    have hjour : w.journaled = t.journaled := (hv.trans hw).recovered (Function.update_self ..)
    have hkept := hout.kept_of_copy hinv hv hw hjour
    have hstop := hinv'.setRecovering (i := i) false
    simp only [Node.exec, StoreUpdate.endsRecovery, if_true] at hexec
    cases herror : env'.saveError with
    | some err =>
      rw [herror] at hexec
      cases hexec
      exact ⟨hstop, hfree⟩
    | none =>
      rw [herror] at hexec
      cases hexec
      refine ⟨hstop.trans (hstop.inv.finishRecovery ?_ ?_ hkept), ?_⟩
      · intro q hq
        obtain ⟨pr, hpr, hcore⟩ := hout.remaining q hq
        obtain ⟨e, he, hcore'⟩ := hrec pr hpr
        exact ⟨e, hjour ▸ he, hcore'.trans hcore⟩
      · intro q hq
        obtain ⟨pr, hpr, hcore⟩ := hout.quarantined q hq
        obtain ⟨e, he, hcore'⟩ := hrec pr hpr
        exact ⟨e, hjour ▸ he, hcore'.trans hcore⟩
      · apply meets_setMemory
        · intro y _ hinv
          split
          · exact nofun
          · exact fun r hr => hinv.journal.memory hr
        · intro y hy
          exact hy.unstaged hfree

/-- The call has staged the report: what is journaled is settled or is this report,
and whatever is staged is this report. -/
structure Holding (i : Nat) (report : TrafficReport) (s : Node) : Prop where
  staging : s.staging = some i
  entries : ∀ e ∈ s.journaled, s.tracker.Settled e.records ∨ e.records = report.records
  staged : ∀ {S}, s.tracker.staged = some S → S.report = report
  unstaged : s.tracker.staged = none → s.tracker.Settled report.records

namespace Holding

variable {report : TrafficReport} {t : Node} (h : Holding i report s)
include h

lemma rely (ht : Rely i s t) : Holding i report t := by
  obtain ⟨hstage, hjour, hhandled⟩ := ht.staging h.staging
  refine ⟨hstage, ?_, ?_, ?_⟩
  · intro e he
    exact (h.entries e (hjour ▸ he)).imp_left fun hold => hold.mono ht.process ht.removed
  · intro S' hS'
    obtain ⟨S, hS, hrep, -⟩ := hhandled.staged hS'
    exact hrep.trans (h.staged hS)
  · intro hnone
    cases hS : s.tracker.staged with
    | none => exact (h.unstaged hS).mono ht.process ht.removed
    | some S =>
      rw [← h.staged hS]
      exact hhandled.settled hS hnone

lemma placed : s.tracker.Settled report.records ∨ s.tracker.Staged report.records := by
  cases hS : s.tracker.staged with
  | none => exact .inl (h.unstaged hS)
  | some S => exact .inr ⟨S, hS, congrArg TrafficReport.records (h.staged hS)⟩

lemma confirmJournaled : Holding i report (s.withTracker s.tracker.confirmJournaled) := by
  refine ⟨h.staging, h.entries, ?_, ?_⟩
  · intro S' hS'
    obtain ⟨S, hS, rfl⟩ := map_eq_some_iff.mp hS'
    have hrep := h.staged hS
    exact hrep
  · intro hnone
    exact h.unstaged (map_eq_none_iff.mp hnone)

lemma append {p : PendingReport} (hjournals : u.journals = [p])
    (hp : p.report = some report) : Holding i report (s.saved u) := by
  refine { h with entries := ?_ }
  intro e he
  rw [Node.saved, hjournals] at he
  obtain rfl | he := mem_cons.mp he
  · refine .inr ?_
    rw [records, hp]
    rfl
  · exact h.entries e he

end Holding

lemma meets_subtract
    (hhold : Holding i report s) (hrec : ∃ e ∈ s.journaled, e.records = report.records)
    (h : ∀ t, t.Free i → (∀ {e}, e ∈ s.journaled → e ∈ t.journaled) →
      R.Meets exact i call Q (next ()) t) : R.Meets exact i call Q
      (.call .confirmJournaled fun _ => .call .resetLiveCountersWhenJournaled next) s := by
  apply meets_call
  rintro t ht hinv env u answer - ⟨⟩
  obtain ⟨e, he, hrecs⟩ := hrec
  have hhold := hhold.rely ht
  have hS : exact → ∀ S, t.tracker.staged = some S →
      (∃ e ∈ t.journaled, e.records = S.report.records) ∨ ∀ k, amount S.snapshot k = 0 := by
    intro _ S hS
    exact .inl ⟨e, ht.journaled he, by rw [hrecs, hhold.staged hS]⟩
  refine ⟨hinv.confirm confirms_journaled hS, meets_call ?_⟩
  rintro v hv hinv' env' w answer' - ⟨⟩
  have hhold' := hhold.confirmJournaled.rely hv
  obtain ⟨-, hjour, hhandled⟩ := hv.staging hhold.staging
  refine ⟨hinv'.resetOwn fun _ => ?_, h _ ?_ ?_⟩
  · cases hS' : v.tracker.staged with
    | none =>
      refine .inr fun e he => ?_
      obtain hsettled | hown := hhold'.entries e he
      · exact hsettled
      · rw [hown]
        exact hhold'.unstaged hS'
    | some S' =>
      obtain ⟨S, hS, -, hconf⟩ := hhandled.staged hS'
      obtain ⟨S₀, -, rfl⟩ := map_eq_some_iff.mp hS
      exact .inl ⟨S', rfl, hconf (confirms_journaled.confirmed S₀)⟩
  · exact free_unstage i _
  · intro e he
    exact hv.journaled (ht.journaled he)

lemma meets_append {p : PendingReport}
    {next : Option String → ReporterProg α} (hu : Appends u p) (hissued : R.Issued p)
    (hp : p.report = some report) (hhold : Holding i report s)
    (hfresh : ∀ e ∈ s.journaled, ∀ {process k d j}, Carry e.records process k d j →
      ¬Carry report.records process k d j)
    (hsaved : ∀ t, Holding i report t → p ∈ t.journaled → R.Meets exact i call Q (next none) t)
    (hfail : ∀ t err, Rely i s t → R.Meets exact i call Q (next (some err)) t) :
    R.Meets exact i call Q (.call (.updateAndSave u) next) s := by
  have hrecs : p.records = report.records := by
    rw [records, hp]
    rfl
  apply meets_updateAndSave hu.endsRecovery
  · intro t ht hinv hadm
    obtain ⟨hothers, hkeys⟩ := hadm p (hu.journals ▸ mem_singleton_self p)
    obtain ⟨-, hjour, -⟩ := ht.staging hhold.staging
    have hhold := hhold.rely ht
    refine ⟨hinv.append hu hissued hhold.staging ?_ ?_ hothers hkeys, ?_⟩
    · rw [hrecs]
      exact hhold.placed
    · rwa [hrecs, hjour]
    · refine hsaved _ (hhold.append hu.journals hp) ?_
      rw [Node.saved, hu.journals]
      exact mem_cons_self
  · intro t err ht _
    exact hfail t err ht

section
variable (hfree : s.Free i)
include hfree

lemma meets_stageForReport {startedAt endedAt : Int} {configRevision : String}
    {next : TrafficReport → ReporterProg α}
    (h : ∀ t report, report.startedAt = startedAt → Holding i report t → t.Done i →
      (∀ e ∈ t.journaled, ∀ {process k d j}, Carry e.records process k d j →
        ¬Carry report.records process k d j) →
      R.Meets exact i call Q (next report) t) : R.Meets exact i call Q
      (.call (.stageForReport startedAt endedAt configRevision) next) s := by
  apply meets_call
  intro t ht hinv env u answer hadm hexec
  have hstage : t.staging = none := hadm.resolve_right (hfree.rely ht)
  have hsettled := hinv.apart.settled hstage
  simp only [Node.exec] at hexec
  split at hexec
  · next horder =>
    cases hexec
    refine ⟨hinv.stageForReport hstage horder startedAt endedAt configRevision, ?_⟩
    refine h _ _ rfl ⟨rfl, fun e he => .inl (hsettled e he), ?_, nofun⟩ (fun _ => hsettled) ?_
    · rintro S ⟨⟩
      rfl
    · intro e he process k d j hcarry
      exact (hsettled e he).not_carry (based_stage t.tracker horder startedAt endedAt
        configRevision rfl) hcarry
  · cases hexec

lemma stageAndSend_meets : R.Meets exact i call (fun _ t => t.Done i) R.stageAndSend s := by
  apply meets_now
  intro t now ht _
  apply meets_memory
  intro u hu _
  have hfree := (hfree.rely ht).rely hu
  apply meets_stageForReport hfree
  intro v report hstart hhold hdone hfresh
  dsimp only [ret_bind]
  split
  · apply meets_setMemory
    · exact fun _ _ hinv _ hr => hinv.journal.memory hr
    · intro w hw
      exact hdone.rely hw
  · split
    · exact hdone
    · next bodyHash hbody =>
      -- A save that fails leaves the snapshot staged; it is not journaled.
      have hfail : ∀ {t : Node}, Rely i v t → t.Done i := fun ht => hdone.rely ht
      split
      · have hissued : R.Issued {
            idempotencyKey := R.makeIdempotencyKey u.memory.reportStartTime bodyHash
            bodyHash
            startedAt := u.memory.reportStartTime
            endedAt := now
            report := some report } := ⟨report, rfl, hstart, hbody, rfl⟩
        refine meets_append (appends_quarantined _) hissued rfl hhold hfresh ?_ ?_
        · intro w hhold hp
          refine meets_subtract hhold ⟨_, hp, rfl⟩ ?_
          intro x hfree _
          apply meets_setMemory
          · exact fun _ _ hinv _ hr => hinv.journal.memory hr
          · intro y hy
            exact (hfree.rely hy).done
        · intro w err hw
          exact hfail hw
      · refine meets_append (appends_pending _) ⟨report, rfl, hstart, hbody, rfl⟩ rfl hhold
          hfresh ?_ ?_
        · intro w hhold hp
          refine meets_subtract hhold ⟨_, hp, rfl⟩ ?_
          intro x hfree hjour
          have hp := hjour hp
          apply meets_setMemory
          · rintro y hy - r ⟨⟩
            exact ⟨_, hy.journaled hp, rfl, rfl, rfl⟩
          intro y hy
          apply meets_memory
          intro z hz _
          have hz := hy.trans hz
          have hrec : OnRecord z report
              (R.makeIdempotencyKey u.memory.reportStartTime bodyHash) bodyHash :=
            ⟨_, hz.journaled hp, rfl, rfl, rfl⟩
          refine (sendAndFinalize_meets _ (hfree.rely hz) hrec).mono ?_
          exact fun _ _ hfree => hfree.done
        · intro w err hw
          exact hfail hw

lemma recoverInvalid_meets : R.Meets exact i call (fun _ t => t.Free i) R.recoverInvalid s := by
  apply meets_memory
  intro t ht _
  have hfree := hfree.rely ht
  dsimp only [ret_bind]
  split
  · exact recovery_meets hfree
  · exact hfree

lemma reportNow_meets : R.Meets exact i call (fun _ t => t.Done i) R.reportNow s := by
  refine Protocol.meets_bind.mpr ((recoverInvalid_meets hfree).mono ?_)
  intro result t hfree
  cases result with
  | some err => exact hfree.done
  | none =>
    apply meets_memory
    intro u hu _
    have hfree := hfree.rely hu
    dsimp only [ret_bind]
    split
    · exact (retryPending_meets hfree).mono fun _ _ hfree => hfree.done
    apply meets_state
    intro v hv _
    have hfree := hfree.rely hv
    dsimp only [ret_bind]
    split
    · exact stageAndSend_meets hfree
    refine Protocol.meets_bind.mpr ((recovery_meets hfree).mono ?_)
    intro result w hfree
    cases result with
    | some err => exact hfree.done
    | none =>
      apply meets_state
      intro x hx _
      have hfree := hfree.rely hx
      dsimp only [ret_bind]
      split
      · exact stageAndSend_meets hfree
      · exact hfree.done

lemma retryIfPending_meets : R.Meets exact i call (fun _ t => t.Free i) retryIfPending s := by
  apply meets_memory
  intro t ht _
  have hfree := hfree.rely ht
  dsimp only [ret_bind]
  split
  · exact retryPending_meets hfree
  · exact hfree

lemma flush_meets : R.Meets exact i call (fun _ t => t.Done i) R.flush s := by
  refine Protocol.meets_bind.mpr ((recoverInvalid_meets hfree).mono ?_)
  intro result t hfree
  cases result with
  | some err => exact hfree.done
  | none =>
    refine Protocol.meets_bind.mpr ((retryIfPending_meets hfree).mono ?_)
    intro retryErr u hfree
    apply meets_state
    intro v hv _
    apply meets_setMemory
    · exact fun _ _ hinv _ hr => hinv.journal.memory hr
    intro w hw
    dsimp only [ret_bind]
    refine Protocol.meets_bind.mpr ((stageAndSend_meets ((hfree.rely hv).rely hw)).mono ?_)
    exact fun _ _ hdone => hdone

end

lemma protocol_sound (R : Reporter) (exact : Prop) : (R.protocol exact).Sound := by
  constructor
  · intro i call s _ hidle _
    refine ⟨trivial, ?_⟩
    cases call with
    | reportNow => exact Protocol.meets_bind.mpr ((reportNow_meets hidle.1).mono fun _ _ h => h)
    | flush => exact Protocol.meets_bind.mpr ((flush_meets hidle.1).mono fun _ _ h => h)
    | recovery => exact Protocol.meets_bind.mpr ((recovery_meets hidle.1).mono fun _ _ h => h.done)
  · intro i call s hinv hdone
    have hunstage := hinv.unstage hdone
    have hleave := hunstage.trans (hunstage.inv.setRecovering false)
    exact ⟨hleave.inv, ⟨free_unstage i s, Function.update_self ..⟩, hleave.others⟩
  · intro e s t hinv hoccurs hevent
    cases e with
    | activity x =>
      obtain ⟨a, ha, rfl⟩ := map_eq_some_iff.mp hevent
      exact hinv.activity ha
    | updateInboundMapping mapping =>
      cases hevent
      exact hinv.grows (hinv.apart.valid.updateInboundMapping mapping) rfl rfl rfl
        fun hx => absurd hx hoccurs
    | setConfigRevision rev =>
      cases hevent
      have hset := fun i => hinv.setMemory (i := i) (f := fun m => { m with configRevision := rev })
        fun r hr => hinv.journal.memory hr
      exact ⟨(hset 0).inv, fun i => (hset (i + 1)).others i (by omega)⟩
    | restart now rev =>
      cases hevent
      exact ⟨hinv.restart now rev, fun i => ⟨nofun, rfl⟩⟩

end Reporter

end SingBox.Panel
