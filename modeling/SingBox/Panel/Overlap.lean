import SingBox.Panel.Calls

/-! Calls of the reporter that overlap, and calls one at a time, across failures and restarts. -/

namespace SingBox.Panel
open Lib Machine Option List Function

namespace Node

/-- A state between calls: what is on record is kept, its bytes are off the
counters, and no two reports share a byte. -/
structure Consistent (R : Reporter) (s : Node) : Prop where
  journal : s.Journal R
  apart : s.Apart
  staging : s.staging = none
  recovering : ∀ i, s.recovering i = false

lemma consistent_initial (R : Reporter) (mapping : String → Option String) (now : Int)
    (rev : String) : (initial mapping now rev).Consistent R :=
  ⟨⟨nofun, nofun, nofun, nofun, nofun, nofun⟩,
    ⟨⟨⟨nofun, nofun, fun _ => rfl, nofun⟩, fun _ => le_refl _, nofun, fun _ => rfl⟩, nofun, nofun,
      fun _ => nofun, nofun⟩, rfl, fun _ => rfl⟩

end Node

namespace Reporter
open Node System

abbrev CallPool := Pool Node ReporterOp ReporterOp.Ans ReporterCall

abbrev CallAction := Pool.Action ReporterCall ReporterEnv NodeEvent

variable (R : Reporter)

lemma holds_of_consistent {exact : Prop} {s : CallPool} (hs : s.shared.Consistent R)
    (hcov : exact → s.shared.Covered) (hidle : ∀ i, s.threads i = none) :
    (R.protocol exact).Holds s := by
  refine ⟨{ hs with covered := hcov }, fun i => ?_⟩
  rw [hidle i]
  refine ⟨?_, hs.recovering i⟩
  rw [Node.Free, hs.staging]
  exact nofun

/-- Calls that run side by side keep reports apart and lose none, as long as each
stages when no other has yet to subtract, and journals when no other is about to
replace the pending reports. -/
theorem reports_apart {s t : Pool Node ReporterOp ReporterOp.Ans ReporterCall}
    (hs : s.shared.Consistent R) (hidle : ∀ i, s.threads i = none)
    (h : Reaches R.system.step (R.conduct False).admitted s t) :
    (∀ e ∈ t.shared.journaled, ∀ e' ∈ t.shared.journaled, e.idempotencyKey ≠ e'.idempotencyKey →
      ∀ process k d i, Carry e.records process k d i → ¬Carry e'.records process k d i) ∧
    ∀ e ∈ t.shared.journaled, t.shared.Kept R e := by
  have hinv := ((protocol_sound R False).holds h (holds_of_consistent R hs nofun hidle)).inv
  refine ⟨fun e he e' he' hne process k d i => ?_, fun e he => hinv.journal.kept he⟩
  exact hinv.apart.disjoint he he' hne

variable {R} {s : Node}

/-- Times are nanoseconds since 1970. The hashes are the SHA-256 of the bodies that are sent below,
in the JSON of the panel. -/
def sample : Reporter where
  nodeID := "n"
  computeBodyHash b :=
    if b.startedAt = 0 then
      .ok (if b.endedAt = 1 then "76fcb56ed75ea1eae0832ccbd85e410685b29da736f29c9964d249c183997f5d"
        else if b.records = [("1", "u", 5, 0)] then
          "725e17f40be39718b1a8e39166ca9a30382822abee828605e309c9c78372df58"
        else "f488101c3a4156e48c5238e26a2ccaa42e43b423e739f6a52006d210bc44dac5")
    else if b.startedAt = 1 then
      .ok "5dcdefdeb7f93ed6ce91ffeced66b5f76f59fbceeb0ecf70b139a6c1e69bea11"
    else if b.startedAt = 2 then
      .ok "1a66a4dcbd0c352ca74ff5d5b454a565a265a574634f8874c15074b61d7d45e5"
    else .error "start"
  rfc3339 := fun _ => "1970-01-01T00:00:00Z"
  startedAt_eq := by
    intro b b' hash h h'
    grind -linarith

def oneInbound (tag : String) : Option String := if tag = "a" then some "1" else none

def sampleKey : Key := ⟨"a", "u"⟩

def samplePool : CallPool where
  shared := .initial oneInbound 0 "r"

def fiveBytes : List CallAction :=
  [.event (.activity (.routed .connection ⟨"a", "u", ""⟩)),
    .event (.activity (.count ⟨sampleKey, 0⟩ fun d => if d = .upload then 5 else 0))]

/-- Two threads, of which none stages before the other has subtracted, and none journals before
the other is done with its recovery. -/
def inTurn : Conduct sample.system where
  starts _ i _ := i < 2
  admits s _ op _ :=
    match op with
    | .stageForReport .. => s.staging = none
    | .updateAndSave _ => s.recovering 0 = false ∧ s.recovering 1 = false
    | _ => True

lemma admits_of_inTurn {i : Nat} {op : ReporterOp} {env : ReporterEnv}
    (h : ∀ j, 2 ≤ j → s.Free j ∧ s.recovering j = false) (hadm : inTurn.admits s i op env) :
    (sample.conduct False).admits s i op env := by
  cases op with
  | stageForReport => exact .inl hadm
  | updateAndSave =>
    refine fun _ p _ => ⟨fun j _ => ?_, not_false.elim⟩
    obtain _ | _ | j := j
    · exact hadm.1
    · exact hadm.2
    · exact (h _ (by omega)).2
  | confirmAccepted => exact not_false.elim
  | _ => exact trivial

/-- The second call reads what is pending before the first one stages, and stages more bytes before
the first one has sent its report. -/
def overlapping : List CallAction :=
  fiveBytes ++ [.start 0 .reportNow, .start 1 .reportNow] ++
    replicate 4 (.run 1 {}) ++ replicate 9 (.run 0 { now := 1, order := [sampleKey] }) ++
    [.event (.activity (.count ⟨sampleKey, 0⟩ fun d => if d = .upload then 3 else 0))] ++
    replicate 5 (.run 1 { now := 2, order := [sampleKey] })

theorem reports_apart_of_calls :
    ∃ t, Reaches sample.system.step (sample.conduct False).admitted samplePool t ∧
      ∃ e ∈ t.shared.journaled, ∃ e' ∈ t.shared.journaled,
        Carry e.records 0 sampleKey .upload 4 ∧ ¬Carry e'.records 0 sampleKey .upload 4 ∧
        Carry e'.records 0 sampleKey .upload 7 ∧ t.shared.Kept sample e ∧ t.shared.Kept sample e' := by
  let check : CallPool → CallAction → Bool :=
    checks (fun _ i _ => i < 2)
      (fun s op _ => match op with
        | .stageForReport .. => s.staging.isNone
        | .updateAndSave _ => !s.recovering 0 && !s.recovering 1
        | _ => true)
      (fun _ => true)
  obtain ⟨t, ht, e, he, e', he', hne, hcarry, hcarry'⟩ : ∃ t,
      runChecked sample.system.step check samplePool overlapping = some t ∧
        ∃ e ∈ t.shared.journaled, ∃ e' ∈ t.shared.journaled,
          e.idempotencyKey ≠ e'.idempotencyKey ∧ Carry e.records 0 sampleKey .upload 4 ∧
            Carry e'.records 0 sampleKey .upload 7 :=
    exists_end (by decide +kernel) fun _ => by decide +kernel
  have hinTurn : Reaches sample.system.step inTurn.admitted samplePool t := by
    refine Reaches.start.runChecked (fun s a ha => ?_) ht
    refine Conduct.admitted_of_checks (fun {_ i _} hi => of_decide_eq_true (p := i < 2) hi)
      (fun {s i op env} hop => ?_) (fun _ => trivial) s a ha
    cases op with
    | stageForReport => exact isNone_iff_eq_none.mp hop
    | updateAndSave =>
      have hnone : s.recovering 0 = false ∧ s.recovering 1 = false := by simpa using hop
      exact hnone
    | _ => exact trivial
  have hstart := consistent_initial sample oneInbound 0 "r"
  have hreach := ((protocol_sound sample False).reaches (fun hi => ⟨hi, trivial⟩)
    (fun _ => admits_of_inTurn) (fun {_ x} _ => by
      cases x with
      | updateInboundMapping => exact not_false
      | _ => exact trivial) (holds_of_consistent sample hstart nofun
      fun _ => rfl) (fun _ _ => rfl) hinTurn).1
  obtain ⟨hapart, hkept⟩ := reports_apart sample hstart (fun _ => rfl) hreach
  exact ⟨t, hreach, e, he, e', he', hcarry, hapart e he e' he' hne _ _ _ _ hcarry, hcarry',
    hkept e he, hkept e' he'⟩

/-- Both calls stage before either has journaled. -/
def stagedTwice : List CallAction :=
  fiveBytes ++ [.start 0 .reportNow, .start 1 .reportNow] ++
    replicate 6 (.run 0 { now := 1, order := [sampleKey] }) ++
    replicate 6 (.run 1 { now := 2, order := [sampleKey] }) ++ [.run 0 {}, .run 1 {}]

/-- A report is pending when the process restarts. Both calls recover it; the second
journals another report before the first replaces the pending reports. -/
def recoveredTwice : List CallAction :=
  fiveBytes ++ [.start 0 .reportNow] ++ replicate 13
      (.run 0 { now := 1, order := [sampleKey], result := .failed "" true false }) ++
    [.event (.restart 2 "r")] ++ fiveBytes ++ [.start 0 .reportNow, .start 1 .reportNow] ++
    replicate 7 (.run 0 { panelAccepts := true }) ++
    replicate 14 (.run 1 { now := 3, order := [sampleKey], panelAccepts := true }) ++
    [.run 0 {}]

lemma not_kept {e : PendingReport} (hpend : s.store.pendingReports.isEmpty)
    (hquar : s.store.quarantinedReports.isEmpty)
    (hacc : s.accepted.all (·.1 ≠ e.idempotencyKey)) : ¬s.Kept R e := by
  rintro (⟨r, hr, -⟩ | he | he)
  · exact of_decide_eq_true (all_eq_true.mp hacc _ hr) rfl
  · simp [State.pending, isEmpty_iff.mp hpend] at he
  · simp [State.quarantined, isEmpty_iff.mp hquar] at he

/-- Without those conditions two reports get the same bytes, and a report is lost. -/
theorem overlapping_calls_share_and_lose :
    (∃ t, run sample.system.step samplePool stagedTwice = some t ∧
      ∃ e ∈ t.shared.journaled, ∃ e' ∈ t.shared.journaled, e.idempotencyKey ≠ e'.idempotencyKey ∧
        Carry e.records 0 sampleKey .upload 4 ∧ Carry e'.records 0 sampleKey .upload 4) ∧
    ∃ t, run sample.system.step samplePool recoveredTwice = some t ∧
      ∃ e ∈ t.shared.journaled, Carry e.records 1 sampleKey .upload 4 ∧
        ¬t.shared.Kept sample e := by
  constructor
  · exact exists_end (by decide +kernel) fun _ => by decide +kernel
  · obtain ⟨t, ht, e, he, hcarry, hpend, hquar, hacc⟩ :
        ∃ t, run sample.system.step samplePool recoveredTwice = some t ∧
          ∃ e ∈ t.shared.journaled, Carry e.records 1 sampleKey .upload 4 ∧
            t.shared.store.pendingReports.isEmpty ∧ t.shared.store.quarantinedReports.isEmpty ∧
              t.shared.accepted.all (·.1 ≠ e.idempotencyKey) :=
      exists_end (by decide +kernel) fun _ => by decide +kernel
    exact ⟨t, ht, e, he, hcarry, not_kept hpend hquar hacc⟩

end Reporter

namespace Node

lemma covered_initial (mapping : String → Option String) (now : Int) (rev : String) :
    (initial mapping now rev).Covered := by
  refine ⟨?_, nofun, nofun, nofun, nofun⟩
  intro process k d i hi hlt
  have hzero : (initial mapping now rev).removedBy process k d = 0 := by
    unfold removedBy
    split <;> rfl
  omega

end Node

namespace Reporter
open Node System

/-- Calls are made one at a time and the mapping stays. What is staged when an
accepted report is confirmed was journaled, or has no bytes; and no key is used
twice. -/
def billing (R : Reporter) : Conduct R.system where
  starts _ i _ := i = 0
  admits s _ op env :=
    match op with
    | .updateAndSave u => env.saveError = none → ∀ p ∈ u.journals, ∀ e ∈ s.journaled,
        e.idempotencyKey ≠ p.idempotencyKey
    | .confirmAccepted => ∀ S, s.tracker.staged = some S →
        (∃ e ∈ s.journaled, e.records = S.report.records) ∨ ∀ k, amount S.snapshot k = 0
    | _ => True
  occurs _ e :=
    match e with
    | .updateInboundMapping _ => False
    | _ => True

variable {R : Reporter}

lemma admits_of_billing {op : ReporterOp} {env : ReporterEnv}
    (h : ∀ j, 1 ≤ j → s.Free j ∧ s.recovering j = false) (hadm : R.billing.admits s 0 op env) :
    (R.conduct True).admits s 0 op env := by
  cases op with
  | stageForReport =>
    cases hstage : s.staging with
    | none => exact .inl hstage
    | some j =>
      cases j with
      | zero => exact .inr hstage
      | succ j => exact absurd hstage (h (j + 1) (by omega)).1
  | updateAndSave u =>
    refine fun herror p hp => ⟨fun j hj => ?_, fun _ => hadm herror p hp⟩
    exact (h j (Nat.one_le_iff_ne_zero.mpr hj)).2
  | confirmAccepted => exact fun _ => hadm
  | _ => exact trivial

lemma billing_reaches {s t : CallPool} (hs : (R.protocol True).Holds s)
    (hidle : ∀ i, s.threads i = none) (h : Reaches R.system.step R.billing.admitted s t) :
    Reaches R.system.step (R.conduct True).admitted s t := by
  have hadm : ∀ {s i op env}, i < 1 → (∀ j, 1 ≤ j → s.Free j ∧ s.recovering j = false) →
      R.billing.admits s i op env → (R.conduct True).admits s i op env := by
    intro s i op env hi hfree hadm
    cases Nat.lt_one_iff.mp hi
    exact admits_of_billing hfree hadm
  have hoccurs : ∀ {s e}, R.billing.occurs s e → (R.conduct True).occurs s e := by
    intro s e hoccurs
    cases e with
    | updateInboundMapping => exact hoccurs.elim
    | _ => exact trivial
  exact ((protocol_sound R True).reaches (fun hi => ⟨Nat.lt_one_iff.mpr hi, trivial⟩) hadm hoccurs
    hs (fun i _ => hidle i) h).1

/-- Every byte that was removed from the counters is in one report, which was
accepted, is pending or is quarantined. What is pending is as it was journaled, a
key stands for one report, and nothing else is accepted. -/
theorem billed_once (R : Reporter) (mapping : String → Option String) (now : Int) (rev : String)
    {t : Pool Node ReporterOp ReporterOp.Ans ReporterCall}
    (h : Reaches R.system.step R.billing.admitted ⟨.initial mapping now rev, fun _ => none⟩ t) :
    (∀ process k d i, 0 ≤ i → i < t.shared.removedBy process k d →
      ∃ e ∈ t.shared.journaled, Carry e.records process k d i ∧ t.shared.Kept R e ∧
        ∀ e' ∈ t.shared.journaled, Carry e'.records process k d i → e'.core = e.core) ∧
    (∀ e ∈ t.shared.journaled, t.shared.Kept R e) ∧
    (∀ p ∈ t.shared.store.pendingReports, ∃ e ∈ t.shared.journaled, e.core = p.core) ∧
    (∀ e ∈ t.shared.journaled, ∀ e' ∈ t.shared.journaled,
      e.idempotencyKey = e'.idempotencyKey → e.core = e'.core) ∧
    ∀ key r, (key, r) ∈ t.shared.accepted →
      ∃ e ∈ t.shared.journaled, e.idempotencyKey = key ∧ e.report = some r := by
  have hstart : (R.protocol True).Holds ⟨.initial mapping now rev, fun _ => none⟩ :=
    holds_of_consistent R (consistent_initial R mapping now rev)
      (fun _ => covered_initial mapping now rev) fun _ => rfl
  have hinv := ((protocol_sound R True).holds (billing_reaches hstart (fun _ => rfl) h) hstart).inv
  have hcov := hinv.covered trivial
  refine ⟨?_, fun e he => hinv.journal.kept he,
    fun p hp => hinv.journal.pending (mem_map_of_mem hp),
    fun e he e' he' hkey => hcov.keys he he' hkey, fun key r hr => hinv.journal.sent hr⟩
  intro process k d i hi hlt
  obtain ⟨e, he, hcarry⟩ := hcov.removed hi hlt
  refine ⟨e, he, hcarry, hinv.journal.kept he, fun e' he' hcarry' => ?_⟩
  by_cases hkey : e'.idempotencyKey = e.idempotencyKey
  · exact hcov.keys he' he hkey
  · exact absurd hcarry (hinv.apart.disjoint he' he hkey hcarry')

def journaledOnce : List CallAction :=
  fiveBytes ++ .start 0 .reportNow :: replicate 9 (.run 0 { now := 1, order := [sampleKey] })

theorem billed_once_of_call : ∃ t, Reaches sample.system.step sample.billing.admitted samplePool t ∧
      4 < t.shared.removedBy 0 sampleKey .upload ∧
      ∃ e ∈ t.shared.journaled, Carry e.records 0 sampleKey .upload 4 ∧ t.shared.Kept sample e := by
  -- Before the one save nothing is on record, and nothing is confirmed as accepted.
  let check : CallPool → CallAction → Bool :=
    checks (fun _ i _ => i == 0)
      (fun s op _ => match op with
        | .updateAndSave _ => s.journaled.isEmpty
        | .confirmAccepted => false
        | _ => true)
      (fun e => match e with
        | .updateInboundMapping _ => false
        | _ => true)
  obtain ⟨t, ht, hrem⟩ : ∃ t, runChecked sample.system.step check samplePool
      journaledOnce = some t ∧ 4 < t.shared.removedBy 0 sampleKey .upload :=
    exists_end (by decide) fun _ => by decide
  have hreach : Reaches sample.system.step sample.billing.admitted samplePool t := by
    refine Reaches.start.runChecked (fun s a ha => ?_) ht
    refine Conduct.admitted_of_checks ?_ ?_ ?_ s a ha
    · intro s i call hi
      exact beq_iff_eq.mp hi
    · intro s i op env hop
      cases op with
      | updateAndSave u =>
        intro _ p _ e he
        simp [isEmpty_iff.mp hop] at he
      | confirmAccepted => cases hop
      | _ => exact trivial
    · intro s e he
      cases e with
      | updateInboundMapping => cases he
      | _ => exact trivial
  obtain ⟨e, he, hcarry, hkept, -⟩ := (billed_once sample oneInbound 0 "r" hreach).1 0 sampleKey
    .upload 4 (by decide) hrem
  exact ⟨t, hreach, hrem, e, he, hcarry, hkept⟩

/-- A report is pending; a flush stages more bytes and cannot save them; then the
first report is accepted. -/
def acceptedAfterFailedSave : List CallAction :=
  fiveBytes ++ .start 0 .reportNow ::
    replicate 13
      (.run 0 { now := 1, order := [sampleKey], result := .failed "" true false }) ++
    [.event (.activity (.count ⟨sampleKey, 0⟩ fun d => if d = .upload then 3 else 0)),
      .start 0 .flush] ++
    replicate 11
      (.run 0 { now := 2, order := [sampleKey], result := .failed "" true false }) ++
    [.run 0 { saveError := some "disk full" }, .run 0 {}, .start 0 .reportNow] ++
    replicate 8 (.run 0 { panelAccepts := true })

/-- The acceptance of one report subtracts what was staged for another, which was
never journaled. -/
theorem unsaved_bytes_removed :
    ∃ t, run sample.system.step samplePool acceptedAfterFailedSave = some t ∧
      5 < t.shared.removedBy 0 sampleKey .upload ∧
      ∀ e ∈ t.shared.journaled, ¬Carry e.records 0 sampleKey .upload 5 := by
  exact exists_end (by decide) fun _ => by decide

end Reporter

end SingBox.Panel
