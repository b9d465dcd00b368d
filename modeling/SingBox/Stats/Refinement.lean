import SingBox.Stats.Recorder

/-! The recorder refines the log of its samples. -/

namespace SingBox.Stats
open Lib Window Function List Int

/-- What a bucket keeps of its samples. -/
@[ext] structure Totals where
  sent : ℕ := 0
  lost : ℕ := 0
  rttSum : ℚ := 0
  rttCount : ℕ := 0
  rttVarSum : ℚ := 0
  rttVarCount : ℕ := 0
  peak : WithBot ℚ := ⊥
  latencySum : ℚ := 0
  latencyCount : ℕ := 0

namespace Totals

instance : Zero Totals := ⟨{}⟩

instance : Add Totals where
  add a b := {
    sent := a.sent + b.sent
    lost := a.lost + b.lost
    rttSum := a.rttSum + b.rttSum
    rttCount := a.rttCount + b.rttCount
    rttVarSum := a.rttVarSum + b.rttVarSum
    rttVarCount := a.rttVarCount + b.rttVarCount
    peak := max a.peak b.peak
    latencySum := a.latencySum + b.latencySum
    latencyCount := a.latencyCount + b.latencyCount }

instance : AddCommMonoid Totals where
  add_assoc a b c := by
    ext1 <;> first | exact add_assoc .. | exact max_assoc ..
  zero_add a := by
    ext1 <;> first | exact zero_add _ | exact bot_sup_eq _
  add_zero a := by
    ext1 <;> first | exact add_zero _ | exact sup_bot_eq _
  add_comm a b := by
    ext1 <;> first | exact add_comm .. | exact max_comm ..
  nsmul := nsmulRec

/-- Without what is known of latencies. -/
def dropLatency : Totals →+ Totals where
  toFun t := { t with latencySum := 0, latencyCount := 0 }
  map_zero' := rfl
  map_add' a b := by
    ext1 <;> first | rfl | exact (add_zero _).symm

def counters : Totals →+ ℕ × ℕ where
  toFun t := (t.sent, t.lost)
  map_zero' := rfl
  map_add' _ _ := rfl

def rtts : Totals →+ ℚ × ℕ where
  toFun t := (t.rttSum, t.rttCount)
  map_zero' := rfl
  map_add' _ _ := rfl

def rttVars : Totals →+ ℚ × ℕ where
  toFun t := (t.rttVarSum, t.rttVarCount)
  map_zero' := rfl
  map_add' _ _ := rfl

def latencies : Totals →+ ℚ × ℕ where
  toFun t := (t.latencySum, t.latencyCount)
  map_zero' := rfl
  map_add' _ _ := rfl

end Totals

def Sample.totals : Sample → Totals
  | .counters sent lost => { sent, lost }
  | .rtt milliseconds => { rttSum := milliseconds, rttCount := 1 }
  | .rttVar milliseconds => { rttVarSum := milliseconds, rttVarCount := 1 }
  | .deliveryRate mbps => { peak := mbps }
  | .latency milliseconds => { latencySum := milliseconds, latencyCount := 1 }

def Bucket.totals (b : Bucket) : Totals where
  sent := b.sentPackets
  lost := b.lostPackets
  rttSum := b.rttSum
  rttCount := b.rttCount
  rttVarSum := b.rttVarSum
  rttVarCount := b.rttVarCount
  peak := if b.hasDeliveryRate then b.deliveryRate else ⊥
  latencySum := b.latencySum
  latencyCount := b.latencyCount

def Recorder.ring (r : Recorder) : Slots bucketCount Totals where
  newest := r.highest
  slots i := { index := (r.buckets i).index, content := (r.buckets i).totals }

def History.log (h : History) : Log Totals where
  newest := h.newest
  samples := h.samples.map fun sample => (sample.1, sample.2.totals)

section Adding

variable {r : Recorder} {h : History} {elapsed : Int}

lemma slot_eq (index : Int) : Recorder.slot index = slotOf bucketCount index := by
  have hdiv := mul_tdiv_add_tmod index 30
  have hlt := tmod_lt_of_pos index (show (0 : Int) < 30 by decide)
  have hgt := lt_tmod_of_pos index (show (0 : Int) < 30 by decide)
  rw [Fin.ext_iff]
  show (if index.tmod 30 < 0 then index.tmod 30 + 30 else index.tmod 30).toNat % 30 =
    (index % 30).toNat
  split <;> omega

lemma ring_bucketIndex :
    (r.bucketIndex elapsed).2.ring = r.ring.see (-1) (History.bucketNumber elapsed) := by
  unfold Recorder.bucketIndex Slots.see History.bucketNumber
  by_cases hback : elapsed.tdiv bucketDuration < r.highest
  · rw [if_pos (show _ < r.ring.newest from hback)]
    simp only [hback, if_true]
    rfl
  · rw [if_neg (show ¬ _ < r.ring.newest from hback)]
    simp only [hback, if_false]
    rfl

lemma ring_withCurrent {change : Bucket → Bucket} {m : Totals}
    (hidx : ∀ b, (change b).index = b.index) (htotals : ∀ b, (change b).totals = b.totals + m) :
    (r.withCurrent elapsed change).ring =
      (r.ring.see (-1) (History.bucketNumber elapsed)).add m := by
  rw [← ring_bucketIndex]
  obtain ⟨index, r', hsee⟩ : ∃ index r', r.bucketIndex elapsed = (index, r') := ⟨_, _, rfl⟩
  have hnewest : r'.highest = index := by
    have hhighest : (r.bucketIndex elapsed).2.highest = (r.bucketIndex elapsed).1 := rfl
    rwa [hsee] at hhighest
  have hvacant : ({ index } : Bucket).totals = 0 := rfl
  unfold Recorder.withCurrent
  rw [hsee]
  refine Slots.ext rfl (funext fun i => ?_)
  show Slot.mk (update r'.buckets _ _ i).index (update r'.buckets _ _ i).totals =
    update r'.ring.slots _ _ i
  rw [show r'.ring.newest = index from hnewest, slot_eq]
  by_cases hi : i = slotOf bucketCount index
  · subst hi
    rw [update_self, update_self, hidx, htotals]
    by_cases hown : (r'.buckets (slotOf bucketCount index)).index = index
    · rw [if_neg (not_not.mpr hown), if_pos (show (r'.ring.slots _).index = index from hown), hown]
      rfl
    · rw [if_pos hown, if_neg (show (r'.ring.slots _).index ≠ index from hown), hvacant]
  · rw [update_of_ne hi, update_of_ne hi]
    rfl

lemma log_see : (h.see elapsed).log = h.log.see (History.bucketNumber elapsed) := by
  unfold History.see Log.see
  by_cases hback : History.bucketNumber elapsed < h.newest
  · rw [if_pos hback, if_pos (show _ < h.log.newest from hback)]
    rfl
  · rw [if_neg hback, if_neg (show ¬ _ < h.log.newest from hback)]
    rfl

lemma log_add (sample : Sample) : (h.add sample).log = h.log.add sample.totals := by
  simp [History.add, History.log, Log.add]

end Adding

section Querying

variable {r : Recorder} {h : History} {elapsed : Int}

lemma foldl_finRange {N : ℕ} {A : Type*} [AddCommMonoid A] (skip : Fin N → Prop)
    [DecidablePred skip] (f : Fin N → A) (init : A) :
    (finRange N).foldl (fun acc i => if skip i then acc else acc + f i) init =
      init + ∑ i, if skip i then 0 else f i := by
  have hfold : ∀ (is : List (Fin N)) (init : A),
      is.foldl (fun acc i => if skip i then acc else acc + f i) init =
        init + (is.map fun i => if skip i then 0 else f i).sum := by
    intro is
    induction is with
    | nil => simp
    | cons i is ih =>
      intro init
      rw [foldl_cons, ih, map_cons, sum_cons]
      split
      · rw [zero_add]
      · rw [add_assoc]
  rw [hfold, Fin.sum_univ_def]

lemma spanned_eq {window : Int} (hpos : 0 < window) :
    (window + bucketDuration - 1).tdiv bucketDuration = spanned window := by
  unfold spanned
  have hcast : ((bucketDuration : Int) : ℚ) = ((10000000000 : ℕ) : ℚ) := by norm_num [bucketDuration]
  rw [hcast, Rat.ceil_intCast_div_natCast, tdiv_eq_ediv_of_nonneg (by unfold bucketDuration; omega)]
  unfold bucketDuration
  omega

lemma effective_pos (window : Int) : 0 < effective window := by
  unfold effective
  split
  · decide
  · omega

lemma spanned_effective_le (window : Int) : spanned (effective window) ≤ bucketCount := by
  rw [← spanned_eq (effective_pos window)]
  have hle : effective window ≤ maxWindow := by
    unfold effective
    split
    · exact le_refl _
    · omega
  have hpos := effective_pos window
  rw [tdiv_eq_ediv_of_nonneg (by unfold bucketDuration; omega)]
  unfold maxWindow bucketDuration bucketCount at *
  omega

/-- The bucket is not of the last ones. -/
def outside (elapsed buckets : Int) (b : Bucket) : Prop :=
  b.index < History.bucketNumber elapsed - buckets + 1 ∨ b.index > History.bucketNumber elapsed

instance (elapsed buckets : Int) : DecidablePred (outside elapsed buckets) :=
  fun _ => inferInstanceAs (Decidable (_ ∨ _))

variable {A : Type}

lemma forEach_fold (visit : A → Bucket → A) (init : A) (window : Int) :
    r.forEach elapsed window visit init = ((finRange bucketCount).foldl (fun acc i =>
        if outside elapsed (spanned (effective window)) ((r.bucketIndex elapsed).2.buckets i) then acc
        else visit acc ((r.bucketIndex elapsed).2.buckets i)) init, (r.bucketIndex elapsed).2) := by
  unfold Recorder.forEach outside
  rw [show (if window ≤ 0 ∨ window > maxWindow then maxWindow else window) =
      effective window from rfl]
  dsimp only
  rw [spanned_eq (effective_pos window)]
  rfl

/-- What is accumulated may be carried along in another form. -/
theorem forEach_hom {A B : Type} (f : A → B) {visit : A → Bucket → A} {visit' : B → Bucket → B}
    (hvisit : ∀ acc b, visit' (f acc) b = f (visit acc b)) (elapsed window : Int) (init : A) :
    r.forEach elapsed window visit' (f init) =
      (f (r.forEach elapsed window visit init).1, (r.forEach elapsed window visit init).2) := by
  rw [forEach_fold, forEach_fold]
  refine Prod.ext ?_ rfl
  dsimp only
  refine foldl_hom f fun acc i => ?_
  split
  · rfl
  · exact hvisit acc _

/-- What is accumulated over the buckets of a window, where every visit adds something. -/
theorem forEach_eq [AddCommMonoid A] (g : Totals →+ A) {visit : A → Bucket → A}
    (hvisit : ∀ acc b, visit acc b = acc + g b.totals) (window : Int) :
    r.forEach elapsed window visit 0 = (g ((r.bucketIndex elapsed).2.ring.total
        (History.bucketNumber elapsed - spanned (effective window) + 1)),
        (r.bucketIndex elapsed).2) := by
  rw [forEach_fold]
  refine Prod.ext ?_ rfl
  simp only [hvisit]
  rw [foldl_finRange, zero_add, Slots.total, map_sum]
  refine Finset.sum_congr rfl fun i _ => ?_
  set b := (r.bucketIndex elapsed).2.buckets i
  show (if outside elapsed _ b then 0 else g b.totals) =
    g (if _ ≤ b.index ∧ b.index ≤ History.bucketNumber elapsed then b.totals else 0)
  have hout : outside elapsed (spanned (effective window)) b ↔
      ¬ (History.bucketNumber elapsed - spanned (effective window) + 1 ≤ b.index ∧
        b.index ≤ History.bucketNumber elapsed) := by
    unfold outside
    omega
  by_cases hin : outside elapsed (spanned (effective window)) b
  · rw [if_pos hin, if_neg (hout.mp hin), map_zero]
  · rw [if_neg hin, if_pos (not_not.mp fun hnot => hin (hout.mpr hnot))]

/-- The sum of the log over a window is that of its recent samples. -/
theorem log_total (buckets : Int) :
    h.log.total (h.newest - buckets + 1) = ((h.recent buckets).map Sample.totals).sum := by
  unfold Log.total History.log History.recent
  rw [filter_map, map_map, map_map]
  rfl

lemma newest_see : (h.see elapsed).newest = History.bucketNumber elapsed := by
  unfold History.see
  split <;> rfl

/-- Over every window the recorder accumulates what the log has in it. -/
theorem forEach_refines [AddCommMonoid A] (href : Refines r.ring h.log) (g : Totals →+ A)
    {visit : A → Bucket → A} (hvisit : ∀ acc b, visit acc b = acc + g b.totals) (window : Int) :
    r.forEach elapsed window visit 0 =
      (g (((h.see elapsed).recent (spanned (effective window))).map Sample.totals).sum,
        (r.bucketIndex elapsed).2) := by
  have hsee := href.see (-1) (History.bucketNumber elapsed)
  rw [← ring_bucketIndex, ← log_see] at hsee
  have hle := spanned_effective_le window
  rw [forEach_eq g hvisit, ← log_total, ← newest_see (h := h), hsee.total]
  show (h.see elapsed).newest - _ < _
  omega

end Querying

section Aggregates

variable (samples : List Sample)

lemma counters_sum : Totals.counters ((samples.map Sample.totals).sum) =
    ((samples.map Sample.sent).sum, (samples.map Sample.lost).sum) := by
  induction samples with
  | nil => rfl
  | cons sample samples ih =>
    rw [map_cons, sum_cons, map_add, ih]
    cases sample <;> rfl

/-- The sum and the number of the samples of one kind. -/
theorem kind_sum (g : Totals →+ ℚ × ℕ) (kind : Sample → Option ℚ)
    (hkind : ∀ sample, g sample.totals = (kind sample).elim 0 fun value => (value, 1)) :
    g ((samples.map Sample.totals).sum) =
      ((samples.filterMap kind).sum, (samples.filterMap kind).length) := by
  induction samples with
  | nil => exact map_zero g
  | cons sample samples ih =>
    rw [map_cons, sum_cons, map_add, ih, hkind, filterMap_cons]
    cases kind sample with
    | none => exact zero_add _
    | some value => exact Prod.ext rfl (Nat.add_comm ..)

lemma peak_sum : ((samples.map Sample.totals).sum).peak =
    (samples.filterMap Sample.deliveryRate?).maximum := by
  induction samples with
  | nil => rfl
  | cons sample samples ih =>
    show max sample.totals.peak (samples.map Sample.totals).sum.peak = _
    rw [ih, filterMap_cons]
    cases sample with
    | deliveryRate mbps => exact (maximum_cons ..).symm
    | _ => exact bot_sup_eq _

end Aggregates

section Answers

variable {r : Recorder} {h : History} {elapsed : Int}

section
variable (href : Refines r.ring h.log)
include href

lemma lossRate_refines (window : Int) : r.lossRate elapsed window =
      (lossRate ((h.see elapsed).recent (spanned (effective window))),
          (r.bucketIndex elapsed).2) := by
  unfold Recorder.lossRate
  have hvisit (acc : ℕ × ℕ) (b : Bucket) :
      (acc.1 + b.sentPackets, acc.2 + b.lostPackets) = acc + Totals.counters b.totals := rfl
  rw [show ((0, 0) : ℕ × ℕ) = 0 from rfl, forEach_refines href Totals.counters hvisit, counters_sum]
  unfold lossRate
  set sent := (((h.see elapsed).recent (spanned (effective window))).map Sample.sent).sum
  set lost := (((h.see elapsed).recent (spanned (effective window))).map Sample.lost).sum
  dsimp only
  by_cases hsent : sent = 0
  · rw [if_pos hsent, if_pos hsent]
  · rw [if_neg hsent, if_neg hsent]
    have hpos : (0 : ℚ) < sent := by exact_mod_cast Nat.pos_of_ne_zero hsent
    refine Prod.ext (Prod.ext ?_ rfl) rfl
    by_cases hmore : lost > sent
    · have hone : (1 : ℚ) ≤ lost / sent := by
        rw [one_le_div hpos]
        exact_mod_cast hmore.le
      rw [if_pos hmore, min_eq_left hone]
      field_simp
    · have hone : (lost : ℚ) / sent ≤ 1 := by
        rw [div_le_one hpos]
        exact_mod_cast not_lt.mp hmore
      rw [if_neg hmore, min_eq_right hone]
      ring

lemma mean_refines (g : Totals →+ ℚ × ℕ) (kind : Sample → Option ℚ)
    (hkind : ∀ sample, g sample.totals = (kind sample).elim 0 fun value => (value, 1))
    {sumOf : Bucket → ℚ} {countOf : Bucket → ℕ} (hbucket : ∀ b, g b.totals = (sumOf b, countOf b))
    (window : Int) : r.mean elapsed window sumOf countOf =
      (mean (((h.see elapsed).recent (spanned (effective window))).filterMap kind),
        (r.bucketIndex elapsed).2) := by
  unfold Recorder.mean
  have hvisit acc b :
      (acc.1 + sumOf b, acc.2 + countOf b) = acc + g b.totals := by
    rw [hbucket]
    rfl
  rw [show ((0, 0) : ℚ × ℕ) = 0 from rfl, forEach_refines href g hvisit, kind_sum _ g kind hkind]
  unfold mean
  dsimp only
  by_cases hnil : ((h.see elapsed).recent (spanned (effective window))).filterMap kind = []
  · rw [if_pos (by rw [hnil]; rfl), if_pos hnil]
  · rw [if_neg (by simpa using hnil), if_neg hnil]

end

/-- The answer that says what the largest value is, if there is one. -/
def peakAnswer : WithBot ℚ → Answer
  | ⊥ => (0, false)
  | (value : ℚ) => (value, true)

@[simp] lemma peakAnswer_coe (value : ℚ) : peakAnswer value = (value, true) := rfl

lemma peakAnswer_max (top : WithBot ℚ) (b : Bucket) :
    (if b.hasDeliveryRate ∧ (!(peakAnswer top).2 ∨ b.deliveryRate > (peakAnswer top).1) then
      (b.deliveryRate, true) else peakAnswer top) = peakAnswer (max top b.totals.peak) := by
  have hpeak : b.totals.peak = if b.hasDeliveryRate then (b.deliveryRate : WithBot ℚ) else ⊥ := rfl
  rw [hpeak]
  cases b.hasDeliveryRate with
  | false => rw [if_neg (by simp), if_neg (by simp), max_bot_right]
  | true =>
    rw [if_pos rfl]
    cases top with
    | bot => rfl
    | coe value =>
      rw [← WithBot.coe_max, peakAnswer_coe, peakAnswer_coe]
      by_cases hmore : b.deliveryRate > value
      · rw [if_pos ⟨rfl, Or.inr hmore⟩, max_eq_right hmore.le]
      · rw [if_neg (by simpa using hmore), max_eq_left (not_lt.mp hmore)]

lemma deliveryRate_refines (href : Refines r.ring h.log) (window : Int) :
    r.deliveryRate elapsed window =
      (peak (((h.see elapsed).recent (spanned (effective window))).filterMap Sample.deliveryRate?),
        (r.bucketIndex elapsed).2) := by
  have htotals : r.forEach elapsed window (fun acc b => acc + b.totals) 0 = _ :=
    forEach_refines href (AddMonoidHom.id Totals) (fun _ _ => rfl) window
  have hvisit (t : Totals) (b : Bucket) : _ = peakAnswer (t + b.totals).peak :=
    peakAnswer_max t.peak b
  refine (forEach_hom (fun t : Totals => peakAnswer t.peak) hvisit elapsed window 0).trans ?_
  rw [htotals]
  refine Prod.ext ?_ rfl
  show peakAnswer (((h.see elapsed).recent _).map Sample.totals).sum.peak = _
  rw [peak_sum]
  rfl

end Answers

section Run

variable {r : Recorder} {h : History} {elapsed : Int}

lemma refines_add (href : Refines r.ring h.log) {change : Bucket → Bucket} (sample : Sample)
    (hidx : ∀ b, (change b).index = b.index)
    (htotals : ∀ b, (change b).totals = b.totals + sample.totals) :
    Refines (r.withCurrent elapsed change).ring ((h.see elapsed).add sample).log := by
  rw [ring_withCurrent hidx htotals, log_add, log_see]
  exact (href.see _ _).add _

section Bucket

variable (b : Bucket)

lemma totals_addCounters (sent lost : ℕ) :
    (b.addCounters sent lost).totals = b.totals + (Sample.counters sent lost).totals := by
  ext1 <;> first | rfl | exact (add_zero _).symm | exact (max_bot_right _).symm

lemma totals_addRTT (rtt : ℚ) : (b.addRTT rtt).totals = b.totals + (Sample.rtt rtt).totals := by
  ext1 <;> first | rfl | exact (add_zero _).symm | exact (max_bot_right _).symm

lemma totals_addRTTVar (rttVar : ℚ) :
    (b.addRTTVar rttVar).totals = b.totals + (Sample.rttVar rttVar).totals := by
  ext1 <;> first | rfl | exact (add_zero _).symm | exact (max_bot_right _).symm

lemma totals_addLatency (milliseconds : ℚ) :
    (b.addLatency milliseconds).totals = b.totals + (Sample.latency milliseconds).totals := by
  ext1 <;> first | rfl | exact (add_zero _).symm | exact (max_bot_right _).symm

lemma totals_addDeliveryRate (mbps : ℚ) :
    (b.addDeliveryRate mbps).totals = b.totals + (Sample.deliveryRate mbps).totals := by
  have hpeak : (b.addDeliveryRate mbps).totals.peak = max b.totals.peak mbps := by
    unfold Bucket.addDeliveryRate Bucket.totals
    cases hhas : b.hasDeliveryRate with
    | false => simp
    | true =>
      by_cases hmore : mbps > b.deliveryRate
      · simp [hmore, hmore.le]
      · simp [hhas, hmore, not_lt.mp hmore]
  unfold Bucket.addDeliveryRate at hpeak ⊢
  split at hpeak
  · rename_i hkeep
    rw [if_pos hkeep]
    ext1 <;> first | exact hpeak | exact (add_zero _).symm
  · rename_i hkeep
    rw [if_neg hkeep]
    ext1 <;> first | exact hpeak | exact (add_zero _).symm

lemma index_addDeliveryRate (mbps : ℚ) : (b.addDeliveryRate mbps).index = b.index := by
  unfold Bucket.addDeliveryRate
  split <;> rfl

end Bucket

/-- The two halves of an RTT sample are added as two samples, or as one. -/
theorem refines_addRTT (href : Refines r.ring h.log) {rtt rttVar : ℚ}
    (hsome : ¬ (rtt ≤ 0 ∧ rttVar ≤ 0)) :
    Refines (r.addRTT elapsed rtt rttVar).ring ((h.see elapsed).addRTT rtt rttVar).log := by
  unfold Recorder.addRTT History.addRTT
  rw [if_neg hsome]
  by_cases hrtt : rtt > 0
  · by_cases hvar : rttVar > 0
    · simp only [hrtt, hvar, if_true]
      have htotals (b : Bucket) : ((b.addRTT rtt).addRTTVar rttVar).totals =
          b.totals + ((Sample.rtt rtt).totals + (Sample.rttVar rttVar).totals) := by
        rw [totals_addRTTVar, totals_addRTT, add_assoc]
      have hidx (b : Bucket) : ((b.addRTT rtt).addRTTVar rttVar).index = b.index := rfl
      rw [ring_withCurrent hidx htotals, ← Slots.add_add, log_add, log_add, log_see]
      exact ((href.see _ _).add _).add _
    · simp only [hrtt, hvar, if_true, if_false]
      exact refines_add href (.rtt rtt) (fun _ => rfl) fun b => totals_addRTT b rtt
  · have hvar : rttVar > 0 := by
      by_contra hvar
      exact hsome ⟨not_lt.mp hrtt, not_lt.mp hvar⟩
    simp only [hrtt, hvar, if_true, if_false]
    exact refines_add href (.rttVar rttVar) (fun _ => rfl) fun b => totals_addRTTVar b rttVar

lemma dropLatency_totals (sample : Sample) :
    Totals.dropLatency sample.totals = if sample.latency?.isNone then sample.totals else 0 := by
  cases sample <;> rfl

variable (href : Refines r.ring h.log)
include href

/-- Without their latencies the samples of a bucket add up to what the others do. -/
theorem refines_resetLatency : Refines r.resetLatency.ring
      (History.log { h with samples := h.samples.filter (·.2.latency?.isNone) }) := by
  refine (href.map Totals.dropLatency).sublist ?_ fun index => ?_
  · intro sample hmem
    obtain ⟨old, hold, rfl⟩ := mem_map.mp hmem
    obtain ⟨hmem, hother⟩ := mem_filter.mp hold
    refine mem_map.mpr ⟨(old.1, old.2.totals), mem_map_of_mem hmem, ?_⟩
    rw [dropLatency_totals, if_pos hother]
  · unfold Log.bucket History.log Log.map
    generalize h.samples = samples
    induction samples with
    | nil => rfl
    | cons sample samples ih =>
      have hdrop := dropLatency_totals sample.2
      cases hkeep : sample.2.latency?.isNone with
      | true =>
        by_cases hidx : sample.1 = index
        · simpa [hkeep, hidx, hdrop] using congrArg (sample.2.totals + ·) ih
        · simpa [hkeep, hidx, hdrop] using ih
      | false => by_cases hidx : sample.1 = index <;> simpa [hkeep, hidx, hdrop] using ih

/-- A call is answered as the log says, and leaves a recorder that refines the next log. -/
theorem call_refines (elapsed : Int) (call : Call) :
    (r.call elapsed call).1 = (h.call (spanned ∘ effective) elapsed call).1 ∧
      Refines (r.call elapsed call).2.ring (h.call (spanned ∘ effective) elapsed call).2.log := by
  have hseen : Refines (r.bucketIndex elapsed).2.ring (h.see elapsed).log := by
    rw [ring_bucketIndex, log_see]
    exact href.see _ _
  cases call with
  | addCounters sent lost =>
    refine ⟨rfl, ?_⟩
    simp only [Recorder.call, Recorder.addCounters, History.call]
    split
    · exact href
    · exact refines_add href _ (fun _ => rfl) fun b => totals_addCounters b sent lost
  | addRTT rtt rttVar =>
    refine ⟨rfl, ?_⟩
    simp only [Recorder.call, History.call]
    by_cases hnone : rtt ≤ 0 ∧ rttVar ≤ 0
    · rwa [Recorder.addRTT, if_pos hnone, if_pos hnone]
    · rw [if_neg hnone]
      exact refines_addRTT href hnone
  | addDeliveryRate mbps =>
    refine ⟨rfl, ?_⟩
    simp only [Recorder.call, Recorder.addDeliveryRate, History.call]
    split
    · exact href
    · exact refines_add href _ (fun b => index_addDeliveryRate b mbps)
        fun b => totals_addDeliveryRate b mbps
  | addLatency milliseconds =>
    refine ⟨rfl, ?_⟩
    simp only [Recorder.call, Recorder.addLatency, History.call]
    split
    · exact href
    · exact refines_add href _ (fun _ => rfl) fun b => totals_addLatency b milliseconds
  | resetLatency => exact ⟨rfl, refines_resetLatency href⟩
  | lossRate window =>
    simp only [Recorder.call, lossRate_refines href]
    exact ⟨rfl, hseen⟩
  | rtt window =>
    have hmean : r.rtt elapsed window = _ :=
      mean_refines href Totals.rtts Sample.rtt? (fun sample => by cases sample <;> rfl)
          (fun _ => rfl) window
    simp only [Recorder.call, hmean]
    exact ⟨rfl, hseen⟩
  | rttVar window =>
    have hmean : r.rttVar elapsed window = _ :=
      mean_refines href Totals.rttVars Sample.rttVar? (fun sample => by cases sample <;> rfl)
          (fun _ => rfl) window
    simp only [Recorder.call, hmean]
    exact ⟨rfl, hseen⟩
  | deliveryRate window =>
    simp only [Recorder.call, deliveryRate_refines href]
    exact ⟨rfl, hseen⟩
  | latency window =>
    have hmean : r.latency elapsed window = _ :=
      mean_refines href Totals.latencies Sample.latency? (fun sample => by cases sample <;> rfl)
          (fun _ => rfl) window
    simp only [Recorder.call, hmean]
    exact ⟨rfl, hseen⟩

lemma run_refines (calls : List (Int × Call)) :
    r.run calls = h.run (spanned ∘ effective) calls := by
  induction calls generalizing r h with
  | nil => rfl
  | cons timed calls ih =>
    obtain ⟨elapsed, call⟩ := timed
    obtain ⟨hans, hnext⟩ := call_refines href elapsed call
    unfold Recorder.run History.run
    dsimp only
    rw [hans, ih hnext]

end Run

lemma refines_new : Refines Recorder.new.ring (History.log {}) := refines_empty (-1) 0

/-- The recorder answers every query with the aggregate over the samples of its log in the last
buckets, as many as its window reaches into, where the longest window stands for one that is
not positive or longer. -/
theorem recorder_refines_log (calls : List (Int × Call)) :
    Recorder.new.run calls = History.run (fun window => spanned (effective window)) {} calls :=
  run_refines refines_new calls

def longWindow : List (Int × Call) :=
  [(0, .addLatency 5), (35 * bucketDuration, .latency (40 * bucketDuration))]

/-- The log has a sample in the forty buckets of the window, the recorder does not answer for
more than thirty. -/
theorem long_window_cut : Recorder.new.run longWindow = [none, some (0, false)] ∧
      History.run spanned {} longWindow = [none, some (5, true)] := by
  decide +kernel

end SingBox.Stats
