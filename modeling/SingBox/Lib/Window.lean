import Mathlib.Algebra.BigOperators.Fin
import Mathlib.Data.Int.ModEq

/-! Sums over the recent part of a timeline of numbered buckets: kept in a ring of slots that
are reused when their turn comes, and as the log of all that was added. -/

namespace SingBox.Lib.Window
open Function List Int

variable {M : Type*}

@[ext] structure Slot (M : Type*) where
  index : ℤ
  content : M

/-- Slots that each hold the sum of one bucket, and the newest bucket that was seen. -/
@[ext] structure Slots (N : ℕ) (M : Type*) where
  newest : ℤ
  slots : Fin N → Slot M

/-- All that was added, with the numbers of the buckets. -/
structure Log (M : Type*) where
  newest : ℤ
  samples : List (ℤ × M)

/-- The slot whose turn it is in a bucket. -/
def slotOf (N : ℕ) [NeZero N] (index : ℤ) : Fin N :=
  ⟨(index % N).toNat, by
    have hpos : (0 : ℤ) < N := by exact_mod_cast Nat.pos_of_neZero N
    have hnonneg := emod_nonneg index hpos.ne'
    have hlt := emod_lt_of_pos index hpos
    omega⟩

variable {a b : ℤ}

lemma slotOf_eq_iff {N : ℕ} [NeZero N] : slotOf N a = slotOf N b ↔ a % N = b % N := by
  have hpos : (0 : ℤ) < N := by exact_mod_cast Nat.pos_of_neZero N
  have ha := emod_nonneg a hpos.ne'
  have hb := emod_nonneg b hpos.ne'
  rw [Fin.ext_iff]
  show (a % N).toNat = (b % N).toNat ↔ _
  omega

/-- Of the buckets with one slot, one is among the last ones. -/
theorem eq_of_slotOf_eq {N : ℕ} [NeZero N] (h : slotOf N a = slotOf N b) (hle : a ≤ b)
    (hlt : b - N < a) : a = b := by
  have hdvd : (N : ℤ) ∣ b - a := Int.ModEq.dvd (slotOf_eq_iff.mp h)
  have hzero := eq_zero_of_dvd_of_nonneg_of_lt (by omega) (by omega) hdvd
  omega

namespace Slots

variable {N : ℕ}

/-- A ring without content; the index of its slots says nothing. -/
def empty [Zero M] (N : ℕ) (vacant newest : ℤ) : Slots N M where
  newest
  slots _ := { index := vacant, content := 0 }

/-- A bucket is seen: all is forgotten if it is older than the newest one. -/
def see [Zero M] (r : Slots N M) (vacant index : ℤ) : Slots N M :=
  if index < r.newest then empty N vacant index else { r with newest := index }

/-- A sample is added to the newest bucket, whose slot may still be that of an older one. -/
def add [NeZero N] [AddCommMonoid M] (r : Slots N M) (m : M) : Slots N M :=
  let slot := r.slots (slotOf N r.newest)
  let content := if slot.index = r.newest then slot.content else 0
  { r with
    slots := update r.slots (slotOf N r.newest) { index := r.newest, content := content + m } }

def map (r : Slots N M) (f : M → M) : Slots N M :=
  { r with slots := fun i => { r.slots i with content := f (r.slots i).content } }

/-- The sum over the slots from a bucket up to the newest one. -/
def total [AddCommMonoid M] (r : Slots N M) (oldest : ℤ) : M :=
  ∑ i, if oldest ≤ (r.slots i).index ∧ (r.slots i).index ≤ r.newest then (r.slots i).content else 0

end Slots

namespace Log

def see (log : Log M) (index : ℤ) : Log M :=
  if index < log.newest then { newest := index, samples := [] } else { log with newest := index }

def add (log : Log M) (m : M) : Log M := { log with samples := log.samples ++ [(log.newest, m)] }

def map (log : Log M) (f : M → M) : Log M :=
  { log with samples := log.samples.map fun sample => (sample.1, f sample.2) }

variable [AddCommMonoid M]

/-- The sum of one bucket. -/
def bucket (log : Log M) (index : ℤ) : M := ((log.samples.filter (·.1 = index)).map (·.2)).sum

/-- The sum over the samples from a bucket up to the newest one. -/
def total (log : Log M) (oldest : ℤ) : M :=
  ((log.samples.filter fun sample => oldest ≤ sample.1 ∧ sample.1 ≤ log.newest).map (·.2)).sum

end Log

section

variable {N : ℕ} [NeZero N] [AddCommMonoid M]

/-- A slot holds the sum of its bucket, if it is the slot of that bucket, and a bucket among
the last ones that has samples has its slot. -/
structure Refines (r : Slots N M) (log : Log M) : Prop where
  newest : r.newest = log.newest
  content : ∀ i, (r.slots i).content =
    if slotOf N (r.slots i).index = i then log.bucket (r.slots i).index else 0
  bounded : ∀ sample ∈ log.samples, sample.1 ≤ log.newest
  live : ∀ sample ∈ log.samples, log.newest - N < sample.1 →
    (r.slots (slotOf N sample.1)).index = sample.1

variable {r : Slots N M} {log : Log M}

lemma refines_empty (vacant newest : ℤ) :
    Refines (Slots.empty N vacant newest : Slots N M) { newest, samples := [] } where
  newest := rfl
  content := fun i => by
    show (0 : M) = _
    simp [Log.bucket]
  bounded := by simp
  live := by simp

lemma Refines.see (h : Refines r log) (vacant index : ℤ) :
    Refines (r.see vacant index) (log.see index) := by
  unfold Slots.see Log.see
  rw [h.newest]
  by_cases hback : index < log.newest
  · rw [if_pos hback, if_pos hback]
    exact refines_empty vacant index
  · rw [if_neg hback, if_neg hback]
    refine ⟨rfl, h.content, fun sample hmem => ?_, fun sample hmem hrecent => ?_⟩
    · have hbounded := h.bounded sample hmem
      dsimp only
      omega
    · apply h.live sample hmem
      dsimp only at hrecent
      omega

lemma Log.bucket_add (log : Log M) (m : M) (index : ℤ) :
    (log.add m).bucket index = log.bucket index + if log.newest = index then m else 0 := by
  by_cases hidx : log.newest = index <;> simp [Log.bucket, Log.add, hidx]

/-- Without a slot the newest bucket has no samples. -/
theorem Refines.bucket_newest (h : Refines r log)
    (hslot : (r.slots (slotOf N log.newest)).index ≠ log.newest) : log.bucket log.newest = 0 := by
  have hnone : log.samples.filter (·.1 = log.newest) = [] := by
    refine filter_eq_nil_iff.mpr fun sample hmem hsample => hslot ?_
    have heq : sample.1 = log.newest := of_decide_eq_true hsample
    have hpos := Nat.pos_of_neZero N
    have hlive := h.live sample hmem (by omega)
    rwa [heq] at hlive
  rw [Log.bucket, hnone]
  rfl

lemma Refines.add (h : Refines r log) (m : M) : Refines (r.add m) (log.add m) := by
  set slot := slotOf N log.newest with hslot
  have hcontent : (if (r.slots slot).index = log.newest then (r.slots slot).content else 0) =
      log.bucket log.newest := by
    by_cases hidx : (r.slots slot).index = log.newest
    · rw [if_pos hidx, h.content slot, hidx, if_pos hslot.symm]
    · rw [if_neg hidx, h.bucket_newest hidx]
  have hslots : (r.add m).slots = update r.slots slot
      { index := log.newest, content := log.bucket log.newest + m } := by
    rw [Slots.add, h.newest, ← hslot, hcontent]
  refine ⟨h.newest, fun i => ?_, fun sample hmem => ?_, fun sample hmem hrecent => ?_⟩
  · rw [hslots]
    by_cases hi : i = slot
    · subst hi
      rw [update_self, if_pos hslot.symm, Log.bucket_add, if_pos rfl]
    · rw [update_of_ne hi, h.content i]
      split
      · rename_i hown
        rw [Log.bucket_add, if_neg, add_zero]
        intro heq
        exact hi (by rw [← hown, ← heq])
      · rfl
  · obtain hold | hnew := mem_append.mp hmem
    · exact h.bounded sample hold
    · rw [mem_singleton.mp hnew]
      exact le_refl _
  · rw [hslots]
    by_cases hown : slotOf N sample.1 = slot
    · have hbounded : sample.1 ≤ log.newest := by
        obtain hold | hnew := mem_append.mp hmem
        · exact h.bounded sample hold
        · rw [mem_singleton.mp hnew]
      rw [hown, update_self]
      exact (eq_of_slotOf_eq hown hbounded hrecent).symm
    · rw [update_of_ne hown]
      obtain hold | hnew := mem_append.mp hmem
      · exact h.live sample hold hrecent
      · rw [mem_singleton.mp hnew] at hown
        exact absurd rfl hown

lemma Slots.add_add (r : Slots N M) (m m' : M) : (r.add m).add m' = r.add (m + m') := by
  unfold Slots.add
  simp [add_assoc]

lemma Log.bucket_map (log : Log M) (f : M →+ M) (index : ℤ) :
    (log.map f).bucket index = f (log.bucket index) := by
  simp only [Log.bucket, Log.map, map_list_sum, filter_map, map_map]
  rfl

lemma Refines.map (h : Refines r log) (f : M →+ M) : Refines (r.map f) (log.map f) := { h with
  content := fun i => by
    show f (r.slots i).content = if slotOf N (r.slots i).index = i then _ else 0
    rw [h.content i, Log.bucket_map]
    split
    · rfl
    · exact map_zero f
  bounded := fun sample hmem => by
    obtain ⟨old, hold, rfl⟩ := mem_map.mp hmem
    exact h.bounded old hold
  live := fun sample hmem hrecent => by
    obtain ⟨old, hold, rfl⟩ := mem_map.mp hmem
    exact h.live old hold hrecent }

/-- Samples may leave the log if the sums of the buckets stay. -/
theorem Refines.sublist (h : Refines r log) {samples : List (ℤ × M)} (hsub : samples ⊆ log.samples)
    (hbucket : ∀ index, Log.bucket { log with samples } index = log.bucket index) :
    Refines r { log with samples } := { h with
  content := fun i => by
    rw [h.content i, hbucket]
  bounded := fun sample hmem => h.bounded sample (hsub hmem)
  live := fun sample hmem => h.live sample (hsub hmem) }

lemma sum_filter_slotOf (samples : List (ℤ × M)) : (samples.map (·.2)).sum =
      ∑ i, ((samples.filter fun sample => slotOf N sample.1 = i).map (·.2)).sum := by
  induction samples with
  | nil => simp
  | cons sample samples ih =>
    have hcons i :
        (((sample :: samples).filter fun sample => slotOf N sample.1 = i).map (·.2)).sum =
          (if slotOf N sample.1 = i then sample.2 else 0) +
            ((samples.filter fun sample => slotOf N sample.1 = i).map (·.2)).sum := by
      by_cases hi : slotOf N sample.1 = i
      · simp [hi]
      · simp [hi]
    rw [map_cons, sum_cons, ih, Finset.sum_congr rfl fun i _ => hcons i,
      Finset.sum_add_distrib, Finset.sum_ite_eq]
    simp

/-- The ring gives the sums of the log, over no more buckets than it has slots. -/
theorem Refines.total (h : Refines r log) {oldest : ℤ} (hspan : log.newest - N < oldest) :
    r.total oldest = log.total oldest := by
  rw [Log.total, sum_filter_slotOf (N := N), Slots.total, h.newest]
  refine Finset.sum_congr rfl fun i _ => ?_
  set slot := r.slots i with hslot
  -- the samples of the window in slot `i` are all of the bucket of the slot
  have hbucket sample (hmem : sample ∈ log.samples) (holdest : oldest ≤ sample.1)
      (hown : slotOf N sample.1 = i) : slot.index = sample.1 := by
    rw [hslot, ← hown]
    exact h.live sample hmem (by omega)
  have hnone (hnot : ¬ (slotOf N slot.index = i ∧ oldest ≤ slot.index ∧ slot.index ≤ log.newest)) :
      log.samples.filter (fun sample => decide (slotOf N sample.1 = i) &&
        decide (oldest ≤ sample.1 ∧ sample.1 ≤ log.newest)) = [] := by
    refine filter_eq_nil_iff.mpr fun sample hmem hin => hnot ?_
    simp only [Bool.and_eq_true, decide_eq_true_eq] at hin
    rwa [hbucket sample hmem hin.2.1 hin.1]
  rw [filter_filter]
  by_cases hwindow : oldest ≤ slot.index ∧ slot.index ≤ log.newest
  · rw [if_pos hwindow, h.content i, ← hslot]
    by_cases hown : slotOf N slot.index = i
    · rw [if_pos hown, Log.bucket]
      congr 2
      refine filter_congr fun sample hmem => Bool.eq_iff_iff.mpr ?_
      simp only [Bool.and_eq_true, decide_eq_true_eq]
      constructor
      · intro heq
        rw [heq]
        exact ⟨hown, hwindow⟩
      · exact fun hin => (hbucket sample hmem hin.2.1 hin.1).symm
    · rw [if_neg hown, hnone fun hin => hown hin.1]
      rfl
  · rw [if_neg hwindow, hnone fun hin => hwindow hin.2]
    rfl

end

end SingBox.Lib.Window
