import SingBox.Stats.Recorder

/-! The tracker that turns the cumulative counters of connections into increments. -/

namespace SingBox.Stats
open Function List

structure Counters where
  sent : Nat := 0
  lost : Nat := 0
  bytes : Nat := 0

def Counters.regressed (sample last : Counters) : Bool :=
  sample.sent < last.sent || sample.lost < last.lost || sample.bytes < last.bytes

structure CounterState where
  last : Counters
  updated : Int

def staleCounterTimeout : Int := maxWindow

structure CounterTracker where
  states : UInt64 → Option CounterState := fun _ => none
  lastSweep : Int

namespace CounterTracker

variable (t : CounterTracker) (now : Int)

def evictStaleLocked : CounterTracker :=
  if now < t.lastSweep then { t with lastSweep := now }
  else if now - t.lastSweep < bucketDuration then t
  else {
    states := fun key => (t.states key).filter fun state =>
        ¬ now - state.updated > staleCounterTimeout
    lastSweep := now }

variable (key : UInt64)

def delta (sample : Counters) : CounterTracker × Counters :=
  let t := t.evictStaleLocked now
  ({ t with states := update t.states key (some { last := sample, updated := now }) },
    match t.states key with
    | none => {}
    | some state =>
      if sample.regressed state.last then {}
      else {
        sent := sample.sent - state.last.sent
        lost := sample.lost - state.last.lost
        bytes := sample.bytes - state.last.bytes })

def forget : CounterTracker := { t with states := update t.states key none }

def retain (live : UInt64 → Bool) : CounterTracker :=
  { t with states := fun key => if live key then t.states key else none }

lemma evicted_cases :
    (t.evictStaleLocked now).states key = t.states key ∨
      (t.evictStaleLocked now).states key = none ∧
        ∃ state, t.states key = some state ∧ now - state.updated > staleCounterTimeout := by
  unfold evictStaleLocked
  split
  · exact .inl rfl
  · split
    · exact .inl rfl
    · cases hst : t.states key with
      | none => exact .inl (by simp [hst])
      | some state =>
        by_cases hold : now - state.updated > staleCounterTimeout
        · exact .inr ⟨by simp [hst]; omega, state, rfl, hold⟩
        · exact .inl (by simp [hst]; omega)

lemma of_evicted {t : CounterTracker} {now : Int} {key : UInt64} {state : CounterState}
    (h : (t.evictStaleLocked now).states key = some state) : t.states key = some state := by
  obtain hsame | ⟨hnone, -⟩ := t.evicted_cases now key
  · exact hsame.symm.trans h
  · cases hnone.symm.trans h

end CounterTracker

inductive TrackerCall
  | delta (now : Int) (key : UInt64) (sample : Counters)
  | forget (key : UInt64)
  | retain (live : UInt64 → Bool)

/-- The call is on other keys. -/
def TrackerCall.Elsewhere (key : UInt64) : TrackerCall → Prop
  | .delta _ other _ | .forget other => other ≠ key
  | .retain live => live key = true

/-- What calls make of a key: the time of the last sweep, the samples of its tracking periods, the
latest first, and when the running period was last sampled, if there is one. -/
structure Sampling where
  sweep : Int
  periods : List (List Counters) := []
  sampled : Option Int := none

namespace Sampling

variable (h : Sampling)

/-- A sample of any key sweeps, unless there was a sweep in this bucket, and ends the period of a
key that was not sampled for longer than the time-out. -/
def sweptAt (now : Int) : Sampling :=
  if now < h.sweep then { h with sweep := now }
  else if now - h.sweep < bucketDuration then h
  else { h with
    sweep := now, sampled := h.sampled.filter fun last => now - last ≤ staleCounterTimeout }

def stopIf (stops : Bool) : Sampling := if stops then { h with sampled := none } else h

def step (key : UInt64) : TrackerCall → Sampling
  | .delta now other sample =>
    if key ≠ other then h.sweptAt now
    else { h.sweptAt now with
      sampled := some now
      periods := match (h.sweptAt now).sampled, h.periods with
        | some _, period :: periods => (sample :: period) :: periods
        | _, periods => [sample] :: periods }
  | .forget other => h.stopIf (key = other)
  | .retain live => h.stopIf (!live key)

lemma sweptAt_periods (now : Int) : (h.sweptAt now).periods = h.periods := by
  unfold sweptAt
  split
  · rfl
  · split <;> rfl

end Sampling

/-- A tracker with the deltas that it reported for each key. -/
structure Tracking where
  tracker : CounterTracker
  reported : UInt64 → List Counters := fun _ => []

namespace Tracking

def step (r : Tracking) : TrackerCall → Tracking
  | .delta now key sample => {
      tracker := (r.tracker.delta now key sample).1
      reported := update r.reported key ((r.tracker.delta now key sample).2 :: r.reported key) }
  | .forget key => { r with tracker := r.tracker.forget key }
  | .retain live => { r with tracker := r.tracker.retain live }

/-- The sum of the differences of consecutive samples of a period, where nothing regressed. -/
def gain (f : Counters → Nat) (period : List Counters) : Nat :=
  ((period.zip period.tail).map fun (b, a) => if b.regressed a then 0 else f b - f a).sum

/-- A tracker knows just the keys with a running period, by its last sample and the time of it. -/
structure Follows (key : UInt64) (t : CounterTracker) (h : Sampling) : Prop where
  sweep : t.lastSweep = h.sweep
  sampled : (t.states key).map CounterState.updated = h.sampled
  baseline : ∀ state, t.states key = some state →
    ∃ period periods, h.periods = (state.last :: period) :: periods

/-- Also, the deltas of a key add up to the differences within its periods. -/
structure Counted (key : UInt64) (r : Tracking) (h : Sampling) : Prop
    extends Follows key r.tracker h where
  sums : ∀ f ∈ [Counters.sent, Counters.lost, Counters.bytes],
    ((r.reported key).map f).sum = (h.periods.map (gain f)).sum

variable {r : Tracking} {key : UInt64} {h : Sampling} {t : CounterTracker}

lemma Follows.evicted (hf : Follows key t h) (now : Int) :
    Follows key (t.evictStaleLocked now) (h.sweptAt now) := by
  obtain ⟨hsweep, hsampled, hbase⟩ := hf
  obtain ⟨hswept, hkept⟩ : (t.evictStaleLocked now).lastSweep = (h.sweptAt now).sweep ∧
      ((t.evictStaleLocked now).states key).map CounterState.updated = (h.sweptAt now).sampled := by
    unfold CounterTracker.evictStaleLocked Sampling.sweptAt
    rw [hsweep]
    split
    · exact ⟨rfl, hsampled⟩
    · split
      · exact ⟨hsweep, hsampled⟩
      · refine ⟨rfl, ?_⟩
        rw [← hsampled]
        cases hst : t.states key with
        | none => simp [hst]
        | some state => grind
  refine ⟨hswept, hkept, fun state hst => ?_⟩
  rw [h.sweptAt_periods]
  exact hbase state (CounterTracker.of_evicted hst)

/-- A sample of the key itself: the first of a period and one that regressed add nothing. -/
theorem counted_delta (hr : r.Counted key h) (now : Int) (sample : Counters) :
    (r.step (.delta now key sample)).Counted key (h.step key (.delta now key sample)) := by
  have hfollows := hr.evicted now
  simp only [Sampling.step, ne_eq, not_true_eq_false, if_false]
  refine ⟨⟨hfollows.sweep, ?_, ?_⟩, ?_⟩
  · simp [step, CounterTracker.delta]
  · intro state hst
    cases (update_self key _ _).symm.trans hst
    dsimp only
    split <;> exact ⟨_, _, rfl⟩
  · intro f hf
    simp only [step, CounterTracker.delta, update_self, map_cons, sum_cons, hr.sums f hf,
      ← hfollows.sampled]
    simp only [mem_cons, not_mem_nil, or_false] at hf
    cases hst : (r.tracker.evictStaleLocked now).states key with
    | none => rcases hf with rfl | rfl | rfl <;> simp [gain]
    | some state =>
      obtain ⟨period, periods, hperiods⟩ := hr.baseline state (CounterTracker.of_evicted hst)
      simp only [hperiods, map_cons, sum_cons, gain, tail_cons, zip_cons_cons, Option.map_some]
      rcases hf with rfl | rfl | rfl <;> split <;> simp [Nat.add_assoc]

/-- The key is dropped, or all stays as it is. -/
theorem Counted.stopIf (hr : r.Counted key h) (stops : Bool)
    (hsweep : t.lastSweep = r.tracker.lastSweep)
    (hst : t.states key = if stops then none else r.tracker.states key) :
    Counted key { r with tracker := t } (h.stopIf stops) := by
  cases stops with
  | true =>
    refine ⟨⟨hsweep.trans hr.sweep, congrArg _ hst, fun state hstate => ?_⟩, hr.sums⟩
    cases hst.symm.trans hstate
  | false =>
    exact ⟨⟨hsweep.trans hr.sweep, (congrArg _ hst).trans hr.sampled, fun state hstate =>
      hr.baseline state (hst.symm.trans hstate)⟩, hr.sums⟩

lemma counted_step (hr : r.Counted key h) (call : TrackerCall) :
    (r.step call).Counted key (h.step key call) := by
  cases call with
  | delta now other sample =>
    by_cases hkey : key = other
    · subst hkey
      exact counted_delta hr now sample
    · have hfollows := hr.evicted now
      simp only [Sampling.step, ne_eq, hkey, not_false_eq_true, if_true]
      refine ⟨⟨hfollows.sweep, ?_, ?_⟩, ?_⟩
      · simpa only [step, CounterTracker.delta, update_of_ne hkey] using hfollows.sampled
      · simpa only [step, CounterTracker.delta, update_of_ne hkey] using hfollows.baseline
      · simpa only [step, update_of_ne hkey, h.sweptAt_periods] using hr.sums
  | forget other => exact hr.stopIf _ rfl (by simp [CounterTracker.forget, update_apply])
  | retain live =>
    refine hr.stopIf _ rfl ?_
    cases hlive : live key <;> simp [CounterTracker.retain, hlive]

lemma counted_run (calls : List TrackerCall) (hr : r.Counted key h) :
    (calls.foldl step r).Counted key (calls.foldl (Sampling.step · key ·) h) := by
  induction calls generalizing r h with
  | nil => exact hr
  | cons call calls ih => exact ih (counted_step hr call)

/-- In every run, what is reported for a key adds up to the differences within the tracking periods
that the calls make of it, and a call on other keys leaves all that is known of it unless the key
timed out. -/
theorem counts_once (start : Int) (calls : List TrackerCall) (key : UInt64) :
    let r := calls.foldl step { tracker := { lastSweep := start } }
    let h := calls.foldl (Sampling.step · key ·) { sweep := start }
    r.Counted key h ∧ ∀ call : TrackerCall, call.Elsewhere key →
      (r.step call).reported key = r.reported key ∧ (h.step key call).periods = h.periods ∧
      ((r.step call).tracker.states key = r.tracker.states key ∨
        (r.step call).tracker.states key = none ∧ ∃ now other sample state,
          call = .delta now other sample ∧ r.tracker.states key = some state ∧
            now - state.updated > staleCounterTimeout) := by
  intro r h
  constructor
  · exact counted_run calls ⟨⟨rfl, rfl, nofun⟩, fun _ _ => rfl⟩
  · intro call helse
    cases call with
    | delta now other sample =>
      simp only [step, CounterTracker.delta, Sampling.step, update_of_ne (Ne.symm helse), true_and]
      refine ⟨(if_pos (Ne.symm helse)).symm ▸ h.sweptAt_periods now, ?_⟩
      obtain hsame | ⟨hnone, state, hst, hold⟩ := r.tracker.evicted_cases now key
      · exact .inl hsame
      · exact .inr ⟨hnone, now, other, sample, state, rfl, hst, hold⟩
    | forget other =>
      refine ⟨rfl, ?_, .inl (update_of_ne (Ne.symm helse) _ _)⟩
      rw [Sampling.step, Sampling.stopIf, if_neg (by simpa using Ne.symm helse)]
    | retain live =>
      refine ⟨rfl, ?_, .inl (if_pos helse)⟩
      rw [Sampling.step, Sampling.stopIf, if_neg (by simp [show live key = true from helse])]

/-- Two samples, then two of a second period, between samples of another key. -/
theorem counts_once_forgotten :
    let calls : List TrackerCall := [.delta 0 1 { sent := 5 }, .delta 1 2 { sent := 9 },
      .delta 2 1 { sent := 8 }, .forget 1, .delta 3 1 { sent := 20 }, .delta 4 1 { sent := 21 }]
    ((calls.foldl step { tracker := { lastSweep := 0 } }).reported 1).map Counters.sent =
        [1, 0, 3, 0] ∧
      ((calls.foldl (Sampling.step · 1 ·) { sweep := 0 }).periods.map (gain Counters.sent)).sum =
          4 := by
  intro calls
  refine ⟨by decide, ?_⟩
  rw [← (counts_once 0 calls 1).1.sums Counters.sent (.head _)]
  decide

end Tracking

end SingBox.Stats
