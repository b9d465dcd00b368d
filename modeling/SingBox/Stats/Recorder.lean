import Mathlib.Data.List.MinMax
import Mathlib.Data.Rat.Floor
import SingBox.Lib.Window

/-! The recorder of transport statistics, a ring of thirty buckets of ten seconds each, and what it
answers in terms of the log of its samples. Sums and rates are exact numbers, and counts do not
overflow. -/

namespace SingBox.Stats
open Lib

/-- Durations are in nanoseconds. -/
def bucketDuration : Int := 10000000000
def bucketCount : Nat := 30

instance : NeZero bucketCount := ⟨by decide⟩

def maxWindow : Int := bucketDuration * bucketCount

structure Bucket where
  index : Int
  sentPackets : Nat := 0
  lostPackets : Nat := 0
  rttSum : Rat := 0
  rttCount : Nat := 0
  rttVarSum : Rat := 0
  rttVarCount : Nat := 0
  deliveryRate : Rat := 0
  hasDeliveryRate : Bool := false
  latencySum : Rat := 0
  latencyCount : Nat := 0

namespace Bucket

variable (b : Bucket)

def addCounters (sent lost : Nat) : Bucket :=
  { b with sentPackets := b.sentPackets + sent, lostPackets := b.lostPackets + lost }

def addRTT (rtt : Rat) : Bucket := { b with rttSum := b.rttSum + rtt, rttCount := b.rttCount + 1 }

def addRTTVar (rttVar : Rat) : Bucket :=
  { b with rttVarSum := b.rttVarSum + rttVar, rttVarCount := b.rttVarCount + 1 }

def addDeliveryRate (mbps : Rat) : Bucket :=
  if !b.hasDeliveryRate ∨ mbps > b.deliveryRate then
    { b with deliveryRate := mbps, hasDeliveryRate := true }
  else b

def addLatency (milliseconds : Rat) : Bucket :=
  { b with latencySum := b.latencySum + milliseconds, latencyCount := b.latencyCount + 1 }

end Bucket

structure Recorder where
  highest : Int := 0
  buckets : Fin bucketCount → Bucket

/-- The answer of a query: a number, and whether there was a sample. -/
abbrev Answer := Rat × Bool

namespace Recorder

variable (r : Recorder)

def reset : Recorder := { r with buckets := fun _ => { index := -1 } }

/-- `newRecorderWithClock`; what the clock says is taken relative to this time. -/
def new : Recorder := reset { buckets := fun _ => { index := 0 } }

def bucketIndex (elapsed : Int) : Int × Recorder :=
  let index := elapsed.tdiv bucketDuration
  let r := if index < r.highest then r.reset else r
  (index, { r with highest := index })

def slot (index : Int) : Fin bucketCount :=
  let slot := index.tmod bucketCount
  let slot := if slot < 0 then slot + bucketCount else slot
  Fin.ofNat bucketCount slot.toNat

/-- `current`, and what is done to the bucket that it returns. -/
def withCurrent (elapsed : Int) (change : Bucket → Bucket) : Recorder :=
  let (index, r) := r.bucketIndex elapsed
  let b := r.buckets (slot index)
  let b := if b.index ≠ index then { index } else b
  { r with buckets := Function.update r.buckets (slot index) (change b) }

/-- `forEach`, with what its visits accumulate. -/
def forEach {α : Type} (r : Recorder) (elapsed window : Int) (visit : α → Bucket → α) (init : α) :
    α × Recorder :=
  let window := if window ≤ 0 ∨ window > maxWindow then maxWindow else window
  let (newest, r) := r.bucketIndex elapsed
  let span := (window + bucketDuration - 1).tdiv bucketDuration
  let oldest := newest - span + 1
  let visited := (List.finRange bucketCount).foldl (fun acc i =>
    let b := r.buckets i
    if b.index < oldest ∨ b.index > newest then acc else visit acc b) init
  (visited, r)

variable (r : Recorder)

def addCounters (elapsed : Int) (sent lost : Nat) : Recorder :=
  if sent = 0 ∧ lost = 0 then r else r.withCurrent elapsed (·.addCounters sent lost)

def addRTT (elapsed : Int) (rtt rttVar : Rat) : Recorder :=
  if rtt ≤ 0 ∧ rttVar ≤ 0 then r
  else r.withCurrent elapsed fun b =>
    let b := if rtt > 0 then b.addRTT rtt else b
    if rttVar > 0 then b.addRTTVar rttVar else b

def addDeliveryRate (elapsed : Int) (mbps : Rat) : Recorder :=
  if mbps ≤ 0 then r else r.withCurrent elapsed (·.addDeliveryRate mbps)

def addLatency (elapsed : Int) (milliseconds : Rat) : Recorder :=
  if milliseconds ≤ 0 then r else r.withCurrent elapsed (·.addLatency milliseconds)

def resetLatency : Recorder :=
  { r with buckets := fun i => { r.buckets i with latencySum := 0, latencyCount := 0 } }

def lossRate (elapsed window : Int) : Answer × Recorder :=
  let ((sent, lost), r) := r.forEach elapsed window
    (fun acc b => (acc.1 + b.sentPackets, acc.2 + b.lostPackets)) (0, 0)
  if sent = 0 then ((0, false), r)
  else
    let lost := if lost > sent then sent else lost
    ((lost * 100 / sent, true), r)

/-- What `RTT`, `RTTVar` and `Latency` do, each with its own sum and count. -/
def mean (elapsed window : Int) (sumOf : Bucket → Rat) (countOf : Bucket → Nat) :
    Answer × Recorder :=
  let ((sum, count), r) := r.forEach elapsed window
    (fun acc b => (acc.1 + sumOf b, acc.2 + countOf b)) ((0 : Rat), (0 : Nat))
  if count = 0 then ((0, false), r) else ((sum / count, true), r)

def rtt (elapsed window : Int) : Answer × Recorder :=
  r.mean elapsed window Bucket.rttSum Bucket.rttCount

def rttVar (elapsed window : Int) : Answer × Recorder :=
  r.mean elapsed window Bucket.rttVarSum Bucket.rttVarCount

def latency (elapsed window : Int) : Answer × Recorder :=
  r.mean elapsed window Bucket.latencySum Bucket.latencyCount

def deliveryRate (elapsed window : Int) : Answer × Recorder :=
  r.forEach elapsed window (fun acc b =>
    if b.hasDeliveryRate ∧ (!acc.2 ∨ b.deliveryRate > acc.1) then (b.deliveryRate, true) else acc)
    (0, false)

end Recorder

inductive Call
  | addCounters (sent lost : Nat)
  | addRTT (rtt rttVar : Rat)
  | addDeliveryRate (mbps : Rat)
  | addLatency (milliseconds : Rat)
  | resetLatency
  | lossRate (window : Int)
  | rtt (window : Int)
  | rttVar (window : Int)
  | deliveryRate (window : Int)
  | latency (window : Int)

/-- The answer of a call, if it is a query, and the recorder after it. -/
def Recorder.call (r : Recorder) (elapsed : Int) : Call → Option Answer × Recorder
  | .addCounters sent lost => (none, r.addCounters elapsed sent lost)
  | .addRTT rtt rttVar => (none, r.addRTT elapsed rtt rttVar)
  | .addDeliveryRate mbps => (none, r.addDeliveryRate elapsed mbps)
  | .addLatency milliseconds => (none, r.addLatency elapsed milliseconds)
  | .resetLatency => (none, r.resetLatency)
  | .lossRate window => (r.lossRate elapsed window).map some id
  | .rtt window => (r.rtt elapsed window).map some id
  | .rttVar window => (r.rttVar elapsed window).map some id
  | .deliveryRate window => (r.deliveryRate elapsed window).map some id
  | .latency window => (r.latency elapsed window).map some id

/-- The answers of calls, each made at a time of the clock. -/
def Recorder.run (r : Recorder) : List (Int × Call) → List (Option Answer)
  | [] => []
  | (elapsed, call) :: calls =>
    let (answer, r) := r.call elapsed call
    answer :: r.run calls

inductive Sample
  | counters (sent lost : Nat)
  | rtt (milliseconds : Rat)
  | rttVar (milliseconds : Rat)
  | deliveryRate (mbps : Rat)
  | latency (milliseconds : Rat)

namespace Sample

def sent : Sample → Nat
  | .counters sent _ => sent
  | _ => 0

def lost : Sample → Nat
  | .counters _ lost => lost
  | _ => 0

def rtt? : Sample → Option Rat
  | .rtt milliseconds => some milliseconds
  | _ => none

def rttVar? : Sample → Option Rat
  | .rttVar milliseconds => some milliseconds
  | _ => none

def deliveryRate? : Sample → Option Rat
  | .deliveryRate mbps => some mbps
  | _ => none

def latency? : Sample → Option Rat
  | .latency milliseconds => some milliseconds
  | _ => none

end Sample

/-- The samples with the numbers of their buckets, and the bucket that was seen last. -/
structure History where
  newest : Int := 0
  samples : List (Int × Sample) := []

section Aggregates

def lossRate (samples : List Sample) : Answer :=
  let sent := (samples.map Sample.sent).sum
  let lost := (samples.map Sample.lost).sum
  if sent = 0 then (0, false) else (min 1 ((lost : Rat) / sent) * 100, true)

def mean (values : List Rat) : Answer :=
  if values = [] then (0, false) else (values.sum / values.length, true)

def peak (values : List Rat) : Answer :=
  match values.maximum with
  | ⊥ => (0, false)
  | (value : Rat) => (value, true)

end Aggregates

namespace History

variable (elapsed : Int) (h : History)

def bucketNumber : Int := elapsed.tdiv bucketDuration

/-- The clock is looked at: the log is emptied if it went back by a bucket. -/
def see (elapsed : Int) : History :=
  if bucketNumber elapsed < h.newest then { newest := bucketNumber elapsed }
  else { h with newest := bucketNumber elapsed }

def add (sample : Sample) : History := { h with samples := h.samples ++ [(h.newest, sample)] }

def addRTT (rtt rttVar : Rat) : History :=
  let h := if rtt > 0 then h.add (.rtt rtt) else h
  if rttVar > 0 then h.add (.rttVar rttVar) else h

/-- The samples of the last buckets, so many of them up to the newest one. -/
def recent (buckets : Int) : List Sample :=
  (h.samples.filter fun sample => h.newest - buckets < sample.1 ∧ sample.1 ≤ h.newest).map (·.2)

/-- A call, with the number of buckets that a window stands for. -/
def call (buckets : Int → Int) (h : History) (elapsed : Int) : Call → Option Answer × History
  | .addCounters sent lost =>
    (none, if sent = 0 ∧ lost = 0 then h else (h.see elapsed).add (.counters sent lost))
  | .addRTT rtt rttVar =>
    (none, if rtt ≤ 0 ∧ rttVar ≤ 0 then h else (h.see elapsed).addRTT rtt rttVar)
  | .addDeliveryRate mbps =>
    (none, if mbps ≤ 0 then h else (h.see elapsed).add (.deliveryRate mbps))
  | .addLatency milliseconds =>
    (none, if milliseconds ≤ 0 then h else (h.see elapsed).add (.latency milliseconds))
  | .resetLatency => (none, { h with samples := h.samples.filter (·.2.latency?.isNone) })
  | .lossRate window => (some (lossRate ((h.see elapsed).recent (buckets window))), h.see elapsed)
  | .rtt window =>
    (some (mean (((h.see elapsed).recent (buckets window)).filterMap Sample.rtt?)), h.see elapsed)
  | .rttVar window =>
    (some (mean (((h.see elapsed).recent (buckets window)).filterMap Sample.rttVar?)), h.see elapsed)
  | .deliveryRate window =>
    (some (peak (((h.see elapsed).recent (buckets window)).filterMap Sample.deliveryRate?)),
      h.see elapsed)
  | .latency window =>
    (some (mean (((h.see elapsed).recent (buckets window)).filterMap Sample.latency?)), h.see elapsed)

def run (buckets : Int → Int) (h : History) : List (Int × Call) → List (Option Answer)
  | [] => []
  | (elapsed, call) :: calls =>
    let (answer, h) := h.call buckets elapsed call
    answer :: h.run buckets calls

end History

/-- The buckets that a window reaches into. -/
def spanned (window : Int) : Int := ⌈(window : Rat) / bucketDuration⌉

/-- The window that is answered for: the longest one if there is none of this length. -/
def effective (window : Int) : Int := if window ≤ 0 ∨ window > maxWindow then maxWindow else window

end SingBox.Stats
