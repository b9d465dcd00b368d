import Mathlib.Algebra.Order.Pi
import Mathlib.Algebra.Order.Ring.Int
import Mathlib.Data.List.AList
import SingBox.Panel.Configuration

/-! What the adapter and the panel send each other, and the state that the adapter keeps on disk. -/

namespace SingBox.Panel
open List

inductive Direction
  | upload
  | download
  deriving DecidableEq

abbrev Traffic := Direction → Int

/-- What traffic is accounted to. -/
structure Key where
  inboundTag : String
  userID : String
  deriving DecidableEq

/-- Which bytes a record stands for: those that one process counted for a key,
from a number on. -/
structure Source where
  process : Nat
  key : Key
  offset : Traffic

/-- A record of a report; its source is known here and is not sent. -/
structure TrafficRecord where
  inboundID : String
  userID : String
  uploadBytes : Int
  downloadBytes : Int
  source : Source

/-- Times are counted in nanoseconds. -/
structure TrafficReport where
  startedAt : Int
  endedAt : Int
  configurationRevision : String
  records : List TrafficRecord

/-- What a list of amounts has for a key. -/
def amount : List (Key × Traffic) → Key → Traffic
  | [], _ => 0
  | (k', x) :: entries, k => (if k' = k then x else 0) + amount entries k

namespace TrafficRecord

def bytes (r : TrafficRecord) : Traffic
  | .upload => r.uploadBytes
  | .download => r.downloadBytes

end TrafficRecord

/-- What a report carries of the bytes of a key. -/
def TrafficReport.carried (r : TrafficReport) (k : Key) : Traffic :=
  amount (r.records.map fun x => (x.source.key, x.bytes)) k

@[simp] lemma amount_nil (k : Key) : amount [] k = 0 := rfl

@[simp] lemma amount_cons (e : Key × Traffic) (entries : List (Key × Traffic)) (k : Key) :
    amount (e :: entries) k = (if e.1 = k then e.2 else 0) + amount entries k := rfl

variable {keys : List Key}

/-- Each key comes up at most once. -/
theorem amount_map (h : keys.Nodup) (f : Key → Traffic) (k : Key) :
    amount (keys.map fun k => (k, f k)) k = if k ∈ keys then f k else 0 := by
  induction keys with
  | nil => rfl
  | cons k' keys ih =>
    obtain ⟨hk', hkeys⟩ := nodup_cons.mp h
    rw [map_cons, amount_cons, ih hkeys]
    by_cases hk : k' = k
    · subst hk
      simp [hk']
    · simp [hk, Ne.symm hk]

/-- A report has at most one record for each key. -/
theorem amount_records (h : keys.Nodup) {f : Key → Option TrafficRecord}
    (hf : ∀ k r, f k = some r → r.source.key = k) (k : Key) :
    amount ((keys.filterMap f).map fun r => (r.source.key, r.bytes)) k =
      if k ∈ keys then ((f k).map TrafficRecord.bytes).getD 0 else 0 := by
  induction keys with
  | nil => rfl
  | cons k' keys ih =>
    obtain ⟨hk', hkeys⟩ := nodup_cons.mp h
    cases hr : f k' with
    | none =>
      rw [filterMap_cons_none hr, ih hkeys]
      by_cases hk : k = k'
      · subst hk
        simp [hk', hr]
      · simp [hk]
    | some r =>
      rw [filterMap_cons_some hr, map_cons, amount_cons, ih hkeys, hf k' r hr]
      by_cases hk : k = k'
      · subst hk
        simp [hk', hr]
      · simp [hk, Ne.symm hk]

lemma amount_nonneg {entries : List (Key × Traffic)} (h : ∀ e ∈ entries, 0 ≤ e.2) (k : Key) :
    0 ≤ amount entries k := by
  induction entries with
  | nil => exact le_refl _
  | cons e entries ih =>
    rw [amount_cons]
    have hents := ih fun e' he' => h e' (mem_cons_of_mem _ he')
    have he := h e mem_cons_self
    split
    · exact add_nonneg he hents
    · rwa [zero_add]

structure ConfigState where
  revision : String := ""
  etag : String := ""
  nodeID : String := ""
  deriving DecidableEq

structure InboundState where
  inboundID : String := ""
  tag : String := ""
  protocol : String := ""
  userETag : String := ""
  userRevision : String := ""
  userLoadStatus : Option UserLoadStatus := none
  userCount : Nat := 0
  deriving DecidableEq

structure PendingReport where
  idempotencyKey : String
  bodyHash : String
  startedAt : Int
  endedAt : Int
  retryCount : Nat := 0
  report : Option TrafficReport

structure QuarantinedReport where
  pendingReport : PendingReport
  reason : String
  quarantinedAt : Int

structure UpdateState where
  pendingVersion : String := ""
  backupPath : String := ""
  blacklistedVersions : List String := []
  deriving DecidableEq

structure State where
  config : ConfigState := {}
  inbounds : AList (fun _ : String => InboundState) := ∅
  pendingReports : List PendingReport := []
  quarantinedReports : List QuarantinedReport := []
  update : UpdateState := {}

/-- A pending report without the count of its retries. -/
def PendingReport.core (p : PendingReport) : PendingReport := { p with retryCount := 0 }

namespace State

/-- What is pending, and what is quarantined, whatever the retries. -/
def pending (st : State) : List PendingReport := st.pendingReports.map (·.core)

def quarantined (st : State) : List PendingReport :=
  st.quarantinedReports.map (·.pendingReport.core)

end State

end SingBox.Panel
