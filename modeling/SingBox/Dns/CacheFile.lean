import Mathlib.Data.Option.Basic
import SingBox.Lib.Cache

/-! The cache file: answers and rejections are queued in memory and written to
the buckets of the file by a flush of their own. -/

namespace SingBox.Dns
open Lib Function

structure SaveCacheKey where
  transportName : String
  questionName : String
  qType : Nat
  deriving DecidableEq

abbrev Bytes := List UInt8

/-- Time is counted in milliseconds. -/
def second : Nat := 1000

structure CacheFile where
  saveDNSCache : Cache SaveCacheKey Bytes := .empty
  bucketDNSCache : Cache SaveCacheKey Bytes := .empty
  saveRDRC : SaveCacheKey → Bool := fun _ => false
  bucketRDRC : SaveCacheKey → Option Nat := fun _ => none

namespace CacheFile

variable (f : CacheFile) (key : SaveCacheKey)

/-- `LoadDNSCache`: what is queued comes before what is written. -/
def loadDNSCache : Option (Timed Bytes) := f.saveDNSCache key <|> f.bucketDNSCache key

/-- `SaveDNSCacheAsync`, up to the flush. -/
def saveDNSCacheAsync (entry : Timed Bytes) : CacheFile :=
  { f with saveDNSCache := f.saveDNSCache.add key entry }

/-- `SaveDNSCache` on the queued entry: the file keeps whole seconds. -/
def flushDNSCache : CacheFile :=
  match f.saveDNSCache key with
  | none => f
  | some entry =>
    { f with bucketDNSCache :=
        f.bucketDNSCache.add key { entry with expireAt := entry.expireAt / second * second } }

/-- The end of `flushPendingDNSCache`, reached after a failed write too. -/
def flushedDNSCache : CacheFile := { f with saveDNSCache := f.saveDNSCache.remove key }

def cleanupDNSCache : CacheFile := { f with bucketDNSCache := f.bucketDNSCache.remove key }

def clearDNSCache : CacheFile := { f with saveDNSCache := .empty, bucketDNSCache := .empty }

/-- `LoadRDRC`: a queued rejection holds, a written one until its time. -/
def loadRDRC (now : Nat) : Bool :=
  f.saveRDRC key || (f.bucketRDRC key).any fun expiresAt => decide (now ≤ expiresAt)

/-- `SaveRDRCAsync`, up to the write. -/
def saveRDRCAsync : CacheFile := { f with saveRDRC := update f.saveRDRC key true }

/-- `SaveRDRC`. -/
def flushRDRC (now rdrcTimeout : Nat) : CacheFile :=
  if f.saveRDRC key then
    { f with bucketRDRC := update f.bucketRDRC key (some ((now + rdrcTimeout) / second * second)) }
  else f

/-- The end of the write that `SaveRDRCAsync` starts. -/
def flushedRDRC : CacheFile := { f with saveRDRC := update f.saveRDRC key false }

/-- Every answer of the file, queued or written, stands in the relation to the
key it is saved under. -/
structure Holds (P : SaveCacheKey → Bytes → Prop) (f : CacheFile) : Prop where
  queued : f.saveDNSCache.Holds P
  written : f.bucketDNSCache.Holds P

variable {P : SaveCacheKey → Bytes → Prop} {f : CacheFile}

namespace Holds
variable (h : f.Holds P)
include h

variable {key : SaveCacheKey} {e : Timed Bytes}

lemma load (he : f.loadDNSCache key = some e) : P key e.value := by
  obtain hqueued | ⟨-, hwritten⟩ := (Option.orElse_eq_some _ _ _).mp he
  · exact h.queued key e hqueued
  · exact h.written key e hwritten

lemma save (he : P key e.value) : (f.saveDNSCacheAsync key e).Holds P :=
  ⟨h.queued.add he, h.written⟩

variable (key : SaveCacheKey)

lemma flush : (f.flushDNSCache key).Holds P := by
  unfold flushDNSCache
  cases he : f.saveDNSCache key with
  | none => exact h
  | some e => exact ⟨h.queued, h.written.add (h.queued key e he)⟩

lemma flushed : (f.flushedDNSCache key).Holds P :=
  ⟨h.queued.remove key, h.written⟩

lemma cleanup : (f.cleanupDNSCache key).Holds P :=
  ⟨h.queued, h.written.remove key⟩

end Holds

lemma holds_clear : f.clearDNSCache.Holds P := ⟨Cache.holds_empty, Cache.holds_empty⟩

lemma Holds.flushRDRC (h : f.Holds P) (key : SaveCacheKey) (now rdrcTimeout : Nat) :
    (f.flushRDRC key now rdrcTimeout).Holds P := by
  unfold CacheFile.flushRDRC
  split
  · exact { h with }
  · exact h

end CacheFile

end SingBox.Dns
