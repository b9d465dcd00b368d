import SingBox.Dns.CacheFile
import SingBox.Lib.Machine

/-! The answers on their way to the cache file: a queued answer carries a
sequence number, a key has a flusher of its own, and a clear empties the queue
and the file one after the other. -/

namespace SingBox.Dns
open Lib Function Option Cache

/-- A sequence number is a uint64. -/
def sequenceLimit : Nat := 0x10000000000000000

structure SaveDNSCacheEntry where
  rawMessage : Bytes := []
  expireAt : Nat := 0
  sequence : Nat := 0
  saving : Bool := false
  deriving DecidableEq

namespace SaveDNSCacheEntry

variable (e : SaveDNSCacheEntry)

def timed : Timed Bytes := ⟨e.rawMessage, e.expireAt⟩

/-- `queueDNSCacheSave` on the entry that the map holds, or on the zero entry. -/
def queue (rawMessage : Bytes) (expireAt : Nat) : SaveDNSCacheEntry :=
  { rawMessage, expireAt, sequence := (e.sequence + 1) % sequenceLimit, saving := true }

end SaveDNSCacheEntry

/-- What `SaveDNSCache` writes: the file keeps whole seconds. -/
def savedDNSCache (v : Timed Bytes) : Timed Bytes :=
  { v with expireAt := v.expireAt / second * second }

/-- How far an iteration of `flushPendingDNSCacheWith` is. -/
inductive FlushPhase
  | reading
  | saving (entry : SaveDNSCacheEntry)
  | comparing (entry : SaveDNSCacheEntry)
  deriving DecidableEq

def FlushPhase.entry : FlushPhase → Option SaveDNSCacheEntry
  | .reading => none
  | .saving entry | .comparing entry => some entry

structure Flusher where
  saveKey : SaveCacheKey
  phase : FlushPhase
  deriving DecidableEq

/-- The queue, the file, the running flushers, the clears between their halves;
and, for each key, what was queued last since the last clear. -/
structure SaveQueue where
  saveDNSCache : SaveCacheKey → Option SaveDNSCacheEntry := fun _ => none
  bucketDNSCache : Cache SaveCacheKey Bytes := .empty
  flushers : Nat → Option Flusher := fun _ => none
  clears : Nat := 0
  latest : Cache SaveCacheKey Bytes := .empty

namespace SaveQueue

inductive Action
  | queue (thread : Nat) (saveKey : SaveCacheKey) (rawMessage : Bytes) (expireAt : Nat)
  | flush (thread : Nat)
  | clearPending
  | deleteBucket

variable (s : SaveQueue) (saveKey : SaveCacheKey)

/-- The entry of a key, as `entry := c.saveDNSCache[saveKey]` reads it. -/
def entry : SaveDNSCacheEntry := (s.saveDNSCache saveKey).getD {}

variable (rawMessage : Bytes) (expireAt : Nat) (thread : Nat)

def queueDNSCacheSave : SaveQueue × Bool :=
  ({ s with
      saveDNSCache := update s.saveDNSCache saveKey
        (some ((s.entry saveKey).queue rawMessage expireAt))
      latest := s.latest.add saveKey ⟨rawMessage, expireAt⟩ },
    !(s.entry saveKey).saving)

def setFlusher (flusher : Option Flusher) : SaveQueue :=
  { s with flushers := update s.flushers thread flusher }

variable (saveKey : SaveCacheKey)

/-- `SaveDNSCacheAsync`: the flusher that it starts runs on its own. -/
def saveDNSCacheAsync (rawMessage : Bytes) (expireAt : Nat) : SaveQueue :=
  let queued := s.queueDNSCacheSave saveKey rawMessage expireAt
  if queued.2 then queued.1.setFlusher thread (some ⟨saveKey, .reading⟩) else queued.1

/-- What a flusher does next in `flushPendingDNSCacheWith`. -/
def flushPendingDNSCache : FlushPhase → SaveQueue
  | .reading =>
    match s.saveDNSCache saveKey with
    | none => s.setFlusher thread none
    | some entry => s.setFlusher thread (some ⟨saveKey, .saving entry⟩)
  | .saving entry =>
    { s with bucketDNSCache := s.bucketDNSCache.add saveKey (savedDNSCache entry.timed) }.setFlusher
      thread (some ⟨saveKey, .comparing entry⟩)
  | .comparing entry =>
    match s.saveDNSCache saveKey with
    | none => s.setFlusher thread none
    | some currentEntry =>
      if currentEntry.sequence = entry.sequence then
        { s with saveDNSCache := update s.saveDNSCache saveKey none }.setFlusher thread none
      else s.setFlusher thread (some ⟨saveKey, .reading⟩)

/-- The first half of `ClearDNSCache`. -/
def clearPending : SaveQueue :=
  { s with saveDNSCache := fun _ => none, latest := .empty, clears := s.clears + 1 }

/-- The second half of `ClearDNSCache`. -/
def deleteBucket : SaveQueue := { s with bucketDNSCache := .empty, clears := s.clears - 1 }

def step : Machine SaveQueue Action
  | s, .queue thread saveKey rawMessage expireAt =>
    if (s.flushers thread).isNone then
      some (s.saveDNSCacheAsync thread saveKey rawMessage expireAt)
    else none
  | s, .flush thread =>
    (s.flushers thread).map fun f => s.flushPendingDNSCache thread f.saveKey f.phase
  | s, .clearPending => some s.clearPending
  | s, .deleteBucket => if 0 < s.clears then some s.deleteBucket else none

/-- The file as the clients of the cache see it. -/
def file : CacheFile where
  saveDNSCache := fun saveKey => (s.saveDNSCache saveKey).map (·.timed)
  bucketDNSCache := s.bucketDNSCache

/-! The clients of the file count on one thing: what the file serves for a key
was queued for it. No order of the steps can break that. -/

lemma file_queue : (s.queueDNSCacheSave saveKey rawMessage expireAt).1.file =
      s.file.saveDNSCacheAsync saveKey ⟨rawMessage, expireAt⟩ := by
  simp only [file, queueDNSCacheSave, CacheFile.saveDNSCacheAsync, CacheFile.mk.injEq, and_true]
  funext k
  by_cases hk : k = saveKey
  · subst hk
    simp [Cache.add, SaveDNSCacheEntry.queue, SaveDNSCacheEntry.timed]
  · simp [Cache.add, hk]

lemma file_delete (s : SaveQueue) (saveKey : SaveCacheKey) :
    { s with saveDNSCache := update s.saveDNSCache saveKey none }.file =
      s.file.flushedDNSCache saveKey := by
  simp only [file, CacheFile.flushedDNSCache, CacheFile.mk.injEq, and_true]
  funext k
  by_cases hk : k = saveKey
  · subst hk
    simp [Cache.remove]
  · simp [Cache.remove, hk]

variable {s t : SaveQueue}

/-- Every answer that is queued, written or held by a flusher stands in the
relation to its key. -/
structure Holds (P : SaveCacheKey → Bytes → Prop) (s : SaveQueue) : Prop where
  file : s.file.Holds P
  held : ∀ {i saveKey phase e}, s.flushers i = some ⟨saveKey, phase⟩ → phase.entry = some e →
    P saveKey e.rawMessage

variable {P : SaveCacheKey → Bytes → Prop}

namespace Holds
variable (h : s.Holds P)
include h

lemma setFlusher (thread : Nat) {flusher : Option Flusher}
    (hheld : ∀ saveKey phase e, flusher = some ⟨saveKey, phase⟩ → phase.entry = some e →
      P saveKey e.rawMessage) : (s.setFlusher thread flusher).Holds P := by
  refine ⟨h.file, ?_⟩
  intro i saveKey phase e hi he
  dsimp only [SaveQueue.setFlusher] at hi
  by_cases hthr : i = thread
  · subst hthr
    rw [update_self] at hi
    exact hheld saveKey phase e hi he
  · rw [update_of_ne hthr] at hi
    exact h.held hi he

variable {saveKey : SaveCacheKey}

lemma queue (thread : Nat) {rawMessage : Bytes} (expireAt : Nat) (hP : P saveKey rawMessage) :
    (s.saveDNSCacheAsync thread saveKey rawMessage expireAt).Holds P := by
  have hqueued : (s.queueDNSCacheSave saveKey rawMessage expireAt).1.Holds P := by
    refine ⟨?_, h.held⟩
    rw [file_queue]
    exact h.file.save hP
  dsimp only [saveDNSCacheAsync]
  split
  · apply hqueued.setFlusher
    rintro saveKey phase e ⟨⟩ he
    cases he
  · exact hqueued

lemma flush {thread : Nat} {phase : FlushPhase} (hf : s.flushers thread = some ⟨saveKey, phase⟩) :
    (s.flushPendingDNSCache thread saveKey phase).Holds P := by
  have hend : ∀ {s : SaveQueue}, s.Holds P → (s.setFlusher thread none).Holds P :=
    fun h => h.setFlusher thread nofun
  cases phase with
  | reading =>
    cases he : s.saveDNSCache saveKey with
    | none => simpa only [flushPendingDNSCache, he] using hend h
    | some entry =>
      simp only [flushPendingDNSCache, he]
      apply h.setFlusher
      rintro saveKey phase e ⟨⟩ ⟨⟩
      exact h.file.queued saveKey entry.timed (by simp [SaveQueue.file, he])
  | saving entry =>
    have hent : P saveKey entry.rawMessage := h.held hf rfl
    have hsaved : { s with
        bucketDNSCache := s.bucketDNSCache.add saveKey (savedDNSCache entry.timed) }.Holds P :=
      ⟨⟨h.file.queued, h.file.written.add hent⟩, h.held⟩
    apply hsaved.setFlusher
    rintro saveKey phase e ⟨⟩ ⟨⟩
    exact hent
  | comparing entry =>
    cases he : s.saveDNSCache saveKey with
    | none => simpa only [flushPendingDNSCache, he] using hend h
    | some current =>
      by_cases hseq : current.sequence = entry.sequence
      · have hdeleted : { s with
            saveDNSCache := update s.saveDNSCache saveKey none }.Holds P := by
          refine ⟨?_, h.held⟩
          rw [file_delete]
          exact h.file.flushed saveKey
        simpa only [flushPendingDNSCache, he, if_pos hseq] using hend hdeleted
      · simp only [flushPendingDNSCache, he, if_neg hseq]
        apply h.setFlusher
        rintro saveKey phase e ⟨⟩ he
        cases he

lemma step {a : Action}
    (ha : ∀ thread saveKey rawMessage expireAt, a = .queue thread saveKey rawMessage expireAt →
      P saveKey rawMessage) (hstep : step s a = some t) : t.Holds P := by
  cases a with
  | queue thread saveKey rawMessage expireAt =>
    obtain ⟨-, ht⟩ := ite_none_right_eq_some.mp hstep
    cases ht
    exact h.queue thread expireAt (ha thread saveKey rawMessage expireAt rfl)
  | flush thread =>
    obtain ⟨f, hf, rfl⟩ := map_eq_some_iff.mp hstep
    exact h.flush hf
  | clearPending =>
    cases hstep
    exact ⟨⟨holds_empty, h.file.written⟩, h.held⟩
  | deleteBucket =>
    obtain ⟨-, ht⟩ := ite_none_right_eq_some.mp hstep
    cases ht
    exact ⟨⟨h.file.queued, holds_empty⟩, h.held⟩

end Holds

/-- Whatever the order of queueing, flushing and clearing, the file serves for a
key only what was queued for it. -/
theorem load_holds (key : SaveCacheKey)
    (h : Machine.Reaches step (fun _ a => ∀ thread saveKey rawMessage expireAt,
      a = .queue thread saveKey rawMessage expireAt → P saveKey rawMessage) {} s)
    {e : Timed Bytes} (he : s.file.loadDNSCache key = some e) : P key e.value := by
  have hs : s.Holds P := h.invariant (P := Holds P)
    ⟨⟨holds_empty, holds_empty⟩, nofun⟩ (fun ha hstep hs => hs.step ha hstep)
  exact hs.file.load he

/-- A flusher has read the answer before a clear, and writes it after it. -/
theorem load_holds_queued : ∃ s e, Machine.run step {} [.queue 0 ⟨"", "", 1⟩ [7] 60, .flush 0,
      .clearPending, .deleteBucket, .flush 0, .flush 0] = some s ∧
    s.file.loadDNSCache ⟨"", "", 1⟩ = some e ∧ e.value = [7] := by
  obtain ⟨s, hs, e, he⟩ : ∃ s, Machine.run step {} [.queue 0 ⟨"", "", 1⟩ [7] 60, .flush 0,
        .clearPending, .deleteBucket, .flush 0, .flush 0] = some s ∧
      ∃ e, s.file.loadDNSCache ⟨"", "", 1⟩ = some e := ⟨_, rfl, _, rfl⟩
  refine ⟨s, e, hs, he, load_holds (P := fun _ raw => raw = [7]) ⟨"", "", 1⟩
    (Machine.Reaches.start.run (fun _ a ha _ _ _ _ hqueue => ?_) hs) he⟩
  subst hqueue
  simp at ha
  exact ha.2.2.1

end SaveQueue

end SingBox.Dns
