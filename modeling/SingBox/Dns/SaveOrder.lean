import SingBox.Dns.SaveQueue

/-! What became of the answer that was queued last for a key: the order of
queueing, flushing and clearing under which it is neither lost nor replaced by
one that was cleared. -/

namespace SingBox.Dns
open Lib Function Machine Option

namespace SaveQueue

/-- What concerns one key. -/
structure KeyState where
  entry : Option SaveDNSCacheEntry
  written : Option (Timed Bytes)
  latest : Option (Timed Bytes)
  clears : Nat
  flushers : Nat → Option FlushPhase

def keyState (s : SaveQueue) (key : SaveCacheKey) : KeyState where
  entry := s.saveDNSCache key
  written := s.bucketDNSCache key
  latest := s.latest key
  clears := s.clears
  flushers := fun thread =>
    (s.flushers thread).bind fun f => if f.saveKey = key then some f.phase else none

namespace KeyState

variable (v : KeyState) (thread : Nat) (phase : Option FlushPhase)

def setFlusher : KeyState :=
  { v with flushers := update v.flushers thread phase }

@[simp] lemma setFlusher_self : (v.setFlusher thread phase).flushers thread = phase :=
  update_self ..

@[simp] lemma setFlusher_of_ne {i thread : Nat} (h : i ≠ thread)
    (phase : Option FlushPhase) : (v.setFlusher thread phase).flushers i = v.flushers i :=
  update_of_ne h ..

/-- What the flusher of a queued entry has done for it. -/
def Flushes (e : SaveDNSCacheEntry) : FlushPhase → Prop
  | .reading => True
  | .saving held => e.sequence = held.sequence → e.timed = held.timed
  | .comparing held => e.sequence = held.sequence → v.written = some (savedDNSCache e.timed)

/-- A key is at rest, or it has an entry with one flusher, or it was cleared and
what is left of its flushers writes nothing after the clear. -/
inductive Valid (v : KeyState) : Prop
  | idle (entry : v.entry = none) (clears : v.clears = 0) (flushers : ∀ i, v.flushers i = none)
      (written : v.written = v.latest.map savedDNSCache)
  | queued (e : SaveDNSCacheEntry) (thread : Nat) (phase : FlushPhase)
      (entry : v.entry = some e) (saving : e.saving = true) (latest : v.latest = some e.timed)
      (clears : v.clears = 0) (running : v.flushers thread = some phase)
      (single : ∀ i, i ≠ thread → v.flushers i = none) (flushes : v.Flushes e phase)
  | cleared (entry : v.entry = none) (latest : v.latest = none)
      (written : v.clears = 0 → v.written = none)
      (unsaved : v.clears = 0 → ∀ i e, v.flushers i ≠ some (.saving e))

variable {v : KeyState}

lemma valid_start (thread : Nat) (rawMessage : Bytes) (expireAt : Nat)
    (hclears : v.clears = 0) (hidle : ∀ i, v.flushers i = none) : ({ v with
        entry := some (({} : SaveDNSCacheEntry).queue rawMessage expireAt)
        latest := some ⟨rawMessage, expireAt⟩ }.setFlusher thread (some .reading)).Valid := by
  refine .queued _ thread .reading rfl rfl rfl hclears (setFlusher_self ..) ?_ trivial
  intro i hi
  rw [setFlusher_of_ne _ hi]
  exact hidle i

variable {e : SaveDNSCacheEntry}

/-- A later answer: the flusher that holds an earlier entry will see another
sequence number. -/
theorem Valid.requeue (h : v.Valid) (he : v.entry = some e) (rawMessage : Bytes) (expireAt : Nat)
    (hfresh : ∀ i phase held, v.flushers i = some phase → phase.entry = some held →
      held.sequence ≠ (e.queue rawMessage expireAt).sequence) : { v with
      entry := some (e.queue rawMessage expireAt)
      latest := some ⟨rawMessage, expireAt⟩ : KeyState }.Valid := by
  cases h with
  | idle entry | cleared entry => cases he.symm.trans entry
  | queued e thread phase entry saving latest clears running single flushes =>
    refine .queued _ thread phase rfl rfl rfl clears running single ?_
    cases phase with
    | reading => trivial
    | saving held | comparing held =>
      exact fun hseq => absurd hseq.symm (hfresh _ _ held running rfl)

lemma Valid.finish (h : v.Valid) (he : v.entry = none) (thread : Nat) :
    (v.setFlusher thread none).Valid := by
  cases h with
  | queued e _ _ entry => cases he.symm.trans entry
  | idle entry clears flushers written =>
    refine .idle entry clears ?_ written
    intro i
    by_cases hi : i = thread
    · rw [hi, setFlusher_self]
    · rw [setFlusher_of_ne _ hi, flushers]
  | cleared entry latest written unsaved =>
    refine .cleared entry latest written ?_
    intro clears i e
    by_cases hi : i = thread
    · rw [hi, setFlusher_self]
      exact nofun
    · rw [setFlusher_of_ne _ hi]
      exact unsaved clears i e

variable {thread : Nat}

namespace Valid
variable (h : v.Valid)
include h

variable {phase : FlushPhase}

lemma of_running (he : v.entry = some e) (hrun : v.flushers thread = some phase) :
    e.saving ∧ v.latest = some e.timed ∧ v.clears = 0 ∧
      (∀ i, i ≠ thread → v.flushers i = none) ∧ v.Flushes e phase := by
  cases h with
  | idle entry | cleared entry => cases he.symm.trans entry
  | queued e other _ entry saving latest clears running single flushes =>
    cases he.symm.trans entry
    have hthr : thread = other := by
      by_contra hne
      cases hrun.symm.trans (single thread hne)
    subst hthr
    cases hrun.symm.trans running
    exact ⟨saving, latest, clears, single, flushes⟩

lemma advance (he : v.entry = some e) (hrun : v.flushers thread = some phase) {next : FlushPhase}
    (hnext : v.Flushes e next) : (v.setFlusher thread (some next)).Valid := by
  obtain ⟨saving, latest, clears, single, -⟩ := h.of_running he hrun
  refine .queued e thread next he saving latest clears (setFlusher_self ..) ?_ ?_
  · intro i hi
    rw [setFlusher_of_ne _ hi, single i hi]
  · cases next <;> exact hnext

variable {held : SaveDNSCacheEntry}

/-- A save of the entry that is still the queued one, or of an earlier one, or of
one that was cleared while the file is yet to be. -/
theorem save (hrun : v.flushers thread = some (.saving held)) :
    ({ v with written := some (savedDNSCache held.timed) }.setFlusher thread
      (some (.comparing held))).Valid := by
  cases h with
  | idle _ _ flushers => cases hrun.symm.trans (flushers thread)
  | cleared entry latest written unsaved =>
    have hclears : v.clears ≠ 0 := fun hclears => unsaved hclears thread held hrun
    exact .cleared entry latest (fun h => absurd h hclears) (fun h => absurd h hclears)
  | queued e _ _ entry saving latest clears running single flushes =>
    obtain ⟨-, -, -, single, flushes⟩ :=
      Valid.of_running (.queued e _ _ entry saving latest clears running single flushes)
        entry hrun
    refine .queued e thread (.comparing held) entry saving latest clears (setFlusher_self ..) ?_ ?_
    · intro i hi
      rw [setFlusher_of_ne _ hi]
      exact single i hi
    · intro hseq
      exact congrArg (fun x => some (savedDNSCache x)) (flushes hseq).symm

lemma saved (hrun : v.flushers thread = some (.comparing held))
    (he : v.entry = some e) (hseq : e.sequence = held.sequence) :
    ({ v with entry := none }.setFlusher thread none).Valid := by
  obtain ⟨-, latest, clears, single, flushes⟩ := h.of_running he hrun
  refine .idle rfl clears ?_ ?_
  · intro i
    by_cases hi : i = thread
    · rw [hi, setFlusher_self]
    · rw [setFlusher_of_ne _ hi]
      exact single i hi
  · refine (flushes hseq).trans ?_
    exact (congrArg (Option.map savedDNSCache) latest).symm

end Valid

lemma Valid.delete (h : v.Valid) (hclears : 0 < v.clears)
    (hunsaved : ∀ i e, v.flushers i ≠ some (.saving e)) :
    { v with written := none, clears := v.clears - 1 : KeyState }.Valid := by
  cases h with
  | idle _ clears => omega
  | queued _ _ _ _ _ _ clears => omega
  | cleared entry latest => exact .cleared entry latest (fun _ => rfl) (fun _ => hunsaved)

/-- At rest the file has what was queued last. -/
theorem Valid.load (h : v.Valid) (hclears : v.clears = 0) (hidle : ∀ i, v.flushers i = none) :
    (v.entry.map (·.timed) <|> v.written) = v.latest.map savedDNSCache := by
  cases h with
  | idle entry _ _ written =>
    rw [entry, written]
    rfl
  | queued _ thread _ _ _ _ _ running => cases (hidle thread).symm.trans running
  | cleared entry latest written =>
    rw [entry, latest, written hclears]
    rfl

lemma Valid.kept (h : v.Valid) {x : Timed Bytes} (hx : v.latest = some x) :
    v.entry.map (·.timed) = some x ∨ v.written = some (savedDNSCache x) := by
  cases h with
  | idle _ _ _ written => exact .inr (by rw [written, hx, map_some])
  | queued e _ _ entry _ latest => exact .inl (by rw [entry, map_some, ← latest, hx])
  | cleared _ latest => cases hx.symm.trans latest

end KeyState

/-- The order that the queue relies on, for one key: an answer is queued between
clears, after the last flusher of a cleared entry has ended and under a sequence
number that no flusher holds; the file is cleared between the saves of the key. -/
def Orderly (key : SaveCacheKey) (s : SaveQueue) : Action → Prop
  | .queue _ saveKey rawMessage expireAt => saveKey = key → s.clears = 0 ∧
      (s.saveDNSCache key = none → ∀ i, (s.keyState key).flushers i = none) ∧
      ∀ i phase held, (s.keyState key).flushers i = some phase → phase.entry = some held →
        held.sequence ≠ ((s.entry key).queue rawMessage expireAt).sequence
  | .deleteBucket => ∀ i held, (s.keyState key).flushers i ≠ some (.saving held)
  | .flush _ | .clearPending => True

variable {s t : SaveQueue} {key : SaveCacheKey}

lemma keyState_setFlusher (s : SaveQueue) (thread : Nat) (flusher : Option Flusher)
    (key : SaveCacheKey) : (s.setFlusher thread flusher).keyState key =
      (s.keyState key).setFlusher thread
        (flusher.bind fun f => if f.saveKey = key then some f.phase else none) := by
  simp only [keyState, KeyState.setFlusher, KeyState.mk.injEq]
  refine ⟨rfl, rfl, rfl, rfl, ?_⟩
  funext i
  by_cases hi : i = thread
  · subst hi
    simp [setFlusher]
  · simp [setFlusher, update_of_ne hi]

lemma keyState_queue_self (s : SaveQueue) (key : SaveCacheKey) (rawMessage : Bytes)
    (expireAt : Nat) : (s.queueDNSCacheSave key rawMessage expireAt).1.keyState key =
      { s.keyState key with
        entry := some ((s.entry key).queue rawMessage expireAt)
        latest := some ⟨rawMessage, expireAt⟩ } := by
  simp [queueDNSCacheSave, keyState, Cache.add]

variable {thread : Nat}

lemma keyState_setFlusher_other (s : SaveQueue)
    (hthr : (s.keyState key).flushers thread = none) {flusher : Option Flusher}
    (hflusher : ∀ f, flusher = some f → f.saveKey ≠ key) :
    (s.setFlusher thread flusher).keyState key = s.keyState key := by
  have hphase : (flusher.bind fun f => if f.saveKey = key then some f.phase else none) = none := by
    cases flusher with
    | none => rfl
    | some f => exact if_neg (hflusher f rfl)
  rw [keyState_setFlusher, hphase, KeyState.setFlusher, ← hthr, update_eq_self]

lemma saveDNSCacheAsync_valid {saveKey : SaveCacheKey} {rawMessage : Bytes} {expireAt : Nat}
    (hfree : s.flushers thread = none)
    (ha : Orderly key s (.queue thread saveKey rawMessage expireAt)) (hv : (s.keyState key).Valid) :
    ((s.saveDNSCacheAsync thread saveKey rawMessage expireAt).keyState key).Valid := by
  by_cases hkey : saveKey = key
  · subst hkey
    obtain ⟨hclears, hidle, hfresh⟩ := ha rfl
    cases he : s.saveDNSCache saveKey with
    | none =>
      have hent : s.entry saveKey = {} := by simp [entry, he]
      have hstart : s.saveDNSCacheAsync thread saveKey rawMessage expireAt =
          (s.queueDNSCacheSave saveKey rawMessage expireAt).1.setFlusher thread
            (some ⟨saveKey, .reading⟩) := by
        simp [saveDNSCacheAsync, queueDNSCacheSave, hent]
      rw [hstart, keyState_setFlusher, keyState_queue_self, hent, bind_some, if_pos rfl]
      exact KeyState.valid_start thread rawMessage expireAt hclears (hidle he)
    | some e =>
      have hent : s.entry saveKey = e := by simp [entry, he]
      have hsaving : e.saving := by
        cases hv with
        | idle entry | cleared entry => cases he.symm.trans entry
        | queued e' _ _ entry saving =>
          cases he.symm.trans entry
          exact saving
      have hqueue : s.saveDNSCacheAsync thread saveKey rawMessage expireAt =
          (s.queueDNSCacheSave saveKey rawMessage expireAt).1 := by
        simp [saveDNSCacheAsync, queueDNSCacheSave, hent, hsaving]
      rw [hqueue, keyState_queue_self, hent]
      rw [hent] at hfresh
      exact hv.requeue he rawMessage expireAt hfresh
  · have hfree' : ((s.queueDNSCacheSave saveKey rawMessage expireAt).1.keyState key).flushers
        thread = none := by
      simp [queueDNSCacheSave, keyState, hfree]
    have hother : (s.queueDNSCacheSave saveKey rawMessage expireAt).1.keyState key =
        s.keyState key := by
      simp [queueDNSCacheSave, keyState, Cache.add, Ne.symm hkey]
    dsimp only [saveDNSCacheAsync]
    split
    · rwa [keyState_setFlusher_other _ hfree' (by rintro f ⟨⟩; exact hkey), hother]
    · rwa [hother]

lemma flush_other {f : Flusher} (hf : s.flushers thread = some f) (hkey : f.saveKey ≠ key) :
    (s.flushPendingDNSCache thread f.saveKey f.phase).keyState key = s.keyState key := by
  have hthr : (s.keyState key).flushers thread = none := by simp [keyState, hf, hkey]
  have hset : ∀ next : FlushPhase,
      (s.setFlusher thread (some ⟨f.saveKey, next⟩)).keyState key = s.keyState key :=
    fun next => keyState_setFlusher_other s hthr (by rintro f' ⟨⟩; exact hkey)
  have hend : (s.setFlusher thread none).keyState key = s.keyState key :=
    keyState_setFlusher_other s hthr nofun
  cases hphase : f.phase with
  | reading =>
    cases he : s.saveDNSCache f.saveKey with
    | none => simpa only [flushPendingDNSCache, he] using hend
    | some e => simpa only [flushPendingDNSCache, he] using hset _
  | saving held =>
    rw [← hset (.comparing held)]
    simp [flushPendingDNSCache, keyState, setFlusher, Cache.add, Ne.symm hkey]
  | comparing held =>
    cases he : s.saveDNSCache f.saveKey with
    | none => simpa only [flushPendingDNSCache, he] using hend
    | some e =>
      by_cases hseq : e.sequence = held.sequence
      · rw [← hend]
        simp [flushPendingDNSCache, he, hseq, keyState, setFlusher, Ne.symm hkey]
      · simpa only [flushPendingDNSCache, he, if_neg hseq] using hset .reading

lemma flush_valid {phase : FlushPhase}
    (hf : s.flushers thread = some ⟨key, phase⟩) (hv : (s.keyState key).Valid) :
    ((s.flushPendingDNSCache thread key phase).keyState key).Valid := by
  have hrun : (s.keyState key).flushers thread = some phase := by simp [keyState, hf]
  cases phase with
  | reading =>
    cases he : s.saveDNSCache key with
    | none =>
      simp only [flushPendingDNSCache, he, keyState_setFlusher]
      exact hv.finish he thread
    | some e =>
      simp only [flushPendingDNSCache, he, keyState_setFlusher, bind_some, if_pos]
      exact hv.advance he hrun fun _ => rfl
  | saving held =>
    have hsave : (s.flushPendingDNSCache thread key (.saving held)).keyState key =
        { s.keyState key with written := some (savedDNSCache held.timed) }.setFlusher thread
          (some (.comparing held)) := by
      rw [flushPendingDNSCache, keyState_setFlusher]
      simp [keyState, Cache.add]
    rw [hsave]
    exact hv.save hrun
  | comparing held =>
    cases he : s.saveDNSCache key with
    | none =>
      simp only [flushPendingDNSCache, he, keyState_setFlusher]
      exact hv.finish he thread
    | some e =>
      by_cases hseq : e.sequence = held.sequence
      · have hdelete : (s.flushPendingDNSCache thread key (.comparing held)).keyState key =
            { s.keyState key with entry := none }.setFlusher thread none := by
          simp only [flushPendingDNSCache, he, hseq, if_true, keyState_setFlusher]
          simp [keyState]
        rw [hdelete]
        exact hv.saved hrun he hseq
      · simp only [flushPendingDNSCache, he, if_neg hseq, keyState_setFlusher, bind_some, if_pos]
        exact hv.advance he hrun trivial

lemma step_valid {a : Action} (ha : Orderly key s a) (hstep : step s a = some t)
    (hv : (s.keyState key).Valid) : (t.keyState key).Valid := by
  cases a with
  | queue thread saveKey rawMessage expireAt =>
    obtain ⟨hfree, rfl⟩ := ite_some_none_eq_some.mp hstep
    exact saveDNSCacheAsync_valid (isNone_iff_eq_none.mp hfree) ha hv
  | flush thread =>
    obtain ⟨f, hf, rfl⟩ := map_eq_some_iff.mp hstep
    by_cases hkey : f.saveKey = key
    · subst hkey
      exact flush_valid hf hv
    · rwa [flush_other hf hkey]
  | clearPending =>
    cases hstep
    exact .cleared rfl rfl nofun nofun
  | deleteBucket =>
    obtain ⟨hclears, rfl⟩ := ite_some_none_eq_some.mp hstep
    exact hv.delete hclears ha

/-- For a key whose steps are taken in order: once no flusher of it is left, the
file serves what was queued last since the last clear, and meanwhile that answer
is queued or written. -/
theorem load_latest (key : SaveCacheKey) {s : SaveQueue} (h : Reaches step (Orderly key) {} s) :
    (s.clears = 0 → (∀ i f, s.flushers i = some f → f.saveKey ≠ key) →
      s.file.loadDNSCache key = (s.latest key).map savedDNSCache) ∧
    ∀ x, s.latest key = some x →
      s.file.saveDNSCache key = some x ∨ s.file.bucketDNSCache key = some (savedDNSCache x) := by
  have hv : (s.keyState key).Valid :=
    h.invariant (P := fun s => (s.keyState key).Valid) (.idle rfl rfl (fun _ => rfl) rfl) step_valid
  refine ⟨fun hclears hflushers => hv.load hclears fun i => ?_, fun x hx => hv.kept hx⟩
  cases hf : s.flushers i with
  | none => simp [keyState, hf]
  | some f => simp [keyState, hf, hflushers i f hf]

def sampleKey : SaveCacheKey := ⟨"local", "example.org.", 1⟩

theorem load_latest_of_flushed : ∃ s, Reaches step (Orderly sampleKey) {} s ∧
      s.latest sampleKey = some ⟨[1], 60500⟩ ∧
      s.file.loadDNSCache sampleKey = some ⟨[1], 60000⟩ := by
  have hstart : Reaches step (Orderly sampleKey) {} {} := .start
  have hqueued := hstart.next (a := Action.queue 0 sampleKey [1] 60500)
    (fun _ => ⟨rfl, fun _ _ => rfl, nofun⟩) rfl
  have hread := hqueued.next (a := Action.flush 0) trivial rfl
  have hsaved := hread.next (a := Action.flush 0) trivial rfl
  have hdeleted := hsaved.next (a := Action.flush 0) trivial rfl
  refine ⟨_, hdeleted, rfl, (load_latest sampleKey hdeleted).1 rfl ?_⟩
  rintro (_ | i) f ⟨⟩

/-- A flusher whose entry was cleared after its save finds the answer queued
since under the same sequence number, and deletes it unsaved. -/
theorem cleared_flusher_loses_answer :
    ∃ s, run step {} [.queue 0 sampleKey [1] 60000, .flush 0, .flush 0,
        .clearPending, .deleteBucket, .queue 1 sampleKey [2] 90000, .flush 0, .flush 1] = some s ∧
      s.clears = 0 ∧ (∀ i, s.flushers i = none) ∧
      s.latest sampleKey = some ⟨[2], 90000⟩ ∧ s.file.loadDNSCache sampleKey = none := by
  refine ⟨_, rfl, rfl, ?_, rfl, rfl⟩
  rintro (_ | _ | i) <;> rfl

/-- A save that a clear overtakes brings a cleared answer back. -/
example : (run step {} [.queue 0 sampleKey [1] 60000, .flush 0, .clearPending,
    .deleteBucket, .flush 0, .flush 0]).map (fun s =>
      ((s.latest sampleKey).isSome, (s.file.loadDNSCache sampleKey).map (·.value))) =
    some (false, some [1]) := rfl

end SaveQueue

end SingBox.Dns
