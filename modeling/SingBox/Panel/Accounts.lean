import SingBox.Lib.Machine
import SingBox.Panel.Tracker

/-! The tracker and the connections that count on it: counters in use stay in
the live map, and every byte counted is there or was subtracted. -/

namespace SingBox.Panel
open Option List Function AList Tracker

inductive Wrapper
  | connection
  | packetConnection
  | flow
  deriving DecidableEq

/-- The part of an inbound context that the tracker reads. -/
structure Metadata where
  inbound : String
  userID : String
  user : String
  deriving DecidableEq

/-- `RoutedConnection`, `RoutedPacketConnection` and `RoutedFlow`. -/
def Tracker.routed (t : Tracker) (wrapper : Wrapper) (metadata : Metadata) :
    Tracker × Option CountersRef :=
  let userID := if metadata.userID = "" then metadata.user else metadata.userID
  match wrapper with
  | .connection => t.trackConnection metadata.inbound userID
  | .packetConnection => t.trackPacketConnection metadata.inbound userID
  | .flow => t.trackFlow metadata.inbound userID

/-- The counters that open connections hold, those of connections half closed, and
what was counted for each key. -/
structure Accounts where
  tracker : Tracker
  opened : List CountersRef := []
  closing : List CountersRef := []
  counted : Key → Traffic := 0

inductive Activity
  | routed (wrapper : Wrapper) (metadata : Metadata)
  | count (c : CountersRef) (n : Direction → Nat)
  | close (c : CountersRef)
  | closed (c : CountersRef)

namespace Accounts

variable (a : Accounts)

def withTracker (t : Tracker) : Accounts := { a with tracker := t }

def routed (a : Accounts) (wrapper : Wrapper) (metadata : Metadata) : Accounts :=
  let r := a.tracker.routed wrapper metadata
  { a with tracker := r.1, opened := r.2.toList ++ a.opened }

def count (a : Accounts) (c : CountersRef) (n : Traffic) : Accounts :=
  { a with
    tracker := a.tracker.count c n
    counted := update a.counted c.key (a.counted c.key + n) }

def close (c : CountersRef) : Accounts :=
  { a with
    tracker := a.tracker.releaseActive c
    opened := a.opened.erase c
    closing := c :: a.closing }

def closed (c : CountersRef) : Accounts :=
  { a with tracker := a.tracker.releaseCounters c, closing := a.closing.erase c }

/-- Only open connections count. Closing one takes two steps: it is no longer
active, and then its counters may be dropped. -/
def activity : Activity → Option Accounts
  | .routed wrapper metadata => some (a.routed wrapper metadata)
  | .count c n => if c ∈ a.opened then some (a.count c fun d => n d) else none
  | .close c => if c ∈ a.opened then some (a.close c) else none
  | .closed c => if c ∈ a.closing then some (a.closed c) else none

end Accounts

namespace Tracker

variable {t : Tracker} {k : Key} {c : CountersRef} {opened : List CountersRef}

/-- The counters of open connections are live, and know how many use them. -/
structure Wired (t : Tracker) (opened : List CountersRef) : Prop where
  allocated : ∀ {k serial}, t.live.lookup k = some serial → serial < t.allocated
  live : ∀ {c}, c ∈ opened → t.IsLive c
  active : ∀ c, (t.counters c).active = opened.count c
  users : ∀ {k}, t.live.lookup k ≠ none → k.userID ≠ ""

section
variable (h : t.Wired opened)
include h

lemma Wired.count (c : CountersRef) (n : Traffic) : (t.count c n).Wired opened := by
  refine { h with active := fun c' => ?_ }
  rw [← h.active c']
  by_cases hc : c' = c
  · subst hc
    rw [Tracker.count, modify_self]
    rfl
  · rw [Tracker.count, modify_other _ t hc]

lemma Wired.close (hc : c ∈ opened) : (t.releaseActive c).Wired (opened.erase c) := by
  refine ⟨h.allocated, fun hc' => h.live (mem_of_mem_erase hc'), fun c' => ?_, h.users⟩
  by_cases hne : c' = c
  · subst hne
    have hpos : 0 < opened.count c' := count_pos_iff.mpr hc
    rw [releaseActive, modify_self, count_erase_self]
    simp only [Counters.addActive, h.active]
    omega
  · rw [releaseActive, modify_other _ t hne, h.active, count_erase_of_ne hne]

/-- Counters that an open connection holds are never idle. -/
theorem Wired.dropIdle (hlive : t.IsLive c) : (t.dropIdle c).Wired opened := by
  unfold Tracker.dropIdle
  split
  · next hidle =>
    have hunused : c ∉ opened := by
      have hact := h.active c
      rw [Counters.active_of_isIdle hidle] at hact
      exact count_eq_zero.mp (by omega)
    have hlookup : ∀ {k serial}, (t.live.erase c.key).lookup k = some serial →
        t.live.lookup k = some serial := by
      intro k serial hk
      by_cases hkey : k = c.key
      · subst hkey
        simp [lookup_erase] at hk
      · rwa [lookup_erase_ne hkey] at hk
    refine ⟨fun hk => h.allocated (hlookup hk), ?_, h.active, ?_⟩
    · intro c' hc'
      have hlive' := h.live hc'
      have hkey : c'.key ≠ c.key := by
        intro hkey
        have hserial : c'.serial = c.serial := by
          have hsome := hlive'
          rw [IsLive, hkey, hlive] at hsome
          exact (some.inj hsome).symm
        exact hunused (CountersRef.ext hkey hserial ▸ hc')
      exact (lookup_erase_ne hkey).trans hlive'
    · intro k hk
      obtain ⟨serial, hserial⟩ := ne_none_iff_exists'.mp hk
      apply h.users
      rw [hlookup hserial]
      exact some_ne_none serial
  · exact h

lemma Wired.closed (c : CountersRef) : (t.releaseCounters c).Wired opened := by
  unfold releaseCounters
  split
  · next hlive => exact h.dropIdle hlive
  · exact h

lemma Wired.subtract (k : Key) (snap : Traffic) : (t.subtract k snap).Wired opened := by
  unfold Tracker.subtract
  split
  · exact h
  · next serial hk =>
    have htake : (t.take ⟨k, serial⟩ snap).Wired opened :=
      { h with active := (h.count ⟨k, serial⟩ (-snap)).active }
    exact htake.dropIdle hk

lemma Wired.foldl_subtract (entries : List (Key × Traffic)) :
    (entries.foldl (fun t e => t.subtract e.1 e.2) t).Wired opened := by
  induction entries generalizing t with
  | nil => exact h
  | cons e entries ih => exact ih (h.subtract e.1 e.2)

lemma Wired.getOrCreateCounters (hk : k.userID ≠ "") : (t.getOrCreateCounters k).1.Wired opened ∧
      (t.getOrCreateCounters k).1.IsLive (t.getOrCreateCounters k).2 := by
  unfold Tracker.getOrCreateCounters
  cases hlookup : t.live.lookup k with
  | some serial => exact ⟨h, hlookup⟩
  | none =>
    have hother : ∀ {k'}, t.live.lookup k' ≠ none → k' ≠ k := by
      rintro _ hk' rfl
      exact hk' hlookup
    have hnew : (⟨k, t.allocated⟩ : CountersRef) ∉ opened := by
      intro hopened
      cases hlookup.symm.trans (h.live hopened)
    refine ⟨⟨?_, ?_, ?_, ?_⟩, lookup_insert _⟩
    · intro k' serial hk'
      by_cases hkey : k' = k
      · subst hkey
        rw [lookup_insert, some.injEq] at hk'
        dsimp only
        omega
      · rw [lookup_insert_ne hkey] at hk'
        exact Nat.lt_succ_of_lt (h.allocated hk')
    · intro c hc
      have hlive := h.live hc
      have hkey : c.key ≠ k := hother (hlive ▸ some_ne_none _)
      exact (lookup_insert_ne hkey).trans hlive
    · intro c
      by_cases hc : c = ⟨k, t.allocated⟩
      · subst hc
        simp [count_eq_zero.mpr hnew]
      · simpa [update_of_ne hc] using h.active c
    · intro k' hk'
      by_cases hkey : k' = k
      · subst hkey
        exact hk
      · rw [lookup_insert_ne hkey] at hk'
        exact h.users hk'

lemma Wired.open (hlive : t.IsLive c) : (t.modify c (·.addActive 1)).Wired (c :: opened) := by
  refine ⟨h.allocated, ?_, ?_, h.users⟩
  · intro c' hc'
    obtain rfl | hc' := mem_cons.mp hc'
    · exact hlive
    · exact h.live hc'
  · intro c'
    by_cases hc : c' = c
    · subst hc
      simp [Counters.addActive, h.active]
    · rw [modify_other _ t hc, count_cons_of_ne (Ne.symm hc)]
      exact h.active c'

lemma Wired.track (inboundTag userID : String) :
    (t.track inboundTag userID).1.Wired ((t.track inboundTag userID).2.toList ++ opened) := by
  unfold Tracker.track
  split
  · exact h
  · next huser =>
    split
    · exact h
    · obtain ⟨hwired, hlive⟩ := h.getOrCreateCounters (k := ⟨inboundTag, userID⟩) huser
      exact hwired.open hlive

end

lemma routed_eq_track (t : Tracker) (wrapper : Wrapper) (metadata : Metadata) :
    t.routed wrapper metadata = t.track metadata.inbound
      (if metadata.userID = "" then metadata.user else metadata.userID) := by
  cases wrapper <;> rfl

variable {order : List Key}

lemma amount_snapshot (t : Tracker) (horder : order.Perm t.live.keys) (k : Key) :
    amount (order.map fun k => (k, t.bytes k)) k = t.bytes k := by
  rw [amount_map (horder.nodup_iff.mpr t.live.keys_nodup)]
  split
  · rfl
  · next hk =>
    have habsent : k ∉ t.live := fun hmem => hk (horder.mem_iff.mpr hmem)
    exact (bytes_of_absent (lookup_eq_none.mpr habsent)).symm

lemma record_spec {r : TrafficRecord} (h : t.record k = some r) :
    r.source = ⟨t.process, k, t.removed k⟩ ∧ r.bytes = t.bytes k := by
  unfold record at h
  split at h
  · cases h
  · split at h
    · cases h
    · cases h
      refine ⟨rfl, funext fun d => ?_⟩
      cases d <;> rfl

/-- A report has the bytes of the keys that it has a record for. -/
theorem carried_stageForReport (t : Tracker) (horder : order.Perm t.live.keys)
    (startedAt endedAt : Int) (configRevision : String) (k : Key) :
    (t.stageForReport order startedAt endedAt configRevision).2.carried k =
      if (t.record k).isSome then t.bytes k else 0 := by
  have hsrc : ∀ k r, t.record k = some r → r.source.key = k := by
    intro k r hr
    rw [(record_spec hr).1]
  have hkeys := horder.nodup_iff.mpr t.live.keys_nodup
  refine (amount_records hkeys hsrc k).trans ?_
  cases hr : t.record k with
  | none => simp
  | some r =>
    rw [map_some, getD_some, (record_spec hr).2, isSome_some, if_pos rfl]
    split
    · rfl
    · next hk =>
      have habsent : k ∉ t.live := fun hmem => hk (horder.mem_iff.mpr hmem)
      exact (bytes_of_absent (lookup_eq_none.mpr habsent)).symm

/-- What was staged can be subtracted. -/
def Fits (t : Tracker) (s : StagedSnapshot) : Prop :=
  (∀ e ∈ s.snapshot, 0 ≤ e.2) ∧ ∀ k, amount s.snapshot k ≤ t.bytes k

/-- A step that takes no part in the staging and takes no bytes away. -/
structure Grows (t t' : Tracker) : Prop where
  mapping : t'.inboundMapping = t.inboundMapping
  process : t'.process = t.process
  staged : t'.staged = t.staged
  removed : t'.removed = t.removed
  bytes : ∀ k, t.bytes k ≤ t'.bytes k

lemma Grows.refl (t : Tracker) : t.Grows t := ⟨rfl, rfl, rfl, rfl, fun _ => le_refl _⟩

lemma grows_track (t : Tracker) (inboundTag userID : String) :
    t.Grows (t.track inboundTag userID).1 := by
  have hbytes := fun k => le_of_eq (t.bytes_track inboundTag userID k).symm
  suffices h : ∀ k, (t.getOrCreateCounters k).1.inboundMapping = t.inboundMapping ∧
      (t.getOrCreateCounters k).1.process = t.process ∧
      (t.getOrCreateCounters k).1.staged = t.staged ∧
      (t.getOrCreateCounters k).1.removed = t.removed by
    revert hbytes
    unfold track
    split
    · exact fun _ => .refl t
    · split
      · exact fun _ => .refl t
      · obtain ⟨hmapping, hproc, hstaged, hrem⟩ := h ⟨inboundTag, userID⟩
        exact fun hbytes => ⟨hmapping, hproc, hstaged, hrem, hbytes⟩
  intro k
  unfold getOrCreateCounters
  split <;> exact ⟨rfl, rfl, rfl, rfl⟩

lemma grows_count (t : Tracker) (c : CountersRef) {n : Traffic} (hn : 0 ≤ n) :
    t.Grows (t.count c n) := by
  refine ⟨rfl, rfl, rfl, rfl, fun k => ?_⟩
  by_cases h : t.IsLive c ∧ c.key = k
  · obtain ⟨hlive, rfl⟩ := h
    rw [bytes_count_self n hlive]
    exact le_add_of_nonneg_right hn
  · exact le_of_eq (bytes_count_other n fun hlive hk => h ⟨hlive, hk⟩).symm

lemma grows_releaseCounters (t : Tracker) (c : CountersRef) : t.Grows (t.releaseCounters c) := by
  have hbytes := fun k => le_of_eq (t.bytes_releaseCounters c k).symm
  revert hbytes
  unfold releaseCounters dropIdle
  split
  · split
    · exact fun hbytes => ⟨rfl, rfl, rfl, rfl, hbytes⟩
    · exact fun _ => .refl t
  · exact fun _ => .refl t

end Tracker

namespace Accounts

/-- Counters in use are live, what is staged is there, and the books balance. -/
structure Valid (a : Accounts) : Prop where
  wired : a.tracker.Wired a.opened
  nonneg : ∀ k, 0 ≤ a.tracker.bytes k
  fits : ∀ s, a.tracker.staged = some s → a.tracker.Fits s
  books : ∀ k, a.counted k = a.tracker.bytes k + a.tracker.removed k

variable {a b : Accounts}

namespace Valid
variable (h : a.Valid)
include h

lemma of_grows (hab : a.tracker.Grows b.tracker) (hwired : b.tracker.Wired b.opened)
    (hbooks : ∀ k, b.counted k + a.tracker.bytes k = a.counted k + b.tracker.bytes k) :
    b.Valid := by
  refine ⟨hwired, fun k => le_trans (h.nonneg k) (hab.bytes k), ?_, ?_⟩
  · intro s hs
    rw [hab.staged] at hs
    obtain ⟨hpos, hle⟩ := h.fits s hs
    exact ⟨hpos, fun k => le_trans (hle k) (hab.bytes k)⟩
  · intro k
    funext d
    have hb := congrFun (hbooks k) d
    have ha := congrFun (h.books k) d
    simp only [Pi.add_apply, hab.removed] at hb ha ⊢
    omega

lemma routed (wrapper : Wrapper) (metadata : Metadata) : (a.routed wrapper metadata).Valid ∧
      a.tracker.Grows (a.routed wrapper metadata).tracker := by
  unfold Accounts.routed
  rw [routed_eq_track]
  have hgrows := a.tracker.grows_track metadata.inbound
    (if metadata.userID = "" then metadata.user else metadata.userID)
  refine ⟨h.of_grows hgrows (h.wired.track _ _) fun k => ?_, hgrows⟩
  rw [bytes_track]

variable {c : CountersRef}

lemma count (hc : c ∈ a.opened) {n : Traffic}
    (hn : 0 ≤ n) : (a.count c n).Valid ∧ a.tracker.Grows (a.count c n).tracker := by
  have hlive := h.wired.live hc
  have hgrows := a.tracker.grows_count c hn
  refine ⟨h.of_grows hgrows (h.wired.count c n) fun k => ?_, hgrows⟩
  by_cases hk : k = c.key
  · subst hk
    simp only [Accounts.count, update_self, bytes_count_self n hlive]
    rw [add_right_comm, add_assoc]
  · have hbytes := bytes_count_other (t := a.tracker) n fun _ => Ne.symm hk
    simp [Accounts.count, update_of_ne hk, hbytes]

lemma close (hc : c ∈ a.opened) : (a.close c).Valid ∧ a.tracker.Grows (a.close c).tracker := by
  have hbytes := a.tracker.bytes_addActive c (-1)
  have hgrows : a.tracker.Grows (a.tracker.releaseActive c) :=
    ⟨rfl, rfl, rfl, rfl, fun k => le_of_eq (hbytes k).symm⟩
  refine ⟨h.of_grows hgrows (h.wired.close hc) fun k => ?_, hgrows⟩
  exact congrArg (a.counted k + ·) (hbytes k).symm

lemma closed (c : CountersRef) : (a.closed c).Valid ∧ a.tracker.Grows (a.closed c).tracker := by
  have hgrows := a.tracker.grows_releaseCounters c
  refine ⟨h.of_grows hgrows (h.wired.closed c) fun k => ?_, hgrows⟩
  exact congrArg (a.counted k + ·) (a.tracker.bytes_releaseCounters c k).symm

/-- Whatever connections do, counters in use stay live and the books balance. -/
theorem activity {x : Activity} (hb : a.activity x = some b) :
    b.Valid ∧ a.tracker.Grows b.tracker := by
  cases x with
  | routed wrapper metadata =>
    cases hb
    exact h.routed wrapper metadata
  | count c n =>
    obtain ⟨hc, rfl⟩ := ite_some_none_eq_some.mp hb
    exact h.count hc fun d => Int.natCast_nonneg (n d)
  | close c =>
    obtain ⟨hc, rfl⟩ := ite_some_none_eq_some.mp hb
    exact h.close hc
  | closed c =>
    obtain ⟨-, rfl⟩ := ite_some_none_eq_some.mp hb
    exact h.closed c

end Valid

lemma activity_live {x : Activity} (hb : a.activity x = some b) {k : Key}
    (hk : b.tracker.live.lookup k ≠ none) :
    a.tracker.live.lookup k ≠ none ∨ a.tracker.inboundMapping k.inboundTag ≠ none := by
  cases x with
  | routed wrapper metadata =>
    cases hb
    unfold Accounts.routed at hk
    rw [routed_eq_track] at hk
    exact track_live hk
  | count c n | close c =>
    obtain ⟨-, rfl⟩ := ite_some_none_eq_some.mp hb
    exact .inl hk
  | closed c =>
    obtain ⟨-, rfl⟩ := ite_some_none_eq_some.mp hb
    exact .inl (releaseCounters_live hk)

namespace Valid
variable (h : a.Valid)
include h

lemma updateInboundMapping (mapping : String → Option String) :
    (a.withTracker (a.tracker.updateInboundMapping mapping)).Valid :=
  { h with wired := { h.wired with } }

lemma setStaged {staged : Option StagedSnapshot} (hfits : ∀ s, staged = some s → a.tracker.Fits s) :
    (a.withTracker { a.tracker with staged := staged }).Valid :=
  ⟨{ h.wired with }, h.nonneg, hfits, h.books⟩

lemma stageForReport {order : List Key}
    (horder : order.Perm a.tracker.live.keys) (startedAt endedAt : Int) (configRevision : String) :
    (a.withTracker (a.tracker.stageForReport order startedAt endedAt configRevision).1).Valid := by
  apply h.setStaged
  rintro s ⟨⟩
  constructor
  · intro e he
    obtain ⟨k, -, rfl⟩ := mem_map.mp he
    exact h.nonneg k
  · intro k
    rw [amount_snapshot _ horder]

lemma confirm {f : StagedSnapshot → StagedSnapshot} (hf : ∀ s, (f s).snapshot = s.snapshot) :
    (a.withTracker { a.tracker with staged := a.tracker.staged.map f }).Valid := by
  apply h.setStaged
  intro s hs
  obtain ⟨s', hs', rfl⟩ := map_eq_some_iff.mp hs
  rw [Tracker.Fits, hf]
  exact h.fits s' hs'

end Valid

/-- A reset does nothing, or it moves the amounts of a confirmed snapshot from the
counters to what was removed. -/
structure Resets (t : Tracker) (s : StagedSnapshot) (t' : Tracker) : Prop where
  staged : t.staged = some s
  confirmed : s.confirmed = true
  unstaged : t'.staged = none
  mapping : t'.inboundMapping = t.inboundMapping
  process : t'.process = t.process
  bytes : ∀ k, t'.bytes k = t.bytes k - amount s.snapshot k
  removed : ∀ k, t'.removed k = t.removed k + amount s.snapshot k

lemma Valid.reset_cases (h : a.Valid) : (a.tracker.resetLiveCountersWhenJournaled = a.tracker ∧
      ∀ s, a.tracker.staged = some s → s.confirmed = false) ∨
    ∃ s, Resets a.tracker s a.tracker.resetLiveCountersWhenJournaled := by
  unfold Tracker.resetLiveCountersWhenJournaled
  cases hs : a.tracker.staged with
  | none => exact .inl ⟨rfl, nofun⟩
  | some s =>
    cases hc : s.confirmed with
    | false =>
      refine .inl ⟨by simp [hc], ?_⟩
      rintro _ ⟨⟩
      exact hc
    | true =>
      simp only [hc, if_true]
      obtain ⟨hpos, hle⟩ := h.fits s hs
      obtain ⟨hmapping, hproc⟩ := a.tracker.foldl_subtract_frame s.snapshot
      exact .inr ⟨s, hs, hc, rfl, hmapping, hproc, fun k => (foldl_subtract hpos hle k).1,
        fun k => (foldl_subtract hpos hle k).2⟩

lemma Valid.resetLiveCountersWhenJournaled (h : a.Valid) :
    (a.withTracker a.tracker.resetLiveCountersWhenJournaled).Valid := by
  have hwired : (a.tracker.resetLiveCountersWhenJournaled).Wired a.opened := by
    unfold Tracker.resetLiveCountersWhenJournaled
    split
    · exact h.wired
    · next s _ =>
      split
      · have hfold := h.wired.foldl_subtract s.snapshot
        exact { hfold with }
      · exact h.wired
  obtain ⟨hsame, -⟩ | ⟨s, hreset⟩ := h.reset_cases
  · rwa [hsame]
  · refine ⟨hwired, ?_, ?_, ?_⟩
    · intro k
      rw [withTracker, hreset.bytes]
      exact sub_nonneg.mpr ((h.fits s hreset.staged).2 k)
    · intro s' hs'
      cases hreset.unstaged.symm.trans hs'
    · intro k
      refine (h.books k).trans ?_
      rw [withTracker, hreset.bytes, hreset.removed, add_comm (a.tracker.removed k), ← add_assoc,
        sub_add_cancel]

end Accounts

end SingBox.Panel
