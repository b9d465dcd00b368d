import SingBox.Panel.Contract

/-! The traffic tracker: counters per inbound and user, the snapshot that a
report is made of, and the subtraction that follows once the report is safe.
Counters are integers: the overflow of 64 bits is left out. -/

namespace SingBox.Panel
open Function AList

structure Counters where
  upload : Int := 0
  download : Int := 0
  active : Int := 0
  deriving DecidableEq

namespace Counters

variable (c : Counters)

def bytes : Traffic
  | .upload => c.upload
  | .download => c.download

def add (n : Traffic) : Counters :=
  { c with upload := c.upload + n .upload, download := c.download + n .download }

def addActive (n : Int) : Counters := { c with active := c.active + n }

/-- No connection is left and nothing is counted. -/
def isIdle : Bool := c.active == 0 && c.upload == 0 && c.download == 0

@[simp] lemma bytes_add (n : Traffic) : (c.add n).bytes = c.bytes + n := by
  funext d
  cases d <;> rfl

@[simp] lemma bytes_addActive (n : Int) : (c.addActive n).bytes = c.bytes := rfl

@[simp] lemma bytes_new : ({} : Counters).bytes = 0 := by
  funext d
  cases d <;> rfl

variable {c : Counters}

lemma bytes_of_isIdle (h : c.isIdle) : c.bytes = 0 := by
  simp only [isIdle, Bool.and_eq_true, beq_iff_eq] at h
  funext d
  cases d
  · exact h.1.2
  · exact h.2

lemma active_of_isIdle (h : c.isIdle) : c.active = 0 := by
  simp only [isIdle, Bool.and_eq_true, beq_iff_eq] at h
  exact h.1.1

end Counters

/-- A pointer to counters; they are made for one key. -/
@[ext] structure CountersRef where
  key : Key
  serial : Nat
  deriving DecidableEq

structure StagedSnapshot where
  report : TrafficReport
  snapshot : List (Key × Traffic)
  journaled : Bool := false
  accepted : Bool := false

def StagedSnapshot.confirmed (s : StagedSnapshot) : Bool := s.journaled || s.accepted

/-- The tracker of one process. How many bytes were ever subtracted from the
counters of a key is known here only. -/
structure Tracker where
  inboundMapping : String → Option String
  live : AList (fun _ : Key => Nat) := ∅
  counters : CountersRef → Counters := fun _ => {}
  allocated : Nat := 0
  staged : Option StagedSnapshot := none
  process : Nat := 0
  removed : Key → Traffic := 0

namespace Tracker

variable (t : Tracker) (c : CountersRef) (snap : Traffic)

def updateInboundMapping (mapping : String → Option String) : Tracker :=
  { t with inboundMapping := mapping }

def modify (f : Counters → Counters) : Tracker :=
  { t with counters := update t.counters c (f (t.counters c)) }

def getOrCreateCounters (k : Key) : Tracker × CountersRef :=
  match t.live.lookup k with
  | some serial => (t, ⟨k, serial⟩)
  | none =>
    ({ t with
        live := t.live.insert k t.allocated
        counters := update t.counters ⟨k, t.allocated⟩ {}
        allocated := t.allocated + 1 },
      ⟨k, t.allocated⟩)

/-- What the tracking of a connection, of a packet connection and of a flow have
in common; one that is not tracked gets no counters. -/
def track (t : Tracker) (inboundTag userID : String) : Tracker × Option CountersRef :=
  if userID = "" then (t, none)
  else
    match t.inboundMapping inboundTag with
    | none => (t, none)
    | some _ =>
      let (t, c) := t.getOrCreateCounters ⟨inboundTag, userID⟩
      (t.modify c (·.addActive 1), some c)

def trackConnection := track

def trackPacketConnection := track

def trackFlow := track

/-- The count functions of a tracked connection, and `CountForward` and
`CountReverse` of a flow. -/
def count (n : Traffic) : Tracker := t.modify c (·.add n)

/-- `releaseCounters`, before it takes the lock. -/
def releaseActive : Tracker := t.modify c (·.addActive (-1))

/-- Live counters are dropped once nothing is left of them. -/
def dropIdle : Tracker :=
  if (t.counters c).isIdle = true then { t with live := t.live.erase c.key } else t

/-- `releaseCounters`, under the lock. -/
def releaseCounters : Tracker := if t.live.lookup c.key = some c.serial then t.dropIdle c else t

def bytes (t : Tracker) (k : Key) : Traffic :=
  match t.live.lookup k with
  | some serial => (t.counters ⟨k, serial⟩).bytes
  | none => 0

def record (k : Key) : Option TrafficRecord :=
  match t.inboundMapping k.inboundTag with
  | none => none
  | some inboundID =>
    if k.userID = "" then none
    else some {
      inboundID
      userID := k.userID
      uploadBytes := t.bytes k .upload
      downloadBytes := t.bytes k .download
      source := ⟨t.process, k, t.removed k⟩ }

/-- `StageForReport`, with the order in which the keys of the live map come up. -/
def stageForReport (order : List Key) (startedAt endedAt : Int)
    (configRevision : String) : Tracker × TrafficReport :=
  let report : TrafficReport := {
    startedAt
    endedAt
    configurationRevision := configRevision
    records := order.filterMap t.record }
  ({ t with staged := some { report, snapshot := order.map fun k => (k, t.bytes k) } }, report)

def confirmJournaled : Tracker :=
  { t with staged := t.staged.map fun s => { s with journaled := true } }

def confirmAccepted : Tracker :=
  { t with staged := t.staged.map fun s => { s with accepted := true } }

/-- The subtraction from the counters, of which the amount is noted. -/
def take : Tracker :=
  { t.modify c (·.add (-snap)) with
    removed := update t.removed c.key (t.removed c.key + snap) }

/-- `ResetLiveCountersWhenJournaled` on one key of the snapshot. -/
def subtract (k : Key) (snap : Traffic) : Tracker :=
  match t.live.lookup k with
  | none => t
  | some serial => (t.take ⟨k, serial⟩ snap).dropIdle ⟨k, serial⟩

def resetLiveCountersWhenJournaled : Tracker :=
  match t.staged with
  | none => t
  | some s =>
    if s.confirmed then
      { s.snapshot.foldl (fun t e => t.subtract e.1 e.2) t with staged := none }
    else t

def pendingReport : Option TrafficReport := t.staged.map (·.report)

variable {t : Tracker} {k : Key} {c : CountersRef}

/-- Whether the live map leads to these counters. -/
def IsLive (t : Tracker) (c : CountersRef) : Prop := t.live.lookup c.key = some c.serial

lemma bytes_of_isLive (h : t.IsLive c) : t.bytes c.key = (t.counters c).bytes := by
  rw [bytes, h]

lemma bytes_of_absent (h : t.live.lookup k = none) : t.bytes k = 0 := by
  rw [bytes, h]

section
variable (f : Counters → Counters)

@[simp] lemma modify_live (t : Tracker) (c : CountersRef) : (t.modify c f).live = t.live := rfl

@[simp] lemma modify_self (t : Tracker) (c : CountersRef) :
    (t.modify c f).counters c = f (t.counters c) :=
  update_self ..

lemma modify_other (t : Tracker) {c' : CountersRef} (h : c' ≠ c) :
    (t.modify c f).counters c' = t.counters c' :=
  update_of_ne h ..

/-- Counters that the live map does not lead to have no part in what is reported. -/
theorem bytes_modify_other (h : t.IsLive c → c.key ≠ k) : (t.modify c f).bytes k = t.bytes k := by
  unfold bytes
  cases hk : t.live.lookup k with
  | none => rw [modify_live, hk]
  | some serial =>
    rw [modify_live, hk]
    have hne : (⟨k, serial⟩ : CountersRef) ≠ c := by
      rintro rfl
      exact h hk rfl
    exact congrArg Counters.bytes (modify_other f t hne)

lemma bytes_modify_self (h : t.IsLive c) :
    (t.modify c f).bytes c.key = (f (t.counters c)).bytes := by
  have hlive : (t.modify c f).IsLive c := h
  rw [bytes_of_isLive hlive, modify_self]

end

lemma bytes_addActive (t : Tracker) (c : CountersRef) (n : Int) (k : Key) :
    (t.modify c (·.addActive n)).bytes k = t.bytes k := by
  by_cases h : t.IsLive c ∧ c.key = k
  · obtain ⟨hlive, rfl⟩ := h
    rw [bytes_modify_self _ hlive, bytes_of_isLive hlive, Counters.bytes_addActive]
  · exact bytes_modify_other _ fun hlive hk => h ⟨hlive, hk⟩

lemma bytes_count_self (n : Traffic) (h : t.IsLive c) :
    (t.count c n).bytes c.key = t.bytes c.key + n := by
  rw [count, bytes_modify_self _ h, bytes_of_isLive h, Counters.bytes_add]

lemma bytes_count_other (n : Traffic) (h : t.IsLive c → c.key ≠ k) :
    (t.count c n).bytes k = t.bytes k :=
  bytes_modify_other _ h

lemma bytes_erase (h : t.bytes k = 0) (k' : Key) :
    { t with live := t.live.erase k }.bytes k' = t.bytes k' := by
  by_cases hk : k' = k
  · subst hk
    rw [h]
    exact bytes_of_absent (lookup_erase ..)
  · unfold bytes
    rw [lookup_erase_ne hk]

lemma bytes_getOrCreateCounters (t : Tracker) (k k' : Key) :
    (t.getOrCreateCounters k).1.bytes k' = t.bytes k' := by
  unfold getOrCreateCounters
  cases hk : t.live.lookup k with
  | some serial => rfl
  | none =>
    by_cases hk' : k' = k
    · subst hk'
      rw [bytes_of_absent hk]
      simp [bytes]
    · unfold bytes
      rw [lookup_insert_ne hk']
      cases t.live.lookup k' with
      | none => rfl
      | some serial => simp [hk']

lemma bytes_track (t : Tracker) (inboundTag userID : String) (k : Key) :
    (t.track inboundTag userID).1.bytes k = t.bytes k := by
  unfold track
  split
  · rfl
  · split
    · rfl
    · exact (bytes_addActive ..).trans (bytes_getOrCreateCounters ..)

lemma bytes_dropIdle (h : t.IsLive c) (k : Key) : (t.dropIdle c).bytes k = t.bytes k := by
  unfold dropIdle
  split
  · next hidle =>
    apply bytes_erase
    rw [bytes_of_isLive h]
    exact Counters.bytes_of_isIdle hidle
  · rfl

lemma bytes_releaseCounters (t : Tracker) (c : CountersRef) (k : Key) :
    (t.releaseCounters c).bytes k = t.bytes k := by
  unfold releaseCounters
  split
  · next h => exact bytes_dropIdle h k
  · rfl

@[simp] lemma removed_dropIdle (t : Tracker) (c : CountersRef) :
    (t.dropIdle c).removed = t.removed := by
  unfold dropIdle
  split <;> rfl

/-- What is subtracted for a key moves from its counters to what was removed. -/
theorem bytes_subtract (snap : Traffic) (h : t.live.lookup k = none → snap = 0) :
    (t.subtract k snap).bytes = update t.bytes k (t.bytes k - snap) := by
  unfold subtract
  cases hk : t.live.lookup k with
  | none => rw [h hk, sub_zero, update_eq_self]
  | some serial =>
    have hlive : t.IsLive ⟨k, serial⟩ := hk
    have htake : (t.take ⟨k, serial⟩ snap).IsLive ⟨k, serial⟩ := hk
    funext k'
    rw [bytes_dropIdle htake]
    by_cases hk' : k' = k
    · subst hk'
      rw [update_self, sub_eq_add_neg]
      exact bytes_count_self (-snap) hlive
    · rw [update_of_ne hk']
      have hother := Ne.symm hk'
      exact bytes_count_other (t := t) (-snap) fun _ => hother

lemma removed_subtract (snap : Traffic) (h : t.live.lookup k = none → snap = 0) :
    (t.subtract k snap).removed = update t.removed k (t.removed k + snap) := by
  unfold subtract
  cases hk : t.live.lookup k with
  | none => rw [h hk, add_zero, update_eq_self]
  | some serial => rw [removed_dropIdle, take]

/-- Amounts that the counters have can be subtracted one by one. -/
theorem foldl_subtract {entries : List (Key × Traffic)} (hpos : ∀ e ∈ entries, 0 ≤ e.2)
    (hfits : ∀ k, amount entries k ≤ t.bytes k) (k : Key) :
    (entries.foldl (fun t e => t.subtract e.1 e.2) t).bytes k = t.bytes k - amount entries k ∧
    (entries.foldl (fun t e => t.subtract e.1 e.2) t).removed k =
      t.removed k + amount entries k := by
  induction entries generalizing t with
  | nil => simp
  | cons e entries ih =>
    have hpos' : ∀ e' ∈ entries, 0 ≤ e'.2 := fun e' he' => hpos e' (List.mem_cons_of_mem _ he')
    have he : 0 ≤ e.2 := hpos e List.mem_cons_self
    have hlive : t.live.lookup e.1 = none → e.2 = 0 := by
      intro habsent
      have hle := hfits e.1
      rw [bytes_of_absent habsent, amount_cons, if_pos rfl] at hle
      exact le_antisymm (le_trans (le_add_of_nonneg_right (amount_nonneg hpos' e.1)) hle) he
    have hbytes := bytes_subtract e.2 hlive
    have hrem := removed_subtract e.2 hlive
    have hfits' : ∀ k, amount entries k ≤ (t.subtract e.1 e.2).bytes k := by
      intro k
      have hle := hfits k
      rw [amount_cons] at hle
      rw [hbytes]
      by_cases hk : e.1 = k
      · subst hk
        rw [if_pos rfl] at hle
        rw [update_self]
        exact le_sub_iff_add_le'.mpr hle
      · rw [if_neg hk, zero_add] at hle
        rwa [update_of_ne (Ne.symm hk)]
    obtain ⟨ihbytes, ihremoved⟩ := ih hpos' hfits'
    rw [List.foldl_cons, ihbytes, ihremoved, hbytes, hrem, amount_cons]
    by_cases hk : e.1 = k
    · subst hk
      rw [update_self, update_self, if_pos rfl, sub_sub, add_assoc]
      exact ⟨rfl, rfl⟩
    · rw [update_of_ne (Ne.symm hk), update_of_ne (Ne.symm hk), if_neg hk, zero_add]
      exact ⟨rfl, rfl⟩

lemma subtract_frame (t : Tracker) (k : Key) (snap : Traffic) :
    (t.subtract k snap).inboundMapping = t.inboundMapping ∧
      (t.subtract k snap).process = t.process := by
  unfold subtract dropIdle
  split
  · exact ⟨rfl, rfl⟩
  · split <;> exact ⟨rfl, rfl⟩

lemma foldl_subtract_frame (t : Tracker) (entries : List (Key × Traffic)) :
    (entries.foldl (fun t e => t.subtract e.1 e.2) t).inboundMapping = t.inboundMapping ∧
      (entries.foldl (fun t e => t.subtract e.1 e.2) t).process = t.process := by
  induction entries generalizing t with
  | nil => exact ⟨rfl, rfl⟩
  | cons e entries ih =>
    obtain ⟨hmapping, hproc⟩ := subtract_frame t e.1 e.2
    obtain ⟨ihmapping, ihprocess⟩ := ih (t.subtract e.1 e.2)
    exact ⟨ihmapping.trans hmapping, ihprocess.trans hproc⟩

/-! Only the tracking of a connection puts a key in the live map, while its tag is
mapped. -/

lemma dropIdle_live (h : (t.dropIdle c).live.lookup k ≠ none) : t.live.lookup k ≠ none := by
  unfold dropIdle at h
  split at h
  · by_cases hk : k = c.key
    · subst hk
      exact absurd (lookup_erase ..) h
    · rwa [lookup_erase_ne hk] at h
  · exact h

lemma subtract_live {k' : Key} {snap : Traffic}
    (h : (t.subtract k' snap).live.lookup k ≠ none) : t.live.lookup k ≠ none := by
  unfold subtract at h
  split at h
  · exact h
  · next serial _ => exact dropIdle_live (t := t.take ⟨k', serial⟩ snap) h

lemma reset_live (h : t.resetLiveCountersWhenJournaled.live.lookup k ≠ none) :
    t.live.lookup k ≠ none := by
  have hfold : ∀ (entries : List (Key × Traffic)) {t : Tracker},
      (entries.foldl (fun t e => t.subtract e.1 e.2) t).live.lookup k ≠ none →
      t.live.lookup k ≠ none := by
    intro entries
    induction entries with
    | nil => exact id
    | cons e entries ih => exact fun h => subtract_live (ih h)
  unfold resetLiveCountersWhenJournaled at h
  split at h
  · exact h
  · split at h
    · exact hfold _ h
    · exact h

lemma releaseCounters_live (h : (t.releaseCounters c).live.lookup k ≠ none) :
    t.live.lookup k ≠ none := by
  unfold releaseCounters at h
  split at h
  · exact dropIdle_live h
  · exact h

lemma track_live {inboundTag userID : String}
    (h : (t.track inboundTag userID).1.live.lookup k ≠ none) :
    t.live.lookup k ≠ none ∨ t.inboundMapping k.inboundTag ≠ none := by
  unfold track at h
  split at h
  · exact .inl h
  · split at h
    · exact .inl h
    · next id hid =>
      by_cases hk : k = ⟨inboundTag, userID⟩
      · subst hk
        exact .inr (hid ▸ Option.some_ne_none id)
      · refine .inl ?_
        dsimp only [modify_live] at h
        unfold getOrCreateCounters at h
        split at h
        · exact h
        · rwa [lookup_insert_ne hk] at h

end Tracker

end SingBox.Panel
