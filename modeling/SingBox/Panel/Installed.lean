import SingBox.Panel.Poller

/-! The users on record for an inbound, and those that are really installed in the
Box. -/

namespace SingBox.Panel
open List Function State

/-- In the Box, the tag is that of the inbound and of no other. -/
def Box.Pairs (b : Box) (inboundID tag : String) : Prop :=
  ∀ ib ∈ b.config.managedInbounds, ib.tag = tag ↔ ib.inboundID = inboundID

namespace Adapter

/-- If a users' tag is on record for an inbound of the Box, the users installed
there are those that the panel delivered with it. -/
def Matches (s : Adapter) (id : String) : Prop :=
  ∀ b, s.running = some b → ∀ ib ∈ b.config.managedInbounds, ib.inboundID = id →
    s.store.userETag id ≠ "" → ∃ snapshot, (id, s.store.userETag id, snapshot) ∈ s.delivered ∧
      b.users ib.tag = some (convertUsers snapshot)

/-- Some call has installed users for the inbound and is yet to record them. -/
def Marked (s : Adapter) (id : String) : Prop := ∃ x ∈ s.installing, x.2.inboundID = id

structure Inv (s : Adapter) : Prop where
  marks : ∀ {x}, x ∈ s.installing → ∃ b, s.running = some b ∧
    b.users x.2.tag = some x.2.users ∧ b.Pairs x.2.inboundID x.2.tag
  matching : s.applying = false → ∀ {id}, ¬s.Marked id → s.Matches id

/-- What a call relies on: with the lock, the Box is its own; its installations
stay, and so does what was delivered. -/
structure Rely (i : Nat) (s t : Adapter) : Prop where
  locked : s.locked = some i → t.locked = some i ∧ t.running = s.running ∧
    (s.installing = [] → t.installing = [])
  own : ∀ m, (i, m) ∈ t.installing ↔ (i, m) ∈ s.installing
  delivered : ∀ {x}, x ∈ s.delivered → x ∈ t.delivered

def Clear (i : Nat) (s : Adapter) : Prop := ∀ m, (i, m) ∉ s.installing

/-- A step that leaves the Box, the lock and the installations alone, and at most
forgets tags of users. -/
structure Quiet (s t : Adapter) : Prop where
  locked : t.locked = s.locked
  running : t.running = s.running
  installing : t.installing = s.installing
  applying : t.applying = s.applying
  etags : ∀ id, t.store.userETag id = "" ∨ t.store.userETag id = s.store.userETag id
  delivered : ∀ {x}, x ∈ s.delivered → x ∈ t.delivered

variable {i : Nat} {s t u : Adapter}

lemma Rely.refl (i : Nat) (s : Adapter) : Rely i s s :=
  ⟨fun h => ⟨h, rfl, id⟩, fun _ => Iff.rfl, id⟩

lemma Rely.trans (h : Rely i s t) (h' : Rely i t u) : Rely i s u := by
  refine ⟨fun hs => ?_, fun m => (h'.own m).trans (h.own m), fun hx => h'.delivered (h.delivered hx)⟩
  obtain ⟨ht, hrun, hinst⟩ := h.locked hs
  obtain ⟨hu, hrun', hinst'⟩ := h'.locked ht
  exact ⟨hu, hrun'.trans hrun, fun hnil => hinst' (hinst hnil)⟩

lemma Clear.rely (h : s.Clear i) (ht : Rely i s t) : t.Clear i := fun m hm => h m ((ht.own m).mp hm)

lemma clear_of_nil (h : s.installing = []) : s.Clear i := by
  intro m hm
  simp [h] at hm

lemma Quiet.refl (s : Adapter) : Quiet s s := ⟨rfl, rfl, rfl, rfl, fun _ => .inr rfl, id⟩

lemma Quiet.rely (h : Quiet s t) (i : Nat) : Rely i s t :=
  ⟨fun hs => ⟨h.locked.trans hs, h.running, fun hnil => h.installing.trans hnil⟩,
    fun _ => by rw [h.installing], h.delivered⟩

lemma Matches.of_forgets {id : String} (h : s.Matches id) (hrun : t.running = s.running)
    (hetag : t.store.userETag id = "" ∨ t.store.userETag id = s.store.userETag id)
    (hdeliv : ∀ {x}, x ∈ s.delivered → x ∈ t.delivered) : t.Matches id := by
  intro b hb ib hib hid hne
  obtain hempty | heq := hetag
  · exact absurd hempty hne
  · rw [heq] at hne ⊢
    obtain ⟨snapshot, hmem, husers⟩ := h b (hrun ▸ hb) ib hib hid hne
    exact ⟨snapshot, hdeliv hmem, husers⟩

lemma Quiet.inv (h : Quiet s t) (hs : s.Inv) : t.Inv := by
  constructor
  · rw [h.installing, h.running]
    exact hs.marks
  · intro happly id hmarked
    rw [Marked, h.installing] at hmarked
    exact (hs.matching (h.applying ▸ happly) hmarked).of_forgets h.running (h.etags id) h.delivered

lemma quiet_save {v : AdapterUpdate} (saveError : Option String) (hsaving : s.saving i v = s)
    (hetags : ∀ id, (v.apply s.store).userETag id = "" ∨
      (v.apply s.store).userETag id = s.store.userETag id) : Quiet s (s.save i v saveError) := by
  unfold save
  rw [hsaving]
  refine ⟨rfl, rfl, rfl, rfl, fun id => ?_, fun hx => hx⟩
  split
  · exact hetags id
  · exact .inr rfl

/-- The only users that the call has to record. -/
def Mark (i : Nat) (m : Installation) (s : Adapter) : Prop := ∀ m', (i, m') ∈ s.installing ↔ m' = m

variable {m : Installation} {b : Box}

/-- Users are installed under a tag that no other call has users to record for. -/
theorem Inv.installed (hs : s.Inv) (hb : s.running = some b)
    (htags : ∀ x ∈ s.installing, x.2.tag ≠ m.tag) (hpairs : b.Pairs m.inboundID m.tag) :
    (s.installed b i m).Inv := by
  constructor
  · intro x hx
    obtain rfl | hx := mem_cons.mp hx
    · exact ⟨_, rfl, update_self .., hpairs⟩
    · obtain ⟨b', hb', husers, hpairs'⟩ := hs.marks hx
      cases hb.symm.trans hb'
      exact ⟨_, rfl, (update_of_ne (htags x hx) ..).trans husers, hpairs'⟩
  · rintro happly id hmarked _ ⟨⟩ ib hib hid hne
    have hid' : m.inboundID ≠ id := fun heq => hmarked ⟨_, mem_cons_self, heq⟩
    have hmatches := hs.matching happly fun ⟨x, hx, heq⟩ => hmarked ⟨x, mem_cons_of_mem _ hx, heq⟩
    obtain ⟨snapshot, hdeliv, husers⟩ := hmatches b hb ib hib hid hne
    have htag : ib.tag ≠ m.tag := fun heq => hid' (((hpairs ib hib).mp heq).symm.trans hid)
    exact ⟨snapshot, hdeliv, (update_of_ne htag ..).trans husers⟩

variable {j : Nat}

lemma rely_installed (hj : j ≠ i) (hs : s.locked = none) : Rely j s (s.installed b i m) := by
  refine ⟨fun h => ?_, fun m' => ?_, id⟩
  · cases hs.symm.trans h
  · simp [Adapter.installed, hj]

lemma Clear.mark_installed (h : s.Clear i) : (s.installed b i m).Mark i m := by
  intro m'
  have hm' := h m'
  simp [Adapter.installed, hm']

variable {saveError : Option String} {loadStatus : UserLoadStatus} {userCount : Nat}

/-- The users that the call installed are recorded. A save that fails is no harm
as long as no tag is on record. -/
theorem Inv.recorded {snapshot : UserSnapshot} {etag revision : String} (hs : s.Inv)
    (hm : s.Mark i m) (husers : m.users = convertUsers snapshot)
    (hdeliv : (m.inboundID, etag, snapshot) ∈ s.delivered)
    (hsave : saveError ≠ none → s.store.userETag m.inboundID = "") :
    (s.save i (.users m.inboundID etag revision userCount loadStatus) saveError).Inv := by
  obtain ⟨b, hb, hinst, hpairs⟩ := hs.marks ((hm m).mpr rfl)
  constructor
  · intro x hx
    exact hs.marks (mem_filter.mp hx).1
  · intro happly id hmarked
    by_cases hid : id = m.inboundID
    · subst hid
      intro b' hb' ib hib hid hne
      cases hb.symm.trans hb'
      cases saveError with
      | some err => exact absurd (hsave nofun) hne
      | none =>
        have hetag : (s.save i (.users m.inboundID etag revision userCount loadStatus)
            none).store.userETag m.inboundID = etag :=
          (userETag_updateInboundState ..).trans (if_pos rfl)
        rw [hetag, (hpairs ib hib).mpr hid]
        exact ⟨snapshot, hdeliv, hinst.trans (congrArg some husers)⟩
    · have hunmarked : ¬s.Marked id := by
        rintro ⟨⟨j, m'⟩, hx, heq⟩
        refine hmarked ⟨(j, m'), mem_filter.mpr ⟨hx, ?_⟩, heq⟩
        rw [decide_eq_true_iff]
        rintro rfl
        exact hid (heq.symm.trans (congrArg _ ((hm m').mp hx)))
      refine (hs.matching happly hunmarked).of_forgets rfl (.inr ?_) fun hx => hx
      cases saveError with
      | some err => rfl
      | none => exact (userETag_updateInboundState ..).trans (if_neg hid)

variable {id etag revision : String}

lemma rely_recorded (hj : j ≠ i) :
    Rely j s (s.save i (.users id etag revision userCount loadStatus) saveError) := by
  refine ⟨fun h => ⟨h, rfl, fun hnil => ?_⟩, fun m => ?_, fun hx => hx⟩
  · simp [save, saving, hnil]
  · simp [save, saving, hj]

lemma clear_recorded :
    (s.save i (.users id etag revision userCount loadStatus) saveError).Clear i := by
  intro m
  simp [save, saving]

lemma Inv.of_empty (h : s.installing = [])
    (hmatching : s.applying = false → ∀ id, s.Matches id) : s.Inv := by
  constructor
  · intro x hx
    simp [h] at hx
  · exact fun happly _ _ => hmatching happly _

/-- What the call with the lock does to the Box is not seen by others. -/
theorem rely_of_locked (hs : s.locked = some i) (hj : j ≠ i)
    (hinst : t.installing = s.installing) (hdeliv : t.delivered = s.delivered) : Rely j s t := by
  refine ⟨fun h => ?_, fun m => by rw [hinst], fun hx => hdeliv ▸ hx⟩
  cases hs.symm.trans h
  exact absurd rfl hj

/-- A new Box without users is recorded without tags of users. -/
theorem Inv.applied {etag : String} (hb : s.running = some b) (hnil : s.installing = [])
    (hsave : saveError ≠ none → ∀ ib ∈ b.config.managedInbounds,
      s.store.userETag ib.inboundID = "") : (s.save i (.applied b.config etag) saveError).Inv := by
  refine .of_empty hnil fun _ id b' hb' ib hib hid hne => ?_
  cases hb.symm.trans hb'
  subst hid
  cases saveError with
  | some err => exact absurd (hsave nofun ib hib) hne
  | none =>
    refine absurd ?_ hne
    exact (userETag_recordConfiguration ..).trans (if_pos (mem_map_of_mem hib))

end Adapter

/-- Operations that are of no matter to the users on record. -/
def AdapterOp.quiet : AdapterOp → Bool
  | .lock | .unlock | .closeInstance | .setInstance _ | .replaceInboundUsers .. => false
  | .updateAndSave (.applied ..) | .updateAndSave (.users ..) => false
  | _ => true

open Adapter

lemma AdapterOp.quiet_exec {i : Nat} {op : AdapterOp} (hop : op.quiet) {s t : Adapter}
    {env : AdapterEnv} {answer : op.Ans} (h : s.exec i op env = some (t, answer)) : Quiet s t := by
  cases op with
  | lock | unlock | closeInstance | setInstance | replaceInboundUsers => cases hop
  | state | fetchConfiguration | setLastCfg | markConfigRefetch =>
    cases h
    exact ⟨rfl, rfl, rfl, rfl, fun _ => .inr rfl, id⟩
  | create options cfg =>
    simp only [Adapter.exec] at h
    split at h
    · cases h
      exact .refl s
    · cases h
      exact ⟨rfl, rfl, rfl, rfl, fun _ => .inr rfl, id⟩
  | fetchUsers inboundID etag rev =>
    simp only [Adapter.exec] at h
    split at h
    · cases h
      exact .refl s
    · cases h
      exact ⟨rfl, rfl, rfl, rfl, fun _ => .inr rfl, mem_cons_of_mem _⟩
  | updateAndSave v =>
    cases h
    cases v with
    | applied | users => cases hop
    | pending cfg etag | applyFailed cfg =>
      refine quiet_save env.saveError rfl fun id => ?_
      simp only [AdapterUpdate.apply, State.recordPending, State.recordApplyFailed,
        userETag_recordConfiguration]
      split
      · exact .inl rfl
      · exact .inr rfl
    | status inboundID loadStatus =>
      exact quiet_save env.saveError rfl fun id => .inr (userETag_setInboundStatus ..)

end SingBox.Panel
