import SingBox.Dns.FakeIpHistory

/-! An address is not handed to another domain before the position went back in the range
since it was stored. Entries are on file at once and the position later, so a crash between
the two sets the position back behind addresses that are in use. -/

namespace SingBox.Dns.FakeIp
open Lib Function Option Machine

/-- An address that was stored since the position last went back is not after the
position. -/
def Lapped (e : Entries) (g : History) (position : Bool → Addr) : Prop :=
  ∀ a d, e.address a = some d → g.stamp a ≤ g.lap (!a.is4) ∧
    (g.stamp a = g.lap (!a.is4) → a.val ≤ (position (!a.is4)).val)

/-- So it is for the position of the store, or for the one on file if there is no store. -/
structure Paced (h : Host) (g : History) : Prop where
  running : ∀ s ∈ h.store, Lapped h.entries g fun f => (s.inet f).current
  ended : h.store = none → ∀ m ∈ h.metadata, Lapped h.entries g m.current

/-- A crash finds the positions of the store on file, or none. -/
def Synced (h : Host) : Action → Prop
  | .crash => ∀ m ∈ h.metadata, ∀ s ∈ h.store, m = s.metadata
  | _ => True

/-- An address in use goes to another domain only if the position went back since it was
stored, and every address stands for the domain that it was last returned for. -/
structure Steady (storage : Storage) (h : Host) (g : History) : Prop where
  handed : ∀ s ∈ h.store, ∀ d f c a d', (h.create storage s d f c).1 = some a →
    h.entries.address a = some d' → d' ≠ d →
    g.stamp a < (g.after storage h (.create d f c)).lap f
  lookup : ∀ s ∈ h.store, ∀ a d, g.owner a = some d → storage.load h.entries a = some d

section Laps

variable {storage : Storage} {h h' : Host} {g : History} {s : Store} {d : String} {f c : Bool}
  {a : Addr} {e : Entries}

lemma lapped_of_empty (he : e = {}) (g : History) (position : Bool → Addr) :
    Lapped e g position := by
  intro a d ha
  simp [he] at ha

/-- What `created` notes of an address that is taken from the range. -/
theorem after_create_of_taken (hs : h.store = some s)
    (hload : storage.loadDomain h.entries d f = none)
    (hcreate : (h.create storage s d f c).1 = some a) : g.after storage h (.create d f c) =
      { owner := update g.owner a (some d)
        lap := update g.lap f
          (if a.val ≤ (s.inet f).current.val then g.lap f + 1 else g.lap f)
        stamp := update g.stamp a
          (if a.val ≤ (s.inet f).current.val then g.lap f + 1 else g.lap f) } := by
  simp [History.after, hs, hcreate, History.created, hload]

section
variable (hl : Lapped h.entries g fun f => (s.inet f).current)
include hl

/-- The address after the position was stored in an earlier lap, if at all. -/
theorem Lapped.stamp_lt (hfamily : f = !a.is4) {d' : String} (ha : h.entries.address a = some d') :
    g.stamp a < if a.val ≤ (s.inet f).current.val then g.lap f + 1 else g.lap f := by
  obtain ⟨hle, heq⟩ := hl a d' ha
  rw [← hfamily] at hle heq
  split
  · omega
  · next hval =>
    apply Nat.lt_of_le_of_ne hle
    intro hstamp
    exact hval (heq hstamp)

lemma Lapped.taken (hfamily : a.isValid → f = !a.is4) (hval : a.isValid ∨ e.address a = none)
    (hothers : ∀ a', a' ≠ a → e.address a' = h.entries.address a') {owner : Addr → Option String} :
    Lapped e
      { owner
        lap := update g.lap f
          (if a.val ≤ (s.inet f).current.val then g.lap f + 1 else g.lap f)
        stamp := update g.stamp a
          (if a.val ≤ (s.inet f).current.val then g.lap f + 1 else g.lap f) }
      fun f' => ((s.setCurrent f a).inet f').current := by
  intro a' d' ha'
  dsimp only
  by_cases ha : a' = a
  · subst ha
    obtain hval | hnone := hval
    · have hf := hfamily hval
      rw [← hf, update_self, update_self, Store.inet_setCurrent, if_pos rfl]
      exact ⟨Nat.le_refl _, fun _ => Nat.le_refl _⟩
    · rw [hnone] at ha'
      cases ha'
  · rw [hothers a' ha] at ha'
    obtain ⟨hle, heq⟩ := hl a' d' ha'
    rw [update_of_ne ha, Store.inet_setCurrent]
    by_cases hf : (!a'.is4) = f
    · rw [hf] at hle heq ⊢
      rw [update_self, if_pos rfl]
      dsimp only at heq ⊢
      split
      · omega
      · refine ⟨hle, fun hstamp => ?_⟩
        omega
    · rw [update_of_ne hf, if_neg hf]
      exact ⟨hle, heq⟩

end

lemma Paced.initial : Paced {} {} := ⟨fun s hs => (by cases hs), fun _ m hm => (by cases hm)⟩

namespace Paced
variable (hp : Paced h g)
include hp

lemma create (hk : Kept storage h g) (hs : h.store = some s) (hstores : Stores storage h d f c) :
    Paced (h.create storage s d f c).2 (g.after storage h (.create d f c)) := by
  obtain ⟨a, hload, hcreate⟩ | ⟨hload, hcreate⟩ | ⟨hload, hcur, hcreate⟩ :=
    create_cases storage h s d f c
  · have hafter : g.after storage h (.create d f c) =
        { g with owner := update g.owner a (some d) } := by
      simp [History.after, hs, hcreate, History.created, hload]
    rw [hafter, hcreate]
    exact { hp with }
  · have hafter : g.after storage h (.create d f c) = g := by
      simp [History.after, hs, hcreate]
    rwa [hafter, hcreate]
  · obtain ⟨hval, htakes⟩ := hstores s hs hload hcur
    rw [after_create_of_taken hs hload (congrArg Prod.fst hcreate), hcreate, htakes, if_pos rfl]
    refine ⟨fun s' hs' => ?_, fun hnone => by cases hnone⟩
    obtain rfl := some.inj hs'
    refine (hp.running s hs).taken ?_ (.inl hval) fun a' ha' => ?_
    · exact Kept.family_nextAddress (hk.store s hs) hcur
    · rw [Entries.address_store, update_of_ne ha']

lemma start {r4 r6 : Prefix} (hs : h.store = none) :
    Paced (h.start storage r4 r6) (g.after storage h (.start r4 r6)) := by
  obtain ⟨s, -, hresume, hstart, hafter⟩ | ⟨hstart, hafter⟩ := start_cases storage h g r4 r6
  · rw [hstart, hafter]
    refine ⟨fun s' hs' => ?_, nofun⟩
    obtain rfl := some.inj hs'
    obtain ⟨m, hm, -, hinet⟩ := Store.resume_eq_some hresume
    have := hp.ended hs m hm
    simpa only [hinet] using this
  · rw [hstart, hafter]
    exact ⟨fun s hs => lapped_of_empty rfl _ _, nofun⟩

/-- The process ends, with the positions of the store on file or with none. -/
theorem of_ended {metadata : Option Metadata} (hs : h.store = some s)
    (hsame : ∀ m ∈ metadata, m = s.metadata) : Paced { entries := h.entries, metadata } g := by
  refine ⟨fun s hs => (by cases hs), fun _ m hm => ?_⟩
  obtain rfl := hsame m hm
  rw [funext s.current_metadata]
  exact hp.running s hs

lemma step {action : Action} (hk : Kept storage h g)
    (hadm : Admits storage h action) (hsynced : Synced h action)
    (hu : FakeIp.step storage h action = some h') : Paced h' (g.after storage h action) := by
  cases action with
  | start r4 r6 =>
    obtain ⟨hnone, rfl⟩ := ite_some_none_eq_some.mp hu
    exact hp.start (isNone_iff_eq_none.mp hnone)
  | startInterrupted =>
    obtain ⟨-, rfl⟩ := ite_some_none_eq_some.mp hu
    exact ⟨hp.running, fun _ m hm => (by cases hm)⟩
  | create d f c =>
    obtain ⟨s, hs, rfl⟩ := map_eq_some_iff.mp hu
    exact hp.create hk hs hadm
  | reset =>
    obtain ⟨s, hs, rfl⟩ := map_eq_some_iff.mp hu
    exact ⟨fun _ _ => lapped_of_empty rfl _ _, fun _ _ _ => lapped_of_empty rfl _ _⟩
  | timer =>
    obtain ⟨m, hm, rfl⟩ := map_eq_some_iff.mp hu
    obtain ⟨s, hs, rfl⟩ := hk.saveMetadata m hm
    refine ⟨hp.running, fun hnone => ?_⟩
    simp [mem_def.mp hs] at hnone
  | close =>
    obtain ⟨s, hs, rfl⟩ := map_eq_some_iff.mp hu
    refine hp.of_ended hs fun m hm => ?_
    obtain ⟨-, hm⟩ := ite_none_right_eq_some.mp hm
    exact (some.inj hm).symm
  | crash =>
    obtain ⟨s, hs, rfl⟩ := map_eq_some_iff.mp hu
    exact hp.of_ended hs fun m hm => hsynced m hm s hs

lemma steady (hk : Kept storage h g) : Steady storage h g := by
  constructor
  · intro s hs d f c a d' hcreate ha hne
    obtain ⟨a', hload, heq⟩ | ⟨hload, heq⟩ | ⟨hload, hcur, heq⟩ := create_cases storage h s d f c
    · -- an address that the domain has is not another domain's
      rw [heq] at hcreate
      cases hcreate
      rw [hk.loadDomain_eq] at hload
      rw [((hk.agree a d f).mp hload).1] at ha
      exact absurd (some.inj ha).symm hne
    · simp [heq] at hcreate
    · rw [after_create_of_taken hs hload hcreate]
      dsimp only
      rw [update_self]
      rw [heq] at hcreate
      cases hcreate
      exact (hp.running s hs).stamp_lt
        (Kept.family_nextAddress (hk.store s hs) hcur (hk.valid _ _ ha).1) ha
  · intro s _ a d howner
    rw [hk.load_eq]
    exact hk.owner a d howner

end Paced

/-- What the runs of the store keep, and what they keep when a crash finds the positions on
file. -/
theorem reaches_kept_paced {admitted : Host × History → Action → Prop}
    (hadm : ∀ t action, admitted t action → Admits storage t.1 action ∧ Synced t.1 action)
    {t : Host × History} (ht : Reaches (observed storage) admitted ({}, {}) t) :
    Kept storage t.1 t.2 ∧ Paced t.1 t.2 := by
  refine ht.invariant (P := fun t => Kept storage t.1 t.2 ∧ Paced t.1 t.2) ?_ ?_
  · exact ⟨.initial storage, .initial⟩
  · rintro ⟨h, g⟩ u action hact hu ⟨hk, hp⟩
    obtain ⟨h', hstep, rfl⟩ := map_eq_some_iff.mp hu
    obtain ⟨hsync, hsynced⟩ := hadm _ _ hact
    exact ⟨hk.step hsync hstep, hp.step hk hsync hsynced hstep⟩

end Laps

/-! ## Crashes -/

/-- The steps of a run with the cache file in which every crash finds the positions on file
or none. -/
def SyncedRun (t : Host × History) (action : Action) : Prop :=
  Admits .cacheFile t.1 action ∧ Synced t.1 action

/-- In such a run an address in use goes to another domain only after the position went back
in its range, and who holds an address reaches the domain that it was returned for. -/
theorem steady_of_synced_crashes {t : Host × History}
    (ht : Reaches (observed .cacheFile) SyncedRun ({}, {}) t) : Steady .cacheFile t.1 t.2 := by
  obtain ⟨hk, hp⟩ := reaches_kept_paced (fun _ _ h => h) ht
  exact hp.steady hk

instance (f : Bool) (p : Prefix) : Decidable (OfFamily f p) := inferInstanceAs (Decidable (_ → _))

instance (storage : Storage) (h : Host) (d : String) (f c : Bool) :
    Decidable (Stores storage h d f c) :=
  inferInstanceAs (Decidable (∀ s ∈ h.store, _ → _ → _ ∧ _))

instance (storage : Storage) (h : Host) : DecidablePred (Admits storage h)
  | .start .. => inferInstanceAs (Decidable (_ ∧ _))
  | .create .. => inferInstanceAs (Decidable (Stores ..))
  | .startInterrupted | .reset | .timer | .close | .crash => .isTrue trivial

instance (h : Host) : DecidablePred (Synced h)
  | .crash => inferInstanceAs (Decidable (∀ m ∈ h.metadata, ∀ s ∈ h.store, m = s.metadata))
  | .start .. | .create .. | .startInterrupted | .reset | .timer | .close => .isTrue trivial

instance (t : Host × History) : DecidablePred (SyncedRun t) :=
  fun _ => inferInstanceAs (Decidable (_ ∧ _))

/-- 198.18.0.0/15, and no range for IPv6. -/
def startActions : List Action :=
  [.start { addr := .v4 0xC6120000#32, bits := 15 } { addr := .invalid, bits := 0 }]

/-- After the crash the next address is a new one, and the address before it is kept. -/
theorem steady_of_saved_position :
    ((runChecked (observed .cacheFile) (fun t action => decide (SyncedRun t action)) ({}, {})
      (startActions ++ [.create "a.example" false true, .timer, .crash] ++ startActions)).any
        fun t => t.1.store.any fun s =>
          (t.1.create .cacheFile s "b.example" false true).1 == some (.v4 0xC6120003#32) &&
          t.1.entries.address (.v4 0xC6120002#32) == some "a.example") = true ∧
    ∃ t, run (observed .cacheFile) ({}, {}) (startActions ++
        [.create "a.example" false true, .timer, .crash] ++ startActions) = some t ∧
      Steady .cacheFile t.1 t.2 := by
  refine ⟨by decide +kernel, ?_⟩
  obtain ⟨t, ht⟩ : ∃ t, runChecked (observed .cacheFile)
      (fun t action => decide (SyncedRun t action)) ({}, {}) (startActions ++
        [.create "a.example" false true, .timer, .crash] ++ startActions) = some t :=
    Option.isSome_iff_exists.mp (by decide +kernel)
  refine ⟨t, run_of_runChecked ht, steady_of_synced_crashes ?_⟩
  exact Reaches.runChecked (fun _ _ h => of_decide_eq_true h) .start ht

/-- A second address was handed out after the position was written. The crash sets the
position back, and the address goes to a third domain in the same lap. -/
theorem address_handed_on_after_crash :
    ((runChecked (observed .cacheFile) (fun t action => decide (Admits .cacheFile t.1 action))
      ({}, {}) (startActions ++ [.create "a.example" false true, .timer,
        .create "b.example" false true, .crash] ++ startActions)).any fun t => t.1.store.any fun s =>
          t.1.entries.address (.v4 0xC6120003#32) == some "b.example" &&
          t.2.owner (.v4 0xC6120003#32) == some "b.example" &&
          (t.1.create .cacheFile s "c.example" false true).1 == some (.v4 0xC6120003#32) &&
          t.2.stamp (.v4 0xC6120003#32) ==
            (t.2.after .cacheFile t.1 (.create "c.example" false true)).lap false) = true := by
  decide +kernel

end SingBox.Dns.FakeIp
