import SingBox.Dns.FakeIpLaps

/-! The addresses that are handed out lie in their range, and no two domains have one at the
same time, over the clean runs of a store with room in its ranges. -/

namespace SingBox.Dns.FakeIp
open Lib Option Machine

/-- The addresses in use are ones to hand out, of the ranges of the store or of those on
file. -/
structure Pooled (h : Host) : Prop where
  roomy : ∀ s ∈ h.store, ∀ f, Roomy (s.inet f).range
  running : ∀ s ∈ h.store, ∀ a d, h.entries.address a = some d → InPool (s.inet (!a.is4)).range a
  ended : h.store = none → ∀ m ∈ h.metadata, ∀ a d, h.entries.address a = some d →
    InPool (m.range (!a.is4)) a

/-- The steps of a run that ends only by `Close`, with ranges that have room and domains that
the storage takes. -/
def Clean (storage : Storage) : Action → Prop
  | .start inet4Range inet6Range =>
    (OfFamily false inet4Range ∧ OfFamily true inet6Range) ∧ Roomy inet4Range ∧ Roomy inet6Range
  | .create d _ commits =>
    storage = .cacheFile → d ≠ "" ∧ d.utf8ByteSize ≤ maxKeySize ∧ commits = true
  | .startInterrupted | .crash => False
  | .reset | .timer | .close => True

/-- Every address that is returned lies in its range and is not the first of it, nor the last
IPv4 address. The two directions of the storage agree, so that no two domains have one
address. An address stands for the domain it was returned for until it is reset or goes to
another domain, which it does only after the position went back in the range. -/
structure Faithful (storage : Storage) (h : Host) (g : History) : Prop where
  pool : ∀ s ∈ h.store, ∀ d f c a, (h.create storage s d f c).1 = some a → InPool (s.inet f).range a
  agree : h.entries.Agree
  injective : ∀ f a d d', h.entries.domain f d = some a → h.entries.domain f d' = some a → d = d'
  steady : Steady storage h g

section Pool

variable {storage : Storage} {h h' : Host} {g : History} {s : Store} {d : String} {f c : Bool}
  {action : Action}

namespace Pooled
variable (hp : Pooled h)
include hp

section
variable (hk : Kept storage h g)
include hk

lemma inPool_nextAddress (hs : h.store = some s) (hcur : (s.inet f).current.isValid) :
    InPool (s.inet f).range (s.inet f).nextAddress :=
  (FakeIp.inPool_nextAddress (hp.roomy s hs f) (hk.store s hs f).1 hcur).1

lemma admits (hclean : Clean storage action) : Admits storage h action ∧ Synced h action := by
  cases action with
  | start r4 r6 => exact ⟨hclean.1, trivial⟩
  | create d f c =>
    refine ⟨fun s hs _ hcur => ?_, trivial⟩
    have hval := isValid_of_contains (hp.inPool_nextAddress hk hs hcur).contained
    refine ⟨hval, ?_⟩
    cases storage with
    | memory => rfl
    | cacheFile =>
      obtain ⟨hd, hsize, rfl⟩ := hclean rfl
      simp [Storage.takes, hval, hd, hsize]
  | startInterrupted | crash => exact hclean.elim
  | reset | timer | close => exact ⟨trivial, trivial⟩

lemma create (hs : h.store = some s)
    (hstores : Stores storage h d f c) : Pooled (h.create storage s d f c).2 := by
  obtain ⟨a, hload, hcreate⟩ | ⟨hload, hcreate⟩ | ⟨hload, hcur, hcreate⟩ :=
    create_cases storage h s d f c
  · rwa [hcreate]
  · rwa [hcreate]
  · obtain ⟨hval, htakes⟩ := hstores s hs hload hcur
    have hrange f' : ((s.setCurrent f (s.inet f).nextAddress).inet f').range =
        (s.inet f').range := by
      rw [Store.inet_setCurrent]
      split
      · next hf => rw [hf]
      · rfl
    rw [hcreate, htakes, if_pos rfl]
    refine ⟨fun s' hs' f' => ?_, fun s' hs' a d' ha => ?_, nofun⟩
    · obtain rfl := some.inj hs'
      rw [hrange]
      exact hp.roomy s hs f'
    · obtain rfl := some.inj hs'
      rw [hrange]
      rw [Entries.address_store] at ha
      by_cases heq : a = (s.inet f).nextAddress
      · subst heq
        rw [← Kept.family_nextAddress (hk.store s hs) hcur hval]
        exact hp.inPool_nextAddress hk hs hcur
      · rw [Function.update_of_ne heq] at ha
        exact hp.running s hs a d' ha

end

lemma start {r4 r6 : Prefix} (hs : h.store = none) (h4 : Roomy r4)
    (h6 : Roomy r6) : Pooled (h.start storage r4 r6) := by
  have hroomy f : Roomy ((newStore r4 r6).inet f).range := by
    cases f
    · exact h4
    · exact h6
  obtain ⟨s, -, hresume, hstart, -⟩ | ⟨hstart, -⟩ := start_cases storage h {} r4 r6
  · obtain ⟨m, hm, hrange, hinet⟩ := Store.resume_eq_some hresume
    rw [hstart]
    refine ⟨fun s' hs' f => ?_, fun s' hs' a d ha => ?_, nofun⟩
    · obtain rfl := some.inj hs'
      rw [hinet]
      exact hroomy f
    · obtain rfl := some.inj hs'
      rw [hinet]
      rw [← hrange]
      exact hp.ended hs m hm a d ha
  · rw [hstart]
    refine ⟨fun s' hs' f => ?_, fun s' hs' a d ha => (by cases ha), nofun⟩
    obtain rfl := some.inj hs'
    rw [Store.inet_begin, range_begin]
    exact hroomy f

lemma step (hk : Kept storage h g) (hclean : Clean storage action)
    (hu : FakeIp.step storage h action = some h') : Pooled h' := by
  have hadm := (hp.admits hk hclean).1
  cases action with
  | start r4 r6 =>
    obtain ⟨hnone, rfl⟩ := ite_some_none_eq_some.mp hu
    exact hp.start (isNone_iff_eq_none.mp hnone) hclean.2.1 hclean.2.2
  | create d f c =>
    obtain ⟨s, hs, rfl⟩ := map_eq_some_iff.mp hu
    exact hp.create hk hs hadm
  | reset =>
    obtain ⟨s, hs, rfl⟩ := map_eq_some_iff.mp hu
    exact ⟨hp.roomy, fun _ _ a d ha => (by cases ha), fun _ _ _ a d ha => (by cases ha)⟩
  | timer =>
    obtain ⟨m, hm, rfl⟩ := map_eq_some_iff.mp hu
    obtain ⟨s, hs, rfl⟩ := hk.saveMetadata m hm
    refine { hp with ended := fun hnone => ?_ }
    simp [mem_def.mp hs] at hnone
  | close =>
    obtain ⟨s, hs, rfl⟩ := map_eq_some_iff.mp hu
    refine ⟨fun s hs => (by cases hs), fun s hs => (by cases hs), fun _ m hm a d ha => ?_⟩
    obtain ⟨-, rfl⟩ := ite_some_none_eq_some.mp hm
    rw [Store.range_metadata]
    exact hp.running s hs a d ha
  | startInterrupted | crash => exact hclean.elim

lemma faithful (hk : Kept storage h g) (hpaced : Paced h g) : Faithful storage h g := by
  refine ⟨fun s hs d f c a hcreate => ?_, hk.agree, fun f a d d' hd hd' => ?_, hpaced.steady hk⟩
  · obtain ⟨a', hload, heq⟩ | ⟨hload, heq⟩ | ⟨hload, hcur, heq⟩ := create_cases storage h s d f c
    · rw [heq] at hcreate
      cases hcreate
      rw [hk.loadDomain_eq] at hload
      obtain ⟨ha, hf⟩ := (hk.agree a d f).mp hload
      rw [hf]
      exact hp.running s hs a d ha
    · simp [heq] at hcreate
    · rw [heq] at hcreate
      cases hcreate
      exact hp.inPool_nextAddress hk hs hcur
  · have hpair : (f, d) = (f, d') := (h.entries.pairing hk.agree).symm.inj hd hd'
    exact (Prod.mk.inj hpair).2

end Pooled

lemma reaches_faithful {t : Host × History}
    (ht : Reaches (observed storage) (fun _ => Clean storage) ({}, {}) t) :
    Faithful storage t.1 t.2 := by
  obtain ⟨hk, hpaced, hp⟩ : Kept storage t.1 t.2 ∧ Paced t.1 t.2 ∧ Pooled t.1 := by
    refine ht.invariant (P := fun t => Kept storage t.1 t.2 ∧ Paced t.1 t.2 ∧ Pooled t.1) ?_ ?_
    · refine ⟨.initial storage, .initial, fun s hs => (by cases hs), fun s hs => (by cases hs),
        fun _ m hm => (by cases hm)⟩
    · rintro ⟨h, g⟩ u action hclean hu ⟨hk, hpaced, hp⟩
      obtain ⟨h', hstep, rfl⟩ := map_eq_some_iff.mp hu
      obtain ⟨hadm, hsynced⟩ := hp.admits hk hclean
      exact ⟨hk.step hadm hstep, hpaced.step hk hadm hsynced hstep, hp.step hk hclean hstep⟩
  exact hp.faithful hk hpaced

lemma create_first (storage : Storage) (r4 r6 : Prefix) (d : String) (f c : Bool) :
    ((({} : Host).start storage r4 r6).create storage (newStore r4 r6).begin d f c).1 =
      if (newInet (if f then r6 else r4)).begin.current.isValid then
        some (newInet (if f then r6 else r4)).begin.nextAddress
      else none := by
  have hstart : ({} : Host).start storage r4 r6 = { store := some (newStore r4 r6).begin } := by
    cases storage <;> rfl
  have hload : storage.loadDomain ({} : Entries) d f = none := by
    cases storage <;> cases f <;> rfl
  have hinet : (newStore r4 r6).begin.inet f = (newInet (if f then r6 else r4)).begin := by
    cases f <;> rfl
  rw [hstart, Host.create]
  simp only [hload, hinet]
  rw [apply_ite Prod.fst]

lemma roomy_of_no_position {p : Prefix} (hp : p.isValid)
    (h : ¬ (newInet p).begin.current.isValid) : Roomy p := by
  have hcur : (newInet p).begin.current = p.addr.next := by
    simp [Inet.begin, newInet, if_pos hp]
  rw [hcur] at h
  refine ⟨fun hnext => absurd hnext h, fun h4 heq => ?_⟩
  have hnext : p.addr.next = .invalid := by
    cases ha : p.addr.next with
    | invalid => rfl
    | v4 | v6 => simp [ha, Addr.isValid] at h
  have hlen := (broadcastAddress_spec hp).1
  rw [← heq, hnext] at hlen
  cases ha : p.addr with
  | invalid | v6 => simp [ha, Addr.is4] at h4
  | v4 => simp [ha, Addr.next, Addr.bitLen] at hlen

end Pool

/-- Over the clean runs with room in the ranges and domains that the storage takes, all
addresses are handed out as they should be; and a new store hands out a wrong address first
where a range has no room. -/
theorem faithful_of_clean_runs (storage : Storage) :
    (∀ t, Reaches (observed storage) (fun _ => Clean storage) ({}, {}) t →
      Faithful storage t.1 t.2) ∧
    ∀ r4 r6 : Prefix, r4.isValid = true → r6.isValid = true →
      ((∀ d f c a, ((({} : Host).start storage r4 r6).create storage
          (newStore r4 r6).begin d f c).1 = some a → InPool (if f then r6 else r4) a) ↔
        Roomy r4 ∧ Roomy r6) := by
  refine ⟨fun t => reaches_faithful, fun r4 r6 h4 h6 => ?_⟩
  simp only [create_first]
  constructor
  · intro h
    have hroomy p (hp : p.isValid)
        (hfirst : (newInet p).begin.current.isValid →
          InPool p (newInet p).begin.nextAddress) : Roomy p := by
      by_cases hcur : (newInet p).begin.current.isValid
      · exact (inPool_begin_iff hcur).mp (hfirst hcur)
      · exact roomy_of_no_position hp hcur
    exact ⟨hroomy r4 h4 fun hcur => h "" false true _ (if_pos hcur),
      hroomy r6 h6 fun hcur => h "" true true _ (if_pos hcur)⟩
  · rintro ⟨hroomy4, hroomy6⟩ d f c a hfirst
    obtain ⟨hcur, rfl⟩ := Option.ite_some_none_eq_some.mp hfirst
    have hroomy : Roomy (if f then r6 else r4) := by
      cases f
      · exact hroomy4
      · exact hroomy6
    exact (inPool_begin_iff hcur).mpr hroomy

instance (p : Prefix) : Decidable (Roomy p) :=
  decidable_of_iff ((p.addr.next.isValid = true → p.contains p.addr.next.next = true) ∧
    (p.addr.is4 = true → p.addr.next.next ≠ broadcastAddress p))
    ⟨fun h => ⟨h.1, h.2⟩, fun h => ⟨h.contained, h.not_last⟩⟩

instance (storage : Storage) : DecidablePred (Clean storage)
  | .start .. => inferInstanceAs (Decidable ((_ ∧ _) ∧ _ ∧ _))
  | .create .. => inferInstanceAs (Decidable (_ → _ ∧ _ ∧ _))
  | .startInterrupted | .crash => .isFalse id
  | .reset | .timer | .close => .isTrue trivial

/-- 192.0.2.0 with this length, and no range for IPv6. -/
def startWith (bits : Nat) : Action :=
  .start { addr := .v4 0xC0000200#32, bits } { addr := .invalid, bits := 0 }

/-- A range with one address to hand out, which goes from domain to domain, and a restart. -/
theorem faithful_of_single_address :
    ∃ t, run (observed .cacheFile) ({}, {}) [startWith 30, .create "a.example" false true,
        .create "b.example" false true, .close, startWith 30] = some t ∧
      t.1.entries.address (.v4 0xC0000202#32) = some "b.example" ∧
      Faithful .cacheFile t.1 t.2 := by
  refine exists_end (by decide) fun ht => ⟨by decide, ?_⟩
  refine (faithful_of_clean_runs .cacheFile).1 _ (Reaches.run .start (fun _ => ?_) ht)
  decide

/-- Of a range of two addresses a third one is handed out, and the cache file does not keep
the address of the root domain. -/
theorem address_outside_narrow_range :
    ((step .memory {} (startWith 31)).any fun h => h.store.any fun s =>
      (h.create .memory s "a.example" false true).1 == some (.v4 0xC0000202#32) &&
      !s.inet4.range.contains (.v4 0xC0000202#32)) = true ∧
    ((run (observed .cacheFile) ({}, {}) [startWith 24, .create "" false true]).any fun t =>
      t.2.owner (.v4 0xC0000202#32) == some "" &&
      (Storage.load .cacheFile t.1.entries (.v4 0xC0000202#32)).isNone) = true := by
  decide

end SingBox.Dns.FakeIp
