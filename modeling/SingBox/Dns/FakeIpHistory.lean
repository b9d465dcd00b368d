import Mathlib.Data.PEquiv
import SingBox.Dns.FakeIpRange

/-! What a run of the fake IP store has handed out, and that the entries of the storage
agree with it. -/

namespace SingBox.Dns.FakeIp
open Lib Function Option

/-! ## The history of a run -/

/-- The domain that an address was last returned for since the last reset, how often the
position of a family went back in its range, and how often it had when an address was last
taken from the range. -/
structure History where
  owner : Addr → Option String := fun _ => none
  lap : Bool → Nat := fun _ => 0
  stamp : Addr → Nat := fun _ => 0

namespace History

def forgotten (g : History) : History := { g with owner := fun _ => none }

/-- An address was returned, as the one that the domain had or as the next one. -/
def created (storage : Storage) (h : Host) (g : History) (s : Store) (d : String) (isIPv6 : Bool)
    (a : Addr) : History :=
  let owner := update g.owner a (some d)
  if (storage.loadDomain h.entries d isIPv6).isSome then { g with owner }
  else
    let lap := if a.val ≤ (s.inet isIPv6).current.val then g.lap isIPv6 + 1 else g.lap isIPv6
    { owner, lap := update g.lap isIPv6 lap, stamp := update g.stamp a lap }

def after (storage : Storage) (h : Host) (g : History) : Action → History
  | .start inet4Range inet6Range =>
    if storage = .cacheFile ∧ ((newStore inet4Range inet6Range).resume h.metadata).isSome then g
    else g.forgotten
  | .create d isIPv6 commits =>
    match h.store with
    | none => g
    | some s =>
      match (h.create storage s d isIPv6 commits).1 with
      | none => g
      | some a => g.created storage h s d isIPv6 a
  | .reset => g.forgotten
  | .startInterrupted | .timer | .close | .crash => g

end History

variable (storage : Storage)

/-- The host together with the history of its run. -/
def observed : Machine (Host × History) Action
  | (h, g), action => (step storage h action).map fun h' => (h', g.after storage h action)

/-! ## The entries -/

variable (e : Entries)

/-- The address of a domain in a family is stored for the domain, and the other way round. -/
def Entries.Agree : Prop :=
  ∀ a d isIPv6, e.domain isIPv6 d = some a ↔ e.address a = some d ∧ isIPv6 = !a.is4

/-- Entries that agree are a partial bijection between addresses and the domains of a
family. -/
def Entries.pairing (h : e.Agree) : Addr ≃. Bool × String where
  toFun a := (e.address a).map fun d => (!a.is4, d)
  invFun d := e.domain d.1 d.2
  inv := by
    rintro a ⟨isIPv6, d⟩
    have := h a d isIPv6
    simp only [map_eq_some_iff, Prod.mk.injEq]
    grind -linarith

namespace Entries

variable {e : Entries} {a : Addr} {d : String}

lemma agree_empty : ({} : Entries).Agree := by
  intro a d isIPv6
  cases isIPv6 <;> simp [domain]

lemma domain_setDomain (isIPv6 f : Bool) (d : String) (a : Option Addr) :
    (e.setDomain isIPv6 d a).domain f =
      if f = isIPv6 then update (e.domain isIPv6) d a else e.domain f := by
  cases isIPv6 <;> cases f <;> rfl

@[simp] lemma address_setDomain (isIPv6 : Bool) (d : String) (a : Option Addr) :
    (e.setDomain isIPv6 d a).address = e.address := by
  cases isIPv6 <;> rfl

@[simp] lemma address_store (a : Addr) (d : String) :
    (e.store a d).address = update e.address a (some d) := by
  unfold store
  cases he : e.address a <;> simp

lemma domain_store (a : Addr) (d : String) (f : Bool) (d' : String) :
    (e.store a d).domain f d' =
      if f = (!a.is4) ∧ d' = d then some a
      else if f = (!a.is4) ∧ e.address a = some d' then none
      else e.domain f d' := by
  have hother (e : Entries) (address : Addr → Option String) :
      { e with address }.domain = e.domain := by
    cases f <;> rfl
  unfold store
  cases he : e.address a with
  | none | some old =>
    simp only [domain_setDomain, hother]
    grind -linarith [update_apply]

lemma Agree.store (h : e.Agree) (hnone : e.domain (!a.is4) d = none) : (e.store a d).Agree := by
  intro a' d' f
  have hself := h a d' f
  have hother := h a' d' f
  rw [domain_store, address_store]
  by_cases ha : a' = a
  · subst ha
    grind -linarith
  · grind -linarith

end Entries

/-! ## What is kept -/

def OfFamily (isIPv6 : Bool) (p : Prefix) : Prop := p.addr.isValid = true → p.addr.is4 = !isIPv6

def Store.Valid (s : Store) : Prop :=
  ∀ isIPv6, (s.inet isIPv6).Valid ∧ OfFamily isIPv6 (s.inet isIPv6).range

namespace Metadata

variable (m : Metadata)

def range (isIPv6 : Bool) : Prefix := if isIPv6 then m.inet6Range else m.inet4Range

def current (isIPv6 : Bool) : Addr := if isIPv6 then m.inet6Current else m.inet4Current

def Valid : Prop := ∀ isIPv6, Placed (m.range isIPv6) (m.current isIPv6)

end Metadata

namespace Store

variable {s s' : Store} {m : Metadata} {r4 r6 : Prefix}

@[simp] lemma range_metadata (s : Store) (f : Bool) : s.metadata.range f = (s.inet f).range := by
  cases f <;> rfl

@[simp] lemma current_metadata (s : Store) (f : Bool) :
    s.metadata.current f = (s.inet f).current := by
  cases f <;> rfl

lemma inet_setCurrent (s : Store) (f f' : Bool) (a : Addr) : (s.setCurrent f a).inet f' =
      if f' = f then { s.inet f with current := a } else s.inet f' := by
  cases f <;> cases f' <;> rfl

lemma inet_begin (s : Store) (f : Bool) : s.begin.inet f = (s.inet f).begin := by
  cases f <;> rfl

/-- A store takes over the positions of metadata with its ranges. -/
theorem resume_eq_some {metadata : Option Metadata} (h : s.resume metadata = some s') :
    ∃ m, metadata = some m ∧ (∀ f, m.range f = (s.inet f).range) ∧
      ∀ f, s'.inet f = { s.inet f with current := m.current f } := by
  unfold resume at h
  split at h
  · cases h
  · next m =>
    obtain ⟨⟨h4, h6⟩, rfl⟩ := ite_some_none_eq_some.mp h
    refine ⟨m, rfl, fun f => ?_, fun f => ?_⟩
    · cases f
      · exact h4
      · exact h6
    · cases f <;> rfl

lemma Valid.metadata (h : s.Valid) : s.metadata.Valid := by
  intro f
  rw [range_metadata, current_metadata]
  exact (h f).1.placed

lemma Valid.begin (h4 : OfFamily false r4) (h6 : OfFamily true r6) :
    (newStore r4 r6).begin.Valid := by
  intro f
  cases f
  · exact ⟨valid_begin r4, (range_begin _).symm ▸ h4⟩
  · exact ⟨valid_begin r6, (range_begin _).symm ▸ h6⟩

lemma Valid.resume (h4 : OfFamily false r4) (h6 : OfFamily true r6) (hm : m.Valid)
    (h : (newStore r4 r6).resume (some m) = some s) : s.Valid := by
  obtain ⟨m', hm', hrange, hinet⟩ := resume_eq_some h
  obtain rfl := some.inj hm'
  intro f
  have hplaced := hm f
  rw [hrange f] at hplaced
  rw [hinet f]
  have hlast : ∀ p : Prefix, p.isValid → (newInet p).last = broadcastAddress p := by
    intro p hp
    exact if_pos hp
  cases f
  · exact ⟨⟨hlast r4, hplaced⟩, h4⟩
  · exact ⟨⟨hlast r6, hplaced⟩, h6⟩

lemma Valid.setCurrent {f : Bool} (h : s.Valid) (hcur : (s.inet f).current.isValid) :
    (s.setCurrent f (s.inet f).nextAddress).Valid := by
  intro f'
  rw [inet_setCurrent]
  split
  · next hf =>
    subst hf
    exact ⟨⟨(h f').1.last, placed_nextAddress (h f').1 hcur⟩, (h f').2⟩
  · exact h f'

end Store

variable (h : Host)

/-- What `Start` does: it goes on where the metadata say, or begins anew. -/
theorem start_cases (g : History) (r4 r6 : Prefix) :
    (∃ s, storage = .cacheFile ∧ (newStore r4 r6).resume h.metadata = some s ∧
      h.start storage r4 r6 = { entries := h.entries, store := some s } ∧
      g.after storage h (.start r4 r6) = g) ∨
    (h.start storage r4 r6 = { store := some (newStore r4 r6).begin } ∧
      g.after storage h (.start r4 r6) = g.forgotten) := by
  cases storage with
  | memory =>
    refine .inr ⟨rfl, ?_⟩
    simp [History.after]
  | cacheFile =>
    cases hresume : (newStore r4 r6).resume h.metadata with
    | none =>
      refine .inr ⟨?_, ?_⟩
      · simp [Host.start, hresume]
      · simp [History.after, hresume]
    | some s =>
      refine .inl ⟨s, rfl, rfl, ?_, ?_⟩
      · simp only [Host.start, hresume]
      · simp [History.after, hresume]

/-- What `Create` does: the domain has an address, there is no range, or the next address is
stored for it. -/
theorem create_cases (s : Store) (d : String) (f c : Bool) :
    (∃ a, storage.loadDomain h.entries d f = some a ∧ h.create storage s d f c = (some a, h)) ∨
    (storage.loadDomain h.entries d f = none ∧ h.create storage s d f c = (none, h)) ∨
    (storage.loadDomain h.entries d f = none ∧ (s.inet f).current.isValid ∧
      h.create storage s d f c = (some (s.inet f).nextAddress, {
        entries := if storage.takes (s.inet f).nextAddress d c then
          h.entries.store (s.inet f).nextAddress d else h.entries
        metadata := h.metadata
        saveMetadata := if storage = .cacheFile then
          some (s.setCurrent f (s.inet f).nextAddress).metadata else none
        store := some (s.setCurrent f (s.inet f).nextAddress) })) := by
  unfold Host.create
  cases hload : storage.loadDomain h.entries d f with
  | some a => exact .inl ⟨a, rfl, rfl⟩
  | none =>
    dsimp only
    split
    · next hcur => exact .inr (.inr ⟨rfl, hcur, rfl⟩)
    · exact .inr (.inl ⟨rfl, rfl⟩)

def Stores (d : String) (f c : Bool) : Prop :=
  ∀ s ∈ h.store, storage.loadDomain h.entries d f = none → (s.inet f).current.isValid = true →
    (s.inet f).nextAddress.isValid = true ∧ storage.takes (s.inet f).nextAddress d c = true

/-- The entries agree, they hold what was returned last, and positions are in their
ranges. -/
structure Kept (storage : Storage) (h : Host) (g : History) : Prop where
  agree : h.entries.Agree
  valid : ∀ a d, h.entries.address a = some d → a.isValid = true ∧ (storage = .cacheFile → d ≠ "")
  store : ∀ s ∈ h.store, s.Valid
  metadata : ∀ m ∈ h.metadata, m.Valid
  saveMetadata : ∀ m ∈ h.saveMetadata, ∃ s ∈ h.store, m = s.metadata
  owner : ∀ a d, g.owner a = some d → h.entries.address a = some d

namespace Kept

variable {storage : Storage} {h : Host} {g : History} {s : Store} {d : String} {f c : Bool}

lemma loadDomain_eq (hk : Kept storage h g) (d : String) (f : Bool) :
    storage.loadDomain h.entries d f = h.entries.domain f d := by
  cases storage with
  | memory => rfl
  | cacheFile =>
    unfold Storage.loadDomain
    cases hd : h.entries.domain f d with
    | none => rfl
    | some a =>
      have := (hk.valid a d ((hk.agree a d f).mp hd).1).1
      simp [this]

lemma load_eq (hk : Kept storage h g) (a : Addr) :
    storage.load h.entries a = h.entries.address a := by
  cases storage with
  | memory => rfl
  | cacheFile =>
    unfold Storage.load
    cases ha : h.entries.address a with
    | none => rfl
    | some d =>
      have := (hk.valid a d ha).2 rfl
      simp [this]

lemma of_empty (hents : h.entries = {}) (howner : g.owner = fun _ => none)
    (hstore : ∀ s ∈ h.store, s.Valid) (hmeta : h.metadata = none)
    (hsave : ∀ m ∈ h.saveMetadata, ∃ s ∈ h.store, m = s.metadata) : Kept storage h g := by
  refine ⟨hents ▸ Entries.agree_empty, fun a d ha => ?_, hstore, fun m hm => ?_, hsave,
    fun a d ha => ?_⟩
  · simp [hents] at ha
  · simp [hmeta] at hm
  · simp [howner] at ha

lemma initial (storage : Storage) : Kept storage {} {} := by
  refine of_empty rfl rfl (fun s hs => ?_) rfl (fun m hm => ?_)
  · cases hs
  · cases hm

lemma ended {metadata : Option Metadata} (hk : Kept storage h g)
    (hmeta : ∀ m ∈ metadata, m.Valid) : Kept storage { entries := h.entries, metadata } g := by
  refine ⟨hk.agree, hk.valid, fun s hs => ?_, hmeta, fun m hm => ?_, hk.owner⟩
  · cases hs
  · cases hm

lemma family_nextAddress (hs : s.Valid) (hcur : (s.inet f).current.isValid)
    (hval : (s.inet f).nextAddress.isValid) : f = !(s.inet f).nextAddress.is4 := by
  have hplaced := placed_nextAddress (hs f).1 hcur
  have haddr : (s.inet f).range.addr.isValid := by
    have := (hplaced.valid hval).1
    simp only [Prefix.isValid, Bool.and_eq_true] at this
    exact this.1
  rw [Addr.is4_eq_of_bitLen (hplaced.family hval), (hs f).2 haddr, Bool.not_not]

lemma start {r4 r6 : Prefix} (hk : Kept storage h g) (h4 : OfFamily false r4)
    (h6 : OfFamily true r6) :
    Kept storage (h.start storage r4 r6) (g.after storage h (.start r4 r6)) := by
  obtain ⟨s, -, hresume, hstart, hafter⟩ | ⟨hstart, hafter⟩ := start_cases storage h g r4 r6
  · rw [hstart, hafter]
    refine ⟨hk.agree, hk.valid, fun s' hs' => ?_, fun m hm => ?_, fun m hm => ?_, hk.owner⟩
    · obtain rfl := some.inj hs'
      obtain ⟨m, hm, -⟩ := Store.resume_eq_some hresume
      exact .resume h4 h6 (hk.metadata m hm) (hm ▸ hresume)
    · cases hm
    · cases hm
  · rw [hstart, hafter]
    refine of_empty rfl rfl (fun s hs => ?_) rfl (fun m hm => ?_)
    · cases hs
      exact .begin h4 h6
    · cases hm

lemma create (hk : Kept storage h g) (hs : h.store = some s) (hstores : Stores storage h d f c) :
    Kept storage (h.create storage s d f c).2 (g.after storage h (.create d f c)) := by
  have hstore := hk.store s hs
  obtain ⟨a, hload, hcreate⟩ | ⟨hload, hcreate⟩ | ⟨hload, hcur, hcreate⟩ :=
    create_cases storage h s d f c
  · -- the domain has the address already
    have hafter : g.after storage h (.create d f c) =
        { g with owner := update g.owner a (some d) } := by
      simp [History.after, hs, hcreate, History.created, hload]
    rw [hafter, hcreate]
    refine { hk with owner := fun a' d' h' => ?_ }
    rw [hk.loadDomain_eq] at hload
    dsimp only at h' ⊢
    by_cases ha : a' = a
    · subst ha
      rw [update_self] at h'
      exact h' ▸ ((hk.agree a' d f).mp hload).1
    · rw [update_of_ne ha] at h'
      exact hk.owner a' d' h'
  · have hafter : g.after storage h (.create d f c) = g := by
      simp [History.after, hs, hcreate]
    rwa [hafter, hcreate]
  · obtain ⟨hval, htakes⟩ := hstores s hs hload hcur
    have hfamily := family_nextAddress hstore hcur hval
    have howner : (g.after storage h (.create d f c)).owner =
        update g.owner (s.inet f).nextAddress (some d) := by
      simp [History.after, hs, hcreate, History.created, hload]
    rw [hcreate, htakes, if_pos rfl]
    rw [hk.loadDomain_eq, hfamily] at hload
    refine ⟨hk.agree.store hload, fun a d' h' => ?_, fun s' hs' => ?_, hk.metadata,
      fun m hm => ?_, fun a d' h' => ?_⟩
    · rw [Entries.address_store] at h'
      by_cases ha : a = (s.inet f).nextAddress
      · subst ha
        rw [update_self] at h'
        obtain rfl := some.inj h'
        refine ⟨hval, fun hfile => ?_⟩
        subst hfile
        simp only [Storage.takes, Bool.and_eq_true, bne_iff_ne] at htakes
        exact htakes.1.1.2
      · rw [update_of_ne ha] at h'
        exact hk.valid a d' h'
    · obtain rfl := some.inj hs'
      exact hstore.setCurrent hcur
    · obtain ⟨-, hm⟩ := ite_none_right_eq_some.mp hm
      exact ⟨_, rfl, (some.inj hm).symm⟩
    · rw [howner] at h'
      rw [Entries.address_store]
      by_cases ha : a = (s.inet f).nextAddress
      · subst ha
        rwa [update_self] at h' ⊢
      · rw [update_of_ne ha] at h' ⊢
        exact hk.owner a d' h'

end Kept

/-- A start with ranges of the families, and a new domain whose address is stored. -/
def Admits : Action → Prop
  | .start inet4Range inet6Range => OfFamily false inet4Range ∧ OfFamily true inet6Range
  | .create d isIPv6 commits => Stores storage h d isIPv6 commits
  | _ => True

lemma Kept.step {storage : Storage} {h h' : Host} {g : History} {action : Action}
    (hk : Kept storage h g) (hadm : Admits storage h action)
    (hu : FakeIp.step storage h action = some h') : Kept storage h' (g.after storage h action) := by
  cases action with
  | start r4 r6 =>
    obtain ⟨-, rfl⟩ := ite_some_none_eq_some.mp hu
    exact hk.start hadm.1 hadm.2
  | startInterrupted =>
    obtain ⟨-, rfl⟩ := ite_some_none_eq_some.mp hu
    refine { hk with metadata := fun m hm => ?_ }
    cases hm
  | create d f c =>
    obtain ⟨s, hs, rfl⟩ := map_eq_some_iff.mp hu
    exact hk.create hs hadm
  | reset =>
    obtain ⟨s, hs, rfl⟩ := map_eq_some_iff.mp hu
    exact .of_empty rfl rfl hk.store rfl hk.saveMetadata
  | timer =>
    obtain ⟨m, hm, rfl⟩ := map_eq_some_iff.mp hu
    obtain ⟨s, hs, rfl⟩ := hk.saveMetadata m hm
    refine { hk with metadata := fun m hm => ?_, saveMetadata := fun m hm => ?_ }
    · cases hm
      exact (hk.store s hs).metadata
    · cases hm
  | close =>
    obtain ⟨s, hs, rfl⟩ := map_eq_some_iff.mp hu
    refine hk.ended fun m hm => ?_
    obtain ⟨-, rfl⟩ := ite_some_none_eq_some.mp hm
    exact (hk.store s hs).metadata
  | crash =>
    obtain ⟨s, hs, rfl⟩ := map_eq_some_iff.mp hu
    exact hk.ended hk.metadata

end SingBox.Dns.FakeIp
