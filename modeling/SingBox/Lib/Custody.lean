import Mathlib.Data.Finset.Basic

/-! Things that are made, kept track of, lent and in the end dropped, either to one holder at
a time or shared by all. Nothing that was made is lost on the way. -/

namespace SingBox.Lib
open List Option Prod
open List.Subset (refl)

variable {T : Type*} [DecidableEq T]

/-- Who has what. A thing that was made is pending until it is kept track of, and then idle,
shared or with a holder. `lent` says also which borrower was told that the thing is new. -/
structure Custody (T : Type*) where
  made : List T
  pending : Multiset T
  tracked : Finset T
  idle : List T
  shared : Option T
  claimed : Bool
  lent : List (T × Bool)
  holders : List (Nat × T)
  dropped : Set T

namespace Custody

variable (c : Custody T)

/-- The things that have been lent so far. -/
def out : List T := c.lent.map fst

def held : List T := c.holders.map snd

/-- What can happen, in a custody that lends to one holder at a time or shares. The label is
who puts a thing back, and what. What was dropped stays so. -/
inductive Step (exclusive : Bool) : Option (Nat × T) → Custody T → Custody T → Prop
  | skip {l} {c : Custody T} {dropped : Set T} (hd : c.dropped ⊆ dropped) :
      Step exclusive l c { c with dropped }
  | make {l} {c : Custody T} {x : T} {dropped : Set T}
      (hnew : x ∉ c.made) (hd : c.dropped ⊆ dropped) :
      Step exclusive l c { c with made := x :: c.made, pending := x ::ₘ c.pending, dropped }
  | makeDropped {l} {c : Custody T} {x : T} {dropped : Set T}
      (hnew : x ∉ c.made) (hd : c.dropped ⊆ dropped) (hx : x ∈ dropped) :
      Step exclusive l c { c with made := x :: c.made, dropped }
  | abandon {l} {c : Custody T} {x : T} {pending : Multiset T} {dropped : Set T}
      (hp : c.pending = x ::ₘ pending) (hd : c.dropped ⊆ dropped)
      (hx : x ∈ dropped) : Step exclusive l c { c with pending, dropped }
  | install {l} {c : Custody T} {x : T} {holder : Nat} {pending : Multiset T} {dropped : Set T}
      (he : exclusive = true) (hp : c.pending = x ::ₘ pending)
      (hd : c.dropped ⊆ dropped) : Step exclusive l c { c with
        pending, tracked := insert x c.tracked, lent := (x, true) :: c.lent
        holders := (holder, x) :: c.holders, dropped }
  | share {l} {c : Custody T} {x : T} {pending : Multiset T} {dropped : Set T}
      (he : exclusive = false) (hp : c.pending = x ::ₘ pending)
      (hs : c.shared = none) (hd : c.dropped ⊆ dropped) : Step exclusive l c { c with
        pending, tracked := insert x c.tracked, shared := some x, dropped }
  | claim {l} {c : Custody T} {x : T} {holder : Nat} {dropped : Set T}
      (hs : c.shared = some x) (hd : c.dropped ⊆ dropped) : Step exclusive l c { c with
        claimed := true, lent := (x, !c.claimed) :: c.lent
        holders := (holder, x) :: c.holders, dropped }
  | pop {l} {c : Custody T} {x : T} {idle : List T} {holder : Nat} {dropped : Set T}
      (hi : c.idle = x :: idle) (hd : c.dropped ⊆ dropped) :
      Step exclusive l c { c with
        idle, lent := (x, false) :: c.lent, holders := (holder, x) :: c.holders, dropped }
  | push {c : Custody T} {x : T} {holder : Nat} {dropped : Set T} (he : exclusive = true)
      (ht : x ∈ c.tracked) (hi : x ∉ c.idle) (hd : c.dropped ⊆ dropped) :
      Step exclusive (some (holder, x)) c { c with
        idle := c.idle ++ [x], holders := c.holders.erase (holder, x), dropped }
  | putDown {l} {c : Custody T} {x : T} {holder : Nat} {dropped : Set T}
      (hx : x ∉ c.tracked ∨ x ∈ c.idle ∨ exclusive = false) (hd : c.dropped ⊆ dropped) :
      Step exclusive l c { c with holders := c.holders.erase (holder, x), dropped }
  | drop {l} {c : Custody T} {x : T} {holders : List (Nat × T)} {dropped : Set T}
      (hh : holders = c.holders ∨ ∃ holder, holders = c.holders.erase (holder, x))
      (hd : c.dropped ⊆ dropped) (hx : x ∈ dropped) : Step exclusive l c { c with
        tracked := c.tracked.erase x, idle := c.idle.erase x
        shared := if c.shared = some x then none else c.shared
        claimed := if c.shared = some x then false else c.claimed
        holders, dropped }
  | clear {l} {c : Custody T} {dropped : Set T} (hd : c.dropped ⊆ dropped)
      (ht : ∀ x ∈ c.tracked, x ∈ dropped) : Step exclusive l c { c with
        tracked := ∅, idle := [], shared := none, claimed := false, dropped }

/-- What is kept track of is idle, with a holder or shared. -/
structure Kept (exclusive : Bool) (c : Custody T) : Prop where
  idle_nodup : c.idle.Nodup
  idle_tracked : ∀ x ∈ c.idle, x ∈ c.tracked
  in_use : exclusive = true → ∀ x ∈ c.tracked, x ∈ c.idle ∨ x ∈ c.held
  not_shared : exclusive = true → c.shared = none
  shared : exclusive = false → ∀ x ∈ c.tracked, c.shared = some x
  shared_tracked : ∀ x ∈ c.shared, x ∈ c.tracked
  claimed : c.shared = none → c.claimed = false

/-- What is pending has been seen by no one yet. Of those who borrow a thing, one is told that
it is new. -/
structure Lending (c : Custody T) : Prop where
  tracked_made : ∀ x ∈ c.tracked, x ∈ c.made
  out_made : ∀ x ∈ c.out, x ∈ c.made
  held_out : ∀ x ∈ c.held, x ∈ c.out
  idle_out : ∀ x ∈ c.idle, x ∈ c.out
  pending_nodup : c.pending.Nodup
  pending_made : ∀ x ∈ c.pending, x ∈ c.made
  pending_tracked : ∀ x ∈ c.pending, x ∉ c.tracked
  pending_out : ∀ x ∈ c.pending, x ∉ c.out
  shared_out : ∀ x ∈ c.shared, c.claimed = true ↔ x ∈ c.out
  told : ∀ x, c.lent.count (x, true) = if x ∈ c.out then 1 else 0

/-- No holder has what another has, or what is idle. -/
structure Exclusive (c : Custody T) : Prop where
  held_nodup : c.held.Nodup
  idle_held : ∀ x ∈ c.idle, x ∉ c.held

/-- Everything that was made is kept track of, or pending, or was dropped. -/
def Accounted : Prop := ∀ x ∈ c.made, x ∈ c.tracked ∨ x ∈ c.pending ∨ x ∈ c.dropped

section Steps

variable {exclusive : Bool} {l : Option (Nat × T)} {c c' : Custody T} {holders : List (Nat × T)}

lemma mem_map_erase_of_ne {holder : Nat} {x y : T} (hy : y ∈ holders.map snd) (hne : y ≠ x) :
    y ∈ (holders.erase (holder, x)).map snd := by
  obtain ⟨entry, hent, rfl⟩ := mem_map.mp hy
  refine mem_map.mpr ⟨entry, (mem_erase_of_ne ?_).mpr hent, rfl⟩
  rintro rfl
  exact hne rfl

variable {x : T} {idle : List T}

lemma Step.dropIdle {dropped : Set T} (hi : c.idle = x :: idle)
    (hs : c.shared ≠ some x) (hd : c.dropped ⊆ dropped) (hx : x ∈ dropped) :
    Step exclusive l c { c with tracked := c.tracked.erase x, idle, dropped } := by
  have h : Step exclusive l c _ := .drop (.inl rfl) hd hx
  rwa [hi, erase_cons_head, if_neg hs, if_neg hs] at h

lemma Kept.step (h : Step exclusive l c c') (hc : c.Kept exclusive) : c'.Kept exclusive := by
  cases h with
  | skip | make | makeDropped | abandon => exact { hc with }
  | @install _ _ x holder _ _ he hp hd =>
    have hnone := hc.not_shared he
    refine { hc with
      idle_tracked := fun y hy => ?_, in_use := fun _ y hy => ?_, shared := ?_, shared_tracked := ?_ }
    · exact Finset.mem_insert_of_mem (hc.idle_tracked y hy)
    · obtain rfl | hy := Finset.mem_insert.mp hy
      · exact .inr mem_cons_self
      · exact (hc.in_use he y hy).imp_right (mem_cons_of_mem _)
    · simp [he]
    · intro y hy
      simp [hnone] at hy
  | @share _ _ x _ _ he hp hs hd =>
    have hempty : c.tracked = ∅ := by
      apply Finset.eq_empty_of_forall_notMem
      intro y hy
      have := hc.shared he y hy
      simp [hs] at this
    refine ⟨hc.idle_nodup, fun y hy => Finset.mem_insert_of_mem (hc.idle_tracked y hy), ?_, ?_,
      fun _ y hy => ?_, fun y hy => ?_, ?_⟩
    · simp [he]
    · simp [he]
    · rw [hempty] at hy
      obtain rfl := Finset.mem_singleton.mp hy
      rfl
    · cases hy
      exact Finset.mem_insert_self _ _
    · intro hne
      cases hne
  | @claim _ _ x holder _ hs hd =>
    refine { hc with in_use := fun he y hy => ?_, claimed := fun hne => ?_ }
    · exact (hc.in_use he y hy).imp_right (mem_cons_of_mem _)
    · simp [hs] at hne
  | @pop _ _ x idle holder _ hi hd =>
    have hnodup := hc.idle_nodup
    rw [hi] at hnodup
    refine { hc with
      idle_nodup := (nodup_cons.mp hnodup).2, idle_tracked := fun y hy => ?_
      in_use := fun he y hy => ?_ }
    · exact hc.idle_tracked y (by rw [hi]; exact mem_cons_of_mem _ hy)
    · obtain hidle | hheld := hc.in_use he y hy
      · rw [hi] at hidle
        obtain rfl | hidle := mem_cons.mp hidle
        · exact .inr mem_cons_self
        · exact .inl hidle
      · exact .inr (mem_cons_of_mem _ hheld)
  | @push _ x holder _ he ht hi hd =>
    refine { hc with idle_nodup := ?_, idle_tracked := fun y hy => ?_, in_use := fun _ y hy => ?_ }
    · exact List.Nodup.append hc.idle_nodup (nodup_singleton x) (by simpa using hi)
    · obtain hy | hy := mem_append.mp hy
      · exact hc.idle_tracked y hy
      · obtain rfl := mem_singleton.mp hy
        exact ht
    · by_cases hyx : y = x
      · exact .inl (mem_append_right _ (mem_singleton.mpr hyx))
      · exact (hc.in_use he y hy).imp (mem_append_left _) (mem_map_erase_of_ne · hyx)
  | @putDown _ _ x holder _ hx hd =>
    refine { hc with in_use := fun he y hy => ?_ }
    by_cases hyx : y = x
    · subst hyx
      obtain hx | hx | hx := hx
      · exact absurd hy hx
      · exact .inl hx
      · simp [he] at hx
    · exact (hc.in_use he y hy).imp_right (mem_map_erase_of_ne · hyx)
  | @drop _ _ x holders _ hh hd hx =>
    have hheld : ∀ y ∈ c.held, y ≠ x → y ∈ holders.map snd := by
      intro y hy hne
      obtain rfl | ⟨holder, rfl⟩ := hh
      · exact hy
      · exact mem_map_erase_of_ne hy hne
    refine ⟨hc.idle_nodup.erase x, fun y hy => ?_, fun he y hy => ?_, fun he => ?_, fun he y hy => ?_,
      fun y hy => ?_, fun hnone => ?_⟩
    · obtain ⟨hne, hy⟩ := (hc.idle_nodup.mem_erase_iff).mp hy
      exact Finset.mem_erase.mpr ⟨hne, hc.idle_tracked y hy⟩
    · obtain ⟨hne, hy⟩ := Finset.mem_erase.mp hy
      exact (hc.in_use he y hy).imp (mem_erase_of_ne hne).mpr (hheld y · hne)
    · simp [hc.not_shared he]
    · obtain ⟨hne, hy⟩ := Finset.mem_erase.mp hy
      have hshared := hc.shared he y hy
      simp [hshared, hne]
    · obtain ⟨hne, hshared⟩ := ite_none_left_eq_some.mp hy
      refine Finset.mem_erase.mpr ⟨?_, hc.shared_tracked y hshared⟩
      rintro rfl
      exact hne hshared
    · by_cases hs : c.shared = some x
      · exact if_pos hs
      · dsimp only at hnone ⊢
        rw [if_neg hs] at hnone ⊢
        exact hc.claimed hnone
  | clear hd ht =>
    refine ⟨nodup_nil, ?_, ?_, fun _ => rfl, ?_, ?_, fun _ => rfl⟩
    · simp
    · simp
    · simp
    · intro y hy
      cases hy

namespace Lending
variable (hc : c.Lending)
include hc

lemma take {pending : Multiset T} (hp : c.pending = x ::ₘ pending) :
    { c with pending }.Lending ∧ x ∈ c.made ∧ x ∉ pending ∧ x ∉ c.out := by
  obtain ⟨hnew, hnodup⟩ := Multiset.nodup_cons.mp (hp ▸ hc.pending_nodup)
  have hx : x ∈ c.pending := hp ▸ Multiset.mem_cons_self x pending
  have hmem {y} (hy : y ∈ pending) : y ∈ c.pending := hp ▸ Multiset.mem_cons_of_mem hy
  refine ⟨{ hc with
    pending_nodup := hnodup
    pending_made := fun y hy => hc.pending_made y (hmem hy)
    pending_tracked := fun y hy => hc.pending_tracked y (hmem hy)
    pending_out := fun y hy => hc.pending_out y (hmem hy) }, hc.pending_made x hx, hnew,
    hc.pending_out x hx⟩

lemma track (hmade : x ∈ c.made) (hx : x ∉ c.pending) :
    { c with tracked := insert x c.tracked }.Lending := by
  refine { hc with
    tracked_made := (Finset.forall_mem_insert ..).mpr ⟨hmade, hc.tracked_made⟩
    pending_tracked := fun y hy hy' => ?_ }
  obtain rfl | hy' := Finset.mem_insert.mp hy'
  · exact hx hy
  · exact hc.pending_tracked y hy hy'

variable {isNew : Bool}

lemma told_cons (hx : isNew ↔ x ∉ c.out) (y : T) :
    ((x, isNew) :: c.lent).count (y, true) = if y ∈ x :: c.out then 1 else 0 := by
  rw [count_cons, hc.told y]
  by_cases hyx : y = x
  · subst hyx
    cases isNew <;> simp_all
  · simp [hyx, Ne.symm hyx]

lemma lend (claimed : Bool) (holder : Nat) (hmade : x ∈ c.made) (hx : x ∉ c.pending)
    (htold : ∀ y, ((x, isNew) :: c.lent).count (y, true) = if y ∈ x :: c.out then 1 else 0)
    (hshared : ∀ y ∈ c.shared, claimed ↔ y ∈ x :: c.out) :
    { c with claimed, lent := (x, isNew) :: c.lent, holders := (holder, x) :: c.holders }.Lending :=
        { hc with
  out_made := forall_mem_cons.mpr ⟨hmade, hc.out_made⟩
  held_out := forall_mem_cons.mpr
    ⟨mem_cons_self, fun y hy => mem_cons_of_mem _ (hc.held_out y hy)⟩
  idle_out y hy := mem_cons_of_mem _ (hc.idle_out y hy)
  pending_out y hy hy' := by
    obtain rfl | hy' := mem_cons.mp hy'
    · exact hx hy
    · exact hc.pending_out y hy hy'
  shared_out := hshared
  told := htold }

lemma less {tracked : Finset T} (ht : tracked ⊆ c.tracked)
    (hi : idle ⊆ c.idle) (hh : holders ⊆ c.holders) : { c with tracked, idle, holders }.Lending :=
  { hc with
    tracked_made := fun y hy => hc.tracked_made y (ht hy)
    held_out := fun y hy => hc.held_out y (map_subset _ hh hy)
    idle_out := fun y hy => hc.idle_out y (hi hy)
    pending_tracked := fun y hy hy' => hc.pending_tracked y hy (ht hy') }

end Lending

variable (h : Step exclusive l c c')
include h

lemma Lending.step (hk : c.Kept exclusive) (hc : c.Lending) : c'.Lending := by
  cases h with
  | skip => exact { hc with }
  | @make _ _ x _ hnew hd =>
    exact { hc with
      tracked_made := fun y hy => mem_cons_of_mem _ (hc.tracked_made y hy)
      out_made := fun y hy => mem_cons_of_mem _ (hc.out_made y hy)
      pending_nodup := Multiset.nodup_cons.mpr
          ⟨fun hx => hnew (hc.pending_made x hx), hc.pending_nodup⟩
      pending_made := Multiset.forall_mem_cons.mpr
        ⟨mem_cons_self, fun y hy => mem_cons_of_mem _ (hc.pending_made y hy)⟩
      pending_tracked := Multiset.forall_mem_cons.mpr
        ⟨fun hx => hnew (hc.tracked_made x hx), hc.pending_tracked⟩
      pending_out := Multiset.forall_mem_cons.mpr
        ⟨fun hx => hnew (hc.out_made x hx), hc.pending_out⟩ }
  | makeDropped hnew hd hx =>
    exact { hc with
      tracked_made := fun y hy => mem_cons_of_mem _ (hc.tracked_made y hy)
      out_made := fun y hy => mem_cons_of_mem _ (hc.out_made y hy)
      pending_made := fun y hy => mem_cons_of_mem _ (hc.pending_made y hy) }
  | abandon hp hd hx => exact { (hc.take hp).1 with }
  | @install _ _ x holder pending _ he hp hd =>
    obtain ⟨htaken, hmade, hnew, hout⟩ := hc.take hp
    have hlent := (htaken.track hmade hnew).lend c.claimed holder hmade hnew
      (hc.told_cons (iff_of_true rfl hout)) fun y hy => by rw [hk.not_shared he] at hy; cases hy
    exact { hlent with }
  | @share _ _ x pending _ he hp hs hd =>
    obtain ⟨htaken, hmade, hnew, hout⟩ := hc.take hp
    refine { htaken.track hmade hnew with shared_out := fun y hy => ?_ }
    cases hy
    simp only [hk.claimed hs]
    exact ⟨nofun, fun h => absurd h hout⟩
  | @claim _ _ x holder _ hs hd =>
    have htracked := hk.shared_tracked x hs
    have hclaimed : (!c.claimed) ↔ x ∉ c.out := by
      rw [← hc.shared_out x hs, Bool.not_eq_true', Bool.not_eq_true]
    have hlent := hc.lend true holder (hc.tracked_made x htracked)
      (fun hx => hc.pending_tracked x hx htracked) (hc.told_cons hclaimed) fun y hy => by
        obtain rfl := some.inj (hs.symm.trans hy)
        exact ⟨fun _ => mem_cons_self, fun _ => rfl⟩
    exact { hlent with }
  | @pop _ _ x idle holder _ hi hd =>
    have hout : x ∈ c.out := hc.idle_out x (hi ▸ mem_cons_self)
    have hless := hc.less (Finset.Subset.refl _) (hi ▸ subset_cons_self x idle) (refl c.holders)
    have hlent := hless.lend c.claimed holder (hc.out_made x hout)
      (fun hx => hc.pending_out x hx hout)
          (hc.told_cons (iff_of_false Bool.false_ne_true (not_not_intro hout))) fun y hy => by
        refine (hc.shared_out y hy).trans ⟨mem_cons_of_mem _, fun hy' => ?_⟩
        exact (mem_cons.mp hy').elim (fun heq => heq ▸ hout) id
    exact { hlent with }
  | @push _ x holder _ he ht hi hd =>
    have hout : x ∈ c.out := hc.held_out x ((hk.in_use he x ht).resolve_left hi)
    refine { hc.less (Finset.Subset.refl _) (refl c.idle) erase_subset with
      idle_out := fun y hy => ?_ }
    obtain hy | hy := mem_append.mp hy
    · exact hc.idle_out y hy
    · obtain rfl := mem_singleton.mp hy
      exact hout
  | putDown hx hd => exact { hc.less (Finset.Subset.refl _) (refl c.idle) erase_subset with }
  | @drop _ _ x holders _ hh hd hx =>
    have hsub : holders ⊆ c.holders := by
      obtain rfl | ⟨holder, rfl⟩ := hh
      · exact refl _
      · exact erase_subset
    refine { hc.less (Finset.erase_subset x c.tracked) erase_subset hsub with
      shared_out := fun y hy => ?_ }
    obtain ⟨hne, hy⟩ := ite_none_left_eq_some.mp hy
    dsimp only
    rw [if_neg hne]
    exact hc.shared_out y hy
  | clear hd ht =>
    exact { hc.less (Finset.empty_subset _) (nil_subset _) (refl c.holders) with
      shared_out := nofun }

/-- If a thing is put back only by who has it, then no two holders have the same. -/
theorem Exclusive.step (he : exclusive)
    (hl : ∀ holder x, l = some (holder, x) → ∀ entry ∈ c.holders, entry.2 = x → entry.1 = holder)
    (hk : c.Kept exclusive) (hlent : c.Lending) (hc : c.Exclusive) : c'.Exclusive := by
  cases h with
  | skip | make | makeDropped | abandon => exact { hc with }
  | @install _ _ x holder pending _ _ hp hd =>
    have hx : x ∉ c.out := hlent.pending_out x (by rw [hp]; exact Multiset.mem_cons_self x pending)
    refine ⟨nodup_cons.mpr ⟨fun hheld => hx (hlent.held_out x hheld), hc.held_nodup⟩, ?_⟩
    intro y hy hy'
    obtain rfl | hy' := mem_cons.mp hy'
    · exact hx (hlent.idle_out _ hy)
    · exact hc.idle_held y hy hy'
  | share hne => exact absurd (he.symm.trans hne) (by decide)
  | claim hs =>
    simp [hk.not_shared he] at hs
  | @pop _ _ x idle holder _ hi hd =>
    have hnodup := hk.idle_nodup
    have hidle := hc.idle_held
    rw [hi] at hnodup hidle
    obtain ⟨hx, -⟩ := nodup_cons.mp hnodup
    refine ⟨nodup_cons.mpr ⟨hidle x mem_cons_self, hc.held_nodup⟩, fun y hy hy' => ?_⟩
    obtain rfl | hy' := mem_cons.mp hy'
    · exact hx hy
    · exact hidle y (mem_cons_of_mem _ hy) hy'
  | @push _ x holder _ _ ht hi hd =>
    have hsub : ((c.holders.erase (holder, x)).map snd).Sublist c.held := erase_sublist.map _
    refine ⟨hc.held_nodup.sublist hsub, fun y hy hy' => ?_⟩
    obtain hy | hy := mem_append.mp hy
    · exact hc.idle_held y hy (hsub.subset hy')
    · obtain rfl := mem_singleton.mp hy
      obtain ⟨entry, hent, hsame⟩ := mem_map.mp hy'
      have hholders : c.holders.Nodup := hc.held_nodup.of_map _
      obtain ⟨hne, hent⟩ := hholders.mem_erase_iff.mp hent
      exact hne (Prod.ext (hl holder y rfl entry hent hsame) hsame)
  | @putDown _ _ x holder _ hx hd =>
    have hsub : ((c.holders.erase (holder, x)).map snd).Sublist c.held := erase_sublist.map _
    exact ⟨hc.held_nodup.sublist hsub, fun y hy hy' => hc.idle_held y hy (hsub.subset hy')⟩
  | @drop _ _ x holders _ hh hd hx =>
    have hsub : (holders.map snd).Sublist c.held := by
      obtain rfl | ⟨holder, rfl⟩ := hh
      · exact List.Sublist.refl _
      · exact erase_sublist.map _
    exact ⟨hc.held_nodup.sublist hsub, fun y hy hy' =>
      hc.idle_held y (mem_of_mem_erase hy) (hsub.subset hy')⟩
  | clear => exact ⟨hc.held_nodup, nofun⟩

lemma Accounted.step (hc : c.Accounted) : c'.Accounted := by
  have hkeep {d} (hd : c.dropped ⊆ d) y (hy : y ∈ c.made) :
      y ∈ c.tracked ∨ y ∈ c.pending ∨ y ∈ d :=
    (hc y hy).imp_right fun h => h.imp_right (@hd y)
  cases h with
  | skip hd | claim _ hd | pop _ hd | push _ _ _ hd | putDown _ hd => exact hkeep hd
  | @make _ _ x _ hnew hd =>
    intro y hy
    obtain rfl | hy := mem_cons.mp hy
    · exact .inr (.inl (Multiset.mem_cons_self _ _))
    · exact (hkeep hd y hy).imp_right fun h => h.imp_left Multiset.mem_cons_of_mem
  | @makeDropped _ _ x _ hnew hd hx =>
    intro y hy
    obtain rfl | hy := mem_cons.mp hy
    · exact .inr (.inr hx)
    · exact hkeep hd y hy
  | @abandon _ _ x pending _ hp hd hx =>
    intro y hy
    obtain h | h | h := hkeep hd y hy
    · exact .inl h
    · rw [hp] at h
      obtain rfl | h := Multiset.mem_cons.mp h
      · exact .inr (.inr hx)
      · exact .inr (.inl h)
    · exact .inr (.inr h)
  | @install _ _ x _ pending _ _ hp hd | @share _ _ x pending _ _ hp _ hd =>
    intro y hy
    obtain h | h | h := hkeep hd y hy
    · exact .inl (Finset.mem_insert_of_mem h)
    · rw [hp] at h
      obtain rfl | h := Multiset.mem_cons.mp h
      · exact .inl (Finset.mem_insert_self _ _)
      · exact .inr (.inl h)
    · exact .inr (.inr h)
  | @drop _ _ x holders _ hh hd hx =>
    intro y hy
    by_cases hyx : y = x
    · exact .inr (.inr (hyx ▸ hx))
    · exact (hkeep hd y hy).imp_left fun h => Finset.mem_erase.mpr ⟨hyx, h⟩
  | clear hd ht =>
    intro y hy
    obtain h | h := hkeep hd y hy
    · exact .inr (.inr (ht y h))
    · exact .inr h

end Steps

end Custody

end SingBox.Lib
