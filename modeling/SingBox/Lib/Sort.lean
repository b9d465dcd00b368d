import Mathlib.Data.List.Sort

/-! Sorting a list by a comparison, where nothing is said of the order of elements that the
comparison does not tell apart, and searching a range by halves. -/

namespace SingBox.Lib
open Nat

variable {α κ : Type}

/-- A comparison by which a list can be sorted. -/
structure StrictWeak (less : α → α → Bool) : Prop where
  asymm : ∀ {a b}, less a b = true → less b a = false
  trans : ∀ {a b c}, less b a = false → less c b = false → less c a = false

namespace StrictWeak

variable {less : α → α → Bool} (h : StrictWeak less)
include h

lemma irrefl (a : α) : less a a = false := by
  cases hless : less a a with
  | false => rfl
  | true => exact (h.asymm hless).symm.trans hless |>.symm

lemma total : Std.Total fun a b => less b a = false := by
  constructor
  intro a b
  cases hba : less b a with
  | false => exact .inl rfl
  | true => exact .inr (h.asymm hba)

lemma isTrans : IsTrans α fun a b => less b a = false := ⟨fun _ _ _ hba hcb => h.trans hba hcb⟩

end StrictWeak

/-- Compares by a key, and as given where the keys are equal. -/
def byKey [LinearOrder κ] (key : α → κ) (rest : α → α → Bool) (a b : α) : Bool :=
  if key a ≠ key b then decide (key a < key b) else rest a b

section
variable [LinearOrder κ] {key : α → κ} {rest : α → α → Bool} {a b : α}

lemma byKey_eq_true : byKey key rest a b ↔ key a < key b ∨ key a = key b ∧ rest a b := by
  unfold byKey
  split
  · next h => simp [h]
  · next h =>
    have heq : key a = key b := not_ne_iff.mp h
    simp [heq]

lemma byKey_eq_false : byKey key rest a b = false ↔
    key b < key a ∨ key a = key b ∧ rest a b = false := by
  unfold byKey
  split
  · next h => simp [h, le_iff_lt_or_eq, Ne.symm h]
  · next h =>
    have heq : key a = key b := not_ne_iff.mp h
    simp [heq]

lemma StrictWeak.byKey (h : StrictWeak rest) (key : α → κ) : StrictWeak (byKey key rest) := by
  constructor
  · intro a b hab
    rw [byKey_eq_true] at hab
    rw [byKey_eq_false]
    obtain hlt | ⟨heq, hrest⟩ := hab
    · exact .inl hlt
    · exact .inr ⟨heq.symm, h.asymm hrest⟩
  · intro a b c hba hcb
    rw [byKey_eq_false] at hba hcb ⊢
    obtain hab | ⟨hba, hrest⟩ := hba
    · obtain hbc | ⟨hcb, -⟩ := hcb
      · exact .inl (hab.trans hbc)
      · exact .inl (hcb ▸ hab)
    · obtain hbc | ⟨hcb, hrest'⟩ := hcb
      · exact .inl (hba ▸ hbc)
      · exact .inr ⟨hcb.trans hba, h.trans hrest hrest'⟩

end

/-- A sort: the same elements, and none before one that is less. -/
structure SliceSort where
  sort : {α : Type} → (α → α → Bool) → List α → List α
  perm : ∀ {α : Type} (less : α → α → Bool) (l : List α), (sort less l).Perm l
  sorted : ∀ {α : Type} {less : α → α → Bool} (l : List α), StrictWeak less →
    (sort less l).Pairwise fun a b => less b a = false

namespace SliceSort

variable {less : α → α → Bool} {l : List α} (S : SliceSort)

@[simp] lemma mem_sort {a : α} : a ∈ S.sort less l ↔ a ∈ l := (S.perm less l).mem_iff

/-- Where the comparison tells all elements apart there is one way to sort them. -/
theorem sort_eq (hless : StrictWeak less) {sorted : List α}
    (hsorted : sorted.Pairwise fun a b => less b a = false) (hperm : sorted.Perm l)
    (hapart : ∀ a ∈ l, ∀ b ∈ l, less a b = false → less b a = false → a = b) :
    S.sort less l = sorted := by
  refine List.Perm.eq_of_pairwise ?_ (S.sorted l hless) hsorted ((S.perm less l).trans hperm.symm)
  intro a b ha hb hba hab
  exact hapart a (S.mem_sort.mp ha) b (hperm.mem_iff.mp hb) hab hba

/-- Elements are put in one by one, each before those that are not less. -/
def insertion : SliceSort where
  sort less l := l.insertionSort fun a b => less b a = false
  perm _ l := List.perm_insertionSort _ l
  sorted l h :=
    have := h.total
    have := h.isTrans
    List.pairwise_insertionSort _ l

end SliceSort

/-- The loop of `search` over the range from `i` to `j`; the first argument bounds its
rounds. -/
def searchWithin (f : Nat → Bool) : Nat → Nat → Nat → Nat
  | 0, i, _ => i
  | fuel + 1, i, j =>
    if i < j then
      let h := (i + j) / 2
      if f h then searchWithin f fuel i h else searchWithin f fuel (h + 1) j
    else i

/-- The least index below `n` with a property that those after it have too, or else `n`,
by halving the range. -/
def search (n : Nat) (f : Nat → Bool) : Nat := searchWithin f n 0 n

/-- What `search` finds between two bounds. -/
structure Found (f : Nat → Bool) (i j k : Nat) : Prop where
  lower : i ≤ k
  upper : k ≤ j
  before : ∀ x, i ≤ x → x < k → f x = false
  at_found : k < j → f k = true

lemma Found.nothing (f : Nat → Bool) (i : Nat) : Found f i i i where
  lower := le_refl i
  upper := le_refl i
  before := fun _ hx hx' => absurd hx (not_le.mpr hx')
  at_found := fun h => absurd h (lt_irrefl i)

variable {f : Nat → Bool}

lemma searchWithin_found {n : Nat}
    (hf : ∀ x y, x ≤ y → y < n → f x → f y) {fuel i j : Nat} (hij : i ≤ j)
    (hjn : j ≤ n) (hfuel : j - i ≤ fuel) : Found f i j (searchWithin f fuel i j) := by
  induction fuel generalizing i j with
  | zero =>
    have : i = j := by omega
    subst this
    exact .nothing f i
  | succ fuel ih =>
    unfold searchWithin
    by_cases hlt : i < j
    · rw [if_pos hlt]
      have hmid : i ≤ (i + j) / 2 ∧ (i + j) / 2 < j := by omega
      by_cases hh : f ((i + j) / 2)
      · simp only [hh, if_true]
        have found := ih (j := (i + j) / 2) hmid.1 (by omega) (by omega)
        refine ⟨found.lower, by have := found.upper; omega, found.before, fun hk => ?_⟩
        by_cases hk' : searchWithin f fuel i ((i + j) / 2) < (i + j) / 2
        · exact found.at_found hk'
        · have heq : searchWithin f fuel i ((i + j) / 2) = (i + j) / 2 := by
            have := found.upper
            omega
          rwa [heq]
      · simp only [hh, if_false, Bool.false_eq_true]
        have found := ih (i := (i + j) / 2 + 1) (by omega) hjn (by omega)
        refine { found with lower := by have := found.lower; omega, before := fun x hx hx' => ?_ }
        by_cases hxm : x ≤ (i + j) / 2
        · cases hfx : f x with
          | false => rfl
          | true => exact absurd (hf x _ hxm (by omega) hfx) hh
        · exact found.before x (by omega) hx'
    · rw [if_neg hlt]
      have : i = j := by omega
      subst this
      exact .nothing f i

lemma search_found {n : Nat} (hf : ∀ x y, x ≤ y → y < n → f x → f y) : Found f 0 n (search n f) :=
  searchWithin_found hf (zero_le n) (le_refl n) (le_refl n)

end SingBox.Lib
