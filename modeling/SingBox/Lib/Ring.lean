import Mathlib.Data.Prod.Lex
import SingBox.Lib.Sort

/-! Points on a circle, and the first of them at or after a given place. -/

namespace SingBox.Lib.Ring
open List Nat

variable {H α : Type} [LinearOrder H]

/-- Where a point is met going up from `k`: those below `k` come last. -/
def around (k a : H) : Bool ×ₗ H := toLex (decide (a < k), a)

lemma around_injective (k : H) : Function.Injective (around k) := by
  intro a b h
  exact (Prod.ext_iff.mp (toLex.injective h)).2

variable {k a b : H}

lemma around_le_of_le (hab : a ≤ b) (h : b < k → a < k) (h' : a < k → b < k) :
    around k a ≤ around k b := by
  have hside : decide (a < k) = decide (b < k) := decide_eq_decide.mpr ⟨h', h⟩
  refine Prod.Lex.toLex_le_toLex.mpr (.inr ⟨hside, hab⟩)

lemma around_le_of_above (ha : k ≤ a) (hb : b < k) : around k a ≤ around k b := by
  refine Prod.Lex.toLex_le_toLex.mpr (.inl ?_)
  rw [decide_eq_false (not_lt.mpr ha), decide_eq_true hb]
  exact Bool.false_lt_true

/-- The first point of a list in the order around `k`. -/
structure Nearest (point : α → H) (k : H) (ring : List α) (e : α) : Prop where
  mem : e ∈ ring
  le : ∀ f ∈ ring, around k (point e) ≤ around k (point f)

/-- What is nearest of one list and of another, where each has its place in the other list
too, is at one place. -/
theorem Nearest.point_eq {point : α → H} {k : H} {ring ring' : List α} {e f : α}
    (he : Nearest point k ring e) (hf : Nearest point k ring' f)
    (hef : ∃ e' ∈ ring', point e' = point e) (hfe : ∃ f' ∈ ring, point f' = point f) :
    point e = point f := by
  obtain ⟨e', he', hpe⟩ := hef
  obtain ⟨f', hf', hpf⟩ := hfe
  have h₁ : around k (point e) ≤ around k (point f) := hpf ▸ he.le f' hf'
  have h₂ : around k (point f) ≤ around k (point e) := hpe ▸ hf.le e' he'
  exact around_injective k (le_antisymm h₁ h₂)

/-- The first entry of a sorted ring that is not below `k`, or else the first of all. -/
def next (point : α → H) (k : H) (ring : List α) : Option α :=
  let i := search ring.length fun i => ring[i]?.any fun e => k ≤ point e
  let i := if i ≥ ring.length then 0 else i
  ring[i]?

section
variable {point : α → H} {k : H} {ring : List α}

lemma search_ring_found (k : H) (hsorted : ring.Pairwise fun a b => point a ≤ point b) :
    Found (fun i => ring[i]?.any fun e => k ≤ point e) 0 ring.length
      (search ring.length fun i => ring[i]?.any fun e => k ≤ point e) := by
  apply search_found
  intro x y hxy hy hx
  have hx' : x < ring.length := by omega
  simp only [getElem?_eq_getElem hx', getElem?_eq_getElem hy, Option.any_some,
    decide_eq_true_eq] at hx ⊢
  obtain hlt | rfl := lt_or_eq_of_le hxy
  · exact hx.trans (pairwise_iff_getElem.mp hsorted x y hx' hy hlt)
  · exact hx

lemma exists_next (point : α → H) (k : H) (h : ring ≠ []) : ∃ e, next point k ring = some e := by
  have hpos := length_pos_iff.mpr h
  refine ⟨_, getElem?_eq_getElem ?_⟩
  split <;> omega

lemma next_nearest (hsorted : ring.Pairwise fun a b => point a ≤ point b) {e : α}
    (he : next point k ring = some e) : Nearest point k ring e := by
  have hfound := search_ring_found k hsorted
  have hmono {x y} (hx : x < ring.length) (hy : y < ring.length) (hxy : x ≤ y) :
      point ring[x] ≤ point ring[y] := by
    obtain hlt | rfl := lt_or_eq_of_le hxy
    · exact pairwise_iff_getElem.mp hsorted x y hx hy hlt
    · exact le_rfl
  unfold next at he
  set i := search ring.length fun i => ring[i]?.any fun e => k ≤ point e
  have hbefore {x} (hx : x < ring.length) (hxi : x < i) : point ring[x] < k := by
    have := hfound.before x (zero_le x) hxi
    simpa [getElem?_eq_getElem hx] using this
  refine ⟨mem_of_getElem? he, fun f hf => ?_⟩
  obtain ⟨y, hy, rfl⟩ := getElem_of_mem hf
  obtain ⟨hx, rfl⟩ := List.getElem?_eq_some_iff.mp he
  -- past the end every point is below `k`; else those from the index on are not
  by_cases hend : i ≥ ring.length
  · simp only [if_pos hend] at hx ⊢
    have h₀ := hbefore hx (by omega)
    have hf := hbefore hy (by omega)
    exact around_le_of_le (hmono hx hy (zero_le y)) (fun _ => h₀) (fun _ => hf)
  · simp only [if_neg hend] at hx ⊢
    have hat : k ≤ point ring[i] := by
      have := hfound.at_found (by omega)
      simpa [getElem?_eq_getElem hx] using this
    by_cases hyi : y < i
    · exact around_le_of_above hat (hbefore hy hyi)
    · have hle := hmono hx hy (by omega)
      have hf := hat.trans hle
      exact around_le_of_le hle (fun h => absurd h (not_lt.mpr hf))
          (fun h => absurd h (not_lt.mpr hat))

end

end SingBox.Lib.Ring
