import Mathlib.Data.List.Perm.Basic
import Mathlib.Tactic.Linarith
import SingBox.Group.Member

/-! Who has a place at each point of the second loop of `selectTopNWithTolerance`: all that
have had their turn, and the best of the kept ones that have not. The loop ends with those who
have a place when the first challenger fails. -/

namespace SingBox.Group
open Lib List Nat

/-- Candidates as `sortCandidatesByScore` leaves them, each with a tag of its own. -/
structure Ranked (healthy : List Candidate) : Prop where
  sorted : healthy.Pairwise fun a b => rankBefore a b = true
  distinct : (healthy.map Candidate.tag).Nodup

lemma rankAfter_eq (a b : Candidate) : rankAfter a b = rankBefore b a := by
  unfold rankAfter rankBefore byKey byTag
  simp [ne_comm]

variable {tolerance : Nat} {next incumbent : Candidate}

lemma outranks_iff : outranksBeyondTolerance next incumbent tolerance ↔
      next.score + tolerance < incumbent.score ∨
        next.score = incumbent.score ∧ next.latency + tolerance < incumbent.latency := by
  have htolerance : (0 : ℚ) ≤ tolerance := cast_nonneg tolerance
  unfold outranksBeyondTolerance
  by_cases heq : incumbent.score = next.score
  · simp [heq, htolerance]
  · simp [heq, Ne.symm heq]

variable {a b : Candidate}

lemma rankBefore_iff : rankBefore a b ↔ a.score < b.score ∨ a.score = b.score ∧
      (a.latency < b.latency ∨ a.latency = b.latency ∧ a.tag < b.tag) := by
  simp [rankBefore, byKey_eq_true, byTag]

lemma rankBefore_of_outranks (h : outranksBeyondTolerance next incumbent tolerance) :
    rankBefore next incumbent := by
  rw [outranks_iff] at h
  rw [rankBefore_iff]
  obtain hscore | ⟨heq, hlat⟩ := h
  · exact .inl (by linarith)
  · exact .inr ⟨heq, .inl (by omega)⟩

lemma not_outranks_of_rankBefore (h : rankBefore a b) :
    ¬ outranksBeyondTolerance b a tolerance := by
  intro hout
  simp [rankBefore_strictWeak.asymm (rankBefore_of_outranks hout)] at h

namespace Ranked

variable {healthy before rest : List Candidate} {u : Candidate}

lemma eq_of_tag (h : Ranked healthy) (ha : a ∈ healthy) (hb : b ∈ healthy)
    (htag : a.tag = b.tag) : a = b :=
  inj_on_of_nodup_map h.distinct ha hb htag

lemma nodup (h : Ranked healthy) : healthy.Nodup := h.distinct.of_map

variable {l : List Candidate}

section
variable (h : Ranked healthy)
include h

lemma sublist (hl : l.Sublist healthy) : Ranked l :=
  ⟨h.sorted.sublist hl, h.distinct.sublist (hl.map _)⟩

lemma eq_of_mem_iff (hl : Ranked l) (hmem : ∀ c, c ∈ healthy ↔ c ∈ l) : healthy = l := by
  have hperm := (perm_ext_iff_of_nodup h.nodup hl.nodup).mpr hmem
  refine hperm.eq_of_pairwise ?_ h.sorted hl.sorted
  intro a b _ _ hab hba
  simp [rankBefore_strictWeak.asymm hab] at hba

lemma filter_mem (hl : l.Sublist healthy) : healthy.filter (· ∈ l) = l := by
  refine (h.sublist filter_sublist).eq_of_mem_iff (h.sublist hl) fun c => ?_
  rw [mem_filter, decide_eq_true_eq]
  exact ⟨And.right, fun hc => ⟨hl.subset hc, hc⟩⟩

end

variable (h : Ranked (before ++ u :: rest))
include h

variable {c : Candidate}

lemma before_lt (hc : c ∈ before) : rankBefore c u :=
  (pairwise_append.mp h.sorted).2.2 c hc u mem_cons_self

lemma not_mem_before : u ∉ before := by
  intro hu
  have hlt := h.before_lt hu
  simp [rankBefore_strictWeak.irrefl] at hlt

end Ranked

variable (S : SliceSort)

lemma ranked_sort {candidates : List Candidate}
    (h : (candidates.map Candidate.tag).Nodup) : Ranked (sortCandidatesByScore S candidates) := by
  have hperm := S.perm rankBefore candidates
  have hdist := (hperm.map _).nodup_iff.mpr h
  refine ⟨?_, hdist⟩
  have hne := pairwise_map.mp hdist
  refine ((S.sorted candidates rankBefore_strictWeak).and hne).imp ?_
  rintro a b ⟨hba, hne⟩
  cases hab : rankBefore a b with
  | true => rfl
  | false => exact absurd (tag_eq_of_rankBefore hab hba) hne

lemma sort_of_perm {selected ranked : List Candidate} (h : Ranked ranked)
    (hperm : selected.Perm ranked) : sortCandidatesByScore S selected = ranked := by
  refine S.sort_eq rankBefore_strictWeak ?_ hperm.symm ?_
  · exact h.sorted.imp fun hab => rankBefore_strictWeak.asymm hab
  · intro a ha b hb hab hba
    exact h.eq_of_tag (hperm.mem_iff.mp ha) (hperm.mem_iff.mp hb) (tag_eq_of_rankBefore hab hba)

/-- The loop of `worstCandidateIndex` ends at a candidate that none ranks after. -/
theorem worstFrom_spec (pre : List Candidate) {rest : List Candidate} {worst : Nat} {c : Candidate}
    (hc : (pre ++ rest)[worst]? = some c) (hpre : ∀ x ∈ pre, rankAfter x c = false) :
    ∃ w, (pre ++ rest)[worstFrom worst c pre.length rest]? = some w ∧
      ∀ x ∈ pre ++ rest, rankAfter x w = false := by
  induction rest generalizing pre worst c with
  | nil => exact ⟨c, hc, by simpa using hpre⟩
  | cons next rest ih =>
    have hsplit : pre ++ next :: rest = (pre ++ [next]) ++ rest := by simp
    have hlen : pre.length + 1 = (pre ++ [next]).length := by simp
    rw [worstFrom]
    by_cases hafter : rankAfter next c
    · rw [if_pos hafter, hsplit, hlen]
      apply ih
      · simp
      · intro x hx
        rw [rankAfter_eq] at hafter ⊢
        obtain hx | hx := mem_append.mp hx
        · have hcx := hpre x hx
          rw [rankAfter_eq] at hcx
          exact rankBefore_strictWeak.trans hcx (rankBefore_strictWeak.asymm hafter)
        · rw [mem_singleton.mp hx]
          exact rankBefore_strictWeak.irrefl next
    · rw [if_neg hafter, hsplit, hlen]
      apply ih
      · rwa [← hsplit]
      · intro x hx
        obtain hx | hx := mem_append.mp hx
        · exact hpre x hx
        · rw [mem_singleton.mp hx]
          exact Bool.not_eq_true _ ▸ hafter

variable {selected : List Candidate}

lemma worstCandidateIndex_spec (h : selected ≠ []) :
    ∃ w, selected[worstCandidateIndex selected]? = some w ∧
      ∀ x ∈ selected, rankAfter x w = false := by
  cases selected with
  | nil => exact absurd rfl h
  | cons c rest =>
    apply worstFrom_spec [c]
    · rfl
    · intro x hx
      rw [mem_singleton.mp hx, rankAfter_eq]
      exact rankBefore_strictWeak.irrefl c

/-- Those who have a place when the ones before a point have had their turn. -/
def standing (n : Nat) (kept before rest : List Candidate) : List Candidate :=
  (before ++ rest.filter (· ∈ kept)).take n

/-- The turn of a candidate does not end the loop: it has a place already, or there is a free
one, or it outranks the last who has one. -/
def Passes (n tolerance : Nat) (kept before : List Candidate) (u : Candidate)
    (rest : List Candidate) : Prop :=
  u ∈ standing n kept before (u :: rest) ∨ (standing n kept before (u :: rest)).length < n ∨
    ∃ w, (standing n kept before (u :: rest)).getLast? = some w ∧
      outranksBeyondTolerance u w tolerance = true

/-- The turn at which the loop ends. -/
structure StopsAt (n tolerance : Nat) (kept healthy before : List Candidate) (u : Candidate)
    (rest : List Candidate) : Prop where
  split : healthy = before ++ u :: rest
  earlier : ∀ before' u' rest', healthy = before' ++ u' :: rest' → before'.length < before.length →
    Passes n tolerance kept before' u' rest'
  stop : ¬ Passes n tolerance kept before u rest

section
variable {n tolerance : Nat} {kept healthy before rest : List Candidate} {u : Candidate}

lemma standing_sublist (n : Nat) (kept before rest : List Candidate) :
    (standing n kept before rest).Sublist (before ++ rest) :=
  (take_sublist _ _).trans (List.Sublist.append_left filter_sublist before)

variable {w : Candidate}

lemma worst_eq_last {selected standers : List Candidate} (h : Ranked standers)
    (hperm : selected.Perm standers) (hw : w ∈ selected)
    (hworst : ∀ x ∈ selected, rankAfter x w = false) : standers.getLast? = some w := by
  have hw' := hperm.mem_iff.mp hw
  obtain hnil | ⟨init, last, hconcat⟩ := eq_nil_or_concat standers
  · rw [hnil] at hw'
    cases hw'
  · rw [concat_eq_append] at hconcat
    subst hconcat
    rw [getLast?_concat]
    obtain hinit | hlast := mem_append.mp hw'
    · have hlt : rankBefore w last := h.before_lt hinit
      have hafter := hworst last (hperm.mem_iff.mpr (by simp))
      simp [rankAfter_eq, hlt] at hafter
    · rw [mem_singleton.mp hlast]

/-- A kept candidate whose turn has come stays where it is. -/
theorem standing_kept (n : Nat) (before rest : List Candidate) (hu : u ∈ kept) :
    standing n kept (before ++ [u]) rest = standing n kept before (u :: rest) := by
  simp [standing, filter_cons_of_pos, hu]

lemma standing_not_kept (n : Nat) (before rest : List Candidate) (hu : u ∉ kept) :
    standing n kept before (u :: rest) = standing n kept before rest := by
  simp [standing, filter_cons_of_neg, hu]

lemma standing_of_not_kept (n : Nat) (kept before rest : List Candidate) (u : Candidate) :
    standing n kept (before ++ [u]) rest = (before ++ u :: rest.filter (· ∈ kept)).take n := by
  simp [standing]

lemma mem_before_or_kept {c : Candidate} (h : c ∈ standing n kept before rest) :
    c ∈ before ∨ c ∈ rest ∧ c ∈ kept := by
  simpa using mem_of_mem_take h

/-- One that has a place at its turn is kept, and there was room for it. -/
theorem kept_of_mem_standing (h : Ranked (before ++ u :: rest))
    (hu : u ∈ standing n kept before (u :: rest)) : u ∈ kept ∧ before.length < n := by
  have hnot := h.not_mem_before
  refine ⟨?_, ?_⟩
  · obtain hb | ⟨-, hk⟩ := mem_before_or_kept hu
    · exact absurd hb hnot
    · exact hk
  · rw [standing, take_append] at hu
    obtain hb | hr := mem_append.mp hu
    · exact absurd (mem_of_mem_take hb) hnot
    · by_contra hle
      simp [Nat.sub_eq_zero_of_le (Nat.not_lt.mp hle), take_zero] at hr

/-- There is room before the turn of a kept one that has no place, if any, for none. -/
theorem not_kept_of_room (hlen : before.length < n)
    (hu : u ∉ standing n kept before (u :: rest)) : u ∉ kept := by
  intro hk
  apply hu
  obtain ⟨m, hm⟩ : ∃ m, n - before.length = m + 1 := ⟨n - before.length - 1, by omega⟩
  rw [standing, take_append, filter_cons_of_pos (by simpa using hk), hm, take_succ_cons]
  simp

/-- Where all places are taken and one that is not kept takes the last, the others stay. -/
theorem standing_replace (hroom : before.length < n) (hnot : u ∉ kept)
    (hlast : (standing n kept before (u :: rest)).getLast? = some w)
    (hfull : ¬ (standing n kept before (u :: rest)).length < n) :
    ∃ others, standing n kept before (u :: rest) = before ++ others ++ [w] ∧
      standing n kept (before ++ [u]) rest = before ++ u :: others := by
  obtain ⟨m, hm⟩ : ∃ m, n = before.length + (m + 1) := ⟨n - before.length - 1, by omega⟩
  have hlong : m < (rest.filter (· ∈ kept)).length := by
    rw [standing_not_kept n before rest hnot, standing, length_take, length_append]
      at hfull
    omega
  have hold : standing n kept before (u :: rest) =
      before ++ (rest.filter (· ∈ kept)).take m ++ [(rest.filter (· ∈ kept))[m]] := by
    rw [standing_not_kept n before rest hnot, standing, hm, take_length_add_append,
      take_succ_eq_append_getElem hlong, append_assoc]
  refine ⟨(rest.filter (· ∈ kept)).take m, ?_, ?_⟩
  · rw [hold, getLast?_concat] at hlast
    rw [hold, Option.some.inj hlast]
  · rw [standing_of_not_kept, hm, take_length_add_append, take_succ_cons]

/-- What holds when the turn has come to the candidates of `rest`. -/
structure Turn (n tolerance : Nat) (kept healthy before rest selected : List Candidate)
    (selectedSet : List Tag) : Prop where
  split : healthy = before ++ rest
  perm : selected.Perm (standing n kept before rest)
  set_iff : ∀ c ∈ healthy, c.tag ∈ selectedSet ↔ c ∈ selected
  room : before.length ≤ n
  earlier : ∀ before' u' rest', healthy = before' ++ u' :: rest' → before'.length < before.length →
    Passes n tolerance kept before' u' rest'

namespace Turn

variable {selected : List Candidate} {selectedSet : List Tag}

section
variable (h : Turn n tolerance kept healthy before (u :: rest) selected selectedSet)
include h

lemma earlier_next
    (hpasses : Passes n tolerance kept before u rest) (before' : List Candidate) (u' : Candidate)
    (rest' : List Candidate) (hsplit : healthy = before' ++ u' :: rest')
    (hlen : before'.length < (before ++ [u]).length) : Passes n tolerance kept before' u' rest' := by
  rw [length_append, length_singleton] at hlen
  obtain hlt | heq := Nat.lt_or_eq_of_le (Nat.lt_succ_iff.mp hlen)
  · exact h.earlier before' u' rest' hsplit hlt
  · obtain ⟨rfl, htail⟩ := append_inj (hsplit.symm.trans h.split) heq
    cases htail
    exact hpasses

section
variable (hrank : Ranked healthy)
include hrank

lemma keep (hmem : u ∈ selected) :
    Turn n tolerance kept healthy (before ++ [u]) rest selected selectedSet := by
  have hstand := h.perm.mem_iff.mp hmem
  obtain ⟨hkept, hroom⟩ := kept_of_mem_standing (h.split ▸ hrank) hstand
  constructor
  · rw [h.split, append_assoc, singleton_append]
  · rw [standing_kept n before rest hkept]
    exact h.perm
  · exact h.set_iff
  · rwa [length_append, length_singleton]
  · exact h.earlier_next (.inl hstand)

section
variable (hmem : u ∉ selected)
include hmem

lemma fill (hfree : selected.length < n) :
    Turn n tolerance kept healthy (before ++ [u]) rest (selected ++ [u]) (u.tag :: selectedSet) := by
  have hstand : u ∉ standing n kept before (u :: rest) := fun hu => hmem (h.perm.mem_iff.mpr hu)
  have hshort : (standing n kept before (u :: rest)).length < n := h.perm.length_eq ▸ hfree
  have htotal : (before ++ (u :: rest).filter (· ∈ kept)).length < n := by
    rw [standing, length_take] at hshort
    omega
  have hroom : before.length < n := by
    rw [length_append] at htotal
    omega
  have hnot := not_kept_of_room hroom hstand
  have hperm := h.perm
  rw [standing, take_of_length_le (by omega), filter_cons_of_neg (by simpa using hnot)]
    at hperm
  rw [filter_cons_of_neg (by simpa using hnot)] at htotal
  constructor
  · rw [h.split, append_assoc, singleton_append]
  · rw [standing_of_not_kept, take_of_length_le (by simp at htotal ⊢; omega)]
    exact (perm_append_comm.trans (hperm.cons u)).trans perm_middle.symm
  · intro c hc
    rw [mem_cons, h.set_iff c hc, mem_append, mem_singleton, or_comm]
    refine or_congr Iff.rfl ⟨fun htag => ?_, fun heq => by rw [heq]⟩
    exact hrank.eq_of_tag hc (by simp [h.split]) htag
  · rwa [length_append, length_singleton]
  · exact h.earlier_next (.inr (.inl hshort))

/-- The worst gives its place to one that outranks it. -/
theorem replace (hfull : ¬ selected.length < n) {i : Nat}
    (hw : selected[i]? = some w) (hworst : ∀ x ∈ selected, rankAfter x w = false)
    (houtranks : outranksBeyondTolerance u w tolerance) :
    Turn n tolerance kept healthy (before ++ [u]) rest (selected.set i u)
      (u.tag :: selectedSet.filter (· ≠ w.tag)) := by
  have hrank' := h.split ▸ hrank
  have hstand : u ∉ standing n kept before (u :: rest) := fun hu => hmem (h.perm.mem_iff.mpr hu)
  have hsub := (standing_sublist n kept before (u :: rest))
  have hw' : w ∈ selected := mem_of_getElem? hw
  have hlast := worst_eq_last (hrank'.sublist hsub) h.perm hw' hworst
  have hwbefore : w ∉ before := fun hb => not_outranks_of_rankBefore (hrank'.before_lt hb) houtranks
  have hroom : before.length < n := by
    by_contra hle
    have hmem' := mem_of_getLast? hlast
    rw [standing, take_append_of_le_length (not_lt.mp hle)] at hmem'
    exact hwbefore (mem_of_mem_take hmem')
  have hnot := not_kept_of_room hroom hstand
  obtain ⟨others, hold, hnew⟩ := standing_replace hroom hnot hlast (h.perm.length_eq ▸ hfull)
  obtain ⟨hi, hthat⟩ := List.getElem?_eq_some_iff.mp hw
  have hcons : (w :: selected.eraseIdx i).Perm selected := hthat ▸ getElem_cons_eraseIdx_perm hi
  have herase : (selected.eraseIdx i).Perm (before ++ others) := by
    have hperm := hold ▸ h.perm
    exact (hcons.trans (hperm.trans perm_append_comm)).cons_inv
  have hset := set_perm_cons_eraseIdx hi u
  have hnodup : (w :: selected.eraseIdx i).Nodup :=
    hcons.nodup_iff.mpr (h.perm.nodup_iff.mpr (hrank'.sublist hsub).nodup)
  constructor
  · rw [h.split, append_assoc, singleton_append]
  · rw [hnew]
    exact hset.trans ((herase.cons u).trans perm_middle.symm)
  · intro c hc
    have hwh : w ∈ healthy := h.split ▸ hsub.subset (h.perm.mem_iff.mp hw')
    have huh : u ∈ healthy := by simp [h.split]
    have htagu : c.tag = u.tag ↔ c = u := ⟨hrank.eq_of_tag hc huh, fun heq => by rw [heq]⟩
    have htagw : c.tag = w.tag ↔ c = w := ⟨hrank.eq_of_tag hc hwh, fun heq => by rw [heq]⟩
    rw [hset.mem_iff, mem_cons, mem_cons, mem_filter, h.set_iff c hc,
      ← hcons.mem_iff, mem_cons, decide_eq_true_eq, htagu, Ne, htagw]
    refine or_congr Iff.rfl ⟨fun ⟨hor, hne⟩ => hor.resolve_left hne, fun hin => ⟨.inr hin, ?_⟩⟩
    rintro rfl
    exact (nodup_cons.mp hnodup).1 hin
  · rwa [length_append, length_singleton]
  · exact h.earlier_next (.inr (.inr ⟨w, hlast, houtranks⟩))

lemma stopsAt (hfull : ¬ selected.length < n)
    (hw : w ∈ selected) (hworst : ∀ x ∈ selected, rankAfter x w = false)
    (houtranks : ¬ outranksBeyondTolerance u w tolerance) :
    StopsAt n tolerance kept healthy before u rest := by
  refine { h with stop := ?_ }
  have hsub := (standing_sublist n kept before (u :: rest))
  have hlast := worst_eq_last ((h.split ▸ hrank).sublist hsub) h.perm hw hworst
  rintro (hin | hshort | ⟨w', hw', hout⟩)
  · exact hmem (h.perm.mem_iff.mpr hin)
  · exact hfull (h.perm.length_eq ▸ hshort)
  · rw [hlast] at hw'
    cases hw'
    exact houtranks hout

end

end

end

/-- The loop ends at a turn, with those who have a place there. -/
theorem challenge (h : Turn n tolerance kept healthy before rest selected selectedSet)
    (hrank : Ranked healthy) (hn : 0 < n) (hlong : n < healthy.length) :
    ∃ before' u' rest', StopsAt n tolerance kept healthy before' u' rest' ∧
      (Group.challenge n tolerance selected selectedSet rest).Perm
        (standing n kept before' (u' :: rest')) := by
  induction rest generalizing before selected selectedSet with
  | nil =>
    have hlen := congrArg length h.split
    rw [append_nil] at hlen
    have := h.room
    omega
  | cons u rest ih =>
    have hu : u ∈ healthy := by simp [h.split]
    rw [Group.challenge]
    by_cases hset : u.tag ∈ selectedSet
    · rw [if_pos hset]
      exact ih (h.keep hrank ((h.set_iff u hu).mp hset))
    · have hmem : u ∉ selected := fun hin => hset ((h.set_iff u hu).mpr hin)
      rw [if_neg hset]
      by_cases hfree : selected.length < n
      · rw [if_pos hfree]
        exact ih (h.fill hrank hmem hfree)
      · rw [if_neg hfree]
        have hne : selected ≠ [] := by
          intro hnil
          rw [hnil, length_nil] at hfree
          exact hfree hn
        obtain ⟨w, hw, hworst⟩ := worstCandidateIndex_spec hne
        simp only [hw]
        by_cases houtranks : outranksBeyondTolerance u w tolerance
        · rw [if_pos houtranks]
          exact ih (h.replace hrank hmem hfree hw hworst houtranks)
        · rw [if_neg houtranks]
          exact ⟨before, u, rest,
            h.stopsAt hrank hmem hfree (mem_of_getElem? hw) hworst houtranks, h.perm⟩

end Turn

end

def incumbents (healthy previous : List Candidate) : List Candidate :=
  healthy.filter fun c => c.tag ∈ previous.map Candidate.tag

lemma keepPrevious_eq (previousSet : List Tag) {n : Nat}
    (healthy : List Candidate) (h : selected.length < n) :
      keepPrevious previousSet n selected healthy =
      selected ++ (healthy.filter fun c => c.tag ∈ previousSet).take (n - selected.length) := by
  induction healthy generalizing selected with
  | nil => simp [keepPrevious]
  | cons c healthy ih =>
    rw [keepPrevious]
    by_cases hc : c.tag ∈ previousSet
    · obtain ⟨m, hm⟩ : ∃ m, n - selected.length = m + 1 := ⟨n - selected.length - 1, by omega⟩
      rw [if_pos hc, filter_cons_of_pos (by simpa using hc), hm, take_succ_cons]
      by_cases hlast : (selected ++ [c]).length = n
      · have hzero : m = 0 := by
          rw [length_append, length_singleton] at hlast
          omega
        rw [if_pos hlast, hzero, take_zero]
      · have hrest : n - (selected ++ [c]).length = m := by
          rw [length_append, length_singleton]
          omega
        have hlt : (selected ++ [c]).length < n := by
          rw [length_append, length_singleton] at hlast ⊢
          omega
        rw [if_neg hlast, ih hlt, hrest, append_assoc, singleton_append]
    · rw [if_neg hc, filter_cons_of_neg (by simpa using hc), ih h]

lemma challenge_subset (n tolerance : Nat) (selected : List Candidate) (selectedSet : List Tag)
    (healthy : List Candidate) :
    challenge n tolerance selected selectedSet healthy ⊆ selected ++ healthy := by
  fun_induction challenge n tolerance selected selectedSet healthy with
  | case1 | case4 | case6 => simp
  | case2 | case3 => grind -linarith
  | case5 => grind -linarith [mem_or_eq_of_mem_set]

/-- What is selected is some of the candidates, ranked or not. -/
theorem selectTopN_subset (healthy : List Candidate) (n : Int) (tolerance : Nat)
    (previous : List Candidate) :
    selectTopNWithTolerance S healthy n tolerance previous ⊆ healthy := by
  unfold selectTopNWithTolerance
  split
  · exact nil_subset _
  · split
    · exact List.Subset.refl _
    · split
      · exact take_subset _ _
      · intro c hc
        have hin := challenge_subset _ _ _ _ _ (S.mem_sort.mp hc)
        rw [keepPrevious_eq _ healthy (by simp; omega)] at hin
        obtain hin | hin := mem_append.mp hin
        · exact mem_of_mem_filter (mem_of_mem_take hin)
        · exact hin

section
variable {n : Nat} {healthy : List Candidate}

lemma kept_sublist (n : Nat) (healthy previous : List Candidate) :
    ((incumbents healthy previous).take n).Sublist healthy :=
  (take_sublist _ _).trans filter_sublist

lemma stopsAt_of_none (hrank : Ranked healthy) (tolerance : Nat) (hlong : n < healthy.length) :
    StopsAt n tolerance [] healthy (healthy.take n) healthy[n] (healthy.drop (n + 1)) := by
  have hsplit : healthy = healthy.take n ++ healthy[n] :: healthy.drop (n + 1) := by
    rw [getElem_cons_drop, take_append_drop]
  have hlen : (healthy.take n).length = n := length_take_of_le (le_of_lt hlong)
  have hstand before rest : standing n [] before rest = before.take n := by
    simp [standing]
  refine ⟨hsplit, ?_, ?_⟩
  · intro before' u' rest' _ hlt
    right
    rw [hstand, length_take]
    omega
  · have hrank' := hsplit ▸ hrank
    unfold Passes
    rw [hstand, take_of_length_le (le_of_eq hlen)]
    rintro (hmem | hshort | ⟨w, hw, hout⟩)
    · exact hrank'.not_mem_before hmem
    · omega
    · exact not_outranks_of_rankBefore (hrank'.before_lt (mem_of_getLast? hw)) hout

/-- Where not all candidates are selected, those are that have a place at the turn that ends
the loop. -/
theorem selectTopN_stops (S : SliceSort) (hrank : Ranked healthy) (hn : 0 < n)
    (hlong : n < healthy.length) (tolerance : Nat) (previous : List Candidate) : ∃ before u rest,
      StopsAt n tolerance ((incumbents healthy previous).take n) healthy before u rest ∧
      selectTopNWithTolerance S healthy n tolerance previous =
        standing n ((incumbents healthy previous).take n) before (u :: rest) := by
  have hlen : healthy.length ≠ 0 := by omega
  have hsome : ¬ ((n : Int) ≤ 0 ∨ (n : Int) ≥ healthy.length) := by omega
  unfold selectTopNWithTolerance
  rw [if_neg hlen, if_neg hsome, Int.toNat_natCast]
  by_cases hprev : previous.length = 0
  · rw [if_pos hprev, length_eq_zero_iff.mp hprev]
    have hnone : (incumbents healthy []).take n = [] := by simp [incumbents]
    rw [hnone]
    refine ⟨_, _, _, stopsAt_of_none hrank tolerance hlong, ?_⟩
    simp [standing, take_take]
  · rw [if_neg hprev]
    have hkeep : keepPrevious (previous.map Candidate.tag) n [] healthy =
        (incumbents healthy previous).take n := by
      rw [keepPrevious_eq _ healthy hn, nil_append, length_nil, Nat.sub_zero, incumbents]
    have hsub := kept_sublist n healthy previous
    have hturn : Turn n tolerance ((incumbents healthy previous).take n) healthy [] healthy
        ((incumbents healthy previous).take n)
        (((incumbents healthy previous).take n).map Candidate.tag) := by
      constructor
      · rfl
      · rw [standing, nil_append, hrank.filter_mem hsub, take_take, min_self]
      · intro c hc
        refine ⟨fun htag => ?_, fun hmem => mem_map_of_mem hmem⟩
        obtain ⟨d, hd, htag⟩ := mem_map.mp htag
        exact hrank.eq_of_tag (hsub.subset hd) hc htag ▸ hd
      · exact zero_le n
      · intro _ _ _ _ hlt
        cases hlt
    obtain ⟨before, u, rest, hstops, hperm⟩ := hturn.challenge hrank hn hlong
    refine ⟨before, u, rest, hstops, ?_⟩
    rw [hkeep]
    have hsub' := standing_sublist n ((incumbents healthy previous).take n) before (u :: rest)
    exact sort_of_perm S ((hstops.split ▸ hrank).sublist hsub') hperm

/-- What is selected is some of the candidates, in their order. -/
theorem selectTopN_sublist (S : SliceSort) (hrank : Ranked healthy) (n : Int) (tolerance : Nat)
    (previous : List Candidate) :
    (selectTopNWithTolerance S healthy n tolerance previous).Sublist healthy := by
  by_cases hall : n ≤ 0 ∨ n ≥ healthy.length
  · rw [selectTopNWithTolerance, if_pos hall]
    split
    · exact nil_sublist _
    · exact List.Sublist.refl _
  · obtain ⟨m, rfl⟩ := Int.eq_ofNat_of_zero_le (a := n) (by omega)
    obtain ⟨before, u, rest, h, hsel⟩ := selectTopN_stops S hrank (n := m) (by omega) (by omega)
      tolerance previous
    rw [hsel]
    exact h.split ▸ standing_sublist m _ before (u :: rest)

end

end SingBox.Group
