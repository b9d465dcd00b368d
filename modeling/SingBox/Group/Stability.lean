import SingBox.Group.Snapshot
import SingBox.Group.Standing

/-! Snapshots of one generation hold the same members, and select the same member for a key
where no two members share a place on the ring. -/

namespace SingBox.Group
open Lib List Machine

/-- No two of the tags have a place in common. -/
def PlacesApart (hash : HashOptions) (tags : List Tag) : Prop :=
  ∀ t ∈ tags, ∀ u ∈ tags, ∀ i < nodeCount hash.virtualNodes, ∀ j < nodeCount hash.virtualNodes,
    hashString (nodeKey hash.keySalt t i) = hashString (nodeKey hash.keySalt u j) → t = u

variable {tags : List Tag}

lemma PlacesApart.nodesApart {hash : HashOptions} (h : PlacesApart hash tags)
    {candidates : List Candidate} (hsub : candidates.map Candidate.tag ⊆ tags) :
    NodesApart candidates hash.virtualNodes hash.keySalt := by
  intro e he f hf heq
  obtain ⟨hec, i, hi, hehash⟩ := mem_virtualEntries.mp he
  obtain ⟨hfc, j, hj, hfhash⟩ := mem_virtualEntries.mp hf
  refine h _ (hsub (mem_map_of_mem hec)) _ (hsub (mem_map_of_mem hfc)) i hi j hj ?_
  rw [← hehash, ← hfhash, heq]

lemma select_eq_of_tags (S : SliceSort) (l : LoadBalance) (intn : (n : Nat) → Fin (n + 1))
    {A B : CandidateSnapshot} (hsame : ∀ t, t ∈ A.tags ↔ t ∈ B.tags)
    (happart : NodesApart A.candidates l.hash.virtualNodes l.hash.keySalt) {key : Bytes}
    (hkey : key ≠ []) :
    (l.select S intn A key).map Candidate.tag = (l.select S intn B key).map Candidate.tag := by
  by_cases hA : A.candidates = []
  · have hB : B.candidates = [] := by
      apply eq_nil_iff_forall_not_mem.mpr
      intro c hc
      have hin := (hsame c.tag).mpr (mem_map_of_mem hc)
      simp [CandidateSnapshot.tags, hA] at hin
    rw [LoadBalance.select, LoadBalance.select, selectFromSnapshot, selectFromSnapshot, hA, hB]
  · obtain ⟨e, he, hnear⟩ := select_nearest S intn l.hash.onEmptyKey l.hash.virtualNodes
      l.hash.keySalt hA hkey
    have hin : e.candidate.tag ∈ A.tags := mem_map_of_mem (mem_virtualEntries.mp hnear.mem).1
    obtain ⟨b, hb, hsel, hsame' | hnew⟩ := select_same_or_new hkey happart he ((hsame _).mp hin)
    · rw [LoadBalance.select, LoadBalance.select, he, hsel]
      exact congrArg Except.ok hsame'.symm
    · exact absurd ((hsame _).mpr (mem_map_of_mem hb)) hnew

lemma mem_of_previousSet {previous : List Candidate} {tag : Tag} {isPrimary : Bool}
    (h : previousSet previous tag = some isPrimary) : tag ∈ previous.map Candidate.tag := by
  have hfold found (hfound : previous.foldl
      (fun found c => if c.tag = tag then some c.isPrimary else found) found = some isPrimary) :
      found = some isPrimary ∨ tag ∈ previous.map Candidate.tag := by
    clear h
    induction previous generalizing found with
    | nil => exact .inl hfound
    | cons c previous ih =>
      rw [foldl_cons] at hfound
      obtain hstep | hin := ih _ hfound
      · split at hstep
        · next htag => exact .inr (by simp [htag])
        · exact .inl hstep
      · exact .inr (mem_cons_of_mem _ hin)
  exact (hfold none h).resolve_left (by simp)

/-- Of lists without repeated tags, `sameCandidateSet` compares the sets of tags. -/
theorem tags_iff_of_same {previous next : List Candidate}
    (hnext : (next.map Candidate.tag).Nodup) (h : sameCandidateSet previous next) (t : Tag) :
    t ∈ previous.map Candidate.tag ↔ t ∈ next.map Candidate.tag := by
  rw [sameCandidateSet, Bool.and_eq_true, beq_iff_eq, all_eq_true] at h
  obtain ⟨hlen, hall⟩ := h
  have hsub : next.map Candidate.tag ⊆ previous.map Candidate.tag := by
    intro t ht
    obtain ⟨c, hc, rfl⟩ := mem_map.mp ht
    exact mem_of_previousSet (beq_iff_eq.mp (hall c hc))
  have hperm := (subperm_of_subset hnext hsub).perm_of_length_le (by simp [hlen])
  exact hperm.mem_iff.symm

lemma map_tag_sublist {f : Tag → Option Candidate} (hf : ∀ t c, f t = some c → c.tag = t)
    (tags : List Tag) : ((tags.filterMap f).map Candidate.tag).Sublist tags := by
  induction tags with
  | nil => exact List.Sublist.refl []
  | cons t tags ih =>
    cases ht : f t with
    | none =>
      rw [filterMap_cons_none ht]
      exact ih.cons t
    | some c =>
      rw [filterMap_cons_some ht, map_cons, hf t c ht]
      exact ih.cons_cons t

namespace LoadBalance

variable {S : SliceSort} {l : LoadBalance}

lemma healthyCandidates_tags (S : SliceSort) (l : LoadBalance) (live : Live) (tags : List Tag)
    (outbounds : Tag → Option Outbound) (isPrimary : Bool) :
    ∃ members : List Candidate, l.healthyCandidates S live tags outbounds isPrimary =
      sortCandidatesByScore S members ∧ (members.map Candidate.tag).Sublist tags := by
  refine ⟨_, rfl, map_tag_sublist ?_ tags⟩
  intro t c hc
  obtain ⟨detour, -, hc⟩ := Option.bind_eq_some_iff.mp hc
  split at hc
  · cases hc
  · cases hc
  · obtain ⟨-, hc⟩ := Option.ite_none_left_eq_some.mp hc
    cases hc
    rfl

/-- The tags of a pool: each once, and all primary or all backup. -/
structure Pool (l : LoadBalance) (candidates : List Candidate) : Prop where
  distinct : (candidates.map Candidate.tag).Nodup
  tier : candidates.map Candidate.tag ⊆ l.primaryTags ∨ candidates.map Candidate.tag ⊆ l.backupTags

/-- The tags of a group are each listed once in a tier. -/
structure Distinct (l : LoadBalance) : Prop where
  primary : l.primaryTags.Nodup
  backup : l.backupTags.Nodup

lemma ranked_healthyCandidates (S : SliceSort) (l : LoadBalance) (live : Live)
    (htags : tags.Nodup) (outbounds : Tag → Option Outbound) (isPrimary : Bool) :
    Ranked (l.healthyCandidates S live tags outbounds isPrimary) ∧
      (l.healthyCandidates S live tags outbounds isPrimary).map Candidate.tag ⊆ tags := by
  obtain ⟨members, heq, hsub⟩ := healthyCandidates_tags S l live tags outbounds isPrimary
  rw [heq]
  refine ⟨ranked_sort S (htags.sublist hsub), fun t ht => ?_⟩
  obtain ⟨c, hc, rfl⟩ := mem_map.mp ht
  exact hsub.subset (mem_map_of_mem (S.mem_sort.mp hc))

lemma pool_candidates (hl : l.Distinct) (S : SliceSort) (live : Live)
    (snap : Option CandidateSnapshot) : l.Pool (l.candidates S live snap) := by
  obtain ⟨hprimary, hsub⟩ := ranked_healthyCandidates S l live hl.primary l.primaryOutbounds true
  obtain ⟨hbackup, hsub'⟩ := ranked_healthyCandidates S l live hl.backup l.backupOutbounds false
  simp only [candidates]
  split
  · have hsel := selectTopN_sublist S hprimary l.topNPrimary l.tolerance
      (snap.elim [] CandidateSnapshot.candidates)
    exact ⟨(hprimary.sublist hsel).distinct, .inl fun t ht => hsub ((hsel.map _).subset ht)⟩
  · exact ⟨hbackup.distinct, .inr hsub'⟩

lemma pool_seed (hl : l.Distinct) {x : CandidateSnapshot} (hx : l.seedInitialSnapshot = some x) :
    l.Pool x.candidates ∧ x.generation = 1 := by
  obtain ⟨-, hx⟩ := Option.ite_none_left_eq_some.mp hx
  cases hx
  refine ⟨?_, rfl⟩
  have hseed (outbounds : Tag → Option Outbound) (tags : List Tag) (isPrimary : Bool) :
      ((tags.filterMap fun tag => (outbounds tag).map fun detour =>
        ({ tag, outbound := detour, isPrimary } : Candidate)).map Candidate.tag).Sublist tags := by
    apply map_tag_sublist
    intro t c hc
    obtain ⟨detour, -, rfl⟩ := Option.map_eq_some_iff.mp hc
    rfl
  simp only
  split
  · have hsub := hseed l.backupOutbounds l.backupTags false
    exact ⟨hl.backup.sublist hsub, .inr hsub.subset⟩
  · have hsub := hseed l.primaryOutbounds l.primaryTags true
    exact ⟨hl.primary.sublist hsub, .inl hsub.subset⟩

/-- What holds of all snapshots so far. -/
structure Published (l : LoadBalance) (s : State) : Prop where
  pool : ∀ x ∈ s.published, l.Pool x.candidates
  nothing : s.snapshot = none → s.published = []
  current : ∀ x, s.snapshot = some x → x ∈ s.published ∧
      ∀ y ∈ s.published, y.generation ≤ x.generation
  same : ∀ x ∈ s.published, ∀ y ∈ s.published, x.generation = y.generation →
    ∀ t, t ∈ x.tags ↔ t ∈ y.tags

/-- The counter of generations is not at its end. -/
def BelowLimit (s : State) (_ : Action) : Prop :=
  ∀ x, s.snapshot = some x → x.generation + 1 < 2 ^ 64

lemma published_start (hl : l.Distinct) : l.Published l.start := by
  cases hseed : l.seedInitialSnapshot with
  | none => constructor <;> simp [start, hseed]
  | some x =>
    obtain ⟨hpool, -⟩ := pool_seed hl hseed
    constructor <;> simp [start, hseed, hpool]

/-- A snapshot that follows another with the same members, or opens a new generation. -/
theorem Published.publish {s : State} (h : l.Published s) {y : CandidateSnapshot}
    (hpool : l.Pool y.candidates) (hfollows : (s.snapshot = none) ∨ ∃ x, s.snapshot = some x ∧
      ((∀ t, t ∈ x.tags ↔ t ∈ y.tags) ∧ y.generation = x.generation ∨ x.generation < y.generation)) :
    l.Published { s with snapshot := some y, published := y :: s.published } := by
  have hlatest : ∀ z ∈ s.published, z.generation ≤ y.generation ∧
      (z.generation = y.generation → ∀ t, t ∈ z.tags ↔ t ∈ y.tags) := by
    intro z hz
    obtain hnone | ⟨x, hx, hcase⟩ := hfollows
    · simp [h.nothing hnone] at hz
    · obtain ⟨hxmem, hle⟩ := h.current x hx
      have hzx := hle z hz
      obtain ⟨hsame, hgen⟩ | hlt := hcase
      · refine ⟨by omega, fun heq t => ?_⟩
        rw [h.same z hz x hxmem (by omega) t, hsame t]
      · exact ⟨by omega, fun heq => by omega⟩
  constructor
  · exact forall_mem_cons.mpr ⟨hpool, h.pool⟩
  · intro hnone
    cases hnone
  · rintro x hx
    cases hx
    exact ⟨mem_cons_self, forall_mem_cons.mpr ⟨Nat.le_refl _, fun z hz => (hlatest z hz).1⟩⟩
  · intro x hx z hz heq t
    obtain hxy | hx' := mem_cons.mp hx
    · obtain hzy | hz' := mem_cons.mp hz
      · rw [hxy, hzy]
      · subst hxy
        exact ((hlatest z hz').2 heq.symm t).symm
    · obtain hzy | hz' := mem_cons.mp hz
      · subst hzy
        exact (hlatest x hx').2 heq t
      · exact h.same x hx' z hz' heq t

lemma Published.step (hl : l.Distinct) {s t : State} {a : Action} (ha : BelowLimit s a)
    (ht : l.step S s a = some t) (h : l.Published s) : l.Published t := by
  cases a with
  | probe live =>
    cases ht
    exact { h with }
  | rebuildSnapshot =>
    simp only [LoadBalance.step] at ht
    split at ht
    · cases ht
      exact h
    · next y hy =>
      cases ht
      obtain ⟨hcands, hcases⟩ := rebuilt_cases hy
      have hpool : l.Pool y.candidates := hcands ▸ pool_candidates hl S s.live s.snapshot
      refine h.publish hpool ?_
      obtain ⟨hnone, -⟩ | ⟨x, hx, ⟨hsame, hgen⟩ | hgen⟩ := hcases
      · exact .inl hnone
      · exact .inr ⟨x, hx, .inl ⟨tags_iff_of_same hpool.distinct hsame, hgen⟩⟩
      · refine .inr ⟨x, hx, .inr ?_⟩
        have hlimit := ha x hx
        rw [hgen, Nat.mod_eq_of_lt hlimit]
        omega

/-- In every run in which the generations do not run out, of a group whose members are
listed once and share no place on the ring, snapshots of one generation select the same member
for every key; and the order of the candidates does not matter. -/
theorem selection_stable (S : SliceSort) (l : LoadBalance) (intn : (n : Nat) → Fin (n + 1))
    (hl : l.Distinct) (hprimary : PlacesApart l.hash l.primaryTags)
    (hbackup : PlacesApart l.hash l.backupTags) : (∀ s, Reaches (l.step S) BelowLimit l.start s →
      ∀ x ∈ s.published, ∀ y ∈ s.published, x.generation = y.generation → ∀ key ≠ [],
        (l.select S intn x key).map Candidate.tag = (l.select S intn y key).map Candidate.tag) ∧
    ∀ A B : CandidateSnapshot, l.Pool A.candidates → A.candidates.Perm B.candidates → ∀ key ≠ [],
      (l.select S intn A key).map Candidate.tag = (l.select S intn B key).map Candidate.tag := by
  have happart {candidates} (hpool : l.Pool candidates) :
      NodesApart candidates l.hash.virtualNodes l.hash.keySalt := by
    obtain hsub | hsub := hpool.tier
    · exact hprimary.nodesApart hsub
    · exact hbackup.nodesApart hsub
  constructor
  · intro s hs x hx y hy hgen key hkey
    have hpublished : l.Published s := hs.invariant (published_start hl) (Published.step hl)
    exact select_eq_of_tags S l intn (hpublished.same x hx y hy hgen) (happart (hpublished.pool x hx))
      hkey
  · intro A B hpool hperm key hkey
    exact select_eq_of_tags S l intn (fun t => (hperm.map Candidate.tag).mem_iff) (happart hpool) hkey

/-- Two members, the second of which turns out to be the faster one. -/
theorem selection_stable_two :
    let l : LoadBalance := {
      primaryTags := [[97], [98]]
      primaryOutbounds := fun tag => some { tag, network := [.tcp] }
      hash := { virtualNodes := 2 } }
    let live : Live := {
      history := fun tag => if tag = [97] then some 60 else some 40
      score := fun tag => if tag = [97] then 60 else 40 }
    ∃ s, run (l.step .insertion) l.start [.probe live, .rebuildSnapshot] = some s ∧
      s.published.map CandidateSnapshot.tags = [[[98], [97]], [[97], [98]]] ∧
      ∀ x ∈ s.published, ∀ y ∈ s.published, x.generation = y.generation → ∀ key ≠ [],
        (l.select .insertion (fun _ => 0) x key).map Candidate.tag =
          (l.select .insertion (fun _ => 0) y key).map Candidate.tag := by
  intro l live
  refine exists_checked (fun s _ => s.snapshot.all fun x => x.generation + 1 < 2 ^ 64)
    (by decide) fun hs => ⟨by decide, ?_⟩
  have hapart : PlacesApart l.hash l.primaryTags := by
    unfold PlacesApart
    decide
  refine (selection_stable .insertion l (fun _ => 0) ⟨by decide, by decide⟩ hapart
    (fun t ht => absurd ht List.not_mem_nil)).1 _ (Reaches.start.runChecked ?_ hs)
  intro s _ hcheck x hx
  rw [hx] at hcheck
  exact of_decide_eq_true hcheck

/-- Two members whose places collide: the one that is listed first is selected, and a rebuild
of the same generation lists them the other way round. -/
theorem generation_with_two_selections :
    let l : LoadBalance := {
      primaryTags := [[99, 111, 115, 116, 97, 114, 114, 105, 110, 103],
          [108, 105, 113, 117, 105, 100]]
      primaryOutbounds := fun tag => some { tag, network := [.tcp] }
      hash := { virtualNodes := 1 } }
    let live : Live := {
      history := fun tag => if tag.length = 6 then some 40 else some 60
      score := fun tag => if tag.length = 6 then 40 else 60 }
    ∃ s, run (l.step .insertion) l.start [.probe live, .rebuildSnapshot] = some s ∧
      ∃ x ∈ s.published, ∃ y ∈ s.published, x.generation = y.generation ∧
        (l.select .insertion (fun _ => 0) x [107]).map Candidate.tag ≠
          (l.select .insertion (fun _ => 0) y [107]).map Candidate.tag := by
  intro l live
  exact exists_end (by decide) fun _ => by decide

end LoadBalance

end SingBox.Group
