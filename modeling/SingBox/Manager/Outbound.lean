import SingBox.Lib.Machine
import SingBox.Manager.Registry

/-! The manager of the outbounds: a list, a table, the dependants of every tag and a default
outbound, through calls of `Create` and `Remove` before and after `Start`. -/

namespace SingBox.Manager
open Lib Machine Function List Option

namespace Registry

/-- The list and the table have the same outbounds, and the dependants of a tag are recorded. -/
structure Consistent (r : Registry) : Prop where
  nodup : r.list.Nodup
  table : ∀ tag e, r.byTag tag = some e ↔ e ∈ r.list ∧ e.tag = tag
  dependants : ∀ d x, x ∈ r.dependByTag d ↔ ∃ e ∈ r.list, e.tag = x ∧ d ∈ e.dependencies

variable {r : Registry} {e x : Entry} {tag d y : String} {dependencies : List String}
    {t : String → List String}

lemma mem_foldl_append :
    y ∈ dependencies.foldl (fun t d => update t d (t d ++ [tag])) t d ↔
      y ∈ t d ∨ d ∈ dependencies ∧ y = tag := by
  induction dependencies generalizing t with
  | nil => simp
  | cons d' dependencies ih =>
    rw [foldl_cons, ih, update_apply]
    grind -linarith

lemma mem_foldl_filter (hnodup : dependencies.Nodup) (htag : ∀ d ∈ dependencies, tag ∈ t d) :
    y ∈ dependencies.foldl (fun t d =>
        update t d (if (t d).length = 1 then [] else (t d).filter (· ≠ tag))) t d ↔
      y ∈ t d ∧ (d ∈ dependencies → y ≠ tag) := by
  induction dependencies generalizing t with
  | nil => simp
  | cons d' dependencies ih =>
    obtain ⟨hd', hnodup⟩ := nodup_cons.mp hnodup
    rw [foldl_cons, ih hnodup]
    · by_cases hd : d = d'
      · subst hd
        rw [update_self]
        split
        · next hone =>
          -- the one that is recorded is the tag itself
          obtain ⟨z, hz⟩ := length_eq_one_iff.mp hone
          have htag := htag d mem_cons_self
          simp_all
        · simp [hd']
      · simp [hd]
    · intro d'' hd''
      rw [update_of_ne (by rintro rfl; exact hd' hd'')]
      exact htag d'' (mem_cons_of_mem _ hd'')

variable (h : r.Consistent)
include h

lemma Consistent.mem_others : x ∈ r.others tag ↔ x ∈ r.list ∧ x.tag ≠ tag := by
  unfold others
  cases hold : r.byTag tag with
  | none =>
    have htable := h.table tag x
    grind -linarith
  | some old =>
    have htable := h.table tag
    rw [elim_some, h.nodup.mem_erase_iff]
    grind -linarith

lemma Consistent.nodup_others : (r.others tag).Nodup := by
  unfold others
  cases r.byTag tag with
  | none => exact h.nodup
  | some old => exact h.nodup.erase old

/-- An outbound is replaced by one with the same dependencies and maybe more. -/
theorem Consistent.add
    (hold : ∀ old, r.byTag e.tag = some old → old.dependencies ⊆ e.dependencies) :
    (r.add e).Consistent := by
  have hmem {x} : x ∈ (r.add e).list ↔ x ∈ r.list ∧ x.tag ≠ e.tag ∨ x = e := by
    rw [Registry.add, mem_append, h.mem_others, mem_singleton]
  refine ⟨?_, fun tag x => ?_, fun d y => ?_⟩
  · refine nodup_append.mpr ⟨h.nodup_others, pairwise_singleton _ e, fun x hx y hy heq => ?_⟩
    exact (h.mem_others.mp hx).2 (congrArg Entry.tag (heq.trans (mem_singleton.mp hy)))
  · have htable := h.table tag x
    rw [hmem]
    simp only [Registry.add, update_apply]
    grind -linarith
  · have htable := h.table e.tag
    simp only [hmem]
    rw [Registry.add, mem_foldl_append, h.dependants]
    grind -linarith

lemma Consistent.remove (hby : r.byTag tag = some e)
    (hnodup : e.dependencies.Nodup) : ((r.delete tag e).forget tag e).Consistent := by
  obtain ⟨he, rfl⟩ := (h.table tag e).mp hby
  have hlist : r.list.erase e = r.others e.tag := by rw [others, hby, elim_some]
  have hdepends : ∀ d ∈ e.dependencies, e.tag ∈ r.dependByTag d :=
    fun d hd => (h.dependants d _).mpr ⟨e, he, rfl, hd⟩
  refine ⟨h.nodup.erase e, fun tag x => ?_, fun d y => ?_⟩
  · have htable := h.table tag x
    simp only [forget, delete, hlist, h.mem_others, update_apply]
    grind -linarith
  · have htable := h.table e.tag
    simp only [forget, delete, hlist, h.mem_others]
    rw [mem_foldl_filter hnodup hdepends, h.dependants]
    grind -linarith

end Registry

structure OutboundManager extends Registry where
  /-- The endpoint manager's `Get`. -/
  endpoint : String → Option Entry
  defaultTag : String
  started : Bool := false
  defaultOutbound : Option Entry := none
  created : Nat := 0

namespace OutboundManager

variable (m : OutboundManager) (tag : String)

def create (making : Making) : OutboundManager × Option String :=
  match m.prepare tag m.started m.created making with
  | .error err => (m, some err)
  | .ok outbound =>
    ({ m with
      toRegistry := m.add outbound
      created := m.created + 1
      defaultOutbound :=
        if tag = m.defaultTag ∨ m.defaultTag = "" ∧ m.defaultOutbound = none then some outbound
        else m.defaultOutbound }, none)

def remove (closeError : Option String) : OutboundManager × Option String :=
  match m.byTag tag with
  | none => (m, some "invalid argument")
  | some outbound =>
    let deleted := m.delete tag outbound
    let m := { m with
      toRegistry := deleted
      defaultOutbound :=
        if m.defaultOutbound = some outbound then deleted.list.head? else m.defaultOutbound }
    if m.dependByTag tag ≠ [] then
      (m, some ("outbound[" ++ tag ++ "] is depended by " ++ ", ".intercalate (m.dependByTag tag)))
    else ({ m with toRegistry := m.forget tag outbound }, closeError.filter fun _ => m.started)

/-- The first stage of `Start`, where there is a default or an endpoint for it. -/
def start : OutboundManager :=
  { m with
    started := true
    defaultOutbound := m.defaultOutbound.or
      (if m.defaultTag = "" then none else m.endpoint m.defaultTag) }

/-- A call, or `none` for the start. -/
def step : Machine OutboundManager (Option Call)
  | m, none => some m.start
  | m, some (.create tag making) => some (m.create tag making).1
  | m, some (.remove tag err) => some (m.remove tag err).1

structure Settled : Prop where
  registry : m.Consistent
  default : ∀ o, m.defaultOutbound = some o → o ∈ m.list ∨ ∃ tag, m.endpoint tag = some o

/-- A call removes what nothing depends on, and creates an outbound whose dependencies differ; an
outbound that it replaces has no other dependencies, and is the default only under its tag. -/
def careful : Option Call → Bool
  | none => true
  | some (.create tag making) =>
    match making.made with
    | .error _ => true
    | .ok (_, dependencies) => dependencies.Nodup ∧ (m.byTag tag).all fun old =>
        old.dependencies ⊆ dependencies ∧ (m.defaultOutbound = some old → tag = m.defaultTag)
  | some (.remove tag _) => m.byTag tag = none ∨ m.dependByTag tag = []

structure Inv : Prop extends Settled m where
  nodup : ∀ e ∈ m.list, e.dependencies.Nodup

variable {m tag} {making : Making}

lemma Inv.create (h : m.Inv) (ha : m.careful (some (.create tag making))) :
    (m.create tag making).1.Inv := by
  unfold OutboundManager.create
  cases hprep : m.prepare tag m.started m.created making with
  | error err => exact h
  | ok e =>
    obtain ⟨rfl, hmade⟩ := Registry.prepare_eq_ok hprep
    simp only [careful, hmade, decide_eq_true_eq, Option.all_eq_true] at ha
    obtain ⟨hnodup, hold⟩ := ha
    refine ⟨⟨h.registry.add fun old hby => (hold old hby).1, fun o ho => ?_⟩, fun x hx => ?_⟩
    · dsimp only at ho
      split at ho
      · cases ho
        exact .inl (m.current_add e).1
      · next hnot =>
        refine (h.default o ho).imp_left fun hmem => mem_append_left _ ?_
        refine h.registry.mem_others.mpr ⟨hmem, fun htag => hnot (.inl ?_)⟩
        exact (hold o ((h.registry.table _ o).mpr ⟨hmem, htag⟩)).2 ho
    · obtain hx | rfl := Registry.mem_add hx
      · exact h.nodup x hx
      · exact hnodup

variable {err : Option String}

lemma Inv.remove (h : m.Inv)
    (ha : m.careful (some (.remove tag err))) : (m.remove tag err).1.Inv := by
  unfold OutboundManager.remove
  cases hby : m.byTag tag with
  | none => exact h
  | some e =>
    simp only [careful, hby, decide_eq_true_eq, reduceCtorEq, false_or] at ha
    have he := ((h.registry.table tag e).mp hby).1
    have hnone : ¬ (m.delete tag e).dependByTag tag ≠ [] := not_not.mpr ha
    dsimp only
    rw [if_neg hnone]
    refine ⟨⟨h.registry.remove hby (h.nodup e he), fun o ho => ?_⟩,
      fun x hx => h.nodup x (mem_of_mem_erase hx)⟩
    split at ho
    · exact .inl (mem_of_head? ho)
    · next hne =>
      refine (h.default o ho).imp_left fun hmem => (mem_erase_of_ne ?_).mpr hmem
      rintro rfl
      exact hne ho

lemma byTag_remove : (m.remove tag err).1.byTag tag = none := by
  unfold OutboundManager.remove
  split
  · assumption
  · dsimp only
    split <;> exact update_self ..

/-- In every run of careful calls the manager is settled; and a call that removes what others
depend on is never undone. -/
theorem settled_of_careful_calls (endpoint : String → Option Entry) (defaultTag : String)
    {m : OutboundManager}
    (h : Reaches step (fun m a => m.careful a = true) { endpoint, defaultTag } m) :
    m.Settled ∧ ∀ tag err, m.careful (some (.remove tag err)) = true ↔
      (m.byTag tag ≠ none → m.dependByTag tag ≠ [] → (m.remove tag err).1 = m) := by
  have hinv : m.Inv := by
    refine h.invariant ⟨⟨⟨nodup_nil, by simp, by simp⟩, nofun⟩, nofun⟩ fun {t u a} ha hstep ht => ?_
    match a with
    | none =>
      cases hstep
      refine ⟨⟨ht.registry, fun o ho => ?_⟩, ht.nodup⟩
      obtain ho | ⟨-, ho⟩ := or_eq_some_iff.mp ho
      · exact ht.default o ho
      · exact .inr ⟨_, (ite_none_left_eq_some.mp ho).2⟩
    | some (.create tag making) =>
      cases hstep
      exact ht.create ha
    | some (.remove tag err) =>
      cases hstep
      exact ht.remove ha
  refine ⟨hinv.toSettled, fun tag err => ?_⟩
  simp only [careful, decide_eq_true_eq]
  constructor
  · rintro (hnone | hnil) hby hdepend
    · exact absurd hnone hby
    · exact absurd hnil hdepend
  · intro hsame
    by_contra hnot
    obtain ⟨hby, hdepend⟩ := not_or.mp hnot
    exact hby (congrArg (fun m => m.byTag tag) (hsame hby hdepend) ▸ byTag_remove)

theorem settled_of_two_outbounds :
    ∃ m, runChecked step careful { endpoint := fun _ => none, defaultTag := "" }
        [some (.create "a" (makes "direct")), some (.create "b" (makes "selector" ["a"])), none,
          some (.remove "b")] = some m ∧
      m.list.map Entry.tag = ["a"] ∧ m.Settled := by
  refine exists_end (by decide) fun hm => ⟨by decide, ?_⟩
  exact (settled_of_careful_calls _ "" (Reaches.start.runChecked (fun _ _ h => h) hm)).1

/-- What others depend on is removed with an error; an outbound that is replaced remains a
dependant; and one that names a dependency twice takes another dependant with it. -/
theorem depended_outbound_removed :
    let start : OutboundManager := { endpoint := fun _ => none, defaultTag := "" }
    (∃ m, run step start [some (.create "a" (makes "direct")),
        some (.create "b" (makes "selector" ["a"]))] = some m ∧
      (m.remove "a" none).2 = some "outbound[a] is depended by b" ∧ (m.remove "a" none).1 ≠ m) ∧
    (∃ m, run step start [some (.create "b" (makes "selector" ["a"])),
        some (.create "b" (makes "direct"))] = some m ∧ ¬ m.Settled) ∧
    ∃ m, run step start [some (.create "b" (makes "selector" ["a"])),
        some (.create "c" (makes "selector" ["a", "a"])), some (.remove "c")] = some m ∧
      ¬ m.Settled := by
  refine ⟨exists_end (by decide) fun _ => ⟨by decide, fun hsame => ?_⟩,
    exists_end (by decide) fun _ h => ?_, exists_end (by decide) fun _ h => ?_⟩
  · exact absurd (congrArg (fun m => m.list.length) hsame) (by decide)
  · exact absurd (h.registry.dependants "a" "b") (by decide)
  · exact absurd (h.registry.dependants "a" "b") (by decide)

end OutboundManager

end SingBox.Manager
