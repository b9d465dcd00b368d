import Mathlib.Data.List.Induction
import SingBox.Panel.Applied

/-! Which inbound traffic is accounted to: the mapping from tags to inbound ids
that is made of the table on record. -/

namespace SingBox.Panel
open List Option

namespace State

variable (st : State)

def mapInbound (mapping : String → Option String) (id : String) : String → Option String :=
  match st.inbounds.lookup id with
  | none => mapping
  | some ib => Function.update mapping ib.tag (some ib.inboundID)

/-- The mapping that is handed to the tracker, with the order in which the table is
gone through. -/
def inboundMapping (order : List String) : String → Option String :=
  order.foldl st.mapInbound fun _ => none

/-- The state after configurations were applied one after the other. -/
def appliedAll (cfgs : List (ConfigurationResponse × String)) : State :=
  cfgs.foldl (fun st c => st.recordApplied c.1 c.2) {}

variable {st : State} {order : List String} {tag id x : String}

def HasTag (id tag : String) : Prop :=
  ∃ ib, st.inbounds.lookup id = some ib ∧ ib.tag = tag

lemma hasTag_iff : st.HasTag id tag ↔ (st.inbounds.lookup id).map (·.tag) = some tag :=
  map_eq_some_iff.symm

lemma HasTag.mem_keys (h : st.HasTag id tag) : id ∈ st.inbounds.keys := by
  obtain ⟨ib, hlookup, -⟩ := h
  rw [← AList.mem_keys, ← AList.lookup_isSome, hlookup]
  rfl

lemma inboundMapping_concat (order : List String) (id : String) :
    st.inboundMapping (order ++ [id]) = st.mapInbound (st.inboundMapping order) id := by
  unfold inboundMapping
  rw [foldl_concat]

lemma mapInbound_of_hasTag (hid : ∀ ib, st.inbounds.lookup id = some ib → ib.inboundID = id)
    (h : st.HasTag id tag) (mapping : String → Option String) :
    st.mapInbound mapping id tag = some id := by
  obtain ⟨ib, hlookup, rfl⟩ := h
  simp [mapInbound, hlookup, hid ib hlookup]

lemma mapInbound_of_not_hasTag (h : ¬st.HasTag id tag) (mapping : String → Option String) :
    st.mapInbound mapping id tag = mapping tag := by
  cases hlookup : st.inbounds.lookup id with
  | none => simp only [mapInbound, hlookup]
  | some ib =>
    simp only [mapInbound, hlookup]
    exact Function.update_of_ne (fun heq => h ⟨ib, hlookup, heq.symm⟩) ..

/-- The only id with a tag is what the tag is mapped to. -/
theorem inboundMapping_of_unique (hid : ∀ id ib, st.inbounds.lookup id = some ib → ib.inboundID = id)
    (hx : x ∈ order) (htag : st.HasTag x tag) (hunique : ∀ id ∈ order, st.HasTag id tag → id = x) :
    st.inboundMapping order tag = some x := by
  -- The last entries come first: either the last one has the tag, or it does not matter.
  induction order using reverseRecOn with
  | nil => cases hx
  | append_singleton order id ih =>
    rw [inboundMapping_concat]
    by_cases hlast : st.HasTag id tag
    · rw [mapInbound_of_hasTag (hid id) hlast]
      exact congrArg some (hunique id (by simp) hlast)
    · rw [mapInbound_of_not_hasTag hlast]
      have hx : x ∈ order := by
        obtain hx | hx := mem_append.mp hx
        · exact hx
        · cases mem_singleton.mp hx
          exact absurd htag hlast
      exact ih hx fun id' hid' => hunique id' (mem_append_left _ hid')

end State

namespace ConfigurationResponse

def tagOf (cfg : ConfigurationResponse) (id : String) : Option String :=
  (cfg.managedInbounds.find? (·.inboundID == id)).map (·.tag)

/-- The tag that an inbound had when it was last configured. -/
def lastTag (cfgs : List (ConfigurationResponse × String)) (id : String) : Option String :=
  cfgs.foldl (fun last c => (c.1.tagOf id).or last) none

variable {cfg : ConfigurationResponse} {id : String}

lemma tagOf_of_mem (h : (cfg.managedInbounds.map (·.inboundID)).Nodup) {m : ManagedInbound}
    (hm : m ∈ cfg.managedInbounds) : cfg.tagOf m.inboundID = some m.tag := by
  obtain ⟨m', hm'⟩ : ∃ m', cfg.managedInbounds.find? (·.inboundID == m.inboundID) = some m' := by
    rw [← isSome_iff_exists, find?_isSome]
    exact ⟨m, hm, by simp⟩
  have heq : m' = m := by
    apply inj_on_of_nodup_map h (mem_of_find?_eq_some hm') hm
    simpa using find?_some hm'
  rw [tagOf, hm', heq]
  rfl

lemma tagOf_of_notMem (h : id ∉ cfg.managedInbounds.map (·.inboundID)) : cfg.tagOf id = none := by
  rw [tagOf, map_eq_none_iff, find?_eq_none]
  intro m hm heq
  exact h (beq_iff_eq.mp heq ▸ mem_map_of_mem hm)

lemma lastTag_concat (cfgs : List (ConfigurationResponse × String))
    (c : ConfigurationResponse × String) (id : String) :
    lastTag (cfgs ++ [c]) id = (c.1.tagOf id).or (lastTag cfgs id) := by
  unfold lastTag
  rw [foldl_concat]

end ConfigurationResponse

namespace State
open ConfigurationResponse

variable {cfgs : List (ConfigurationResponse × String)}

lemma appliedAll_concat (cfgs : List (ConfigurationResponse × String))
    (c : ConfigurationResponse × String) :
    appliedAll (cfgs ++ [c]) = (appliedAll cfgs).recordApplied c.1 c.2 := by
  unfold appliedAll
  rw [foldl_concat]

/-- The table has what was last configured for each id, under that id. -/
theorem lookup_appliedAll
    (h : ∀ c ∈ cfgs, (c.1.managedInbounds.map (·.inboundID)).Nodup) (id : String) :
    ((appliedAll cfgs).inbounds.lookup id).map (·.tag) = lastTag cfgs id ∧
      ∀ ib, (appliedAll cfgs).inbounds.lookup id = some ib → ib.inboundID = id := by
  induction cfgs using reverseRecOn with
  | nil => exact ⟨rfl, nofun⟩
  | append_singleton cfgs c ih =>
    obtain ⟨htag, hid⟩ := ih fun c' hc' => h c' (mem_append_left _ hc')
    have hnodup := h c (by simp)
    rw [appliedAll_concat, recordApplied, recordConfiguration, lookup_foldl_insert hnodup,
      lastTag_concat,
      tagOf]
    cases hfind : c.1.managedInbounds.find? (·.inboundID == id) with
    | none => exact ⟨htag, hid⟩
    | some m =>
      have hm : m.inboundID = id := by simpa using find?_some hfind
      refine ⟨rfl, ?_⟩
      rintro ib ⟨⟩
      exact hm

/-- After any configurations, each with tags of its own for its inbounds: whatever
the order of the table, traffic is accounted to the inbounds of the last one just
when no inbound it does not have was last configured with one of its tags. -/
theorem mapping_correct_iff (parseURL : String → Except String URL)
    (cfgs : List (ConfigurationResponse × String)) (cfg : ConfigurationResponse) (etag : String)
    (hvalid : ∀ c ∈ cfgs ++ [(cfg, etag)], c.1.validate parseURL = .ok ())
    (htags : ∀ c ∈ cfgs ++ [(cfg, etag)], (c.1.managedInbounds.map (·.tag)).Nodup) :
    (∀ order, order.Perm (appliedAll (cfgs ++ [(cfg, etag)])).inbounds.keys →
      ∀ m ∈ cfg.managedInbounds,
        (appliedAll (cfgs ++ [(cfg, etag)])).inboundMapping order m.tag = some m.inboundID) ↔
      ∀ id tag, lastTag cfgs id = some tag → id ∉ cfg.managedInbounds.map (·.inboundID) →
        tag ∉ cfg.managedInbounds.map (·.tag) := by
  have hnodup : ∀ c ∈ cfgs ++ [(cfg, etag)], (c.1.managedInbounds.map (·.inboundID)).Nodup :=
    fun c hc => nodup_of_validate (hvalid c hc)
  have hids := hnodup (cfg, etag) (by simp)
  have hid : ∀ id ib, (appliedAll (cfgs ++ [(cfg, etag)])).inbounds.lookup id = some ib →
      ib.inboundID = id := fun id => (lookup_appliedAll hnodup id).2
  -- Which entries have a tag: inbounds of the last configuration, and leftovers.
  have hhas : ∀ id tag, (appliedAll (cfgs ++ [(cfg, etag)])).HasTag id tag ↔
      (cfg.tagOf id).or (lastTag cfgs id) = some tag := by
    intro id tag
    rw [hasTag_iff, (lookup_appliedAll hnodup id).1, lastTag_concat]
  have hown : ∀ m ∈ cfg.managedInbounds,
      (appliedAll (cfgs ++ [(cfg, etag)])).HasTag m.inboundID m.tag := by
    intro m hm
    rw [hhas, tagOf_of_mem hids hm]
    rfl
  constructor
  · -- A leftover that comes last takes the tag.
    intro h id tag hlast habsent htag
    obtain ⟨m, hm, rfl⟩ := mem_map.mp htag
    have hleft : (appliedAll (cfgs ++ [(cfg, etag)])).HasTag id m.tag := by
      rwa [hhas, tagOf_of_notMem habsent]
    have horder : ((appliedAll (cfgs ++ [(cfg, etag)])).inbounds.keys.erase id ++ [id]).Perm
        (appliedAll (cfgs ++ [(cfg, etag)])).inbounds.keys :=
      perm_append_comm.trans (perm_cons_erase hleft.mem_keys).symm
    have hmapped := h _ horder m hm
    rw [inboundMapping_concat, mapInbound_of_hasTag (hid id) hleft] at hmapped
    cases hmapped
    exact habsent (mem_map_of_mem hm)
  · intro h order horder m hm
    apply inboundMapping_of_unique hid (horder.mem_iff.mpr (hown m hm).mem_keys) (hown m hm)
    intro id _ htag
    rw [hhas] at htag
    by_cases hmem : id ∈ cfg.managedInbounds.map (·.inboundID)
    · obtain ⟨m', hm', rfl⟩ := mem_map.mp hmem
      rw [tagOf_of_mem hids hm'] at htag
      have heq := inj_on_of_nodup_map (htags (cfg, etag) (by simp)) hm' hm
        (some.inj htag)
      rw [heq]
    · rw [tagOf_of_notMem hmem] at htag
      exact absurd (mem_map_of_mem hm) (h id m.tag htag hmem)

open Panel.Manager (sampleLibraries sampleConfig)

/-- A renamed inbound. -/
theorem mapping_correct_of_rename : ["1"].Perm (appliedAll
      ([(sampleConfig "r1" "recreate_instance" "1" "a", "e1")] ++
        [(sampleConfig "r2" "recreate_instance" "1" "b", "e2")])).inbounds.keys ∧
    (appliedAll ([(sampleConfig "r1" "recreate_instance" "1" "a", "e1")] ++
        [(sampleConfig "r2" "recreate_instance" "1" "b", "e2")])).inboundMapping ["1"] "b" =
      some "1" := by
  have horder : ["1"].Perm (appliedAll ([(sampleConfig "r1" "recreate_instance" "1" "a", "e1")] ++
        [(sampleConfig "r2" "recreate_instance" "1" "b", "e2")])).inbounds.keys := by
    decide
  refine ⟨horder, (mapping_correct_iff sampleLibraries.parseURL _ _ _ (by decide)
    (by decide)).mpr ?_ ["1"] horder ⟨"1", "b", "anytls", "hot_reload_users"⟩ mem_cons_self⟩
  intro id tag hlast habsent
  have hid : id ≠ "1" := by simpa [sampleConfig] using habsent
  have hnone : (sampleConfig "r1" "recreate_instance" "1" "a").tagOf id = none := by
    apply tagOf_of_notMem
    simpa [sampleConfig] using hid
  have hlast : ((sampleConfig "r1" "recreate_instance" "1" "a").tagOf id).or none = some tag := hlast
  simp [hnone] at hlast

/-- An inbound is given a new id under its tag. The entry of the old id stays, and
traffic is accounted to that id when it comes last. -/
theorem reused_tag_accounted_to_old_id : (∀ c ∈ [sampleConfig "r1" "recreate_instance" "1" "a",
        sampleConfig "r2" "recreate_instance" "2" "a"],
      c.validate sampleLibraries.parseURL = .ok () ∧ (c.managedInbounds.map (·.tag)).Nodup) ∧
    ["2", "1"].Perm (appliedAll [(sampleConfig "r1" "recreate_instance" "1" "a", "e1"),
        (sampleConfig "r2" "recreate_instance" "2" "a", "e2")]).inbounds.keys ∧
    (appliedAll [(sampleConfig "r1" "recreate_instance" "1" "a", "e1"),
        (sampleConfig "r2" "recreate_instance" "2" "a", "e2")]).inboundMapping ["2", "1"] "a" =
      some "1" := by
  decide

end State

end SingBox.Panel
