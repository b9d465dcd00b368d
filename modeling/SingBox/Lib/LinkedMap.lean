import Mathlib.Data.List.Basic

/-! A map whose entries are kept in the order in which their keys were first put. -/

namespace SingBox.Lib
open List

structure LinkedMap (α β : Type) where
  entries : List (α × β)
  nodup : (entries.map Prod.fst).Nodup

namespace LinkedMap

variable {α β : Type}

lemma ext_entries {m m' : LinkedMap α β} (h : m.entries = m'.entries) : m = m' := by
  cases m
  cases m'
  cases h
  rfl

variable [DecidableEq α]

instance : EmptyCollection (LinkedMap α β) := ⟨[], nodup_nil⟩

def replace (key : α) (value : β) (entries : List (α × β)) : List (α × β) :=
  entries.map fun entry => if entry.1 = key then (key, value) else entry

lemma keys_replace (key : α) (value : β) (entries : List (α × β)) :
    (replace key value entries).map Prod.fst = entries.map Prod.fst := by
  rw [replace, map_map]
  apply map_congr_left
  intro entry _
  by_cases h : entry.1 = key
  · simp [h]
  · simp [h]

def put (m : LinkedMap α β) (key : α) (value : β) : LinkedMap α β :=
  if h : key ∈ m.entries.map Prod.fst then
    { entries := replace key value m.entries
      nodup := by rw [keys_replace]; exact m.nodup }
  else
    { entries := m.entries ++ [(key, value)]
      nodup := by
        rw [map_append, nodup_append]
        refine ⟨m.nodup, nodup_cons.mpr ⟨not_mem_nil, nodup_nil⟩, ?_⟩
        rintro a ha b hb rfl
        have hkey : a = key := mem_singleton.mp hb
        exact h (hkey ▸ ha) }

def ofEntries (entries : List (α × β)) : LinkedMap α β :=
  entries.foldl (fun m entry => m.put entry.1 entry.2) ∅

variable (m : LinkedMap α β)

lemma entries_foldl_put {entries : List (α × β)} (h : ((m.entries ++ entries).map Prod.fst).Nodup) :
    (entries.foldl (fun m entry => m.put entry.1 entry.2) m).entries = m.entries ++ entries := by
  induction entries generalizing m with
  | nil => rw [append_nil]; rfl
  | cons entry entries ih =>
    have hnew : entry.1 ∉ m.entries.map Prod.fst := by
      intro hmem
      rw [map_append, nodup_append] at h
      exact h.2.2 _ hmem _ mem_cons_self rfl
    have hput : (m.put entry.1 entry.2).entries = m.entries ++ [entry] := by
      rw [put, dif_neg hnew]
    rw [foldl_cons, ih, hput, append_assoc, singleton_append]
    rwa [hput, append_assoc, singleton_append]

lemma ofEntries_entries : ofEntries m.entries = m := by
  apply ext_entries
  exact entries_foldl_put ∅ m.nodup

end LinkedMap

end SingBox.Lib
