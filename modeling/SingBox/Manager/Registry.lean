import Mathlib.Data.List.Basic

/-! What the managers of outbounds and of DNS servers have in common: a list, a table by tag,
and for every tag the tags that depend on it. -/

namespace SingBox.Manager
open Function List

structure Entry where
  id : Nat
  tag : String
  type : String
  dependencies : List String
  deriving DecidableEq

structure Registry where
  list : List Entry := []
  byTag : String → Option Entry := fun _ => none
  dependByTag : String → List String := fun _ => []

/-- What a call of `Create` meets: the type and the dependencies of what the registry makes, and
the errors, as they are returned, of making and starting it and of closing what it replaces. -/
structure Making where
  made : Except String (String × List String)
  startError : Option String := none
  closeError : Option String := none

def makes (type : String) (dependencies : List String := []) : Making :=
  { made := .ok (type, dependencies) }

inductive Call
  | create (tag : String) (making : Making)
  | remove (tag : String) (closeError : Option String := none)

namespace Registry

variable (r : Registry) (tag : String)

/-- The first part of `Create`, which changes nothing. -/
def prepare (started : Bool) (id : Nat) (making : Making) : Except String Entry :=
  if tag = "" then .error "invalid argument"
  else
    match making.made with
    | .error err => .error err
    | .ok (type, dependencies) =>
      match making.startError.filter fun _ => started,
        making.closeError.filter fun _ => started && (r.byTag tag).isSome with
      | some err, _ | none, some err => .error err
      | none, none => .ok { id, tag, type, dependencies }

/-- The list without the entry in the table. -/
def others : List Entry := (r.byTag tag).elim r.list r.list.erase

variable (e : Entry)

/-- The new entry takes the place of the one with its tag. -/
def add : Registry where
  list := r.others e.tag ++ [e]
  byTag := update r.byTag e.tag (some e)
  dependByTag := e.dependencies.foldl (fun t d => update t d (t d ++ [e.tag])) r.dependByTag

def delete : Registry := { r with list := r.list.erase e, byTag := update r.byTag tag none }

def forget : Registry :=
  { r with dependByTag := e.dependencies.foldl (fun t d =>
      update t d (if (t d).length = 1 then [] else (t d).filter (· ≠ tag))) r.dependByTag }

def Current : Prop := e ∈ r.list ∧ r.byTag e.tag = some e

variable {r tag e} {x : Entry}

lemma prepare_eq_ok {started : Bool} {id : Nat} {making : Making}
    (h : r.prepare tag started id making = .ok e) :
    e.tag = tag ∧ making.made = .ok (e.type, e.dependencies) := by
  unfold prepare at h
  split at h
  · cases h
  · split at h
    · cases h
    · next hmade =>
      split at h
      · cases h
      · cases h
      · cases h
        exact ⟨rfl, hmade⟩

lemma current_add (r : Registry) (e : Entry) : (r.add e).Current e :=
  ⟨mem_append_right _ (mem_singleton_self e), update_self ..⟩

lemma mem_add (h : x ∈ (r.add e).list) : x ∈ r.list ∨ x = e := by
  obtain h | h := mem_append.mp h
  · unfold others at h
    cases hold : r.byTag e.tag with
    | none => exact .inl (by simpa [hold] using h)
    | some old =>
      rw [hold] at h
      exact .inl (mem_of_mem_erase h)
  · exact .inr (mem_singleton.mp h)

lemma Current.add (h : r.Current x) (hx : r.byTag e.tag ≠ some x) : (r.add e).Current x := by
  have htag : x.tag ≠ e.tag := fun htag => hx (htag ▸ h.2)
  refine ⟨mem_append_left _ ?_, (update_of_ne htag ..).trans h.2⟩
  unfold others
  cases hold : r.byTag e.tag with
  | none => exact h.1
  | some old => exact (mem_erase_of_ne fun heq : x = old => hx (heq ▸ hold)).mpr h.1

lemma Current.delete (h : r.Current x) (he : r.byTag tag = some e) (hx : x ≠ e) :
    (r.delete tag e).Current x := by
  have htag : x.tag ≠ tag := by
    rintro rfl
    exact hx (Option.some.inj (h.2.symm.trans he))
  exact ⟨(mem_erase_of_ne hx).mpr h.1, (update_of_ne htag ..).trans h.2⟩

end Registry

end SingBox.Manager
