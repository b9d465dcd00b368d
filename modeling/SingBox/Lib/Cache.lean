import Mathlib.Logic.Function.Basic

/-! Caches whose entries go out of date: what can be said of every entry, and
how long an entry is served. -/

namespace SingBox.Lib
open Function

/-- A value with the time at which it goes out of date. -/
structure Timed (ν : Type*) where
  value : ν
  expireAt : Nat

/-- What an entry is worth at some time. -/
inductive Freshness
  | fresh (left : Nat)
  | stale
  | expired
  deriving DecidableEq

/-- An entry is fresh until its time, and stale for the grace period after it. -/
def Timed.freshness {ν : Type*} (e : Timed ν) (now grace : Nat) : Freshness :=
  if now ≤ e.expireAt then .fresh (e.expireAt - now)
  else if 0 < grace ∧ now < e.expireAt + grace then .stale
  else .expired

abbrev Cache (κ ν : Type*) := κ → Option (Timed ν)

namespace Cache

variable {κ ν : Type*} [DecidableEq κ]

def empty : Cache κ ν := fun _ => none

def add (c : Cache κ ν) (key : κ) (e : Timed ν) : Cache κ ν := update c key (some e)

def remove (c : Cache κ ν) (key : κ) : Cache κ ν := update c key none

/-- Every value of the cache stands in the relation to its key. -/
def Holds (P : κ → ν → Prop) (c : Cache κ ν) : Prop := ∀ key e, c key = some e → P key e.value

variable {P : κ → ν → Prop} {c : Cache κ ν}

omit [DecidableEq κ] in
lemma holds_empty : Holds P (empty : Cache κ ν) := by
  intro key e h
  cases h

lemma Holds.add (h : Holds P c) {key : κ} {e : Timed ν} (he : P key e.value) :
    Holds P (c.add key e) := by
  intro k e' hk
  by_cases hkey : k = key
  · subst hkey
    rw [Cache.add, update_self, Option.some.injEq] at hk
    exact hk ▸ he
  · rw [Cache.add, update_of_ne hkey] at hk
    exact h k e' hk

lemma Holds.remove (h : Holds P c) (key : κ) : Holds P (c.remove key) := by
  intro k e hk
  by_cases hkey : k = key
  · subst hkey
    simp [Cache.remove, update_self] at hk
  · rw [Cache.remove, update_of_ne hkey] at hk
    exact h k e hk

end Cache

end SingBox.Lib
