import Mathlib.Data.List.Basic

/-! Machines that take an action in a state, or cannot, and the states that
they reach by the actions of a given environment. -/

namespace SingBox.Lib
open Option

/-- What an action does in a state; an action that is not enabled does nothing. -/
def Machine (σ α : Type*) := σ → α → Option σ

namespace Machine

variable {σ α : Type*} {step : Machine σ α} {admitted : σ → α → Prop}

/-- The states reached by actions that are admitted where they are taken. -/
inductive Reaches (step : Machine σ α) (admitted : σ → α → Prop) (s : σ) : σ → Prop
  | start : Reaches step admitted s s
  | next {t u : σ} {a : α} : Reaches step admitted s t → admitted t a → step t a = some u →
      Reaches step admitted s u

variable {P : σ → Prop} {s t : σ}

/-- What holds at the start and is kept by every admitted action holds in every
state reached. -/
theorem Reaches.invariant (h : Reaches step admitted s t) (hs : P s)
    (hstep : ∀ {t u a}, admitted t a → step t a = some u → P t → P u) : P t := by
  induction h with
  | start => exact hs
  | next _ ha hu ih => exact hstep ha hu ih

/-- Taking the actions of a list in turn. -/
def run (step : Machine σ α) (s : σ) : List α → Option σ
  | [] => some s
  | a :: actions => (step s a).bind fun t => run step t actions

lemma run_append (s : σ) (first last : List α) :
    run step s (first ++ last) = (run step s first).bind fun t => run step t last := by
  induction first generalizing s with
  | nil => rfl
  | cons a first ih =>
    simp only [List.cons_append, run, bind_assoc]
    congr 1
    funext t
    exact ih t

lemma exists_end {o : Option σ} (h : o.isSome)
    (hP : o = some (o.get h) → P (o.get h)) : ∃ s, o = some s ∧ P s :=
  ⟨_, eq_some_of_isSome h, hP (eq_some_of_isSome h)⟩

variable {actions : List α} {s t u : σ}

lemma Reaches.run (h : Reaches step admitted s t)
    (ha : ∀ t, ∀ a ∈ actions, admitted t a) (hrun : run step t actions = some u) :
    Reaches step admitted s u := by
  induction actions generalizing t with
  | nil =>
    cases hrun
    exact h
  | cons a actions ih =>
    obtain ⟨t', ht', hrun⟩ := bind_eq_some_iff.mp hrun
    have hnext := h.next (ha t a List.mem_cons_self) ht'
    exact ih hnext (fun t a hmem => ha t a (List.mem_cons_of_mem _ hmem)) hrun

/-- Taking the actions of a list in turn, each after a check. -/
def runChecked (step : Machine σ α) (check : σ → α → Bool) (s : σ) : List α → Option σ
  | [] => some s
  | a :: actions =>
    if check s a then (step s a).bind fun t => runChecked step check t actions else none

variable {check : σ → α → Bool}

lemma run_of_runChecked
    (h : runChecked step check s actions = some t) : run step s actions = some t := by
  induction actions generalizing s with
  | nil => exact h
  | cons a actions ih =>
    obtain ⟨-, h⟩ := ite_none_right_eq_some.mp h
    obtain ⟨u, hu, h⟩ := bind_eq_some_iff.mp h
    exact bind_eq_some_iff.mpr ⟨u, hu, ih h⟩

lemma run_get (check : σ → α → Bool) {s : σ} (h : (runChecked step check s actions).isSome) :
    run step s actions = some (get _ h) :=
  run_of_runChecked (eq_some_of_isSome h)

lemma exists_checked (check : σ → α → Bool) {s : σ} (h : (runChecked step check s actions).isSome)
    (hP : runChecked step check s actions = some (get _ h) → P (get _ h)) :
    ∃ t, run step s actions = some t ∧ P t :=
  ⟨_, run_get check h, hP (eq_some_of_isSome h)⟩

lemma Reaches.runChecked (hcheck : ∀ s a, check s a → admitted s a) (h : Reaches step admitted s t)
    (hrun : runChecked step check t actions = some u) : Reaches step admitted s u := by
  induction actions generalizing t with
  | nil =>
    cases hrun
    exact h
  | cons a actions ih =>
    obtain ⟨hchecked, hrun⟩ := ite_none_right_eq_some.mp hrun
    obtain ⟨t', ht', hrun⟩ := bind_eq_some_iff.mp hrun
    exact ih (h.next (hcheck t a hchecked) ht') hrun

end Machine

end SingBox.Lib
