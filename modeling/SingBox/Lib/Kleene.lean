import Mathlib.Data.List.Basic

/-! Three-valued verdicts for evaluation with missing information: `maybe` is
what only the missing part can decide. -/

namespace SingBox.Lib
open List

inductive Verdict
  | no
  | maybe
  | yes
  deriving DecidableEq

namespace Verdict

def ofBool (b : Bool) : Verdict := if b then yes else no

/-- The value can still be true. -/
def holds : Verdict → Bool
  | no => false
  | _ => true

def not : Verdict → Verdict
  | no => yes
  | maybe => maybe
  | yes => no

def and : Verdict → Verdict → Verdict
  | no, _ => no
  | _, no => no
  | yes, yes => yes
  | _, _ => maybe

def or : Verdict → Verdict → Verdict
  | yes, _ => yes
  | _, yes => yes
  | no, no => no
  | _, _ => maybe

def all : List Verdict → Verdict
  | [] => yes
  | v :: vs => v.and (all vs)

def any : List Verdict → Verdict
  | [] => no
  | v :: vs => v.or (any vs)

def invertIf (invert : Bool) (v : Verdict) : Verdict := if invert then v.not else v

@[simp] lemma holds_no : holds no = false := rfl
@[simp] lemma holds_maybe : holds maybe := rfl
@[simp] lemma holds_yes : holds yes := rfl

@[simp] lemma holds_ofBool (b : Bool) : (ofBool b).holds = b := by cases b <;> rfl

variable (v : Verdict)

@[simp] lemma no_and : no.and v = no := by cases v <;> rfl
@[simp] lemma yes_and : yes.and v = v := by cases v <;> rfl
@[simp] lemma and_yes : v.and yes = v := by cases v <;> rfl
@[simp] lemma and_no : v.and no = no := by cases v <;> rfl
@[simp] lemma yes_or : yes.or v = yes := by cases v <;> rfl
@[simp] lemma no_or : no.or v = v := by cases v <;> rfl
@[simp] lemma or_no : v.or no = v := by cases v <;> rfl
@[simp] lemma or_yes : v.or yes = yes := by cases v <;> rfl

variable {v w : Verdict}

@[simp] lemma and_eq_no : v.and w = no ↔ v = no ∨ w = no := by
  cases v <;> cases w <;> simp [Verdict.and]
@[simp] lemma and_eq_yes : v.and w = yes ↔ v = yes ∧ w = yes := by
  cases v <;> cases w <;> simp [Verdict.and]
@[simp] lemma or_eq_no : v.or w = no ↔ v = no ∧ w = no := by
  cases v <;> cases w <;> simp [Verdict.or]
@[simp] lemma or_eq_yes : v.or w = yes ↔ v = yes ∨ w = yes := by
  cases v <;> cases w <;> simp [Verdict.or]

lemma and_assoc (a b c : Verdict) : (a.and b).and c = a.and (b.and c) := by
  cases a <;> cases b <;> cases c <;> rfl

lemma or_assoc (a b c : Verdict) : (a.or b).or c = a.or (b.or c) := by
  cases a <;> cases b <;> cases c <;> rfl

/-! ## Verdicts that come to the same -/

variable (side : Bool)

/-- A later verdict never revokes the earlier one on one side: with `side = true`
a `no` is final, with `side = false` a `yes` is. -/
def Safe (v w : Verdict) : Prop := v = ofBool (!side) → w = ofBool (!side)

lemma safe_refl (v : Verdict) : Safe side v v := id

lemma safe_maybe (w : Verdict) : Safe side maybe w := by
  cases side <;> simp [Safe, ofBool]

lemma Safe.holds (h : Safe true v w) (hw : w.holds) : v.holds := by
  cases v with
  | no => simp [h rfl, ofBool] at hw
  | maybe | yes => rfl

variable {v' w' : Verdict} {side : Bool}

lemma Safe.and (h : Safe side v w) (h' : Safe side v' w') : Safe side (v.and v') (w.and w') := by
  cases side with
  | true => simpa [Safe, ofBool] using Or.imp h h'
  | false => simpa [Safe, ofBool] using And.imp h h'

lemma Safe.or (h : Safe side v w) (h' : Safe side v' w') : Safe side (v.or v') (w.or w') := by
  cases side with
  | true => simpa [Safe, ofBool] using And.imp h h'
  | false => simpa [Safe, ofBool] using Or.imp h h'

lemma Safe.invertIf {side invert : Bool} (h : Safe (side ^^ invert) v w) :
    Safe side (v.invertIf invert) (w.invertIf invert) := by
  cases side <;> cases invert <;> cases v <;>
    simp_all [Safe, Verdict.invertIf, Verdict.not, ofBool]

section
variable {α : Type*} {side : Bool} {f g : α → Verdict} {l : List α}

section
variable (h : ∀ x ∈ l, Safe side (f x) (g x))
include h

lemma safe_all : Safe side (all (l.map f)) (all (l.map g)) := by
  induction l with
  | nil => exact safe_refl side yes
  | cons x l ih =>
    have hl := ih fun y hy => h y (mem_cons_of_mem x hy)
    exact (h x mem_cons_self).and hl

lemma safe_any : Safe side (any (l.map f)) (any (l.map g)) := by
  induction l with
  | nil => exact safe_refl side no
  | cons x l ih =>
    have hl := ih fun y hy => h y (mem_cons_of_mem x hy)
    exact (h x mem_cons_self).or hl

end

end

/-! ## Decided verdicts -/

lemma ofBool_and (a b : Bool) : (ofBool a).and (ofBool b) = ofBool (a && b) := by
  cases a <;> cases b <;> rfl

lemma ofBool_or (a b : Bool) : (ofBool a).or (ofBool b) = ofBool (a || b) := by
  cases a <;> cases b <;> rfl

lemma ofBool_invertIf (invert b : Bool) : (ofBool b).invertIf invert = ofBool (invert ^^ b) := by
  cases invert <;> cases b <;> rfl

section
variable {α : Type*} {f : α → Verdict} {g : α → Bool} {l : List α}

section
variable (h : ∀ x ∈ l, f x = ofBool (g x))
include h

lemma all_ofBool : all (l.map f) = ofBool (l.all g) := by
  induction l with
  | nil => rfl
  | cons x l ih =>
    have hl := ih fun y hy => h y (mem_cons_of_mem x hy)
    rw [map_cons, all, h x mem_cons_self, hl, ofBool_and, all_cons]

lemma any_ofBool : any (l.map f) = ofBool (l.any g) := by
  induction l with
  | nil => rfl
  | cons x l ih =>
    have hl := ih fun y hy => h y (mem_cons_of_mem x hy)
    rw [map_cons, any, h x mem_cons_self, hl, ofBool_or, any_cons]

end

end

end Verdict

end SingBox.Lib
