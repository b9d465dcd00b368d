import Mathlib.Data.List.Basic

/-! A connection that several activities may read messages from. Each message is meant for one
of them, or for whoever reads it. -/

namespace SingBox.Lib
open List

/-- The reads in progress, the messages that were not read, and for every message that was
read who read it and whom it was meant for. -/
structure Wire (ρ φ : Type*) where
  readers : List ρ := []
  inbox : List (Option ρ × φ) := []
  taken : List (ρ × Option ρ) := []

namespace Wire

variable {ρ φ : Type*}

def start (w : Wire ρ φ) (r : ρ) : Wire ρ φ := { w with readers := r :: w.readers }

def stop [DecidableEq ρ] (w : Wire ρ φ) (r : ρ) : Wire ρ φ := { w with readers := w.readers.erase r }

def send (w : Wire ρ φ) (meant : Option ρ) (message : φ) : Wire ρ φ :=
  { w with inbox := w.inbox ++ [(meant, message)] }

/-- A read in progress ends with the next message. -/
def take [DecidableEq ρ] (w : Wire ρ φ) (r : ρ) : Option (φ × Wire ρ φ) :=
  match w.inbox with
  | [] => none
  | (meant, message) :: inbox =>
    if r ∈ w.readers then
      some (message, {
        readers := w.readers.erase r
        inbox
        taken := (r, meant) :: w.taken })
    else none

/-- At most one read is in progress, and every message was read by the one it was meant for. -/
structure Exclusive (w : Wire ρ φ) : Prop where
  one : w.readers.length ≤ 1
  meant : ∀ entry ∈ w.taken, ∀ r, entry.2 = some r → entry.1 = r

/-- Only those who may read do so, and while the connection is in use only they are sent
messages. -/
structure Held (w : Wire ρ φ) (live : Prop) (may : ρ → Prop) : Prop extends w.Exclusive where
  readers : ∀ r ∈ w.readers, may r
  inbox : live → ∀ r message, (some r, message) ∈ w.inbox → may r

variable {w : Wire ρ φ} {r : ρ} {live live' : Prop} {may may' : ρ → Prop}

lemma held_new : Held ({} : Wire ρ φ) live may where
  one := Nat.zero_le _
  meant _ hmem := absurd hmem not_mem_nil
  readers _ hr := absurd hr not_mem_nil
  inbox _ _ _ hmem := absurd hmem not_mem_nil

variable {message : φ} {w' : Wire ρ φ}

lemma take_eq_some [DecidableEq ρ] (h : w.take r = some (message, w')) :
    ∃ meant, r ∈ w.readers ∧ w.inbox = (meant, message) :: w'.inbox ∧
      w'.readers = w.readers.erase r ∧ w'.taken = (r, meant) :: w.taken := by
  unfold take at h
  split at h
  · cases h
  · rename_i meant message' inbox hinbox
    obtain ⟨hmem, ⟨⟩⟩ := Option.ite_some_none_eq_some.mp h
    exact ⟨meant, hmem, hinbox, rfl, rfl⟩

lemma Exclusive.erase_eq [DecidableEq ρ] (h : w.Exclusive) (hr : r ∈ w.readers) :
    w.readers.erase r = [] := by
  have hlen := length_erase_of_mem hr
  have hone := h.one
  exact length_eq_zero_iff.mp (by omega)

variable (h : w.Held live may)
include h

lemma Held.start (hunique : ∀ r', may r' → r' = r) (hr : r ∉ w.readers)
    (hmay : may r) : (w.start r).Held live may := by
  have hnil : w.readers = [] := by
    refine eq_nil_iff_forall_not_mem.mpr fun r' hr' => hr ?_
    rwa [hunique r' (h.readers r' hr')] at hr'
  refine ⟨⟨?_, h.meant⟩, forall_mem_cons.mpr ⟨hmay, h.readers⟩, h.inbox⟩
  rw [Wire.start, hnil]
  exact Nat.le_refl 1

lemma Held.stop [DecidableEq ρ] (r : ρ) : (w.stop r).Held live may := { h with
  one := Nat.le_trans length_erase_le h.one
  readers r' hr' := h.readers r' (mem_of_mem_erase hr') }

lemma Held.take [DecidableEq ρ] (hunique : ∀ r', may r' → r' = r) (hlive : live)
    (htake : w.take r = some (message, w')) : w'.Held live may := by
  obtain ⟨meant, hmem, hinbox, hreaders, htaken⟩ := take_eq_some htake
  have hin {entry} (hent : entry ∈ w'.inbox) : entry ∈ w.inbox := by
    rw [hinbox]
    exact mem_cons_of_mem _ hent
  refine ⟨⟨?_, ?_⟩, fun r' hr' => ?_, fun _ r' message hmem => h.inbox hlive r' message (hin hmem)⟩
  · rw [hreaders]
    exact Nat.le_trans length_erase_le h.one
  · rw [htaken]
    refine forall_mem_cons.mpr ⟨fun r' hr' => (hunique r' ?_).symm, h.meant⟩
    apply h.inbox hlive r' message
    rw [hinbox, ← show meant = some r' from hr']
    exact mem_cons_self
  · rw [hreaders] at hr'
    exact h.readers r' (mem_of_mem_erase hr')

lemma Held.send {meant : Option ρ}
    (hmay : live → ∀ r, meant = some r → may r) : (w.send meant message).Held live may := { h with
  toExclusive := { h with }
  inbox hlive r other hmem := by
    obtain hold | hnew := mem_append.mp hmem
    · exact h.inbox hlive r other hold
    · exact hmay hlive r (Prod.mk.inj (mem_singleton.mp hnew)).1.symm }

/-- Others may read, but those who do or are sent messages still may. -/
theorem Held.change (hreaders : ∀ r ∈ w.readers, may r → may' r)
    (hinbox : live' → live ∧ ∀ r message, (some r, message) ∈ w.inbox → may r → may' r) :
    w.Held live' may' := { h with
  readers r hr := hreaders r hr (h.readers r hr)
  inbox hlive r message hmem := (hinbox hlive).2 r message hmem
      (h.inbox (hinbox hlive).1 r message hmem) }

end Wire

end SingBox.Lib
