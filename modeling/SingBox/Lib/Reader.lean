import Mathlib.Data.List.Basic

/-! Readers that are called with the size of a buffer, and what it means that one of them
delivers a list and then the end. -/

namespace SingBox.Lib
open List

/-- What a call of a reader returns. -/
inductive ReadResult (α ε : Type)
  | data (xs : List α)
  | eof
  | error (err : ε)
  deriving DecidableEq

namespace Reader

variable {σ α ε : Type}

/-- The calls with buffers of these sizes, one after the other, and their results. -/
def reads (read : σ → Nat → ReadResult α ε × σ) : σ → List Nat → List (Nat × ReadResult α ε)
  | _, [] => []
  | s, size :: sizes => (size, (read s size).1) :: reads read (read s size).2 sizes

/-- Each call gives a part of what is left, never more than its buffer holds and something
if it holds anything; once nothing is left, each call tells the end. -/
inductive Delivers : List α → List (Nat × ReadResult α ε) → Prop
  | nil (xs : List α) : Delivers xs []
  | data {xs chunk : List α} {size : Nat} {trace : List (Nat × ReadResult α ε)}
      (hle : chunk.length ≤ size) (hne : 0 < size → chunk ≠ []) (h : Delivers xs trace) :
      Delivers (chunk ++ xs) ((size, .data chunk) :: trace)
  | eof {size : Nat} {trace : List (Nat × ReadResult α ε)} (h : Delivers [] trace) :
      Delivers [] ((size, .eof) :: trace)

/-- One call of a reader that keeps to `Delivers` and to an invariant. -/
inductive Good (Inv : σ → List α → Prop) (size : Nat) : List α → ReadResult α ε × σ → Prop
  | data {chunk xs : List α} {s : σ} (hle : chunk.length ≤ size) (hne : 0 < size → chunk ≠ [])
      (h : Inv s xs) : Good Inv size (chunk ++ xs) (.data chunk, s)
  | eof {s : σ} (h : Inv s []) : Good Inv size [] (.eof, s)

variable {read : σ → Nat → ReadResult α ε × σ} {xs : List α}

lemma delivers_of_invariant {Inv : σ → List α → Prop}
    (hstep : ∀ s xs size, Inv s xs → Good Inv size xs (read s size)) {s : σ}
    (h : Inv s xs) (sizes : List Nat) : Delivers xs (reads read s sizes) := by
  induction sizes generalizing s xs with
  | nil => exact .nil xs
  | cons size sizes ih =>
    have hgood := hstep s xs size h
    unfold reads
    generalize read s size = next at hgood
    cases hgood with
    | data hle hne hinv => exact .data hle hne (ih hinv)
    | eof hinv => exact .eof (ih hinv)

@[simp] lemma length_reads (s : σ) (sizes : List Nat) :
    (reads read s sizes).length = sizes.length := by
  induction sizes generalizing s with
  | nil => rfl
  | cons size sizes ih => rw [reads, length_cons, ih, length_cons]

variable {call : Nat × ReadResult α ε}

lemma size_mem_of_mem_reads {s : σ} {sizes : List Nat}
    (h : call ∈ reads read s sizes) : call.1 ∈ sizes := by
  induction sizes generalizing s with
  | nil => cases h
  | cons size sizes ih =>
    obtain rfl | h := mem_cons.mp h
    · exact mem_cons_self
    · exact mem_cons_of_mem _ (ih h)

lemma reads_congr {s s' : σ} (h : ∀ size, read s size = read s' size) (sizes : List Nat) :
    reads read s sizes = reads read s' sizes := by
  cases sizes with
  | nil => rfl
  | cons size sizes => rw [reads, reads, h]

variable {trace : List (Nat × ReadResult α ε)}

lemma Delivers.not_error (h : Delivers xs trace)
    (hcall : call ∈ trace) (err : ε) : call.2 ≠ .error err := by
  induction h with
  | nil => cases hcall
  | data hle hne h ih | eof h ih =>
    obtain rfl | hcall := mem_cons.mp hcall
    · exact nofun
    · exact ih hcall

/-- What the calls of a trace gave, put together. -/
def delivered (trace : List (Nat × ReadResult α ε)) : List α :=
  trace.flatMap fun call =>
    match call.2 with
    | .data xs => xs
    | _ => []

lemma Delivers.delivered_prefix (h : Delivers xs trace) : delivered trace <+: xs := by
  induction h with
  | nil xs => exact nil_prefix
  | @data xs chunk size trace hle hne h ih => exact (prefix_append_right_inj chunk).mpr ih
  | eof h ih => exact ih

/-- Enough calls that ask for something give everything, and then the end. -/
theorem Delivers.complete (h : Delivers xs trace) (hsize : ∀ call ∈ trace, 0 < call.1)
    (hlen : xs.length < trace.length) : delivered trace = xs ∧ ∃ call ∈ trace, call.2 = .eof := by
  induction h with
  | nil xs => exact absurd hlen (Nat.not_lt_zero _)
  | @data xs chunk size trace hle hne h ih =>
    have hpos : 0 < chunk.length := length_pos_iff.mpr (hne (hsize _ mem_cons_self))
    have hshort : xs.length < trace.length := by
      simp only [length_append, length_cons] at hlen
      omega
    obtain ⟨hall, call, hcall, heof⟩ :=
      ih (fun call hcall => hsize call (mem_cons_of_mem _ hcall)) hshort
    refine ⟨?_, call, mem_cons_of_mem _ hcall, heof⟩
    change chunk ++ delivered trace = chunk ++ xs
    rw [hall]
  | eof h ih => exact ⟨prefix_nil.mp h.delivered_prefix, _, mem_cons_self, rfl⟩

end Reader

end SingBox.Lib
