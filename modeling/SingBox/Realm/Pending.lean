import SingBox.Lib.Machine

/-! The connect attempts that are pending on one session of a realm. -/

namespace SingBox.Realm
open Lib Machine Function List

def maxPendingAttempts : Nat := 16

/-- Where the handler of an attempt stands: not registered, in its `select`, past it, or after its
deferred call of `cancelPending`. -/
inductive Phase
  | idle | waiting | leaving | ended
  deriving DecidableEq

/-- It will still call `cancelPending`. -/
def Phase.live : Phase → Bool
  | .waiting | .leaving => true
  | _ => false

/-- What ends the wait of a handler; `full` is an event that found no room. -/
inductive Wake
  | full | response | timeout | done | cancelled

/-- The session, with the nonce, the channel and the handler of each attempt. A nonce maps to the
attempt whose channel is registered under it. -/
structure RealmSession where
  closed : Bool := false
  pending : List (String × Nat) := []
  nonce : Nat → String := fun _ => ""
  channel : Nat → Option (List String) := fun _ => none
  phase : Nat → Phase := fun _ => .idle

inductive Action
  | registerPending (attempt : Nat) (nonce : String)
  | deliverPending (nonce : String) (addresses : List String)
  | leave (attempt : Nat) (wake : Wake)
  | cancelPending (attempt : Nat)
  | removeSession

namespace RealmSession

variable (s : RealmSession)

def delete (nonce : String) : List (String × Nat) := s.pending.filter (·.1 ≠ nonce)

def registerPending (i : Nat) (nonce : String) : RealmSession :=
  if s.closed ∨ maxPendingAttempts ≤ s.pending.length then s
  else if s.pending.any (·.1 = nonce) then s
  else { s with
    pending := (nonce, i) :: s.pending
    nonce := update s.nonce i nonce
    channel := update s.channel i none
    phase := update s.phase i .waiting }

/-- A channel that is full keeps what it holds. -/
def deliverPending (nonce : String) (addresses : List String) : RealmSession :=
  if s.closed then s
  else match s.pending.find? (·.1 = nonce) with
    | none => s
    | some (_, i) => { s with
        pending := s.delete nonce
        channel := update s.channel i (s.channel i <|> some addresses) }

def removeSession : RealmSession := if s.closed then s else { s with closed := true, pending := [] }

def woken (i : Nat) : Wake → Bool
  | .response => (s.channel i).isSome
  | .done => s.closed
  | _ => true

def step : Machine RealmSession Action
  | s, .registerPending i nonce =>
    if s.phase i = .idle then some (s.registerPending i nonce) else none
  | s, .deliverPending nonce addresses => some (s.deliverPending nonce addresses)
  | s, .leave i wake =>
    if s.phase i = .waiting ∧ s.woken i wake then
      some { s with phase := update s.phase i .leaving }
    else none
  | s, .cancelPending i =>
    if s.phase i = .leaving then
      some { s with pending := s.delete (s.nonce i), phase := update s.phase i .ended }
    else none
  | s, .removeSession => some s.removeSession

/-- An attempt that waits for its response has its place, and there are not too many. -/
structure Placed : Prop where
  kept : ∀ i, s.phase i = .waiting → s.channel i = none → s.closed = false →
      (s.nonce i, i) ∈ s.pending
  bounded : s.pending.length ≤ maxPendingAttempts

/-- Also, a response goes to one attempt at most, which had its place under the nonce. -/
structure Undisturbed : Prop extends s.Placed where
  delivered : ∀ nonce addresses, (s.deliverPending nonce addresses).channel = s.channel ∨
    ∃ i, (nonce, i) ∈ s.pending ∧
      (s.deliverPending nonce addresses).channel = update s.channel i (some addresses)

/-- A nonce is registered only when no handler that used it has lost its place but not ended. -/
def Fresh : Action → Prop
  | .registerPending _ nonce => ∀ i, s.nonce i = nonce → (s.phase i).live = true →
      (nonce, i) ∈ s.pending
  | _ => True

/-- Attempts that are not over have different nonces, and those in the table are such. -/
structure Inv : Prop extends s.Placed where
  own : ∀ nonce i, (nonce, i) ∈ s.pending →
    s.nonce i = nonce ∧ s.channel i = none ∧ (s.phase i).live = true
  single : ∀ i j, s.nonce i = s.nonce j → (s.phase i).live = true → (s.phase j).live = true → i = j

variable {s} {t : RealmSession} {i : Nat} {nonce : String} {e : String × Nat}

lemma mem_delete : e ∈ s.delete nonce ↔ e ∈ s.pending ∧ e.1 ≠ nonce := by
  simp [delete]

lemma length_delete_le : (s.delete nonce).length ≤ s.pending.length := length_filter_le ..

lemma Inv.found (h : s.Inv) (hfind : s.pending.find? (·.1 = nonce) = some e) :
    (nonce, e.2) ∈ s.pending ∧ s.nonce e.2 = nonce ∧ s.channel e.2 = none ∧
      (s.phase e.2).live := by
  have hnonce : e.1 = nonce := by simpa using find?_some hfind
  have hmem : (nonce, e.2) ∈ s.pending := hnonce ▸ mem_of_find?_eq_some hfind
  exact ⟨hmem, h.own _ _ hmem⟩

lemma Inv.step {action : Action} (h : s.Inv) (hfresh : s.Fresh action)
    (ht : RealmSession.step s action = some t) : t.Inv := by
  have ⟨⟨hkept, hbounded⟩, hown, hsingle⟩ := h
  cases action with
  | registerPending i nonce =>
    obtain ⟨hidle, ht⟩ := Option.ite_none_right_eq_some.mp ht
    cases ht
    unfold registerPending
    split
    · exact h
    · split
      · exact h
      · rename_i hroom hnone
        simp only [any_eq_true, decide_eq_true_eq, not_exists, not_and] at hnone
        simp only [Fresh] at hfresh
        refine ⟨⟨?_, ?_⟩, ?_, ?_⟩ <;> simp only [update_apply]
        · grind -linarith
        · grind -linarith
        · grind -linarith [Phase.live]
        · grind -linarith
  | deliverPending nonce addresses =>
    cases ht
    unfold deliverPending
    split
    · exact h
    · split
      · exact h
      · rename_i hfind
        obtain ⟨-, rfl, hempty, hlive⟩ := h.found hfind
        refine ⟨⟨?_, Nat.le_trans length_delete_le hbounded⟩, ?_, hsingle⟩ <;>
          simp only [update_apply, mem_delete]
        · grind -linarith [Phase.live]
        · grind -linarith
  | leave i wake =>
    obtain ⟨hwait, ht⟩ := Option.ite_none_right_eq_some.mp ht
    cases ht
    refine ⟨⟨?_, hbounded⟩, ?_, ?_⟩ <;> simp only [update_apply]
    · grind -linarith
    · grind -linarith [Phase.live]
    · grind -linarith [Phase.live]
  | cancelPending i =>
    obtain ⟨hleave, ht⟩ := Option.ite_none_right_eq_some.mp ht
    cases ht
    refine ⟨⟨?_, Nat.le_trans length_delete_le hbounded⟩, ?_, ?_⟩ <;>
      simp only [update_apply, mem_delete]
    · grind -linarith [Phase.live]
    · grind -linarith
    · grind -linarith [Phase.live]
  | removeSession =>
    cases ht
    unfold removeSession
    split
    · exact h
    · exact { h with kept := nofun, bounded := Nat.zero_le _, own := nofun }

lemma Inv.undisturbed (h : s.Inv) : s.Undisturbed := by
  refine { h with delivered := fun nonce addresses => ?_ }
  unfold deliverPending
  split
  · exact .inl rfl
  · split
    · exact .inl rfl
    · rename_i hfind
      obtain ⟨hmem, -, hempty, -⟩ := h.found hfind
      exact .inr ⟨_, hmem, by simp [hempty]⟩

/-- No attempt takes the place of another while nonces are used anew only after their handlers. -/
theorem undisturbed_of_fresh (h : Reaches step Fresh {} s) : s.Undisturbed := by
  have hstart : Inv {} := ⟨⟨nofun, Nat.zero_le _⟩, nofun, nofun⟩
  exact (h.invariant hstart fun hfresh ht hinv => hinv.step hfresh ht).undisturbed

def sampleNonce : String := "00112233445566778899aabbccddeeff"

def otherNonce : String := "ffeeddccbbaa99887766554433221100"

/-- Two attempts, of which the first is answered and ends. -/
theorem undisturbed_registered : ∃ s, run step {} [.registerPending 0 sampleNonce,
      .registerPending 1 otherNonce, .deliverPending sampleNonce ["192.0.2.1:443"],
      .leave 0 .response, .cancelPending 0] = some s ∧ s.Undisturbed := by
  have hfirst : Reaches step Fresh {} (registerPending {} 0 sampleNonce) :=
    .next (a := .registerPending 0 sampleNonce) .start nofun rfl
  have hfresh : Fresh (registerPending {} 0 sampleNonce) (.registerPending 1 otherNonce) := by
    intro i hnonce hlive
    by_cases hi : i = 0
    · subst hi
      exact absurd hnonce (by decide)
    · simp [registerPending, maxPendingAttempts, hi, Phase.live] at hlive
  have hdelivered := (hfirst.next hfresh rfl).next
    (a := Action.deliverPending sampleNonce ["192.0.2.1:443"]) trivial rfl
  have hleft := hdelivered.next (a := Action.leave 0 .response) trivial rfl
  exact ⟨_, rfl, undisturbed_of_fresh (hleft.next (a := Action.cancelPending 0) trivial rfl)⟩

/-- The nonce of an answered attempt is registered before the handler has ended. -/
theorem place_deleted : ∃ s, run step {} [.registerPending 0 sampleNonce,
      .deliverPending sampleNonce ["192.0.2.1:443"], .registerPending 1 sampleNonce,
      .leave 0 .response, .cancelPending 0] = some s ∧ ¬ s.Undisturbed :=
  exists_end (by decide) fun _ h => absurd (h.kept 1 rfl rfl rfl) (by decide)

end RealmSession

end SingBox.Realm
