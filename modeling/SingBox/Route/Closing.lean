import SingBox.Lib.Machine

/-! The end of a routed connection: who closes its two sides and who calls the callback. -/

namespace SingBox.Route
open Lib Machine

/-- Where a goroutine that copies in one direction stands. -/
inductive Copier
  | copying | copied | calling | closing | ended
  deriving DecidableEq

/-- It has taken the flag. -/
@[simp] def Copier.past : Copier → Bool
  | .copying | .copied => false
  | _ => true

/-- How the copying of a stream ended: with an error, with `CloseWrite`, or towards a side that has
no such method and is closed. -/
inductive Copied
  | failed | closedWrite | closed

/-- The sides that are open, and how often the callback has been called. -/
structure Routed where
  inbound : Bool := true
  outbound : Bool := true
  calls : Nat := 0
  done : Bool := false
  upload : Copier := .ended
  download : Copier := .ended

/-- What fails before the copying; a handshake that only times out does not. -/
structure Failures where
  dial : Bool := false
  report : Bool := false
  spoof : Bool := false
  uploadHandshake : Bool := false
  downloadHandshake : Bool := false

namespace Routed

variable (s : Routed) (packet : Bool) (fails : Failures)

def close : Routed := { s with inbound := false, outbound := false }

def closeOnHandshakeFailure : Routed := { s with inbound := false, calls := s.calls + 1 }

def kickWriteHandshake : Routed :=
  { s with done := true, calls := if s.done then s.calls else s.calls + 1 }.close

def newConnection : Routed :=
  if fails.dial ∨ fails.report ∨ fails.spoof then closeOnHandshakeFailure { outbound := false }
  else if fails.uploadHandshake ∨ fails.downloadHandshake then kickWriteHandshake {}
  else { upload := .copying, download := .copying }

def newPacketConnection : Routed :=
  if fails.dial then closeOnHandshakeFailure { outbound := false }
  else if fails.report then close {}
  else { upload := .copying, download := .copying }

/-- A step of a copier. The last one of a stream calls the callback, and the first one of
packets. -/
def copy (download : Bool) (how : Copied) : Copier → Option (Routed × Copier)
  | .copying =>
    some (match packet, how with
      | true, _ | false, .closedWrite => s
      | false, .failed => s.close
      | false, .closed =>
        if download then { s with inbound := false } else { s with outbound := false }, .copied)
  | .copied => some ({ s with done := true },
      if s.done ≠ packet then .calling else if packet then .closing else .ended)
  | .calling => some ({ s with calls := s.calls + 1 }, .closing)
  | .closing => some (s.close, .ended)
  | .ended => none

def step : Machine Routed (Bool × Copied)
  | s, (true, how) => (s.copy packet true how s.download).map fun (t, p) => { t with download := p }
  | s, (false, how) => (s.copy packet false how s.upload).map fun (t, p) => { t with upload := p }

structure ClosedOnce : Prop where
  calls : s.calls ≤ 1
  ended : s.upload = .ended → s.download = .ended →
    s.calls = 1 ∧ s.inbound = false ∧ s.outbound = false

structure Inv : Prop where
  done : ¬ (s.upload = .ended ∧ s.download = .ended) → s.done = (s.upload.past || s.download.past)
  calls : s.calls = if s.upload = .calling ∨ s.download = .calling then 0
    else (if packet then s.upload.past || s.download.past else s.upload.past && s.download.past).toNat
  calling : packet = true → s.upload = .calling → s.download ≠ .calling
  last : packet = false → s.done = true → s.upload = .ended ∨ s.download = .ended
  closed : (if packet then s.upload = .ended ∨ s.download = .ended
    else s.upload = .ended ∧ s.download = .ended) → s.inbound = false ∧ s.outbound = false

variable {s packet fails} {t : Routed}

lemma Inv.closedOnce (h : s.Inv packet) : s.ClosedOnce := by
  constructor
  · rw [h.calls]
    split
    · omega
    · exact Bool.toNat_le _
  · intro hup hdown
    refine ⟨?_, h.closed (by simp [hup, hdown])⟩
    rw [h.calls, hup, hdown]
    cases packet <;> rfl

/-- The two directions in each other's place. -/
def swap (s : Routed) : Routed :=
  { s with inbound := s.outbound, outbound := s.inbound, upload := s.download, download := s.upload }

lemma Inv.swap (h : s.Inv packet) : s.swap.Inv packet where
  done hopen := (h.done fun hs => hopen hs.symm).trans (Bool.or_comm ..)
  calls := by
    refine h.calls.trans ?_
    simp only [Routed.swap, or_comm, Bool.or_comm, Bool.and_comm]
  calling hpacket hup hdown := h.calling hpacket hdown hup
  last hstream hdone := (h.last hstream hdone).symm
  closed hended := (h.closed (by simpa only [Routed.swap, or_comm, and_comm] using hended)).symm

lemma step_download (how : Copied) : Routed.step packet s (true, how) =
    (Routed.step packet s.swap (false, how)).map Routed.swap := by
  obtain ⟨_, _, _, _, _, download⟩ := s
  cases download <;> cases packet <;> cases how <;> rfl

lemma Inv.upload {how : Copied} (h : s.Inv packet)
    (ht : Routed.step packet s (false, how) = some t) : t.Inv packet := by
  obtain ⟨hdone, hcalls, hcalling, hlast, hclosed⟩ := h
  obtain ⟨inbound, outbound, calls, done, upload, download⟩ := s
  have hdone : upload ≠ .ended → done = (upload.past || download.past) := (hdone fun h => · h.1)
  dsimp only at hcalls hcalling hlast hclosed
  cases upload with
  | ended => cases ht
  | copying =>
    cases packet with
    | true =>
      cases ht
      exact ⟨fun _ => hdone (by simp), by simpa using hcalls, by simp, by simp,
        by simpa using hclosed⟩
    | false =>
      cases how <;> cases ht <;> exact ⟨fun _ => hdone (by simp),
        by simpa [close] using hcalls, by simp, by simpa [close] using hlast, by simp⟩
  | copied =>
    obtain rfl : done = download.past := hdone (by simp)
    cases ht
    cases download with
    | copying | copied =>
      cases packet <;> exact ⟨fun _ => rfl, by simpa using hcalls, by simp,
        by simp, by simp⟩
    | calling | closing | ended =>
      -- the other copier has been here: the last of a stream, the second of packets
      cases packet with
      | true => exact ⟨fun _ => rfl, by simpa using hcalls, by simp,
          by simp, fun hended => hclosed (hended.imp_left (by simp))⟩
      | false => exact ⟨fun _ => rfl, by simpa using hcalls, by simp,
          fun _ _ => .inr ((hlast rfl rfl).resolve_left (by simp)), by simp⟩
  | calling =>
    obtain rfl : calls = 0 := by simpa using hcalls
    cases ht
    cases packet with
    | true =>
      have hother := hcalling rfl rfl
      exact ⟨fun _ => hdone (by simp), by simpa using hother, by simp, by simp,
        by simpa using hclosed⟩
    | false =>
      obtain rfl : done = true := hdone (by simp)
      obtain rfl : download = .ended := by simpa using hlast rfl rfl
      exact ⟨fun _ => rfl, rfl, by simp, by simp, by simp⟩
  | closing =>
    cases ht
    exact ⟨fun _ => hdone (by simp), by simpa [close] using hcalls, by simp,
      fun _ _ => .inl rfl, fun _ => ⟨rfl, rfl⟩⟩

lemma Inv.step {a : Bool × Copied} (h : s.Inv packet) (ht : Routed.step packet s a = some t) :
    t.Inv packet := by
  obtain ⟨_ | _, how⟩ := a
  · exact h.upload ht
  · rw [step_download, Option.map_eq_some_iff] at ht
    obtain ⟨t, ht, rfl⟩ := ht
    exact (h.swap.upload ht).swap

variable (packet fails)

def routed : Routed := if packet then newPacketConnection fails else newConnection fails

lemma inv_routed (h : ¬ (packet ∧ fails.dial = false ∧ fails.report)) :
    (routed packet fails).Inv packet := by
  unfold routed newPacketConnection newConnection
  cases packet <;> simp only [Bool.false_eq_true, if_true, if_false] <;> repeat' split
  all_goals first | simp_all; done | constructor <;> decide

/-- The callback is called once, and both sides are closed in the end, except where the success
of a handshake cannot be reported to a connection of packets. -/
theorem closedOnce_iff :
    (∀ s, Reaches (step packet) (fun _ _ => True) (routed packet fails) s → s.ClosedOnce) ↔
      ¬ (packet = true ∧ fails.dial = false ∧ fails.report = true) := by
  constructor
  · rintro h ⟨rfl, hdial, hrep⟩
    have hstart : routed true fails = close {} := by simp [routed, newPacketConnection, hdial, hrep]
    have hended := (h _ .start).ended
    rw [hstart] at hended
    cases (hended rfl rfl).1
  · intro h s hs
    have hinv := inv_routed packet fails h
    exact (hs.invariant (P := (Inv · packet)) hinv fun _ ht hinv => hinv.step ht).closedOnce

theorem packets_never_reported :
    (routed true { report := true }).calls = 0 ∧ ¬ (routed true { report := true }).ClosedOnce := by
  refine ⟨rfl, fun h => ?_⟩
  cases (h.ended rfl rfl).1

end Routed

end SingBox.Route
