import SingBox.Panel.Accounts

/-! Reports against counters: over any order of counting, staging, confirming,
subtracting and changes of the inbound mapping. -/

namespace SingBox.Panel
open Lib Machine Option Tracker

/-- The accounts, whether the report that was staged last was persisted, and the
reports whose staging was confirmed. -/
structure Ledger where
  accounts : Accounts
  persisted : Bool := false
  confirmed : List TrafficReport := []

namespace Ledger

inductive Action
  | activity (x : Activity)
  | updateInboundMapping (mapping : String → Option String)
  | stageForReport (order : List Key) (startedAt endedAt : Int) (configRevision : String)
  | persist
  | confirmJournaled
  | confirmAccepted
  | resetLiveCountersWhenJournaled

def withTracker (l : Ledger) (t : Tracker) : Ledger :=
  { l with accounts := l.accounts.withTracker t }

variable (l : Ledger) (mapping : String → Option String)

/-- A confirmation is for the report that is staged, if it is the first one. -/
def confirm (t : Tracker) : Ledger :=
  { l.withTracker t with
    confirmed := match l.accounts.tracker.staged with
      | none => l.confirmed
      | some s => if s.confirmed then l.confirmed else s.report :: l.confirmed }

def step : Machine Ledger Action
  | l, .activity x => (l.accounts.activity x).map fun a => { l with accounts := a }
  | l, .updateInboundMapping mapping =>
    some (l.withTracker (l.accounts.tracker.updateInboundMapping mapping))
  | l, .stageForReport order startedAt endedAt configRevision =>
    if order.Perm l.accounts.tracker.live.keys then
      some { l.withTracker
          (l.accounts.tracker.stageForReport order startedAt endedAt configRevision).1 with
        persisted := false }
    else none
  | l, .persist => some { l with persisted := true }
  | l, .confirmJournaled =>
    if l.persisted then some (l.confirm l.accounts.tracker.confirmJournaled) else none
  | l, .confirmAccepted =>
    if l.persisted then some (l.confirm l.accounts.tracker.confirmAccepted) else none
  | l, .resetLiveCountersWhenJournaled =>
    some (l.withTracker l.accounts.tracker.resetLiveCountersWhenJournaled)

def initial : Ledger := { accounts := { tracker := { inboundMapping := mapping } } }

def reported (k : Key) : Traffic := (l.confirmed.map (·.carried k)).sum

/-- What a confirmed report carries that is yet to be subtracted. -/
def outstanding (k : Key) : Traffic :=
  match l.accounts.tracker.staged with
  | none => 0
  | some s => if s.confirmed then s.report.carried k else 0

/-- No confirmed snapshot is waiting to be subtracted. -/
def Subtracted : Prop := ∀ s, l.accounts.tracker.staged = some s → s.confirmed = false

/-- A snapshot is taken when the tag of every key with bytes is mapped and the last
one was subtracted if it was confirmed. -/
def Mapped : Action → Prop
  | .stageForReport .. =>
    (∀ k, l.accounts.tracker.bytes k ≠ 0 → l.accounts.tracker.inboundMapping k.inboundTag ≠ none) ∧
    l.Subtracted
  | _ => True

/-- A snapshot has what its report carries, and what was removed is what the
confirmed reports carry. -/
structure Balanced (l : Ledger) : Prop where
  valid : l.accounts.Valid
  staged : ∀ s, l.accounts.tracker.staged = some s → ∀ k, amount s.snapshot k = s.report.carried k
  removed : ∀ k, l.accounts.tracker.removed k + l.outstanding k = l.reported k

variable {l m : Ledger}

lemma initial_valid (mapping : String → Option String) : (initial mapping).accounts.Valid := by
  refine ⟨⟨nofun, nofun, fun _ => rfl, nofun⟩, fun _ => le_refl _, nofun, fun _ => rfl⟩

variable {a : Action}

/-- No step takes live counters from an open connection. -/
theorem step_valid (hstep : step l a = some m) (h : l.accounts.Valid) : m.accounts.Valid := by
  cases a with
  | activity x =>
    obtain ⟨b, hb, rfl⟩ := map_eq_some_iff.mp hstep
    exact (h.activity hb).1
  | updateInboundMapping mapping =>
    cases hstep
    exact h.updateInboundMapping mapping
  | stageForReport order startedAt endedAt configRevision =>
    obtain ⟨horder, rfl⟩ := ite_some_none_eq_some.mp hstep
    exact h.stageForReport horder startedAt endedAt configRevision
  | persist =>
    cases hstep
    exact h
  | confirmJournaled | confirmAccepted =>
    obtain ⟨-, rfl⟩ := ite_some_none_eq_some.mp hstep
    exact h.confirm fun _ => rfl
  | resetLiveCountersWhenJournaled =>
    cases hstep
    exact h.resetLiveCountersWhenJournaled

/-- A key with bytes gets a record once its tag is mapped. -/
theorem carried_of_mapped (h : l.accounts.Valid) {order : List Key}
    (horder : order.Perm l.accounts.tracker.live.keys) (startedAt endedAt : Int)
    (configRevision : String) (hmapped : ∀ k, l.accounts.tracker.bytes k ≠ 0 →
      l.accounts.tracker.inboundMapping k.inboundTag ≠ none) (k : Key) :
    (l.accounts.tracker.stageForReport order startedAt endedAt configRevision).2.carried k =
      l.accounts.tracker.bytes k := by
  rw [carried_stageForReport _ horder]
  by_cases hk : l.accounts.tracker.bytes k = 0
  · rw [hk, ite_self]
  · have hlive : l.accounts.tracker.live.lookup k ≠ none :=
      fun habsent => hk (bytes_of_absent habsent)
    have huser := h.wired.users hlive
    obtain ⟨inboundID, hid⟩ := ne_none_iff_exists'.mp (hmapped k hk)
    have hrec : (l.accounts.tracker.record k).isSome := by
      simp [Tracker.record, hid, huser]
    rw [if_pos hrec]

/-- A confirmation moves a report to the confirmed ones, and its bytes wait to be
subtracted. -/
theorem Balanced.confirm (h : l.Balanced) {f : StagedSnapshot → StagedSnapshot}
    (hf : ∀ s, (f s).report = s.report ∧ (f s).snapshot = s.snapshot ∧ (f s).confirmed) :
    (l.confirm { l.accounts.tracker with
      staged := l.accounts.tracker.staged.map f }).Balanced := by
  refine ⟨h.valid.confirm fun s => (hf s).2.1, ?_, ?_⟩
  · intro s hs k
    obtain ⟨s', hs', rfl⟩ := map_eq_some_iff.mp hs
    rw [(hf s').1, (hf s').2.1]
    exact h.staged s' hs' k
  · intro k
    have hk := h.removed k
    unfold outstanding reported at hk ⊢
    simp only [Ledger.confirm, withTracker, Accounts.withTracker]
    cases hs : l.accounts.tracker.staged with
    | none =>
      rwa [hs] at hk
    | some s =>
      obtain ⟨hrep, -, hconf⟩ := hf s
      rw [hs] at hk
      simp only [map_some, hconf, hrep, if_true]
      cases hc : s.confirmed with
      | true =>
        simp only [hc, if_true] at hk
        exact hk
      | false =>
        simp only [hc, Bool.false_eq_true, if_false, add_zero] at hk ⊢
        rw [List.map_cons, List.sum_cons, ← hk, add_comm]

lemma Subtracted.outstanding (h : l.Subtracted) (k : Key) : l.outstanding k = 0 := by
  unfold Ledger.outstanding
  cases hs : l.accounts.tracker.staged with
  | none => rfl
  | some s => simp [h s hs]

lemma step_balanced (ha : Mapped l a) (hstep : step l a = some m)
    (h : l.Balanced) : m.Balanced := by
  have hval := step_valid hstep h.valid
  cases a with
  | activity x =>
    obtain ⟨b, hb, rfl⟩ := map_eq_some_iff.mp hstep
    obtain ⟨-, hgrows⟩ := h.valid.activity hb
    refine ⟨hval, fun s hs => h.staged s (hgrows.staged ▸ hs), fun k => ?_⟩
    have hk := h.removed k
    unfold outstanding reported at hk ⊢
    rwa [← hgrows.removed, ← hgrows.staged] at hk
  | updateInboundMapping mapping | persist =>
    cases hstep
    exact { h with valid := hval }
  | stageForReport order startedAt endedAt configRevision =>
    obtain ⟨horder, rfl⟩ := ite_some_none_eq_some.mp hstep
    obtain ⟨hmapped, hunconf⟩ := ha
    refine ⟨hval, ?_, ?_⟩
    · rintro s ⟨⟩ k
      exact (l.accounts.tracker.amount_snapshot horder k).trans
        (carried_of_mapped h.valid horder startedAt endedAt configRevision hmapped k).symm
    · intro k
      have hk := h.removed k
      rwa [hunconf.outstanding] at hk
  | confirmJournaled =>
    obtain ⟨-, rfl⟩ := ite_some_none_eq_some.mp hstep
    exact h.confirm fun s => ⟨rfl, rfl, rfl⟩
  | confirmAccepted =>
    obtain ⟨-, rfl⟩ := ite_some_none_eq_some.mp hstep
    exact h.confirm fun s => ⟨rfl, rfl, Bool.or_true _⟩
  | resetLiveCountersWhenJournaled =>
    cases hstep
    obtain ⟨hsame, -⟩ | ⟨s, hreset⟩ := h.valid.reset_cases
    · rwa [hsame]
    · refine ⟨hval, ?_, ?_⟩
      · intro s' hs'
        cases hreset.unstaged.symm.trans hs'
      · intro k
        have hk := h.removed k
        unfold outstanding reported at hk ⊢
        simp only [hreset.staged, hreset.confirmed, if_true] at hk
        simp only [withTracker, Accounts.withTracker, hreset.unstaged, hreset.removed, add_zero]
        rwa [h.staged s hreset.staged]

/-- Counters in use are never dropped. And as long as snapshots are taken with all
tags mapped, no byte is removed that no confirmed report carries, and the bytes
counted for a key are in its live counters or carried by a confirmed report, each
once, whenever what confirmed reports carry was subtracted. -/
theorem bytes_conserved (mapping : String → Option String) :
    (∀ {l}, Reaches step (fun _ _ => True) (initial mapping) l →
      ∀ c ∈ l.accounts.opened, l.accounts.tracker.live.lookup c.key = some c.serial) ∧
    ∀ {l}, Reaches step Mapped (initial mapping) l → ∀ k,
      l.accounts.tracker.removed k + l.outstanding k = l.reported k ∧
      (l.Subtracted →
        l.accounts.counted k = l.accounts.tracker.bytes k + l.reported k) := by
  constructor
  · intro l h c hc
    have hval : l.accounts.Valid := h.invariant
      (initial_valid mapping) fun _ hstep hl => step_valid hstep hl
    exact hval.wired.live hc
  · intro l h k
    have hl : l.Balanced := h.invariant ⟨initial_valid mapping, nofun, fun _ => rfl⟩ step_balanced
    refine ⟨hl.removed k, fun hsub => ?_⟩
    rw [hl.valid.books, ← hl.removed, hsub.outstanding, add_zero]

/-- Whatever is mapped: what was counted is on live counters or was subtracted from them, and these
know how many use them. -/
theorem accounts_valid {l : Ledger} (h : Reaches step (fun _ _ => True) (initial mapping) l) :
    l.accounts.Valid :=
  h.invariant (initial_valid mapping) fun _ hstep hl => step_valid hstep hl

/-- Bytes are counted, also after a report of them was staged, confirmed and subtracted. -/
theorem accounts_valid_opened : ∃ l, run step (initial some)
      [.activity (.routed .connection ⟨"a", "u", ""⟩), .activity (.count ⟨⟨"a", "u"⟩, 0⟩ fun _ => 5),
        .stageForReport [⟨"a", "u"⟩] 0 1 "r", .persist, .confirmJournaled,
        .activity (.count ⟨⟨"a", "u"⟩, 0⟩ fun _ => 2), .resetLiveCountersWhenJournaled] = some l ∧
    l.accounts.counted ⟨"a", "u"⟩ .upload = 7 ∧ l.accounts.tracker.bytes ⟨"a", "u"⟩ .upload = 2 ∧
    l.accounts.Valid :=
  exists_end (by decide) fun h =>
    ⟨rfl, rfl, accounts_valid _ (Reaches.start.run (fun _ _ _ => trivial) h)⟩

/-- The mapping of the runs below before and after the inbound `a` is removed. -/
def bothTags (tag : String) : Option String :=
  if tag = "a" then some "1" else if tag = "b" then some "2" else none

def oneTag (tag : String) : Option String := if tag = "b" then some "2" else none

theorem bytes_conserved_of_report : ∃ l, Reaches step Mapped (initial bothTags) l ∧
      l.accounts.counted ⟨"a", "u"⟩ .upload = 5 ∧ l.accounts.tracker.bytes ⟨"a", "u"⟩ .upload = 0 ∧
      l.accounts.counted ⟨"a", "u"⟩ =
        l.accounts.tracker.bytes ⟨"a", "u"⟩ + l.reported ⟨"a", "u"⟩ := by
  have hstart : Reaches step Mapped (initial bothTags) (initial bothTags) := .start
  have hopened := hstart.next (a := Action.activity (.routed .connection ⟨"a", "u", ""⟩)) trivial rfl
  have hcounted := hopened.next
    (a := Action.activity (.count ⟨⟨"a", "u"⟩, 0⟩ fun d => if d = .upload then 5 else 0)) trivial rfl
  have hstaged := hcounted.next (a := Action.stageForReport [⟨"a", "u"⟩] 0 1 "r")
    (by
      refine ⟨fun k hk => ?_, nofun⟩
      have hlive : k ∈ [(⟨"a", "u"⟩ : Key)] := by
        by_contra habsent
        exact hk (bytes_of_absent (AList.lookup_eq_none.mpr habsent))
      cases List.mem_singleton.mp hlive
      exact some_ne_none "1") rfl
  have hpers := hstaged.next (a := Action.persist) trivial rfl
  have hconf := hpers.next (a := Action.confirmJournaled) trivial rfl
  have hreset := hconf.next (a := Action.resetLiveCountersWhenJournaled) trivial rfl
  exact ⟨_, hreset, rfl, rfl, ((bytes_conserved bothTags).2 hreset ⟨"a", "u"⟩).2 nofun⟩

/-- Bytes of a tag that is no longer mapped are subtracted with a report that does
not carry them. -/
theorem unmapped_bytes_lost : ∃ l, run step (initial bothTags)
        [.activity (.routed .connection ⟨"a", "u", ""⟩), .activity (.routed .flow ⟨"b", "u", ""⟩),
          .activity (.count ⟨⟨"a", "u"⟩, 0⟩ fun _ => 5),
          .activity (.count ⟨⟨"b", "u"⟩, 1⟩ fun _ => 7),
          .updateInboundMapping oneTag,
          .stageForReport [⟨"a", "u"⟩, ⟨"b", "u"⟩] 0 1 "r", .persist, .confirmJournaled,
          .resetLiveCountersWhenJournaled] = some l ∧ l.Subtracted ∧
      l.accounts.counted ⟨"a", "u"⟩ .upload = 5 ∧
      l.accounts.tracker.bytes ⟨"a", "u"⟩ .upload = 0 ∧ l.reported ⟨"a", "u"⟩ .upload = 0 ∧
      l.reported ⟨"b", "u"⟩ .upload = 7 :=
  ⟨_, rfl, nofun, rfl, rfl, rfl, rfl⟩

end Ledger

end SingBox.Panel
