import SingBox.Group.HashRing
import SingBox.Lib.Machine

/-! The pool of candidates that a load-balance group publishes, from its start on: probes
change what is known of the members, and a rebuild publishes the pool that follows. -/

namespace SingBox.Group
open Lib

structure HashOptions where
  virtualNodes : Int := 0
  onEmptyKey : OnEmptyKey := .random
  keySalt : Bytes := []

inductive Strategy
  | consistentHash
  | random
  deriving DecidableEq

inductive EmptyPoolAction
  | error
  | random
  deriving DecidableEq

/-- The configuration of a group, with the members as they were found at its start. -/
structure LoadBalance where
  primaryTags : List Tag
  backupTags : List Tag := []
  primaryOutbounds : Tag → Option Outbound
  backupOutbounds : Tag → Option Outbound := fun _ => none
  /-- In nanoseconds. -/
  timeout : Int := 0
  tolerance : Nat := 10
  topNPrimary : Int := 0
  strategy : Strategy := .consistentHash
  hash : HashOptions := {}
  emptyPoolAction : EmptyPoolAction := .error

/-- The group's snapshot, what is known of its members, and all snapshots so far. -/
structure State where
  snapshot : Option CandidateSnapshot := none
  live : Live := {}
  published : List CandidateSnapshot := []

inductive Action
  | probe (live : Live)
  | rebuildSnapshot

namespace LoadBalance

variable (S : SliceSort) (l : LoadBalance)

def healthyCandidates (live : Live) (tags : List Tag) (outbounds : Tag → Option Outbound)
    (isPrimary : Bool) : List Candidate :=
  sortCandidatesByScore S <| tags.filterMap fun tag =>
    (outbounds tag).bind fun detour =>
      match liveMemberDelay live detour with
      | none | some 0 => none
      | some delay =>
        if l.timeout > 0 ∧ (delay : Int) * 1000000 ≥ l.timeout then none
        else some { tag, outbound := detour, latency := delay, score := live.score tag, isPrimary }

def hasPendingSelfTestingMember (live : Live) : Bool :=
  let hasPrimary := l.primaryTags.any fun tag => (l.primaryOutbounds tag).isSome
  let (tags, outbounds) :=
    if hasPrimary then (l.primaryTags, l.primaryOutbounds) else (l.backupTags, l.backupOutbounds)
  tags.any fun tag => (outbounds tag).any fun detour =>
    detour.kind != .other && (liveMemberDelay live detour).isNone

def seedInitialSnapshot : Option CandidateSnapshot :=
  let primaries : List Candidate := l.primaryTags.filterMap fun tag =>
    (l.primaryOutbounds tag).map fun detour => { tag, outbound := detour, isPrimary := true }
  let candidates : List Candidate :=
    if primaries.length = 0 then
      l.backupTags.filterMap fun tag =>
        (l.backupOutbounds tag).map fun detour => { tag, outbound := detour }
    else primaries
  if candidates.length = 0 then none else some { candidates, generation := 1 }

end LoadBalance

def snapshotAllZeroLatency (snap : CandidateSnapshot) : Bool :=
  snap.candidates.length != 0 && snap.candidates.all fun candidate => candidate.latency == 0

/-- Whether a tag is in a list, and as primary or not; the last entry counts. -/
def previousSet (previous : List Candidate) (tag : Tag) : Option Bool :=
  previous.foldl (fun found c => if c.tag = tag then some c.isPrimary else found) none

def sameCandidateSet (previous next : List Candidate) : Bool :=
  previous.length == next.length &&
    next.all fun candidate => previousSet previous candidate.tag == some candidate.isPrimary

namespace LoadBalance

variable (S : SliceSort) (l : LoadBalance)

def candidates (live : Live) (snap : Option CandidateSnapshot) : List Candidate :=
  let primaryCandidates := l.healthyCandidates S live l.primaryTags l.primaryOutbounds true
  if primaryCandidates.length > 0 then
    selectTopNWithTolerance S primaryCandidates l.topNPrimary l.tolerance
      (snap.elim [] CandidateSnapshot.candidates)
  else l.healthyCandidates S live l.backupTags l.backupOutbounds false

/-- What `rebuildSnapshot` stores, if it stores anything. -/
def rebuilt (live : Live) (snap : Option CandidateSnapshot) : Option CandidateSnapshot :=
  let candidates := l.candidates S live snap
  match snap with
  | none => some { candidates, generation := 1 }
  | some snap =>
    if candidates.length = 0 ∧ snapshotAllZeroLatency snap ∧ l.hasPendingSelfTestingMember live then
      none
    else if sameCandidateSet snap.candidates candidates then
      some { candidates, generation := snap.generation }
    else some { candidates, generation := (snap.generation + 1) % 2 ^ 64 }

def start : State :=
  { snapshot := l.seedInitialSnapshot, published := l.seedInitialSnapshot.toList }

def step : Machine State Action
  | s, .probe live => some { s with live }
  | s, .rebuildSnapshot =>
    match l.rebuilt S s.live s.snapshot with
    | none => some s
    | some snapshot => some { s with snapshot := some snapshot, published := snapshot :: s.published }

/-- The strategy's choice from a snapshot for a hash key. -/
def select (intn : (n : Nat) → Fin (n + 1)) (snapshot : CandidateSnapshot) (key : Bytes) :
    Except SelectError Candidate :=
  selectFromSnapshot S intn snapshot key l.hash.onEmptyKey l.hash.virtualNodes l.hash.keySalt

lemma rebuilt_cases {S : SliceSort} {l : LoadBalance} {live : Live}
    {snap : Option CandidateSnapshot} {y : CandidateSnapshot}
    (h : l.rebuilt S live snap = some y) : y.candidates = l.candidates S live snap ∧
      (snap = none ∧ y.generation = 1 ∨
        ∃ x, snap = some x ∧ (sameCandidateSet x.candidates y.candidates ∧
          y.generation = x.generation ∨ y.generation = (x.generation + 1) % 2 ^ 64)) := by
  unfold rebuilt at h
  split at h
  · cases h
    exact ⟨rfl, .inl ⟨rfl, rfl⟩⟩
  · next x =>
    obtain ⟨-, h⟩ := Option.ite_none_left_eq_some.mp h
    split at h
    · next hsame =>
      cases h
      exact ⟨rfl, .inr ⟨x, rfl, .inl ⟨hsame, rfl⟩⟩⟩
    · cases h
      exact ⟨rfl, .inr ⟨x, rfl, .inr rfl⟩⟩

end LoadBalance

end SingBox.Group
