import Mathlib.Algebra.Order.Ring.Rat
import SingBox.Lib.Codec
import SingBox.Lib.Sort

/-! The members of a load-balance group, what is known of their delays, the orders in which they
are listed, and the choice of the best, where those chosen before give way only to ones that are
better by more than a tolerance. -/

namespace SingBox.Group
open Lib

/-- Tags, keys and salts are strings of bytes. -/
abbrev Tag := Bytes

inductive Network
  | tcp
  | udp
  deriving DecidableEq

/-- The outbounds whose delay is read in their own way: a nested group, with the tags of its
members, and a URL test. -/
inductive Kind
  | loadBalance (tags : List Tag)
  | urlTest
  | other
  deriving DecidableEq

structure Outbound where
  tag : Tag
  network : List Network
  kind : Kind := .other
  deriving DecidableEq

structure Candidate where
  tag : Tag
  outbound : Outbound
  latency : Nat := 0
  score : ℚ := 0
  isPrimary : Bool := false
  deriving DecidableEq

/-- What is known of the outbounds at one time: the stored delay of each, the outbound that
each routes through, the delays in the snapshots of nested groups, and what the sorter makes
of each member. -/
structure Live where
  history : Tag → Option Nat := fun _ => none
  realTag : Tag → Tag := id
  nested : Tag → Option (List Nat) := fun _ => none
  score : Tag → ℚ := fun _ => 0

/-- The least of the delays that are not zero. -/
def minDelay (delays : List Nat) : Option Nat :=
  delays.foldl (fun least delay =>
    if delay = 0 then least
    else match least with
      | none => some delay
      | some d => if delay < d then some delay else some d) none

def nestedMinDelay (live : Live) (tag : Tag) (tags : List Tag) : Option Nat :=
  match (live.nested tag).bind minDelay with
  | some delay => some delay
  | none => minDelay (tags.filterMap fun t => live.history (live.realTag t))

def liveMemberDelay (live : Live) (detour : Outbound) : Option Nat :=
  match detour.kind with
  | .loadBalance tags => nestedMinDelay live detour.tag tags
  | .urlTest | .other =>
    match live.history (live.realTag detour.tag) with
    | none | some 0 => none
    | some delay => some delay

def byTag (a b : Candidate) : Bool := decide (a.tag < b.tag)

/-- The order of `sortCandidatesByScore`. -/
def rankBefore : Candidate → Candidate → Bool := byKey Candidate.score (byKey Candidate.latency byTag)

/-- The order of `sortCandidatesByLatency`. -/
def fasterThan : Candidate → Candidate → Bool := byKey Candidate.latency byTag

variable (S : SliceSort) (candidates : List Candidate)

def sortCandidatesByScore : List Candidate :=
  S.sort rankBefore candidates

def sortCandidatesByLatency : List Candidate :=
  S.sort fasterThan candidates

lemma byTag_strictWeak : StrictWeak byTag := by
  constructor
  · intro a b h
    exact decide_eq_false (List.lt_asymm (of_decide_eq_true h))
  · intro a b c hba hcb
    have hab : a.tag ≤ b.tag := List.not_lt.mp (of_decide_eq_false hba)
    have hbc : b.tag ≤ c.tag := List.not_lt.mp (of_decide_eq_false hcb)
    exact decide_eq_false (List.not_lt.mpr (List.le_trans hab hbc))

lemma fasterThan_strictWeak : StrictWeak fasterThan := byTag_strictWeak.byKey _

lemma rankBefore_strictWeak : StrictWeak rankBefore := fasterThan_strictWeak.byKey _

variable {a b : Candidate}

lemma tag_eq_of_byTag (hab : byTag a b = false) (hba : byTag b a = false) : a.tag = b.tag :=
  List.le_antisymm (List.not_lt.mp (of_decide_eq_false hba))
    (List.not_lt.mp (of_decide_eq_false hab))

lemma tag_eq_of_fasterThan (hab : fasterThan a b = false)
    (hba : fasterThan b a = false) : a.tag = b.tag := by
  rw [fasterThan, byKey_eq_false] at hab hba
  obtain h | ⟨heq, hab⟩ := hab
  · obtain h' | ⟨heq, -⟩ := hba <;> omega
  · obtain h' | ⟨-, hba⟩ := hba
    · omega
    · exact tag_eq_of_byTag hab hba

/-- Two members with different tags are never level. -/
theorem tag_eq_of_rankBefore (hab : rankBefore a b = false)
    (hba : rankBefore b a = false) : a.tag = b.tag := by
  rw [rankBefore, byKey_eq_false] at hab hba
  obtain h | ⟨heq, hab⟩ := hab
  · obtain h' | ⟨heq, -⟩ := hba
    · exact absurd h (lt_asymm h')
    · exact absurd heq (ne_of_lt h)
  · obtain h' | ⟨-, hba⟩ := hba
    · exact absurd heq (ne_of_lt h')
    · exact tag_eq_of_fasterThan hab hba

def outranksBeyondTolerance (next incumbent : Candidate) (tolerance : Nat) : Bool :=
  if incumbent.score ≠ next.score then decide (incumbent.score > next.score + tolerance)
  else decide (incumbent.latency > next.latency + tolerance)

def rankAfter (candidate other : Candidate) : Bool :=
  if candidate.score ≠ other.score then decide (candidate.score > other.score)
  else if candidate.latency ≠ other.latency then decide (candidate.latency > other.latency)
  else decide (candidate.tag > other.tag)

/-- The loop of `worstCandidateIndex`: the worst so far with its index, the index of the
candidate that comes next, and the candidates from there on. -/
def worstFrom (worst : Nat) (c : Candidate) : Nat → List Candidate → Nat
  | _, [] => worst
  | i, next :: rest =>
    if rankAfter next c then worstFrom i next (i + 1) rest else worstFrom worst c (i + 1) rest

def worstCandidateIndex : List Candidate → Nat
  | [] => 0
  | c :: rest => worstFrom 0 c 1 rest

/-- The first loop of `selectTopNWithTolerance`: the best `n` of those selected before. -/
def keepPrevious (previousSet : List Tag) (n : Nat) (selected : List Candidate) :
    List Candidate → List Candidate
  | [] => selected
  | candidate :: healthy =>
    if candidate.tag ∈ previousSet then
      if (selected ++ [candidate]).length = n then selected ++ [candidate]
      else keepPrevious previousSet n (selected ++ [candidate]) healthy
    else keepPrevious previousSet n selected healthy

/-- The second loop of `selectTopNWithTolerance`: free places are filled, then the worst is
replaced until a candidate does not outrank it. -/
def challenge (n tolerance : Nat) (selected : List Candidate) (selectedSet : List Tag) :
    List Candidate → List Candidate
  | [] => selected
  | next :: healthy =>
    if next.tag ∈ selectedSet then challenge n tolerance selected selectedSet healthy
    else if selected.length < n then
      challenge n tolerance (selected ++ [next]) (next.tag :: selectedSet) healthy
    else
      let worst := worstCandidateIndex selected
      match selected[worst]? with
      | none => selected
      | some incumbent =>
        if outranksBeyondTolerance next incumbent tolerance then
          challenge n tolerance (selected.set worst next)
            (next.tag :: selectedSet.filter (· ≠ incumbent.tag)) healthy
        else selected

def selectTopNWithTolerance (healthy : List Candidate) (n : Int) (tolerance : Nat)
    (previous : List Candidate) : List Candidate :=
  if healthy.length = 0 then []
  else if n ≤ 0 ∨ n ≥ healthy.length then healthy
  else if previous.length = 0 then healthy.take n.toNat
  else
    let selected := keepPrevious (previous.map Candidate.tag) n.toNat [] healthy
    sortCandidatesByScore S
      (challenge n.toNat tolerance selected (selected.map Candidate.tag) healthy)

end SingBox.Group
