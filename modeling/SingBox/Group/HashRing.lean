import SingBox.Group.Member
import SingBox.Lib.Ring

/-! Consistent hashing: every candidate has a number of places on a ring, and a key goes to
the candidate of the first place at or after its own. -/

namespace SingBox.Group
open Lib List Nat

structure CandidateSnapshot where
  candidates : List Candidate
  generation : Nat
  deriving DecidableEq

def CandidateSnapshot.tags (snapshot : CandidateSnapshot) : List Tag :=
  snapshot.candidates.map Candidate.tag

inductive OnEmptyKey
  | random
  | error
  deriving DecidableEq

/-- Why no candidate was selected; an index that is out of range would be a panic. -/
inductive SelectError
  | emptyHashKey
  | emptyCandidatePool
  | indexOutOfRange
  deriving DecidableEq

def SelectError.text : SelectError → String
  | .emptyHashKey => "empty hash key"
  | .emptyCandidatePool => "empty candidate pool"
  | .indexOutOfRange => "index out of range"

structure RingEntry where
  hash : Nat
  candidate : Candidate
  deriving DecidableEq

/-- FNV-1a with 32 bits. -/
def hashString (s : Bytes) : Nat :=
  s.foldl (fun h b => (h ^^^ b.toNat) * 16777619 % 2 ^ 32) 2166136261

def itoa (n : Nat) : Bytes := (toDigits 10 n).map fun digit => UInt8.ofNat digit.toNat

variable (keySalt : Bytes) (candidates : List Candidate) (virtualNodes : Nat) (S : SliceSort)

def nodeKey (tag : Tag) (i : Nat) : Bytes := keySalt ++ tag ++ [58] ++ itoa i

def virtualEntries (keySalt : Bytes) : List RingEntry :=
  candidates.flatMap fun c =>
    (range virtualNodes).map fun i => ⟨hashString (nodeKey keySalt c.tag i), c⟩

def byHash (a b : RingEntry) : Bool := decide (a.hash < b.hash)

def buildHashRing (candidates : List Candidate) (virtualNodes : Nat)
    (keySalt : Bytes) : List RingEntry :=
  S.sort byHash (virtualEntries candidates virtualNodes keySalt)

/-- The number of places that a candidate has; one that is not positive stands for the
default. -/
def nodeCount (virtualNodes : Int) : Nat := if virtualNodes ≤ 0 then 100 else virtualNodes.toNat

/-- `SelectFromSnapshot`. `intn` draws a random index below the length it is given. -/
def selectFromSnapshot (intn : (n : Nat) → Fin (n + 1))
    (snapshot : CandidateSnapshot) (key : Bytes) (onEmptyKey : OnEmptyKey) (virtualNodes : Int)
    (keySalt : Bytes) : Except SelectError Candidate :=
  match snapshot.candidates with
  | [] => .error .emptyCandidatePool
  | c :: rest =>
    if key = [] then
      match onEmptyKey with
      | .random => .ok ((c :: rest).get (intn rest.length))
      | .error => .error .emptyHashKey
    else
      let ring := buildHashRing S (c :: rest) (nodeCount virtualNodes) keySalt
      match Ring.next RingEntry.hash (hashString (keySalt ++ key)) ring with
      | some entry => .ok entry.candidate
      | none => .error .indexOutOfRange

/-- No two candidates have a place in common. -/
def NodesApart (virtualNodes : Int) (keySalt : Bytes) : Prop :=
  ∀ e ∈ virtualEntries candidates (nodeCount virtualNodes) keySalt,
    ∀ f ∈ virtualEntries candidates (nodeCount virtualNodes) keySalt,
      e.hash = f.hash → e.candidate.tag = f.candidate.tag

instance (candidates : List Candidate) (virtualNodes : Int) (keySalt : Bytes) :
    Decidable (NodesApart candidates virtualNodes keySalt) :=
  inferInstanceAs (Decidable (∀ e ∈ _, ∀ f ∈ _, _))

variable {virtualNodes : Nat} {keySalt : Bytes} {candidates : List Candidate} {e : RingEntry}

lemma mem_virtualEntries : e ∈ virtualEntries candidates virtualNodes keySalt ↔
      e.candidate ∈ candidates ∧
        ∃ i < virtualNodes, e.hash = hashString (nodeKey keySalt e.candidate.tag i) := by
  simp only [virtualEntries, mem_flatMap, mem_map, mem_range]
  constructor
  · rintro ⟨c, hc, i, hi, rfl⟩
    exact ⟨hc, i, hi, rfl⟩
  · rintro ⟨hc, i, hi, hhash⟩
    exact ⟨e.candidate, hc, i, hi, by rw [← hhash]⟩

/-- Another list with a candidate of the same tag has an entry at the same place. -/
theorem virtualEntries_transfer {candidates others : List Candidate}
    (he : e ∈ virtualEntries candidates virtualNodes keySalt)
    (htag : e.candidate.tag ∈ others.map Candidate.tag) :
    ∃ f ∈ virtualEntries others virtualNodes keySalt,
      f.hash = e.hash ∧ f.candidate.tag = e.candidate.tag := by
  obtain ⟨-, i, hi, hhash⟩ := mem_virtualEntries.mp he
  obtain ⟨c, hc, htag⟩ := mem_map.mp htag
  refine ⟨⟨e.hash, c⟩, mem_virtualEntries.mpr ⟨hc, i, hi, ?_⟩, rfl, htag⟩
  rw [hhash, htag]

lemma nodeCount_pos (virtualNodes : Int) : 0 < nodeCount virtualNodes := by
  unfold nodeCount
  split <;> omega

lemma virtualEntries_ne_nil (h : candidates ≠ []) (hpos : 0 < virtualNodes) :
    virtualEntries candidates virtualNodes keySalt ≠ [] := by
  obtain ⟨c, hc⟩ := exists_mem_of_ne_nil _ h
  have hmem : ⟨hashString (nodeKey keySalt c.tag 0), c⟩ ∈
      virtualEntries candidates virtualNodes keySalt :=
    mem_virtualEntries.mpr ⟨hc, 0, hpos, rfl⟩
  exact ne_nil_of_mem hmem

lemma byHash_strictWeak : StrictWeak byHash where
  asymm h := decide_eq_false (lt_asymm (of_decide_eq_true h))
  trans hba hcb := by
    have hab := not_lt.mp (of_decide_eq_false hba)
    have hbc := not_lt.mp (of_decide_eq_false hcb)
    exact decide_eq_false (not_lt.mpr (hab.trans hbc))

lemma buildHashRing_sorted (S : SliceSort) (candidates : List Candidate) (virtualNodes : Nat)
    (keySalt : Bytes) :
    (buildHashRing S candidates virtualNodes keySalt).Pairwise fun a b => a.hash ≤ b.hash := by
  refine (S.sorted _ byHash_strictWeak).imp ?_
  intro a b h
  exact not_lt.mp (of_decide_eq_false h)

section
variable {S : SliceSort} {intn : (n : Nat) → Fin (n + 1)} {A B : CandidateSnapshot} {key : Bytes}
  {onEmptyKey : OnEmptyKey} {virtualNodes : Int} {keySalt : Bytes}

/-- The candidate with the nearest place is selected, whatever the order of the ring among
equal places. -/
theorem select_nearest (S : SliceSort) (intn : (n : Nat) → Fin (n + 1)) (onEmptyKey : OnEmptyKey)
    (virtualNodes : Int) (keySalt : Bytes) (hA : A.candidates ≠ []) (hkey : key ≠ []) :
    ∃ e, selectFromSnapshot S intn A key onEmptyKey virtualNodes keySalt = .ok e.candidate ∧
      Ring.Nearest RingEntry.hash (hashString (keySalt ++ key))
        (virtualEntries A.candidates (nodeCount virtualNodes) keySalt) e := by
  have hring : buildHashRing S A.candidates (nodeCount virtualNodes) keySalt ≠ [] := by
    intro hnil
    have hperm := S.perm byHash (virtualEntries A.candidates (nodeCount virtualNodes) keySalt)
    rw [← buildHashRing, hnil] at hperm
    exact virtualEntries_ne_nil hA (nodeCount_pos virtualNodes) hperm.nil_eq.symm
  obtain ⟨e, he⟩ := Ring.exists_next RingEntry.hash (hashString (keySalt ++ key)) hring
  have hnear := Ring.next_nearest (buildHashRing_sorted S _ _ _) he
  refine ⟨e, ?_, S.mem_sort.mp hnear.mem, fun f hf => hnear.le f (S.mem_sort.mpr hf)⟩
  unfold selectFromSnapshot
  split
  · next hnil => exact absurd hnil hA
  · next hcons =>
    rw [if_neg hkey]
    simp [← hcons, he]

variable {a : Candidate}

lemma nearest_of_select (hkey : key ≠ [])
    (ha : selectFromSnapshot S intn A key onEmptyKey virtualNodes keySalt = .ok a) :
    ∃ e, e.candidate = a ∧ Ring.Nearest RingEntry.hash (hashString (keySalt ++ key))
      (virtualEntries A.candidates (nodeCount virtualNodes) keySalt) e := by
  have hA : A.candidates ≠ [] := by
    intro hnil
    simp [selectFromSnapshot, hnil] at ha
  obtain ⟨e, he, hnear⟩ := select_nearest S intn onEmptyKey virtualNodes keySalt hA hkey
  exact ⟨e, Except.ok.inj (he.symm.trans ha), hnear⟩

/-- Where the choice from one set is in another, the other's choice is the same member or
one that the first set does not have. -/
theorem select_same_or_new (hkey : key ≠ []) (happart : NodesApart A.candidates virtualNodes keySalt)
    (ha : selectFromSnapshot S intn A key onEmptyKey virtualNodes keySalt = .ok a)
    (hmem : a.tag ∈ B.tags) :
    ∃ b ∈ B.candidates, selectFromSnapshot S intn B key onEmptyKey virtualNodes keySalt = .ok b ∧
      (b.tag = a.tag ∨ b.tag ∉ A.tags) := by
  obtain ⟨e, rfl, he⟩ := nearest_of_select hkey ha
  have hB : B.candidates ≠ [] := by
    intro hnil
    simp [CandidateSnapshot.tags, hnil] at hmem
  obtain ⟨f, hf, hnear⟩ := select_nearest S intn onEmptyKey virtualNodes keySalt hB hkey
  refine ⟨f.candidate, (mem_virtualEntries.mp hnear.mem).1, hf, ?_⟩
  by_cases hfA : f.candidate.tag ∈ A.tags
  · left
    -- each place is on both rings, so they are one, and on the first ring it has one owner
    obtain ⟨e', he', hhash, -⟩ := virtualEntries_transfer he.mem hmem
    obtain ⟨f', hf', hhash', htag⟩ := virtualEntries_transfer hnear.mem hfA
    have hplace : e.hash = f.hash := he.point_eq hnear ⟨e', he', hhash⟩ ⟨f', hf', hhash'⟩
    rw [← htag]
    exact happart f' hf' e he.mem (hhash'.trans hplace.symm)
  · exact .inr hfA

/-- Members that go away move only their own keys, and members that come take keys only for
themselves. -/
theorem minimal_disruption (S : SliceSort) (intn : (n : Nat) → Fin (n + 1))
    (A B : CandidateSnapshot) (key : Bytes) (onEmptyKey : OnEmptyKey) (virtualNodes : Int)
    (keySalt : Bytes) (hkey : key ≠ []) (happart : NodesApart A.candidates virtualNodes keySalt) :
    (∀ a, selectFromSnapshot S intn A key onEmptyKey virtualNodes keySalt = .ok a → a.tag ∈ B.tags →
      ∃ b ∈ B.candidates, selectFromSnapshot S intn B key onEmptyKey virtualNodes keySalt = .ok b ∧
        (b.tag = a.tag ∨ b.tag ∉ A.tags)) ∧
    (B.tags ⊆ A.tags →
      ∀ a, selectFromSnapshot S intn A key onEmptyKey virtualNodes keySalt = .ok a → a.tag ∈ B.tags →
        ∃ b, selectFromSnapshot S intn B key onEmptyKey virtualNodes keySalt = .ok b ∧
          b.tag = a.tag) ∧
    (A.tags ⊆ B.tags →
      ∀ a, selectFromSnapshot S intn A key onEmptyKey virtualNodes keySalt = .ok a →
        ∃ b ∈ B.candidates, selectFromSnapshot S intn B key onEmptyKey virtualNodes keySalt = .ok b ∧
          (b.tag = a.tag ∨ b.tag ∉ A.tags)) := by
  refine ⟨fun a ha hmem => select_same_or_new hkey happart ha hmem, ?_, ?_⟩
  · intro hsub a ha hmem
    obtain ⟨b, hb, hsel, hsame | hnew⟩ := select_same_or_new hkey happart ha hmem
    · exact ⟨b, hsel, hsame⟩
    · exact absurd (hsub (mem_map_of_mem hb)) hnew
  · intro hsub a ha
    obtain ⟨e, rfl, he⟩ := nearest_of_select hkey ha
    have hin : e.candidate.tag ∈ A.tags := mem_map_of_mem (mem_virtualEntries.mp he.mem).1
    exact select_same_or_new hkey happart ha (hsub hin)

/-- Two members of which one goes away: a key of the other stays. -/
theorem minimal_disruption_two :
    let proxy (tag : Tag) : Candidate := { tag, outbound := { tag, network := [.tcp] } }
    ∃ b, selectFromSnapshot .insertion (fun _ => 0) ⟨[proxy [98]], 2⟩ [107] .error 2 [] = .ok b ∧
      b.tag = [98] := by
  intro proxy
  have happart : NodesApart [proxy [97], proxy [98]] 2 [] := by decide
  have hsel : selectFromSnapshot .insertion (fun _ => 0) ⟨[proxy [97], proxy [98]], 1⟩ [107]
      .error 2 [] = .ok (proxy [98]) := by decide
  exact (minimal_disruption .insertion (fun _ => 0) ⟨[proxy [97], proxy [98]], 1⟩ ⟨[proxy [98]], 2⟩
    [107] .error 2 [] (by decide) happart).2.1 (by decide) (proxy [98]) hsel (by decide)

end

end SingBox.Group
