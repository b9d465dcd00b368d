import Mathlib.Data.Finset.Card
import SingBox.Lib.Machine
import SingBox.Shuttle.Preface

/-! Authentication of the connections of an inbound, and the filter of the hashes that its
connections came with. -/

namespace SingBox.Shuttle
open Lib Machine Option Nat
open List hiding Vector

/-- `replayFilter`: a set of hashes, and the same hashes from the oldest one on. -/
structure ReplayFilter where
  entries : Finset Bytes
  order : List Bytes
  maxSize : Nat
  deriving DecidableEq

def newReplayFilter (maxSize : Int) : ReplayFilter :=
  { entries := ∅, order := [], maxSize := if maxSize ≤ 0 then 256 else maxSize.toNat }

namespace ReplayFilter

def add (f : ReplayFilter) (hash : Bytes) : ReplayFilter :=
  { f with entries := insert hash f.entries, order := f.order ++ [hash] }

/-- `checkAndAdd`; nothing if the access to the oldest entry panics. -/
def checkAndAdd (f : ReplayFilter) (hash : Bytes) : Option (Bool × ReplayFilter) :=
  if hash ∈ f.entries then some (false, f)
  else if f.entries.card ≥ f.maxSize then
    match f.order with
    | [] => none
    | oldest :: order => some (true, add { f with entries := f.entries.erase oldest, order } hash)
  else some (true, f.add hash)

/-- The list and the set have the same entries, each once, and no more than the limit. -/
structure Consistent (f : ReplayFilter) : Prop where
  nodup : f.order.Nodup
  same : f.order.toFinset = f.entries
  bounded : f.entries.card ≤ f.maxSize
  positive : 0 < f.maxSize

lemma newReplayFilter_consistent (maxSize : Int) : (newReplayFilter maxSize).Consistent where
  nodup := nodup_nil
  same := rfl
  bounded := zero_le _
  positive := by
    show 0 < if maxSize ≤ 0 then 256 else maxSize.toNat
    split
    · decide
    · omega

variable {f : ReplayFilter} (h : f.Consistent)
include h

lemma Consistent.length_order : f.order.length = f.entries.card := by
  rw [← h.same, toFinset_card_of_nodup h.nodup]

lemma Consistent.add {hash : Bytes}
    (hnew : hash ∉ f.entries) (hroom : f.entries.card < f.maxSize) : (f.add hash).Consistent :=
        { h with
  nodup := by
    have hfresh : hash ∉ f.order := fun hmem => hnew (h.same ▸ mem_toFinset.mpr hmem)
    exact nodup_append.mpr ⟨h.nodup, nodup_singleton _,
      fun a ha b hb => by rintro rfl; exact hfresh (mem_singleton.mp hb ▸ ha)⟩
  same := by
    rw [ReplayFilter.add, toFinset_append, h.same, Finset.union_comm]
    rfl
  bounded := by
    rw [ReplayFilter.add, Finset.card_insert_of_notMem hnew]
    exact hroom }

/-- The oldest entry is the only one that leaves. -/
theorem Consistent.tail {oldest : Bytes} {order : List Bytes} (horder : f.order = oldest :: order) :
    ReplayFilter.Consistent { f with entries := f.entries.erase oldest, order } := by
  have hnodup := h.nodup
  rw [horder, nodup_cons] at hnodup
  refine ⟨hnodup.2, ?_, (Finset.card_erase_le).trans h.bounded, h.positive⟩
  have hnotin : oldest ∉ order.toFinset := fun hmem => hnodup.1 (mem_toFinset.mp hmem)
  rw [← h.same, horder, toFinset_cons, Finset.erase_insert hnotin]

/-- A hash is refused if it is an entry, and is an entry after it was not refused. -/
theorem Consistent.checkAndAdd (hash : Bytes) :
    ∃ f', f.checkAndAdd hash = some (decide (hash ∉ f.entries), f') ∧ f'.Consistent ∧
      hash ∈ f'.entries := by
  unfold ReplayFilter.checkAndAdd
  by_cases hmem : hash ∈ f.entries
  · exact ⟨f, by simp [hmem], h, hmem⟩
  by_cases hfull : f.entries.card ≥ f.maxSize
  · cases horder : f.order with
    | nil =>
      have hlen := h.length_order
      have hpositive := h.positive
      rw [horder, length_nil] at hlen
      omega
    | cons oldest order =>
      have hold : oldest ∈ f.entries := by
        rw [← h.same, horder]
        exact mem_toFinset.mpr mem_cons_self
      have hroom : (f.entries.erase oldest).card < f.maxSize := by
        have hbounded := h.bounded
        have hcard := Finset.card_erase_lt_of_mem hold
        omega
      have hnew : hash ∉ f.entries.erase oldest := fun hin => hmem (Finset.mem_of_mem_erase hin)
      exact ⟨_, by simp [hmem, hfull], (h.tail horder).add hnew hroom, Finset.mem_insert_self ..⟩
  · exact ⟨_, by simp [hmem, hfull], h.add hmem (lt_of_not_ge hfull), Finset.mem_insert_self ..⟩

end ReplayFilter

structure User where
  name : Bytes
  password : Bytes

/-- What an inbound needs of its options before there is a session. -/
structure InboundOptions where
  users : List User
  maxPadding : Int
  /-- Host and port, if there is a valid fallback. -/
  fallbackAddr : Option (Bytes × UInt16) := none

/-- How `NewConnection` goes on with a connection: with the session of a user, with a route to
the fallback, or not at all. -/
inductive Admission where
  | session (userIndex : Nat) (userName : Bytes)
  | fallback (destination : Bytes × UInt16)
  | closed (cause : String)
  deriving DecidableEq

def Admission.userIndex : Admission → Option Nat
  | .session userIndex _ => some userIndex
  | _ => none

section

variable (sha256 : Bytes → Vector UInt8 32)

def verifyPrefaceHash (received password : Bytes) : Bool :=
  received = passwordHashHex sha256 password

namespace InboundOptions

variable (h : InboundOptions) (conn : Bytes)

def matchUser (received : Bytes) : Option Nat :=
  h.users.zipIdx.foldl (fun matched (user, index) =>
    if verifyPrefaceHash sha256 received user.password then some index else matched) none

def handleAuthFailure (cause : String) : Admission :=
  match h.fallbackAddr with
  | some destination => .fallback destination
  | none => .closed cause

variable (f : ReplayFilter) (conn : Bytes)

/-- `NewConnection` from the preface up to the session. -/
def newConnection : Option (Admission × ReplayFilter) :=
  match (decodePreface h.maxPadding conn).1 with
  | .error err => some (h.handleAuthFailure err, f)
  | .ok (passwordHash, _) => do
    let (fresh, f) ← f.checkAndAdd (hexString passwordHash)
    if !fresh then return (h.handleAuthFailure "replay detected", f)
    match h.matchUser sha256 passwordHash with
    | none => return (h.handleAuthFailure "authentication failed", f)
    | some userIndex =>
      let user ← h.users[userIndex]?
      return (.session userIndex user.name, f)

def filterAfter (maxSize : Int) (history : List Bytes) : Option ReplayFilter :=
  run (fun f conn => (h.newConnection sha256 f conn).map Prod.snd) (newReplayFilter maxSize)
    history

/-- The preface of the connection has the hash of the user's password. -/
def Carries (user : User) : Prop :=
  ∃ padding, (decodePreface h.maxPadding conn).1 = .ok (passwordHashHex sha256 user.password, padding)

def CarriesOf (i : Nat) : Prop := ∃ user, h.users[i]? = some user ∧ h.Carries sha256 conn user

/-- The connection is authenticated as the users whose hash it has and as no other. -/
def Authenticated : Prop :=
  ∃ admission f', h.newConnection sha256 f conn = some (admission, f') ∧ f'.Consistent ∧
    ∀ i, admission.userIndex = some i ↔ h.CarriesOf sha256 conn i

/-- The filter does not have the hash of a user, and only one user has it. -/
def FirstUse : Prop :=
  ∀ i user, h.users[i]? = some user → h.Carries sha256 conn user →
    hexString (passwordHashHex sha256 user.password) ∉ f.entries ∧
      ∀ j, h.CarriesOf sha256 conn j → j = i

end InboundOptions

section Match

variable {α : Type*}

lemma foldl_zipIdx_eq_none (p : α → Bool) (xs : List α) :
    xs.zipIdx.foldl (fun matched (x, index) => if p x then some index else matched) none = none ↔
      ∀ (i : Nat) x, xs[i]? = some x → p x = false := by
  induction xs using reverseRecOn with
  | nil => simp
  | append_singleton xs y ih =>
    rw [zipIdx_append, foldl_append]
    simp only [zipIdx_singleton, foldl_cons, foldl_nil]
    by_cases hy : p y
    · simp only [hy, if_true, reduceCtorEq, false_iff, not_forall]
      exact ⟨xs.length, y, by simp, by simp [hy]⟩
    · rw [if_neg hy, ih]
      constructor
      · intro h i x hx
        obtain hlt | rfl | hgt := lt_trichotomy i xs.length
        · rw [getElem?_append_left hlt] at hx
          exact h i x hx
        · simp at hx
          simpa [← hx] using hy
        · rw [getElem?_eq_none (by simp; omega)] at hx
          cases hx
      · intro h i x hx
        have hlt := (List.getElem?_eq_some_iff.mp hx).1
        exact h i x (by rw [getElem?_append_left hlt, hx])

lemma foldl_zipIdx_eq_some (p : α → Bool) {xs : List α} {i : Nat}
    (h : xs.zipIdx.foldl (fun matched (x, index) => if p x then some index else matched) none =
      some i) : ∃ x, xs[i]? = some x ∧ p x := by
  induction xs using reverseRecOn with
  | nil => simp at h
  | append_singleton xs y ih =>
    rw [zipIdx_append, foldl_append] at h
    simp only [zipIdx_singleton, foldl_cons, foldl_nil] at h
    by_cases hy : p y
    · rw [if_pos hy] at h
      cases h
      exact ⟨y, by simp, hy⟩
    · rw [if_neg hy] at h
      obtain ⟨x, hx, hp⟩ := ih h
      have hlt := (List.getElem?_eq_some_iff.mp hx).1
      exact ⟨x, by rw [getElem?_append_left hlt, hx], hp⟩

end Match

namespace InboundOptions

variable {sha256} {h : InboundOptions} {f : ReplayFilter} {conn : Bytes} {hash padding : Bytes}

lemma carries_iff (hdec : (decodePreface h.maxPadding conn).1 = .ok (hash, padding)) (user : User) :
    h.Carries sha256 conn user ↔ verifyPrefaceHash sha256 hash user.password := by
  unfold Carries verifyPrefaceHash
  rw [hdec]
  simp

lemma not_carries {err : String} (hdec : (decodePreface h.maxPadding conn).1 = .error err)
    (user : User) : ¬ h.Carries sha256 conn user := by
  rintro ⟨padding, hok⟩
  simp [hdec] at hok

lemma userIndex_handleAuthFailure (h : InboundOptions) (cause : String) :
    (h.handleAuthFailure cause).userIndex = none := by
  unfold handleAuthFailure
  split <;> rfl

section
variable (hdec : (decodePreface h.maxPadding conn).1 = .ok (hash, padding))
include hdec

lemma matchUser_eq_none : h.matchUser sha256 hash = none ↔ ∀ i, ¬ h.CarriesOf sha256 conn i := by
  rw [matchUser, foldl_zipIdx_eq_none fun user : User => verifyPrefaceHash sha256 hash user.password]
  constructor
  · rintro hnone i ⟨user, huser, hcarries⟩
    have hfalse := hnone i user huser
    simp [(carries_iff hdec user).mp hcarries] at hfalse
  · intro hnone i user huser
    rw [← Bool.not_eq_true, ← carries_iff hdec]
    exact fun hcarries => hnone i ⟨user, huser, hcarries⟩

lemma matchUser_eq_some {i : Nat} (hmatch : h.matchUser sha256 hash = some i) :
    ∃ user, h.users[i]? = some user ∧ h.Carries sha256 conn user := by
  obtain ⟨user, huser, hverify⟩ :=
    foldl_zipIdx_eq_some (fun user : User => verifyPrefaceHash sha256 hash user.password) hmatch
  exact ⟨user, huser, (carries_iff hdec user).mpr hverify⟩

end

/-- What `newConnection` does: nothing with a connection whose preface is not decoded, and else
what the filter and the users say. -/
theorem newConnection_spec (sha256 : Bytes → Vector UInt8 32) (h : InboundOptions) (conn : Bytes)
    (hf : f.Consistent) :
    ∃ admission f', h.newConnection sha256 f conn = some (admission, f') ∧ f'.Consistent ∧
      admission.userIndex =
        match (decodePreface h.maxPadding conn).1 with
        | .error _ => none
        | .ok (hash, _) => if hexString hash ∈ f.entries then none else h.matchUser sha256 hash := by
  unfold newConnection
  split
  · exact ⟨_, f, rfl, hf, userIndex_handleAuthFailure ..⟩
  · rename_i hash padding hdec
    obtain ⟨f', hcheck, hf', -⟩ := hf.checkAndAdd (hexString hash)
    rw [hcheck]
    by_cases hmem : hexString hash ∈ f.entries
    · exact ⟨h.handleAuthFailure "replay detected", f', by simp [hmem], hf',
        by simp [hmem, userIndex_handleAuthFailure]⟩
    · cases hmatch : h.matchUser sha256 hash with
      | none =>
        exact ⟨h.handleAuthFailure "authentication failed", f', by simp [hmem], hf',
          by simp [hmem, userIndex_handleAuthFailure]⟩
      | some i =>
        obtain ⟨user, huser, -⟩ := matchUser_eq_some hdec hmatch
        exact ⟨.session i user.name, f', by simp [hmem, huser], hf', by
          rw [if_neg hmem]
          rfl⟩

variable (sha256) in
lemma filterAfter_consistent (h : InboundOptions) (maxSize : Int) (history : List Bytes) :
    ∃ f, h.filterAfter sha256 maxSize history = some f ∧ f.Consistent := by
  suffices hrun : ∀ f : ReplayFilter, f.Consistent →
      ∃ f', run (fun f conn => (h.newConnection sha256 f conn).map Prod.snd) f history =
        some f' ∧ f'.Consistent from
    hrun _ (ReplayFilter.newReplayFilter_consistent maxSize)
  induction history with
  | nil => exact fun f hf => ⟨f, rfl, hf⟩
  | cons conn history ih =>
    intro f hf
    obtain ⟨admission, f', hconn, hf', -⟩ := newConnection_spec sha256 h conn hf
    obtain ⟨f'', hrun, hf''⟩ := ih f' hf'
    exact ⟨f'', by simpa only [run, hconn, map_some, bind_some] using hrun, hf''⟩

lemma authenticated_iff_firstUse (hf : f.Consistent) :
    h.Authenticated sha256 f conn ↔ h.FirstUse sha256 f conn := by
  obtain ⟨admission, f', hconn, hf', huser⟩ := newConnection_spec sha256 h conn hf
  have hAuthenticated : h.Authenticated sha256 f conn ↔
      ∀ i, admission.userIndex = some i ↔ h.CarriesOf sha256 conn i := by
    constructor
    · rintro ⟨admission', f'', hconn', -, hiff⟩
      rw [hconn] at hconn'
      obtain ⟨rfl, -⟩ := Prod.mk.inj (some.inj hconn')
      exact hiff
    · exact fun hiff => ⟨admission, f', hconn, hf', hiff⟩
  rw [hAuthenticated]
  split at huser
  · rename_i err hdec
    constructor
    · intro _ i user _ hcarries
      exact absurd hcarries (not_carries hdec user)
    · rintro - i
      rw [huser]
      constructor
      · intro hnone
        cases hnone
      · rintro ⟨user, -, hcarries⟩
        exact absurd hcarries (not_carries hdec user)
  · rename_i hash padding hdec
    have hhash : ∀ user, h.Carries sha256 conn user → hash = passwordHashHex sha256 user.password :=
      fun user hcarries => of_decide_eq_true ((carries_iff hdec user).mp hcarries)
    constructor
    · intro hiff i user huser' hcarries
      have hi := (hiff i).mpr ⟨user, huser', hcarries⟩
      rw [huser] at hi
      constructor
      · rw [← hhash user hcarries]
        intro hmem
        simp [if_pos hmem] at hi
      · intro j hj
        have hj := (hiff j).mpr hj
        rw [huser, hi] at hj
        exact (some.inj hj).symm
    · intro hfirst i
      rw [huser]
      constructor
      · intro hi
        split at hi
        · cases hi
        · exact matchUser_eq_some hdec hi
      · rintro ⟨user, huser', hcarries⟩
        obtain ⟨hfresh, hunique⟩ := hfirst i user huser' hcarries
        rw [← hhash user hcarries] at hfresh
        rw [if_neg hfresh]
        cases hmatch : h.matchUser sha256 hash with
        | none => exact absurd ⟨user, huser', hcarries⟩ ((matchUser_eq_none hdec).mp hmatch i)
        | some j => rw [hunique j (matchUser_eq_some hdec hmatch)]

end InboundOptions

/-- After every history the filter is consistent, and the next connection is authenticated as
it should be exactly if the filter does not have the hash of a user that it comes with, and
only one user has that hash. -/
theorem authenticated_iff (h : InboundOptions) (maxSize : Int) (history : List Bytes)
    (conn : Bytes) : ∃ f, h.filterAfter sha256 maxSize history = some f ∧ f.Consistent ∧
      (h.Authenticated sha256 f conn ↔ h.FirstUse sha256 f conn) := by
  obtain ⟨f, hf, hconsistent⟩ := InboundOptions.filterAfter_consistent sha256 h maxSize history
  exact ⟨f, hf, hconsistent, InboundOptions.authenticated_iff_firstUse hconsistent⟩

end

/-- One user, and the preface that the user's client sends without padding. -/
def secretInbound : InboundOptions :=
  { users := [{ name := [], password := secret }], maxPadding := 256 }

def secretPreface : Bytes := passwordHashHex (fun _ => secretDigest) secret ++ crlf ++ crlf

lemma secretPreface_carries (i : Nat) :
    secretInbound.CarriesOf (fun _ => secretDigest) secretPreface i ↔ i = 0 := by
  constructor
  · rintro ⟨user, huser, -⟩
    have hlt := (List.getElem?_eq_some_iff.mp huser).1
    exact lt_one_iff.mp hlt
  · rintro rfl
    exact ⟨_, rfl, [], by decide⟩

/-- The only user connects twice: the second connection is taken for a replay. -/
theorem second_connection_refused :
    ∃ f, secretInbound.filterAfter (fun _ => secretDigest) 256 [secretPreface] = some f ∧
      secretInbound.newConnection (fun _ => secretDigest) f secretPreface =
        some (.closed "replay detected", f) ∧
      ¬ secretInbound.Authenticated (fun _ => secretDigest) f secretPreface := by
  have hrun : ((secretInbound.filterAfter (fun _ => secretDigest) 256 [secretPreface]).any fun f =>
      secretInbound.newConnection (fun _ => secretDigest) f secretPreface =
        some (.closed "replay detected", f)) := by decide
  obtain ⟨f, hf, hconn⟩ := (Option.any_eq_true ..).mp hrun
  have hconn := of_decide_eq_true hconn
  refine ⟨f, hf, hconn, ?_⟩
  rintro ⟨admission, f', hconn', -, hiff⟩
  obtain ⟨rfl, -⟩ := Prod.mk.inj (some.inj (hconn.symm.trans hconn'))
  have hsess := (hiff 0).mpr ((secretPreface_carries 0).mpr rfl)
  cases hsess

end SingBox.Shuttle
