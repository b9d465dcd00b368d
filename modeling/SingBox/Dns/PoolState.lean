import SingBox.Dns.ConnPool
import SingBox.Lib.Custody

/-! What is true of the states of a pool and of the threads that work on them, and what that
says about who has which connection. -/

namespace SingBox.Dns.ConnPool
open Lib List ConnPool.Thread

variable {T : Type}

/-! ## States of the pool -/

/-- The two records of idle connections agree, and each mode leaves the fields of the other
alone. -/
structure ConnPoolState.Valid (mode : Mode) (p : ConnPoolState T) : Prop where
  idle_nodup : p.idle.Nodup
  idleElements : ∀ conn, conn ∈ p.idleElements ↔ conn ∈ p.idle
  connecting : p.connecting.isSome → p.shared = none
  single : mode = .single → p.idle = []
  ordered : mode = .ordered → p.shared = none ∧ p.connecting = none

namespace ConnPoolState

lemma valid_empty (mode : Mode) : ({} : ConnPoolState T).Valid mode := by
  constructor <;> simp

variable [DecidableEq T] {mode : Mode} {p : ConnPoolState T} {conn : T}

lemma Valid.removeConn_eq (h : p.Valid mode) (conn : T) : p.removeConn mode conn = { p with
      all := p.all.erase conn, idle := p.idle.erase conn
      idleElements := p.idleElements.erase conn
      shared := if p.shared = some conn then none else p.shared
      sharedClaimed := if p.shared = some conn then false else p.sharedClaimed } := by
  have hidle (hconn : conn ∉ p.idleElements) : p.idle.erase conn = p.idle :=
    erase_of_not_mem (mt (h.idleElements conn).mpr hconn)
  cases mode with
  | single =>
    have hconn : conn ∉ p.idleElements := by
      rw [h.idleElements, h.single rfl]
      exact not_mem_nil
    by_cases hshared : p.shared = some conn <;>
      simp [ConnPoolState.removeConn, hshared, hidle hconn, hconn]
  | ordered =>
    have hshared := (h.ordered rfl).1
    by_cases hconn : conn ∈ p.idleElements
    · simp [ConnPoolState.removeConn, hshared, hconn]
    · simp [ConnPoolState.removeConn, hshared, hidle hconn, hconn]

lemma Valid.removeConn (h : p.Valid mode) (conn : T) : (p.removeConn mode conn).Valid mode := by
  rw [h.removeConn_eq]
  constructor
  · exact h.idle_nodup.erase conn
  · intro c
    rw [Finset.mem_erase, h.idle_nodup.mem_erase_iff, h.idleElements]
  · intro hconn
    simp [h.connecting hconn]
  · intro hmode
    simp [h.single hmode]
  · intro hmode
    simp [h.ordered hmode]

lemma Valid.pushBack (h : p.Valid .ordered) (hidle : conn ∉ p.idleElements) :
    (p.pushBack conn).Valid .ordered := by
  refine { h with idle_nodup := ?_, idleElements := fun c => ?_, single := nofun }
  · exact h.idle_nodup.append (nodup_singleton conn) (by simpa [h.idleElements] using hidle)
  · unfold ConnPoolState.pushBack
    rw [Finset.mem_insert, mem_append, mem_singleton, h.idleElements, or_comm]

lemma Valid.pop {idle : List T} (h : p.Valid .ordered) (hidle : p.idle = conn :: idle) :
    { p with idle, idleElements := p.idleElements.erase conn }.Valid .ordered := by
  have hnodup := h.idle_nodup
  rw [hidle] at hnodup
  obtain ⟨hconn, hnodup⟩ := nodup_cons.mp hnodup
  refine { h with idle_nodup := hnodup, idleElements := fun c => ?_, single := nofun }
  rw [Finset.mem_erase, h.idleElements, hidle, mem_cons]
  constructor
  · rintro ⟨hne, rfl | hc⟩
    · exact absurd rfl hne
    · exact hc
  · intro hc
    refine ⟨?_, .inr hc⟩
    rintro rfl
    exact hconn hc

end ConnPoolState

/-! ## Threads -/

namespace Thread

/-- The mode of the pool in which there is such a thread. -/
def mode : Thread T → Option Mode
  | .acquireShared _ | .waiting .. | .connectSingle .. | .connected .. => some .single
  | .closing _ (.acquireShared _) | .closing _ (.connected ..) => some .single
  | .acquireOrdered _ | .acquireSlot .. | .dialing .. | .dialed .. => some .ordered
  | .closing _ (.acquireOrdered _) => some .ordered
  | _ => none

def pending : Thread T → List T
  | .connected _ _ (.ok conn) => [conn]
  | .dialed _ _ conn => [conn]
  | _ => []

def connecting : Thread T → List Nat
  | .connectSingle _ state _ | .connected state _ _ | .closing _ (.connected state _ _) => [state]
  | _ => []

def old : Thread T → List Nat
  | .closeState state => [state]
  | _ => []

def closes (states : Nat → ConnPoolState T) : Thread T → Finset T
  | .closing conn _ => {conn}
  | .closeState state => (states state).all
  | .closeAll conns => conns
  | _ => ∅

end Thread

namespace State

/-- Every state is valid, has at most one thread that connects for it, and is left alone once
it was replaced. -/
structure Pooled (mode : Mode) (s : State T) : Prop where
  states : ∀ k, (s.states k).Valid mode
  state : ∀ k ∈ s.state, k ≤ s.lastState
  mode : ∀ t ∈ s.threads, ∀ m ∈ t.mode, m = mode
  connecting_nodup : (s.threads.flatMap connecting).Nodup
  connecting : ∀ k ∈ s.threads.flatMap connecting,
    k ≤ s.lastState ∧ (s.states k).connecting.isSome
  old : ∀ k ∈ s.threads.flatMap old, k ≤ s.lastState ∧ s.state ≠ some k

/-- Who has which connection. -/
def custody (s : State T) : Custody T where
  made := s.dialled
  pending := ↑(s.threads.flatMap pending)
  tracked := s.pool.all
  idle := s.pool.idle
  shared := s.pool.shared
  claimed := s.pool.sharedClaimed
  lent := s.given.map fun g => (g.conn, g.created)
  holders := s.holders
  dropped := { conn | conn ∈ s.closed ∨ ∃ t ∈ s.threads, conn ∈ t.closes s.states }

section Pooled

variable {mode : Mode} {s s' : State T} {t t' : Thread T} {k : Nat}
  {f : ConnPoolState T → ConnPoolState T}

lemma update_self (s : State T) (k : Nat) (f : ConnPoolState T → ConnPoolState T) :
    (s.update k f).states k = f (s.states k) := Function.update_self ..

lemma update_of_ne {j : Nat} (h : j ≠ k) : (s.update k f).states j = s.states j :=
  Function.update_of_ne h _ _

lemma Pooled.rest (h : (s.start t).Pooled mode) : s.Pooled mode := { h with
  mode t' ht' := h.mode t' (mem_cons_of_mem _ ht')
  connecting_nodup := (nodup_append.mp h.connecting_nodup).2.1
  connecting k hk := h.connecting k (mem_append_right _ hk)
  old k hk := h.old k (mem_append_right _ hk) }

lemma Pooled.add (h : s.Pooled mode) (hmode : ∀ m ∈ t.mode, m = mode)
    (hnodup : (t.connecting ++ s.threads.flatMap Thread.connecting).Nodup)
    (hconn : ∀ k ∈ t.connecting, k ≤ s.lastState ∧ (s.states k).connecting.isSome)
    (hold : t.old = []) : (s.start t).Pooled mode := by
  refine { h with
    mode := forall_mem_cons.mpr ⟨hmode, h.mode⟩, connecting_nodup := hnodup
    connecting := forall_mem_append.mpr ⟨hconn, h.connecting⟩, old := ?_ }
  change ∀ k ∈ t.old ++ _, _
  rw [hold]
  exact h.old

lemma Pooled.start (h : s.Pooled mode) (hmode : ∀ m ∈ t.mode, m = mode)
    (hconn : t.connecting = []) (hold : t.old = []) : (s.start t).Pooled mode := by
  apply h.add hmode _ _ hold
  · rw [hconn]
    exact h.connecting_nodup
  · rw [hconn]
    exact forall_mem_nil _

lemma Pooled.replace (h : (s.start t).Pooled mode) (hmode : ∀ m ∈ t'.mode, m = mode)
    (hconn : t'.connecting = t.connecting) (hold : t'.old = []) : (s.start t').Pooled mode := by
  apply h.rest.add hmode _ _ hold
  · rw [hconn]
    exact h.connecting_nodup
  · rw [hconn]
    exact fun k hk => h.connecting k (mem_append_left _ hk)

lemma Pooled.update (h : s.Pooled mode) (hf : (f (s.states k)).Valid mode)
    (hconn : k ∈ s.threads.flatMap Thread.connecting → (f (s.states k)).connecting.isSome) :
    (s.update k f).Pooled mode := by
  refine { h with
    states := (Function.forall_update_iff s.states fun _ p => p.Valid mode).mpr
        ⟨hf, fun j _ => h.states j⟩
    connecting := fun j hj => ⟨(h.connecting j hj).1, ?_⟩ }
  by_cases hjk : j = k
  · subst hjk
    rw [update_self]
    exact hconn hj
  · rw [update_of_ne hjk]
    exact (h.connecting j hj).2

lemma Pooled.update_same (h : s.Pooled mode) (hf : (f (s.states k)).Valid mode)
    (hconn : (f (s.states k)).connecting = (s.states k).connecting) : (s.update k f).Pooled mode :=
  h.update hf fun hk => hconn ▸ (h.connecting k hk).2

lemma pool_update (h : s.state = some k) (f : ConnPoolState T → ConnPoolState T) :
    (s.update k f).pool = f s.pool := by
  unfold pool State.update
  simp [h]

lemma pool_of_state (h : s.state = some k) : s.pool = s.states k := by
  unfold pool
  rw [h]
  rfl

lemma notMem_of_none (h : s.state = none) (conn : T) : conn ∉ s.pool.all := by
  unfold pool
  rw [h]
  exact Finset.notMem_empty conn

lemma pool_update_of_ne (h : s.state ≠ some k) : (s.update k f).pool = s.pool := by
  unfold pool State.update
  dsimp only
  cases hst : s.state with
  | none => rfl
  | some j =>
    rw [Option.elim_some, Function.update_of_ne]
    · rfl
    · rintro rfl
      exact h hst

/-- A change to the current state, as far as the custody sees it. -/
theorem custody_update (h : s.state = some k) (f : ConnPoolState T → ConnPoolState T) :
    (s.update k f).custody = { s.custody with
      tracked := (f s.pool).all, idle := (f s.pool).idle, shared := (f s.pool).shared
      claimed := (f s.pool).sharedClaimed, dropped := (s.update k f).custody.dropped } := by
  rw [← pool_update h f]
  rfl

/-- What was to be closed is so still, or is closed. -/
theorem dropped_mono (hs : s.Pooled mode) (hclosed : s.closed ⊆ s'.closed)
    (hall : ∀ j ≤ s.lastState, s.state ≠ some j → (s'.states j).all = (s.states j).all)
    (hthrs : ∀ t ∈ s.threads, t ∈ s'.threads ∨
      ∀ conn ∈ t.closes s.states, conn ∈ s'.custody.dropped) :
    s.custody.dropped ⊆ s'.custody.dropped := by
  rintro conn (hconn | ⟨t, ht, hconn⟩)
  · exact .inl (hclosed hconn)
  · obtain hkept | hgone := hthrs t ht
    · refine .inr ⟨t, hkept, ?_⟩
      cases t with
      | closeState old =>
        obtain ⟨hle, hne⟩ := hs.old old (mem_flatMap.mpr ⟨_, ht, mem_singleton_self old⟩)
        rwa [closes, hall old hle hne]
      | _ => exact hconn
    · exact hgone conn hconn

section
variable (hcloses : t.closes s.states = ∅)
include hcloses

lemma dropped_start_of_empty : (s.start t).custody.dropped = s.custody.dropped := by
  ext conn
  change conn ∈ s.closed ∨ (∃ t' ∈ t :: s.threads, conn ∈ t'.closes s.states) ↔ conn ∈ s.closed ∨ _
  rw [exists_mem_cons_iff, hcloses]
  simp

lemma custody_start_of_empty : (s.start t).custody =
    { s.custody with pending := ↑(t.pending ++ s.threads.flatMap pending) } := by
  have heq : (s.start t).custody = { s.custody with
      pending := ↑(t.pending ++ s.threads.flatMap pending)
      dropped := (s.start t).custody.dropped } := rfl
  rw [heq, dropped_start_of_empty hcloses]

lemma custody_start (hpend : t.pending = []) : (s.start t).custody = s.custody := by
  rw [custody_start_of_empty hcloses, hpend]
  rfl

lemma custody_pending {conn : T} (hpend : t.pending = [conn]) :
    (s.start t).custody = { s.custody with pending := conn ::ₘ s.custody.pending } := by
  rw [custody_start_of_empty hcloses, hpend]
  rfl

end

lemma custody_update_same (s : State T) (k : Nat)
    (hf : ∀ p, (f p).all = p.all ∧ (f p).idle = p.idle ∧ (f p).shared = p.shared ∧
      (f p).sharedClaimed = p.sharedClaimed) : (s.update k f).custody = s.custody := by
  have hall j : ((s.update k f).states j).all = (s.states j).all := by
    by_cases hjk : j = k
    · subst hjk
      rw [update_self]
      exact (hf _).1
    · rw [update_of_ne hjk]
  have hdropped : (s.update k f).custody.dropped = s.custody.dropped := by
    have hcloses (t : Thread T) : t.closes (s.update k f).states = t.closes s.states := by
      cases t with
      | closeState old => exact hall old
      | _ => rfl
    ext conn
    change conn ∈ s.closed ∨ (∃ t ∈ s.threads, conn ∈ t.closes (s.update k f).states) ↔ _
    simp only [hcloses]
    rfl
  by_cases hst : s.state = some k
  · obtain ⟨h₁, h₂, h₃, h₄⟩ := hf s.pool
    rw [custody_update hst, hdropped, h₁, h₂, h₃, h₄]
    rfl
  · have hpool := pool_update_of_ne (f := f) hst
    have heq : (s.update k f).custody = { s.custody with
        tracked := (s.update k f).pool.all, idle := (s.update k f).pool.idle
        shared := (s.update k f).pool.shared, claimed := (s.update k f).pool.sharedClaimed
        dropped := (s.update k f).custody.dropped } := rfl
    rw [heq, hdropped, hpool]
    rfl

variable {next : Next}

lemma custody_closing {conn : T} :
    (s.start (.closing conn next)).custody = { s.custody with
      dropped := (s.start (.closing conn next)).custody.dropped } := rfl

lemma mem_dropped_closing {conn : T} : conn ∈ (s.start (.closing conn next)).custody.dropped :=
  .inr ⟨_, mem_cons_self, Finset.mem_singleton_self conn⟩

lemma dropped_start : s.custody.dropped ⊆ (s.start t).custody.dropped := by
  rintro conn (hconn | ⟨t', ht', hconn⟩)
  · exact .inl hconn
  · exact .inr ⟨t', mem_cons_of_mem _ ht', hconn⟩

/-- Changes to the current state keep what is to be closed. -/
theorem dropped_update (hs : s.Pooled mode) (hst : s.state = some k)
    (f : ConnPoolState T → ConnPoolState T) :
    s.custody.dropped ⊆ (s.update k f).custody.dropped := by
  refine dropped_mono hs (List.Subset.refl _) (fun j _ hj => ?_) fun t ht => .inl ht
  rw [update_of_ne]
  rintro rfl
  exact hj hst

lemma custody_give (s : State T) (call : Nat) (conn : T) (created : Bool) :
    (s.give call conn created).custody = { s.custody with
      lent := (conn, created) :: s.custody.lent
      holders := (call, conn) :: s.custody.holders } := rfl

lemma Pooled.give (h : s.Pooled mode) (call : Nat) (conn : T) (created : Bool) :
    (s.give call conn created).Pooled mode := { h with }

lemma Pooled.fail (h : s.Pooled mode) (call : Nat) (err : Error) :
    (s.fail call err).Pooled mode := { h with }

lemma custody_releaseSlot (options : Options) (s : State T) :
    (s.releaseSlot options).custody = s.custody := by
  unfold releaseSlot
  split <;> rfl

namespace Pooled
variable (hs : s.Pooled mode)
include hs

lemma releaseSlot (options : Options) : (s.releaseSlot options).Pooled mode := by
  unfold State.releaseSlot
  split
  · exact hs
  · exact { hs with }

variable {old : Nat}

lemma close (hst : s.state = some old) :
    ({ s with state := none }.start (.closeState old)).Pooled mode := by
  refine { hs with state := nofun, mode := ?_, old := ?_ }
  · exact forall_mem_cons.mpr ⟨nofun, hs.mode⟩
  · refine forall_mem_cons.mpr ⟨⟨hs.state old hst, nofun⟩, fun k hk => ?_⟩
    exact ⟨(hs.old k hk).1, nofun⟩

lemma reset (hst : s.state = some old) : ({ s with
      state := some (s.lastState + 1)
      states := Function.update s.states (s.lastState + 1) {}
      lastState := s.lastState + 1 }.start (.closeState old)).Pooled mode := by
  have hle := hs.state old hst
  constructor
  · exact (Function.forall_update_iff s.states fun _ p => p.Valid mode).mpr
      ⟨ConnPoolState.valid_empty mode, fun k _ => hs.states k⟩
  · intro k hk
    cases hk
    exact Nat.le_refl _
  · exact forall_mem_cons.mpr ⟨nofun, hs.mode⟩
  · exact hs.connecting_nodup
  · intro k hk
    obtain ⟨hle, hsome⟩ := hs.connecting k hk
    refine ⟨Nat.le_succ_of_le hle, ?_⟩
    change (Function.update s.states (s.lastState + 1) {} k).connecting.isSome
    rwa [Function.update_of_ne (by omega)]
  · have hother {k} (hk : k ≤ s.lastState) :
        k ≤ s.lastState + 1 ∧ some (s.lastState + 1) ≠ some k := by
      refine ⟨by omega, fun h => ?_⟩
      have := Option.some.inj h
      omega
    exact forall_mem_cons.mpr ⟨hother hle, fun k hk => hother (hs.old k hk).1⟩

lemma perm {threads : List (Thread T)}
    (hperm : threads.Perm s.threads) : { s with threads }.Pooled mode := { hs with
  mode t ht := hs.mode t (hperm.mem_iff.mp ht)
  connecting_nodup := (hperm.flatMap_right _).nodup_iff.mpr hs.connecting_nodup
  connecting k hk := hs.connecting k ((hperm.flatMap_right _).mem_iff.mp hk)
  old k hk := hs.old k ((hperm.flatMap_right _).mem_iff.mp hk) }

end Pooled

lemma custody_perm {threads : List (Thread T)} (hperm : threads.Perm s.threads) :
    { s with threads }.custody = s.custody := by
  have hpend : (↑(threads.flatMap pending) : Multiset T) =
      ↑(s.threads.flatMap pending) := Multiset.coe_eq_coe.mpr (hperm.flatMap_right _)
  have hdropped : { s with threads }.custody.dropped = s.custody.dropped := by
    ext conn
    change conn ∈ s.closed ∨ (∃ t ∈ threads, conn ∈ t.closes s.states) ↔ _
    simp only [hperm.mem_iff]
    rfl
  have heq : { s with threads }.custody = { s.custody with
      pending := ↑(threads.flatMap pending), dropped := { s with threads }.custody.dropped } := rfl
  rw [heq, hpend, hdropped]
  rfl

end Pooled

end State

end SingBox.Dns.ConnPool
