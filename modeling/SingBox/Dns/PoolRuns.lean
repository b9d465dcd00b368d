import SingBox.Dns.PoolCustody

/-! Runs of the pool: no connection is lost, none is with two holders, and one call is told
that it was created. -/

namespace SingBox.Dns.ConnPool
open Lib Machine Option List

variable {T : Type} [DecidableEq T]

/-- No call or goroutine has a connection in hand that it is to install or to close. -/
def State.Quiescent (s : State T) : Prop := ∀ t ∈ s.threads, t.pending = [] ∧ t.closes s.states = ∅

/-- A connection that is in use is put back for others by its holder only. -/
def returnsOwn (s : State T) : Action T → Bool
  | .release holder conn true _ => s.holders.all fun entry => entry.2 ≠ conn ∨ entry.1 = holder
  | _ => true

section Runs

variable {options : Options} {s s' : State T} {action : Action T}

/-- What holds of the custody in every state. -/
structure State.Sound (mode : Mode) (s : State T) : Prop where
  pooled : s.Pooled mode
  kept : s.custody.Kept (mode = .ordered)
  lending : s.custody.Lending
  accounted : s.custody.Accounted

lemma State.sound_start (mode : Mode) : ({} : State T).Sound mode where
  pooled := by
    constructor
    · exact fun _ => ConnPoolState.valid_empty mode
    · intro k hk
      cases hk
      exact Nat.le_refl _
    · simp
    · simp
    · simp
    · simp
  kept := by
    constructor <;> simp [custody, pool]
  lending := by
    constructor <;> simp [custody, pool, Custody.out, Custody.held]
  accounted := by
    simp [Custody.Accounted, custody]

lemma State.Sound.step (hs : s.Sound options.mode) (hu : step options s action = some s') :
    s'.Sound options.mode := by
  obtain ⟨hpooled, hstep⟩ := step_follows hs.pooled hu
  exact ⟨hpooled, hs.kept.step hstep, hs.lending.step hstep hs.kept, hs.accounted.step hstep⟩

variable {mode : Mode} {conn : T}

section
variable (hs : s.Sound mode)
include hs

/-- Connections are tracked or closed where none is in hand. -/
theorem State.Sound.tracked_or_closed (hquiet : s.Quiescent)
    (hconn : conn ∈ s.dialled) : conn ∈ s.pool.all ∨ conn ∈ s.closed := by
  obtain h | h | h | ⟨t, ht, h⟩ := hs.accounted conn hconn
  · exact .inl h
  · obtain ⟨t, ht, h⟩ := mem_flatMap.mp (Multiset.mem_coe.mp h)
    simp [(hquiet t ht).1] at h
  · exact .inr h
  · rw [(hquiet t ht).2] at h
    exact absurd h (Finset.notMem_empty conn)

lemma State.Sound.in_use (hconn : conn ∈ s.pool.all) :
    conn ∈ s.pool.idle ∨ (∃ call, (call, conn) ∈ s.holders) ∨ s.pool.shared = some conn := by
  cases mode with
  | single => exact .inr (.inr (hs.kept.shared rfl conn hconn))
  | ordered =>
    obtain h | h := hs.kept.in_use rfl conn hconn
    · exact .inl h
    · obtain ⟨⟨call, _⟩, hent, rfl⟩ := mem_map.mp h
      exact .inr (.inl ⟨call, hent⟩)

lemma State.Sound.told {g : Given T} (hg : g ∈ s.given) :
    s.given.countP (fun h => h.conn = g.conn ∧ h.created) = 1 := by
  have hout : g.conn ∈ s.custody.out := mem_map.mpr ⟨_, mem_map.mpr ⟨g, hg, rfl⟩, rfl⟩
  have htold := hs.lending.told g.conn
  rw [if_pos hout] at htold
  have hcount : s.custody.lent.count (g.conn, true) =
      s.given.countP (fun h => h.conn = g.conn ∧ h.created) := by
    change (s.given.map fun g => (g.conn, g.created)).count (g.conn, true) = _
    rw [count, countP_map]
    congr 1
    funext h
    rw [Bool.eq_iff_iff, Function.comp_apply, beq_iff_eq, Prod.mk.injEq, decide_eq_true_eq]
  rwa [← hcount]

end

/-- What holds in the runs in which connections are put back by their holders. -/
theorem exclusive_step (hmode : options.mode = .ordered) (hs : s.Sound options.mode)
    (hexclusive : s.custody.Exclusive) (hown : returnsOwn s action)
    (hu : step options s action = some s') : s'.custody.Exclusive := by
  obtain ⟨-, hstep⟩ := step_follows hs.pooled hu
  refine hexclusive.step hstep (decide_eq_true hmode) ?_ hs.kept hs.lending
  intro holder conn hl entry hent hsame
  cases action with
  | release holder' conn' reuse alive =>
    cases reuse with
    | false => cases hl
    | true =>
      cases hl
      have hheld := of_decide_eq_true (all_eq_true.mp hown entry hent)
      exact hheld.resolve_left (not_not.mpr hsame)
  | _ => cases hl

end Runs

/-- In every run, at every moment where no connection is in hand each one that was dialled is
tracked or closed, and closed if the pool is. What is tracked is idle, in use or shared, what
is idle is tracked and there once, and of the calls that a connection was given to one was
told that it was created. In a run in which connections are put back by their holders only, no
two calls hold the same connection of an ordered pool. -/
theorem connections_kept (options : Options) :
    (∀ s : State T, Reaches (step options) (fun _ _ => True) {} s →
      (s.Quiescent → ∀ conn ∈ s.dialled, conn ∈ s.pool.all ∨ conn ∈ s.closed) ∧
      (s.Quiescent → s.state = none → ∀ conn ∈ s.dialled, conn ∈ s.closed) ∧
      (∀ conn ∈ s.pool.all, conn ∈ s.pool.idle ∨ (∃ call, (call, conn) ∈ s.holders) ∨
        s.pool.shared = some conn) ∧
      s.pool.idle.Nodup ∧ (∀ conn ∈ s.pool.idle, conn ∈ s.pool.all) ∧
      ∀ g ∈ s.given, s.given.countP (fun h => h.conn = g.conn ∧ h.created) = 1) ∧
    (options.mode = .ordered → ∀ s : State T,
      Reaches (step options) (fun s action => returnsOwn s action = true) {} s →
      (s.holders.map Prod.snd).Nodup) := by
  constructor
  · intro s hs
    have hsound : s.Sound options.mode :=
      hs.invariant (State.sound_start options.mode) fun _ hu hs => hs.step hu
    refine ⟨fun hquiet conn => hsound.tracked_or_closed hquiet, fun hquiet hclosed conn hconn => ?_,
      fun conn => hsound.in_use, hsound.kept.idle_nodup, hsound.kept.idle_tracked,
      fun g => hsound.told⟩
    obtain h | h := hsound.tracked_or_closed hquiet hconn
    · exact absurd h (State.notMem_of_none hclosed conn)
    · exact h
  · intro hmode s hs
    have hstart : ({} : State T).custody.Exclusive := by
      constructor <;> simp [State.custody, State.pool, Custody.held]
    have hinv := hs.invariant (P := fun s => s.Sound options.mode ∧ s.custody.Exclusive)
        ⟨State.sound_start options.mode, hstart⟩
        fun hown hu hs => ⟨hs.1.step hu, exclusive_step hmode hs.1 hs.2 hown hu⟩
    exact hinv.2.held_nodup

/-- A call dials and puts its connection back, the next one gets it, and a third one dials
again while it is in use. Then the pool is closed. -/
def sampleActions : List (Action Nat) :=
  [.acquire, .turn 0 (.lock true), .turn 0 .go, .turn 0 (.dialed (.ok 7)), .turn 0 (.lock true),
    .release 0 7 true true, .acquire, .turn 0 (.lock true), .acquire, .turn 0 (.lock true),
    .turn 0 .go, .turn 0 (.dialed (.ok 8)), .turn 0 (.lock true)]

def sampleClose : List (Action Nat) :=
  [.close, .turn 0 .go, .turn 0 (.close 7), .turn 0 (.close 8), .turn 0 .go]

theorem connections_kept_until_close :
    ∃ s t : State Nat, run (step { mode := .ordered }) {} sampleActions = some s ∧
      s.holders = [(2, 8), (1, 7)] ∧ (s.holders.map Prod.snd).Nodup ∧
      run (step { mode := .ordered }) s sampleClose = some t ∧
      t.dialled = [8, 7] ∧ ∀ conn ∈ t.dialled, conn ∈ t.closed := by
  refine ⟨_, _, run_get returnsOwn (by decide), by decide, ?_,
    run_get returnsOwn (by decide), by decide, ?_⟩
  · exact (connections_kept { mode := .ordered }).2 rfl _
      (Reaches.start.runChecked (fun _ _ h => h) (eq_some_of_isSome _))
  · refine ((connections_kept { mode := .ordered }).1 _ (.run (.run .start (fun _ _ _ => trivial)
      (run_get returnsOwn _)) (fun _ _ _ => trivial) (run_get returnsOwn _))).2.1
      (fun t ht => ?_) (by decide)
    exact absurd ht (eq_nil_iff_forall_not_mem.mp (isEmpty_iff.mp (by decide)) t)

/-- A call gives up after its dial has been shared, and the pool is closed. -/
def sampleGivenUp : List (Action Nat) :=
  [.acquire, .turn 0 (.lock true), .turn 1 (.dialed (.ok 7)), .turn 0 (.lock true), .turn 0 .go,
    .contextDone 0 "context canceled", .turn 0 .contextDone]

/-- A call puts its connection back a second time, when another call has it. -/
def sampleReleasedTwice : List (Action Nat) :=
  [.acquire, .turn 0 (.lock true), .turn 0 .go, .turn 0 (.dialed (.ok 7)), .turn 0 (.lock true),
    .release 0 7 true true, .acquire, .turn 0 (.lock true), .release 0 7 true true,
    .acquire, .turn 0 (.lock true)]

/-- A connection may be shared and closed without a call that is told of it, and the pool
does not ask who puts a connection back. -/
theorem shared_without_acquirer :
    (∃ s t : State Nat, run (step { mode := .single }) {} sampleGivenUp = some s ∧
      s.pool.shared = some 7 ∧
      run (step { mode := .single }) s
        [.close, .turn 0 .go, .turn 0 (.close 7), .turn 0 .go] = some t ∧
      t.state = none ∧ t.threads.length = 0 ∧ t.given = []) ∧
    ∃ s : State Nat, run (step { mode := .ordered }) {} sampleReleasedTwice = some s ∧
      s.holders = [(2, 7), (1, 7)] := by
  refine ⟨⟨_, _, eq_some_of_isSome (by decide), by decide,
    eq_some_of_isSome (by decide), by decide⟩, ?_⟩
  exact exists_end (by decide) fun _ => by decide

end SingBox.Dns.ConnPool
