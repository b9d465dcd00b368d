import SingBox.Lib.Machine
import SingBox.Shuttle.Session

/-! The pool of a client with one session: the calls of `OpenStream` that share it, the
streams they are given, and the calls that close sessions. The lock of the pool is part of
the state; what a session does under its own lock is one step. -/

namespace SingBox.Shuttle.Pool
open Lib Function List Option Machine Nat Capability ClientSession

/-- Where `close` returns to: to `OpenStream` with the pooled session, to the end of the loop
of `OpenStream` with the new session, or to another caller. -/
inductive After
  | pooled
  | loop
  | other
  deriving DecidableEq

/-- Where a call is. Sessions are known by their numbers. -/
inductive Pc
  | idle
  /-- Waits for the lock at the start of the loop. -/
  | start
  | check
  | acquire (i : Nat)
  | close (i : Nat) (after : After)
  /-- Waits for the lock in `remove`. -/
  | remove (i : Nat) (after : After)
  | unlock
  | dial
  /-- Waits for the lock with a new session. -/
  | relock (i : Nat)
  | recheck (i : Nat)
  | tryNew (i : Nat)
  | done
  deriving DecidableEq

def After.pc : After → Pc
  | .pooled => .unlock
  | .loop => .start
  | .other => .done

namespace Pc

def waits : Pc → Bool
  | .start | .relock _ | .remove _ _ => true
  | _ => false

/-- What the call does there it does with the lock. -/
def holds : Pc → Bool
  | .check | .acquire _ | .close _ .pooled | .remove _ .pooled | .unlock | .recheck _
  | .tryNew _ => true
  | _ => false

def session : Pc → Option Nat
  | .acquire i | .close i _ | .remove i _ | .relock i | .recheck i | .tryNew i => some i
  | _ => none

end Pc

/-- A stream as the pool sees it: who has it, whether it was released, and how many calls of
`release` are past their test. -/
structure Stream where
  caller : Nat
  released : Bool := false
  releasing : Nat := 0
  deriving DecidableEq

/-- A session with the call that dialed it, whether it knows the pool, and its streams. -/
structure Entry where
  session : ClientSession
  dialer : Nat
  installed : Bool := false
  streams : List Stream := []
  deriving DecidableEq

/-- What happened to a session, with its streams at that time. -/
inductive Event
  | closed (caller : Nat) (streams : List Stream)
  | handedOut (session : ClientSession) (streams : List Stream)
  deriving DecidableEq

structure State where
  now : Nat := 0
  entries : Nat → Option Entry := fun _ => none
  pooled : Option Nat := none
  lock : Option Nat := none
  calls : Nat → Pc := fun _ => .idle
  log : List Event := []

inductive Action
  | tick
  /-- A call of `OpenStream` begins. -/
  | openStream (c : Nat)
  /-- A call takes its next step. -/
  | run (c : Nat)
  /-- `dialSession` returns a new session, or an error. -/
  | dialed (c i : Nat) (capabilities maxStreams : UInt16) (opts : SessionOptions)
  | dialFailed (c : Nat)
  /-- The test in `streamConn.release`, and the rest of it. -/
  | testReleased (i k : Nat)
  | release (c i k : Nat) (reusable : Bool)
  | markActivity (i : Nat)
  /-- The background loop finds that the session has expired. -/
  | expire (c i : Nat)
  /-- Someone else who has the session closes it. -/
  | close (c i : Nat)

namespace State

variable (p : State)

def goto (c : Nat) (pc : Pc) : State := { p with calls := update p.calls c pc }

def setEntry (i : Nat) (e : Entry) : State := { p with entries := update p.entries i (some e) }

/-- `tryAcquire` of a call with the lock, the lock is given back in both cases. -/
def tryAcquire (p : State) (c i : Nat) (e : Entry) (otherwise : Pc) : State :=
  match e.session.tryAcquire p.now with
  | some session =>
    { (p.setEntry i { e with session, streams := e.streams ++ [{ caller := c }] }).goto c .done with
      lock := none
      log := .handedOut e.session e.streams :: p.log }
  | none => { p.goto c otherwise with lock := none }

/-- `p.session == nil || !p.session.canOpen()`. -/
def vacant : Bool :=
  match p.pooled.bind p.entries with
  | none => true
  | some e => !e.session.canOpenLocked p.now

def advance (c : Nat) : Pc → Option State
  | .start => if p.lock = none then some { p.goto c .check with lock := some c } else none
  | .check =>
    match p.pooled with
    | none => some { p.goto c .dial with lock := none }
    | some i => (p.entries i).map fun e =>
      if e.session.canOpenLocked p.now then p.goto c (.acquire i)
      else { p.goto c (.close i .pooled) with pooled := none }
  | .acquire i => (p.entries i).map fun e => p.tryAcquire c i e .dial
  | .close i after => (p.entries i).map fun e =>
    if e.session.closed then p.goto c after.pc
    else
      let next := if e.installed then .remove i after else after.pc
      { (p.setEntry i { e with session := e.session.close }).goto c next with
        log := if after = .other then p.log else .closed c e.streams :: p.log }
  | .remove i after =>
    if p.lock = none then
      some { p.goto c after.pc with pooled := if p.pooled = some i then none else p.pooled }
    else none
  | .unlock => some { p.goto c .dial with lock := none }
  | .relock i => if p.lock = none then some { p.goto c (.recheck i) with lock := some c } else none
  | .recheck i => (p.entries i).map fun e =>
    if p.vacant then
      { (p.setEntry i { e with installed := true }).goto c (.tryNew i) with pooled := some i }
    else { p.goto c (.close i .loop) with lock := none }
  | .tryNew i => (p.entries i).map fun e => p.tryAcquire c i e (.close i .loop)
  | .idle | .dial | .done => none

end State

variable (s : ClientSession) (now : Nat)

/-- What `release` does under the lock of the session. -/
def deactivate : ClientSession :=
  { s with active := false, lastActivity := now }

/-- A stream is released: what its session and its own record become. -/
def Entry.release (e : Entry) (now k : Nat) (stream : Stream) : Entry :=
  { e with
    session := deactivate e.session now
    streams := e.streams.set k { stream with released := true, releasing := stream.releasing - 1 } }

def step : Machine State Action
  | p, .tick => some { p with now := p.now + 1 }
  | p, .openStream c => if p.calls c = .idle then some (p.goto c .start) else none
  | p, .run c => p.advance c (p.calls c)
  | p, .dialed c i capabilities maxStreams opts =>
    if p.calls c = .dial ∧ p.entries i = none then
      let session := newClientSession p.now capabilities maxStreams opts
      some ((p.setEntry i { session, dialer := c }).goto c (.relock i))
    else none
  | p, .dialFailed c => if p.calls c = .dial then some (p.goto c .done) else none
  | p, .testReleased i k =>
    (p.entries i).bind fun e => e.streams[k]?.map fun stream =>
      if stream.released then p
      else p.setEntry i { e with
        streams := e.streams.set k { stream with releasing := stream.releasing + 1 } }
  | p, .release c i k reusable =>
    (p.entries i).bind fun e => e.streams[k]?.bind fun stream =>
      if p.calls c = .idle ∧ 0 < stream.releasing then
        let e := e.release p.now k stream
        let shouldClose := !reusable || !e.session.canOpenLocked p.now
        some ((p.setEntry i e).goto c (if shouldClose then .close i .other else .done))
      else none
  | p, .markActivity i =>
    (p.entries i).map fun e => p.setEntry i { e with session := e.session.markActivity p.now }
  | p, .expire c i =>
    (p.entries i).bind fun e =>
      let started := e.installed && (e.session.keepaliveEnabled || e.session.hasLifecycleTimers)
      if p.calls c = .idle ∧ started = true ∧ (e.session.checkLifecycle p.now).1 = false then
        some (p.goto c (.close i .other))
      else none
  | p, .close c i =>
    (p.entries i).bind fun e =>
      if p.calls c = .idle ∧ e.installed = true then some (p.goto c (.close i .other)) else none

/-- `OpenStream` closes no session with a stream that another caller has not released, and
hands out no session that is closed, has such a stream or has reached a limit. -/
def Event.Safe : Event → Prop
  | .closed caller streams => ∀ stream ∈ streams, stream.released = false → stream.caller = caller
  | .handedOut session streams =>
    session.closed = false ∧ (∀ stream ∈ streams, stream.released = true) ∧
      streams.length < session.maxStreams.toNat ∧
      (0 < session.maxRequests.toNat → streams.length < session.maxRequests.toNat)

/-- What holds of the pool: every event was safe, and no call waits for the lock that it has. -/
structure Safe (p : State) : Prop where
  events : ∀ event ∈ p.log, event.Safe
  waiting : ∀ c, p.lock = some c → (p.calls c).waits = false

def idleExpired : Bool :=
  s.idleTimeout > 0 ∧ now - s.lastActivity ≥ s.idleTimeout

/-- `OpenStream` finds no pooled session, one that can be opened, or a closed one; a new session
has not been idle for too long when it is opened for the first time; and a stream is not
released while it is being released. -/
def orderly (p : State) : Action → Bool
  | .run c =>
    match p.calls c with
    | .check =>
      (p.pooled.bind p.entries).all fun e => e.session.canOpenLocked p.now || e.session.closed
    | .tryNew i => (p.entries i).all fun e => !idleExpired e.session p.now
    | _ => true
  | .testReleased i k =>
    (p.entries i).all fun e => e.streams[k]?.all fun stream => stream.releasing = 0
  | _ => true

section Session

/-- A session that can not be opened now or later. -/
def Spent : Prop :=
  s.closed = true ∨ s.maxStreams ≤ s.streamCount ∨ (0 < s.maxAge ∧ s.maxAge ≤ now - s.createdAt)

variable {s : ClientSession}

lemma Spent.later {now later : Nat} (h : Spent s now) (hle : now ≤ later) : Spent s later := by
  obtain h | h | ⟨hpos, h⟩ := h
  · exact Or.inl h
  · exact Or.inr (Or.inl h)
  · exact Or.inr (Or.inr ⟨hpos, by omega⟩)

variable {now : Nat}

lemma not_spent_of_openable (h : s.Openable now) : ¬ Spent s now := by
  rintro (hclosed | hstrs | ⟨hpos, hage⟩)
  · simp [h.closed] at hclosed
  · exact absurd h.streams (UInt16.not_lt.mpr hstrs)
  · have hyoung := h.young hpos
    omega

/-- A session without streams that can not be opened is spent, or was idle for too long. -/
theorem spent_of_unused (h : s.canOpenLocked now = false)
    (hact : s.active = false) (hstrs : s.streamCount = 0) (hreqs : s.requestCount = 0)
    (hidle : idleExpired s now = false) : Spent s now := by
  by_contra hspent
  simp only [Spent, not_or, not_and, Bool.not_eq_true] at hspent
  obtain ⟨hclosed, hfree, hyoung⟩ := hspent
  have hidle := of_decide_eq_false hidle
  have hage : ¬ (s.maxAge > 0 ∧ now - s.createdAt ≥ s.maxAge) := fun hold => hyoung hold.1 hold.2
  have hlimit : ¬ (s.maxRequests > 0 ∧ s.requestCount ≥ s.maxRequests) := by
    rintro ⟨hpos, hle⟩
    rw [hreqs] at hle
    exact absurd hpos (UInt32.not_lt.mpr hle)
  have hreuse : ¬ (s.capabilities &&& reuse = 0 ∧ s.streamCount > 0) := by
    rintro ⟨-, hpos⟩
    rw [hstrs] at hpos
    exact absurd hpos (by decide)
  rw [ClientSession.canOpenLocked, hclosed, hact, if_neg (by decide), if_neg hreuse, if_neg hfree,
    if_neg hlimit, if_neg hage, if_neg hidle] at h
  cases h

end Session

namespace Entry

/-- A session and the streams handed out on it: it is active while one of them has not been
released, and counts them. -/
structure Ok (e : Entry) : Prop where
  active : e.streams.countP (fun stream => !stream.released) = e.session.active.toNat
  releasing : ∀ stream ∈ e.streams,
    stream.releasing ≤ 1 ∧ (stream.released = true → stream.releasing = 0)
  streamCount : e.session.streamCount.toNat = e.streams.length
  requestCount : e.session.requestCount.toNat = e.streams.length
  unused : e.installed = false → e.streams = []

lemma ok_new (now c : Nat) (capabilities maxStreams : UInt16) (opts : SessionOptions) :
    Ok { session := newClientSession now capabilities maxStreams opts, dialer := c } :=
  ⟨rfl, fun _ hmem => absurd hmem (by simp), rfl, rfl, fun _ => rfl⟩

variable {e : Entry} {now : Nat}

lemma Ok.all_released (h : e.Ok) (hact : e.session.active = false) :
    ∀ stream ∈ e.streams, stream.released := by
  have hcount := h.active
  rw [hact] at hcount
  intro stream hmem
  simpa using countP_eq_zero.mp hcount stream hmem

lemma Ok.of_unused (h : e.Ok) (hunused : e.streams = []) :
    e.session.active = false ∧ e.session.streamCount = 0 ∧ e.session.requestCount = 0 := by
  obtain ⟨hact, -, hstrs, hreqs, -⟩ := h
  rw [hunused] at hact hstrs hreqs
  refine ⟨?_, UInt16.toNat_inj.mp hstrs, UInt32.toNat_inj.mp hreqs⟩
  cases hcase : e.session.active with
  | false => rfl
  | true =>
    simp [hcase] at hact

lemma Ok.handedOut (h : e.Ok) (hopen : e.session.Openable now) :
    (Event.handedOut e.session e.streams).Safe := by
  refine ⟨hopen.closed, h.all_released hopen.active, ?_, fun hpos => ?_⟩
  · rw [← h.streamCount]
    exact UInt16.lt_iff_toNat_lt.mp hopen.streams
  · rw [← h.requestCount]
    exact UInt32.lt_iff_toNat_lt.mp (hopen.requests (UInt32.lt_iff_toNat_lt.mpr hpos))

variable {session : ClientSession}

lemma Ok.acquire (h : e.Ok) (hinst : e.installed)
    (hacq : e.session.tryAcquire now = some session) (c : Nat) :
    Ok { e with session, streams := e.streams ++ [{ caller := c }] } := by
  obtain ⟨hopen, rfl⟩ := tryAcquire_eq_some hacq
  have hbound := (h.handedOut hopen).2.2.1
  have hmax := e.session.maxStreams.toNat_lt
  refine ⟨?_, ?_, ?_, ?_, fun hnot => ?_⟩
  · rw [countP_append, h.active, hopen.active]
    rfl
  · intro stream hmem
    obtain hold | hnew := mem_append.mp hmem
    · exact h.releasing stream hold
    · obtain rfl := mem_singleton.mp hnew
      exact ⟨zero_le _, fun _ => rfl⟩
  · have hcount := h.streamCount
    rw [length_append, UInt16.toNat_add, hcount]
    exact mod_eq_of_lt (show e.streams.length + 1 < 2 ^ 16 by omega)
  · have hcount := h.requestCount
    rw [length_append, UInt32.toNat_add, hcount]
    exact mod_eq_of_lt (show e.streams.length + 1 < 2 ^ 32 by omega)
  · simp [hinst] at hnot

lemma Ok.set {k : Nat} {stream stream' : Stream} (h : e.Ok) (hk : e.streams[k]? = some stream)
    (hrelease : stream'.releasing ≤ 1 ∧ (stream'.released → stream'.releasing = 0))
    (hstrs : session.streamCount = e.session.streamCount)
    (hreqs : session.requestCount = e.session.requestCount)
    (hact : e.session.active.toNat - (!stream.released).toNat + (!stream'.released).toNat =
      session.active.toNat) : Ok { e with session, streams := e.streams.set k stream' } := by
  obtain ⟨hlt, hget⟩ := List.getElem?_eq_some_iff.mp hk
  refine ⟨?_, ?_, ?_, ?_, fun hnot => ?_⟩
  · rw [countP_set hlt, h.active, hget, ← hact]
    cases stream.released <;> cases stream'.released <;> rfl
  · intro other hmem
    obtain hold | rfl := mem_or_eq_of_mem_set hmem
    · exact h.releasing other hold
    · exact hrelease
  · rw [length_set, ← h.streamCount, ← hstrs]
  · rw [length_set, ← h.requestCount, ← hreqs]
  · rw [h.unused hnot, set_nil]

/-- What a call may rely on about the session that it is busy with. -/
def Allows (e : Entry) (now c : Nat) : Pc → Prop
  | .acquire _ => e.installed = true
  | .close _ .pooled => e.session.closed = true
  | .close _ .loop => e.dialer = c ∧ e.streams = [] ∧ (e.installed = false ∨ Spent e.session now)
  | .remove _ .pooled => False
  | .relock _ | .recheck _ => e.dialer = c ∧ e.installed = false
  | .tryNew _ => e.dialer = c ∧ e.installed = true ∧ e.streams = []
  | _ => True

/-- A change of a session that takes nothing from the calls. -/
structure Kept (e e' : Entry) : Prop where
  dialer : e'.dialer = e.dialer
  installed : e'.installed = e.installed
  streams : e.streams = [] → e'.streams = []
  closed : e.session.closed = true → e'.session.closed = true
  spent : ∀ now, Spent e.session now → Spent e'.session now

lemma Kept.refl (e : Entry) : e.Kept e := ⟨rfl, rfl, id, id, fun _ => id⟩

/-- A session that is closed now, or whose limits stay, is spent if it was. -/
theorem kept_of_session {streams : List Stream} (hstrs : e.streams = [] → streams = [])
    (hclosed : e.session.closed → session.closed)
    (hlimits : session.maxStreams = e.session.maxStreams ∧
      session.streamCount = e.session.streamCount ∧ session.maxAge = e.session.maxAge ∧
      session.createdAt = e.session.createdAt) : e.Kept { e with session, streams } := by
  refine ⟨rfl, rfl, hstrs, hclosed, fun now hspent => ?_⟩
  obtain ⟨hmax, hcount, hage, hcreated⟩ := hlimits
  unfold Spent at hspent ⊢
  rw [hmax, hcount, hage, hcreated]
  exact hspent.imp_left hclosed

variable {e' : Entry}

lemma Allows.remove {later c i : Nat} {after : After}
    (h : e.Allows now c (.remove i after)) : e'.Allows later c (.remove i after) := by
  cases after with
  | pooled => exact h
  | loop | other => trivial

lemma Allows.kept {later c : Nat} {pc : Pc} (h : e.Allows now c pc)
    (hkept : e.Kept e') (hle : now ≤ later) : e'.Allows later c pc := by
  cases pc with
  | idle | start | check | unlock | dial | done => trivial
  | acquire i => exact hkept.installed.trans h
  | close i after =>
    cases after with
    | pooled => exact hkept.closed h
    | loop =>
      obtain ⟨hdialer, hstrs, hspent⟩ := h
      refine ⟨hkept.dialer.trans hdialer, hkept.streams hstrs, ?_⟩
      exact hspent.imp hkept.installed.trans fun hspent => (hkept.spent _ hspent).later hle
    | other => trivial
  | remove i after => exact h.remove
  | relock i | recheck i => exact ⟨hkept.dialer.trans h.1, hkept.installed.trans h.2⟩
  | tryNew i => exact ⟨hkept.dialer.trans h.1, hkept.installed.trans h.2.1, hkept.streams h.2.2⟩

end Entry

/-- A call may be where it is. -/
def State.Allows (p : State) (c : Nat) (pc : Pc) : Prop :=
  ∀ i, pc.session = some i → ∃ e, p.entries i = some e ∧ e.Allows p.now c pc

/-- The lock is with the call that is where the lock is needed, every session is in order, the
pooled session knows the pool, and every call may be where it is. -/
structure Inv (p : State) : Prop where
  lock : ∀ c, (p.calls c).holds = true ↔ p.lock = some c
  entries : ∀ i e, p.entries i = some e → e.Ok
  pooled : ∀ i, p.pooled = some i → ∃ e, p.entries i = some e ∧ e.installed = true
  calls : ∀ c, p.Allows c (p.calls c)
  log : ∀ event ∈ p.log, event.Safe

lemma Inv.init : Inv {} := by
  constructor <;> simp [Pc.holds, State.Allows, Pc.session]

/-- A call with the lock that waits for it would be one that closes the pooled session. -/
theorem Inv.safe {p : State} (h : Inv p) : Safe p := by
  refine ⟨h.log, fun c hlock => ?_⟩
  have hholds := (h.lock c).mpr hlock
  have hallow := h.calls c
  generalize p.calls c = pc at hholds hallow
  cases pc with
  | remove i after =>
    cases after with
    | pooled =>
      obtain ⟨e, -, himp⟩ := hallow i rfl
      cases himp
    | loop | other => cases hholds
  | start | relock => cases hholds
  | _ => rfl

section Frame

variable {p p' : State} {c : Nat} {pc pc' : Pc}

lemma allows_none (h : pc.session = none) : p.Allows c pc := by
  intro i hi
  simp [h] at hi

variable {i : Nat} {e : Entry}

lemma allows_some (hi : pc.session = some i) (he : p.entries i = some e)
    (h : e.Allows p.now c pc) : p.Allows c pc := by
  intro j hj
  obtain rfl := some.inj (hi.symm.trans hj)
  exact ⟨e, he, h⟩

lemma State.Allows.kept (h : p.Allows c pc) (hle : p.now ≤ p'.now)
    (hkept : ∀ i e, p.entries i = some e → ∃ e', p'.entries i = some e' ∧ e.Kept e') :
    p'.Allows c pc := by
  intro i hi
  obtain ⟨e, he, hallow⟩ := h i hi
  obtain ⟨e', he', hkept⟩ := hkept i e he
  exact ⟨e', he', hallow.kept hkept hle⟩

variable {e e' : Entry}

/-- The other calls may be where they are after a change of one session that is right for
them. -/
theorem State.Allows.setEntry (h : p.Allows c pc) (he : p.entries i = some e)
    (hnow : p'.now = p.now) (hents : p'.entries = update p.entries i (some e'))
    (hallows : pc.session = some i → e.Allows p.now c pc → e'.Allows p.now c pc) :
    p'.Allows c pc := by
  intro j hj
  obtain ⟨old, hold, hallow⟩ := h j hj
  rw [hents, hnow]
  by_cases hij : j = i
  · subst hij
    obtain rfl := some.inj (he.symm.trans hold)
    exact ⟨e', update_self .., hallows hj hallow⟩
  · exact ⟨old, by rw [update_of_ne hij, hold], hallow⟩

lemma kept_setEntry (he : p.entries i = some e) (hkept : e.Kept e') :
    ∀ j old, p.entries j = some old →
      ∃ new, update p.entries i (some e') j = some new ∧ old.Kept new := by
  intro j old hold
  by_cases hij : j = i
  · subst hij
    obtain rfl := some.inj (he.symm.trans hold)
    exact ⟨e', update_self .., hkept⟩
  · exact ⟨old, by rw [update_of_ne hij, hold], .refl old⟩

lemma entries_setEntry (h : ∀ i e, p.entries i = some e → e.Ok)
    (hok : e.Ok) : ∀ j e', update p.entries i (some e) j = some e' → e'.Ok := by
  apply (forall_update_iff p.entries fun _ entry => ∀ e', entry = some e' → e'.Ok).mpr
  exact ⟨fun e' he' => some.inj he' ▸ hok, fun j _ => h j⟩

lemma calls_goto (h : ∀ c' ≠ c, p'.Allows c' (p.calls c')) (hc : p'.Allows c pc') :
    ∀ c', p'.Allows c' (update p.calls c pc' c') :=
  (forall_update_iff p.calls p'.Allows).mpr ⟨hc, h⟩

lemma lock_goto (h : ∀ c, (p.calls c).holds ↔ p.lock = some c) {lock : Option Nat}
    (hc : pc'.holds ↔ lock = some c) (hother : ∀ c' ≠ c, lock = some c' ↔ p.lock = some c') :
    ∀ c', (update p.calls c pc' c').holds ↔ lock = some c' := by
  apply (forall_update_iff p.calls fun c' pc => pc.holds ↔ lock = some c').mpr
  exact ⟨hc, fun c' hne => (h c').trans (hother c' hne).symm⟩

end Frame

section Step

variable {p : State} {c : Nat} {pc : Pc}

namespace Inv
variable (h : Inv p)
include h

lemma tick : Inv { p with now := p.now + 1 } := { h with
  calls := fun c => (h.calls c).kept (le_succ _) fun _ e he => ⟨e, he, .refl e⟩ }

/-- A call moves on, and may take the lock or give it back. -/
theorem goto (pc' : Pc) (hc : p.Allows c pc') {lock pooled : Option Nat}
    (hlock : pc'.holds ↔ lock = some c)
    (hother : ∀ c' ≠ c, lock = some c' ↔ p.lock = some c')
    (hpooled : ∀ i, pooled = some i → p.pooled = some i) :
    Inv { p.goto c pc' with lock, pooled } := { h with
  lock := lock_goto h.lock hlock hother
  pooled := fun i hi => h.pooled i (hpooled i hi)
  calls := calls_goto (fun c' _ => h.calls c') hc }

lemma goto_keep (hpc : p.calls c = pc) (pc' : Pc) (hc : p.Allows c pc')
    (hholds : pc'.holds = pc.holds) {pooled : Option Nat}
    (hpooled : ∀ i, pooled = some i → p.pooled = some i) : Inv { p.goto c pc' with pooled } := by
  have hlock := h.lock c
  rw [hpc, ← hholds] at hlock
  exact h.goto pc' hc hlock (fun _ _ => Iff.rfl) hpooled

lemma goto_take (hfree : p.lock = none) (pc' : Pc) (hc : p.Allows c pc')
    (hholds : pc'.holds) : Inv { p.goto c pc' with lock := some c } := by
  refine h.goto pc' hc (by simp [hholds]) (fun c' hne => ?_) fun _ => id
  rw [hfree]
  simp [hne.symm]

lemma goto_drop (hpc : p.calls c = pc) (hheld : pc.holds) (pc' : Pc) (hc : p.Allows c pc')
    (hholds : pc'.holds = false) : Inv { p.goto c pc' with lock := none } := by
  have hlock := (h.lock c).mp (hpc ▸ hheld)
  refine h.goto pc' hc (by simp [hholds]) (fun c' hne => ?_) fun _ => id
  rw [hlock]
  simp [hne.symm]

end Inv

variable {e : Entry} {i : Nat}

namespace Inv
variable (h : Inv p)
include h

/-- A change of a session that takes nothing from the calls, by a call that moves on. -/
theorem setEntry_goto (he : p.entries i = some e)
    (e' : Entry) (hok : e'.Ok) (hkept : e.Kept e') (pc' : Pc) (hc : (p.setEntry i e').Allows c pc')
    (hholds : pc'.holds = (p.calls c).holds) {log : List Event} (hlog : ∀ event ∈ log, event.Safe) :
    Inv { (p.setEntry i e').goto c pc' with log } where
  lock := lock_goto h.lock (by rw [hholds]; exact h.lock c) fun _ _ => Iff.rfl
  entries := entries_setEntry h.entries hok
  pooled := fun j hj => by
    obtain ⟨old, hold, hinst⟩ := h.pooled j hj
    obtain ⟨new, hnew, hkept⟩ := kept_setEntry he hkept j old hold
    exact ⟨new, hnew, hkept.installed.trans hinst⟩
  calls := calls_goto
    (fun c' _ => (h.calls c').kept le.refl (kept_setEntry he hkept)) hc
  log := hlog

lemma setEntry (he : p.entries i = some e) (e' : Entry)
    (hok : e'.Ok) (hkept : e.Kept e') : Inv (p.setEntry i e') := by
  have hsame := h.setEntry_goto (c := 0) he e' hok hkept (p.calls 0)
    ((h.calls 0).kept le.refl (kept_setEntry he hkept)) rfl h.log
  rwa [State.goto, State.setEntry, update_eq_self] at hsame

lemma holder_unique {c' : Nat} (hc : (p.calls c).holds) (hc' : (p.calls c').holds) : c' = c :=
  some.inj (((h.lock c').mp hc').symm.trans ((h.lock c).mp hc))

/-- A stream is handed out: the others have neither the lock nor a session that can still be
opened. -/
theorem tryAcquire (hpc : p.calls c = pc) (hheld : pc.holds) (he : p.entries i = some e)
    (hinst : e.installed) {otherwise : Pc} (hholds : otherwise.holds = false)
    (hfail : e.session.canOpenLocked p.now = false → p.Allows c otherwise) :
    Inv (p.tryAcquire c i e otherwise) := by
  subst hpc
  unfold State.tryAcquire
  split
  · rename_i session hacq
    obtain ⟨hopen, -⟩ := tryAcquire_eq_some hacq
    have hlock := (h.lock c).mp hheld
    refine ⟨lock_goto h.lock (by simp [Pc.holds]) (fun c' hne => by rw [hlock]; simp [hne.symm]),
      entries_setEntry h.entries ((h.entries i e he).acquire hinst hacq c), ?_, ?_, ?_⟩
    · intro j hj
      obtain ⟨old, hold, hold'⟩ := h.pooled j hj
      show ∃ e', update p.entries i _ j = some e' ∧ _
      by_cases hij : j = i
      · subst hij
        exact ⟨_, update_self .., hinst⟩
      · exact ⟨old, by rw [update_of_ne hij, hold], hold'⟩
    · refine calls_goto (fun c' hne => (h.calls c').setEntry he rfl rfl fun hsess hallow => ?_)
        (allows_none rfl)
      have hnot : (p.calls c').holds = false := by
        by_contra htrue
        exact hne (h.holder_unique hheld (by simpa using htrue))
      generalize p.calls c' = pc at hnot hallow
      cases pc with
      | close j after =>
        cases after with
        | pooled => cases hnot
        | loop =>
          obtain hfresh | hspent := hallow.2.2
          · simp [hinst] at hfresh
          · exact absurd hspent (not_spent_of_openable hopen)
        | other => trivial
      | tryNew j => cases hnot
      | remove j after => exact hallow.remove
      | _ => exact hallow
    · exact forall_mem_cons.mpr ⟨(h.entries i e he).handedOut hopen, h.log⟩
  · rename_i hacq
    have hclosed : e.session.canOpenLocked p.now = false := by
      cases hopen : e.session.canOpenLocked p.now with
      | false => rfl
      | true => simp [ClientSession.tryAcquire, hopen] at hacq
    exact h.goto_drop rfl hheld otherwise (hfail hclosed) hholds

lemma entry (hpc : p.calls c = pc)
    (hsess : pc.session = some i) (he : p.entries i = some e) : e.Allows p.now c pc := by
  obtain ⟨e', he', hallow⟩ := h.calls c i (hpc ▸ hsess)
  obtain rfl := some.inj (he.symm.trans he')
  exact hpc ▸ hallow

/-- A new session becomes the pooled one: no other call is busy with it. -/
theorem install (hpc : p.calls c = .recheck i) (he : p.entries i = some e) :
    Inv { (p.setEntry i { e with installed := true }).goto c (.tryNew i) with pooled := some i } := by
  have hallow := h.entry hpc rfl he
  have hok := h.entries i e he
  have hunused := hok.unused hallow.2
  refine ⟨lock_goto h.lock ?_ fun _ _ => Iff.rfl, entries_setEntry h.entries ?_, ?_, ?_, h.log⟩
  · have hlock := h.lock c
    rwa [hpc] at hlock
  · exact { hok with unused := fun _ => hunused }
  · rintro j hj
    cases hj
    exact ⟨_, update_self .., rfl⟩
  · refine calls_goto (fun c' hne => (h.calls c').setEntry he rfl rfl fun hsess hother => ?_)
      (allows_some rfl (update_self ..) ⟨hallow.1, rfl, hunused⟩)
    generalize p.calls c' = pc at hother
    cases pc with
    | acquire j => rfl
    | close j after =>
      cases after with
      | pooled => exact hother
      | loop => exact absurd (hother.1.symm.trans hallow.1) hne
      | other => trivial
    | relock j | recheck j | tryNew j => exact absurd (hother.1.symm.trans hallow.1) hne
    | remove j after => exact hother.remove
    | _ => trivial

end Inv

lemma holds_after (i : Nat) (after : After) : after.pc.holds = (Pc.close i after).holds := by
  cases after <;> rfl

variable (h : Inv p)
include h

/-- `close` of a session that is not closed: it is not the pooled one, and if it is the new one
of `OpenStream` then it has no streams. -/
theorem Inv.close {after : After} (hpc : p.calls c = .close i after)
    (he : p.entries i = some e) (hopen : e.session.closed = false) :
    Inv { (p.setEntry i { e with session := e.session.close }).goto c
        (if e.installed then .remove i after else after.pc) with
      log := if after = .other then p.log else .closed c e.streams :: p.log } := by
  have hok := h.entries i e he
  have hallow := h.entry hpc rfl he
  have hpooled : after ≠ .pooled := by
    rintro rfl
    simp [show e.session.closed from hallow] at hopen
  apply h.setEntry_goto he
  · exact { hok with }
  · exact Entry.kept_of_session id (fun _ => rfl) ⟨rfl, rfl, rfl, rfl⟩
  · split
    · apply allows_some rfl (update_self ..)
      cases after with
      | pooled => exact absurd rfl hpooled
      | loop | other => trivial
    · cases after with
      | pooled => exact absurd rfl hpooled
      | loop | other => exact allows_none rfl
  · rw [hpc]
    split
    · cases after <;> rfl
    · exact holds_after i after
  · cases after with
    | pooled => exact absurd rfl hpooled
    | other => exact h.log
    | loop =>
      refine forall_mem_cons.mpr ⟨fun stream hmem => ?_, h.log⟩
      simp [hallow.2.1] at hmem

variable {p' : State}

lemma Inv.advance (hpc : p.calls c = pc)
    (horder : orderly p (.run c)) (hstep : p.advance c pc = some p') : Inv p' := by
  simp only [orderly, hpc] at horder
  cases pc with
  | idle | dial | done => cases hstep
  | start =>
    obtain ⟨hfree, rfl⟩ := ite_some_none_eq_some.mp hstep
    exact h.goto_take hfree .check (allows_none rfl) rfl
  | check =>
    simp only [State.advance] at hstep
    split at hstep
    · cases hstep
      exact h.goto_drop hpc rfl .dial (allows_none rfl) rfl
    · rename_i i hi
      obtain ⟨e, he, rfl⟩ := map_eq_some_iff.mp hstep
      obtain ⟨e', he', hinst⟩ := h.pooled i hi
      obtain rfl := some.inj (he.symm.trans he')
      by_cases hopen : e.session.canOpenLocked p.now
      · rw [if_pos hopen]
        exact h.goto_keep hpc (.acquire i) (allows_some rfl he hinst) rfl fun _ => id
      · rw [if_neg hopen]
        have hclosed : e.session.closed := by
          simpa [hi, he, hopen] using horder
        exact h.goto_keep hpc (.close i .pooled) (allows_some rfl he hclosed) rfl nofun
  | acquire i =>
    obtain ⟨e, he, rfl⟩ := map_eq_some_iff.mp hstep
    exact h.tryAcquire hpc rfl he (h.entry hpc rfl he) rfl fun _ => allows_none rfl
  | close i after =>
    obtain ⟨e, he, rfl⟩ := map_eq_some_iff.mp hstep
    by_cases hclosed : e.session.closed
    · rw [if_pos hclosed]
      refine h.goto_keep hpc after.pc ?_ (holds_after i after) fun _ => id
      cases after <;> exact allows_none rfl
    · rw [if_neg hclosed]
      exact h.close hpc he (by simpa using hclosed)
  | remove i after =>
    obtain ⟨hfree, rfl⟩ := ite_some_none_eq_some.mp hstep
    refine h.goto_keep hpc after.pc ?_ ?_ fun j hj => ?_
    · cases after <;> exact allows_none rfl
    · cases after <;> rfl
    · split at hj
      · cases hj
      · exact hj
  | unlock =>
    cases hstep
    exact h.goto_drop hpc rfl .dial (allows_none rfl) rfl
  | relock i =>
    obtain ⟨hfree, rfl⟩ := ite_some_none_eq_some.mp hstep
    obtain ⟨e, he, -⟩ := h.calls c i (by rw [hpc]; rfl)
    have hallow := h.entry hpc rfl he
    exact h.goto_take hfree (.recheck i) (allows_some rfl he hallow) rfl
  | recheck i =>
    obtain ⟨e, he, rfl⟩ := map_eq_some_iff.mp hstep
    split
    · exact h.install hpc he
    · obtain ⟨hdialer, hfresh⟩ := h.entry hpc rfl he
      have hunused := (h.entries i e he).unused hfresh
      exact h.goto_drop hpc rfl (.close i .loop)
        (allows_some rfl he ⟨hdialer, hunused, Or.inl hfresh⟩) rfl
  | tryNew i =>
    obtain ⟨e, he, rfl⟩ := map_eq_some_iff.mp hstep
    obtain ⟨hdialer, hinst, hunused⟩ := h.entry hpc rfl he
    refine h.tryAcquire hpc rfl he hinst rfl fun hfail => ?_
    obtain ⟨hact, hstrs, hreqs⟩ := (h.entries i e he).of_unused hunused
    have hidle : idleExpired e.session p.now = false := by simpa [he] using horder
    have hspent := spent_of_unused hfail hact hstrs hreqs hidle
    exact allows_some rfl he ⟨hdialer, hunused, Or.inr hspent⟩

/-- A session that was dialed is known to no one but its call. -/
theorem Inv.dialed (hpc : p.calls c = .dial) (hnew : p.entries i = none)
    (capabilities maxStreams : UInt16) (opts : SessionOptions) : Inv ((p.setEntry i {
      session := newClientSession p.now capabilities maxStreams opts
      dialer := c }).goto c (.relock i)) := by
  have hold : ∀ j e, p.entries j = some e → j ≠ i := by
    rintro j e he rfl
    simp [hnew] at he
  refine ⟨lock_goto h.lock ?_ fun _ _ => Iff.rfl,
    entries_setEntry h.entries (Entry.ok_new ..), ?_, ?_, h.log⟩
  · have hlock := h.lock c
    rwa [hpc] at hlock
  · intro j hj
    obtain ⟨e, he, hinst⟩ := h.pooled j hj
    exact ⟨e, (update_of_ne (hold j e he) ..).trans he, hinst⟩
  · refine calls_goto (fun c' _ => (h.calls c').kept le.refl fun j e he => ?_)
      (allows_some rfl (update_self ..) ⟨rfl, rfl⟩)
    exact ⟨e, (update_of_ne (hold j e he) ..).trans he, .refl e⟩

variable {stream : Stream}

/-- The test in `release` is passed once before the stream is released. -/
theorem Inv.testReleased {k : Nat} (he : p.entries i = some e) (hk : e.streams[k]? = some stream)
    (hreleased : stream.released = false) (hrelease : stream.releasing = 0) :
    Inv (p.setEntry i { e with
      streams := e.streams.set k { stream with releasing := stream.releasing + 1 } }) := by
  apply h.setEntry he
  · apply (h.entries i e he).set hk
    · rw [hrelease]
      exact ⟨le.refl, fun htrue => by rw [hreleased] at htrue; cases htrue⟩
    · rfl
    · rfl
    · have hact : 0 < e.session.active.toNat := by
        rw [← (h.entries i e he).active, countP_pos_iff]
        exact ⟨stream, mem_of_getElem? hk, by simp [hreleased]⟩
      simp only [hreleased, Bool.not_false, Bool.toNat_true]
      omega
  · refine Entry.kept_of_session (fun hnil => ?_) id ⟨rfl, rfl, rfl, rfl⟩
    rw [hnil, set_nil]

lemma Inv.release {k : Nat} (hidle : p.calls c = .idle)
    (he : p.entries i = some e) (hk : e.streams[k]? = some stream) (hrelease : 0 < stream.releasing)
    (close : Bool) :
    Inv ((p.setEntry i (e.release p.now k stream)).goto c
        (if close then .close i .other else .done)) := by
  have hok := h.entries i e he
  have hstr := hok.releasing stream (mem_of_getElem? hk)
  have hreleased : stream.released = false := by
    by_contra htrue
    have hzero := hstr.2 (by simpa using htrue)
    omega
  apply h.setEntry_goto he
  · apply hok.set hk
    · exact ⟨by dsimp only; omega, fun _ => by dsimp only; omega⟩
    · rfl
    · rfl
    · have hle := Bool.toNat_le e.session.active
      simp only [hreleased, Bool.not_false, Bool.not_true, Bool.toNat_true, Bool.toNat_false,
        deactivate]
      omega
  · refine Entry.kept_of_session (fun hnil => ?_) (fun hclosed => hclosed) ⟨rfl, rfl, rfl, rfl⟩
    rw [hnil, set_nil]
  · cases close with
    | true => exact allows_some rfl (update_self ..) trivial
    | false => exact allows_none rfl
  · rw [hidle]
    cases close <;> rfl
  · exact h.log

lemma Inv.step {a : Action} (horder : orderly p a) (hstep : step p a = some p') : Inv p' := by
  cases a with
  | tick =>
    cases hstep
    exact h.tick
  | openStream c =>
    obtain ⟨hidle, rfl⟩ := ite_some_none_eq_some.mp hstep
    exact h.goto_keep hidle .start (allows_none rfl) rfl fun _ => id
  | run c => exact h.advance rfl horder hstep
  | dialed c i capabilities maxStreams opts =>
    obtain ⟨⟨hpc, hnew⟩, rfl⟩ := ite_some_none_eq_some.mp hstep
    exact h.dialed hpc hnew capabilities maxStreams opts
  | dialFailed c =>
    obtain ⟨hpc, rfl⟩ := ite_some_none_eq_some.mp hstep
    exact h.goto_keep hpc .done (allows_none rfl) rfl fun _ => id
  | testReleased i k =>
    obtain ⟨e, he, hstep⟩ := bind_eq_some_iff.mp hstep
    obtain ⟨stream, hk, rfl⟩ := map_eq_some_iff.mp hstep
    split
    · exact h
    · rename_i hreleased
      exact h.testReleased he hk (by simpa using hreleased) (by simpa [orderly, he, hk] using horder)
  | release c i k reusable =>
    obtain ⟨e, he, hstep⟩ := bind_eq_some_iff.mp hstep
    obtain ⟨stream, hk, hstep⟩ := bind_eq_some_iff.mp hstep
    obtain ⟨⟨hidle, hrelease⟩, rfl⟩ := ite_some_none_eq_some.mp hstep
    exact h.release hidle he hk hrelease _
  | markActivity i =>
    obtain ⟨e, he, rfl⟩ := map_eq_some_iff.mp hstep
    have hok := h.entries i e he
    exact h.setEntry he _
      { hok with }
      (Entry.kept_of_session id id ⟨rfl, rfl, rfl, rfl⟩)
  | expire c i | close c i =>
    obtain ⟨e, he, hstep⟩ := bind_eq_some_iff.mp hstep
    obtain ⟨⟨hidle, -⟩, rfl⟩ := ite_some_none_eq_some.mp hstep
    exact h.goto_keep hidle (.close i .other) (allows_some rfl he trivial) rfl fun _ => id

end Step

/-- In every run in which `OpenStream` never finds a session that is busy, exhausted or expired
and not closed, the pool is safe. -/
theorem pool_safe {p : State} (h : Reaches step (fun p a => orderly p a = true) {} p) : Safe p :=
  (h.invariant Inv.init fun horder hstep hinv => hinv.step horder hstep).safe

/-- A session of two streams is opened, released and opened again, and then released, closed
and replaced. -/
def reusing : List Action :=
  [.openStream 0, .run 0, .run 0, .dialed 0 0 reuse 2 {}, .run 0, .run 0, .run 0, .tick,
    .testReleased 0 0, .release 1 0 0 true, .openStream 2, .run 2, .run 2, .run 2,
    .testReleased 0 1, .release 3 0 1 true, .run 3, .openStream 4, .run 4, .run 4, .run 4, .run 4,
    .run 3, .dialed 4 1 reuse 2 {}, .run 4, .run 4, .run 4]

theorem pool_safe_reusing :
    ∃ p, runChecked step orderly {} reusing = some p ∧ p.log.length = 3 ∧ Safe p := by
  refine exists_end (by decide) fun hp => ⟨by decide, ?_⟩
  exact pool_safe (Reaches.start.runChecked (fun _ _ h => h) hp)

/-- One caller has the stream of the pooled session when the next one calls `OpenStream`. -/
def twoCallers : List Action :=
  [.openStream 0, .run 0, .run 0, .dialed 0 0 reuse 4 {}, .run 0, .run 0, .run 0,
    .openStream 1, .run 1, .run 1, .run 1]

/-- The second caller closes the session of the first, and waits for the lock that it has. -/
theorem busy_session_closed :
    ∃ p, run step {} twoCallers = some p ∧ p.lock = some 1 ∧ (p.calls 1).waits = true ∧
      Event.closed 1 [{ caller := 0 }] ∈ p.log ∧ ¬ Safe p := by
  refine exists_end (by decide) fun _ => ⟨by decide, by decide, by decide, fun hsafe => ?_⟩
  exact absurd (hsafe.waiting 1 (by decide)) (by decide)

end SingBox.Shuttle.Pool
