import Mathlib.Algebra.Group.Nat.Defs
import Mathlib.Data.List.Basic

/-! The servers of the DHCP transport. A failed attempt is saved as `lastError`, which queries
repeat without looking at its time. -/

namespace SingBox.Dns.Dhcp

variable {S : Type} [DecidableEq S]

/-- `transportState`; the transport of a server is written as the server. -/
structure State (S : Type) where
  updatedAt : Nat
  lastError : Option String
  servers : List S
  serverTransports : Option (List S)

/-- `C.DHCPTTL`, in nanoseconds. -/
def dhcpTTL : Nat := 3600 * 10 ^ 9

inductive Reply (S : Type)
  | cold
  | failed (text : String)
  | exchange (serverTransports : List S) (refresh : Bool)

variable (saved : Option (State S)) (now : Nat)

def exchangeAsync : Reply S :=
  match saved with
  | none => .cold
  | some state =>
    match state.lastError, state.serverTransports.getD [] with
    | some err, _ => .failed ("dhcp: fetch DNS servers: " ++ err)
    | none, [] => .cold
    | none, transports => .exchange transports (decide (dhcpTTL ≤ now - state.updatedAt))

/-- What `fetch` returns without an attempt, if it makes none. -/
def fetch : Option (Option String) :=
  saved.bind fun state =>
    match state.lastError with
    | some err => some (some err)
    | none => if now - state.updatedAt < dhcpTTL then some none else none

/-- An offer, with the error of the first transport that does not start. -/
structure Offer (S : Type) where
  servers : List S
  startError : Option String

/-- One run of `updateServersLocked`: the error of `fetchInterface`, the offer that was taken, the
error of the exchange, and whether the context was cancelled. -/
structure Attempt (S : Type) where
  interfaceError : Option String
  offer : Option (Offer S)
  err : Option String
  cancelled : Bool
  answered : offer = none → err ≠ none

def recreateServersLocked (previous : Option (State S)) (offer : Offer S) (now : Nat) :
    Option (State S) × Option String :=
  match previous.bind fun state => if state.servers = offer.servers then state.serverTransports
    else none,
    offer.startError with
  | some transports, _ => (some ⟨now, none, offer.servers, some transports⟩, none)
  | none, some err => (previous, some err)
  | none, none => (some ⟨now, none, offer.servers, some offer.servers⟩, none)

def storeFailureLocked (err : String) : Option (State S) :=
  some ⟨now, some err, (saved.map State.servers).getD [], saved.bind State.serverTransports⟩

def fetchServers0 (a : Attempt S) (now : Nat) (saved : Option (State S)) :
    Option (State S) × Option String :=
  match a.offer with
  | none => (saved, a.err)
  | some offer =>
    let recreated := recreateServersLocked saved offer now
    (recreated.1, a.err.or recreated.2)

def updateServersLocked (a : Attempt S) (now : Nat) (saved : Option (State S)) :
    Option (State S) × Option String :=
  match a.interfaceError with
  | some err => (storeFailureLocked saved now err, some ("prepare interface: " ++ err))
  | none =>
    let fetched := fetchServers0 a now saved
    match fetched.2 with
    | some err => (if a.cancelled then fetched.1 else storeFailureLocked fetched.1 now err, some err)
    | none =>
      if (fetched.1.map State.servers).getD [] = [] then
        (storeFailureLocked fetched.1 now "dhcp: empty DNS servers response",
          some "dhcp: empty DNS servers response")
      else (fetched.1, none)

/-- A run of `updateServersLocked`, from a query, a refresh or a change of the interface, or
`Reset`. -/
inductive Event (S : Type)
  | attempt (a : Attempt S)
  | reset

/-- The servers an attempt makes known: those of an offer whose transports start. -/
def Attempt.known (a : Attempt S) : Option (List S) :=
  match a.interfaceError, a.offer with
  | none, some offer => if offer.startError = none ∧ offer.servers ≠ [] then some offer.servers
      else none
  | _, _ => none

/-- The saved state, the time of the last event, that of the last attempt if it failed, and the
servers of the last offer since a reset. -/
structure World (S : Type) where
  saved : Option (State S) := none
  clock : Nat := 0
  failedAt : Option Nat := none
  offered : Option (List S) := none

/-- An event after the time `wait`. -/
def World.step (w : World S) (wait : Nat) : Event S → World S
  | .attempt a =>
    let updated := updateServersLocked a (w.clock + wait) w.saved
    ⟨updated.1, w.clock + wait, updated.2.map fun _ => w.clock + wait, a.known.or w.offered⟩
  | .reset => { w with saved := none, clock := w.clock + wait, offered := none }

def run (events : List (Nat × Event S)) : World S := events.foldl (fun w e => w.step e.1 e.2) {}

/-- A query starts an attempt, by `fetch` or as a refresh. -/
def Starts : Prop :=
  match exchangeAsync saved now with
  | .cold => fetch saved now = none
  | .failed _ => False
  | .exchange _ refresh => refresh = true

/-- After a failed attempt a query asks the servers of the last offer, if there was one, and starts
a new attempt once the time is over. -/
def Recovers (w : World S) : Prop :=
  ∀ failedAt now, w.failedAt = some failedAt → (failedAt + dhcpTTL ≤ now → Starts w.saved now) ∧
    ∀ servers, w.offered = some servers →
      ∃ refresh, exchangeAsync w.saved now = .exchange servers refresh

/-- The attempt finds an interface, an offer has servers, and it fails only if it is cancelled. -/
structure Attempt.Kept (a : Attempt S) : Prop where
  interface : a.interfaceError = none
  err : a.err ≠ none → a.cancelled = true
  offer : ∀ offer, a.offer = some offer →
    offer.servers ≠ [] ∧ (offer.startError ≠ none → a.cancelled = true)

/-- No error is saved, and the servers are those of the last offer. -/
structure Fresh (saved : Option (State S)) (now : Nat) (offered : Option (List S)) : Prop where
  servers : saved.map State.servers = offered
  state : ∀ state, saved = some state → state.lastError = none ∧ state.updatedAt ≤ now ∧
    state.servers ≠ [] ∧ state.serverTransports = some state.servers

variable {saved : Option (State S)} {a : Attempt S} {now : Nat} {offered : Option (List S)}

lemma fetchServers0_fresh (ha : a.Kept) (h : Fresh saved now offered) :
    Fresh (fetchServers0 a now saved).1 now (a.known.or offered) ∧
      (∀ err, (fetchServers0 a now saved).2 = some err → a.cancelled) ∧
      ((fetchServers0 a now saved).2 = none →
        ((fetchServers0 a now saved).1.map State.servers).getD [] ≠ []) := by
  cases ho : a.offer with
  | none =>
    simp only [fetchServers0, Attempt.known, ho, ha.interface]
    exact ⟨h, fun err he => ha.err (by simp [he]), fun hnone => absurd hnone (a.answered ho)⟩
  | some offer =>
    obtain ⟨hservers, hstart⟩ := ha.offer offer ho
    have herr := ha.err
    have hnew : Fresh (some ⟨now, none, offer.servers, some offer.servers⟩) now
        (some offer.servers) := by
      refine ⟨rfl, ?_⟩
      rintro _ ⟨⟩
      exact ⟨rfl, Nat.le_refl now, hservers, rfl⟩
    simp only [fetchServers0, recreateServersLocked, Attempt.known, ho, ha.interface]
    split
    · next transports hsame =>
      -- The transports of the same servers go on.
      obtain ⟨state, rfl, hsame⟩ := Option.bind_eq_some_iff.mp hsame
      obtain ⟨heq, htransports⟩ := Option.ite_none_right_eq_some.mp hsame
      obtain rfl : offer.servers = transports :=
        Option.some_inj.mp (heq ▸ (h.state state rfl).2.2.2.symm.trans htransports)
      refine ⟨?_, fun err he => herr (by simp_all), fun _ => hservers⟩
      have hoffered : offered = some offer.servers := h.servers.symm.trans (congrArg some heq)
      rw [hoffered]
      split <;> exact hnew
    · next err _ hfails =>
      refine ⟨?_, fun _ _ => hstart (by simp [hfails]), by simp⟩
      simpa [hfails] using h
    · next hstarts =>
      refine ⟨?_, fun err he => herr (by simp_all), fun _ => hservers⟩
      simpa [hstarts, hservers] using hnew

lemma updateServersLocked_fresh (ha : a.Kept) (h : Fresh saved now offered) :
    Fresh (updateServersLocked a now saved).1 now (a.known.or offered) := by
  obtain ⟨hfresh, hcancelled, hservers⟩ := fetchServers0_fresh ha h
  simp only [updateServersLocked, ha.interface]
  split
  · next err he => simpa [hcancelled err he] using hfresh
  · next hnone => simpa [hservers hnone] using hfresh

/-- In a run whose attempts do not fail unless cancelled, queries recover from each failure. -/
theorem recovers_of_kept (events : List (Nat × Event S))
    (h : ∀ wait a, (wait, Event.attempt a) ∈ events → a.Kept) : Recovers (run events) := by
  have hfresh : Fresh (run events).saved (run events).clock (run events).offered ∧
      ∀ t, (run events).failedAt = some t → Fresh (run events).saved t (run events).offered := by
    apply List.foldlRecOn (motive := fun w : World S => Fresh w.saved w.clock w.offered ∧
      ∀ t, w.failedAt = some t → Fresh w.saved t w.offered)
    · exact ⟨⟨rfl, nofun⟩, nofun⟩
    · rintro w ⟨hclock, -⟩ ⟨wait, a | _⟩ ha
      · have hnow : Fresh w.saved (w.clock + wait) w.offered := { hclock with
          state := fun state hst => (hclock.state state hst).imp_right
              (.imp_left Nat.le_add_right_of_le) }
        have hupdated := updateServersLocked_fresh (h wait a ha) hnow
        refine ⟨hupdated, fun t ht => ?_⟩
        obtain ⟨_, _, rfl⟩ := Option.map_eq_some_iff.mp ht
        exact hupdated
      · exact ⟨⟨rfl, nofun⟩, fun _ _ => ⟨rfl, nofun⟩⟩
  intro t now ht
  obtain ⟨hservers, hstate⟩ := hfresh.2 t ht
  generalize (run events).saved = saved at hservers hstate
  rw [← hservers]
  obtain - | state := saved
  · simp [Starts, exchangeAsync, fetch]
  · obtain ⟨hnone, hle, hne, htrans⟩ := hstate state rfl
    have hasked : exchangeAsync (some state) now =
        .exchange state.servers (decide (dhcpTTL ≤ now - state.updatedAt)) := by
      simp only [exchangeAsync, hnone, htrans, Option.getD_some]
    constructor
    · intro hlate
      simp only [Starts, hasked, decide_eq_true_eq]
      omega
    · rintro _ ⟨⟩
      exact ⟨_, hasked⟩

/-- A refresh is cancelled while the server of an offer is known. -/
theorem recovers_cancelled :
    let w : World Nat := run [(0, .attempt ⟨none, some ⟨[1], none⟩, none, false, nofun⟩),
      (dhcpTTL, .attempt ⟨none, none, some "context canceled", true, nofun⟩)]
    w.failedAt = some dhcpTTL ∧ w.offered = some [1] ∧ Recovers w := by
  refine ⟨rfl, rfl, recovers_of_kept _ fun wait a h => ?_⟩
  simp only [List.mem_cons, List.not_mem_nil, Prod.mk.injEq, Event.attempt.injEq, or_false] at h
  obtain ⟨-, rfl⟩ | ⟨-, rfl⟩ := h
  · refine ⟨rfl, nofun, ?_⟩
    rintro _ ⟨⟩
    exact ⟨nofun, nofun⟩
  · exact ⟨rfl, fun _ => rfl, nofun⟩

/-- One failure after an offer: an hour later the error is repeated, and the server is not asked. -/
theorem failure_final : ¬ Recovers (run [(0, .attempt ⟨none, some ⟨[1], none⟩, none, false, nofun⟩),
    (1, .attempt ⟨some "missing default interface", none, some "", false, nofun⟩)] : World Nat) := by
  intro h
  exact (h 1 (1 + dhcpTTL) rfl).1 (Nat.le_refl _)

end SingBox.Dns.Dhcp
