import SingBox.Lib.Machine

/-! The two races of a dial to addresses of both families. -/

namespace SingBox.Dialer
open Lib Machine Function

/-- The addresses are dialled in turn until there is a connection. -/
def dialSerialNetwork (outcomes : List Bool) : Bool := outcomes.any id

/-- Where a racer stands, and whether it has a connection. -/
inductive Racer
  | idle | dialing
  | sending (conn : Bool)
  | ended (conn : Bool)
  deriving DecidableEq

/-- The primary racer is `true`; it is the only one if all addresses are of one family, which is
dialled without a race. -/
structure Dial where
  single : Bool
  racer : Bool → Racer := fun primary => if primary then .dialing else .idle
  started : Bool → Nat := fun primary => if primary then 1 else 0
  /-- The timer is armed, or it has fired and this was not taken. -/
  timer : Bool := !single
  done : Bool → Bool := fun _ => false
  /-- The connection of a racer, or an error. -/
  returned : Option (Option Bool) := none
  /-- The dial of the racer succeeded before the function returned. -/
  won : Bool → Bool := fun _ => false
  closed : Bool → Bool := fun _ => false

inductive Action
  | startFallback
  | finish (primary : Bool) (outcomes : List Bool)
  | receive (primary : Bool)
  | close (primary : Bool)

namespace Dial

/-- A primary that fails stops the timer and resets it to fire at once, if it was not taken: either
way it is as before. -/
def step : Machine Dial Action
  | s, .startFallback =>
    if s.returned = none ∧ s.timer then some { s with
      timer := false
      racer := update s.racer false .dialing
      started := update s.started false (s.started false + 1) }
    else none
  | s, .finish p outcomes =>
    if s.racer p = .dialing then some { s with
      racer := update s.racer p (.sending (dialSerialNetwork outcomes))
      won := update s.won p (dialSerialNetwork outcomes && s.returned.isNone) }
    else none
  | s, .receive p =>
    match s.returned, s.racer p with
    | none, .sending true => some { s with
        racer := update s.racer p (.ended true)
        returned := some (some p) }
    | none, .sending false =>
      let done := update s.done p true
      some { s with
        racer := update s.racer p (.ended false)
        done
        returned := if s.single ∨ done true ∧ done false then some none else none }
    | _, _ => none
  | s, .close p =>
    match s.returned, s.racer p with
    | some _, .sending conn => some { s with
        racer := update s.racer p (.ended conn)
        closed := update s.closed p conn }
    | _, _ => none

/-- A connection is returned of a race that had one, and an error when all have failed; any other
connection is closed. -/
structure Settled (s : Dial) : Prop where
  conn : ∀ p, s.returned = some (some p) → s.won p = true ∧ s.racer p = .ended true
  failed : s.returned = some none → (∀ p, s.won p = false) ∧ s.racer true = .ended false ∧
    (s.single = true ∨ s.racer false = .ended false)
  closed : ∀ p, s.racer p = .ended true → (s.closed p = true ↔ s.returned ≠ some (some p))

/-- The end of a dial: it has returned, a connection just if a race had one, and the connections of
the other races are closed. -/
structure Ended (s : Dial) : Prop where
  returned : s.returned ≠ none
  conn : (∃ p, s.returned = some (some p)) ↔ ∃ p, s.won p = true
  racers : ∀ p, s.racer p = .idle ∨ s.racer p = .ended false ∨
    s.racer p = .ended true ∧ (s.closed p = true ↔ s.returned ≠ some (some p))

/-- Also, each race is started once at most, one that has a connection too late closes it, and a
dial that can do no more is at its end. -/
structure Sound (s : Dial) : Prop extends s.Settled where
  once : ∀ p, s.started p ≤ 1
  closes : ∀ p, s.returned ≠ none → s.racer p = .sending true →
    ∃ t, step s (.close p) = some t ∧ t.closed p = true
  ends : (∀ a, step s a = none) → s.Ended

/-- Which races were started, and that the timer is to start the other one. -/
structure Launched (s : Dial) : Prop where
  started : ∀ p, s.started p = if s.racer p = .idle then 0 else 1
  primary : s.racer true ≠ .idle
  single : s.single = true → s.racer false = .idle
  timer : s.returned = none → (s.timer = true ↔ s.racer false = .idle ∧ s.single = false)

/-- Until there is a result, the connections that were made are on their way, and not all races have
failed. -/
structure Inv (s : Dial) : Prop extends s.Settled, s.Launched where
  running : s.returned = none → ∀ p, (s.won p = true ↔ s.racer p = .sending true) ∧
    s.racer p ≠ .ended true ∧ (s.done p = true ↔ s.racer p = .ended false) ∧ s.closed p = false
  pending : s.returned = none → s.done true = true → s.single = false ∧ s.done false = false

variable {s t : Dial}

/-- A race that was started goes on. -/
theorem Launched.move (h : s.Launched) {p : Bool} {r : Racer} (hp : s.racer p ≠ .idle)
    (hr : r ≠ .idle) {returned : Option (Option Bool)} (hret : returned = none → s.returned = none)
    (done won closed : Bool → Bool) :
    Launched { s with racer := update s.racer p r, done, returned, won, closed } := by
  have hidle q : update s.racer p r q = .idle ↔ s.racer q = .idle := by grind [update_apply]
  constructor
  · simpa only [hidle] using h.started
  · simpa only [ne_eq, hidle] using h.primary
  · simpa only [hidle] using h.single
  · simpa only [hidle] using fun hnone => h.timer (hret hnone)

lemma Inv.step {a : Action} (h : s.Inv) (ht : Dial.step s a = some t) : t.Inv := by
  have ⟨⟨hconn, hfailed, hclosed⟩, hlaunched, hrunning, hpending⟩ := h
  cases a with
  | startFallback =>
    obtain ⟨⟨hr, htimer⟩, rfl⟩ := Option.ite_some_none_eq_some.mp ht
    obtain ⟨hidle, hpair⟩ := (h.timer hr).mp htimer
    refine ⟨⟨by simp [hr], by simp [hr], ?closed⟩, ⟨?started, h.primary, ?single, ?timer⟩, ?running,
      hpending⟩
    case closed => exact Bool.forall_bool.mpr ⟨by simp, hclosed true⟩
    case started => exact Bool.forall_bool.mpr ⟨by simp [h.started false, hidle], h.started true⟩
    case single | timer => simp [hpair]
    case running =>
      refine fun _ => Bool.forall_bool.mpr ⟨?_, hrunning hr true⟩
      simpa [hidle] using hrunning hr false
  | finish p outcomes =>
    obtain ⟨hp, rfl⟩ := Option.ite_some_none_eq_some.mp ht
    refine ⟨⟨?conn, ?failed, ?closed⟩, hlaunched.move (p := p) (by simp [hp]) (by simp) id ..,
      ?running,
      hpending⟩
    -- A race that ends after the return does not count as won.
    case conn | failed | closed | running => grind [update_apply]
  | receive p =>
    simp only [Dial.step] at ht
    split at ht
    · next hr hp =>
      cases ht
      refine ⟨⟨?conn, by simp, ?closed⟩,
        hlaunched.move (p := p) (by simp [hp]) (by simp) (by simp) ..,
        by simp, by simp⟩
      case conn | closed => grind [update_apply]
    · next hr hp =>
      cases ht
      -- The only racer of a single dial is the primary one.
      have hother : s.single = true → p = true := by
        have := h.single
        grind
      refine ⟨⟨?conn, ?failed, ?closed⟩, hlaunched.move (p := p) (by simp [hp]) (by simp)
        (fun _ => hr) .., ?running, ?pending⟩
      case conn | closed | running | pending => grind [update_apply]
      case failed =>
        have := h.single
        simp only [Bool.forall_bool]
        grind [update_apply]
    · cases ht
  | close p =>
    simp only [Dial.step] at ht
    split at ht
    · next r conn hr hp =>
      cases ht
      refine ⟨⟨?conn, ?failed, ?closed⟩, hlaunched.move (p := p) (by simp [hp]) (by simp) id ..,
        by simp [hr], by simp [hr]⟩
      case conn | failed | closed => grind [update_apply]
    · cases ht

/-- While nothing is returned there is a step: a dial to finish, a result to take or the fallback to
start. -/
theorem Inv.ended (h : s.Inv) (hstuck : ∀ a, Dial.step s a = none) : s.Ended := by
  have hdial p : s.racer p ≠ .dialing := by
    intro hp
    simpa [Dial.step, hp] using hstuck (.finish p [])
  have hsend p conn : s.racer p ≠ .sending conn := by
    intro hp
    cases hr : s.returned with
    | none => cases conn <;> simpa [Dial.step, hr, hp] using hstuck (.receive p)
    | some r => simpa [Dial.step, hr, hp] using hstuck (.close p)
  have hret : s.returned ≠ none := by
    intro hr
    have hdone p (hp : s.racer p ≠ .idle) : s.done p = true := by
      obtain ⟨-, hlive, hdone, -⟩ := h.running hr p
      cases hracer : s.racer p with
      | idle => exact absurd hracer hp
      | dialing => exact absurd hracer (hdial p)
      | sending conn => exact absurd hracer (hsend p conn)
      | ended conn =>
        cases conn with
        | true => exact absurd hracer hlive
        | false => exact hdone.mpr hracer
    obtain ⟨hpair, hother⟩ := h.pending hr (hdone true h.primary)
    have hidle : s.racer false = .idle := by
      by_contra hne
      simp [hdone false hne] at hother
    simpa [Dial.step, hr, (h.timer hr).mpr ⟨hidle, hpair⟩] using hstuck .startFallback
  refine ⟨hret, ⟨fun ⟨p, hp⟩ => ⟨p, (h.conn p hp).1⟩, ?_⟩, ?_⟩
  · rintro ⟨p, hwon⟩
    obtain ⟨r, hr⟩ := Option.ne_none_iff_exists'.mp hret
    cases r with
    | none => simp [(h.failed hr).1 p] at hwon
    | some q => exact ⟨q, hr⟩
  · intro p
    cases hp : s.racer p with
    | idle => exact .inl rfl
    | dialing => exact absurd hp (hdial p)
    | sending conn => exact absurd hp (hsend p conn)
    | ended conn =>
      cases conn with
      | false => exact .inr (.inl rfl)
      | true => exact .inr (.inr ⟨rfl, h.closed p hp⟩)

lemma Inv.sound (h : s.Inv) : s.Sound := by
  refine { h with once := fun p => ?_, closes := fun p hr hp => ?_, ends := h.ended }
  · rw [h.started p]
    split <;> omega
  · obtain ⟨r, hr⟩ := Option.ne_none_iff_exists'.mp hr
    simp [Dial.step, hr, hp]

end Dial

end SingBox.Dialer
