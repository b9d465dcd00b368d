import SingBox.Lib.Machine

/-! The sessions of a Firefox VPN outbound, one for each proxy pass it has seen in turn. -/

namespace SingBox.FirefoxVPN
open Lib Machine List Option

/-- A session, with the number of dials and tunnels on it. -/
structure Session where
  id : Nat
  proxyPassToken : String
  uses : Nat := 1

/-- `creating` has the token of each dial that found no session for it and makes one. -/
structure Outbound where
  session : Option Session := none
  retiredSessions : List Session := []
  closed : Bool := false
  creating : List String := []
  made : Nat := 0

/-- `check` and `install` are the two critical sections of `sessionForToken`; a dial that fails or a
tunnel that ends releases its session. -/
inductive Action
  | check (token : String)
  | install (token : String)
  | release (id : Nat)
  | close

def Session.release (id : Nat) (x : Session) : Session :=
  if x.id = id then { x with uses := x.uses - 1 } else x

namespace Outbound

variable (s : Outbound)

def held : List Session := s.retiredSessions ++ s.session.toList

/-- Uses the current session if it is for the token. -/
def sessionForToken (token : String) (create : Outbound) : Outbound :=
  if s.closed then s
  else match s.session.filter (·.proxyPassToken = token) with
    | some x => { s with session := some { x with uses := x.uses + 1 } }
    | none => create

def step : Machine Outbound Action
  | s, .check token => some (s.sessionForToken token { s with creating := token :: s.creating })
  | s, .install token =>
    if token ∈ s.creating then
      let s := { s with creating := s.creating.erase token }
      some (s.sessionForToken token { s with
        session := some { id := s.made, proxyPassToken := token }
        retiredSessions := s.held
        made := s.made + 1 })
    else none
  | s, .release id => some { s with
      session := s.session.map (Session.release id)
      retiredSessions := s.retiredSessions.map (Session.release id) }
  | s, .close => some (if s.closed then s
      else { s with closed := true, session := none, retiredSessions := [] })

/-- What is held is in use or current, has a token of its own, and is given up by `Close`. -/
structure Tidy : Prop where
  retired : ∀ x ∈ s.retiredSessions, 0 < x.uses
  tokens : (s.held.map (·.proxyPassToken)).Nodup
  closed : s.closed = true → s.held = []

/-- A session is replaced only while it is in use and only for a token that no retired one has, and
a retired session stays in use. -/
def orderly : Action → Bool
  | .install token => s.retiredSessions.all (·.proxyPassToken ≠ token) &&
      s.session.all fun x => x.proxyPassToken = token || 0 < x.uses
  | .release id => s.retiredSessions.all fun x => x.id ≠ id || 1 < x.uses
  | _ => true

variable {s} {t : Outbound} {token : String}

lemma Tidy.sessionForToken {create : Outbound} (h : s.Tidy)
    (hcreate : s.closed = false → (∀ x, s.session = some x → x.proxyPassToken ≠ token) →
        create.Tidy) :
    (s.sessionForToken token create).Tidy := by
  unfold Outbound.sessionForToken
  split
  · exact h
  · rename_i hopen
    split
    · rename_i x hx
      obtain ⟨hx, -⟩ := filter_eq_some_iff.mp hx
      refine { h with tokens := ?_, closed := fun hclosed => absurd hclosed hopen }
      simpa [held, hx] using h.tokens
    · rename_i hnone
      exact hcreate (by simpa using hopen) (by simpa [filter_eq_none_iff] using hnone)

lemma Tidy.step {action : Action} (h : s.Tidy) (horder : s.orderly action)
    (ht : Outbound.step s action = some t) : t.Tidy := by
  cases action with
  | check token =>
    cases ht
    exact h.sessionForToken fun _ _ => { h with }
  | install token =>
    obtain ⟨-, ht⟩ := ite_none_right_eq_some.mp ht
    cases ht
    refine Tidy.sessionForToken { h with } fun hopen hother => ⟨fun x hx => ?_, ?_, ?_⟩
    · obtain hx | hx := mem_append.mp hx
      · exact h.retired x hx
      · have hcur := mem_toList.mp hx
        simp_all [orderly]
    · have htokens := h.tokens
      cases hs : s.session <;> simp_all [orderly, held, nodup_append]
    · exact fun hclosed => nomatch hopen.symm.trans hclosed
  | release id =>
    cases ht
    have htoken (x : Session) : (x.release id).proxyPassToken = x.proxyPassToken := by
      unfold Session.release
      split <;> rfl
    refine ⟨fun x hx => ?_, ?_, fun hclosed => ?_⟩
    · obtain ⟨y, hy, rfl⟩ := mem_map.mp hx
      have hmore := all_eq_true.mp horder y hy
      unfold Session.release
      split
      · rename_i hid
        exact Nat.sub_pos_of_lt (by simpa [hid] using hmore)
      · exact h.retired y hy
    · have htokens := h.tokens
      cases hs : s.session <;> simp_all [held, Function.comp_def]
    · have hnone := h.closed hclosed
      simp_all [held]
  | close =>
    cases ht
    split
    · exact h
    · exact ⟨nofun, .nil, fun _ => rfl⟩

lemma closed_of_step {action : Action} (h : s.closed) (ht : Outbound.step s action = some t) :
    t.closed := by
  cases action with
  | check token =>
    cases ht
    rwa [Outbound.sessionForToken, if_pos h]
  | install token =>
    obtain ⟨-, ht⟩ := ite_none_right_eq_some.mp ht
    cases ht
    rwa [Outbound.sessionForToken, if_pos h]
  | release id =>
    cases ht
    exact h
  | close =>
    cases ht
    rwa [if_pos h]

/-- In every orderly run what is held is in use and has a token of its own, and after a `Close`
nothing is held any more. -/
theorem tidy_of_orderly (h : Reaches step (fun s a => s.orderly a = true) {} s) :
    s.Tidy ∧ ∀ {t u}, step s .close = some t →
      Reaches step (fun s a => s.orderly a = true) t u → u.held = [] := by
  have htidy : s.Tidy :=
    h.invariant ⟨nofun, .nil, fun _ => rfl⟩ fun horder ht htidy => htidy.step horder ht
  refine ⟨htidy, fun {t u} hclose hreach => ?_⟩
  have hclosed : t.closed := by
    cases hclose
    split
    · assumption
    · rfl
  have hlater : u.Tidy ∧ u.closed := hreach.invariant (P := fun u => u.Tidy ∧ u.closed)
    ⟨htidy.step rfl hclose, hclosed⟩ fun horder ht h => ⟨h.1.step horder ht, closed_of_step h.2 ht⟩
  exact hlater.1.closed hlater.2

theorem tidy_rotated : ∃ s, run step {} [.check "a", .install "a", .check "b", .install "b"] =
      some s ∧ s.Tidy ∧ ∀ t, step s .close = some t → t.held = [] :=
  exists_checked orderly (by decide) fun h =>
    have hboth := tidy_of_orderly (.runChecked (fun _ _ h => h) .start h)
    ⟨hboth.1, fun _ ht => hboth.2 ht .start⟩

/-- A pass is replaced after its last tunnel has ended. -/
theorem session_kept : ∃ s, run step {} [.check "a", .install "a", .release 0, .check "b",
      .install "b"] = some s ∧ ¬ s.Tidy :=
  exists_end (by decide) fun _ h => absurd (h.retired _ (mem_singleton_self _)) (by decide)

end Outbound

end SingBox.FirefoxVPN
