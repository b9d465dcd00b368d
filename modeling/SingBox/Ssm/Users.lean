import Mathlib.Logic.Function.Basic

/-! The users of a server that are managed over the API: their table, the list that the server
has, and their traffic counters. -/

namespace SingBox.Ssm
open Function

/-- The tables by user, and those of the counters also by their kind. -/
structure UserManager where
  usersMap : String → Option String := fun _ => none
  /-- The list that the server accepted last. -/
  server : String → Option String := fun _ => none
  counters : Fin 6 → String → Option Int := fun _ _ => none

/-- A change, and whether the server accepts the list, or a connection that is counted. -/
inductive Call
  | add (username password : String) (accepts : Bool)
  | update (username password : String) (accepts : Bool)
  | delete (username : String) (accepts : Bool)
  | userCounter (user : String)

namespace UserManager
variable (m : UserManager)

/-- `List` gives the entries of the same table. -/
def get (username : String) : Option String := m.usersMap username

/-- `TrafficManager.UpdateUsers`. -/
def updateUsers (users : String → Bool) : UserManager :=
  { m with counters := fun kind user => if users user then m.counters kind user else none }

/-- The table is changed first; the result says whether there was no error. -/
def postUpdate (usersMap : String → Option String) (accepts : Bool) : UserManager × Bool :=
  let m := { m with usersMap }
  if accepts then ({ m.updateUsers (usersMap · |>.isSome) with server := usersMap }, true)
  else (m, false)

def perform : Call → UserManager × Bool
  | .add username password accepts =>
    if (m.usersMap username).isSome then (m, false)
    else m.postUpdate (update m.usersMap username (some password)) accepts
  | .update username password accepts =>
    m.postUpdate (update m.usersMap username (some password)) accepts
  | .delete username accepts => m.postUpdate (update m.usersMap username none) accepts
  | .userCounter user =>
    let counters kind := update (m.counters kind) user ((m.counters kind user).or (some 0))
    ({ m with counters }, true)

/-- The table is the list of the server, and only its users have counters. -/
structure InStep (m : UserManager) : Prop where
  users : m.usersMap = m.server
  counters : ∀ kind user, m.server user = none → m.counters kind user = none

/-- A call that failed has changed no answer, and a user of the list keeps its counters. -/
structure Traceless (m : UserManager) (result : UserManager × Bool) : Prop extends
    result.1.InStep where
  failed : result.2 = false → result.1.get = m.get
  kept : ∀ kind user n, m.counters kind user = some n → result.1.server user ≠ none →
    result.1.counters kind user = some n

/-- The server accepts the list, or there is nothing to change. -/
def harmless : Call → Bool
  | .add username _ accepts => accepts || (m.usersMap username).isSome
  | .update username password accepts => accepts || some password = m.usersMap username
  | .delete username accepts => accepts || none = m.usersMap username
  | .userCounter user => (m.server user).isSome

variable {m} (h : m.InStep)
include h

lemma InStep.traceless : m.Traceless (m, false) :=
  { h with failed := fun _ => rfl, kept := fun _ _ _ hn _ => hn }

lemma traceless_postUpdate (usersMap : String → Option String) (accepts : Bool) :
    m.Traceless (m.postUpdate usersMap accepts) ↔ accepts ∨ usersMap = m.usersMap := by
  cases accepts with
  | false =>
    refine ⟨fun ht => .inr (ht.failed rfl), fun heq => ?_⟩
    obtain rfl := heq.resolve_left nofun
    exact h.traceless
  | true =>
    refine iff_of_true ⟨⟨rfl, fun kind user hnone => ?_⟩, nofun, fun kind user n hn hin => ?_⟩
        (.inl rfl)
    · simp_all [postUpdate, updateUsers]
    · simp_all [postUpdate, updateUsers, Option.isSome_iff_ne_none]

lemma traceless_perform (c : Call) : m.Traceless (m.perform c) ↔ m.harmless c := by
  cases c with
  | add username password accepts =>
    by_cases hin : (m.usersMap username).isSome
    · simp [perform, harmless, hin, h.traceless]
    · simp_all [perform, harmless, traceless_postUpdate h, update_eq_self_iff]
  | update | delete => simp [perform, harmless, traceless_postUpdate h, update_eq_self_iff]
  | userCounter user =>
    simp only [perform, harmless, Option.isSome_iff_ne_none]
    constructor
    · intro ht hnone
      simpa using ht.counters 0 user hnone
    · intro hin
      refine ⟨⟨h.users, fun kind u hnone => ?_⟩, nofun, fun kind u n hn _ => ?_⟩
      · have hne : u ≠ user := by rintro rfl; exact hin hnone
        simpa [hne] using h.counters kind u hnone
      · by_cases hu : u = user <;> simp_all

omit h

/-- The property of every call of a history. -/
def Throughout (P : UserManager → Call → Prop) (m : UserManager) : List Call → Prop
  | [] => True
  | c :: calls => P m c ∧ Throughout P (m.perform c).1 calls

/-- A history leaves no trace of its failures exactly if nothing that is refused would have changed
the table, and connections are counted only for users of the list. -/
theorem traceless_iff (calls : List Call) :
    Throughout (fun m c => m.Traceless (m.perform c)) {} calls ↔
      Throughout (fun m c => m.harmless c) {} calls := by
  have hstart : InStep {} := ⟨rfl, fun _ _ _ => rfl⟩
  generalize ({} : UserManager) = m at hstart ⊢
  induction calls generalizing m with
  | nil => rfl
  | cons c calls ih =>
    simp only [Throughout, traceless_perform hstart]
    refine and_congr_right fun hc => ih _ ?_
    exact ((traceless_perform hstart c).mpr hc).toInStep

theorem refused_user_listed :
    ¬ Throughout (fun m c => m.Traceless (m.perform c)) {} [.add "alice" "short" false] :=
  fun h => nomatch congrFun (h.1.failed rfl) "alice"

end UserManager

end SingBox.Ssm
