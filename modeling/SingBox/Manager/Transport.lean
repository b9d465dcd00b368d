import SingBox.Lib.Machine
import SingBox.Manager.Registry

/-! The manager of the DNS servers, with its default server and the one for fake addresses. -/

namespace SingBox.Manager
open Lib Machine Option Bool

def dnsTypeFakeIP : String := "fakeip"

structure TransportManager extends Registry where
  defaultTag : String
  started : Bool
  defaultTransport : Option Entry := none
  fakeIPTransport : Option Entry := none
  created : Nat := 0

namespace TransportManager

variable (m : TransportManager) (tag : String)

def takesDefault : Bool := tag = m.defaultTag ∨ m.defaultTag = "" ∧ m.defaultTransport = none

def create (making : Making) : TransportManager × Option String :=
  match m.prepare tag m.started m.created making with
  | .error err => (m, some err)
  | .ok transport =>
    let added := { m with toRegistry := m.add transport, created := m.created + 1 }
    if m.takesDefault tag then
      if transport.type = dnsTypeFakeIP then (added, some "default server cannot be fakeip")
      else ({ added with defaultTransport := some transport }, none)
    else if transport.type = dnsTypeFakeIP then
      if m.fakeIPTransport.isSome then (added, some "multiple fakeip server are not supported")
      else ({ added with fakeIPTransport := some transport }, none)
    else (added, none)

def remove : TransportManager × Option String :=
  match m.byTag tag with
  | none => (m, some "invalid argument")
  | some transport =>
    let deleted := { m with toRegistry := m.delete tag transport }
    let next := deleted.list.head?
    -- the comparison is the wrong way round
    if m.defaultTransport = some transport ∧ next.any (·.type ≠ dnsTypeFakeIP) then
      (deleted, some "default server cannot be fakeip")
    else
      let m := { deleted with
        defaultTransport := if m.defaultTransport = some transport then next else m.defaultTransport }
      if m.dependByTag tag ≠ [] then
        (m, some ("server[" ++ tag ++ "] is depended by " ++ ", ".intercalate (m.dependByTag tag)))
      else ({ m with toRegistry := m.forget tag transport }, none)

def call : Call → TransportManager × Option String
  | .create tag making => m.create tag making
  | .remove tag _ => m.remove tag

def step : Machine TransportManager Call := fun m a => some (m.call a).1

/-- The default is a current server and not one for fake addresses, and of those the registered
one is the only one. -/
structure Settled : Prop where
  default : ∀ t, m.defaultTransport = some t → m.Current t ∧ t.type ≠ dnsTypeFakeIP
  fakeIP : ∀ t, m.fakeIPTransport = some t → m.Current t ∧ t.type = dnsTypeFakeIP ∧
    ∀ u ∈ m.list, u.type = dnsTypeFakeIP → u = t

/-- The next server becomes the default, and a call that fails changes nothing. -/
structure Answers (a : Call) : Prop where
  next : ∀ tag err t u, a = .remove tag err → m.byTag tag = some t → m.defaultTransport = some t →
    m.dependByTag tag = [] → (m.list.erase t).head? = some u → u.type ≠ dnsTypeFakeIP →
    (m.call a).2 = none ∧ (m.call a).1.defaultTransport = some u
  failed : (m.call a).2 ≠ none → (m.call a).1 = m

/-- No call removes or replaces the server for fake addresses or the default, except the last
server or one with the tag of the default; none removes what others depend on; and a server for
fake addresses is created once, and not as the default. -/
def careful : Call → Bool
  | .create tag making =>
    match making.made with
    | .error _ => true
    | .ok (type, _) =>
      (m.byTag tag).all (fun t => m.fakeIPTransport ≠ some t ∧
        (m.defaultTransport = some t → tag = m.defaultTag)) &&
      (type ≠ dnsTypeFakeIP || m.fakeIPTransport = none && !m.takesDefault tag)
  | .remove tag _ => (m.byTag tag).all fun t => m.fakeIPTransport ≠ some t ∧
      (m.defaultTransport = some t → m.list = [t]) ∧ m.dependByTag tag = []

structure Inv : Prop where
  default : ∀ t, m.defaultTransport = some t → m.Current t ∧ t.type ≠ dnsTypeFakeIP
  fakeIP : ∀ t, m.fakeIPTransport = some t → m.Current t ∧ t.type = dnsTypeFakeIP
  registered : ∀ t ∈ m.list, t.type = dnsTypeFakeIP → m.fakeIPTransport = some t

variable {m tag} {a : Call} {making : Making}

section
variable (h : m.Inv)
include h

lemma Inv.settled : m.Settled := { h with
  fakeIP t ht := by
    refine ⟨(h.fakeIP t ht).1, (h.fakeIP t ht).2, fun u hu htype => ?_⟩
    exact some.inj ((h.registered u hu htype).symm.trans ht) }

/-- A server that is added becomes the default or the one for fake addresses, or neither; those
that were so are not replaced by it. -/
theorem Inv.add {t : Entry} {d f : Option Entry} (created : Nat) (hd : ∀ u, d = some u →
      u = t ∧ t.type ≠ dnsTypeFakeIP ∨ m.defaultTransport = some u ∧ m.byTag t.tag ≠ some u)
    (hf : t.type ≠ dnsTypeFakeIP ∧ f = m.fakeIPTransport ∧
      (∀ u, f = some u → m.byTag t.tag ≠ some u) ∨
      t.type = dnsTypeFakeIP ∧ m.fakeIPTransport = none ∧ f = some t) :
    Inv { m with toRegistry := m.add t, created, defaultTransport := d, fakeIPTransport := f } := by
  constructor
  · intro u hu
    obtain ⟨rfl, htype⟩ | ⟨hu, hby⟩ := hd u hu
    · exact ⟨m.current_add u, htype⟩
    · exact ⟨(h.default u hu).1.add hby, (h.default u hu).2⟩
  · intro u hu
    obtain ⟨-, hsame, hby⟩ | ⟨htype, -, hnew⟩ := hf
    · obtain ⟨hcur, htype⟩ := h.fakeIP u (hsame ▸ hu)
      exact ⟨hcur.add (hby u hu), htype⟩
    · cases hnew.symm.trans hu
      exact ⟨m.current_add t, htype⟩
  · intro u hu htype
    have hmem := Registry.mem_add hu
    have hreg := h.registered u
    grind -linarith

lemma Inv.create (ha : m.careful (.create tag making)) :
    (m.create tag making).1.Inv ∧
      ((m.create tag making).2 ≠ none → (m.create tag making).1 = m) := by
  unfold TransportManager.create
  cases hprep : m.prepare tag m.started m.created making with
  | error err => exact ⟨h, fun _ => rfl⟩
  | ok t =>
    obtain ⟨rfl, hmade⟩ := Registry.prepare_eq_ok hprep
    simp only [careful, hmade, and_eq_true, all_eq_true, decide_eq_true_eq,
      or_eq_true, not_eq_true'] at ha
    obtain ⟨hold, hnew⟩ := ha
    have hfake : ∀ u, m.fakeIPTransport = some u → m.byTag t.tag ≠ some u :=
      fun u hu hby => (hold u hby).1 hu
    cases htakes : m.takesDefault t.tag with
    | true =>
      have htype : t.type ≠ dnsTypeFakeIP := by simpa [htakes] using hnew
      simp only [if_true, if_neg htype]
      exact ⟨h.add _ (by grind -linarith) (.inl ⟨htype, rfl, hfake⟩), fun hne => absurd rfl hne⟩
    | false =>
      have hkept : ∀ u, m.defaultTransport = some u → m.byTag t.tag ≠ some u := by
        intro u hu hby
        simp [takesDefault, (hold u hby).2 hu] at htakes
      by_cases htype : t.type = dnsTypeFakeIP
      · have hnone : m.fakeIPTransport = none := by simpa [htakes, htype] using hnew
        simp only [false_eq_true, if_false, if_pos htype, hnone, isSome_none]
        exact ⟨h.add _ (by grind -linarith) (.inr ⟨htype, hnone, rfl⟩), fun hne => absurd rfl hne⟩
      · simp only [false_eq_true, if_false, if_neg htype]
        exact ⟨h.add _ (by grind -linarith) (.inl ⟨htype, rfl, hfake⟩), fun hne => absurd rfl hne⟩

lemma Inv.remove {err : Option String} (ha : m.careful (.remove tag err)) :
    (m.remove tag).1.Inv ∧ ((m.remove tag).2 ≠ none → (m.remove tag).1 = m) := by
  unfold TransportManager.remove
  cases hby : m.byTag tag with
  | none => exact ⟨h, fun _ => rfl⟩
  | some t =>
    simp only [careful, hby, all_some, decide_eq_true_eq] at ha
    obtain ⟨hfake, hlast, hdepend⟩ := ha
    have hnext : m.defaultTransport = some t → (m.delete tag t).list.head? = none := by
      intro hdef
      simp [Registry.delete, hlast hdef]
    have hwrong : ¬ (m.defaultTransport = some t ∧
        (m.delete tag t).list.head?.any (·.type ≠ dnsTypeFakeIP)) := by
      rintro ⟨hdef, hany⟩
      simp [hnext hdef] at hany
    have hdepend' : ¬ (m.delete tag t).dependByTag tag ≠ [] := not_not.mpr hdepend
    dsimp only
    rw [if_neg hwrong, if_neg hdepend']
    refine ⟨⟨fun u hu => ?_, fun u hu => ?_, fun u hu => ?_⟩, fun hne => absurd rfl hne⟩
    · by_cases hdef : m.defaultTransport = some t
      · simp only [if_pos hdef, hnext hdef] at hu
        cases hu
      · simp only [if_neg hdef] at hu
        refine ⟨(h.default u hu).1.delete hby ?_, (h.default u hu).2⟩
        rintro rfl
        exact hdef hu
    · refine ⟨(h.fakeIP u hu).1.delete hby ?_, (h.fakeIP u hu).2⟩
      rintro rfl
      exact hfake hu
    · exact h.registered u (List.mem_of_mem_erase hu)

lemma Inv.call (ha : m.careful a) : (m.call a).1.Inv ∧ m.Answers a := by
  cases a with
  | create tag making =>
    obtain ⟨hinv, hfail⟩ := h.create ha
    exact ⟨hinv, nofun, hfail⟩
  | remove tag err =>
    obtain ⟨hinv, hfail⟩ := h.remove ha
    refine ⟨hinv, ?_, hfail⟩
    rintro _ _ t u ⟨⟩ hby hdef - hnext -
    simp only [careful, hby, all_some, decide_eq_true_eq] at ha
    simp [ha.2.1 hdef, List.erase_cons_head] at hnext

end

/-- The default is right in every run of careful calls, and they do what they should. -/
theorem settled_of_careful (defaultTag : String) (started : Bool) {m : TransportManager}
    (h : Reaches step (fun m a => m.careful a = true) { defaultTag, started } m) :
    m.Settled ∧ ∀ a, m.careful a = true → m.Answers a := by
  have hinv : m.Inv := h.invariant ⟨nofun, nofun, nofun⟩ fun ha hstep hinv => by
    cases hstep
    exact (hinv.call ha).1
  exact ⟨hinv.settled, fun a ha => (hinv.call ha).2⟩

/-- Two servers and one for fake addresses; the second server is removed. -/
theorem settled_of_three_servers :
    ∃ m, runChecked step careful { defaultTag := "", started := true }
        [.create "a" (makes "udp"), .create "f" (makes "fakeip"), .create "b" (makes "tcp"),
          .remove "b"] = some m ∧
      m.defaultTransport.map Entry.tag = some "a" ∧ m.Settled := by
  refine exists_end (by decide) fun hm => ⟨by decide, ?_⟩
  exact (settled_of_careful "" true (Reaches.start.runChecked (fun _ _ h => h) hm)).1

/-- The default is removed beside another server, which fails and leaves the default where it
was; beside one for fake addresses, this becomes the default. -/
theorem default_removed : (∃ m, run step { defaultTag := "", started := true }
        [.create "a" (makes "udp"), .create "b" (makes "tcp")] = some m ∧
      (m.remove "a").2 = some "default server cannot be fakeip" ∧
      (m.remove "a").1.list ≠ m.list ∧ ¬ (m.remove "a").1.Settled) ∧
    ∃ m, run step { defaultTag := "", started := true }
        [.create "a" (makes "udp"), .create "f" (makes "fakeip"), .remove "a"] = some m ∧
      ¬ m.Settled := by
  refine ⟨⟨_, rfl, by decide, by decide, fun h => ?_⟩, ⟨_, rfl, fun h => ?_⟩⟩
  · exact absurd (h.default ⟨0, "a", "udp", []⟩ (by decide)).1.1 (by decide)
  · exact absurd (h.default ⟨1, "f", "fakeip", []⟩ (by decide)).2 (by decide)

end TransportManager

end SingBox.Manager
