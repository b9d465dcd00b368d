import SingBox.Dns.Accepted

/-! The shape of a response from the cache. An answer is stored with the hints that
the strategy of its request leaves, and with the OPT record that its transport
sent, while the key tells neither the strategy nor the OPT record of a request. -/

namespace SingBox.Dns
open Lib Option List Nat

variable {c : Client} {w : World} {y : ClientSystem} {r : Request} {question : Question}

/-- The response that the exchange of a request makes of an answer. -/
def Client.uncached (c : Client) (r : Request) (question : Question) (m : Msg) : Msg :=
  finishEDNS (c.sent r)
    { (applyResponseOptions question m r.options).1 with id := (c.sent r).id }

/-- Two requests take the same hints out of an answer. -/
def Request.DeniesAlike (r r' : Request) (m : Msg) : Prop :=
  ∀ question question', r.message.question.head? = some question →
    r'.message.question.head? = some question' →
    ∀ data ∈ m.answer.map RR.data, ∀ it ∈ data.values,
      deniedHint question r.options.strategy = some it.key ↔
        deniedHint question' r'.options.strategy = some it.key

/-- The requests of a world that share a place in the cache want answers of one
shape: they lose the same hints, and whoever finds an OPT record has asked with
one. -/
structure World.Alike (w : World) (c : Client) : Prop where
  hints : ∀ r r' m, c.Takes w r m → m.isSettled = true → w.Requests r' → c.Shares r r' →
    r.DeniesAlike r' m
  opt : ∀ r r' m o, c.Takes w r m → m.isSettled = true → w.Requests r' → c.Shares r r' →
    m.isEdns0 = some o → ∃ p, r'.message.isEdns0 = some p ∧ o.version ≤ p.version

/-- What is sent for a simple request has the OPT record of the request, in its
version. -/
theorem Client.Caches.isEdns0_sent (h : c.Caches r question) {p : RR}
    (hp : r.message.isEdns0 = some p) :
    ∃ p', (c.sent r).isEdns0 = some p' ∧ p.version ≤ p'.version := by
  have hver : p.version = 0 := by
    obtain hextra | ⟨o, hextra, ho, httl⟩ := Msg.isSimpleRequest_extra h.simple
    · simp [Msg.isEdns0, hextra] at hp
    · simp only [Msg.isEdns0, hextra, reverse_singleton, find?_cons_of_pos ho, some.injEq] at hp
      rw [← hp, RR.version, httl]
  rw [hver]
  unfold Client.sent Client.prepareExchangeMessage
  split
  · obtain ⟨p', hp', -⟩ := isEdns0_removeClientSubnet h.simple (by simp [hp])
    exact ⟨p', hp', zero_le _⟩
  · split
    · obtain ⟨p', hp', -⟩ := isEdns0_setClientSubnet h.simple _
      exact ⟨p', hp', zero_le _⟩
    · exact ⟨p, hp, zero_le _⟩

/-- What a record keeps of its hints: those that are not denied. -/
theorem RR.dropHint_congr {a b : Nat} {record : RR}
    (h : ∀ it ∈ record.data.values, a = it.key ↔ b = it.key) :
    record.dropHint a = record.dropHint b := by
  have hdata : record.data.dropHint a = record.data.dropHint b := by
    cases hr : record.data with
    | https value =>
      rw [hr] at h
      refine congrArg RData.https (filter_congr fun it hit => ?_)
      have hkey : (it.key = a) ↔ (it.key = b) := by
        rw [eq_comm, h it hit, eq_comm]
      simp [bne, hkey]
    | a | aaaa | soa | opt | other => rfl
  rw [RR.dropHint, RR.dropHint, hdata]

lemma map_dropHint_eq_self {a : Nat} {records : List RR}
    (h : ∀ record ∈ records, ∀ it ∈ record.data.values, a ≠ it.key) :
    records.map (RR.dropHint a) = records := by
  have hself : ∀ record ∈ records, record.dropHint a = record := by
    intro record hmem
    have hdata : record.data.dropHint a = record.data := by
      have hkeys := h record hmem
      cases hr : record.data with
      | https value =>
        rw [hr] at hkeys
        refine congrArg RData.https (filter_eq_self.mpr fun it hit => ?_)
        simpa using (hkeys it hit).symm
      | a | aaaa | soa | opt | other => rfl
    rw [RR.dropHint, hdata]
  rw [List.map_congr_left (g := id) hself, List.map_id]

lemma filterHints_congr {question' : Question} {strategy strategy' : DomainStrategy} {m : Msg}
    (h : ∀ data ∈ m.answer.map RR.data, ∀ it ∈ data.values,
      deniedHint question strategy = some it.key ↔ deniedHint question' strategy' = some it.key) :
    filterHints question strategy m = filterHints question' strategy' m := by
  have hrec : ∀ record ∈ m.answer, ∀ it ∈ record.data.values,
      deniedHint question strategy = some it.key ↔
        deniedHint question' strategy' = some it.key := fun record hmem =>
    h record.data (mem_map_of_mem hmem)
  unfold filterHints
  cases ha : deniedHint question strategy with
  | none =>
    cases hb : deniedHint question' strategy' with
    | none => rfl
    | some b =>
      simp only [ha, hb, reduceCtorEq, false_iff, some.injEq] at hrec
      simp only [map_dropHint_eq_self hrec]
  | some a =>
    cases hb : deniedHint question' strategy' with
    | none =>
      simp only [ha, hb, reduceCtorEq, iff_false, some.injEq] at hrec
      simp only [map_dropHint_eq_self hrec]
    | some b =>
      simp only [ha, hb, some.injEq] at hrec
      have hsame : m.answer.map (RR.dropHint a) = m.answer.map (RR.dropHint b) :=
        map_congr_left fun record hmem => RR.dropHint_congr (hrec record hmem)
      simp [hsame]

/-- The response has the shape that the request gets of the answer without a
cache. -/
structure Client.Shaped (c : Client) (r : Request) (question : Question) (m response : Msg) :
    Prop where
  uncached : response.shape = (c.uncached r question m).shape
  hints : ∀ key, deniedHint question r.options.strategy = some key →
    ∀ data ∈ response.answer.map RR.data, ∀ it ∈ data.values, it.key ≠ key
  opt : r.message.isEdns0 = none → response.isEdns0 = none

/-- What is stored has the shape for every request that finds it. -/
theorem World.Alike.shaped (hw : w.Alike c) (hr : w.Requests r) {r₀ : Request}
    {question₀ : Question} {m response : Msg} {key : DnsCacheKey}
    (hfills : c.Fills w r₀ question₀ m (c.slot key)) (hcaches : c.Caches r question)
    (hkey : c.KeyOf r question key)
    (hshape : response.shape = (filterHints question₀ r₀.options.strategy m).shape) :
    c.Shaped r question m response := by
  have hshares : c.Shares r₀ r := hfills.shares hcaches hkey
  have hopt : ∀ o, m.isEdns0 = some o →
      ∃ p, r.message.isEdns0 = some p ∧ o.version ≤ p.version := fun o =>
    hw.opt r₀ r m o hfills.toTakes hfills.settled hr hshares
  have hdenied := hw.hints r₀ r m hfills.toTakes hfills.settled hr hshares question₀ question
    hfills.asks hcaches.asks
  rw [filterHints_congr hdenied] at hshape
  refine ⟨?_, ?_, ?_⟩
  · -- The request has the OPT record that it finds, so nothing is taken out.
    have hfinish : c.uncached r question m =
        { (applyResponseOptions question m r.options).1 with id := (c.sent r).id } := by
      apply finishEDNS_eq
      intro o ho
      have ho' : m.isEdns0 = some o := by
        rw [← ho]
        exact ((isEdns0_normalizeTTL _ _).trans (isEdns0_filterHints question _ m)).symm
      obtain ⟨p, hp, hle⟩ := hopt o ho'
      obtain ⟨p', hp', hle'⟩ := hcaches.isEdns0_sent hp
      exact ⟨p', hp', le_trans hle hle'⟩
    rw [hfinish]
    exact hshape.trans (applyResponseOptions_shape question m r.options).symm
  · intro key hkey data hdata
    rw [answer_data_congr hshape] at hdata
    exact key_ne_of_mem_filterHints hkey m data hdata
  · intro hnone
    apply isEdns0_none_congr hshape
    rw [isEdns0_filterHints]
    cases ho : m.isEdns0 with
    | none => rfl
    | some o =>
      obtain ⟨p, hp, -⟩ := hopt o ho
      simp [hnone] at hp

/-- **A response from the cache has the shape of an exchange**: it is, but for id
and lifetimes, what the request would make of an answer that some request of its
kind took, where the requests on the client want one shape. -/
theorem Client.cached_shaped (hw : w.Alike c) (hy : c.Reaches w y) {call : ClientCall}
    {first : Nat} (hcall : (call, first) ∈ y.calls) {x : Reply}
    (hx : .ok x ∈ y.replies call first) (hcached : x.source = .cached ∨ x.source = .optimistic) :
    ∃ r ∈ call.requests, ∃ question m r₀, r.message.question.head? = some question ∧
      c.Shares r₀ r ∧ c.Takes w r₀ m ∧ c.Shaped r question m x.response := by
  have hsound := hy.sound
  obtain ⟨r, hr, hreply⟩ := hsound.reply hcall hx
  have hreqs : w.Requests r := ⟨call, hsound.called call first hcall, hr⟩
  cases hreply with
  | unasked | rejected | exchanged => simp at hcached
  | @cached question key response stored source hcaches hkey hstored hshape =>
    obtain ⟨r₀, question₀, m, hfills, rfl⟩ := hstored
    rw [applyResponseOptions_shape] at hshape
    have hshaped := hw.shaped hreqs hfills hcaches hkey hshape
    exact ⟨r, hr, question, m, r₀, hcaches.asks, hfills.shares hcaches hkey, hfills.toTakes,
      hshaped⟩

def plainOPT : RR := { name := ".", rrtype := typeOPT, rclass := 1232, ttl := 0, data := .opt [] }

def httpsRequest (strategy : DomainStrategy) (extra : List RR) : Request where
  transport := { tag := "upstream" }
  message := { question := [{ name := "example.com.", qtype := typeHTTPS, qclass := 1 }], extra }
  options := { strategy }

/-- An HTTPS record with hints of both kinds, and the OPT record of the transport. -/
def httpsResponse : Msg where
  response := true
  answer := [{
    name := "example.com.", rrtype := typeHTTPS, rclass := 1, ttl := 60
    data := .https [.ipv4Hint [.v4 1], .ipv6Hint [.v6 1]] }]
  extra := [plainOPT]

lemma oneAnswer_alike {m : Msg} (h : ∀ o, (stripDNSPadding m).isEdns0 = some o →
      ∃ p, r.message.isEdns0 = some p ∧ o.version ≤ p.version) : (oneAnswer r m).Alike c where
  hints r₁ r₂ m' htakes _ hr₂ _ := by
    cases oneAnswer_requests htakes.requested
    cases oneAnswer_requests hr₂
    intro question question' hquest hquest' data _ it _
    rw [hquest, some.injEq] at hquest'
    rw [hquest']
  opt r₁ r₂ m' o htakes _ hr₂ _ ho := by
    cases oneAnswer_requests hr₂
    obtain ⟨result, rfl, hm⟩ := htakes.answered
    cases hm
    exact h o ho

theorem Client.cached_shaped_https :
    ∃ y x, .ok x ∈ ClientSystem.replies y (.exchange (httpsRequest .ipv4Only [plainOPT])) 1 ∧
      memoryClient.Reaches (oneAnswer (httpsRequest .ipv4Only [plainOPT]) httpsResponse) y ∧
      x.source = .cached ∧
      ∃ r ∈ [httpsRequest .ipv4Only [plainOPT]], ∃ question m r₀,
        r.message.question.head? = some question ∧ memoryClient.Shares r₀ r ∧
        memoryClient.Takes (oneAnswer (httpsRequest .ipv4Only [plainOPT]) httpsResponse) r₀ m ∧
        memoryClient.Shaped r question m x.response := by
  have hreach := oneAnswer_reaches (c := memoryClient)
    (r := httpsRequest .ipv4Only [plainOPT]) (m := httpsResponse) rfl
  refine ⟨_, _, .head _, hreach, rfl,
    Client.cached_shaped (oneAnswer_alike ?_) hreach (.tail _ (.head _)) (.head _) (.inl rfl)⟩
  rintro o ⟨⟩
  exact ⟨plainOPT, rfl, le_refl _⟩

/-- A request of any strategy fills the cache, and one that allows IPv4 only and
has no OPT record gets the hint for IPv6 and the OPT record from there. -/
theorem Client.cached_hint_denied :
    ∃ y x, .ok x ∈ ClientSystem.replies y (.exchange (httpsRequest .ipv4Only [])) 1 ∧
      memoryClient.Reaches anyWorld y ∧
      (.exchange (httpsRequest .ipv4Only []), 1) ∈ y.calls ∧ x.source = .cached ∧
      (∃ data ∈ x.response.answer.map RR.data, ∃ it ∈ data.values, it.key = svcbIPv6Hint) ∧
      (httpsRequest .ipv4Only []).message.isEdns0 = none ∧ x.response.isEdns0 ≠ none := by
  have hreach : ∀ y, Machine.run memoryClient.step {} (exchangedThenCached (httpsRequest .asIS [])
      (httpsRequest .ipv4Only []) httpsResponse) = some y →
      memoryClient.Reaches anyWorld y := fun y =>
    Machine.Reaches.run .start fun t a _ => anyWorld_admits t a
  refine ⟨_, _, .head _, hreach _ rfl, .tail _ (.head _), rfl, ?_, rfl, by decide⟩
  exact ⟨_, .head _, .ipv6Hint [.v6 1], .tail _ (.head _), rfl⟩

end SingBox.Dns
