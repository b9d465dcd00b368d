import Mathlib.Order.Lattice.Nat
import SingBox.Dns.Message

/-! What the client does to an answer: its lifetime, the hints that a strategy
takes out, and the OPT record that the request did not ask for. -/

namespace SingBox.Dns
open List Function

def fixedResponseStatus (message : Msg) (rcode : Nat) : Msg where
  id := message.id
  response := true
  authoritative := true
  recursionDesired := true
  recursionAvailable := true
  rcode := rcode
  question := message.question

variable (response : Msg) (timeToLive : Nat) (question : Question) (m : Msg)

def messageToAddresses : List Addr := dnsResponseAddresses (some response)

/-- The first SOA record of the authority section bounds a negative answer. -/
def extractNegativeTTL : Option Nat :=
  response.ns.findSome? fun r =>
    match r.data with
    | .soa minttl => some (if r.ttl < minttl then r.ttl else minttl)
    | _ => none

variable (r : RR) (strategy : DomainStrategy)

/-- One round of the loop of `computeTimeToLive`; 0 stands for not set. -/
def leastTTL : Nat :=
  if r.isOPT then timeToLive
  else if timeToLive = 0 ∨ 0 < r.ttl ∧ r.ttl < timeToLive then r.ttl
  else timeToLive

def computeTimeToLive : Nat :=
  match if response.answer.isEmpty then extractNegativeTTL response else none with
  | some soaTTL => soaTTL
  | none => (response.answer ++ response.ns ++ response.extra).foldl leastTTL 0

/-- The TTL field of an OPT record is not a lifetime. -/
def RR.setTTL : RR := if r.isOPT then r else { r with ttl := timeToLive }

def normalizeTTL : Msg :=
  { response with
    answer := response.answer.map (RR.setTTL timeToLive)
    ns := response.ns.map (RR.setTTL timeToLive)
    extra := response.extra.map (RR.setTTL timeToLive) }

def svcbIPv4Hint : Nat := 4
def svcbIPv6Hint : Nat := 6

def SVCBKeyValue.key : SVCBKeyValue → Nat
  | .ipv4Hint _ => svcbIPv4Hint
  | .ipv6Hint _ => svcbIPv6Hint
  | .other key _ => key

/-- The hint that a question's answer has to lose under a strategy. -/
def deniedHint : Option Nat :=
  if question.qtype = typeHTTPS then
    match strategy with
    | .ipv4Only => some svcbIPv6Hint
    | .ipv6Only => some svcbIPv4Hint
    | _ => none
  else none

def RData.values : RData → List SVCBKeyValue
  | .https value => value
  | _ => []

def RData.dropHint (key : Nat) : RData → RData
  | .https value => .https (value.filter fun it => it.key != key)
  | data => data

def RR.dropHint (key : Nat) (r : RR) : RR := { r with data := r.data.dropHint key }

/-- The loop of `applyResponseOptions` over the answer. -/
def filterHints (response : Msg) : Msg :=
  match deniedHint question strategy with
  | some key => { response with answer := response.answer.map (RR.dropHint key) }
  | none => response

def applyResponseOptions (question : Question) (response : Msg) (options : DNSQueryOptions) :
    Msg × Nat :=
  let response := filterHints question options.strategy response
  let timeToLive := options.rewriteTTL.getD (computeTimeToLive response)
  (normalizeTTL response timeToLive, timeToLive)

def Msg.dropOPT : Msg := { m with extra := m.extra.filter fun r => !r.isOPT }

variable (message response : Msg)

/-- The end of `finishExchange`: an OPT record that the request has not, or not
in that version, is taken out. -/
def finishEDNS : Msg :=
  match response.isEdns0 with
  | none => response
  | some responseOpt =>
    match message.isEdns0 with
    | none => response.dropOPT
    | some requestOpt =>
      if requestOpt.version < responseOpt.version then
        response.dropOPT.setEdns0 responseOpt.rclass responseOpt.dnssecOK
      else response

/-- A message but for its id and its lifetimes. -/
def Msg.shape : Msg := normalizeTTL { m with id := 0 } 0

lemma RR.setTTL_setTTL (a b : Nat) (r : RR) : (r.setTTL a).setTTL b = r.setTTL b := by
  unfold RR.setTTL
  by_cases h : r.isOPT
  · simp [h]
  · have hset : RR.isOPT { r with ttl := a } = false := by simpa [RR.isOPT] using h
    simp [h, hset]

@[simp] lemma RR.setTTL_isOPT : (r.setTTL timeToLive).isOPT = r.isOPT := by
  unfold RR.setTTL
  split <;> rfl

@[simp] lemma RR.setTTL_data : (r.setTTL timeToLive).data = r.data := by
  unfold RR.setTTL
  split <;> rfl

@[simp] lemma RR.setTTL_addresses : (r.setTTL timeToLive).addresses = r.addresses := by
  simp [RR.addresses]

@[simp] lemma shape_normalizeTTL (timeToLive : Nat) :
    (normalizeTTL m timeToLive).shape = m.shape := by
  simp [Msg.shape, normalizeTTL, comp_def, RR.setTTL_setTTL]

@[simp] lemma applyResponseOptions_shape
    (options : DNSQueryOptions) : (applyResponseOptions question m options).1.shape =
      (filterHints question options.strategy m).shape :=
  shape_normalizeTTL _ _

lemma messageToAddresses_shape : messageToAddresses m.shape = messageToAddresses m := by
  simp [messageToAddresses, dnsResponseAddresses, Msg.shape, normalizeTTL, flatMap_map]

variable {a b : Msg}

section
variable (h : a.shape = b.shape)
include h

lemma messageToAddresses_congr : messageToAddresses a = messageToAddresses b := by
  rw [← messageToAddresses_shape a, h, messageToAddresses_shape]

lemma answer_data_congr : a.answer.map RR.data = b.answer.map RR.data := by
  have hans : a.shape.answer.map RR.data = b.shape.answer.map RR.data := by rw [h]
  simpa [Msg.shape, normalizeTTL, comp_def] using hans

lemma isEdns0_none_congr (hb : b.isEdns0 = none) : a.isEdns0 = none := by
  have hextra : a.shape.extra.map RR.isOPT = b.shape.extra.map RR.isOPT := by rw [h]
  simp only [Msg.shape, normalizeTTL, map_map, comp_def, RR.setTTL_isOPT] at hextra
  rw [Msg.isEdns0_eq_none] at hb ⊢
  intro r hr
  have hmem : r.isOPT ∈ b.extra.map RR.isOPT := hextra ▸ mem_map_of_mem hr
  obtain ⟨r', hr', hopt⟩ := mem_map.mp hmem
  exact hopt ▸ hb r' hr'

end

@[simp] lemma isEdns0_normalizeTTL (timeToLive : Nat) :
    (normalizeTTL m timeToLive).isEdns0 = m.isEdns0 := by
  simp only [Msg.isEdns0, normalizeTTL, ← map_reverse]
  induction m.extra.reverse with
  | nil => rfl
  | cons r m.extra.reverse ih =>
    by_cases h : r.isOPT
    · have hset : r.setTTL timeToLive = r := by simp [RR.setTTL, h]
      rw [map_cons, hset, find?_cons_of_pos h, find?_cons_of_pos h]
    · rw [map_cons, find?_cons_of_neg (by simpa using h), find?_cons_of_neg h, ih]

@[simp] lemma isEdns0_filterHints (m : Msg) :
    (filterHints question strategy m).isEdns0 = m.isEdns0 := by
  unfold filterHints
  split <;> rfl

@[simp] lemma messageToAddresses_finishEDNS :
    messageToAddresses (finishEDNS message response) = messageToAddresses response := by
  unfold finishEDNS
  split
  · rfl
  · split
    · rfl
    · split <;> rfl

/-- A request with an OPT record of the version takes the answer as it is. -/
theorem finishEDNS_eq {message response : Msg}
    (h : ∀ o, response.isEdns0 = some o → ∃ q, message.isEdns0 = some q ∧ o.version ≤ q.version) :
    finishEDNS message response = response := by
  unfold finishEDNS
  cases ho : response.isEdns0 with
  | none => rfl
  | some o =>
    obtain ⟨q, hq, hver⟩ := h o ho
    simp only [hq]
    rw [if_neg (Nat.not_lt.mpr hver)]

/-- The denied hint is gone from every record of the answer. -/
theorem key_ne_of_mem_filterHints {question : Question} {strategy : DomainStrategy} {key : Nat}
    (h : deniedHint question strategy = some key) (m : Msg) :
    ∀ data ∈ (filterHints question strategy m).answer.map RR.data, ∀ it ∈ data.values,
      it.key ≠ key := by
  intro data hdata it hit
  simp only [filterHints, h, map_map, mem_map, comp_apply] at hdata
  obtain ⟨r, -, rfl⟩ := hdata
  cases hr : r.data with
  | https value =>
    simp only [RR.dropHint, hr, RData.dropHint, RData.values, mem_filter] at hit
    simpa using hit.2
  | a | aaaa | soa | opt | other => simp [RR.dropHint, hr, RData.dropHint, RData.values] at hit

/-- The positive lifetimes of records. -/
def ttls (l : List RR) : Set Nat := {t | 0 < t ∧ ∃ r ∈ l, r.isOPT = false ∧ r.ttl = t}

/-- The least of them, or 0 if there is none. -/
lemma foldl_leastTTL (l : List RR) : l.foldl leastTTL 0 = sInf (ttls l) := by
  induction l using List.reverseRecOn with
  | nil => simp [ttls]
  | append_singleton l r ih =>
    rw [foldl_append, ih, foldl_cons, foldl_nil, leastTTL]
    have hmem t : t ∈ ttls (l ++ [r]) ↔ t ∈ ttls l ∨ 0 < t ∧ r.isOPT = false ∧ r.ttl = t := by
      simp [ttls, or_and_right, exists_or, and_or_left]
    by_cases h : r.isOPT = false ∧ 0 < r.ttl
    · have hset : ttls (l ++ [r]) = insert r.ttl (ttls l) := by
        ext t
        grind -linarith
      rw [hset]
      obtain hl | hl := (ttls l).eq_empty_or_nonempty
      · simp [hl, h]
      · have hpos : 0 < sInf (ttls l) := (Nat.sInf_mem hl).1
        rw [csInf_insert (OrderBot.bddBelow _) hl, if_neg (by simp [h]), Nat.min_def]
        split <;> split <;> omega
    · have hset : ttls (l ++ [r]) = ttls l := by
        ext t
        grind -linarith
      grind -linarith

/-- The lifetime of an answer; the order only says which SOA record of a negative one is first. -/
theorem computeTimeToLive_spec (m : Msg) :
    (∀ pre r post minttl, m.answer = [] → m.ns = pre ++ r :: post → r.data = .soa minttl →
      (∀ q ∈ pre, ∀ n, q.data ≠ .soa n) → computeTimeToLive m = min r.ttl minttl) ∧
    (m.answer ≠ [] ∨ (∀ r ∈ m.ns, ∀ n, r.data ≠ .soa n) →
      computeTimeToLive m = sInf (ttls (m.answer ++ m.ns ++ m.extra))) ∧
    (∀ n : Msg, m.answer ~ n.answer → m.ns ~ n.ns → m.extra ~ n.extra →
      (m.answer = [] → extractNegativeTTL m = extractNegativeTTL n) →
      computeTimeToLive m = computeTimeToLive n) ∧
    ∀ t, ∀ l ∈ [Msg.answer, Msg.ns, Msg.extra], ∀ r ∈ l (normalizeTTL m t), r.isOPT = false →
        r.ttl = t := by
  have hsoa (m : Msg) (h : ∀ q ∈ m.ns, ∀ n, q.data ≠ .soa n) : extractNegativeTTL m = none := by
    simp only [extractNegativeTTL, findSome?_eq_none_iff]
    intro r hr
    cases hd : r.data with
    | soa n => exact absurd hd (h r hr n)
    | _ => rfl
  refine ⟨?_, ?_, ?_, ?_⟩
  · intro pre r post minttl hans hns hr hpre
    have hmin : (if r.ttl < minttl then r.ttl else minttl) = min r.ttl minttl := by split <;> omega
    have hnone := hsoa { ns := pre } hpre
    rw [extractNegativeTTL] at hnone
    simp [computeTimeToLive, hans, extractNegativeTTL, hns, findSome?_append, hnone, hr, hmin]
  · intro h
    have hnone : (if m.answer.isEmpty then extractNegativeTTL m else none) = none := by
      simpa using fun hans => hsoa _ (h.resolve_left (absurd hans))
    simp only [computeTimeToLive, hnone, foldl_leastTTL]
  · intro n hans hns hextra hneg
    have hone : (if m.answer.isEmpty then extractNegativeTTL m else none) =
        if n.answer.isEmpty then extractNegativeTTL n else none := by
      rw [← hans.isEmpty_eq]
      grind -linarith [List.isEmpty_iff]
    simp only [computeTimeToLive, hone, foldl_leastTTL, ttls, mem_append, hans.mem_iff, hns.mem_iff,
      hextra.mem_iff]
  · intro t l hl r hr hopt
    simp at hl
    obtain rfl | rfl | rfl := hl <;>
    · simp only [normalizeTTL, mem_map] at hr
      obtain ⟨r, -, rfl⟩ := hr
      rw [RR.setTTL_isOPT] at hopt
      simp [RR.setTTL, hopt]

theorem soa_order_matters : ∃ m n : Msg, m.answer ~ n.answer ∧ m.ns ~ n.ns ∧ m.extra ~ n.extra ∧
    computeTimeToLive m ≠ computeTimeToLive n :=
  let soa ttl : RR := ⟨"example.org.", typeSOA, 1, ttl, .soa 60⟩
  ⟨{ ns := [soa 10, soa 20] }, { ns := [soa 20, soa 10] }, .nil, .swap .., .nil, by decide⟩

end SingBox.Dns
