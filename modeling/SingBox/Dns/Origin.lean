import SingBox.Dns.Client

/-! Where the responses of a client come from. Whatever is in its caches was an
answer to an exchange that shares the place in the cache, filtered for the
options of that exchange; and a reply is a fixed response, an answer to the
exchange itself, or what the cache holds in its place. -/

namespace SingBox.Dns
open Lib List Bool Cache

variable {c : Client} {w : World} {s : ClientState} {r : Request} {question : Question}

def World.Requests (w : World) (r : Request) : Prop := ∃ call, w.calls call ∧ r ∈ call.requests

/-- The place of a key in the cache that the client uses. -/
inductive Slot
  | memory (key : DnsCacheKey)
  | file (key : SaveCacheKey)

namespace Client

def sent (c : Client) (r : Request) : Msg := c.prepareExchangeMessage r.message r.options

/-- An answer that the transport of a request may give to it. -/
def Answers (c : Client) (w : World) (r : Request) (m : Msg) : Prop :=
  ∃ result, w.answers r.transport (c.sent r) result ∧ exchangeToTransport (c.sent r) result = .ok m

structure Caches (c : Client) (r : Request) (question : Question) : Prop where
  asks : r.message.question.head? = some question
  simple : r.message.isSimpleRequest = true
  enabled : c.disableCache = false
  chosen : r.options.disableCache = false

/-- A key of a request, in some state of the network. -/
def KeyOf (c : Client) (r : Request) (question : Question) (key : DnsCacheKey) : Prop :=
  ∃ s, key = c.newCacheKey s r.transport question (c.sent r) r.options

def slot (c : Client) (key : DnsCacheKey) : Slot :=
  if c.dnsCache then .file (c.saveCacheKey key) else .memory key

/-- An answer that a request takes: its checker does not turn it down. -/
structure Takes (c : Client) (w : World) (r : Request) (m : Msg) : Prop where
  requested : w.Requests r
  answered : c.Answers w r m
  kept : rejects r.responseChecker m = false

/-- The request fills the slot with the answer. -/
structure Fills (c : Client) (w : World) (r : Request) (question : Question) (m : Msg)
    (slot : Slot) : Prop extends c.Takes w r m, c.Caches r question where
  settled : m.isSettled = true
  place : ∃ key, c.KeyOf r question key ∧ c.slot key = slot

/-- The response is what some request has left in the slot. -/
def Stored (c : Client) (w : World) (slot : Slot) (stored : Msg) : Prop :=
  ∃ r question m, c.Fills w r question m slot ∧
    stored = (applyResponseOptions question m r.options).1

inductive Replies (c : Client) (w : World) (r : Request) : Reply → Prop
  | unasked : r.message.question = [] →
      Replies c w r { response := fixedResponseStatus r.message rcodeFormatError, source := .fixed }
  | rejected {question : Question} : r.message.question.head? = some question →
      strategyRejected question r.options.strategy = true →
      Replies c w r { response := fixedResponseStatus r.message rcodeSuccess, source := .fixed }
  | exchanged {question : Question} {m : Msg} {id : Nat} :
      r.message.question.head? = some question → c.Takes w r m →
      Replies c w r {
        response := finishEDNS (c.sent r)
          { (applyResponseOptions question m r.options).1 with id := id }
        source := .exchanged }
  | cached {question : Question} {key : DnsCacheKey} {response stored : Msg} {source : Source} :
      c.Caches r question → c.KeyOf r question key → c.Stored w (c.slot key) stored →
      response.shape = stored.shape → Replies c w r { response, source }

/-- What an operation knows of its request before it has a key. -/
structure Prepared (c : Client) (r : Request) (operation : ExchangeOperation) : Prop where
  message : operation.message = c.sent r
  question : r.message.question.head? = some operation.question
  options : operation.options = c.exchangeOptions r.options
  responseChecker : operation.responseChecker = r.responseChecker
  caches : operation.disableCache = false → c.Caches r operation.question

/-- What an operation knows of its request. -/
structure Operates (c : Client) (r : Request) (operation : ExchangeOperation) : Prop
    extends c.Prepared r operation where
  key : operation.disableCache = false → c.KeyOf r operation.question operation.cacheKey

def Allows (c : Client) (w : World) (r : Request) : Phase → Prop
  | .asking => ∃ question, c.Caches r question
  | .starting _ => True
  | .loading operation _ _ | .waiting operation _ =>
    c.Operates r operation ∧ operation.disableCache = false
  | .ready operation | .exchanging operation => c.Operates r operation
  | .releasing _ reply | .done reply => ∀ x, reply = .ok x → c.Replies w r x

structure Refreshes (c : Client) (w : World) (refresh : Refresh) (r : Request)
    (question : Question) : Prop extends c.Caches r question where
  requested : w.Requests r
  key : c.KeyOf r question refresh.key
  transport : refresh.transport = r.transport
  message : refresh.message = c.sent r
  options : refresh.options = r.options ∨ refresh.options = c.exchangeOptions r.options
  responseChecker : refresh.responseChecker = r.responseChecker

/-- The caches hold answers, and the refreshes are made for requests. -/
structure Origins (c : Client) (w : World) (s : ClientState) : Prop where
  memory : s.cache.Holds fun key stored => c.Stored w (.memory key) stored
  file : s.file.Holds fun key raw =>
    ∀ stored, c.codec.unpack raw = some stored → c.Stored w (.file key) stored
  refreshes : ∀ refresh ∈ s.backgroundRefresh, ∃ r question, c.Refreshes w refresh r question

section Options

section
variable (options : DNSQueryOptions)
include options

@[simp] lemma exchangeOptions_disableCache :
    (c.exchangeOptions options).disableCache = options.disableCache := by
  unfold exchangeOptions
  split <;> rfl

/-- The timeout plays no part in the message, the key and the answer. -/
@[simp] theorem prepareExchangeMessage_exchangeOptions (message : Msg) :
      c.prepareExchangeMessage message (c.exchangeOptions options) =
      c.prepareExchangeMessage message options := by
  unfold exchangeOptions
  split <;> rfl

@[simp] lemma newCacheKey_exchangeOptions (transport : DNSTransport) (message : Msg) :
    c.newCacheKey s transport question message (c.exchangeOptions options) =
      c.newCacheKey s transport question message options := by
  unfold exchangeOptions
  split <;> rfl

@[simp] lemma applyResponseOptions_exchangeOptions (m : Msg) :
    applyResponseOptions question m (c.exchangeOptions options) =
      applyResponseOptions question m options := by
  unfold exchangeOptions
  split <;> rfl

end

/-- The subnet in a key is the one that is sent. -/
theorem newCacheKey_sent (transport : DNSTransport) :
    c.newCacheKey s transport question r.message r.options =
      c.newCacheKey s transport question (c.sent r) r.options := by
  unfold newCacheKey sent prepareExchangeMessage
  by_cases hremove : r.options.removeClientSubnet
  · simp [hremove]
  · cases hnet : r.options.clientSubnet with
    | some p => simp [hremove]
    | none =>
      cases hclient : c.clientSubnet with
      | some p | none => simp [hremove]

end Options

variable {response : Msg} {isStale : Bool}

lemma serve_shape {now : Nat} {e : Timed Msg}
    (h : c.serve now e = some (response, isStale)) : response.shape = e.value.shape := by
  unfold serve at h
  split at h
  · cases h
    rfl
  · split at h
    · cases h
      exact shape_normalizeTTL _ _
    · cases h
      exact shape_normalizeTTL _ _
    · cases h

variable {key : DnsCacheKey}

namespace Origins
variable (h : c.Origins w s)
include h

/-- What the cache serves for a key is stored in the slot of the key. -/
theorem load (hload : c.loadResponse s key = some (response, isStale)) :
    ∃ stored, c.Stored w (c.slot key) stored ∧ response.shape = stored.shape := by
  unfold loadResponse at hload
  by_cases hfile : c.dnsCache
  · rw [if_pos hfile, loadPersistentResponse] at hload
    cases he : s.file.loadDNSCache (c.saveCacheKey key) with
    | none => simp [he] at hload
    | some e =>
      cases hm : c.codec.unpack e.value with
      | none => simp [he, hm] at hload
      | some m =>
        simp only [he, hm] at hload
        refine ⟨m, ?_, serve_shape hload⟩
        rw [slot, if_pos hfile]
        exact h.file.load he m hm
  · rw [if_neg hfile] at hload
    cases he : s.cache key with
    | none => simp [he] at hload
    | some e =>
      simp only [he] at hload
      refine ⟨e.value, ?_, serve_shape hload⟩
      rw [slot, if_neg hfile]
      exact h.memory key e he

lemma dropExpired (key : DnsCacheKey) : c.Origins w (c.dropExpired s key) := by
  unfold Client.dropExpired
  split
  · exact { h with memory := h.memory.remove key }
  · exact h

lemma store {stored : Msg} (hstored : c.Stored w (c.slot key) stored)
    (timeToLive : Nat) : c.Origins w (c.storeCache s key stored timeToLive) := by
  unfold storeCache
  by_cases httl : timeToLive = 0
  · rwa [if_pos httl]
  · rw [if_neg httl]
    by_cases hfile : c.dnsCache
    · rw [if_pos hfile]
      rw [slot, if_pos hfile] at hstored
      cases hpack : c.codec.pack stored with
      | none => exact h
      | some packed =>
        refine { h with file := h.file.save ?_ }
        intro m hm
        rw [c.codec.unpack_pack hpack, Option.some.injEq] at hm
        exact hm ▸ hstored
    · rw [if_neg hfile]
      rw [slot, if_neg hfile] at hstored
      split
      · exact h
      · exact { h with memory := h.memory.add hstored }

lemma storeAnswer {transport : DNSTransport} {finished : Msg × Nat}
    (hstored : ∀ key', s.finishCacheKey transport key = some key' →
      c.Stored w (c.slot key') finished.1) :
    c.Origins w (c.storeAnswer s transport key finished) := by
  unfold Client.storeAnswer
  cases hkey : s.finishCacheKey transport key with
  | none => exact h
  | some key' => exact h.store (hstored key' hkey) _

lemma saveRDRC (transport : DNSTransport)
    (question : Question) : c.Origins w (c.saveRDRC s transport question) := by
  unfold Client.saveRDRC
  split
  · exact { h with file := { h.file with } }
  · exact h

end Origins

lemma KeyOf.question_eq (h : c.KeyOf r question key) : key.question = question := by
  obtain ⟨s, rfl⟩ := h
  rfl

lemma KeyOf.finish {key' : DnsCacheKey} (h : c.KeyOf r question key)
    (hfinish : s.finishCacheKey r.transport key = some key') : c.KeyOf r question key' := by
  obtain ⟨before, rfl⟩ := h
  unfold ClientState.finishCacheKey at hfinish
  split at hfinish
  · cases hfinish
    exact ⟨s, rfl⟩
  · cases hfinish

lemma Takes.stored {m : Msg} (h : c.Takes w r m)
    (hcaches : c.Caches r question) (hkey : c.KeyOf r question key) (hsettled : m.isSettled) :
    c.Stored w (c.slot key) (applyResponseOptions question m r.options).1 :=
  ⟨r, question, m, { h, hcaches with settled := hsettled, place := ⟨key, hkey, rfl⟩ }, rfl⟩

variable {operation : ExchangeOperation}

lemma Origins.finishExchange (h : c.Origins w s) {m : Msg}
    (hop : c.Operates r operation) (hr : w.Requests r) (hm : c.Answers w r m) :
    c.Origins w (c.finishExchange s r.transport operation m).1 ∧
      ∀ x, (c.finishExchange s r.transport operation m).2 = .ok x → c.Replies w r x := by
  unfold Client.finishExchange
  rw [hop.options, hop.responseChecker, hop.message, applyResponseOptions_exchangeOptions]
  by_cases hrejects : rejects r.responseChecker m
  · simp only [hrejects, if_true]
    refine ⟨?_, by rintro x ⟨⟩⟩
    split
    · exact h
    · exact h.saveRDRC _ _
  · have htakes : c.Takes w r m := ⟨hr, hm, eq_false_iff.mpr hrejects⟩
    rw [if_neg hrejects]
    refine ⟨?_, ?_⟩
    · split
      · exact h
      · next hcache =>
        rw [not_eq_true, or_eq_false_iff, not_eq_false'] at hcache
        apply h.storeAnswer
        intro key hkey
        exact htakes.stored (hop.caches hcache.1) ((hop.key hcache.1).finish hkey) hcache.2
    · intro x hx
      cases hx
      exact .exchanged hop.question htakes

variable {refresh : Refresh}

lemma Origins.backgroundRefresh (h : c.Origins w s)
    (hrefr : c.Refreshes w refresh r question) : c.Origins w (s.backgroundRefreshDNS refresh) := by
  unfold ClientState.backgroundRefreshDNS
  split
  · exact h
  · refine ⟨h.memory, h.file, ?_⟩
    intro other hother
    rw [mem_append, mem_singleton] at hother
    obtain hother | rfl := hother
    · exact h.refreshes other hother
    · exact ⟨r, question, hrefr⟩

variable {result : TransportResult}

lemma Origins.finishRefresh (h : c.Origins w s) (hmem : refresh ∈ s.backgroundRefresh)
    (hres : w.answers refresh.transport refresh.message result) :
    c.Origins w (c.finishRefresh s refresh result) := by
  obtain ⟨r, question, hrefr⟩ := h.refreshes refresh hmem
  have hrest : c.Origins w { s with
      backgroundRefresh := s.backgroundRefresh.filter fun other => other.key != refresh.key } :=
    ⟨h.memory, h.file, fun other hother => h.refreshes other (mem_of_mem_filter hother)⟩
  unfold Client.finishRefresh
  cases hm : exchangeToTransport refresh.message result with
  | error e => exact hrest
  | ok m =>
    by_cases hrejects : rejects refresh.responseChecker m
    · simp only [hrejects, if_true]
      exact hrest.saveRDRC _ _
    · by_cases hsettled : m.isSettled
      · simp only [hrejects, hsettled]
        apply hrest.storeAnswer
        intro key hkey
        rw [hrefr.transport] at hkey hres
        rw [hrefr.message] at hres hm
        rw [hrefr.responseChecker] at hrejects
        have htakes : c.Takes w r m :=
          ⟨hrefr.requested, ⟨result, hres, hm⟩, eq_false_iff.mpr hrejects⟩
        have hstored := htakes.stored hrefr.toCaches (hrefr.key.finish hkey) hsettled
        have happly : applyResponseOptions question m refresh.options =
            applyResponseOptions question m r.options := by
          obtain hopts | hopts := hrefr.options
          · rw [hopts]
          · rw [hopts, applyResponseOptions_exchangeOptions]
        rwa [hrefr.key.question_eq, happly]
      · simp only [hrejects, hsettled]
        exact hrest

lemma prepared_newOperation (h : r.message.question.head? = some question) :
    c.Prepared r (c.newOperation r question) where
  message := prepareExchangeMessage_exchangeOptions _ _
  question := h
  options := rfl
  responseChecker := rfl
  caches hcache := by
    rw [newOperation, exchangeOptions_disableCache, or_eq_false_iff,
      or_eq_false_iff, not_eq_false'] at hcache
    exact ⟨h, hcache.1.1, hcache.1.2, hcache.2⟩

/-- The key of an operation is taken anew, when it begins and when it has waited. -/
theorem Prepared.rekey (h : c.Prepared r operation)
    (s : ClientState) (releaseCond : Option DnsExchangeKey) : c.Operates r { operation with
      cacheKey := c.newCacheKey s r.transport operation.question operation.message operation.options
      releaseCond := releaseCond } := by
  refine ⟨{ h with }, fun _ => ⟨s, ?_⟩⟩
  rw [h.options, h.message, newCacheKey_exchangeOptions]

lemma Origins.beginExchange (h : c.Origins w s) (i : Nat) (r : Request) (allowWait : Bool) :
    c.Origins w (c.beginExchange s i r allowWait).1 ∧
      c.Allows w r (c.beginExchange s i r allowWait).2 := by
  unfold Client.beginExchange
  cases hquest : r.message.question with
  | nil =>
    refine ⟨h, ?_⟩
    rintro x ⟨⟩
    exact .unasked hquest
  | cons question questions =>
    have hhead : r.message.question.head? = some question := by
      rw [hquest]
      rfl
    have hprep := prepared_newOperation (c := c) hhead
    dsimp only
    by_cases hrejected : strategyRejected question r.options.strategy
    · rw [if_pos hrejected]
      refine ⟨h, ?_⟩
      rintro x ⟨⟩
      exact .rejected hhead hrejected
    · rw [if_neg hrejected]
      by_cases hcache : (c.newOperation r question).disableCache
      · rw [if_pos hcache]
        exact ⟨h, hprep, fun hfalse => by simp [hcache] at hfalse⟩
      · rw [if_neg hcache, acquire]
        rw [not_eq_true] at hcache
        split
        · exact ⟨h, hprep.rekey s _, hcache⟩
        · exact ⟨{ h with }, hprep.rekey s _, hcache⟩

lemma Caches.refreshes (h : c.Caches r question) (hr : w.Requests r)
    (hkey : c.KeyOf r question key) {options : DNSQueryOptions}
    (hopts : options = r.options ∨ options = c.exchangeOptions r.options) :
    c.Refreshes w (r.refresh key (c.sent r) options) r question :=
  { h with
    requested := hr
    key := hkey
    transport := rfl
    message := rfl
    options := hopts
    responseChecker := rfl }

lemma Origins.loop (h : c.Origins w s)
    (hop : c.Operates r operation) (hcache : operation.disableCache = false)
    (hr : w.Requests r) (allowWait : Bool) (cond : Option Nat) :
    c.Origins w (c.load s r operation allowWait cond).1 ∧
      c.Allows w r (c.load s r operation allowWait cond).2 := by
  have hmissed : c.Allows w r (operation.missed allowWait cond) := by
    cases cond with
    | none => exact hop
    | some cond =>
      cases allowWait with
      | true => exact ⟨hop, hcache⟩
      | false => exact trivial
  unfold Client.load
  cases hload : c.loadResponse s operation.cacheKey with
  | none => exact ⟨h.dropExpired _, hmissed⟩
  | some found =>
    obtain ⟨response, isStale⟩ := found
    obtain ⟨stored, hstored, hshape⟩ := h.load hload
    have hhit : ∀ source, c.Allows w r (operation.hit response source) := by
      rintro source x ⟨⟩
      exact .cached (hop.caches hcache) (hop.key hcache) hstored hshape
    cases isStale with
    | false => exact ⟨h, hhit _⟩
    | true =>
      dsimp only
      rw [hop.message]
      split
      · exact ⟨h, hmissed⟩
      · exact ⟨h.backgroundRefresh ((hop.caches hcache).refreshes hr (hop.key hcache)
          (.inr hop.options)), hhit _⟩

lemma Operates.check (h : c.Operates r operation) : c.Allows w r (c.check s r operation) := by
  unfold Client.check
  split
  · rintro x ⟨⟩
  · split
    · rintro x ⟨⟩
    · exact h

namespace Origins
variable (h : c.Origins w s)
include h

lemma answer (hop : c.Operates r operation) (hr : w.Requests r)
    (hres : w.answers r.transport operation.message result) :
    c.Origins w (c.answer s r operation result).1 ∧
      c.Allows w r (c.answer s r operation result).2 := by
  unfold Client.answer
  cases hm : exchangeToTransport operation.message result with
  | error e =>
    refine ⟨h, ?_⟩
    rintro x ⟨⟩
  | ok m =>
    rw [hop.message] at hm hres
    exact h.finishExchange hop hr ⟨result, hres, hm⟩

lemma release (i : Nat) (operation : ExchangeOperation) : c.Origins w (s.release i operation) := by
  unfold ClientState.release
  split
  · exact h
  · exact { h with }

lemma questionCache (hcaches : c.Caches r question)
    (hr : w.Requests r) : c.Origins w (c.questionCache s r).1 ∧
      c.Allows w r (c.questionCache s r).2 := by
  have hasks := hcaches.asks
  unfold Client.questionCache
  cases hquest : r.message.question with
  | nil => simp [hquest] at hasks
  | cons asked questions =>
    rw [hquest, head?_cons, Option.some.injEq] at hasks
    subst hasks
    dsimp only
    rw [newCacheKey_sent]
    have hkey : c.KeyOf r asked (c.newCacheKey s r.transport asked (c.sent r) r.options) := ⟨s, rfl⟩
    cases hload : c.loadResponse s (c.newCacheKey s r.transport asked (c.sent r) r.options) with
    | none => exact ⟨h.dropExpired _, trivial⟩
    | some found =>
      obtain ⟨response, isStale⟩ := found
      obtain ⟨stored, hstored, hshape⟩ := h.load hload
      have hreply : ∀ source, c.Replies w r { response, source } := fun source =>
        .cached hcaches hkey hstored hshape
      cases isStale with
      | false =>
        refine ⟨h, ?_⟩
        rintro x ⟨⟩
        exact hreply _
      | true =>
        dsimp only
        split
        · exact ⟨h, trivial⟩
        · refine ⟨h.backgroundRefresh (hcaches.refreshes hr hkey (.inl rfl)), ?_⟩
          rintro x ⟨⟩
          exact hreply _

/-- A thread of a request stays in the phases of the request. -/
theorem advance {i : Nat} {t : Thread} {a : ThreadAction}
    (hr : w.Requests t.request) (ht : c.Allows w t.request t.phase)
    (hans : ∀ result operation, a = .answer result → t.phase = .exchanging operation →
      w.answers t.request.transport operation.message result)
    {next : ClientState × Phase} (hnext : c.advance s i t a = some next) :
    c.Origins w next.1 ∧ c.Allows w t.request next.2 := by
  obtain ⟨r, phase⟩ := t
  cases phase with
  | asking =>
    cases a with
    | ask =>
      cases hnext
      obtain ⟨question, hcaches⟩ := ht
      exact h.questionCache hcaches hr
    | begin | cancel | load | wake | check | answer | release => cases hnext
  | starting allowWait =>
    cases a with
    | begin =>
      cases hnext
      exact h.beginExchange i r allowWait
    | cancel =>
      cases hnext
      exact ⟨h, by rintro x ⟨⟩⟩
    | ask | load | wake | check | answer | release => cases hnext
  | loading operation allowWait cond =>
    cases a with
    | load =>
      cases hnext
      exact h.loop ht.1 ht.2 hr allowWait cond
    | ask | begin | cancel | wake | check | answer | release => cases hnext
  | waiting operation cond =>
    cases a with
    | wake =>
      simp only [Client.advance] at hnext
      split at hnext
      · cases hnext
        exact ⟨h, ht.1.rekey s operation.releaseCond, ht.2⟩
      · cases hnext
    | cancel =>
      cases hnext
      exact ⟨h, by rintro x ⟨⟩⟩
    | ask | begin | load | check | answer | release => cases hnext
  | ready operation =>
    cases a with
    | check =>
      cases hnext
      exact ⟨h, ht.check⟩
    | ask | begin | cancel | load | wake | answer | release => cases hnext
  | exchanging operation =>
    cases a with
    | answer result =>
      cases hnext
      exact h.answer ht hr (hans result operation rfl rfl)
    | ask | begin | cancel | load | wake | check | release => cases hnext
  | releasing operation reply =>
    cases a with
    | release =>
      cases hnext
      exact ⟨h.release i operation, ht⟩
    | ask | begin | cancel | load | wake | check | answer => cases hnext
  | done reply => cases a <;> cases hnext

end Origins

variable {call : ClientCall}

/-- The requests of a lookup are simple, and each may ask the cache. -/
theorem allows_start (hr : r ∈ call.requests) : c.Allows w r (c.startPhase r call) := by
  cases call with
  | exchange | exchangeAsync => exact trivial
  | lookup l =>
    have hlookup : ∃ qType, r = l.request qType := by
      simp only [ClientCall.requests] at hr
      split at hr
      · exact ⟨_, mem_singleton.mp hr⟩
      · exact ⟨_, mem_singleton.mp hr⟩
      · obtain rfl | hr := mem_cons.mp hr
        · exact ⟨_, rfl⟩
        · exact ⟨_, mem_singleton.mp hr⟩
    obtain ⟨qType, rfl⟩ := hlookup
    unfold startPhase
    dsimp only
    split
    · exact trivial
    · next hcache =>
      rw [not_eq_true, or_eq_false_iff] at hcache
      exact ⟨_, rfl, rfl, hcache.1, hcache.2⟩

/-- What holds of a client and of all that runs on it. -/
structure Sound (c : Client) (w : World) (s : ClientSystem) : Prop where
  origins : c.Origins w s.toClientState
  threads : ∀ t ∈ s.threads, w.Requests t.request ∧ c.Allows w t.request t.phase
  called : ∀ call first, (call, first) ∈ s.calls → w.calls call
  bound : ∀ call first, (call, first) ∈ s.calls → first ≤ s.threads.length
  aligned : ∀ call first, (call, first) ∈ s.calls →
    call.requests <+: (s.threads.map Thread.request).drop first

lemma sound_initial : c.Sound w {} where
  origins := ⟨holds_empty, ⟨holds_empty, holds_empty⟩, by simp⟩
  threads := by simp
  called := by simp
  bound := by simp
  aligned := by simp

section Sound

variable {y : ClientSystem}

namespace Sound
variable (h : c.Sound w y)
include h

lemma state {state : ClientState} (hst : c.Origins w state) :
    c.Sound w { y with toClientState := state } :=
  { h with origins := hst }

lemma begin (hcall : w.calls call) : c.Sound w (c.begin y call) := { h with
  threads t ht := by
    simp only [Client.begin, mem_append, mem_map] at ht
    obtain ht | ⟨r, hr, rfl⟩ := ht
    · exact h.threads t ht
    · exact ⟨⟨call, hcall, hr⟩, allows_start hr⟩
  called other first hmem := by
    simp only [Client.begin, mem_append, mem_singleton] at hmem
    obtain hmem | hmem := hmem
    · exact h.called other first hmem
    · cases hmem
      exact hcall
  bound other first hmem := by
    simp only [Client.begin, mem_append, mem_singleton, length_append] at hmem ⊢
    obtain hmem | hmem := hmem
    · exact Nat.le_add_right_of_le (h.bound other first hmem)
    · cases hmem
      exact Nat.le_add_right _ _
  aligned other first hmem := by
    simp only [Client.begin, mem_append, mem_singleton] at hmem ⊢
    rw [map_append, map_map]
    obtain hmem | hmem := hmem
    · rw [drop_append_of_le_length (by simpa using h.bound other first hmem)]
      exact (h.aligned other first hmem).trans (prefix_append _ _)
    · cases hmem
      have hlen : y.threads.length = (y.threads.map Thread.request).length := by simp
      refine ⟨[], ?_⟩
      rw [hlen, drop_left, Function.comp_def, map_id', append_nil] }

lemma advance {i : Nat} {t : Thread} {a : ThreadAction}
    (ht : y.threads[i]? = some t) (hadm : w.Admits y (.thread i a))
    {next : ClientState × Phase} (hnext : c.advance y.toClientState i t a = some next) :
    c.Sound w { y with
      toClientState := next.1, threads := y.threads.set i { t with phase := next.2 } } := by
  obtain ⟨hr, hphase⟩ := h.threads t (mem_of_getElem? ht)
  have hans : ∀ result operation, a = .answer result → t.phase = .exchanging operation →
      w.answers t.request.transport operation.message result := by
    intro result operation ha hexchanging
    subst ha
    exact hadm t.request operation (by rw [ht, ← hexchanging])
  obtain ⟨horig, hallow⟩ := h.origins.advance hr hphase hans hnext
  have hreqs : (y.threads.set i { t with phase := next.2 }).map Thread.request =
      y.threads.map Thread.request := by
    apply ext_getElem?
    intro j
    rw [getElem?_map, getElem?_map, getElem?_set]
    by_cases hij : i = j
    · subst hij
      obtain ⟨hi, -⟩ := List.getElem?_eq_some_iff.mp ht
      rw [if_pos rfl, if_pos hi, ht]
      rfl
    · rw [if_neg hij]
  refine ⟨horig, ?_, h.called, ?_, ?_⟩
  · intro t' ht'
    obtain ht' | rfl := mem_or_eq_of_mem_set ht'
    · exact h.threads t' ht'
    · exact ⟨hr, hallow⟩
  · simpa using h.bound
  · simpa only [hreqs] using h.aligned

lemma step {a : ClientAction} {y' : ClientSystem}
    (hadm : w.Admits y a) (hstep : c.step y a = some y') : c.Sound w y' := by
  have horig := h.origins
  cases a with
  | elapse now =>
    simp only [Client.step] at hstep
    split at hstep
    · cases hstep
      exact h.state { horig with }
    · cases hstep
  | network environment =>
    cases hstep
    exact h.state { horig with }
  | evict key =>
    cases hstep
    exact h.state { horig with memory := horig.memory.remove key }
  | clearCache =>
    cases hstep
    exact h.state ⟨holds_empty, CacheFile.holds_clear, horig.refreshes⟩
  | flushDNSCache key =>
    cases hstep
    exact h.state { horig with file := horig.file.flush key }
  | flushedDNSCache key =>
    cases hstep
    exact h.state { horig with file := horig.file.flushed key }
  | cleanupDNSCache key =>
    cases hstep
    exact h.state { horig with file := horig.file.cleanup key }
  | flushRDRC key =>
    cases hstep
    exact h.state { horig with file := horig.file.flushRDRC key _ _ }
  | flushedRDRC key =>
    cases hstep
    exact h.state { horig with file := { horig.file with } }
  | call call =>
    cases hstep
    exact h.begin hadm
  | thread i a =>
    simp only [Client.step] at hstep
    split at hstep
    · cases hstep
    · next t ht =>
      obtain ⟨next, hnext, rfl⟩ := Option.map_eq_some_iff.mp hstep
      exact h.advance ht hadm hnext
  | refresh key result =>
    obtain ⟨refresh, hfind, rfl⟩ := Option.map_eq_some_iff.mp hstep
    have hmem := mem_of_find?_eq_some hfind
    have hkey : refresh.key = key := by simpa using find?_some hfind
    exact h.state (horig.finishRefresh hmem (hadm refresh hmem hkey))

end Sound

lemma Reaches.sound (h : c.Reaches w y) : c.Sound w y :=
  Machine.Reaches.invariant h sound_initial fun hadm hstep hsound => hsound.step hadm hstep

/-- A reply to a call is a reply to one of its requests. -/
theorem Sound.reply (h : c.Sound w y) {first : Nat}
    (hcall : (call, first) ∈ y.calls) {x : Reply} (hx : .ok x ∈ y.replies call first) :
    ∃ r ∈ call.requests, c.Replies w r x := by
  obtain ⟨t, ht, hreply⟩ := mem_filterMap.mp hx
  have hmem := mem_of_mem_drop (mem_of_mem_take ht)
  refine ⟨t.request, ?_, ?_⟩
  · have hreqs : ((y.threads.drop first).take call.requests.length).map Thread.request =
        call.requests := by
      rw [map_take, map_drop]
      exact (prefix_iff_eq_take.mp (h.aligned call first hcall)).symm
    exact hreqs ▸ mem_map_of_mem ht
  · have hallow := (h.threads t hmem).2
    unfold Thread.reply at hreply
    split at hreply
    · next hphase =>
      cases hreply
      rw [hphase] at hallow
      exact hallow x rfl
    · cases hreply

end Sound

end Client

end SingBox.Dns
