import SingBox.Dns.Origin
import SingBox.Route.Locality

/-! Address limits at the client. The checker of a rule is asked about a fresh
answer only: what the cache serves has passed the checker of the request that
stored it, so the requests that share a place in the cache have to agree. -/

namespace SingBox.Dns
open Lib Route Machine Option List

/-- A check that looks at the addresses of a response and at nothing else. -/
def AddressesOnly (check : Msg → Bool) : Prop :=
  ∀ a b, messageToAddresses a = messageToAddresses b → check a = check b

def addressLimitResponseCheck (rule : Option Rule) (metadata : InboundContext) :
    Option (Msg → Bool) :=
  match rule with
  | none => none
  | some rule =>
    if rule.withAddressLimit then
      some fun response => rule.matchAddressLimit metadata .fresh (some response)
    else none

lemma addressesOnly_addressLimitResponseCheck {found : Option Rule} {metadata : InboundContext}
    (hfound : ∀ rule ∈ found, ∀ leaf ∈ rule.leaves, leaf.ReadsBound ∧ leaf.matchResponse = false) :
    ∀ check ∈ addressLimitResponseCheck found metadata, AddressesOnly check := by
  intro check hcheck
  cases found with
  | none => cases hcheck
  | some rule =>
    rw [mem_def, addressLimitResponseCheck] at hcheck
    split at hcheck
    · cases hcheck
      intro a b hab
      exact Rule.matchAddressLimit_congr (fun leaf hl => (hfound rule rfl leaf hl).1)
        (fun leaf hl => (hfound rule rfl leaf hl).2) hab
    · cases hcheck

/-- The request is answered without an exchange and without the cache. -/
def Request.Unasked (r : Request) : Prop :=
  r.message.question = [] ∨ ∃ question, r.message.question.head? = some question ∧
      strategyRejected question r.options.strategy = true

def Client.Shares (c : Client) (r r' : Request) : Prop :=
  ∃ question question' key key', c.Caches r question ∧ c.Caches r' question' ∧
    c.KeyOf r question key ∧ c.KeyOf r' question' key' ∧ c.slot key = c.slot key'

/-- The requests of a world agree on what they accept. What one of them takes of
an answer passes its own check, and the checks of those that find it in the
cache. -/
structure World.Agrees (w : World) (c : Client) : Prop where
  addresses : ∀ r, w.Requests r → ∀ check ∈ r.responseChecker, AddressesOnly check
  unasked : ∀ r, w.Requests r → ∀ check ∈ r.responseChecker, r.Unasked → check {} = true
  filtered : ∀ r question m, c.Takes w r m → r.message.question.head? = some question →
    ∀ check ∈ r.responseChecker, check (filterHints question r.options.strategy m) = true
  shared : ∀ r r' question m, c.Takes w r m → m.isSettled = true →
    r.message.question.head? = some question → w.Requests r' → c.Shares r r' →
    ∀ check ∈ r'.responseChecker, check (filterHints question r.options.strategy m) = true

variable {c : Client} {w : World} {y : ClientSystem} {check : Msg → Bool} {m : Msg}

/-- Whoever fills the place that a request looks at shares it with the request. -/
theorem Client.Fills.shares {r r' : Request} {question question' : Question}
    {key : DnsCacheKey} (hfills : c.Fills w r question m (c.slot key))
    (hcaches : c.Caches r' question') (hkey : c.KeyOf r' question' key) : c.Shares r r' := by
  obtain ⟨key₀, hkey₀, hslot⟩ := hfills.place
  exact ⟨question, question', key₀, key, hfills.toCaches, hcaches, hkey₀, hkey, hslot⟩

lemma messageToAddresses_fixedResponseStatus (message : Msg) (rcode : Nat) :
    messageToAddresses (fixedResponseStatus message rcode) = messageToAddresses {} := by
  simp [messageToAddresses, dnsResponseAddresses, fixedResponseStatus]

variable {r : Request}

/-- Every reply to a request of such a world passes the check of the request. -/
theorem World.Agrees.passes (hw : w.Agrees c) (hr : w.Requests r) {x : Reply}
    (hx : c.Replies w r x) (hcheck : check ∈ r.responseChecker) : check x.response := by
  have haddrs := hw.addresses r hr check hcheck
  cases hx with
  | unasked hquest =>
    rw [haddrs _ {} (messageToAddresses_fixedResponseStatus _ _)]
    exact hw.unasked r hr check hcheck (.inl hquest)
  | rejected hquest hrejected =>
    rw [haddrs _ {} (messageToAddresses_fixedResponseStatus _ _)]
    exact hw.unasked r hr check hcheck (.inr ⟨_, hquest, hrejected⟩)
  | @exchanged question m id hquest htakes =>
    rw [haddrs _ (filterHints question r.options.strategy m)]
    · exact hw.filtered r question m htakes hquest check hcheck
    · rw [messageToAddresses_finishEDNS]
      exact messageToAddresses_congr (applyResponseOptions_shape question m r.options)
  | @cached question key response stored source hcaches hkey hstored hshape =>
    obtain ⟨r₀, question₀, m, hfills, rfl⟩ := hstored
    have hshares : c.Shares r₀ r := hfills.shares hcaches hkey
    rw [haddrs _ (filterHints question₀ r₀.options.strategy m)]
    · exact hw.shared r₀ r question₀ m hfills.toTakes hfills.settled hfills.asks hr hshares
        check hcheck
    · exact messageToAddresses_congr (hshape.trans (applyResponseOptions_shape question₀ m _))

/-- The addresses are those of responses that pass the check. -/
def PassedAddresses (check : Msg → Bool) (addresses : List Addr) : Prop :=
  ∃ responses : List Msg, responses ≠ [] ∧ (∀ m ∈ responses, check m = true) ∧
    addresses = responses.flatMap messageToAddresses

def Returned.Passes (check : Msg → Bool) : Returned → Prop
  | .response (.ok m) => check m = true
  | .addresses (.ok a) => PassedAddresses check a
  | .response (.error _) | .addresses (.error _) => True

lemma PassedAddresses.append {a b : List Addr} (ha : PassedAddresses check a)
    (hb : PassedAddresses check b) : PassedAddresses check (a ++ b) := by
  obtain ⟨as, hne, has, rfl⟩ := ha
  obtain ⟨bs, -, hbs, rfl⟩ := hb
  refine ⟨as ++ bs, by simp [hne], ?_, flatMap_append.symm⟩
  intro m hm
  obtain hm | hm := mem_append.mp hm
  · exact has m hm
  · exact hbs m hm

variable {addresses : List Addr}

lemma passedAddresses_lookup {reply : Except ClientError Reply}
    (h : ∀ x, reply = .ok x → check x.response)
    (haddrs : lookupAddresses reply = .ok addresses) : PassedAddresses check addresses := by
  unfold lookupAddresses at haddrs
  split at haddrs
  · cases haddrs
  · next x =>
    split at haddrs
    · cases haddrs
    · cases haddrs
      exact ⟨[x.response], by simp, by simpa using h x rfl, by simp⟩

/-- One kind of address passes by itself, and both pass together. -/
theorem passedAddresses_lookupBoth {strategy : DomainStrategy}
    {result4 result6 : Except ClientError (List Addr)}
    (h4 : ∀ a, result4 = .ok a → PassedAddresses check a)
    (h6 : ∀ a, result6 = .ok a → PassedAddresses check a)
    (h : lookupBoth strategy result4 result6 = .ok addresses) :
    PassedAddresses check addresses := by
  cases result4 with
  | error e4 =>
    cases result6 with
    | error e6 => cases h
    | ok a6 =>
      cases a6 with
      | nil => cases h
      | cons a as =>
        cases h
        simpa [sortAddresses, Except.toOption] using h6 _ rfl
  | ok a4 =>
    cases result6 with
    | error e6 =>
      cases a4 with
      | nil => cases h
      | cons a as =>
        cases h
        simpa [sortAddresses, Except.toOption] using h4 _ rfl
    | ok a6 =>
      have hsorted : addresses = sortAddresses a4 a6 strategy := by
        cases a4 with
        | nil =>
          cases a6 with
          | nil =>
            cases h
            simp [sortAddresses]
          | cons => cases h; rfl
        | cons => cases h; rfl
      rw [hsorted, sortAddresses]
      split
      · exact (h6 a6 rfl).append (h4 a4 rfl)
      · exact (h4 a4 rfl).append (h6 a6 rfl)

variable {call : ClientCall}

lemma ClientCall.responseChecker_of_mem
    (h : r ∈ call.requests) : r.responseChecker = call.responseChecker := by
  cases call with
  | exchange r' | exchangeAsync r' =>
    cases mem_singleton.mp h
    rfl
  | lookup l =>
    simp only [ClientCall.requests] at h
    split at h
    · cases mem_singleton.mp h
      rfl
    · cases mem_singleton.mp h
      rfl
    · obtain rfl | h := mem_cons.mp h
      · rfl
      · cases mem_singleton.mp h
        rfl

lemma ClientCall.value_passes {replies : List (Except ClientError Reply)}
    {value : Returned} (h : ∀ x, .ok x ∈ replies → check x.response)
    (hvalue : call.value replies = some value) : value.Passes check := by
  cases call with
  | exchange r | exchangeAsync r =>
    simp only [ClientCall.value] at hvalue
    split at hvalue
    · next reply =>
      cases hvalue
      cases reply with
      | error e => exact trivial
      | ok x => exact h x (by simp)
    · cases hvalue
  | lookup l =>
    simp only [ClientCall.value] at hvalue
    split at hvalue
    · next reply =>
      cases hvalue
      cases haddrs : lookupAddresses reply with
      | error e => exact trivial
      | ok addresses =>
        refine passedAddresses_lookup ?_ haddrs
        rintro x rfl
        exact h x (by simp)
    · next reply4 reply6 =>
      cases hvalue
      cases haddrs : lookupBoth l.strategy (lookupAddresses reply4)
          (lookupAddresses reply6) with
      | error e => exact trivial
      | ok addresses =>
        refine passedAddresses_lookupBoth ?_ ?_ haddrs
        all_goals
          intro a ha
          refine passedAddresses_lookup ?_ ha
          rintro x rfl
          exact h x (by simp)
    · cases hvalue

/-- **What a call with a checker returns passes its check**, whether it comes from
a transport or from the cache, where the requests on the client agree. -/
theorem Client.returned_passes (hw : w.Agrees c) (hy : c.Reaches w y) {call : ClientCall}
    {first : Nat} (hcall : (call, first) ∈ y.calls) (hcheck : call.responseChecker = some check)
    {value : Returned} (hvalue : y.returned call first = some value) : value.Passes check := by
  have hsound := hy.sound
  unfold ClientSystem.returned at hvalue
  split at hvalue
  · apply ClientCall.value_passes _ hvalue
    intro x hx
    obtain ⟨r, hr, hreply⟩ := hsound.reply hcall hx
    have hreqs : w.Requests r := ⟨call, hsound.called call first hcall, hr⟩
    apply hw.passes hreqs hreply
    rw [mem_def, ClientCall.responseChecker_of_mem hr, hcheck]
  · cases hvalue

/-- Nothing is packed: the cache in memory has no need of it. -/
def memoryCodec : Codec where
  pack _ := none
  unpack _ := none
  unpack_pack h := by cases h
  prefixString _ := ""

def memoryClient : Client where
  codec := memoryCodec

def addressRequest (responseChecker : Option (Msg → Bool)) : Request where
  transport := { tag := "upstream" }
  message := { question := [{ name := "example.com.", qtype := typeA, qclass := 1 }] }
  responseChecker := responseChecker

def limitedRule (a : BitVec 32) : Rule := .default { toDefaultRule := singleAddress a }

def limitedCheck (a : BitVec 32) (response : Msg) : Bool :=
  (limitedRule a).matchAddressLimit {} .fresh (some response)

/-- An exchange that is answered by its transport, and one that finds the answer
in the cache. -/
def exchangedThenCached (first second : Request) (m : Msg) : List ClientAction :=
  [.call (.exchange first), .thread 0 .begin, .thread 0 .load, .thread 0 .check,
    .thread 0 (.answer (.response m)), .thread 0 .release,
    .call (.exchange second), .thread 1 .begin, .thread 1 .load, .thread 1 .release]

/-- The transports of this world know one answer, and its calls one request. -/
def oneAnswer (r : Request) (m : Msg) : World where
  calls call := call = .exchange r
  answers _ _ result := result = .response m

lemma oneAnswer_requests {r' : Request} (h : (oneAnswer r m).Requests r') : r' = r := by
  obtain ⟨call, rfl, hr⟩ := h
  exact mem_singleton.mp hr

lemma Client.Takes.passes (h : c.Takes w r m) (hcheck : check ∈ r.responseChecker) : check m := by
  have hkept := h.kept
  rw [mem_def.mp hcheck, rejects, any_some, Bool.or_eq_false_iff,
    Bool.not_eq_false', Bool.not_eq_false'] at hkept
  exact hkept.2

lemma oneAnswer_agrees (c : Client) (a : BitVec 32) :
    (oneAnswer (addressRequest (some (limitedCheck a))) (addressResponse a)).Agrees c where
  addresses r hr check hcheck := by
    cases oneAnswer_requests hr
    cases hcheck
    refine @addressesOnly_addressLimitResponseCheck (some (limitedRule a)) {} ?_ _ rfl
    rintro rule ⟨⟩
    rw [limitedRule, Rule.forall_leaves_default]
    refine ⟨⟨?_, by simp⟩, rfl⟩
    simp [singleAddress, DefaultRule.plainItems, RuleItem.isResponseMatchField]
  unasked r hr check hcheck hunasked := by
    cases oneAnswer_requests hr
    obtain hquest | ⟨question, hquest, hrejected⟩ := hunasked
    · cases hquest
    · cases hquest
      cases hrejected
  filtered r question m htakes hquest check hcheck := by
    cases oneAnswer_requests htakes.requested
    cases hquest
    exact htakes.passes hcheck
  shared r r' question m htakes hsettled hquest hr' hshares check hcheck := by
    cases oneAnswer_requests htakes.requested
    cases oneAnswer_requests hr'
    cases hquest
    exact htakes.passes hcheck

lemma oneAnswer_reaches (h : run c.step {} (exchangedThenCached r r m) = some y) :
    c.Reaches (oneAnswer r m) y := by
  refine Reaches.run .start ?_ h
  intro t a ha
  simp only [exchangedThenCached, mem_cons, not_mem_nil, or_false] at ha
  rcases ha with rfl | rfl | rfl | rfl | rfl | rfl | rfl | rfl | rfl | rfl <;>
    simp [World.Admits, oneAnswer]

theorem Client.returned_passes_cached : ∃ y, memoryClient.Reaches
        (oneAnswer (addressRequest (some (limitedCheck 2))) (addressResponse 2)) y ∧
      (y.threads.map Thread.reply)[1]? =
        some (some (.ok { response := addressResponse 2, source := .cached })) ∧
      Returned.Passes (limitedCheck 2) (.response (.ok (addressResponse 2))) := by
  have hreach := oneAnswer_reaches (c := memoryClient)
    (r := addressRequest (some (limitedCheck 2))) (m := addressResponse 2) rfl
  exact ⟨_, hreach, rfl, Client.returned_passes (oneAnswer_agrees _ 2) hreach
    (.tail _ (.head _)) rfl rfl⟩

/-- A reply is a fixed one, the answer to a request of its call, or what a request that shares the
place in the cache has left there. -/
theorem Client.reply_origin (hy : c.Reaches w y) (call : ClientCall) {first : Nat} {x : Reply}
    (hcall : (call, first) ∈ y.calls) (hx : .ok x ∈ y.replies call first) :
    ∃ r ∈ call.requests, c.Replies w r x :=
  hy.sound.reply hcall hx

theorem Client.reply_origin_cached : ∃ r ∈ [addressRequest none],
    memoryClient.Replies (oneAnswer (addressRequest none) (addressResponse 2)) r
      { response := addressResponse 2, source := .cached } :=
  Client.reply_origin (oneAnswer_reaches rfl) (.exchange (addressRequest none)) (.tail _ (.head _))
    (.head _)

def anyWorld : World where
  calls _ := True
  answers _ _ _ := True

lemma anyWorld_admits (t : ClientSystem) (a : ClientAction) : anyWorld.Admits t a := by
  unfold World.Admits
  split <;> simp [anyWorld]

/-- A request without a check fills the cache, and the rule that is limited to
another address is served the answer from there. -/
theorem Client.cached_response_unchecked : ∃ y value, memoryClient.Reaches anyWorld y ∧
      addressLimitResponseCheck (some (limitedRule 2)) {} = some (limitedCheck 2) ∧
      (.exchange (addressRequest (some (limitedCheck 2))), 1) ∈ y.calls ∧
      y.returned (.exchange (addressRequest (some (limitedCheck 2)))) 1 = some value ∧
      ¬ value.Passes (limitedCheck 2) := by
  have hreach : ∀ y, run memoryClient.step {} (exchangedThenCached (addressRequest none)
      (addressRequest (some (limitedCheck 2))) (addressResponse 3)) = some y →
      memoryClient.Reaches anyWorld y := fun y =>
    Reaches.run .start fun t a _ => anyWorld_admits t a
  exact ⟨_, .response (.ok (addressResponse 3)), hreach _ rfl, rfl, .tail _ (.head _), rfl,
    Bool.eq_false_iff.mp rfl⟩

end SingBox.Dns
