import SingBox.Dns.Rule

/-! The walk over DNS rules outside the legacy mode: evaluate actions launch
exchanges that run beside the walk, rules wait for the responses they are bound
to, and race rules are armed and swept when theirs are there.

The world decides when an exchange completes. Every place where the router looks
at futures is a phase with a time of its own; in one phase it looks at each
future once, so a time for each phase loses no order of completions. -/

namespace SingBox.Dns
open Route Function

/-- `dnsEvaluatedFuture`, named by the rule that launched it. -/
structure Future where
  origin : Nat
  tag : String
  terminal : Bool
  transport : DNSTransport
  options : DNSQueryOptions
  launchedAt : Nat
  deriving DecidableEq

/-- One call of the router, and the world it runs in. Exchanges are known by the
rule that launches them: when the response is there, when the wake-up that
follows is sent, and what the response is. -/
structure Call where
  transports : Transports
  metadata : InboundContext
  message : Msg
  allowFakeIP : Bool := false
  doneAt : Nat → Nat
  sentAt : Nat → Nat
  done_le_sent : ∀ i, doneAt i ≤ sentAt i
  outcome : Nat → DNSTransport → DNSQueryOptions → Except String Msg
  exchange : DNSTransport → DNSQueryOptions → Except String Msg
  ctxDone : Nat → Bool := fun _ => false
  ctxErr : String := "context canceled"

/-- `exchangeWithRulesResult`. -/
structure ExchangeResult where
  response : Option Msg := none
  transport : Option DNSTransport := none
  rejectAction : Option RejectMethod := none
  err : Option String := none
  deriving DecidableEq

/-- `dnsPendingExchange`: a speculative future, or an exchange still to be made. -/
inductive Pending
  | future (f : Future)
  | exchange (transport : DNSTransport) (options : DNSQueryOptions)
  deriving DecidableEq

/-- `dnsWalkSuspension`. -/
inductive Suspension
  | await (f : Future)
  | drain
  | pending (p : Pending)
  deriving DecidableEq

/-- `dnsArmedRule`; `bound` are all futures the rule is bound to, `futures` those
that were not resolved when it was armed. -/
structure ArmedRule where
  ruleIndex : Nat
  rule : DNSRule
  bound : List Future
  futures : List Future
  anonymousFuture : Option Future
  options : DNSQueryOptions

inductive RaceVerdict
  | missed
  | skipped
  | committed
  deriving DecidableEq

/-- What a walk did, in order. The router keeps no such record; it is here to
state what holds of a run. -/
inductive Event
  /-- A look found these futures resolved, after the settling at `settledAt`. -/
  | checked (settledAt : Nat) (found : List Future)
  /-- A rule bound to `tags` was matched against the named responses. -/
  | matched (ruleIndex : Nat) (tags : List String) (named : String → Option Msg)
      (registered : String → Option Future)
  | armed (ruleIndex : Nat) (bound : List Future)
  | judged (ruleIndex : Nat) (bound : List Future) (now : Nat) (verdict : RaceVerdict)
  /-- A final decision outside the race. -/
  | decided (ruleIndex : Nat) (speculative : Option Future)

/-- `dnsRuleWalkState`, with the time, the futures already settled and cancelled,
the wake-ups taken so far and the record of the run. -/
structure WalkState where
  ruleIndex : Nat := 0
  effectiveOptions : DNSQueryOptions
  anonymousFuture : Option Future := none
  namedFutures : String → Option Future := fun _ => none
  namedResponses : String → Option Msg := fun _ => none
  namedTransports : String → Option DNSTransport := fun _ => none
  futures : List Future := []
  settled : List Nat := []
  armedRules : List ArmedRule := []
  terminalFuture : Option Future := none
  cancelled : List Nat := []
  now : Nat := 0
  settledAt : Nat := 0
  taken : Nat := 0
  trace : List Event := []

/-- The end of a phase. -/
def WalkState.tick (s : WalkState) : WalkState := { s with now := s.now + 1 }

def WalkState.record (s : WalkState) (event : Event) : WalkState :=
  { s with trace := s.trace ++ [event] }

namespace Call

variable (e : Call) (s : WalkState) (r : DNSRule)

def resolved (now : Nat) (f : Future) : Bool := decide (e.doneAt f.origin ≤ now)

/-- What the exchange of a future comes to. -/
def outcomeOf (f : Future) : Except String Msg := e.outcome f.origin f.transport f.options

def view (now : Nat) (f : Future) : Option Msg :=
  if e.resolved now f then (e.outcomeOf f).toOption else none

/-! ## Futures -/

/-- `launchDNSEvaluate` for the current rule. -/
def newFuture (tag : String) (terminal : Bool)
    (transport : DNSTransport) (options : DNSQueryOptions) : Future where
  origin := s.ruleIndex
  tag := tag
  terminal := terminal
  transport := transport
  options := e.transports.finalizeExchangeOptions options
  launchedAt := s.now

/-- The body of the loop in `settleDNSFutures`. -/
def settleFuture (f : Future) : WalkState :=
  if f.origin ∈ s.settled || !e.resolved s.now f then s
  else
    let s := { s with settled := f.origin :: s.settled }
    if f.tag = "" then s
    else { s with
      namedResponses := update s.namedResponses f.tag (e.view s.now f)
      namedTransports := update s.namedTransports f.tag (some f.transport) }

def settleDNSFutures : WalkState :=
  let settled := s.futures.foldl e.settleFuture s
  { settled with settledAt := s.now }.tick

variable (anonymous : Option Msg)

/-- The metadata a rule is matched with, for an anonymous response. -/
def context : InboundContext :=
  { e.metadata with
    dnsResponse := anonymous
    namedDNSResponses := s.namedResponses
    destinationAddressMatchFromResponse := false }

def matchRule : Bool := (r.rule.match (e.context s anonymous) .fresh).1

/-- A look that found futures resolved, noted with the time of the last settling. -/
def check (found : List Future) : WalkState := s.record (.checked s.settledAt found)

def noteMatch (ruleIndex : Nat) (r : DNSRule) : WalkState :=
  s.record (.matched ruleIndex r.matchResponseTags s.namedResponses s.namedFutures)

def dnsRespondMissingResponseMessage : String :=
  "respond action requires an evaluated response from a preceding evaluate action"

def respondMissing : ExchangeResult := { err := some dnsRespondMissingResponseMessage }

def dnsRefusedResponse (message : Msg) : Msg where
  id := message.id
  rcode := rcodeRefused
  response := true
  question := message.question.head?.toList

/-- The result of a reject action; a method without one goes on to the next rule. -/
def rejectResult : RejectMethod → Option ExchangeResult
  | .default => some
      { response := some (dnsRefusedResponse e.message), rejectAction := some .default }
  | .drop => some { rejectAction := some .drop, err := some "packet dropped" }
  | .reply => none

/-! ## The sweep -/

inductive SweepOutcome
  | idle (s : WalkState)
  | result (s : WalkState) (r : ExchangeResult)
  | pending (s : WalkState) (p : Pending)

/-- What a matching armed rule does. -/
inductive ArmedAction
  | skip
  | result (r : ExchangeResult)
  | pending (p : Pending)

def armedAction (e : Call) (s : WalkState) (armed : ArmedRule) : ArmedAction :=
  match armed.rule.action with
  | .respond =>
    let anonymousFuture := armed.anonymousFuture <|> s.anonymousFuture
    let (response, transport) :=
      if armed.rule.matchResponseTag ≠ "" then
        (s.namedResponses armed.rule.matchResponseTag, s.namedTransports armed.rule.matchResponseTag)
      else (anonymousFuture.bind (e.view s.now), anonymousFuture.map Future.transport)
    .result (match response with
      | none => respondMissing
      | some response => { response := some response, transport })
  | .route server options _ =>
    match e.transports.resolveDNSRoute server options e.allowFakeIP armed.options with
    | .resolved transport options => .pending (.exchange transport options)
    | _ => .skip
  | .reject method =>
    match e.rejectResult method with
    | some r => .result r
    | none => .skip
  | .predefined response => .result { response := some (response e.message) }
  | .evaluate _ _ _ _ => .skip
  | .routeOptions _ => .skip

/-- The anonymous response an armed rule is matched with. -/
def armedResponse (armed : ArmedRule) : Option Msg :=
  let future := if armed.rule.matchResponseAnonymous then armed.anonymousFuture
    else s.anonymousFuture
  future.bind (e.view s.now)

/-- A ready rule, already taken off the list, at the time of its match. -/
def judge (e : Call) (s : WalkState) (armed : ArmedRule) : SweepOutcome :=
  let anonymous := e.armedResponse s armed
  let judged := Event.judged armed.ruleIndex armed.bound s.now
  let s := (noteMatch s armed.ruleIndex armed.rule).tick
  if !e.matchRule s armed.rule anonymous then
    .idle (s.record (judged .missed))
  else
    match e.armedAction s armed with
    | .skip => .idle (s.record (judged .skipped)).tick
    | .result r => .result (s.record (judged .committed)).tick r
    | .pending p => .pending (s.record (judged .committed)).tick p

/-- The loop of `sweepArmedDNSRules`; `waiting` are the rules passed over. -/
def sweepLoop (e : Call) : List ArmedRule → List ArmedRule → WalkState → SweepOutcome
  | [], waiting, s => .idle { s with armedRules := waiting }
  | armed :: rest, waiting, s =>
    if !armed.futures.all (e.resolved s.now) then
      sweepLoop e rest (waiting ++ [armed]) s.tick
    else
      let s := (check s armed.futures).tick
      match e.judge { s with armedRules := waiting ++ rest } armed with
      | .idle s => sweepLoop e rest waiting s
      | outcome => outcome

def sweepArmedDNSRules : SweepOutcome := e.sweepLoop s.armedRules [] s

/-! ## The walk -/

inductive Outcome
  | next (s : WalkState)
  | done (s : WalkState) (r : ExchangeResult)
  | suspended (s : WalkState) (suspension : Suspension)

/-- The futures a rule is bound to, as the router looks them up: by tag, then the
anonymous one. -/
def boundFutures : List Future :=
  r.matchResponseTags.filterMap s.namedFutures ++
  if r.matchResponseAnonymous then s.anonymousFuture.toList else []

/-- A race rule is armed, and swept at once when nothing is pending. -/
def raceRule (e : Call) (s : WalkState) (r : DNSRule) : Outcome :=
  let bound := boundFutures s r
  let pendingFutures := bound.filter fun f => !e.resolved s.now f
  let armed : ArmedRule :=
    { ruleIndex := s.ruleIndex
      rule := r
      bound := bound
      futures := pendingFutures
      anonymousFuture := if r.matchResponseAnonymous then s.anonymousFuture else none
      options := s.effectiveOptions }
  let found := bound.filter (e.resolved s.now)
  let s := ({ check s found with armedRules := s.armedRules ++ [armed] }.record
    (.armed s.ruleIndex bound)).tick
  if !pendingFutures.isEmpty then .next s
  else
    match e.sweepArmedDNSRules s with
    | .idle s => .next s
    | .result s r => .done s r
    | .pending s p => .suspended { s with armedRules := [] } (.pending p)

/-- A final decision of the current rule, which waits for the armed rules. -/
def unlessArmed (outcome : WalkState → Outcome) : Outcome :=
  if !s.armedRules.isEmpty then .suspended s .drain else outcome s

def finish (r : ExchangeResult) : Outcome := .done (s.record (.decided s.ruleIndex none)) r

def respond (s : WalkState) : Outcome :=
  if r.matchResponseTag ≠ "" then
    match s.namedResponses r.matchResponseTag with
    | none => finish s respondMissing
    | some response => finish s
        { response := some response, transport := s.namedTransports r.matchResponseTag }
  else
    -- Without bindings nothing has waited for the anonymous response yet.
    match s.anonymousFuture with
    | none => finish s respondMissing
    | some f =>
      if !r.hasBindings && !e.resolved s.now f then .suspended s.tick (.await f)
      else
        let s := s.tick
        match e.view s.now f with
        | none => finish s respondMissing
        | some response => finish s { response := some response, transport := some f.transport }

/-- The route action with its transport. A speculative one starts its exchange
while rules are still armed. -/
def route (transport : DNSTransport) (options : DNSQueryOptions) (speculative : Bool) : Outcome :=
  if !s.armedRules.isEmpty then
    if speculative && s.terminalFuture.isNone then
      let f := e.newFuture s "" true transport options
      .suspended { s with futures := s.futures ++ [f], terminalFuture := some f } .drain
    else .suspended s .drain
  else
    match s.terminalFuture.filter fun f => f.origin == s.ruleIndex with
    | some f => .suspended (s.record (.decided s.ruleIndex (some f))) (.pending (.future f))
    | none => .suspended (s.record (.decided s.ruleIndex none))
        (.pending (.exchange transport options))

def evaluate (tag : String) (transport : DNSTransport) (options : DNSRouteOptions) : WalkState :=
  let f := e.newFuture s tag false transport (applyDNSRouteOptions s.effectiveOptions options)
  let s := { s with futures := s.futures ++ [f] }
  if tag = "" then { s with anonymousFuture := some f }
  else { s with namedFutures := update s.namedFutures tag (some f) }

/-- The action of the current rule, which has matched. -/
def act (e : Call) (s : WalkState) (r : DNSRule) : Outcome :=
  match r.action with
  | .routeOptions options =>
    .next { s with effectiveOptions := applyDNSRouteOptions s.effectiveOptions options }
  | .evaluate server tag options speculative =>
    match e.transports.transport server with
    | none => .next (if tag = "" then { s with anonymousFuture := none } else s)
    | some transport =>
      if !speculative && !s.armedRules.isEmpty then .suspended s .drain
      else .next (e.evaluate s tag transport options)
  | .respond => unlessArmed s (e.respond r)
  | .route server options speculative =>
    match e.transports.resolveDNSRoute server options e.allowFakeIP s.effectiveOptions with
    | .resolved transport options => e.route s transport options speculative
    | _ => .next s
  | .reject method =>
    unlessArmed s fun s => match e.rejectResult method with
      | some r => finish s r
      | none => .next s
  | .predefined response => unlessArmed s fun s => finish s { response := some (response e.message) }

/-- The current rule against the responses there are. -/
def tryRule : Outcome :=
  let anonymous := s.anonymousFuture.bind (e.view s.now)
  let s := (noteMatch s s.ruleIndex r).tick
  if e.matchRule s r anonymous then e.act s r else .next s

/-- One round of the loop in `walkDNSRules`. -/
def walkRule : Outcome :=
  if !r.hasBindings then e.tryRule s r
  else
    let s := e.settleDNSFutures s
    if r.race then e.raceRule s r
    else
      match (boundFutures s r).find? fun f => !e.resolved s.now f with
      | some f => .suspended s.tick (.await f)
      | none => e.tryRule (check s (boundFutures s r)).tick r

inductive WalkResult
  | done (s : WalkState) (r : ExchangeResult)
  | suspended (s : WalkState) (suspension : Suspension)

def walkDNSRules (e : Call) : List DNSRule → WalkState → WalkResult
  | [], s =>
    if !s.armedRules.isEmpty then .suspended s .drain
    else .suspended (s.record (.decided s.ruleIndex none))
      (.pending (.exchange e.transports.default s.effectiveOptions))
  | r :: rules, s =>
    match e.walkRule s r with
    | .next s => walkDNSRules e rules { s with ruleIndex := s.ruleIndex + 1 }
    | .done s r => .done s r
    | .suspended s suspension => .suspended s suspension

/-! ## Waiting and the ends of an exchange -/

/-- How an exchange ends, up to the last exchange it asks for. -/
inductive Decision
  | result (r : ExchangeResult)
  | future (f : Future)
  | exchange (transport : DNSTransport) (options : DNSQueryOptions)
  deriving DecidableEq

/-- The result a decision leads to. -/
def Decision.finish (e : Call) : Decision → ExchangeResult
  | .result r => r
  | .future f =>
    match e.outcomeOf f with
    | .ok response => { response := some response, transport := some f.transport }
    | .error err => { transport := some f.transport, err := some err }
  | .exchange transport options =>
    match e.exchange transport (e.transports.finalizeExchangeOptions options) with
    | .ok response => { response := some response, transport := some transport }
    | .error err => { transport := some transport, err := some err }

/-- The times at which wake-ups are sent. -/
def sends : List Nat := s.futures.map fun f => max f.launchedAt (e.sentAt f.origin)

/-- The receive on the wake channel, which holds one wake-up at most: nothing when
no wake-up is left to come. -/
def wait : Option WalkState :=
  if (e.sends s).any fun t => decide (s.taken ≤ t ∧ t ≤ s.now) then
    some { s with taken := s.now + 1, now := s.now + 1 }
  else
    ((e.sends s).filter fun t => decide (s.now < t)).min?.map fun t =>
      { s with taken := t + 1, now := t + 1 }

def cancelDNSFutures : WalkState := { s with cancelled := s.futures.map Future.origin }

def finishPendingExchange (e : Call) (s : WalkState) : Pending → WalkState × Decision
  | .future f =>
    let others := (s.futures.map Future.origin).filter fun i => i ≠ f.origin
    let s := { s with cancelled := others }
    if e.ctxDone s.now then (s, .result { err := some e.ctxErr }) else (s, .future f)
  | .exchange transport options => (cancelDNSFutures s, .exchange transport options)

/-- The loop of `resumeExchangeWithRules`, without the deferred cancellation. -/
def resumeLoop (e : Call) (rules : List DNSRule) :
    Nat → WalkState → Suspension → Option (WalkState × Decision)
  | 0, _, _ => none
  | fuel + 1, s, suspension =>
    match e.sweepArmedDNSRules (e.settleDNSFutures s) with
    | .result s r => some (s, .result r)
    | .pending s p => some (e.finishPendingExchange s p)
    | .idle s =>
      let blocked := match suspension with
        | .await f => !e.resolved s.now f
        | .drain => !s.armedRules.isEmpty
        | .pending _ => false
      match suspension with
      | .pending p => some (e.finishPendingExchange s p)
      | _ =>
        if blocked then
          if e.ctxDone s.now then some (s, .result { err := some e.ctxErr })
          else (e.wait s.tick).bind fun s => resumeLoop e rules fuel s suspension
        else
          match e.walkDNSRules (rules.drop s.ruleIndex) s.tick with
          | .done s r => some (s, .result r)
          | .suspended s suspension => resumeLoop e rules fuel s suspension

def resumeExchangeWithRules (rules : List DNSRule) (fuel : Nat) (s : WalkState)
    (suspension : Suspension) : Option (WalkState × Decision) :=
  (e.resumeLoop rules fuel s suspension).map fun (s, d) => (cancelDNSFutures s, d)

def exchangeWithRules (e : Call) (rules : List DNSRule) (options : DNSQueryOptions) (fuel : Nat) :
    Option (WalkState × Decision) :=
  match e.walkDNSRules rules { effectiveOptions := options } with
  | .done s r => some (cancelDNSFutures s, .result r)
  | .suspended s suspension => e.resumeExchangeWithRules rules fuel s suspension

/-- `exchangeWithRulesAsync`: the results its callback is called with. -/
def exchangeWithRulesAsync (e : Call) (rules : List DNSRule) (options : DNSQueryOptions)
    (fuel : Nat) : Option (WalkState × List ExchangeResult) :=
  match e.walkDNSRules rules { effectiveOptions := options } with
  | .done s r => some (cancelDNSFutures s, [r])
  | .suspended s (.pending (.exchange transport options)) =>
    some (cancelDNSFutures s, [(Decision.exchange transport options).finish e])
  | .suspended s suspension =>
    (e.resumeExchangeWithRules rules fuel s suspension).map fun (s, d) => (s, [d.finish e])

end Call

end SingBox.Dns
