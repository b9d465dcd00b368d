import Mathlib.Data.Nat.Digits.Defs
import SingBox.Dns.Answer
import SingBox.Dns.CacheFile
import SingBox.Lib.Machine

/-! The DNS client: exchanges through transports, in front of them a cache in
memory or on file, one exchange at a time for a key, answers served past their
time while they are refreshed, and answers that a checker turns down.

An exchange is cut where another one can come in between: at the lock, at each
look into the cache, while it waits, at the transport and at the release. -/

namespace SingBox.Dns
open Lib

/-- The formats of the libraries: messages on the wire and prefixes as text. -/
structure Codec where
  pack : Msg → Option Bytes
  unpack : Bytes → Option Msg
  unpack_pack : ∀ {m b}, pack m = some b → unpack b = some m
  prefixString : Prefix → String

/-- `Client`, as it is after `Start`. Without a cache file there is a cache in
memory, unless the cache is disabled. -/
structure Client where
  timeout : Nat := 10 * second
  disableCache : Bool := false
  disableExpire : Bool := false
  optimisticTimeout : Nat := 0
  clientSubnet : Option Prefix := none
  rdrc : Bool := false
  rdrcTimeout : Nat := 0
  dnsCache : Bool := false
  codec : Codec

structure DnsCacheKey where
  question : Question := { name := "", qtype := 0, qclass := 0 }
  transportTag : String := ""
  clientSubnet : Option Prefix := none
  environment : Nat := 0
  deriving DecidableEq

structure DnsExchangeKey extends DnsCacheKey where
  timeout : Nat
  deriving DecidableEq

def digit36 (d : Nat) : Char := Char.ofNat (if d < 10 then 48 + d else 87 + d)

/-- `strconv.FormatUint` in base 36. -/
def formatUint36 (n : Nat) : String :=
  if n = 0 then "0" else String.ofList ((Nat.digits 36 n).reverse.map digit36)

variable (c : Client)

def Client.persistentName (k : DnsCacheKey) : String :=
  k.transportTag ++ (match k.clientSubnet.filter Prefix.isValid with
      | some p => "\x00" ++ c.codec.prefixString p
      | none => "") ++
    (if k.environment ≠ 0 then "\x01" ++ formatUint36 k.environment else "")

/-- The key of the file: the class of the question is left out. -/
def Client.saveCacheKey (k : DnsCacheKey) : SaveCacheKey where
  transportName := c.persistentName k
  questionName := k.question.name
  qType := k.question.qtype

/-- The arguments of an exchange; the context may carry the transport that the
exchange is made for. -/
structure Request where
  transport : DNSTransport
  message : Msg
  options : DNSQueryOptions := {}
  responseChecker : Option (Msg → Bool) := none
  contextTransport : Option String := none

inductive ClientError
  | context
  | loopback (tag : String)
  | responseRejected
  | responseRejectedCached
  | rcode (code : Nat)
  | transport (text : String)
  deriving DecidableEq

/-- Where a response comes from; the code logs it. -/
inductive Source
  | fixed
  | cached
  | optimistic
  | exchanged
  deriving DecidableEq

structure Reply where
  response : Msg
  source : Source
  deriving DecidableEq

/-- What a transport gives back: a response, an error that stands for a response
code, or any other error. -/
inductive TransportResult
  | response (m : Msg)
  | rcode (code : Nat)
  | error (text : String)
  deriving DecidableEq

/-- `exchangeOperation`. The key of the lock is kept as long as the operation
has to release it. -/
structure ExchangeOperation where
  message : Msg
  question : Question
  messageId : Nat
  options : DNSQueryOptions
  responseChecker : Option (Msg → Bool)
  disableCache : Bool
  cacheKey : DnsCacheKey := {}
  releaseCond : Option DnsExchangeKey := none

/-- How far an exchange has come. `loading` is the head of the loop of
`beginExchange`, with the channel of the exchange that holds the lock. -/
inductive Phase
  | asking
  | starting (allowWait : Bool)
  | loading (operation : ExchangeOperation) (allowWait : Bool) (cond : Option Nat)
  | waiting (operation : ExchangeOperation) (cond : Nat)
  | ready (operation : ExchangeOperation)
  | exchanging (operation : ExchangeOperation)
  | releasing (operation : ExchangeOperation) (reply : Except ClientError Reply)
  | done (reply : Except ClientError Reply)

structure Thread where
  request : Request
  phase : Phase

structure Refresh where
  key : DnsCacheKey
  transport : DNSTransport
  message : Msg
  options : DNSQueryOptions
  responseChecker : Option (Msg → Bool)

structure LookupRequest where
  transport : DNSTransport
  domain : String
  options : DNSQueryOptions := {}
  responseChecker : Option (Msg → Bool) := none
  contextTransport : Option String := none

inductive ClientCall
  | exchange (r : Request)
  | exchangeAsync (r : Request)
  | lookup (l : LookupRequest)

/-- What the exchanges of a client share. The channel of a lock is named by the
thread that made it. -/
structure ClientState where
  now : Nat := 0
  environment : DNSTransport → Nat := fun _ => 0
  cache : Cache DnsCacheKey Msg := .empty
  file : CacheFile := {}
  cacheLock : DnsExchangeKey → Option Nat := fun _ => none
  closed : List Nat := []
  backgroundRefresh : List Refresh := []

/-- The client and all that runs on it; a call is kept with the first of its
threads. -/
structure ClientSystem extends ClientState where
  threads : List Thread := []
  calls : List (ClientCall × Nat) := []

variable (c : Client) (s : ClientState)

def Client.newCacheKey (transport : DNSTransport)
    (question : Question) (message : Msg) (options : DNSQueryOptions) : DnsCacheKey where
  question := question
  transportTag := transport.tag
  clientSubnet :=
    if options.removeClientSubnet then none
    else options.clientSubnet <|> c.clientSubnet <|> clientSubnetFromMessage message
  environment := s.environment transport

/-- The key to store under, unless the network has changed since. -/
def ClientState.finishCacheKey (s : ClientState) (transport : DNSTransport) (key : DnsCacheKey) :
    Option DnsCacheKey :=
  if s.environment transport = key.environment ∨ key.environment = 0 then
    some { key with environment := s.environment transport }
  else none

def Client.prepareExchangeMessage (message : Msg) (options : DNSQueryOptions) : Msg :=
  if options.removeClientSubnet then removeClientSubnet message
  else
    match options.clientSubnet <|> c.clientSubnet with
    | some clientSubnet => setClientSubnet message clientSubnet
    | none => message

/-- `exchangeToTransport`, on what the transport gives back. -/
def exchangeToTransport (message : Msg) : TransportResult → Except ClientError Msg
  | .response response => .ok (stripDNSPadding response)
  | .rcode code => .ok (fixedResponseStatus message code)
  | .error text => .error (.transport text)

/-- What is served of an entry, and whether it is stale. -/
def Client.serve (now : Nat) (e : Timed Msg) : Option (Msg × Bool) :=
  if c.disableExpire then some (e.value, false)
  else
    match e.freshness now c.optimisticTimeout with
    | .fresh left => some (normalizeTTL e.value (left / second), false)
    | .stale => some (normalizeTTL e.value 1, true)
    | .expired => none

def Client.loadPersistentResponse (key : DnsCacheKey) : Option (Msg × Bool) :=
  match s.file.loadDNSCache (c.saveCacheKey key) with
  | none => none
  | some e =>
    match c.codec.unpack e.value with
    | none => none
    | some response => c.serve s.now { value := response, expireAt := e.expireAt }

def Client.loadResponse (key : DnsCacheKey) : Option (Msg × Bool) :=
  if c.dnsCache then c.loadPersistentResponse s key
  else
    match s.cache key with
    | none => none
    | some e => c.serve s.now e

/-- A look at an entry in memory that is out of date removes it. -/
def Client.dropExpired (key : DnsCacheKey) : ClientState :=
  if !c.dnsCache && (c.loadResponse s key).isNone then { s with cache := s.cache.remove key } else s

def Client.storeCache (key : DnsCacheKey) (message : Msg) (timeToLive : Nat) : ClientState :=
  if timeToLive = 0 then s
  else if c.dnsCache then
    match c.codec.pack message with
    | none => s
    | some packed =>
      let entry := { value := packed, expireAt := s.now + timeToLive * second }
      { s with file := s.file.saveDNSCacheAsync (c.saveCacheKey key) entry }
  else if c.disableCache then s
  else
    let expireAt := if c.disableExpire then 0 else s.now + timeToLive * second
    { s with cache := s.cache.add key { value := message, expireAt } }

/-- A response code that may be cached, and that a checker is asked about. -/
def Msg.isSettled (response : Msg) : Bool :=
  response.rcode == rcodeSuccess || response.rcode == rcodeNameError

/-- Whether the checker, if there is one, turns the response down. -/
def rejects (responseChecker : Option (Msg → Bool)) (response : Msg) : Bool :=
  responseChecker.any fun check => !response.isSettled || !check response

def rdrcKey (transport : DNSTransport) (question : Question) : SaveCacheKey where
  transportName := transport.tag
  questionName := question.name
  qType := question.qtype

def Client.saveRDRC (transport : DNSTransport) (question : Question) : ClientState :=
  if c.rdrc then { s with file := s.file.saveRDRCAsync (rdrcKey transport question) } else s

/-- Stores an answer, filtered for the options it was asked with. -/
def Client.storeAnswer (transport : DNSTransport)
    (key : DnsCacheKey) (finished : Msg × Nat) : ClientState :=
  match s.finishCacheKey transport key with
  | some key => c.storeCache s key finished.1 finished.2
  | none => s

def Client.finishExchange (transport : DNSTransport)
    (operation : ExchangeOperation) (response : Msg) : ClientState × Except ClientError Reply :=
  let disableCache := operation.disableCache || !response.isSettled
  if rejects operation.responseChecker response then
    (if disableCache then s else c.saveRDRC s transport operation.question,
      .error .responseRejected)
  else
    let finished := applyResponseOptions operation.question response operation.options
    (if disableCache then s else c.storeAnswer s transport operation.cacheKey finished, .ok {
        response := finishEDNS operation.message { finished.1 with id := operation.messageId }
        source := .exchanged })

/-- `backgroundRefreshDNS`, up to the exchange: one refresh at a time for a key. -/
def ClientState.backgroundRefreshDNS (s : ClientState) (refresh : Refresh) : ClientState :=
  if s.backgroundRefresh.any fun other => other.key == refresh.key then s
  else { s with backgroundRefresh := s.backgroundRefresh ++ [refresh] }

/-- The rest of `backgroundRefreshDNS`. -/
def Client.finishRefresh (refresh : Refresh) (result : TransportResult) : ClientState :=
  let s := { s with
    backgroundRefresh := s.backgroundRefresh.filter fun other => other.key != refresh.key }
  match exchangeToTransport refresh.message result with
  | .error _ => s
  | .ok response =>
    if rejects refresh.responseChecker response then
      c.saveRDRC s refresh.transport refresh.key.question
    else if !response.isSettled then s
    else
      c.storeAnswer s refresh.transport refresh.key
        (applyResponseOptions refresh.key.question response refresh.options)

def strategyRejected (question : Question) (strategy : DomainStrategy) : Bool :=
  question.qtype == typeA && strategy == .ipv6Only ||
    question.qtype == typeAAAA && strategy == .ipv4Only

/-- The options of an exchange: a timeout that is not set is the client's. -/
def Client.exchangeOptions (options : DNSQueryOptions) : DNSQueryOptions :=
  if options.timeout = 0 then { options with timeout := c.timeout } else options

/-- The operation of a request that is not answered at once. -/
def Client.newOperation (r : Request) (question : Question) : ExchangeOperation :=
  let options := c.exchangeOptions r.options
  let message := c.prepareExchangeMessage r.message options
  { message, question, options
    messageId := message.id
    responseChecker := r.responseChecker
    disableCache := !r.message.isSimpleRequest || c.disableCache || options.disableCache }

/-- The lock of `beginExchange`: the first exchange for a key owns it. -/
def Client.acquire (i : Nat) (r : Request)
    (operation : ExchangeOperation) (allowWait : Bool) : ClientState × Phase :=
  let cacheKey := c.newCacheKey s r.transport operation.question operation.message operation.options
  let exchangeKey := { cacheKey with timeout := operation.options.timeout }
  match s.cacheLock exchangeKey with
  | some cond => (s, .loading { operation with cacheKey } allowWait (some cond))
  | none =>
    ({ s with cacheLock := Function.update s.cacheLock exchangeKey (some i) },
      .loading { operation with cacheKey, releaseCond := some exchangeKey } allowWait none)

/-- `beginExchange`, up to its loop. -/
def Client.beginExchange (i : Nat) (r : Request) (allowWait : Bool) : ClientState × Phase :=
  match r.message.question with
  | [] =>
    (s, .done (.ok { response := fixedResponseStatus r.message rcodeFormatError, source := .fixed }))
  | question :: _ =>
    if strategyRejected question r.options.strategy then
      (s, .done (.ok { response := fixedResponseStatus r.message rcodeSuccess, source := .fixed }))
    else
      let operation := c.newOperation r question
      if operation.disableCache then (s, .ready operation)
      else c.acquire s i r operation allowWait

def Request.refresh (r : Request) (key : DnsCacheKey) (message : Msg) (options : DNSQueryOptions) :
    Refresh :=
  { key, transport := r.transport, message, options, responseChecker := r.responseChecker }

/-- After a miss the owner of the lock goes on and the others wait; an exchange
that must not wait here starts again where it may. -/
def ExchangeOperation.missed (operation : ExchangeOperation) (allowWait : Bool) : Option Nat → Phase
  | none => .ready operation
  | some cond => if allowWait then .waiting operation cond else .starting true

/-- A response of the cache, as the reply to an operation. -/
def ExchangeOperation.hit (operation : ExchangeOperation) (response : Msg) (source : Source) :
    Phase :=
  .releasing operation (.ok { response := { response with id := operation.message.id }, source })

/-- One round of the loop of `beginExchange`. -/
def Client.load (r : Request) (operation : ExchangeOperation)
    (allowWait : Bool) (cond : Option Nat) : ClientState × Phase :=
  match c.loadResponse s operation.cacheKey with
  | none => (c.dropExpired s operation.cacheKey, operation.missed allowWait cond)
  | some (response, false) => (s, operation.hit response .cached)
  | some (response, true) =>
    if operation.options.disableOptimisticCache then (s, operation.missed allowWait cond)
    else
      (s.backgroundRefreshDNS (r.refresh operation.cacheKey operation.message operation.options),
        operation.hit response .optimistic)

/-- The end of `beginExchange`: no exchange through the transport that it is made
for, and none that is known to be rejected. -/
def Client.check (r : Request) (operation : ExchangeOperation) : Phase :=
  if r.contextTransport = some r.transport.tag then
    .releasing operation (.error (.loopback r.transport.tag))
  else if !operation.disableCache && operation.responseChecker.isSome && c.rdrc &&
      s.file.loadRDRC (rdrcKey r.transport operation.question) s.now then
    .releasing operation (.error .responseRejectedCached)
  else .exchanging operation

def Client.answer (r : Request) (operation : ExchangeOperation)
    (result : TransportResult) : ClientState × Phase :=
  match exchangeToTransport operation.message result with
  | .error e => (s, .releasing operation (.error e))
  | .ok response =>
    let (s, reply) := c.finishExchange s r.transport operation response
    (s, .releasing operation reply)

/-- `exchangeOperation.release`: the lock goes and its channel is closed. -/
def ClientState.release (s : ClientState) (i : Nat) (operation : ExchangeOperation) : ClientState :=
  match operation.releaseCond with
  | none => s
  | some exchangeKey =>
    { s with cacheLock := Function.update s.cacheLock exchangeKey none, closed := i :: s.closed }

/-- `questionCache`: a lookup asks the cache before it goes on to an exchange. -/
def Client.questionCache (r : Request) : ClientState × Phase :=
  match r.message.question with
  | [] => (s, .starting true)
  | question :: _ =>
    let key := c.newCacheKey s r.transport question r.message r.options
    match c.loadResponse s key with
    | none => (c.dropExpired s key, .starting true)
    | some (response, false) => (s, .done (.ok { response, source := .cached }))
    | some (response, true) =>
      if r.options.disableOptimisticCache then (s, .starting true)
      else
        let message := c.prepareExchangeMessage r.message r.options
        (s.backgroundRefreshDNS (r.refresh key message r.options),
          .done (.ok { response, source := .optimistic }))

/-- `dns.IsFqdn`: the last dot is not escaped. -/
def isFqdn (name : String) : Bool :=
  match name.toList.reverse with
  | '.' :: rest => (rest.takeWhile (· == '\\')).length % 2 == 0
  | _ => false

def fqdnToDomain (name : String) : String :=
  if isFqdn name then String.ofList name.toList.dropLast else name

def fqdn (name : String) : String := if isFqdn name then name else name ++ "."

def LookupRequest.strategy (l : LookupRequest) : DomainStrategy :=
  if l.options.lookupStrategy ≠ .asIS then l.options.lookupStrategy else l.options.strategy

def LookupRequest.request (l : LookupRequest) (qType : Nat) : Request where
  transport := l.transport
  message := {
    recursionDesired := true
    question := [{ name := fqdn (fqdnToDomain l.domain), qtype := qType, qclass := 1 }] }
  options := { l.options with strategy := l.strategy }
  responseChecker := l.responseChecker
  contextTransport := l.contextTransport

/-- The exchanges of a call; `Lookup` makes one for each kind of address. -/
def ClientCall.requests : ClientCall → List Request
  | .exchange r | .exchangeAsync r => [r]
  | .lookup l =>
    match l.strategy with
    | .ipv4Only => [l.request typeA]
    | .ipv6Only => [l.request typeAAAA]
    | _ => [l.request typeA, l.request typeAAAA]

def ClientCall.responseChecker : ClientCall → Option (Msg → Bool)
  | .exchange r | .exchangeAsync r => r.responseChecker
  | .lookup l => l.responseChecker

def Client.startPhase (r : Request) : ClientCall → Phase
  | .exchange _ => .starting true
  | .exchangeAsync _ => .starting false
  | .lookup _ => if c.disableCache || r.options.disableCache then .starting true else .asking

def Client.begin (s : ClientSystem) (call : ClientCall) : ClientSystem :=
  { s with
    threads := s.threads ++ call.requests.map fun r => ⟨r, c.startPhase r call⟩
    calls := s.calls ++ [(call, s.threads.length)] }

inductive ThreadAction
  | ask
  | begin
  | cancel
  | load
  | wake
  | check
  | answer (result : TransportResult)
  | release

/-- What thread `i` does next; its context can end where it looks at it. -/
def Client.advance (i : Nat) (t : Thread) (a : ThreadAction) : Option (ClientState × Phase) :=
  match t.phase, a with
  | .asking, .ask => some (c.questionCache s t.request)
  | .starting allowWait, .begin => some (c.beginExchange s i t.request allowWait)
  | .starting _, .cancel => some (s, .done (.error .context))
  | .loading operation allowWait cond, .load => some (c.load s t.request operation allowWait cond)
  | .waiting operation cond, .wake =>
    if s.closed.contains cond then
      let cacheKey := c.newCacheKey s t.request.transport operation.question operation.message
        operation.options
      some (s, .loading { operation with cacheKey } true none)
    else none
  | .waiting _ _, .cancel => some (s, .done (.error .context))
  | .ready operation, .check => some (s, c.check s t.request operation)
  | .exchanging operation, .answer result => some (c.answer s t.request operation result)
  | .releasing operation reply, .release => some (s.release i operation, .done reply)
  | _, _ => none

/-- The actions of the threads, and what goes on around them: time, the network,
entries that the cache in memory drops, and the writes of the cache file. -/
inductive ClientAction
  | elapse (now : Nat)
  | network (environment : DNSTransport → Nat)
  | evict (key : DnsCacheKey)
  | clearCache
  | flushDNSCache (key : SaveCacheKey)
  | flushedDNSCache (key : SaveCacheKey)
  | cleanupDNSCache (key : SaveCacheKey)
  | flushRDRC (key : SaveCacheKey)
  | flushedRDRC (key : SaveCacheKey)
  | call (call : ClientCall)
  | thread (i : Nat) (a : ThreadAction)
  | refresh (key : DnsCacheKey) (result : TransportResult)

def Client.step : Machine ClientSystem ClientAction := fun s a =>
  match a with
  | .elapse now => if s.now ≤ now then some { s with now } else none
  | .network environment => some { s with environment }
  | .evict key => some { s with cache := s.cache.remove key }
  | .clearCache => some { s with cache := .empty, file := s.file.clearDNSCache }
  | .flushDNSCache key => some { s with file := s.file.flushDNSCache key }
  | .flushedDNSCache key => some { s with file := s.file.flushedDNSCache key }
  | .cleanupDNSCache key => some { s with file := s.file.cleanupDNSCache key }
  | .flushRDRC key => some { s with file := s.file.flushRDRC key s.now c.rdrcTimeout }
  | .flushedRDRC key => some { s with file := s.file.flushedRDRC key }
  | .call call => some (c.begin s call)
  | .thread i a =>
    match s.threads[i]? with
    | none => none
    | some t =>
      (c.advance s.toClientState i t a).map fun (state, phase) =>
        { s with toClientState := state, threads := s.threads.set i { t with phase } }
  | .refresh key result =>
    (s.backgroundRefresh.find? fun refresh => refresh.key == key).map fun refresh =>
      { s with toClientState := c.finishRefresh s.toClientState refresh result }

/-- The calls that are made on a client, and what its transports may give back
for a message. -/
structure World where
  calls : ClientCall → Prop
  answers : DNSTransport → Msg → TransportResult → Prop

/-- The answers of the transports are those of the world, and so are the calls. -/
def World.Admits (w : World) (s : ClientSystem) : ClientAction → Prop
  | .call call => w.calls call
  | .thread i (.answer result) =>
    ∀ r operation, s.threads[i]? = some ⟨r, .exchanging operation⟩ →
      w.answers r.transport operation.message result
  | .refresh key result =>
    ∀ refresh ∈ s.backgroundRefresh, refresh.key = key →
      w.answers refresh.transport refresh.message result
  | _ => True

/-- The states of a client that starts with an empty cache. -/
def Client.Reaches (w : World) : ClientSystem → Prop :=
  Machine.Reaches c.step w.Admits {}

def Thread.reply (t : Thread) : Option (Except ClientError Reply) :=
  match t.phase with
  | .done reply => some reply
  | _ => none

def lookupAddresses : Except ClientError Reply → Except ClientError (List Addr)
  | .error e => .error e
  | .ok reply =>
    if reply.response.rcode ≠ rcodeSuccess then .error (.rcode reply.response.rcode)
    else .ok (messageToAddresses reply.response)

def sortAddresses (response4 response6 : List Addr) (strategy : DomainStrategy) : List Addr :=
  if strategy = .preferIPv6 then response6 ++ response4 else response4 ++ response6

/-- The end of `Lookup`: one kind of address is enough. -/
def lookupBoth (strategy : DomainStrategy) (result4 result6 : Except ClientError (List Addr)) :
    Except ClientError (List Addr) :=
  let response4 := result4.toOption.getD []
  let response6 := result6.toOption.getD []
  if response4.isEmpty && response6.isEmpty then
    match result4, result6 with
    | .error e, _ => .error e
    | _, .error e => .error e
    | _, _ => .ok []
  else .ok (sortAddresses response4 response6 strategy)

inductive Returned
  | response (result : Except ClientError Msg)
  | addresses (result : Except ClientError (List Addr))

/-- The value of a call, from the replies of its exchanges. -/
def ClientCall.value (replies : List (Except ClientError Reply)) : ClientCall → Option Returned
  | .exchange _ | .exchangeAsync _ =>
    match replies with
    | [reply] => some (.response (reply.map Reply.response))
    | _ => none
  | .lookup l =>
    match replies with
    | [reply] => some (.addresses (lookupAddresses reply))
    | [reply4, reply6] =>
      some (.addresses (lookupBoth l.strategy (lookupAddresses reply4) (lookupAddresses reply6)))
    | _ => none

def ClientSystem.replies (s : ClientSystem) (call : ClientCall) (first : Nat) :
    List (Except ClientError Reply) :=
  ((s.threads.drop first).take call.requests.length).filterMap Thread.reply

/-- The value of a call that has returned: all its threads are done. -/
def ClientSystem.returned (s : ClientSystem) (call : ClientCall) (first : Nat) : Option Returned :=
  if (s.replies call first).length = call.requests.length then call.value (s.replies call first)
  else none

end SingBox.Dns
