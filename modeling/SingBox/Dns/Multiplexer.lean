import SingBox.Dns.Message
import SingBox.Lib.Machine

/-! Queries that share a connection to a server: each is registered under a number of its
own, and the answer with that number completes it. Connections die, contexts end and writes
fail while others are under way. -/

namespace SingBox.Dns.Multiplexer
open Lib Function

/-- `queryMultiplexerOptions`, apart from the functions of the connection. -/
structure Options where
  retryReadError : Bool
  probeReuse : Bool

inductive ContextError
  | canceled
  | deadlineExceeded
  deriving DecidableEq

def ContextError.text : ContextError → String
  | .canceled => "context canceled"
  | .deadlineExceeded => "context deadline exceeded"

/-- Why a connection was given up: `queryMultiplexerReadError`, or any other error. -/
inductive Cause
  | read (err : String)
  | other (err : String)
  deriving DecidableEq

def Cause.text : Cause → String
  | .read err => err
  | .other err => err

/-- `pendingQuery`. A callback is the number of its call of `ExchangeAsync`, which is also
the number of the call's context. The last two fields are whether the functions that
`context.AfterFunc` was given have not been started. -/
structure PendingQuery where
  conn : Nat
  message : Msg
  readEpoch : Nat
  callback : Nat
  retryCtx : Bool
  stopContext : Bool := true
  stopConn : Bool := true
  deriving DecidableEq

/-- A call of `exchangeAsync` that is about to acquire a connection. -/
structure Attempt where
  callback : Nat
  message : Msg
  firstAttempt : Bool
  retryReadError : Bool
  deriving DecidableEq

/-- A call of `exchangeAsync` that is writing. -/
structure Writing where
  attempt : Attempt
  queryId : BitVec 16
  conn : Nat
  created : Bool
  deriving DecidableEq

/-- A call of `exchangeSingle`, which has a connection for itself. -/
structure Single where
  callback : Nat
  message : Msg
  deriving DecidableEq

/-- A function given to `context.AfterFunc` that has been started. -/
inductive Task
  | completeContextDone (queryId : BitVec 16) (ctx : Nat)
  | completeConnDone (queryId : BitVec 16) (conn : Nat)
  deriving DecidableEq

structure Called where
  callback : Nat
  response : Option Msg
  err : Option String
  deriving DecidableEq

/-- The multiplexer, the goroutines that work for it, and the state of contexts and
connections. `started` are the messages of all calls, `called` the callbacks so far, the last
one first. -/
structure State where
  queryId : BitVec 16 := 0
  queries : List (BitVec 16 × PendingQuery) := []
  started : List Msg := []
  attempts : List Attempt := []
  writings : List Writing := []
  singles : List Single := []
  tasks : List Task := []
  done : Nat → Option ContextError := fun _ => none
  dead : Nat → Option Cause := fun _ => none
  readEpoch : Nat → Nat := fun _ => 0
  reuseSupported : Bool := false
  called : List Called := []

inductive Action
  | exchangeAsync (message : Msg)
  /-- `AcquireShared` returns to the call, with a connection or with an error. -/
  | acquired (i : Nat) (result : Except String (Nat × Bool))
  | wrote (i : Nat)
  | writeFailed (i : Nat) (err : String)
  /-- `readNext` of the loop of a connection returns a message, or nothing of use. -/
  | received (conn : Nat) (message : Option Msg)
  | readFailed (conn : Nat) (err : String)
  /-- A connection is given up elsewhere, as by `Reset` or `Close`. -/
  | connDied (conn : Nat) (err : String)
  | contextDone (ctx : Nat) (err : ContextError)
  /-- The context of a call or of a connection starts its function. -/
  | startContextDone (queryId : BitVec 16)
  | startConnDone (queryId : BitVec 16)
  | run (i : Nat)
  /-- The probe or a run of failures changes the state of reuse. -/
  | reuse (supported : Bool)
  | singleFailed (i : Nat) (err : String)
  | singleResponded (i : Nat) (response : Msg)

namespace State

variable (s : State) (options : Options)

def call (callback : Nat) (response : Option Msg) (err : Option String) : State :=
  { s with called := { callback, response, err } :: s.called }

/-- `Invalidate` and what else cancels the context of a connection: the first cause
stays. -/
def invalidate (conn : Nat) (cause : Cause) : State :=
  { s with dead := update s.dead conn ((s.dead conn).orElse fun _ => some cause) }

def dispatch (s : State) (callback : Nat) (message : Msg) (retryReadError : Bool) : State :=
  if options.probeReuse && !s.reuseSupported then
    { s with singles := { callback, message } :: s.singles }
  else
    { s with attempts := { callback, message, firstAttempt := true, retryReadError } :: s.attempts }

variable (queryId : BitVec 16)

def pending : Option PendingQuery := s.queries.lookup queryId

def without : State := { s with queries := s.queries.filter fun entry => entry.1 != queryId }

/-- `take`: the query, if there is one, is no longer pending. -/
def take : Option PendingQuery × State := (s.pending queryId, s.without queryId)

/-- The loop of `register`: the next number that is not taken, until all have been tried. -/
def freeId (s : State) : Nat → BitVec 16 → Option (BitVec 16)
  | 0, _ => none
  | fuel + 1, queryId =>
    let queryId := queryId + 1
    if (s.pending queryId).isNone then some queryId
    else if queryId = s.queryId then none
    else s.freeId fuel queryId

/-- `register`, and then the write. -/
def register (s : State) (a : Attempt) (conn : Nat) (created : Bool) : Option State :=
  (s.freeId (2 ^ 16) s.queryId).map fun queryId => { s with
    queryId
    queries := (queryId, {
      conn, message := a.message, readEpoch := s.readEpoch conn, callback := a.callback
      retryCtx := a.retryReadError && options.retryReadError && !created }) :: s.queries
    writings := { attempt := a, queryId, conn, created } :: s.writings }

/-- `exchangeAsync` after `AcquireShared`. -/
def acquired (s : State) (a : Attempt) : Except String (Nat × Bool) → State
  | .error err => s.call a.callback none (some err)
  | .ok (conn, created) =>
    match s.register options a conn created with
    | none => s.call a.callback none (some "no available query ID")
    | some s => s

/-- `exchangeAsync` after a write that failed. -/
def writeFailed (w : Writing) (err : String) : State :=
  let (pending, s) := s.take w.queryId
  let s := s.invalidate w.conn (.other err)
  match pending with
  | none => s
  | some _ =>
    if !w.created && w.attempt.firstAttempt then
      { s with attempts := { w.attempt with firstAttempt := false } :: s.attempts }
    else
      s.call w.attempt.callback none (some ("write request: " ++ err))

/-- `complete` for a message that was read. -/
def complete (message : Msg) : State :=
  match s.take (BitVec.ofNat 16 message.id) with
  | (none, s) => s
  | (some pending, s) => s.call pending.callback (some { message with id := pending.message.id }) none

def completeContextDone (err : ContextError) : State :=
  match s.take queryId with
  | (none, s) => s
  | (some pending, s) =>
    let s :=
      if err = .deadlineExceeded ∧ s.readEpoch pending.conn = pending.readEpoch then
        s.invalidate pending.conn (.other err.text)
      else s
    s.call pending.callback none (some err.text)

def completeConnDone (s : State) (queryId : BitVec 16) (cause : Cause) : State :=
  match s.take queryId with
  | (none, s) => s
  | (some pending, s) =>
    match pending.retryCtx, cause with
    | true, .read _ => s.dispatch options pending.callback pending.message false
    | _, _ => s.call pending.callback none (some cause.text)

/-- Runs a function that a context has started. -/
def runTask (s : State) : Task → Option State
  | .completeContextDone queryId ctx => (s.done ctx).map (s.completeContextDone queryId)
  | .completeConnDone queryId conn => (s.dead conn).map (s.completeConnDone options queryId)

def modify (f : PendingQuery → PendingQuery) : State :=
  { s with queries := s.queries.map fun entry =>
      if entry.1 = queryId then (entry.1, f entry.2) else entry }

end State

def step (options : Options) : Machine State Action
  | s, .exchangeAsync message =>
    some ({ s with started := s.started ++ [message] }.dispatch options s.started.length message true)
  | s, .acquired i result => s.attempts[i]?.map fun a =>
    { s with attempts := s.attempts.eraseIdx i }.acquired options a result
  | s, .wrote i => s.writings[i]?.map fun _ => { s with writings := s.writings.eraseIdx i }
  | s, .writeFailed i err => s.writings[i]?.map fun w =>
    { s with writings := s.writings.eraseIdx i }.writeFailed w err
  | s, .received conn message =>
    let s := { s with readEpoch := update s.readEpoch conn (s.readEpoch conn + 1) }
    some (message.elim s s.complete)
  | s, .readFailed conn err => some (s.invalidate conn (.read err))
  | s, .connDied conn err => some (s.invalidate conn (.other err))
  | s, .contextDone ctx err =>
    some { s with done := update s.done ctx ((s.done ctx).orElse fun _ => some err) }
  | s, .startContextDone queryId =>
    (s.pending queryId).bind fun p =>
      if p.stopContext && (s.done p.callback).isSome then
        some { s.modify queryId (fun p => { p with stopContext := false }) with
          tasks := .completeContextDone queryId p.callback :: s.tasks }
      else none
  | s, .startConnDone queryId =>
    (s.pending queryId).bind fun p =>
      if p.stopConn && (s.dead p.conn).isSome then
        some { s.modify queryId (fun p => { p with stopConn := false }) with
          tasks := .completeConnDone queryId p.conn :: s.tasks }
      else none
  | s, .run i => s.tasks[i]?.bind fun task =>
    { s with tasks := s.tasks.eraseIdx i }.runTask options task
  | s, .reuse supported => some { s with reuseSupported := supported }
  | s, .singleFailed i err => s.singles[i]?.map fun q =>
    { s with singles := s.singles.eraseIdx i }.call q.callback none (some err)
  | s, .singleResponded i response => s.singles[i]?.map fun q =>
    { s with singles := s.singles.eraseIdx i }.call q.callback
      (some { response with id := q.message.id }) none

end SingBox.Dns.Multiplexer
