import Mathlib.Data.Finset.Basic
import SingBox.Lib.Machine

/-! A pool of connections. Its lock is held for short sections only: dials, and the calls
that close a connection, run outside of it while other calls, a reset or the end of the pool
go on. -/

namespace SingBox.Dns.ConnPool
open Lib

inductive Mode
  | single
  | ordered
  deriving DecidableEq

/-- `ConnPoolOptions`, apart from the functions of a connection. No `MaxInflight` is zero. -/
structure Options where
  mode : Mode
  maxInflight : Nat := 0

/-- What a call returns instead of a connection: `net.ErrClosed`, the error of its context or
that of the dial. -/
inductive Error
  | closed
  | context (err : String)
  | dial (err : String)
  deriving DecidableEq

/-- `connPoolState`. The maps are the sets of their keys, and the context is whether it was
cancelled. -/
structure ConnPoolState (T : Type) where
  cancelled : Bool := false
  all : Finset T := ∅
  idle : List T := []
  idleElements : Finset T := ∅
  shared : Option T := none
  sharedClaimed : Bool := false
  connecting : Option Nat := none

structure ConnPoolConnect where
  done : Bool := false
  err : Option Error := none

/-- What follows a call of `Close`. -/
inductive Next
  | finish
  | acquireShared (call : Nat)
  | acquireOrdered (call : Nat)
  | connected (state connect : Nat) (err : Error)
  | connectDone (connect : Nat)
  | failed (call : Nat) (err : Error)

/-- Where a call or a goroutine is. Calls, states and connects are numbered. -/
inductive Thread (T : Type)
  | acquireShared (call : Nat)
  /-- The `select` of `acquireShared`. -/
  | waiting (call state connect : Nat) (startDial : Bool)
  | connectSingle (call state connect : Nat)
  /-- `connectSingle` after the dial, before it takes the lock. -/
  | connected (state connect : Nat) (result : Except Error T)
  | connectDone (connect : Nat)
  | acquireOrdered (call : Nat)
  | acquireSlot (call state : Nat)
  | dialing (call state : Nat)
  /-- `dialAndInstall` after the dial, before it takes the lock. -/
  | dialed (call state : Nat) (conn : T)
  /-- `dialAndInstall` returns an error, with its slot. -/
  | failed (call : Nat) (err : Error)
  | closing (conn : T) (next : Next)
  | closeState (state : Nat)
  /-- The loop of `closeState`. -/
  | closeAll (conns : Finset T)

def Next.threads {T : Type} : Next → List (Thread T)
  | .finish => []
  | .acquireShared call => [.acquireShared call]
  | .acquireOrdered call => [.acquireOrdered call]
  | .connected state connect err => [.connected state connect (.error err)]
  | .connectDone connect => [.connectDone connect]
  | .failed call err => [.failed call err]

structure Given (T : Type) where
  call : Nat
  conn : T
  created : Bool
  deriving DecidableEq

/-- The pool with all that works on it. The state is nil once the pool is closed. `dialled`
and `closed` are the connections of all dials and those that `Close` was called for, `holders`
the calls that have neither released nor invalidated the connection they were given. -/
structure State (T : Type) where
  state : Option Nat := some 0
  states : Nat → ConnPoolState T := fun _ => {}
  lastState : Nat := 0
  connects : Nat → ConnPoolConnect := fun _ => {}
  lastConnect : Nat := 0
  calls : Nat := 0
  done : Nat → Option String := fun _ => none
  slots : Nat := 0
  threads : List (Thread T) := []
  dialled : List T := []
  closed : List T := []
  given : List (Given T) := []
  errors : List (Nat × Error) := []
  holders : List (Nat × T) := []

inductive Move (T : Type)
  /-- It takes the lock; the connection it looks at is alive or not. -/
  | lock (alive : Bool)
  | dialed (result : Except String T)
  /-- The context of its call is done. -/
  | contextDone
  /-- The context of the pool's state is done. -/
  | stateDone
  | go
  /-- The loop over the connections of a state comes to one. -/
  | close (conn : T)

inductive Action (T : Type)
  | acquire
  | acquireShared
  | release (holder : Nat) (conn : T) (reuse alive : Bool)
  | invalidate (holder : Nat) (conn : T)
  | reset
  | close
  | contextDone (call : Nat) (err : String)
  | turn (i : Nat) (move : Move T)

section

variable {T : Type} [DecidableEq T]

namespace ConnPoolState

def removeConn (mode : Mode) (p : ConnPoolState T) (conn : T) : ConnPoolState T :=
  let p := { p with all := p.all.erase conn }
  match mode with
  | .single => if p.shared = some conn then { p with shared := none, sharedClaimed := false } else p
  | .ordered =>
    if conn ∈ p.idleElements then
      { p with idle := p.idle.erase conn, idleElements := p.idleElements.erase conn }
    else p

def pushBack (p : ConnPoolState T) (conn : T) : ConnPoolState T :=
  { p with idle := p.idle ++ [conn], idleElements := insert conn p.idleElements }

end ConnPoolState

namespace State

def update (s : State T) (state : Nat) (f : ConnPoolState T → ConnPoolState T) : State T :=
  { s with states := Function.update s.states state (f (s.states state)) }

variable (s : State T) (options : Options)

def start (t : Thread T) : State T := { s with threads := t :: s.threads }

def give (call : Nat) (conn : T) (created : Bool) : State T :=
  { s with given := { call, conn, created } :: s.given, holders := (call, conn) :: s.holders }

def fail (call : Nat) (err : Error) : State T := { s with errors := (call, err) :: s.errors }

/-- A call has its connection no longer. -/
def putDown (holder : Nat) (conn : T) : State T :=
  { s with holders := s.holders.erase (holder, conn) }

def acquire (s : State T) : State T :=
  let t := match options.mode with
    | .single => Thread.acquireShared s.calls
    | .ordered => Thread.acquireOrdered s.calls
  { s with calls := s.calls + 1 }.start t

def acquireShared (options : Options) (s : State T) : State T :=
  let called := { s with calls := s.calls + 1 }
  if options.mode ≠ .single then called.fail s.calls .closed
  else called.start (.acquireShared s.calls)

def release (s : State T) (holder : Nat) (conn : T) (reuse alive : Bool) : State T :=
  let s := s.putDown holder conn
  match s.state with
  | none => s.start (.closing conn .finish)
  | some state =>
    if conn ∉ (s.states state).all then s.start (.closing conn .finish)
    else if !reuse || !alive then
      (s.update state (·.removeConn options.mode conn)).start (.closing conn .finish)
    else if options.mode = .ordered ∧ conn ∉ (s.states state).idleElements then
      s.update state (·.pushBack conn)
    else s

def invalidate (s : State T) (holder : Nat) (conn : T) : State T :=
  let s := s.putDown holder conn
  match s.state with
  | none => s.start (.closing conn .finish)
  | some state =>
    if conn ∉ (s.states state).all then s
    else (s.update state (·.removeConn options.mode conn)).start (.closing conn .finish)

def reset : State T :=
  match s.state with
  | none => s
  | some old =>
    let state := s.lastState + 1
    { s with
      state := some state
      states := Function.update s.states state {}
      lastState := state }.start (.closeState old)

def close : State T :=
  match s.state with
  | none => s
  | some old => { s with state := none }.start (.closeState old)

/-- A shared connection that is alive is returned; the first call that gets it is told that it
was created. One that is not is closed, and the loop goes on. -/
def takeShared (call state : Nat) (conn : T) (alive : Bool) : State T :=
  if alive then
    (s.update state fun p => { p with sharedClaimed := true }).give call conn
      (!(s.states state).sharedClaimed)
  else
    (s.update state (·.removeConn .single conn)).start (.closing conn (.acquireShared call))

/-- Starts the dial that all who wait in the state share. -/
def startDial (call state : Nat) : State T :=
  let connect := s.lastConnect + 1
  ({ s with
    connects := Function.update s.connects connect {}
    lastConnect := connect }.update state fun p => { p with connecting := some connect })
    |>.start (.connectSingle call state connect)
    |>.start (.waiting call state connect true)

/-- The loop of `acquireShared` up to the `select`. -/
def lockShared (call : Nat) (alive : Bool) : State T :=
  match s.state with
  | none => s.fail call .closed
  | some state =>
    match (s.states state).shared with
    | some conn => s.takeShared call state conn alive
    | none =>
      match (s.states state).connecting with
      | some connect => s.start (.waiting call state connect false)
      | none => s.startDial call state

def collectShared (call state connect : Nat) (startDial alive : Bool) : State T :=
  match (s.connects connect).err with
  | some err => if startDial then s.fail call err else s.start (.acquireShared call)
  | none =>
    if s.state ≠ some state then s.fail call .closed
    else
      match (s.states state).shared with
      | none => s.start (.acquireShared call)
      | some conn => s.takeShared call state conn alive

/-- The loop of `acquireOrdered`. -/
def lockOrdered (call : Nat) (alive : Bool) : State T :=
  match s.state with
  | none => s.fail call .closed
  | some state =>
    match (s.states state).idle with
    | [] => s.start (.acquireSlot call state)
    | conn :: idle =>
      let s := s.update state fun p => { p with idle, idleElements := p.idleElements.erase conn }
      if alive then s.give call conn false
      else
        (s.update state fun p => { p with all := p.all.erase conn }).start
          (.closing conn (.acquireOrdered call))

/-- The cause of a dial that was cancelled, with the context of its call or with the state it
dials for. -/
def dialErr (call state : Nat) : Option Error :=
  match s.done call with
  | some err => some (.context err)
  | none => if (s.states state).cancelled then some .closed else none

/-- `connectSingle` when the dial returns. -/
def connectDialed (call state connect : Nat) : Except String T → State T
  | .ok conn =>
    let t := match s.dialErr call state with
      | some err => .closing conn (.connected state connect err)
      | none => .connected state connect (.ok conn)
    { s with dialled := conn :: s.dialled }.start t
  | .error err =>
    s.start (.connected state connect (.error ((s.dialErr call state).getD (.dial err))))

/-- `connectSingle` from where it takes the lock. -/
def lockConnect (state connect : Nat) : Except Error T → State T
  | .error err =>
    { s.update state fun p => { p with connecting := none } with
      connects := Function.update s.connects connect { err := some err } }.start
          (.connectDone connect)
  | .ok conn =>
    if s.state = some state then
      (s.update state fun p => { p with
        connecting := none, shared := some conn, all := insert conn p.all }).start
        (.connectDone connect)
    else
      { s.update state fun p => { p with connecting := none } with
        connects := Function.update s.connects connect { err := some .closed } }.start
        (.closing conn (.connectDone connect))

/-- `dialAndInstall` when the dial returns. -/
def installDialed (call state : Nat) : Except String T → State T
  | .ok conn =>
    let t := match s.dialErr call state with
      | some err => .closing conn (.failed call err)
      | none => .dialed call state conn
    { s with dialled := conn :: s.dialled }.start t
  | .error err => s.start (.failed call ((s.dialErr call state).getD (.dial err)))

def releaseSlot (s : State T) : State T :=
  if options.maxInflight = 0 then s else { s with slots := s.slots - 1 }

/-- `dialAndInstall` from where it takes the lock. -/
def lockInstall (s : State T) (call state : Nat) (conn : T) : State T :=
  if s.state = some state then
    ((s.update state fun p => { p with all := insert conn p.all }).give call conn true).releaseSlot
      options
  else s.start (.closing conn (.failed call .closed))

/-- A dial gives a connection that no dial gave before. -/
def fresh : Except String T → Bool
  | .ok conn => conn ∉ s.dialled
  | .error _ => true

def turn (s : State T) : Thread T → Move T → Option (State T)
  | .acquireShared call, .lock alive => some (s.lockShared call alive)
  | .waiting call state connect startDial, .lock alive =>
    if (s.connects connect).done then some (s.collectShared call state connect startDial alive)
    else none
  | .waiting call _ _ _, .contextDone => (s.done call).map fun err => s.fail call (.context err)
  | .waiting call state _ _, .stateDone =>
    if (s.states state).cancelled then
      some (if s.state = none then s.fail call .closed else s.start (.acquireShared call))
    else none
  | .connectSingle call state connect, .dialed result =>
    if s.fresh result then some (s.connectDialed call state connect result) else none
  | .connected state connect result, .lock _ => some (s.lockConnect state connect result)
  | .connectDone connect, .go =>
    some { s with
      connects := Function.update s.connects connect { s.connects connect with done := true } }
  | .acquireOrdered call, .lock alive => some (s.lockOrdered call alive)
  | .acquireSlot call state, .go =>
    if options.maxInflight = 0 then some (s.start (.dialing call state))
    else if s.slots < options.maxInflight then
      some ({ s with slots := s.slots + 1 }.start (.dialing call state))
    else none
  | .acquireSlot call state, .contextDone =>
    if options.maxInflight = 0 then none
    else (s.dialErr call state).map fun err => s.fail call err
  | .dialing call state, .dialed result =>
    if s.fresh result then some (s.installDialed call state result) else none
  | .dialed call state conn, .lock _ => some (s.lockInstall options call state conn)
  | .failed call err, .go => some ((s.fail call err).releaseSlot options)
  | .closing conn next, .go =>
    some { s with closed := conn :: s.closed, threads := next.threads ++ s.threads }
  | .closeState state, .go =>
    some ((s.update state fun p => { p with cancelled := true }).start
      (.closeAll (s.states state).all))
  | .closeAll conns, .close conn =>
    if conn ∈ conns then
      some ({ s with closed := conn :: s.closed }.start (.closeAll (conns.erase conn)))
    else none
  | .closeAll conns, .go => if conns = ∅ then some s else none
  | _, _ => none

/-- The connections of the current state. -/
def pool : ConnPoolState T := s.state.elim {} s.states

end State

def step (options : Options) : Machine (State T) (Action T)
  | s, .acquire => some (s.acquire options)
  | s, .acquireShared => some (s.acquireShared options)
  | s, .release holder conn reuse alive => some (s.release options holder conn reuse alive)
  | s, .invalidate holder conn => some (s.invalidate options holder conn)
  | s, .reset => some s.reset
  | s, .close => some s.close
  | s, .contextDone call err =>
    some { s with done := Function.update s.done call ((s.done call).orElse fun _ => some err) }
  | s, .turn i move => s.threads[i]?.bind fun t =>
    { s with threads := s.threads.eraseIdx i }.turn options t move

end

end SingBox.Dns.ConnPool
