import SingBox.Panel.Reporter

/-! A node that counts and reports: the tracker, the reporter and the state on
disk, under calls that run side by side, and the panel that they report to. -/

namespace SingBox.Panel
open Lib

/-- The shared state. Known here only: the reports ever journaled, those that the
panel accepted under a key, what earlier processes removed from their counters,
the call that staged and has yet to subtract, and the calls between the copy and
the replacement of the pending reports. -/
structure Node where
  accounts : Accounts
  memory : ReporterMemory
  store : State := {}
  journaled : List PendingReport := []
  accepted : List (String × TrafficReport) := []
  archive : Nat → Key → Traffic := 0
  staging : Option Nat := none
  recovering : Nat → Bool := fun _ => false

/-- What is decided outside: the clock, the order of a map, whether a save fails,
whether the panel accepts, and the answer that arrives. -/
structure ReporterEnv where
  now : Int := 0
  order : List Key := []
  saveError : Option String := none
  panelAccepts : Bool := false
  result : SendResult := .accepted

inductive ReporterCall
  | reportNow
  | flush
  | recovery
  deriving DecidableEq

inductive NodeEvent
  | activity (x : Activity)
  | updateInboundMapping (mapping : String → Option String)
  | setConfigRevision (rev : String)
  | restart (now : Int) (rev : String)

/-- The reports that a change of the state puts on record. -/
def StoreUpdate.journals : StoreUpdate → List PendingReport
  | .appendPending p => [p]
  | .appendQuarantined q => [q.pendingReport]
  | .countRetry .. | .removePending .. | .finishRecovery .. => []

def StoreUpdate.endsRecovery : StoreUpdate → Bool
  | .finishRecovery .. => true
  | _ => false

namespace Node

abbrev tracker (s : Node) : Tracker := s.accounts.tracker

def withTracker (s : Node) (t : Tracker) : Node := { s with accounts := s.accounts.withTracker t }

variable (s : Node) (thread : Nat)

def unstage : Node := { s with staging := if s.staging = some thread then none else s.staging }

def setRecovering (b : Bool) : Node :=
  { s with recovering := Function.update s.recovering thread b }

def saved (u : StoreUpdate) : Node :=
  { s with store := u.apply s.store, journaled := u.journals ++ s.journaled }

def exec : (op : ReporterOp) → ReporterEnv → Option (Node × op.Ans)
  | .now, env => some (s, env.now)
  | .state, _ => some (s, s.store)
  | .copyPending, _ =>
    some (s.setRecovering thread (!s.store.pendingReports.isEmpty), s.store.pendingReports)
  | .memory, _ => some (s, s.memory)
  | .setMemory f, _ => some ({ s with memory := f s.memory }, ())
  | .stageForReport startedAt endedAt configRevision, env =>
    if env.order.Perm s.tracker.live.keys then
      let staged := s.tracker.stageForReport env.order startedAt endedAt configRevision
      some ({ s.withTracker staged.1 with staging := some thread }, staged.2)
    else none
  | .confirmJournaled, _ => some (s.withTracker s.tracker.confirmJournaled, ())
  | .confirmAccepted, _ => some (s.withTracker s.tracker.confirmAccepted, ())
  | .resetLiveCountersWhenJournaled, _ =>
    some ((s.withTracker s.tracker.resetLiveCountersWhenJournaled).unstage thread, ())
  | .pendingReport, _ => some (s, s.tracker.pendingReport)
  | .updateAndSave u, env =>
    let s := if u.endsRecovery then s.setRecovering thread false else s
    match env.saveError with
    | some err => some (s, some err)
    | none => some (s.saved u, none)
  | .reportTraffic report idempotencyKey, env =>
    -- An answer can get lost, but none is made up.
    if env.result = .accepted ∧ env.panelAccepts = false then none
    else if env.panelAccepts then
      some ({ s with accepted := (idempotencyKey, report) :: s.accepted }, env.result)
    else some (s, env.result)
  -- The process ends: no call goes on, and a restart follows.
  | .nilDereference, _ => none

def leave : Node := (s.unstage thread).setRecovering thread false

/-- A new process: nothing is left but the state on disk. -/
def restart (now : Int) (rev : String) : Node :=
  { s with
    accounts := { tracker := {
      inboundMapping := s.tracker.inboundMapping
      process := s.tracker.process + 1 } }
    memory := { reportStartTime := now, configRevision := rev }
    archive := Function.update s.archive s.tracker.process s.tracker.removed
    staging := none
    recovering := fun _ => false }

def event : NodeEvent → Option Node
  | .activity x => (s.accounts.activity x).map fun a => { s with accounts := a }
  | .updateInboundMapping mapping => some (s.withTracker (s.tracker.updateInboundMapping mapping))
  | .setConfigRevision rev => some { s with memory := { s.memory with configRevision := rev } }
  | .restart now rev => some (s.restart now rev)

def initial (mapping : String → Option String) (now : Int) (rev : String) : Node where
  accounts := { tracker := { inboundMapping := mapping } }
  memory := { reportStartTime := now, configRevision := rev }

/-- How many bytes of a key a process subtracted from its counters. -/
def removedBy (process : Nat) (k : Key) : Traffic :=
  if process = s.tracker.process then s.tracker.removed k else s.archive process k

@[simp] lemma tracker_withTracker (t : Tracker) : (s.withTracker t).tracker = t := rfl

variable {process : Nat}

lemma removedBy_of_eq (h : process = s.tracker.process) (k : Key) :
    s.removedBy process k = s.tracker.removed k :=
  if_pos h

lemma removedBy_of_ne (h : process ≠ s.tracker.process) (k : Key) :
    s.removedBy process k = s.archive process k :=
  if_neg h

end Node

/-- The node as a system of calls. -/
def Reporter.system (R : Reporter) :
    System Node ReporterOp ReporterOp.Ans ReporterCall ReporterEnv NodeEvent where
  body
    | .reportNow => do
      let _ ← R.reportNow
      return ()
    | .flush => do
      let _ ← R.flush
      return ()
    | .recovery => do
      let _ ← R.recovery
      return ()
  exec := fun thread op env s => s.exec thread op env
  leave := fun thread s => s.leave thread
  event := fun e s => s.event e
  stops
    | .restart .. => true
    | _ => false

end SingBox.Panel
