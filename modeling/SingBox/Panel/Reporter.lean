import SingBox.Lib.Prog
import SingBox.Panel.Accounts

/-! The traffic reporter: reports are journaled before they are sent, sent again
under the same key until they are accepted, and recovered after a restart. -/

namespace SingBox.Panel
open Lib

structure TrafficBody where
  startedAt : Int
  endedAt : Int
  configurationRevision : String
  records : List (String × String × Int × Int)
  deriving DecidableEq

def TrafficReport.body (r : TrafficReport) : TrafficBody where
  startedAt := r.startedAt
  endedAt := r.endedAt
  configurationRevision := r.configurationRevision
  records := r.records.map fun x => (x.inboundID, x.userID, x.uploadBytes, x.downloadBytes)

/-- A reporter's settings, and the functions that it calls on bodies and times. The
hash covers the start of the window. -/
structure Reporter where
  nodeID : String
  skipEmpty : Bool := true
  computeBodyHash : TrafficBody → Except String String
  rfc3339 : Int → String
  startedAt_eq : ∀ {b b' : TrafficBody} {hash : String}, computeBodyHash b = .ok hash →
    computeBodyHash b' = .ok hash → b.startedAt = b'.startedAt

/-- The fields of a reporter that change. -/
structure ReporterMemory where
  pendingReport : Option TrafficReport := none
  pendingKey : String := ""
  pendingHash : String := ""
  reportStartTime : Int
  configRevision : String := ""

/-- The answer to a report, as `ClassifyError` has it. -/
inductive SendResult
  | accepted
  | failed (message : String) (retryable isConflict : Bool)
  deriving DecidableEq

/-- The changes that the reporter makes to the state, each in one save. -/
inductive StoreUpdate
  | appendPending (pending : PendingReport)
  | appendQuarantined (quarantined : QuarantinedReport)
  | countRetry (bodyHash : String) (startedAt : Int)
  | removePending (bodyHash : String) (startedAt : Int)
  | finishRecovery (remaining : List PendingReport) (quarantined : List QuarantinedReport)

def PendingReport.isFor (bodyHash : String) (startedAt : Int) (p : PendingReport) : Bool :=
  p.bodyHash == bodyHash && p.startedAt == startedAt

/-- The first matching report is tried once more. -/
def retryFirst (bodyHash : String) (startedAt : Int) : List PendingReport → List PendingReport
  | [] => []
  | p :: pendings =>
    if p.isFor bodyHash startedAt then { p with retryCount := p.retryCount + 1 } :: pendings
    else p :: retryFirst bodyHash startedAt pendings

def removePendingByHash (pendings : List PendingReport) (bodyHash : String) (startedAt : Int) :
    List PendingReport :=
  pendings.filter fun p => !p.isFor bodyHash startedAt

def StoreUpdate.apply (st : State) : StoreUpdate → State
  | .appendPending p => { st with pendingReports := st.pendingReports ++ [p] }
  | .appendQuarantined q => { st with quarantinedReports := st.quarantinedReports ++ [q] }
  | .countRetry bodyHash startedAt =>
    { st with pendingReports := retryFirst bodyHash startedAt st.pendingReports }
  | .removePending bodyHash startedAt =>
    { st with pendingReports := removePendingByHash st.pendingReports bodyHash startedAt }
  | .finishRecovery remaining quarantined =>
    { st with
      pendingReports := remaining
      quarantinedReports := st.quarantinedReports ++ quarantined }

inductive ReporterOp
  | now
  | state
  | copyPending
  | memory
  | setMemory (f : ReporterMemory → ReporterMemory)
  | stageForReport (startedAt endedAt : Int) (configRevision : String)
  | confirmJournaled
  | confirmAccepted
  | resetLiveCountersWhenJournaled
  | pendingReport
  | updateAndSave (update : StoreUpdate)
  | reportTraffic (report : TrafficReport) (idempotencyKey : String)
  | nilDereference

abbrev ReporterOp.Ans : ReporterOp → Type
  | .now => Int
  | .state => State
  | .copyPending => List PendingReport
  | .memory => ReporterMemory
  | .setMemory _ => Unit
  | .stageForReport .. => TrafficReport
  | .confirmJournaled => Unit
  | .confirmAccepted => Unit
  | .resetLiveCountersWhenJournaled => Unit
  | .pendingReport => Option TrafficReport
  | .updateAndSave _ => Option String
  | .reportTraffic .. => SendResult
  | .nilDereference => Empty

abbrev ReporterProg := Prog ReporterOp ReporterOp.Ans

def maxWindow : Int := 300000000000

variable (report : TrafficReport)

def invalidWindowReason : Option String :=
  if report.endedAt ≤ report.startedAt then some "non_positive_window"
  else if maxWindow < report.endedAt - report.startedAt then some "window_exceeds_five_minutes"
  else none

namespace Reporter

def perform (op : ReporterOp) : ReporterProg op.Ans := Prog.op op

variable (R : Reporter)

def makeIdempotencyKey (windowStart : Int) (bodyHash : String) : String :=
  "tr_" ++ R.nodeID ++ "_" ++ R.rfc3339 windowStart ++ "_" ++ (bodyHash.take 8).toString

/-- The body of a pending report; one saved without it may still be staged. -/
def originalBody (pr : PendingReport) : ReporterProg (Option TrafficReport) :=
  match pr.report with
  | some report => pure (some report)
  | none => perform .pendingReport

/-- What becomes of one pending report: it remains, it is quarantined, or it is
accepted. -/
def recoverReport (pr : PendingReport) :
    ReporterProg (List PendingReport × List QuarantinedReport) := do
  match ← originalBody pr with
  | none => return ([pr], [])
  | some report =>
    match R.computeBodyHash report.body with
    | .error _ => return ([pr], [])
    | .ok hash =>
      if hash ≠ pr.bodyHash then return ([pr], [])
      match invalidWindowReason report with
      | some reason =>
        let quarantinedAt ← perform .now
        return ([], [{ pendingReport := pr, reason, quarantinedAt }])
      | none =>
        match ← perform (.reportTraffic report pr.idempotencyKey) with
        | .accepted =>
          let _ ← perform .confirmAccepted
          let _ ← perform .resetLiveCountersWhenJournaled
          return ([], [])
        | .failed _ retryable isConflict =>
          if !isConflict && retryable then
            return ([{ pr with retryCount := pr.retryCount + 1 }], [])
          return ([pr], [])

def recoverReports : List PendingReport → ReporterProg (List PendingReport × List QuarantinedReport)
  | [] => pure ([], [])
  | pr :: pendings => do
    let first ← R.recoverReport pr
    let rest ← recoverReports pendings
    return (first.1 ++ rest.1, first.2 ++ rest.2)

def recovery : ReporterProg (Option String) := do
  let pendings ← perform .copyPending
  if pendings.isEmpty then return none
  let recovered ← R.recoverReports pendings
  match ← perform (.updateAndSave (.finishRecovery recovered.1 recovered.2)) with
  | some err => return some ("save state after recovery: " ++ err)
  | none =>
    let _ ← perform (.setMemory fun m =>
      if recovered.2.any (·.pendingReport.idempotencyKey == m.pendingKey) then
        { m with pendingReport := none, pendingKey := "", pendingHash := "" }
      else m)
    return none

/-- The end of `sendAndFinalize` once the report is accepted. -/
def forgetPending : ReporterProg (Option String) := do
  let now ← perform .now
  let _ ← perform (.setMemory fun m =>
    { m with pendingReport := none, pendingKey := "", pendingHash := "", reportStartTime := now })
  return none

def sendAndFinalize (idempotencyKey bodyHash : String) (startedAt : Int) :
    ReporterProg (Option String) := do
  match ← perform (.reportTraffic report idempotencyKey) with
  | .accepted =>
    let _ ← perform .confirmAccepted
    let _ ← perform .resetLiveCountersWhenJournaled
    -- A failed save is only logged.
    let _ ← perform (.updateAndSave (.removePending bodyHash startedAt))
    forgetPending
  | .failed message retryable isConflict =>
    if isConflict then return some ("idempotency conflict (hard state error): " ++ message)
    if retryable then return some ("retryable error sending traffic report: " ++ message)
    return some ("non-retryable error sending traffic report: " ++ message)

/-- The fields are read for the save and again for the send; a call running beside
this one may have cleared them. -/
def retryPending : ReporterProg (Option String) := do
  let m ← perform .memory
  match m.pendingReport with
  | none => return (← perform .nilDereference).elim
  | some report =>
    match ← perform (.updateAndSave (.countRetry m.pendingHash report.startedAt)) with
    | some err => return some ("persist pending report retry count: " ++ err)
    | none =>
      let m ← perform .memory
      match m.pendingReport with
      | none => return (← perform .nilDereference).elim
      | some report => sendAndFinalize report m.pendingKey m.pendingHash report.startedAt

/-- The retry of `Flush`, if there is a report to be retried. -/
def retryIfPending : ReporterProg (Option String) := do
  let m ← perform .memory
  if m.pendingReport.isSome then retryPending else return none

def stageAndSend : ReporterProg (Option String) := do
  let now ← perform .now
  let m ← perform .memory
  let report ← perform (.stageForReport m.reportStartTime now m.configRevision)
  if R.skipEmpty && report.records.isEmpty then
    let _ ← perform (.setMemory fun m => { m with reportStartTime := now })
    return none
  match R.computeBodyHash report.body with
  | .error err => return some ("compute report body hash: " ++ err)
  | .ok bodyHash =>
    let idempotencyKey := R.makeIdempotencyKey m.reportStartTime bodyHash
    let pending : PendingReport := {
      idempotencyKey
      bodyHash
      startedAt := m.reportStartTime
      endedAt := now
      report := some report }
    match invalidWindowReason report with
    | some reason =>
      match ← perform (.updateAndSave (.appendQuarantined
          { pendingReport := pending, reason, quarantinedAt := now })) with
      | some err => return some ("preserve traffic with invalid window: " ++ err)
      | none =>
        let _ ← perform .confirmJournaled
        let _ ← perform .resetLiveCountersWhenJournaled
        let _ ← perform (.setMemory fun m => { m with reportStartTime := now })
        return some ("traffic window quarantined: " ++ reason)
    | none =>
      match ← perform (.updateAndSave (.appendPending pending)) with
      | some err => return some ("persist pending report: " ++ err)
      | none =>
        let _ ← perform .confirmJournaled
        let _ ← perform .resetLiveCountersWhenJournaled
        let _ ← perform (.setMemory fun m =>
          { m with
            pendingReport := some report
            pendingKey := idempotencyKey
            pendingHash := bodyHash })
        let m ← perform .memory
        sendAndFinalize report idempotencyKey bodyHash m.reportStartTime

/-- What `ReportNow` and `Flush` do first: a pending report whose window is not
valid goes through a recovery. -/
def recoverInvalid : ReporterProg (Option String) := do
  let m ← perform .memory
  if (m.pendingReport.bind invalidWindowReason).isSome then R.recovery else return none

def reportNow : ReporterProg (Option String) := do
  if let some err ← R.recoverInvalid then return some err
  let m ← perform .memory
  if m.pendingReport.isSome then retryPending
  else
    let st ← perform .state
    if st.pendingReports.isEmpty then R.stageAndSend
    else
      if let some err ← R.recovery then return some err
      let st ← perform .state
      if st.pendingReports.isEmpty then R.stageAndSend
      else return some "pending traffic reports remain unacknowledged"

/-- `Flush`: both errors are returned. -/
def flush : ReporterProg (List String) := do
  if let some err ← R.recoverInvalid then return [err]
  let retryErr ← retryIfPending
  let st ← perform .state
  let _ ← perform (.setMemory fun m =>
    let ends := st.pendingReports.map (·.endedAt)
    { m with reportStartTime := ends.foldl max m.reportStartTime })
  let err ← R.stageAndSend
  return retryErr.toList ++ err.toList

end Reporter

end SingBox.Panel
