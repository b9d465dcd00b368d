import SingBox.Panel.Manager

/-! The poller of users: it installs the users of an inbound in the Box, and then
records under which tag the panel delivered them. -/

namespace SingBox.Panel
open Lib

/-- The name that traffic of a user is routed and accounted by. -/
def routingIdentity (u : User) : String :=
  let value :=
    match u.runtimeIdentity with
    | some identity => if identity.source = "user_id" then trimSpace identity.value else ""
    | none => ""
  if value ≠ "" then value
  else if trimSpace u.userID ≠ "" then trimSpace u.userID
  else trimSpace u.name

def convertUsers (snapshot : UserSnapshot) : List ManagedUser :=
  snapshot.users.map fun u => {
    userID := u.userID
    name := routingIdentity u
    credential := {
      userID := u.userID
      name := routingIdentity u
      password := u.credential.password } }

inductive SnapshotError
  | revisionConflict
  | invalid (message : String)
  deriving DecidableEq

def SnapshotError.message : SnapshotError → String
  | .revisionConflict => "configuration revision conflict"
  | .invalid message => message

/-- The first user, counted from a number on, whose credential is no password. -/
def unsupportedCredential : Nat → List User → Option SnapshotError
  | _, [] => none
  | i, u :: users =>
    if u.credential.type ≠ "password" then
      some (.invalid
        ("users[" ++ toString i ++ "]: unsupported credential type: " ++ u.credential.type))
    else unsupportedCredential (i + 1) users

namespace Poller
open Panel.Manager (perform)

def validateSnapshot (snap : UserSnapshot) (inboundID : String) (managedInbound : ManagedInbound)
    (configRevision : String) : AdapterProg (Option SnapshotError) := do
  let nodeID := (← perform .state).config.nodeID
  if snap.nodeID ≠ "" ∧ snap.nodeID ≠ nodeID then
    return some (.invalid ("node_id mismatch: got " ++ snap.nodeID ++ ", want " ++ nodeID))
  if snap.inboundID ≠ inboundID then
    return some (.invalid ("inbound_id mismatch: got " ++ snap.inboundID ++ ", want " ++ inboundID))
  if snap.protocol ≠ managedInbound.protocol then
    return some (.invalid
      ("protocol mismatch: got " ++ snap.protocol ++ ", want " ++ managedInbound.protocol))
  if snap.configurationRevision ≠ configRevision then
    return some .revisionConflict
  return unsupportedCredential 0 snap.users

variable (inboundID : String) (managedInbound : ManagedInbound)

/-- The status is recorded. The errors are those given, and that of the save if it
fails. -/
def setInboundStatus (loadStatus : UserLoadStatus) (message : String)
    (unsaved saved : List String) : AdapterProg (List String) := do
  match ← perform (.updateAndSave (.status inboundID loadStatus)) with
  | some err => return unsaved ++ [message ++ ": " ++ err]
  | none => return saved

def handleFetchError (err : FetchError) (hasPrev : Bool)
    (prevRevision : String) : AdapterProg (List String) := do
  match err with
  | .notModified => setInboundStatus inboundID .ok "persist not-modified status" [err.message] []
  | .response 409 _ =>
    let _ ← perform .markConfigRefetch
    setInboundStatus inboundID .revisionConflict "persist revision conflict status"
      [err.message] [err.message]
  | _ =>
    if hasPrev && prevRevision ≠ "" then
      setInboundStatus inboundID .stale "persist stale status" [err.message] [err.message]
    else
      setInboundStatus inboundID .emptyInitialLoad "persist initial load failure status"
        [err.message] [err.message]

/-- The end of `PollInbound`, with a snapshot that passed the checks. -/
def installUsers (snapshot : UserSnapshot) (newETag : String) : AdapterProg (List String) := do
  match ← perform (.replaceInboundUsers managedInbound.tag (convertUsers snapshot) inboundID) with
  | some err =>
    setInboundStatus inboundID .applyFailed "persist user apply failure status"
      ["replace inbound users: " ++ err] ["replace inbound users: " ++ err]
  | none =>
    match ← perform (.updateAndSave
        (.users inboundID newETag snapshot.revision snapshot.users.length .ok)) with
    | some err => return ["persist applied users: " ++ err]
    | none => return []

def pollInbound (configRevision : String) : AdapterProg (List String) := do
  let curState ← perform .state
  let prev := curState.inbounds.lookup inboundID
  let ibState := prev.getD {}
  if !isSupportedProtocol managedInbound.protocol then
    setInboundStatus inboundID .unsupportedProto "persist unsupported protocol status" [] []
  else if managedInbound.userApplyPolicy = "none" then
    setInboundStatus inboundID .ok "persist single-user inbound status" [] []
  else if managedInbound.userApplyPolicy ≠ "hot_reload_users" then
    setInboundStatus inboundID .applyFailed "persist unsupported user apply policy status" []
      ["unsupported user_apply_policy: " ++ managedInbound.userApplyPolicy]
  else
    match ← perform (.fetchUsers inboundID ibState.userETag configRevision) with
    | .error err => handleFetchError inboundID err prev.isSome ibState.userRevision
    | .ok (snapshot, newETag) =>
      match ← validateSnapshot snapshot inboundID managedInbound configRevision with
      | some .revisionConflict =>
        let _ ← perform .markConfigRefetch
        setInboundStatus inboundID .revisionConflict "persist revision conflict status"
          [SnapshotError.revisionConflict.message] [SnapshotError.revisionConflict.message]
      | some (.invalid message) =>
        setInboundStatus inboundID .applyFailed "persist snapshot validation status"
          [message] [message]
      | none => installUsers inboundID managedInbound snapshot newETag

end Poller

inductive AdapterCall
  | manage (call : ManagerCall)
  | pollInbound (inboundID : String) (managedInbound : ManagedInbound) (configRevision : String)

/-- The inbound whose users a call polls. -/
def AdapterCall.polls : AdapterCall → Option String
  | .manage _ => none
  | .pollInbound inboundID .. => some inboundID

/-- Manager and poller side by side. -/
def Libraries.system (L : Libraries) :
    System Adapter AdapterOp AdapterOp.Ans AdapterCall AdapterEnv Empty where
  body
    | .manage call => do
      let _ ← Manager.program L call
      return ()
    | .pollInbound inboundID managedInbound configRevision => do
      let _ ← Poller.pollInbound inboundID managedInbound configRevision
      return ()
  exec := fun thread op env s => s.exec thread op env
  leave := fun _ s => s
  event := fun e _ => e.elim
  stops := fun e => e.elim

end SingBox.Panel
