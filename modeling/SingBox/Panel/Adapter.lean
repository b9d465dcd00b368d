import SingBox.Lib.Prog
import SingBox.Panel.Contract

/-! What the manager of the Box and the poller of its users share: the Box that
runs, the state on disk, and what they do to both. -/

namespace SingBox.Panel
open Lib List AList

structure ManagedUserCredential where
  userID : String
  name : String
  password : String
  deriving DecidableEq

structure ManagedUser where
  userID : String
  name : String
  credential : ManagedUserCredential
  deriving DecidableEq

/-- A Box with its number, the configuration that it was built from, and the users
last installed in the inbound of each tag. -/
structure Box where
  serial : Nat
  config : ConfigurationResponse
  users : String → Option (List ManagedUser) := fun _ => none

/-- What goes wrong with a request to the panel. -/
inductive FetchError
  | notModified
  | response (statusCode : Nat) (message : String)
  | transport (message : String)
  deriving DecidableEq

def FetchError.message : FetchError → String
  | .notModified => "resource not modified"
  | .response _ message => message
  | .transport message => message

/-- The changes that manager and poller make to the state, each in one save. -/
inductive AdapterUpdate
  | pending (cfg : ConfigurationResponse) (etag : String)
  | applied (cfg : ConfigurationResponse) (etag : String)
  | applyFailed (cfg : ConfigurationResponse)
  | status (inboundID : String) (status : UserLoadStatus)
  | users (inboundID etag revision : String) (userCount : Nat) (status : UserLoadStatus)

namespace State

/-- What is recorded of an inbound; it has no users yet. -/
def inboundState (ib : ManagedInbound) (status : Option UserLoadStatus) : InboundState where
  inboundID := ib.inboundID
  tag := ib.tag
  protocol := ib.protocol
  userLoadStatus := status

variable (st : State) (cfg : ConfigurationResponse) (inboundID : String) (etag : String)
  (status : ManagedInbound → Option UserLoadStatus)

def recordConfiguration : State :=
  { st with
    config := { revision := cfg.revision, etag, nodeID := cfg.nodeID }
    inbounds := cfg.managedInbounds.foldl
      (fun inbounds ib => inbounds.insert ib.inboundID (inboundState ib (status ib))) st.inbounds }

/-- The ids that `applyConfigLocked` found to be of no supported protocol. -/
def unsupportedInbounds : List String :=
  (cfg.managedInbounds.filter fun ib => !isSupportedProtocol ib.protocol).map (·.inboundID)

def recordPending : State :=
  st.recordConfiguration cfg etag fun ib =>
    if isSupportedProtocol ib.protocol then none else some .unsupportedProto

def recordApplied : State :=
  st.recordConfiguration cfg etag fun ib =>
    if ib.inboundID ∈ unsupportedInbounds cfg then some .unsupportedProto
    else some .emptyInitialLoad

def recordApplyFailed : State :=
  st.recordConfiguration cfg "" fun ib =>
    if isSupportedProtocol ib.protocol then some .applyFailed else some .unsupportedProto

variable (f : InboundState → InboundState)

def modifyInbound : State :=
  { st with
    inbounds := st.inbounds.insert inboundID
      (f ((st.inbounds.lookup inboundID).getD { inboundID })) }

def setInboundStatus (status : UserLoadStatus) : State :=
  st.modifyInbound inboundID ({ · with userLoadStatus := some status })

variable (inboundID etag revision : String)

def updateInboundState (userCount : Nat) (status : UserLoadStatus) : State :=
  st.modifyInbound inboundID ({ · with
    userETag := etag
    userRevision := revision
    userCount
    userLoadStatus := some status })

def userETag (st : State) (inboundID : String) : String :=
  ((st.inbounds.lookup inboundID).getD {}).userETag

lemma lookup_foldl_insert {inbounds : List ManagedInbound}
    (h : (inbounds.map (·.inboundID)).Nodup) (f : ManagedInbound → InboundState)
    (table : AList fun _ : String => InboundState) (id : String) :
    (inbounds.foldl (fun t ib => t.insert ib.inboundID (f ib)) table).lookup id =
      ((inbounds.find? (·.inboundID == id)).map f).or (table.lookup id) := by
  induction inbounds generalizing table with
  | nil => rfl
  | cons ib inbounds ih =>
    rw [map_cons, nodup_cons] at h
    rw [foldl_cons, ih h.2]
    by_cases hid : ib.inboundID = id
    · have hnone : inbounds.find? (·.inboundID == id) = none := by
        rw [find?_eq_none]
        intro ib' hib' heq
        exact h.1 (hid ▸ beq_iff_eq.mp heq ▸ mem_map_of_mem hib')
      rw [hnone, find?_cons_of_pos (by simpa using hid), hid]
      simp
    · rw [find?_cons_of_neg (by simpa using hid), lookup_insert_ne (Ne.symm hid)]

lemma userETag_modifyInbound (id : String) : (st.modifyInbound inboundID f).userETag id =
      if id = inboundID then (f ((st.inbounds.lookup inboundID).getD { inboundID })).userETag
      else st.userETag id := by
  unfold modifyInbound userETag
  split
  · next h =>
    subst h
    rw [lookup_insert]
    rfl
  · next h => rw [lookup_insert_ne h]

@[simp] lemma userETag_setInboundStatus (loadStatus : UserLoadStatus) (id : String) :
    (st.setInboundStatus inboundID loadStatus).userETag id = st.userETag id := by
  rw [setInboundStatus, userETag_modifyInbound]
  split
  · next h =>
    subst h
    unfold userETag
    cases st.inbounds.lookup id <;> rfl
  · rfl

lemma userETag_updateInboundState (userCount : Nat) (loadStatus : UserLoadStatus) (id : String) :
    (st.updateInboundState inboundID etag revision userCount loadStatus).userETag id =
      if id = inboundID then etag else st.userETag id :=
  userETag_modifyInbound ..

/-- Inbounds are recorded without a tag of their users. -/
theorem userETag_recordConfiguration (id : String) :
    (st.recordConfiguration cfg etag status).userETag id =
      if id ∈ cfg.managedInbounds.map (·.inboundID) then "" else st.userETag id := by
  unfold recordConfiguration userETag
  generalize st.inbounds = table
  induction cfg.managedInbounds generalizing table with
  | nil => rfl
  | cons ib inbounds ih =>
    rw [foldl_cons, ih, map_cons]
    by_cases hid : id = ib.inboundID
    · subst hid
      rw [lookup_insert, if_pos mem_cons_self]
      exact ite_self _
    · rw [lookup_insert_ne hid]
      simp [hid]

end State

def AdapterUpdate.apply (st : State) : AdapterUpdate → State
  | .pending cfg etag => st.recordPending cfg etag
  | .applied cfg etag => st.recordApplied cfg etag
  | .applyFailed cfg => st.recordApplyFailed cfg
  | .status inboundID loadStatus => st.setInboundStatus inboundID loadStatus
  | .users inboundID etag revision userCount loadStatus =>
    st.updateInboundState inboundID etag revision userCount loadStatus

/-- What manager and poller do step by step. That a Box is built from a
configuration, and for which inbound users are replaced, is known here only. -/
inductive AdapterOp
  | lock
  | unlock
  | state
  | fetchConfiguration (etag : String)
  | setLastCfg (cfg : ConfigurationResponse)
  | closeInstance
  | create (options : String) (cfg : ConfigurationResponse)
  | setInstance (box : Box)
  | updateAndSave (update : AdapterUpdate)
  | fetchUsers (inboundID etag appliedConfigRev : String)
  | replaceInboundUsers (tag : String) (users : List ManagedUser) (inboundID : String)
  | markConfigRefetch

abbrev AdapterOp.Ans : AdapterOp → Type
  | .state => State
  | .fetchConfiguration _ => Except FetchError (ConfigurationResponse × String)
  | .create .. => Except String Box
  | .updateAndSave _ => Option String
  | .fetchUsers .. => Except FetchError (UserSnapshot × String)
  | .replaceInboundUsers .. => Option String
  | .lock | .unlock | .setLastCfg _ | .closeInstance | .setInstance _ | .markConfigRefetch => Unit

abbrev AdapterProg := Prog AdapterOp AdapterOp.Ans

/-- Users that a poll has installed and is yet to record. -/
structure Installation where
  inboundID : String
  tag : String
  users : List ManagedUser
  deriving DecidableEq

/-- The shared state. Known here only: which Boxes were closed, what the panel
delivered under which tag, which calls have installed users and are yet to record
them, and whether a new Box runs that is yet to be recorded. -/
structure Adapter where
  locked : Option Nat := none
  running : Option Box := none
  created : Nat := 0
  closed : List Nat := []
  lastCfg : Option ConfigurationResponse := none
  store : State := {}
  configRefetch : Bool := false
  delivered : List (String × String × UserSnapshot) := []
  installing : List (Nat × Installation) := []
  applying : Bool := false

/-- What is decided outside. -/
structure AdapterEnv where
  configuration : Except FetchError (ConfigurationResponse × String) := .error .notModified
  createError : Option String := none
  saveError : Option String := none
  users : Except FetchError (UserSnapshot × String) := .error .notModified
  replaceError : Option String := none

namespace Adapter

variable (s : Adapter) (thread : Nat)

/-- What ends with a save, whether it succeeds or not. -/
def saving : AdapterUpdate → Adapter
  | .applied .. => { s with applying := false }
  | .users .. => { s with installing := s.installing.filter (·.1 ≠ thread) }
  | .pending .. | .applyFailed .. | .status .. => s

/-- A save that is tried, and changes the state if it does not fail. -/
def save (u : AdapterUpdate) (saveError : Option String) : Adapter :=
  { s.saving thread u with store := if saveError.isNone then u.apply s.store else s.store }

def shut : Adapter :=
  { s with running := none, closed := (s.running.map (·.serial)).toList ++ s.closed }

def installed (box : Box) (thread : Nat) (m : Installation) : Adapter :=
  { s with
    running := some { box with users := Function.update box.users m.tag (some m.users) }
    installing := (thread, m) :: s.installing }

def exec : (op : AdapterOp) → AdapterEnv → Option (Adapter × op.Ans)
  | .lock, _ => if s.locked = none then some ({ s with locked := some thread }, ()) else none
  | .unlock, _ => some ({ s with locked := none }, ())
  | .state, _ => some (s, s.store)
  | .fetchConfiguration _, env => some (s, env.configuration)
  | .setLastCfg cfg, _ => some ({ s with lastCfg := some cfg }, ())
  | .closeInstance, _ => some (s.shut, ())
  | .create _ cfg, env =>
    match env.createError with
    | some err => some (s, .error err)
    | none => some ({ s with created := s.created + 1 }, .ok { serial := s.created, config := cfg })
  | .setInstance box, _ => some ({ s with running := some box, applying := true }, ())
  | .updateAndSave u, env => some (s.save thread u env.saveError, env.saveError)
  | .fetchUsers inboundID _ _, env =>
    match env.users with
    | .error err => some (s, .error err)
    | .ok (snapshot, etag) =>
      some ({ s with delivered := (inboundID, etag, snapshot) :: s.delivered },
        .ok (snapshot, etag))
  | .replaceInboundUsers tag users inboundID, env =>
    -- The manager's lock is taken for this one step.
    if s.locked = none then
      match s.running with
      | none => some (s, some "no running box instance")
      | some box =>
        match env.replaceError with
        | some err => some (s, some err)
        | none => some (s.installed box thread ⟨inboundID, tag, users⟩, none)
    else none
  | .markConfigRefetch, _ => some ({ s with configRefetch := true }, ())

section
variable (s : Adapter) (thread : Nat) (u : AdapterUpdate) (saveError : Option String)

@[simp] lemma save_running : (s.save thread u saveError).running = s.running := by
  cases u <;> rfl

@[simp] lemma save_locked : (s.save thread u saveError).locked = s.locked := by
  cases u <;> rfl

@[simp] lemma save_created : (s.save thread u saveError).created = s.created := by
  cases u <;> rfl

@[simp] lemma save_closed : (s.save thread u saveError).closed = s.closed := by
  cases u <;> rfl

end

end Adapter

end SingBox.Panel
