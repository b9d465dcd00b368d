import SingBox.Lib.Prog
import SingBox.Panel.Contract

/-! Updates of the adapter's own executable: an artifact is staged, the executable
is kept as a backup and replaced, and a process that does not come up puts the
backup back. -/

namespace SingBox.Panel
open Lib

/-- Where the executable is, for which platform, and the functions that it is
handled with. The version is the one compiled into an executable. -/
structure Updater extends ArtifactLibraries where
  executable : String
  goos : String
  goarch : String
  parseURL : String → Except String URL
  version : Bytes → String

/-- The changes of the state, each in one save. -/
inductive UpdateChange
  | pending (version backupPath : String)
  | clear
  | restored (blacklist : String)
  deriving DecidableEq

def UpdateState.isBlacklisted (u : UpdateState) (version : String) : Bool :=
  u.blacklistedVersions.contains version

def UpdateChange.apply (u : UpdateState) : UpdateChange → UpdateState
  | .pending version backupPath => { u with pendingVersion := version, backupPath }
  | .clear => { u with pendingVersion := "", backupPath := "" }
  | .restored blacklist =>
    { u with
      pendingVersion := ""
      backupPath := ""
      blacklistedVersions :=
        if blacklist ≠ "" ∧ !u.isBlacklisted blacklist then u.blacklistedVersions ++ [blacklist]
        else u.blacklistedVersions }

/-- What is done step by step. Files are written and copied by way of temporary
files, and so in one step. Known here only: the release that is downloaded, and
the version that `Apply` starts. -/
inductive UpdaterOp
  | currentVersion
  | state
  | lockApply
  | download (rel : BinaryUpdate) (url : String)
  | writeFileAtomic (path : String) (data : Bytes)
  | copyFile (src dst : String)
  | rename (src dst : String)
  | remove (path : String)
  | stat (path : String)
  | chmod (path : String)
  | updateAndSave (change : UpdateChange)
  | prepare
  | exec (version : Option String)
  | bootstrap
  | ready
  | exit

abbrev UpdaterOp.Ans : UpdaterOp → Type
  | .currentVersion => String
  | .state => UpdateState
  | .download .. => Except String Bytes
  | .writeFileAtomic .. | .copyFile .. | .rename .. | .stat _ | .chmod _ | .updateAndSave _ |
    .prepare | .exec _ | .bootstrap => Option String
  | .lockApply | .remove _ | .ready | .exit => Unit

abbrev UpdaterProg := Prog UpdaterOp UpdaterOp.Ans

namespace Updater

def perform (op : UpdaterOp) : UpdaterProg op.Ans := Prog.op op

/-- `ReconcileStartup`: whether this process is a trial start. -/
def reconcileStartup : UpdaterProg (Bool × Option String) := do
  let pending := (← perform .state).pendingVersion
  if pending = "" then return (false, none)
  if pending = (← perform .currentVersion) then return (true, none)
  return (false, ← perform (.updateAndSave .clear))

def commitSuccess : UpdaterProg (Option String) := do
  let backup := (← perform .state).backupPath
  match ← perform (.updateAndSave .clear) with
  | some err => return some err
  | none =>
    if backup ≠ "" then
      let _ ← perform (.remove backup)
    return none

def download (rel : BinaryUpdate) (url : String) : UpdaterProg (Except String Bytes) := do
  match ← perform (.download rel url) with
  | .error err => return .error err
  | .ok data =>
    if maxBinaryBytes < data.length then
      return .error ("binary exceeds " ++ toString maxBinaryBytes ++ " bytes")
    if data.length = 0 then return .error "empty binary download"
    return .ok data

variable (U : Updater)

def staging : String := U.executable ++ ".new"

def backup : String := U.executable ++ ".bak"

/-- The backup is moved, or else copied, to its place. -/
def putBack (backup : String) : UpdaterProg (List String) := do
  match ← perform (.rename backup U.executable) with
  | none => return []
  | some err =>
    match ← perform (.copyFile backup U.executable) with
    | none => return []
    | some copyErr => return ["restore backup: " ++ err, copyErr]

def restoreBackupLocked (blacklist : String) : UpdaterProg (List String) := do
  let st ← perform .state
  let backup := if st.backupPath = "" then U.backup else st.backupPath
  match ← perform (.stat backup) with
  | some err => return ["missing backup binary: " ++ err]
  | none =>
    match ← U.putBack backup with
    | [] =>
      let _ ← perform (.chmod U.executable)
      return (← perform (.updateAndSave (.restored blacklist))).toList
    | errs => return errs

def execRestoredLocked : UpdaterProg (List String) := do
  match ← perform (.exec none) with
  | some err => return ["exec rolled-back binary: " ++ err]
  | none => return []

def rollbackAndBlacklist : UpdaterProg (List String) := do
  let st ← perform .state
  let currentVersion ← perform .currentVersion
  match ← U.restoreBackupLocked
      (if st.pendingVersion = "" then currentVersion else st.pendingVersion) with
  | [] => execRestoredLocked
  | errs => return errs

variable (rel : BinaryUpdate)

/-- The end of `Apply`, with everything prepared. -/
def replaceAndExec : UpdaterProg (List String) := do
  match ← perform (.rename U.staging U.executable) with
  | some err =>
    let _ ← U.restoreBackupLocked ""
    return ["replace executable: " ++ err]
  | none =>
    match ← perform (.exec (some rel.version)) with
    | some err =>
      let restoreErrs ← U.restoreBackupLocked rel.version
      return ("exec new binary: " ++ err) :: restoreErrs
    | none => return []

/-- `Apply` from the backup on. -/
def installStaged : UpdaterProg (List String) := do
  match ← perform (.copyFile U.executable U.backup) with
  | some err => return ["backup current binary: " ++ err]
  | none =>
    match ← perform (.updateAndSave (.pending rel.version U.backup)) with
    | some err => return ["record pending binary update: " ++ err]
    | none =>
      match ← perform .prepare with
      | some err =>
        let _ ← perform (.updateAndSave .clear)
        return ["prepare for binary exec: " ++ err]
      | none => U.replaceAndExec rel

/-- `Apply` with the executable of the release; what is staged is removed at the end. -/
def install (unpacked : Bytes) : UpdaterProg (List String) := do
  match ← perform (.writeFileAtomic U.staging unpacked) with
  | some err => return ["write staged binary: " ++ err]
  | none =>
    let errs ← U.installStaged rel
    let _ ← perform (.remove U.staging)
    return errs

/-- The executable in a payload that has the digest of the release. -/
def verifyAndUnpack (payload : Bytes) (sha256 : String) : Except String Bytes := do
  U.verifySHA256 payload sha256
  U.unpackExecutable payload (U.pathBase U.executable)

def apply : UpdaterProg (List String) := do
  match rel.validate U.parseURL with
  | .error err => return [err]
  | .ok () =>
    if rel.version = (← perform .currentVersion) then return []
    let _ ← perform .lockApply
    if (← perform .state).isBlacklisted rel.version then return []
    match resolveDownload rel U.goos U.goarch with
    | .error err => return [err]
    | .ok dl =>
      match ← download rel dl.url with
      | .error err => return [err]
      | .ok payload =>
        match U.verifyAndUnpack payload dl.sha256 with
        | .error err => return [err]
        | .ok unpacked => U.install rel unpacked

/-- What `runAdapter` does first. A trial whose Bootstrap fails is rolled back; other
errors are only logged. -/
def startup : UpdaterProg Unit := do
  let (trialStart, _) ← reconcileStartup
  match ← perform .bootstrap with
  | some _ =>
    if trialStart then
      let _ ← U.rollbackAndBlacklist
    perform .exit
  | none =>
    if trialStart then
      let _ ← commitSuccess
    perform .ready

end Updater

/-- A process of the adapter, and whether it has come up. -/
structure Process where
  currentVersion : String
  isReady : Bool := false
  deriving DecidableEq

/-- Files, the state on disk, and the process if there is one. Known here only: what
was downloaded for which release, what the executable held when `Apply` last began,
which versions `Apply` started with what on the blacklist, and what the executable
held after each attempt to put a backup back. -/
structure Host where
  files : String → Option Bytes
  update : UpdateState := {}
  process : Option Process := none
  downloaded : List (BinaryUpdate × Bytes) := []
  before : Option Bytes := none
  execed : List (String × List String) := []
  restored : List (Option Bytes × Option Bytes) := []

/-- What is decided outside. A copy may be in place and still end with an error. -/
structure UpdaterEnv where
  error : Option String := none
  isCopied : Bool := false
  payload : Except String Bytes := .error "no response"

namespace Host

variable (s : Host) (U : Updater)

def put (path : String) (data : Option Bytes) : Host :=
  { s with files := Function.update s.files path data }

def noteRestored : Host := { s with restored := (s.before, s.files U.executable) :: s.restored }

/-- A change of the state; the last one of a restoration is noted. -/
def save (change : UpdateChange) (error : Option String) : Host :=
  let s :=
    match change with
    | .restored _ => s.noteRestored U
    | .pending .. | .clear => s
  if error.isNone then { s with update := change.apply s.update } else s

def act (p : Process) : (op : UpdaterOp) → UpdaterEnv → Host × op.Ans
  | .currentVersion, _ => (s, p.currentVersion)
  | .state, _ => (s, s.update)
  | .lockApply, _ => ({ s with before := s.files U.executable }, ())
  | .download rel _, env =>
    match env.payload with
    | .error err => (s, .error err)
    | .ok data => ({ s with downloaded := (rel, data) :: s.downloaded }, .ok data)
  | .writeFileAtomic path data, env =>
    (if env.error.isNone then s.put path (some data) else s, env.error)
  | .copyFile src dst, env =>
    match s.files src with
    | none => (s, some "no such file")
    | some data =>
      (if env.error.isNone || env.isCopied then s.put dst (some data) else s, env.error)
  | .rename src dst, env =>
    match s.files src with
    | none => (s, some "no such file")
    | some data => (if env.error.isNone then (s.put dst (some data)).put src none else s, env.error)
  | .remove path, env => (if env.error.isNone then s.put path none else s, ())
  | .stat path, env =>
    match env.error with
    | some err => (s, some err)
    | none => if (s.files path).isSome then (s, none) else (s.noteRestored U, some "no such file")
  | .chmod _, env => (s, env.error)
  | .updateAndSave change, env => (s.save U change env.error, env.error)
  | .prepare, env => (s, env.error)
  | .exec version, env =>
    ({ s with
      execed := (version.map fun v => (v, s.update.blacklistedVersions)).toList ++ s.execed
      process := if env.error.isNone then none else some p }, env.error)
  | .bootstrap, env => (s, env.error)
  | .ready, _ => ({ s with process := some { p with isReady := true } }, ())
  | .exit, _ => ({ s with process := none }, ())

/-- Without a process nothing is done. -/
def exec (op : UpdaterOp) (env : UpdaterEnv) : Option (Host × op.Ans) :=
  s.process.map fun p => s.act U p op env

/-- A new process runs what the executable holds. -/
def boot : Option Host :=
  if s.process.isNone then
    (s.files U.executable).map fun b => { s with process := some { currentVersion := U.version b } }
  else none

end Host

inductive UpdaterCall
  | startup
  | apply (rel : BinaryUpdate)

inductive HostEvent
  | crash
  | boot

/-- The processes on a host, one after the other, and the calls that they make. -/
def Updater.system (U : Updater) :
    System Host UpdaterOp UpdaterOp.Ans UpdaterCall UpdaterEnv HostEvent where
  body
    | .startup => U.startup
    | .apply rel => do
      let _ ← U.apply rel
      return ()
  exec := fun _ op env s => s.exec U op env
  leave := fun _ s => s
  event
    | .crash, s => some { s with process := none }
    | .boot, s => s.boot U
  stops := fun _ => true

end SingBox.Panel
