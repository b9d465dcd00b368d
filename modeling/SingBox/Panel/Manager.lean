import SingBox.Panel.Adapter

/-! The manager of the Box: it builds a Box from each configuration and records
what it applied. -/

namespace SingBox.Panel
open Lib Prog Option

/-- Functions of libraries, and the host name without blanks around it. -/
structure Libraries where
  parseURL : String → Except String URL
  stripManagedInboundUsers : ConfigurationResponse → Except String String
  injectClickHouseService : String → Option ClickHouseConfig → String → Except String String
  unmarshalOptions : String → Except String String
  hostname : String

namespace Manager

def perform (op : AdapterOp) : AdapterProg op.Ans := Prog.op op

variable (L : Libraries)

def accessLogNodeID (fallback : String) : String :=
  if L.hostname ≠ "" then L.hostname else if fallback ≠ "" then fallback else "sing-box"

variable (cfg : ConfigurationResponse)

/-- The options that a Box is created with, made from the template. -/
def prepare : Except String String := do
  let stripped ← cause "strip managed inbound users" (L.stripManagedInboundUsers cfg)
  let stripped ← cause "inject clickhouse service"
    (L.injectClickHouseService stripped cfg.clickHouse (accessLogNodeID L cfg.nodeID))
  cause "unmarshal sing-box config template" (L.unmarshalOptions stripped)

def applyConfigLocked (etag : String) : AdapterProg (Option String) :=
  match prepare L cfg with
  | .error err => return some err
  | .ok options => do
    let _ ← perform .closeInstance
    match ← perform (.create options cfg) with
    | .error err =>
      -- A failed save is only logged, here and after an application.
      let _ ← perform (.updateAndSave (.applyFailed cfg))
      return some ("create new box instance: " ++ err)
    | .ok box =>
      let _ ← perform (.setInstance box)
      let _ ← perform (.updateAndSave (.applied cfg etag))
      return none

def recordPendingRevision (etag : String) : AdapterProg (Option String) := do
  match ← perform (.updateAndSave (.pending cfg etag)) with
  | some err => return some ("save pending revision state: " ++ err)
  | none => return none

def withLock (p : AdapterProg (Option String)) : AdapterProg (Option String) := do
  let _ ← perform .lock
  let err ← p
  let _ ← perform .unlock
  return err

def bootstrapLocked : AdapterProg (Option String) := do
  match ← perform (.fetchConfiguration "") with
  | .error err => return some ("fetch initial configuration: " ++ err.message)
  | .ok (cfg, etag) =>
    match cfg.validate L.parseURL with
    | .error err => return some ("validate initial configuration: " ++ err)
    | .ok () =>
      let _ ← perform (.setLastCfg cfg)
      applyConfigLocked L cfg etag

def bootstrap : AdapterProg (Option String) := withLock (bootstrapLocked L)

/-- What a poll does with a configuration that passed the checks. -/
def applyStrategy (cfg : ConfigurationResponse) (newETag : String) : AdapterProg (Option String) :=
  let strategy := cfg.applyStrategy.onConfigurationChange
  if strategy = "recreate_instance" ∨ strategy = "restart_process" then
    applyConfigLocked L cfg newETag
  else if strategy = "manual" then recordPendingRevision cfg newETag
  else return some ("unknown apply strategy on_configuration_change: " ++ strategy)

def pollConfigurationLocked : AdapterProg (Option String) := do
  let curState ← perform .state
  match ← perform (.fetchConfiguration curState.config.etag) with
  | .error .notModified => return none
  | .error err => return some ("fetch configuration: " ++ err.message)
  | .ok (cfg, newETag) =>
    match cfg.validate L.parseURL with
    | .error err => return some ("validate polled configuration: " ++ err)
    | .ok () =>
      let _ ← perform (.setLastCfg cfg)
      applyStrategy L cfg newETag

def pollConfiguration : AdapterProg (Option String) := withLock (pollConfigurationLocked L)

end Manager

inductive ManagerCall
  | bootstrap
  | pollConfiguration
  deriving DecidableEq

namespace Manager

variable (L : Libraries)

def program : ManagerCall → AdapterProg (Option String)
  | .bootstrap => bootstrap L
  | .pollConfiguration => pollConfiguration L

/-- A whole call with nothing else going on, under given outcomes, and the error
that it returns. -/
def run (s : Adapter) (call : ManagerCall) (env : AdapterEnv) : Option (Adapter × Option String) :=
  (program L call).runWith (fun op s => s.exec 0 op env) s

def step : Machine Adapter (ManagerCall × AdapterEnv) := fun s a => (run L s a.1 a.2).map (·.1)

variable {L : Libraries} {s t : Adapter} {call : ManagerCall} {env : AdapterEnv}
  {err : Option String} {cfg : ConfigurationResponse} {etag : String}

/-- The call gets a configuration that passes the checks. -/
def Fetches (L : Libraries) (env : AdapterEnv) (cfg : ConfigurationResponse) (etag : String) : Prop :=
  env.configuration = .ok (cfg, etag) ∧ cfg.validate L.parseURL = .ok ()

/-- The call gets as far as the creation of a Box. -/
def Creates (L : Libraries) (call : ManagerCall) (env : AdapterEnv) (cfg : ConfigurationResponse)
    (etag options : String) : Prop :=
  Fetches L env cfg etag ∧ prepare L cfg = .ok options ∧
    (call = .pollConfiguration → cfg.applyStrategy.onConfigurationChange ∈
      ["recreate_instance", "restart_process"])

/-- A configuration is fetched that is only to be recorded. -/
def Defers (L : Libraries) (call : ManagerCall) (env : AdapterEnv) (cfg : ConfigurationResponse)
    (etag : String) : Prop :=
  Fetches L env cfg etag ∧ call = .pollConfiguration ∧
    cfg.applyStrategy.onConfigurationChange = "manual"

/-- What a call does, by how far it gets. -/
inductive Outcome (L : Libraries) (s : Adapter) (call : ManagerCall) (env : AdapterEnv) :
    Adapter → Option String → Prop
  | untouched (lastCfg : Option ConfigurationResponse) (err : Option String)
      (hcreates : ∀ cfg etag options, ¬Creates L call env cfg etag options)
      (hdefers : ∀ cfg etag, ¬Defers L call env cfg etag) :
      Outcome L s call env { s with lastCfg, locked := none } err
  | pending (cfg : ConfigurationResponse) (etag : String) (hdefers : Defers L call env cfg etag) :
      Outcome L s call env
        (Adapter.save { s with lastCfg := some cfg, locked := none } 0 (.pending cfg etag)
          env.saveError)
        (env.saveError.map ("save pending revision state: " ++ ·))
  | failed (cfg : ConfigurationResponse) (etag options err : String)
      (hcreates : Creates L call env cfg etag options) (herr : env.createError = some err) :
      Outcome L s call env
        (Adapter.save { s.shut with lastCfg := some cfg, locked := none } 0 (.applyFailed cfg)
          env.saveError)
        (some ("create new box instance: " ++ err))
  | applied (cfg : ConfigurationResponse) (etag options : String)
      (hcreates : Creates L call env cfg etag options) (herr : env.createError = none) :
      Outcome L s call env
        (Adapter.save { s.shut with
          created := s.created + 1
          running := some { serial := s.created, config := cfg }
          applying := true
          lastCfg := some cfg
          locked := none } 0 (.applied cfg etag) env.saveError)
        none

lemma runWith_withLock (hs : s.locked = none) (p : AdapterProg (Option String)) :
    (withLock p).runWith (fun op s => s.exec 0 op env) s =
      (p.runWith (fun op s => s.exec 0 op env) { s with locked := some 0 }).map
        fun (t, err) => ({ t with locked := none }, err) := by
  have hlock : s.exec 0 .lock env = some ({ s with locked := some 0 }, ()) := if_pos hs
  simp only [withLock, perform, bind_eq, op_bind, runWith_call, hlock, bind_some, runWith_bind]
  cases p.runWith (fun op s => s.exec 0 op env) { s with locked := some 0 } <;> rfl

lemma runWith_applyConfigLocked :
    (applyConfigLocked L cfg etag).runWith (fun op s => s.exec 0 op env) s =
      match prepare L cfg with
      | .error err => some (s, some err)
      | .ok _ =>
        match env.createError with
        | some err => some (s.shut.save 0 (.applyFailed cfg) env.saveError,
            some ("create new box instance: " ++ err))
        | none => some (Adapter.save { s.shut with
            created := s.created + 1
            running := some { serial := s.created, config := cfg }
            applying := true } 0 (.applied cfg etag) env.saveError, none) := by
  unfold applyConfigLocked
  split
  · rfl
  · simp only [perform, bind_eq, op_bind, runWith_call, Adapter.exec]
    cases env.createError <;> rfl

lemma Fetches.unique {cfg' : ConfigurationResponse} {etag' : String} (h : Fetches L env cfg etag)
    (h' : Fetches L env cfg' etag') : cfg' = cfg := by
  have heq := h'.1.symm.trans h.1
  cases heq
  rfl

section
variable (hcall : call = .pollConfiguration →
    cfg.applyStrategy.onConfigurationChange ∈ ["recreate_instance", "restart_process"])
include hcall

lemma not_defers_of_strategy (hfetch : Fetches L env cfg etag)
    (cfg' : ConfigurationResponse) (etag' : String) : ¬Defers L call env cfg' etag' := by
  rintro ⟨hfetch', hpoll, hmanual⟩
  cases hfetch.unique hfetch'
  have hmem := hcall hpoll
  rw [hmanual] at hmem
  simp at hmem

/-- A call that applies what it fetched. -/
theorem outcome_apply (hfetch : Fetches L env cfg etag)
    (h : (applyConfigLocked L cfg etag).runWith (fun op s => s.exec 0 op env)
      { s with locked := some 0, lastCfg := some cfg } = some (t, err)) :
    Outcome L s call env { t with locked := none } err := by
  rw [runWith_applyConfigLocked] at h
  split at h
  · next err' hprep =>
    cases h
    refine .untouched (some cfg) _ ?_ (not_defers_of_strategy hcall hfetch)
    rintro cfg' etag' options ⟨hfetch', hprep', -⟩
    cases hfetch.unique hfetch'
    cases hprep.symm.trans hprep'
  · next options hprep =>
    split at h
    · next err' herr =>
      cases h
      exact .failed cfg etag options err' ⟨hfetch, hprep, hcall⟩ herr
    · next herr =>
      cases h
      exact .applied cfg etag options ⟨hfetch, hprep, hcall⟩ herr

end

lemma outcome_unfetched (h : ∀ cfg etag, ¬Fetches L env cfg etag) :
    Outcome L s call env { s with locked := none } err :=
  .untouched s.lastCfg err (fun cfg etag _ hcreates => h cfg etag hcreates.1)
    fun cfg etag hdefers => h cfg etag hdefers.1

lemma not_fetches_of_error {err : FetchError} (h : env.configuration = .error err)
    (cfg : ConfigurationResponse) (etag : String) : ¬Fetches L env cfg etag := by
  rintro ⟨hok, -⟩
  cases h.symm.trans hok

lemma not_fetches_of_invalid {err : String} (h : env.configuration = .ok (cfg, etag))
    (hinvalid : cfg.validate L.parseURL = .error err) (cfg' : ConfigurationResponse)
    (etag' : String) : ¬Fetches L env cfg' etag' := by
  rintro ⟨hok, hval⟩
  cases h.symm.trans hok
  cases hinvalid.symm.trans hval

lemma outcome_strategy (hfetch : Fetches L env cfg etag)
    (h : (applyStrategy L cfg etag).runWith (fun op s => s.exec 0 op env)
      { s with locked := some 0, lastCfg := some cfg } = some (t, err)) :
    Outcome L s .pollConfiguration env { t with locked := none } err := by
  unfold applyStrategy at h
  dsimp only at h
  split at h
  · next hstrat => exact outcome_apply (fun _ => by simpa using hstrat) hfetch h
  · next hother =>
    split at h
    · next hmanual =>
      have hout := Outcome.pending (s := s) cfg etag ⟨hfetch, rfl, hmanual⟩
      simp only [recordPendingRevision, perform, bind_eq, op_bind, runWith_call,
        Adapter.exec, bind_some] at h
      cases hsave : env.saveError with
      | none | some err' =>
        rw [hsave] at h hout
        cases h
        exact hout
    · next hmanual =>
      cases h
      refine .untouched (some cfg) _ ?_ ?_
      · rintro cfg' etag' options ⟨hfetch', -, hstrat⟩
        cases hfetch.unique hfetch'
        exact hother (by simpa using hstrat rfl)
      · rintro cfg' etag' ⟨hfetch', -, hmanual'⟩
        cases hfetch.unique hfetch'
        exact hmanual hmanual'

lemma run_outcome (hs : s.locked = none) (h : run L s call env = some (t, err)) :
    Outcome L s call env t err := by
  have hlocked : ∀ {p : AdapterProg (Option String)},
      (withLock p).runWith (fun op s => s.exec 0 op env) s = some (t, err) →
      ∃ t', p.runWith (fun op s => s.exec 0 op env) { s with locked := some 0 } = some (t', err) ∧
        { t' with locked := none } = t := by
    intro p hp
    rw [runWith_withLock hs] at hp
    obtain ⟨⟨t', err'⟩, hp, heq⟩ := map_eq_some_iff.mp hp
    cases heq
    exact ⟨t', hp, rfl⟩
  cases call with
  | bootstrap =>
    obtain ⟨t', hp, rfl⟩ := hlocked h
    simp only [bootstrapLocked, perform, bind_eq, op_bind, runWith_call,
      Adapter.exec, bind_some] at hp
    split at hp
    · next hconf =>
      cases hp
      exact outcome_unfetched (not_fetches_of_error hconf)
    · next cfg etag hconf =>
      split at hp
      · next hval =>
        cases hp
        exact outcome_unfetched (not_fetches_of_invalid hconf hval)
      · next hval => exact outcome_apply nofun ⟨hconf, hval⟩ hp
  | pollConfiguration =>
    obtain ⟨t', hp, rfl⟩ := hlocked h
    simp only [pollConfigurationLocked, perform, bind_eq, op_bind, runWith_call,
      Adapter.exec, bind_some] at hp
    split at hp
    · next hconf =>
      cases hp
      exact outcome_unfetched (not_fetches_of_error hconf)
    · next hconf =>
      cases hp
      exact outcome_unfetched (not_fetches_of_error hconf)
    · next cfg etag hconf =>
      split at hp
      · next hval =>
        cases hp
        exact outcome_unfetched (not_fetches_of_invalid hconf hval)
      · next hval => exact outcome_strategy ⟨hconf, hval⟩ hp

end Manager

end SingBox.Panel
