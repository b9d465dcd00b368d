import SingBox.Panel.Procedures

/-! The trial of an installed release, procedure by procedure: what becomes of a
release that `Apply` has started. -/

namespace SingBox.Panel
open Lib Host Prog Machine Option
open Prod (fst)

/-- What a host does next, with the outcome of each operation. -/
inductive HostAction
  | start (env : UpdaterOp → UpdaterEnv)
  | apply (rel : BinaryUpdate) (env : UpdaterOp → UpdaterEnv)
  | stop

/-- Operations after which the process is still there as it was. -/
def UpdaterOp.stays : UpdaterOp → Bool
  | .exec _ | .ready | .exit => false
  | _ => true

lemma UpdaterOp.process_act {U : Updater} {s : Host} {p : Process} {env : UpdaterEnv}
    (op : UpdaterOp) (hop : op.stays) (hp : s.process = some p) :
    (s.act U p op env).1.process = some p := by
  cases op with
  | exec | ready | exit => cases hop
  | currentVersion | state | lockApply | chmod | prepare | bootstrap => exact hp
  | download | writeFileAtomic | remove =>
    simp only [act]
    split <;> exact hp
  | copyFile | rename | stat =>
    simp only [act]
    split
    · exact hp
    · split <;> exact hp
  | updateAndSave change =>
    simp only [act, save]
    cases change <;> (split <;> exact hp)

namespace Updater

variable {α : Type}

/-- A procedure until it returns or the process is gone. -/
def runs (U : Updater) (env : UpdaterOp → UpdaterEnv) (p : UpdaterProg α) (s : Host) :
    Host × Option α :=
  p.runOut (fun op s => s.exec U op (env op)) s

def step (U : Updater) : Machine Host HostAction
  | s, .start env => (s.boot U).map fun s => (U.runs env U.startup s).1
  | s, .apply rel env =>
    if s.process.any (·.isReady) then some (U.runs env (U.apply rel) s).1 else none
  | s, .stop => some { s with process := none }

/-- No save of the state fails, and no copy fails after it has replaced the
executable. -/
structure Saves (U : Updater) (env : UpdaterOp → UpdaterEnv) : Prop where
  save : ∀ change, (env (.updateAndSave change)).error = none
  copy : ∀ src, (env (.copyFile src U.executable)).error ≠ none →
    (env (.copyFile src U.executable)).isCopied = false

/-- The file operations of a restoration do not fail. -/
structure Restores (U : Updater) (env : UpdaterOp → UpdaterEnv) : Prop where
  stat : ∀ path, (env (.stat path)).error = none
  copy : ∀ src, (env (.copyFile src U.executable)).error = none

variable {U : Updater} {env : UpdaterOp → UpdaterEnv} {s t : Host} {p : Process} {b : Bytes}
  {op : UpdaterOp}

lemma runs_call (hp : s.process = some p) (next : op.Ans → UpdaterProg α) :
    U.runs env (.call op next) s =
      U.runs env (next (s.act U p op (env op)).2) (s.act U p op (env op)).1 := by
  rw [runs, runOut, exec, hp]
  rfl

lemma runs_call_of_dead (hp : s.process = none)
    (next : op.Ans → UpdaterProg α) : U.runs env (.call op next) s = (s, none) := by
  rw [runs, runOut, exec, hp]
  rfl

variable {q : UpdaterProg α} {β : Type}

lemma runs_bind {a : α} (h : U.runs env q s = (t, some a))
    (f : α → UpdaterProg β) : U.runs env (q.bind f) s = U.runs env (f a) t := by
  simp only [runs] at h ⊢
  rw [runOut_bind, h]

section
variable (hp : s.process = some p)
include hp

lemma runs_state (next : UpdateState → UpdaterProg α) :
    U.runs env (.call .state next) s = U.runs env (next s.update) s := by
  rw [runs_call hp]
  rfl

lemma runs_currentVersion (next : String → UpdaterProg α) :
    U.runs env (.call .currentVersion next) s = U.runs env (next p.currentVersion) s := by
  rw [runs_call hp]
  rfl

/-- A start is a trial just when the version of the process is pending. -/
theorem runs_reconcileStartup : U.runs env reconcileStartup s =
      if s.update.pendingVersion = "" then (s, some (false, none))
      else if s.update.pendingVersion = p.currentVersion then (s, some (true, none))
      else
        let error := (env (.updateAndSave .clear)).error
        (s.save U .clear error, some (false, error)) := by
  refine (runs_state hp _).trans ?_
  dsimp only [ret_bind]
  split
  · rfl
  refine (runs_currentVersion hp _).trans ?_
  dsimp only [ret_bind]
  split
  · rfl
  · exact runs_call hp _

end

/-- A start, by whether it is a trial and whether Bootstrap fails. -/
theorem runs_startup {trialStart : Bool} {err : Option String}
    (h : U.runs env reconcileStartup s = (t, some (trialStart, err))) (hp : t.process = some p) :
    U.runs env U.startup s =
      match (env .bootstrap).error, trialStart with
      | some _, true => U.runs env (U.rollbackAndBlacklist.bind fun _ => perform .exit) t
      | some _, false => U.runs env (perform .exit) t
      | none, true => U.runs env (commitSuccess.bind fun _ => perform .ready) t
      | none, false => U.runs env (perform .ready) t := by
  rw [startup, bind_eq, runs_bind h]
  have hbootstrap : ∀ next : Option String → UpdaterProg Unit,
      U.runs env ((perform .bootstrap).bind next) t =
        U.runs env (next (env .bootstrap).error) t := by
    intro next
    refine (runs_call hp _).trans ?_
    rfl
  dsimp only [bind_eq]
  rw [hbootstrap]
  cases (env .bootstrap).error <;> cases trialStart <;> rfl

/-- A process without an update pending comes up or ends, and changes nothing. -/
theorem runs_startup_of_settled (hp : s.process = some p) (h : s.update.pendingVersion = "") :
    (U.runs env U.startup s).1 = { s with
      process := if (env .bootstrap).error.isNone then some { p with isReady := true }
          else none } := by
  have hreconcile : U.runs env reconcileStartup s = (s, some (false, none)) := by
    rw [runs_reconcileStartup hp, if_pos h]
  rw [runs_startup hreconcile hp]
  cases (env .bootstrap).error with
  | some err | none => exact congrArg fst (runs_call hp _)

/-- What a restoration that finds `b` in the backup leaves: `b` in place of the
executable, or everything as it was. -/
structure PutBack (U : Updater) (env : UpdaterOp → UpdaterEnv) (s t : Host) (b : Bytes)
    (errs : List String) : Prop where
  process : t.process = s.process
  update : t.update = s.update
  execed : t.execed = s.execed
  downloaded : t.downloaded = s.downloaded
  files : errs = [] ∧ t.files U.executable = some b ∨ errs ≠ [] ∧ t = s ∧ ¬ Restores U env

/-- Goes on only without errors. -/
def unlessErrs (next : UpdaterProg (List String)) : List String → UpdaterProg (List String)
  | [] => next
  | errs => pure errs

lemma runs_putBack (henv : Saves U env) (hp : s.process = some p) (hb : s.files U.backup = some b) :
    ∃ t errs, U.runs env (U.putBack U.backup) s = (t, some errs) ∧ PutBack U env s t b errs := by
  cases hrename : (env (.rename U.backup U.executable)).error with
  | none =>
    refine ⟨(s.put U.executable (some b)).put U.backup none, [], (runs_call hp _).trans ?_,
      rfl, rfl, rfl, rfl, .inl ⟨rfl, ?_⟩⟩
    · simp only [act, hb, hrename]
      rfl
    · rw [files_put_of_ne U.backup_ne_executable.symm, files_put_self]
  | some err =>
    cases hcopy : (env (.copyFile U.backup U.executable)).error with
    | none =>
      refine ⟨s.put U.executable (some b), [], (runs_call hp _).trans ?_, rfl, rfl, rfl, rfl,
        .inl ⟨rfl, files_put_self ..⟩⟩
      simp only [act, hb, hrename]
      refine (runs_call hp _).trans ?_
      simp only [act, hb, hcopy]
      rfl
    | some copyErr =>
      refine ⟨s, ["restore backup: " ++ err, copyErr], (runs_call hp _).trans ?_, rfl, rfl, rfl,
        rfl, .inr ⟨List.cons_ne_nil _ _, rfl, fun h => some_ne_none _ (hcopy.symm.trans (h.copy _))⟩⟩
      simp only [act, hb, hrename]
      refine (runs_call hp _).trans ?_
      have hwhole := henv.copy U.backup (hcopy ▸ some_ne_none _)
      simp only [act, hb, hcopy, hwhole]
      rfl

/-- What a failed trial leaves: the backup in place of the executable and the
version on the blacklist, or everything as it was. -/
structure RolledBack (U : Updater) (env : UpdaterOp → UpdaterEnv) (s t : Host) (b : Bytes)
    (blacklist : String) (errs : List String) : Prop where
  process : t.process = s.process
  execed : t.execed = s.execed
  downloaded : t.downloaded = s.downloaded
  files : (errs = [] ∧ t.files U.executable = some b ∧
      t.update = (UpdateChange.restored blacklist).apply s.update) ∨
    errs ≠ [] ∧ t = s ∧ ¬ Restores U env

lemma runs_restoreBackupLocked (blacklist : String) (henv : Saves U env) (hp : s.process = some p)
    (hpath : s.update.backupPath = U.backup) (hb : s.files U.backup = some b) :
    ∃ t errs, U.runs env (U.restoreBackupLocked blacklist) s = (t, some errs) ∧
      RolledBack U env s t b blacklist errs := by
  have hbackup : (if s.update.backupPath = "" then U.backup else s.update.backupPath) =
      U.backup := by
    split
    · rfl
    · exact hpath
  cases hstat : (env (.stat U.backup)).error with
  | some err =>
    refine ⟨s, ["missing backup binary: " ++ err], (runs_state hp _).trans ?_, rfl, rfl, rfl,
      .inr ⟨nofun, rfl, fun h => nomatch (h.stat _).symm.trans hstat⟩⟩
    dsimp only [ret_bind]
    rw [hbackup]
    refine (runs_call hp _).trans ?_
    simp only [act, hstat]
    rfl
  | none =>
    obtain ⟨t, errs, hput, hprocess, hupd, hexeced, hdown, hfiles⟩ := runs_putBack henv hp hb
    have hrestore : U.runs env (U.restoreBackupLocked blacklist) s = U.runs env
        (unlessErrs ((perform (.chmod U.executable)).bind fun _ =>
          (perform (.updateAndSave (.restored blacklist))).bind fun err => pure err.toList) errs)
              t := by
      refine (runs_state hp _).trans ?_
      dsimp only [ret_bind]
      rw [hbackup]
      refine (runs_call hp _).trans ?_
      simp only [act, hstat, hb, isSome_some, if_true, ret_bind, bind_eq]
      exact runs_bind hput _
    obtain ⟨rfl, hfiles⟩ | ⟨hne, rfl, hfails⟩ := hfiles
    · have ht : t.process = some p := hprocess.trans hp
      refine ⟨t.save U (.restored blacklist) none, [], hrestore.trans ?_, hprocess, hexeced,
        hdown, .inl ⟨rfl, hfiles, ?_⟩⟩
      · refine (runs_call ht _).trans ?_
        refine (runs_call ht _).trans ?_
        simp only [act, henv.save]
        rfl
      · change (UpdateChange.restored blacklist).apply t.update = _
        rw [hupd]
    · refine ⟨t, errs, hrestore.trans ?_, rfl, rfl, rfl, .inr ⟨hne, rfl, hfails⟩⟩
      cases errs with
      | nil => exact absurd rfl hne
      | cons => rfl

/-- A failed trial of a pending version. -/
theorem runs_rollback (henv : Saves U env) (hp : s.process = some p)
    (hpending : s.update.pendingVersion ≠ "") (hpath : s.update.backupPath = U.backup)
    (hb : s.files U.backup = some b) :
    ∃ t errs, (U.runs env (U.rollbackAndBlacklist.bind fun _ => perform .exit) s).1 =
        { t with process := none } ∧
      RolledBack U env s t b s.update.pendingVersion errs := by
  obtain ⟨t, errs, hrestore, h⟩ := runs_restoreBackupLocked s.update.pendingVersion henv hp hpath hb
  have ht : t.process = some p := h.process.trans hp
  refine ⟨t, errs, ?_, h⟩
  have hroll : U.runs env U.rollbackAndBlacklist s =
      U.runs env (unlessErrs execRestoredLocked errs) t := by
    refine (runs_state hp _).trans ((runs_currentVersion hp _).trans ?_)
    dsimp only [ret_bind]
    rw [if_neg hpending, bind_eq]
    exact runs_bind hrestore _
  cases errs with
  | cons err errs =>
    rw [runs_bind hroll]
    exact congrArg fst (runs_call ht _)
  | nil =>
    have hexec := hroll.trans (runs_call ht _)
    simp only [act] at hexec
    cases herror : (env (.exec none)).error with
    | none =>
      -- The old executable takes over.
      rw [herror] at hexec
      rw [runs_bind hexec]
      exact congrArg fst (runs_call_of_dead rfl _)
    | some err =>
      rw [herror] at hexec
      rw [runs_bind hexec]
      exact congrArg fst (runs_call rfl _)

/-- A trial that comes up has nothing pending any more. -/
theorem runs_commit (henv : Saves U env) (hp : s.process = some p)
    (hpath : s.update.backupPath = U.backup) :
    ∃ t, (U.runs env (commitSuccess.bind fun _ => perform .ready) s).1 = t ∧
      t.process = some { p with isReady := true } ∧
      t.files U.executable = s.files U.executable ∧
      t.update = UpdateChange.clear.apply s.update ∧
      t.execed = s.execed ∧ t.downloaded = s.downloaded := by
  obtain ⟨t, hcommit, ht, hfiles, hrest⟩ : ∃ t, U.runs env commitSuccess s = (t, some none) ∧
      t.process = some p ∧ t.files U.executable = s.files U.executable ∧
      t.update = UpdateChange.clear.apply s.update ∧
      t.execed = s.execed ∧ t.downloaded = s.downloaded := by
    have hsave : (s.save U .clear none).process = some p := hp
    refine ⟨if (env (.remove U.backup)).error.isNone then (s.save U .clear none).put U.backup none
      else s.save U .clear none, ?_, ?_, ?_, ?_⟩
    · refine (runs_state hp _).trans ((runs_call hp _).trans ?_)
      simp only [act, henv.save, ret_bind]
      rw [hpath, if_pos U.backup_ne_empty]
      refine (runs_call hsave _).trans ?_
      simp only [act]
      cases (env (.remove U.backup)).error <;> rfl
    · split
      · exact hp
      · exact hp
    · split
      · exact files_put_of_ne U.backup_ne_executable.symm ..
      · rfl
    · split
      · exact ⟨rfl, rfl, rfl⟩
      · exact ⟨rfl, rfl, rfl⟩
  refine ⟨{ t with process := some { p with isReady := true } }, ?_, rfl, hfiles, hrest⟩
  rw [runs_bind hcommit]
  exact congrArg fst (runs_call ht _)

/-- A procedure with such operations only. -/
def Stays : UpdaterProg α → Prop
  | .ret _ => True
  | .call op next => op.stays = true ∧ ∀ answer, Stays (next answer)

lemma Stays.runs (h : Stays q) (hp : s.process = some p) :
    ∃ t a, U.runs env q s = (t, some a) ∧ t.process = some p := by
  induction q generalizing s with
  | ret a => exact ⟨s, a, rfl, hp⟩
  | call op next ih =>
    rw [runs_call hp]
    exact ih _ (h.2 _) (op.process_act h.1 hp)

variable {f : α → UpdaterProg β}

lemma Stays.bind (h : Stays q) (hf : ∀ a, Stays (f a)) : Stays (q.bind f) := by
  induction q with
  | ret a => exact hf a
  | call op next ih => exact ⟨h.1, fun answer => ih answer (h.2 answer)⟩

variable {rel : BinaryUpdate}

/-- If the process is gone when the procedure ends, the host is as described. -/
def Dies (U : Updater) (env : UpdaterOp → UpdaterEnv) (q : UpdaterProg α) (s : Host)
    (P : Host → Prop) : Prop :=
  (U.runs env q s).1.process = none → P (U.runs env q s).1

variable {P : Host → Prop}

lemma Dies.call {next : op.Ans → UpdaterProg α} (hp : s.process = some p)
    (h : Dies U env (next (s.act U p op (env op)).2) (s.act U p op (env op)).1 P) :
    Dies U env (.call op next) s P := by
  rwa [Dies, runs_call hp]

lemma Dies.bind {a : α} (h : U.runs env q s = (t, some a)) (hf : Dies U env (f a) t P) :
    Dies U env (q.bind f) s P := by
  rwa [Dies, runs_bind h]

section
variable (hp : s.process = some p)
include hp

lemma runs_apply_of_current (h : rel.version = p.currentVersion) :
    ∃ errs, U.runs env (U.apply rel) s = (s, some errs) := by
  unfold apply
  split
  · exact ⟨_, rfl⟩
  · refine ⟨[], (runs_currentVersion hp _).trans ?_⟩
    dsimp only [ret_bind]
    rw [if_pos h]
    rfl

lemma runs_apply_of_blacklisted (h : rel.version ∈ s.update.blacklistedVersions) :
    ∃ before errs, U.runs env (U.apply rel) s = ({ s with before }, some errs) := by
  by_cases hcur : rel.version = p.currentVersion
  · exact ⟨s.before, runs_apply_of_current hp hcur⟩
  unfold apply
  split
  · exact ⟨s.before, _, rfl⟩
  · refine ⟨s.files U.executable, [], (runs_currentVersion hp _).trans ?_⟩
    dsimp only [ret_bind]
    rw [if_neg hcur]
    refine (runs_call hp _).trans ?_
    refine (runs_state (s := { s with before := s.files U.executable }) hp _).trans ?_
    dsimp only [ret_bind]
    rw [if_pos (show s.update.isBlacklisted rel.version from List.contains_iff_mem.mpr h)]
    rfl

end

/-- Where a release is that was started once. -/
inductive Stage (U : Updater) (version : String) (b before : Bytes) (s : Host) : Prop
  | awaiting (hprocess : s.process = none) (hexecutable : s.files U.executable = some b)
      (hpending : s.update.pendingVersion = version) (hpath : s.update.backupPath = U.backup)
      (hbackup : s.files U.backup = some before)
  | running (hprocess : ∀ p, s.process = some p → p.currentVersion = version)
      (hexecutable : s.files U.executable = some b) (hpending : s.update.pendingVersion = "")
  | rejected (hlisted : version ∈ s.update.blacklistedVersions)
      (hpending : s.update.pendingVersion = "")

/-- The panel advertises the release and no other, and no save fails. -/
def advertises (U : Updater) (rel : BinaryUpdate) : Host → HostAction → Prop
  | _, .start env => Saves U env
  | _, .apply rel' env => rel' = rel ∧ Saves U env
  | _, .stop => True

variable {u : Host}

lemma boot_eq_some (h : s.boot U = some u) :
    s.process = none ∧ ∃ b, s.files U.executable = some b ∧
      u = { s with process := some { currentVersion := U.version b } } := by
  obtain ⟨hnone, h⟩ := ite_none_right_eq_some.mp h
  obtain ⟨b, hb, rfl⟩ := map_eq_some_iff.mp h
  exact ⟨isNone_iff_eq_none.mp hnone, b, hb, rfl⟩

lemma step_start_of_settled (hpending : s.update.pendingVersion = "")
    (h : U.step s (.start env) = some u) :
    ∃ b process, s.files U.executable = some b ∧ u = { s with process } ∧
      ∀ p, process = some p → p.currentVersion = U.version b := by
  obtain ⟨u', hboot, rfl⟩ := map_eq_some_iff.mp h
  obtain ⟨-, b, hb, rfl⟩ := boot_eq_some hboot
  refine ⟨b, _, hb, runs_startup_of_settled (s := { s with
    process := some { currentVersion := U.version b } }) rfl hpending, ?_⟩
  intro p hp
  obtain ⟨-, rfl⟩ := ite_some_none_eq_some.mp hp
  rfl

lemma mem_restored {version : String} (hver : version ≠ "") (u : UpdateState) :
    version ∈ ((UpdateChange.restored version).apply u).blacklistedVersions := by
  dsimp only [UpdateChange.apply]
  split
  · exact List.mem_append_right _ List.mem_cons_self
  · next h =>
    have hlisted : u.isBlacklisted version := by simpa [hver] using h
    exact List.contains_iff_mem.mp hlisted

variable {before : Bytes}

/-- The trial of a release that is awaiting it. -/
theorem Stage.start (henv : Saves U env) (hlabel : rel.version ≠ "")
    (hver : U.version b = rel.version) (hexecutable : s.files U.executable = some b)
    (hpending : s.update.pendingVersion = rel.version) (hpath : s.update.backupPath = U.backup)
    (hbackup : s.files U.backup = some before) (h : U.step s (.start env) = some u) :
    u.execed = s.execed ∧ u.downloaded = s.downloaded ∧ Stage U rel.version b before u ∧
      ((env .bootstrap).error.isSome → Restores U env →
        u.files U.executable = some before ∧ rel.version ∈ u.update.blacklistedVersions) := by
  obtain ⟨u', hboot, rfl⟩ := map_eq_some_iff.mp h
  obtain ⟨-, b', hb', rfl⟩ := boot_eq_some hboot
  cases hexecutable.symm.trans hb'
  rw [hver]
  have hp : ({ s with process := some { currentVersion := rel.version } } : Host).process =
      some { currentVersion := rel.version } := rfl
  have hreconcile : U.runs env reconcileStartup
      { s with process := some { currentVersion := rel.version } } =
        ({ s with process := some { currentVersion := rel.version } }, some (true, none)) := by
    rw [runs_reconcileStartup hp]
    rw [if_neg (by rw [hpending]; exact hlabel), if_pos hpending]
  rw [runs_startup hreconcile hp]
  cases (env .bootstrap).error with
  | some err =>
    obtain ⟨v, errs, hv, -, hexeced, hdown, hfiles⟩ :=
      runs_rollback henv hp (hpending ▸ hlabel) hpath hbackup
    rw [hv]
    refine ⟨hexeced, hdown, ?_⟩
    obtain ⟨-, hfiles, hupd⟩ | ⟨-, rfl, hfails⟩ := hfiles
    · have hlisted : rel.version ∈ v.update.blacklistedVersions := by
        rw [hupd, hpending]
        exact mem_restored hlabel _
      refine ⟨.rejected hlisted ?_, fun _ _ => ⟨hfiles, hlisted⟩⟩
      rw [hupd]
      rfl
    · exact ⟨.awaiting rfl hexecutable hpending hpath hbackup, fun _ h => absurd h hfails⟩
  | none =>
    obtain ⟨v, hv, hprocess, hfiles, hupd, hexeced, hdown⟩ := runs_commit henv hp hpath
    rw [hv]
    refine ⟨hexeced, hdown, .running ?_ (hfiles.trans hexecutable) ?_, fun h => nomatch h⟩
    · intro q hq
      cases hprocess.symm.trans hq
      rfl
    · rw [hupd]
      rfl

lemma Stage.step {u v : Host} {a : HostAction} (hlabel : rel.version ≠ "")
    (hver : U.version b = rel.version) (h : Stage U rel.version b before u)
    (ha : U.advertises rel u a) (hv : U.step u a = some v) :
    Stage U rel.version b before v ∧ v.execed = u.execed ∧ v.downloaded = u.downloaded := by
  cases a with
  | stop =>
    cases hv
    refine ⟨?_, rfl, rfl⟩
    cases h with
    | awaiting hprocess hexecutable hpending hpath hbackup =>
      exact .awaiting rfl hexecutable hpending hpath hbackup
    | running hprocess hexecutable hpending =>
      exact .running (fun _ h => nomatch h) hexecutable hpending
    | rejected hlisted hpending => exact .rejected hlisted hpending
  | start env =>
    cases h with
    | awaiting hprocess hexecutable hpending hpath hbackup =>
      obtain ⟨hexeced, hdown, hstage, -⟩ :=
        Stage.start ha hlabel hver hexecutable hpending hpath hbackup hv
      exact ⟨hstage, hexeced, hdown⟩
    | running hprocess hexecutable hpending =>
      obtain ⟨b', process, hb', rfl, hversions⟩ := step_start_of_settled hpending hv
      cases hexecutable.symm.trans hb'
      exact ⟨.running (fun q hq => (hversions q hq).trans hver) hexecutable hpending, rfl, rfl⟩
    | rejected hlisted hpending =>
      obtain ⟨-, process, -, rfl, -⟩ := step_start_of_settled hpending hv
      exact ⟨.rejected hlisted hpending, rfl, rfl⟩
  | apply rel' env =>
    obtain ⟨rfl, -⟩ := ha
    obtain ⟨hready, hv⟩ := ite_none_right_eq_some.mp hv
    obtain ⟨p, hp, -⟩ := (any_eq_true ..).mp hready
    cases hv
    cases h with
    | awaiting hprocess => cases hprocess.symm.trans hp
    | running hprocess hexecutable hpending =>
      obtain ⟨errs, hrun⟩ := runs_apply_of_current hp (hprocess p hp).symm
      rw [hrun]
      exact ⟨.running hprocess hexecutable hpending, rfl, rfl⟩
    | rejected hlisted hpending =>
      obtain ⟨before, errs, hrun⟩ := runs_apply_of_blacklisted hp hlisted
      rw [hrun]
      exact ⟨.rejected hlisted hpending, rfl, rfl⟩

end Updater

end SingBox.Panel
