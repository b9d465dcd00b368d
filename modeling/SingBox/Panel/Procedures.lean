import SingBox.Panel.Rollback

/-! The procedures of the updater, each cut off anywhere by a crash and followed by any other, keep
the executable genuine. -/

namespace SingBox.Panel
open Lib Machine Prog Option

namespace Updater
open Host System

variable (U : Updater)

/-- One thread of each process makes the calls: first the startup, and once the
process has come up, updates. If asked for, no save fails, and neither does a
restoration. -/
def conduct (reliable : Prop) : Conduct U.system where
  starts s i call := i = 0 ∧ ∃ p, s.process = some p ∧
    match call with
    | .startup => p.isReady = false
    | .apply _ => p.isReady = true
  admits _ _ op env :=
    match op with
    | .updateAndSave _ | .stat _ => reliable → env.error = none
    | .copyFile _ dst => reliable → dst = U.executable → env.error = none
    | _ => True

/-- A thread alone finds everything as it left it. -/
def protocol (initial : Bytes) (reliable : Prop) : Protocol (U.conduct reliable) where
  inv := Host.Inv U initial reliable
  rely i s t := i = 0 → s = t
  idle i s := i = 0 → s.Idle U reliable
  during _ _ _ := True
  done i _ s := i = 0 → s.Idle U reliable
  rely_refl _ _ _ := rfl
  rely_trans h h' hi := (h hi).trans (h' hi)
  idle_rely h ht hi := ht hi ▸ h hi
  during_rely h _ := h
  done_rely h ht hi := ht hi ▸ h hi

/-- The program, run by the thread for the call, ends as it says. -/
abbrev Meets (U : Updater) (initial : Bytes) (reliable : Prop) {α : Type} (call : UpdaterCall) :=
  (U.protocol initial reliable).Meets (α := α) 0 call

variable {U : Updater} {initial : Bytes} {reliable : Prop} {α : Type} {call : UpdaterCall}
  {Q : α → Host → Prop} {s : Host} {p : Process} {op : UpdaterOp} {next : op.Ans → UpdaterProg α}

lemma meets_act (hp : s.process = some p)
    (h : s.Inv U initial reliable → ∀ env, (U.conduct reliable).admits s 0 op env →
      (s.act U p op env).1.Inv U initial reliable ∧
        U.Meets initial reliable call Q (next (s.act U p op env).2)
          (s.act U p op env).1) : U.Meets initial reliable call Q (.call op next) s := by
  intro t ht hinv env u answer hadm hexec
  cases ht rfl
  obtain ⟨p', hp', hexec⟩ := map_eq_some_iff.mp hexec
  cases hp.symm.trans hp'
  obtain ⟨hu, hnext⟩ := h hinv env hadm
  rw [hexec] at hu hnext
  exact ⟨hu, fun j hj hj' => absurd hj' hj, trivial, hnext⟩

lemma meets_dead (hs : s.process = none) : U.Meets initial reliable call Q (.call op next) s := by
  intro t ht _ env u answer _ hexec
  cases ht rfl
  obtain ⟨p, hp, -⟩ := map_eq_some_iff.mp hexec
  cases hs.symm.trans hp

lemma meets_read (hp : s.process = some p) (hop : ∀ env, (s.act U p op env).1 = s)
    (h : s.Inv U initial reliable → ∀ env, (U.conduct reliable).admits s 0 op env →
      U.Meets initial reliable call Q (next (s.act U p op env).2) s) :
    U.Meets initial reliable call Q (.call op next) s := by
  apply meets_act hp
  intro hinv env hadm
  rw [hop env]
  exact ⟨hinv, h hinv env hadm⟩

lemma meets_state {next : UpdateState → UpdaterProg α} (hp : s.process = some p)
    (h : s.Inv U initial reliable → U.Meets initial reliable call Q (next s.update) s) :
    U.Meets initial reliable call Q (.call .state next) s :=
  meets_read hp (fun _ => rfl) fun hinv _ _ => h hinv

lemma meets_currentVersion {next : String → UpdaterProg α} (hp : s.process = some p)
    (h : U.Meets initial reliable call Q (next p.currentVersion) s) :
    U.Meets initial reliable call Q (.call .currentVersion next) s :=
  meets_read hp (fun _ => rfl) fun _ _ _ => h

variable {next : Option String → UpdaterProg α} {data : Bytes}

section
variable (hp : s.process = some p)
include hp

variable {src dst : String}

lemma meets_rename (hdata : s.files src = some data) (hdone : s.Inv U initial reliable →
      ((s.put dst (some data)).put src none).Inv U initial reliable ∧
        U.Meets initial reliable call Q (next none)
          ((s.put dst (some data)).put src none))
    (hfail : ∀ err, U.Meets initial reliable call Q (next (some err)) s) :
    U.Meets initial reliable call Q (.call (.rename src dst) next) s := by
  apply meets_act hp
  intro hinv env _
  simp only [act, hdata]
  cases env.error with
  | none => exact hdone hinv
  | some err => exact ⟨hinv, hfail err⟩

lemma meets_copyFile (hdata : s.files src = some data)
    (hdone : s.Inv U initial reliable → (s.put dst (some data)).Inv U initial reliable ∧
      ∀ err, (reliable → dst = U.executable → err = none) →
        U.Meets initial reliable call Q (next err) (s.put dst (some data)))
    (hfail : ∀ err, (reliable → dst ≠ U.executable) →
      U.Meets initial reliable call Q (next (some err)) s) :
    U.Meets initial reliable call Q (.call (.copyFile src dst) next) s := by
  apply meets_act hp
  intro hinv env hadm
  simp only [act, hdata]
  split
  · exact ⟨(hdone hinv).1, (hdone hinv).2 env.error hadm⟩
  · next hcopy =>
    cases herror : env.error with
    | none => simp [herror] at hcopy
    | some err =>
      refine ⟨hinv, hfail err fun hrel hdst => ?_⟩
      cases herror.symm.trans (hadm hrel hdst)

lemma meets_stat {path : String} (hfound : ∀ data, s.files path = some data →
      U.Meets initial reliable call Q (next none) s)
    (hmissing : s.files path = none → s.Inv U initial reliable → ∀ err,
      (s.noteRestored U).Inv U initial reliable ∧
        U.Meets initial reliable call Q (next (some err)) (s.noteRestored U))
    (hfail : ¬reliable → ∀ err, U.Meets initial reliable call Q (next (some err)) s) :
    U.Meets initial reliable call Q (.call (.stat path) next) s := by
  apply meets_act hp
  intro hinv env hadm
  simp only [act]
  cases herror : env.error with
  | some err =>
    refine ⟨hinv, hfail (fun hrel => ?_) err⟩
    cases herror.symm.trans (hadm hrel)
  | none =>
    cases hdata : s.files path with
    | none => exact hmissing hdata hinv _
    | some data => exact ⟨hinv, hfound data hdata⟩

lemma meets_save {change : UpdateChange}
    (hdone : s.Inv U initial reliable → (s.save U change none).Inv U initial reliable ∧
      U.Meets initial reliable call Q (next none) (s.save U change none))
    (hfail : ¬reliable → s.Inv U initial reliable → ∀ err,
      (s.save U change (some err)).Inv U initial reliable ∧
        U.Meets initial reliable call Q (next (some err))
          (s.save U change (some err))) :
    U.Meets initial reliable call Q (.call (.updateAndSave change) next) s := by
  apply meets_act hp
  intro hinv env hadm
  simp only [act]
  cases herror : env.error with
  | none => exact hdone hinv
  | some err =>
    refine hfail (fun hrel => ?_) hinv err
    cases herror.symm.trans (hadm hrel)

end

/-- The backup is there, and is what the executable held before. -/
structure Restorable (U : Updater) (reliable : Prop) (p : Process) (s : Host) : Prop where
  process : s.process = some p
  pending : s.update.pendingVersion ≠ ""
  backup : reliable → (s.files U.backup).isSome ∧ s.files U.backup = s.before

lemma putBack_meets (h : Restorable U reliable p s) (hback : s.files U.backup = some data) :
    U.Meets initial reliable call
      (fun errs t => t.process = some p ∧ t.before = s.before ∧
        (reliable → errs = [] ∧ t.files U.executable = s.before))
      (U.putBack U.backup) s := by
  have hbefore : reliable → (s.put U.executable (some data)).files U.executable = s.before := by
    intro hrel
    rw [files_put_self, ← hback]
    exact (h.backup hrel).2
  have hput : s.Inv U initial reliable →
      (s.put U.executable (some data)).Inv U initial reliable := fun hinv =>
    hinv.put_executable (hinv.backup h.pending data hback) fun hrel _ => (h.backup hrel).2
  apply meets_rename h.process hback
  · intro hinv
    refine ⟨(hput hinv).remove_backup fun hrel _ => hbefore hrel, h.process, rfl, ?_⟩
    intro hrel
    refine ⟨rfl, ?_⟩
    exact (files_put_of_ne U.backup_ne_executable.symm ..).trans (hbefore hrel)
  · intro err
    apply meets_copyFile h.process hback
    · intro hinv
      refine ⟨hput hinv, fun copyErr hnone => ?_⟩
      cases copyErr with
      | none => exact ⟨h.process, rfl, fun hrel => ⟨rfl, hbefore hrel⟩⟩
      | some copyErr => exact ⟨h.process, rfl, fun hrel => nomatch hnone hrel rfl⟩
    · intro copyErr hrel
      exact ⟨h.process, rfl, fun h => absurd rfl (hrel h)⟩

/-- What the executable held before is there again, and no update is pending. -/
theorem restoreBackupLocked_meets {blacklist : String} (h : Restorable U reliable p s) :
    U.Meets initial reliable call
      (fun _ t => t.process = some p ∧
        (reliable → t.update.pendingVersion = "" ∧ t.files U.executable = s.before))
      (U.restoreBackupLocked blacklist) s := by
  refine meets_state h.process fun hinv => ?_
  have hpath : (if s.update.backupPath = "" then U.backup else s.update.backupPath) = U.backup := by
    split
    · rfl
    · next hne => exact hinv.backupPath.resolve_left hne
  dsimp only [ret_bind]
  rw [hpath]
  apply meets_stat h.process
  · intro data hback
    dsimp only [ret_bind]
    refine Protocol.meets_bind.mpr ((putBack_meets h hback).mono ?_)
    rintro errs t ⟨hp, hbefore, hrestored⟩
    cases errs with
    | cons err errs =>
      refine ⟨hp, fun hrel => ?_⟩
      cases (hrestored hrel).1
    | nil =>
      have hexe : reliable → t.files U.executable = t.before := by
        intro hrel
        rw [hbefore]
        exact (hrestored hrel).2
      refine meets_read hp (fun _ => rfl) fun _ _ _ => ?_
      apply meets_save hp
      · intro hinv
        refine ⟨(hinv.noteRestored hexe).settle rfl rfl, hp, fun hrel => ⟨rfl, ?_⟩⟩
        exact (hrestored hrel).2
      · intro hrel hinv err
        exact ⟨hinv.noteRestored hexe, hp, fun h => absurd h hrel⟩
  · intro hmissing hinv err
    have hrel : ¬reliable := by
      intro hrel
      have hsome := (h.backup hrel).1
      simp [hmissing] at hsome
    refine ⟨hinv.noteRestored fun h => absurd h hrel, h.process, ?_⟩
    exact fun h => absurd h hrel
  · exact fun hrel err => ⟨h.process, fun h => absurd h hrel⟩

/-- An update that is allowed has begun, with the executable as it was. -/
structure Applying (U : Updater) (reliable : Prop) (p : Process) (version : String) (b : Bytes)
    (s : Host) : Prop where
  process : s.process = some p
  allowed : version ∉ s.update.blacklistedVersions
  executable : s.files U.executable = some b
  began : reliable → s.before = some b ∧ U.version b = p.currentVersion
  settled : reliable → s.update.pendingVersion = ""

/-- The update is on record, with a backup of the executable. -/
structure Recorded (U : Updater) (reliable : Prop) (p : Process) (version : String) (b : Bytes)
    (s : Host) : Prop where
  process : s.process = some p
  allowed : version ∉ s.update.blacklistedVersions
  backup : s.files U.backup = some b
  began : reliable → s.before = some b ∧ U.version b = p.currentVersion
  pending : s.update.pendingVersion = version

variable {b unpacked : Bytes} {rel : BinaryUpdate} {version : String}

lemma Applying.idle (h : Applying U reliable p version b s) : s.Idle U reliable := by
  intro hrel p' hp'
  cases h.process.symm.trans hp'
  exact ⟨⟨b, h.executable, (h.began hrel).2⟩, fun _ => h.settled hrel⟩

section
variable (h : Recorded U reliable p version b s)
include h

lemma Recorded.restorable (hver : version ≠ "") : Restorable U reliable p s := by
  refine ⟨h.process, h.pending ▸ hver, fun hrel => ?_⟩
  rw [h.backup, (h.began hrel).1]
  exact ⟨rfl, rfl⟩

/-- After a restoration the process is again that of the executable. -/
theorem Recorded.idle {t : Host} (hp : t.process = some p)
    (ht : reliable → t.update.pendingVersion = "" ∧ t.files U.executable = s.before) :
    t.Idle U reliable := by
  intro hrel p' hp'
  cases hp.symm.trans hp'
  obtain ⟨hpend, hexe⟩ := ht hrel
  obtain ⟨hbefore, hver⟩ := h.began hrel
  exact ⟨⟨b, hexe.trans hbefore, hver⟩, fun _ => hpend⟩

lemma Recorded.execed (execed : List (String × List String)) :
    Recorded U reliable p version b { s with execed, process := some p } :=
  { h with process := rfl }

end

lemma replaceAndExec_meets (h : Recorded U reliable p rel.version b s)
    (hver : rel.version ≠ "") (hstage : s.files U.staging = some unpacked)
    (hverified : s.Verified U unpacked) :
    U.Meets initial reliable call (fun _ t => t.Idle U reliable)
      (U.replaceAndExec rel) s := by
  have hrestorable := h.restorable hver
  apply meets_rename h.process hstage
  · intro hinv
    have hput := hinv.put_executable (.inr hverified) fun hrel _ => (hrestorable.backup hrel).2
    refine ⟨hput.put U.staging_ne_executable.symm U.staging_ne_backup.symm none, ?_⟩
    have hback := (files_put_of_ne U.staging_ne_backup.symm (s.put U.executable (some unpacked))
      none).trans (files_put_of_ne U.backup_ne_executable s (some unpacked))
    have h : Recorded U reliable p rel.version b
        ((s.put U.executable (some unpacked)).put U.staging none) :=
      { h with backup := hback.trans h.backup }
    generalize (s.put U.executable (some unpacked)).put U.staging none = t at h
    apply meets_act h.process
    intro hinv env _
    have hallow : ∀ v, some rel.version = some v → v ∉ t.update.blacklistedVersions :=
      fun v hv => some.inj hv ▸ h.allowed
    simp only [act]
    cases env.error with
    | none => exact ⟨hinv.start hallow none, idle_of_no_process rfl⟩
    | some err =>
      have h := h.execed ((rel.version, t.update.blacklistedVersions) :: t.execed)
      refine ⟨hinv.start hallow (some p), ?_⟩
      dsimp only [ret_bind]
      refine Protocol.meets_bind.mpr ((restoreBackupLocked_meets (h.restorable hver)).mono ?_)
      exact fun _ t ht => h.idle ht.1 ht.2
  · intro err
    dsimp only [ret_bind]
    refine Protocol.meets_bind.mpr ((restoreBackupLocked_meets hrestorable).mono ?_)
    exact fun _ t ht => h.idle ht.1 ht.2

section
variable (h : Applying U reliable p rel.version b s)
include h

lemma installStaged_meets (hver : rel.version ≠ "") (hne : rel.version ≠ p.currentVersion)
    (hstage : s.files U.staging = some unpacked) (hverified : s.Verified U unpacked) :
    U.Meets initial reliable call (fun _ t => t.Idle U reliable)
      (U.installStaged rel) s := by
  apply meets_copyFile h.process h.executable
  · intro hinv
    have hexe := files_put_of_ne U.backup_ne_executable.symm s (some b)
    have hcopy : Applying U reliable p rel.version b (s.put U.backup (some b)) :=
      { h with executable := hexe.trans h.executable }
    refine ⟨hinv.put_backup h.executable h.settled, fun err _ => ?_⟩
    cases err with
    | some err => exact hcopy.idle
    | none =>
      apply meets_save hcopy.process
      · intro hinv'
        obtain ⟨b', hb', hgen⟩ := hinv.executable
        cases h.executable.symm.trans hb'
        have hrecorded : Recorded U reliable p rel.version b
            ((s.put U.backup (some b)).save U (.pending rel.version U.backup) none) :=
          ⟨h.process, h.allowed, files_put_self .., h.began, rfl⟩
        refine ⟨hinv'.record ?_ ?_, ?_⟩
        · intro b' hb'
          rw [files_put_self] at hb'
          cases hb'
          exact hgen
        · intro hrel
          obtain ⟨hbefore, hcur⟩ := h.began hrel
          exact ⟨b, hbefore, hcur ▸ hne.symm, files_put_self ..⟩
        refine meets_read hrecorded.process (fun _ => rfl) fun _ env _ => ?_
        simp only [act]
        cases env.error with
        | none =>
          refine replaceAndExec_meets hrecorded hver ?_ hverified
          exact (files_put_of_ne U.staging_ne_backup ..).trans hstage
        | some err =>
          -- What is pending is given up.
          apply meets_save hrecorded.process
          · intro hinv
            refine ⟨hinv.settle rfl rfl, ?_⟩
            exact hrecorded.idle h.process fun hrel =>
              ⟨rfl, (hexe.trans h.executable).trans (h.began hrel).1.symm⟩
          · exact fun hrel hinv err => ⟨hinv, fun h => absurd h hrel⟩
      · exact fun _ hinv err => ⟨hinv, hcopy.idle⟩
  · exact fun err _ => h.idle

lemma install_meets (hver : rel.version ≠ "")
    (hne : rel.version ≠ p.currentVersion) (hverified : s.Verified U unpacked) :
    U.Meets initial reliable call (fun _ t => t.Idle U reliable)
      (U.install rel unpacked) s := by
  apply meets_act h.process
  intro hinv env _
  simp only [act]
  cases env.error with
  | some err => exact ⟨hinv, h.idle⟩
  | none =>
    refine ⟨hinv.put U.staging_ne_executable.symm U.staging_ne_backup.symm _, ?_⟩
    have hexe := files_put_of_ne U.staging_ne_executable.symm s (some unpacked)
    have hstaged : Applying U reliable p rel.version b (s.put U.staging (some unpacked)) :=
      { h with executable := hexe.trans h.executable }
    dsimp only [ret_bind]
    refine Protocol.meets_bind.mpr ((installStaged_meets hstaged hver hne
      (files_put_self ..) hverified).mono ?_)
    intro errs t hidle
    cases ht : t.process with
    | none => exact meets_dead ht
    | some q =>
      apply meets_act ht
      intro hinv env _
      simp only [act]
      split
      · refine ⟨hinv.put U.staging_ne_executable.symm U.staging_ne_backup.symm _, ?_⟩
        intro hrel q' hq'
        obtain ⟨⟨b', hb', hcur⟩, hsettled⟩ := hidle hrel q' hq'
        refine ⟨⟨b', ?_, hcur⟩, hsettled⟩
        exact (files_put_of_ne U.staging_ne_executable.symm ..).trans hb'
      · exact ⟨hinv, hidle⟩

end

/-- What a download returns was downloaded for the release. -/
theorem download_meets {url : String} (hp : s.process = some p) : U.Meets initial reliable call
      (fun answer t => ∃ downloaded, t = { s with downloaded } ∧
        ∀ payload, answer = .ok payload → (rel, payload) ∈ downloaded)
      (download rel url) s := by
  apply meets_act hp
  intro hinv env _
  simp only [act]
  cases env.payload with
  | error err => exact ⟨hinv, s.downloaded, rfl, nofun⟩
  | ok data =>
    refine ⟨hinv.downloaded (rel, data), ?_⟩
    dsimp only [ret_bind]
    split
    · exact ⟨_, rfl, nofun⟩
    split
    · exact ⟨_, rfl, nofun⟩
    · refine ⟨_, rfl, ?_⟩
      rintro payload ⟨⟩
      exact List.mem_cons_self

lemma apply_meets (hidle : s.Idle U reliable) (hp : s.process = some p) (hready : p.isReady) :
    U.Meets initial reliable call (fun _ t => t.Idle U reliable) (U.apply rel) s := by
  unfold apply
  split
  · exact hidle
  next hval =>
  have hver := rel.version_ne_of_validate hval
  apply meets_currentVersion hp
  dsimp only [ret_bind]
  split
  · exact hidle
  next hne =>
  apply meets_act hp
  intro hinv env _
  refine ⟨hinv.begin fun hrel => (hidle hrel p hp).2 hready, ?_⟩
  obtain ⟨b, hb, -⟩ := hinv.executable
  refine meets_state hp fun _ => ?_
  dsimp only [ret_bind]
  split
  · exact hidle
  next hallow =>
  have hallow : rel.version ∉ s.update.blacklistedVersions :=
    fun hmem => hallow (List.contains_iff_mem.mpr hmem)
  have happly : Applying U reliable p rel.version b
      { s with before := s.files U.executable } := by
    refine ⟨hp, hallow, hb, fun hrel => ?_, fun hrel => (hidle hrel p hp).2 hready⟩
    obtain ⟨⟨b', hb', hcur⟩, -⟩ := hidle hrel p hp
    cases hb.symm.trans hb'
    exact ⟨hb, hcur⟩
  split
  · exact happly.idle
  next dl hdl =>
  refine Protocol.meets_bind.mpr ((download_meets happly.process).mono ?_)
  rintro answer _ ⟨downloaded, rfl, hmem⟩
  have happly : Applying U reliable p rel.version b
      { s with before := s.files U.executable, downloaded } :=
    { happly with process := hp, executable := hb }
  cases answer with
  | error err => exact happly.idle
  | ok payload =>
    dsimp only
    split
    · exact happly.idle
    · next unpacked hunpacked =>
      obtain ⟨_, hdigest, hunpacked⟩ := bind_eq_ok hunpacked
      refine install_meets happly hver hne
        ⟨rel, dl, payload, hmem payload rfl, hdl, ?_, hunpacked⟩
      exact eq_true_of_ne_false (of_refuse hdigest)

/-- A trial start is one with its own version pending; otherwise nothing stays
pending. -/
theorem reconcileStartup_meets (hp : s.process = some p) : U.Meets initial reliable call
      (fun answer t => t.process = some p ∧ t.files = s.files ∧
        (answer.1 → t.update.pendingVersion = p.currentVersion ∧ p.currentVersion ≠ "") ∧
        (answer.1 = false → reliable → t.update.pendingVersion = ""))
      reconcileStartup s := by
  refine meets_state hp fun _ => ?_
  dsimp only [ret_bind]
  split
  · next hnone => exact ⟨hp, rfl, nofun, fun _ _ => hnone⟩
  next hsome =>
  apply meets_currentVersion hp
  dsimp only [ret_bind]
  split
  · next heq => exact ⟨hp, rfl, fun _ => ⟨heq, heq ▸ hsome⟩, nofun⟩
  · apply meets_save hp
    · exact fun hinv => ⟨hinv.settle rfl rfl, hp, rfl, nofun, fun _ _ => rfl⟩
    · exact fun hrel hinv err => ⟨hinv, hp, rfl, nofun, fun _ h => absurd h hrel⟩

lemma commitSuccess_meets (hp : s.process = some p) : U.Meets initial reliable call
      (fun _ t => t.process = some p ∧ t.files U.executable = s.files U.executable ∧
        (reliable → t.update.pendingVersion = ""))
      commitSuccess s := by
  refine meets_state hp fun hinv => ?_
  apply meets_save hp
  · intro _
    refine ⟨hinv.settle rfl rfl, ?_⟩
    have hp : (s.save U .clear none).process = some p := hp
    split
    · next hpath =>
      rw [hinv.backupPath.resolve_left hpath]
      apply meets_act hp
      intro hinv env _
      simp only [act]
      split
      · refine ⟨hinv.remove_backup fun _ h => absurd rfl h, hp, ?_, fun _ => rfl⟩
        exact files_put_of_ne U.backup_ne_executable.symm ..
      · exact ⟨hinv, hp, rfl, fun _ => rfl⟩
    · exact ⟨hp, rfl, fun _ => rfl⟩
  · exact fun hrel hinv err => ⟨hinv, hp, rfl, fun h => absurd h hrel⟩

lemma rollbackAndBlacklist_meets (h : Restorable U reliable p s) : U.Meets initial reliable call
      (fun _ t => t.process = none ∨ t.process = some p) U.rollbackAndBlacklist s := by
  refine meets_state h.process fun _ => ?_
  apply meets_currentVersion h.process
  dsimp only [ret_bind]
  refine Protocol.meets_bind.mpr ((restoreBackupLocked_meets h).mono ?_)
  rintro errs t ⟨hp, -⟩
  cases errs with
  | cons err errs => exact .inr hp
  | nil =>
    apply meets_act hp
    intro hinv env _
    have hallow : ∀ v, none = some v → v ∉ t.update.blacklistedVersions := nofun
    simp only [act]
    cases env.error with
    | none => exact ⟨hinv.start hallow none, .inl rfl⟩
    | some err => exact ⟨hinv.start hallow (some p), .inr rfl⟩

/-- A process comes up with nothing pending, or ends. -/
theorem startup_meets (hidle : s.Idle U reliable) (hp : s.process = some p) :
    U.Meets initial reliable call (fun _ t => t.Idle U reliable) U.startup s := by
  refine Protocol.meets_bind.mpr ((reconcileStartup_meets hp).mono ?_)
  rintro ⟨trialStart, err⟩ t ⟨ht, hfiles, htrial, hsettled⟩
  have hcur : reliable → ∃ b, t.files U.executable = some b ∧ U.version b = p.currentVersion := by
    rw [hfiles]
    exact fun hrel => (hidle hrel p hp).1
  refine meets_read ht (fun _ => rfl) fun hinv env _ => ?_
  dsimp only [ret_bind, act]
  have hexit : ∀ u : Host, u.process = none ∨ u.process = some p →
      U.Meets initial reliable call (fun _ v => v.Idle U reliable)
        (perform .exit) u := by
    rintro u (hu | hu)
    · exact meets_dead hu
    · exact meets_act hu fun hinv _ _ => ⟨hinv.process none, idle_of_no_process rfl⟩
  have hready : ∀ u : Host, u.process = some p → u.files U.executable = t.files U.executable →
      (reliable → u.update.pendingVersion = "") →
      U.Meets initial reliable call (fun _ v => v.Idle U reliable)
        (perform .ready) u := by
    intro u hu hexe hpend
    refine meets_act hu fun hinv _ _ => ⟨hinv.process _, ?_⟩
    rintro hrel _ ⟨⟩
    rw [← hexe] at hcur
    exact ⟨hcur hrel, fun _ => hpend hrel⟩
  cases env.error with
  | some err =>
    cases trialStart with
    | false => exact hexit t (.inr ht)
    | true =>
      obtain ⟨hpend, hne⟩ := htrial rfl
      have hrestorable : Restorable U reliable p t := by
        refine ⟨ht, hpend ▸ hne, fun hrel => ?_⟩
        obtain ⟨b, hbefore, hver, hback⟩ := hinv.pending hrel (hpend ▸ hne)
        -- The executable is the one on trial, so that the other is the backup.
        have hback := hback.resolve_right fun hexe => by
          obtain ⟨b', hb', hcur⟩ := hcur hrel
          cases hexe.symm.trans hb'
          exact hver (hcur.trans hpend.symm)
        rw [hback, hbefore]
        exact ⟨rfl, rfl⟩
      refine Protocol.meets_bind.mpr ((rollbackAndBlacklist_meets hrestorable).mono ?_)
      exact fun _ u hu => hexit u hu
  | none =>
    cases trialStart with
    | false => exact hready t ht rfl (hsettled rfl)
    | true =>
      refine Protocol.meets_bind.mpr ((commitSuccess_meets ht).mono ?_)
      exact fun _ u hu => hready u hu.1 hu.2.1 hu.2.2

lemma protocol_sound (initial : Bytes) (reliable : Prop) : (U.protocol initial reliable).Sound := by
  constructor
  · rintro i call s _ hidle ⟨rfl, p, hp, hcall⟩
    refine ⟨trivial, ?_⟩
    cases call with
    | startup => exact (startup_meets (hidle rfl) hp).mono fun _ _ h _ => h
    | apply rel =>
      refine Protocol.meets_bind.mpr ((apply_meets (hidle rfl) hp hcall).mono ?_)
      exact fun _ _ h _ => h
  · exact fun hinv hdone => ⟨hinv, hdone, fun _ _ _ => rfl⟩
  · intro e s t hinv _ hevent
    cases e with
    | crash =>
      cases hevent
      exact ⟨hinv.process none, fun _ _ => idle_of_no_process rfl⟩
    | boot =>
      obtain ⟨-, hevent⟩ := ite_none_right_eq_some.mp hevent
      obtain ⟨b, hb, rfl⟩ := map_eq_some_iff.mp hevent
      refine ⟨hinv.process _, ?_⟩
      rintro i - - p ⟨⟩
      exact ⟨⟨b, hb, rfl⟩, nofun⟩

end Updater

/-- A host with these files, some versions on the blacklist and no process yet. -/
def Host.initial (files : String → Option Bytes) (blacklist : List String) : Host where
  files
  update := { blacklistedVersions := blacklist }

namespace Updater
open Host System

/-- Whatever is released, downloaded and started, and wherever a process crashes: the
executable is the one installed first or a verified one, and `Apply` starts no
version on the blacklist. As long as no save and no restoration fails, the
executable after a restoration is what it was before the update. -/
theorem executable_genuine (U : Updater) (reliable : Prop) (files : String → Option Bytes)
    (blacklist : List String) {initial : Bytes} (hinitial : files U.executable = some initial)
    {t : Pool Host UpdaterOp UpdaterOp.Ans UpdaterCall}
    (h : Reaches U.system.step (U.conduct reliable).admitted
      ⟨.initial files blacklist, fun _ => none⟩ t) :
    (∃ b, t.shared.files U.executable = some b ∧ t.shared.Genuine U initial b) ∧
    (∀ x ∈ t.shared.execed, x.1 ∉ x.2) ∧
    (reliable → ∀ x ∈ t.shared.restored, x.2 = x.1) := by
  have hstart : (U.protocol initial reliable).Holds
      ⟨.initial files blacklist, fun _ => none⟩ := by
    refine ⟨⟨⟨initial, hinitial, .inl rfl⟩, fun hne => absurd rfl hne, .inl rfl, nofun,
      fun _ hne => absurd rfl hne, nofun⟩, ?_⟩
    exact fun _ _ => idle_of_no_process rfl
  have hinv := ((U.protocol_sound initial reliable).holds h hstart).inv
  exact ⟨hinv.executable, hinv.execed, hinv.restored⟩

/-- The SHA-256 of the byte 2. -/
def secondDigest : String := "dbc1b4c900ffe48d575b5da5c638040125f65db0fe3e24494b76ea986457d986"

/-- An updater for executables of one byte, which is their version. -/
def sampleUpdater : Updater where
  sha256Hex payload := if payload = [2] then secondDigest else ""
  gunzip _ _ := .error "no gzip"
  tarMembers _ := []
  pathBase path := path
  executable := "adapter"
  goos := "linux"
  goarch := "amd64"
  parseURL _ := .ok ⟨"https", "h"⟩
  version b := toString (b.headD 0)

def sampleRelease (version : String) : BinaryUpdate where
  version
  url := "https://h"
  sha256 := secondDigest

def sampleFiles : String → Option Bytes := Function.update (fun _ => none) "adapter" (some [1])

def secondVersion : UpdaterEnv where
  payload := .ok [2]

def steps (count : Nat) : List (Pool.Action UpdaterCall UpdaterEnv HostEvent) :=
  List.replicate count (.run 0 secondVersion)

/-- The second version is installed and started, and does not come up. -/
def failedTrial : List (Pool.Action UpdaterCall UpdaterEnv HostEvent) :=
  .event .boot :: .start 0 .startup :: steps 4 ++
    .start 0 (.apply (sampleRelease "2")) :: steps 10 ++
    .event .boot :: .start 0 .startup :: steps 2 ++
    .run 0 { error := some "panel down" } :: steps 8

/-- What the conduct asks for, in a form that can be evaluated. -/
def checksStart (s : Host) (thread : Nat) (call : UpdaterCall) : Bool :=
  thread == 0 && s.process.any fun p =>
    match call with
    | .startup => !p.isReady
    | .apply _ => p.isReady

def checksOperation (op : UpdaterOp) (env : UpdaterEnv) : Bool :=
  match op with
  | .updateAndSave _ | .stat _ | .copyFile .. => env.error.isNone
  | _ => true

variable {reliable : Prop} {U : Updater} {s : Host}

lemma starts_of_checksStart {i : Nat} {call : UpdaterCall} (h : checksStart s i call) :
    (U.conduct reliable).starts s i call := by
  obtain ⟨hi, hp⟩ := (Bool.and_eq_true ..).mp h
  obtain ⟨p, hp, hready⟩ := (any_eq_true ..).mp hp
  refine ⟨beq_iff_eq.mp hi, p, hp, ?_⟩
  cases call with
  | startup => simpa using hready
  | apply rel => exact hready

lemma admits_of_checksOperation {i : Nat}
    {op : UpdaterOp} {env : UpdaterEnv} (h : checksOperation op env) :
    (U.conduct reliable).admits s i op env := by
  cases op with
  | updateAndSave | stat => exact fun _ => isNone_iff_eq_none.mp h
  | copyFile => exact fun _ _ => isNone_iff_eq_none.mp h
  | _ => exact trivial

theorem executable_genuine_of_failedTrial :
    ∃ t, Reaches sampleUpdater.system.step (sampleUpdater.conduct True).admitted
        ⟨.initial sampleFiles [], fun _ => none⟩ t ∧
      t.shared.execed = [("2", [])] ∧ t.shared.restored = [(some [1], some [1])] ∧
      (∃ b, t.shared.files "adapter" = some b ∧ t.shared.Genuine sampleUpdater [1] b) ∧
      (∀ x ∈ t.shared.execed, x.1 ∉ x.2) ∧ ∀ x ∈ t.shared.restored, x.2 = x.1 := by
  have hreach : Reaches sampleUpdater.system.step (sampleUpdater.conduct True).admitted
      ⟨.initial sampleFiles [], fun _ => none⟩ _ :=
    Reaches.start.runChecked (Conduct.admitted_of_checks starts_of_checksStart
      admits_of_checksOperation fun _ => trivial)
      (eq_some_of_isSome (o := runChecked _ (checks checksStart (fun _ => checksOperation)
        fun _ => true) _ failedTrial) (by decide +kernel))
  obtain ⟨hgen, hexeced, hrestored⟩ :=
    executable_genuine sampleUpdater True sampleFiles [] rfl hreach
  exact ⟨_, hreach, by decide +kernel, by decide +kernel, hgen, hexeced, hrestored trivial⟩

end Updater

end SingBox.Panel
