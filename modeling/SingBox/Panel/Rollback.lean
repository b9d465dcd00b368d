import SingBox.Panel.Updater

/-! The executable is genuine at every moment, whatever is cut off by a crash, and a
restoration brings back what it held before. -/

namespace SingBox.Panel
open Lib List

namespace Updater

variable (U : Updater)

lemma backup_ne_executable : U.backup ≠ U.executable := by
  intro h
  have hlen := congrArg String.length h
  simp [backup] at hlen

lemma staging_ne_executable : U.staging ≠ U.executable := by
  intro h
  have hlen := congrArg String.length h
  simp [staging] at hlen

lemma staging_ne_backup : U.staging ≠ U.backup := by
  simp [staging, backup]

lemma backup_ne_empty : U.backup ≠ "" := by
  simp [backup]

end Updater

namespace Host

variable (U : Updater)

/-- The bytes are the executable in a payload that was downloaded for a release, with
the digest that the release has for this platform. -/
def Verified (s : Host) (b : Bytes) : Prop :=
  ∃ rel dl payload, (rel, payload) ∈ s.downloaded ∧ resolveDownload rel U.goos U.goarch = .ok dl ∧
    equalFold (U.sha256Hex payload) dl.sha256 = true ∧
    U.unpackExecutable payload (U.pathBase U.executable) = .ok b

/-- The bytes are those that were installed first, or verified. -/
def Genuine (initial : Bytes) (s : Host) (b : Bytes) : Prop :=
  b = initial ∨ s.Verified U b

/-- What holds at every moment. If no save and no restoration fails, moreover, an
update that is pending can be undone, and restorations bring back what there was. -/
structure Inv (U : Updater) (initial : Bytes) (reliable : Prop) (s : Host) : Prop where
  executable : ∃ b, s.files U.executable = some b ∧ s.Genuine U initial b
  backup : s.update.pendingVersion ≠ "" → ∀ b, s.files U.backup = some b → s.Genuine U initial b
  backupPath : s.update.backupPath = "" ∨ s.update.backupPath = U.backup
  execed : ∀ x ∈ s.execed, x.1 ∉ x.2
  pending : reliable → s.update.pendingVersion ≠ "" → ∃ b, s.before = some b ∧
    U.version b ≠ s.update.pendingVersion ∧
    (s.files U.backup = some b ∨ s.files U.executable = some b)
  restored : reliable → ∀ x ∈ s.restored, x.2 = x.1

/-- Between calls, the process is that of the executable; once it has come up, no
update is pending. -/
def Idle (reliable : Prop) (s : Host) : Prop :=
  reliable → ∀ p, s.process = some p →
    (∃ b, s.files U.executable = some b ∧ U.version b = p.currentVersion) ∧
      (p.isReady = true → s.update.pendingVersion = "")

variable {U : Updater} {initial : Bytes} {reliable : Prop} {s t : Host} {b : Bytes}
  {path : String}

@[simp] lemma files_put_self (s : Host) (path : String) (data : Option Bytes) :
    (s.put path data).files path = data := Function.update_self ..

lemma files_put_of_ne {path' : String} (h : path' ≠ path) (s : Host) (data : Option Bytes) :
    (s.put path data).files path' = s.files path' := Function.update_of_ne h ..

lemma idle_of_no_process (h : s.process = none) : s.Idle U reliable := by
  intro _ p hp
  cases h.symm.trans hp

namespace Inv
variable (h : s.Inv U initial reliable)
include h

lemma put (hexe : U.executable ≠ path) (hback : U.backup ≠ path)
    (data : Option Bytes) : (s.put path data).Inv U initial reliable := by
  constructor
  · rw [files_put_of_ne hexe]
    exact h.executable
  · rw [files_put_of_ne hback]
    exact h.backup
  · exact h.backupPath
  · exact h.execed
  · rw [files_put_of_ne hback, files_put_of_ne hexe]
    exact h.pending
  · exact h.restored

/-- The executable is kept as a backup when no update is pending. -/
theorem put_backup (hb : s.files U.executable = some b)
    (hpend : reliable → s.update.pendingVersion = "") :
    (s.put U.backup (some b)).Inv U initial reliable := by
  have hother := files_put_of_ne U.backup_ne_executable.symm s (some b)
  obtain ⟨b', hb', hgen⟩ := h.executable
  cases hb.symm.trans hb'
  refine ⟨⟨b, hother.trans hb, hgen⟩, fun _ b' hb' => ?_, h.backupPath, h.execed, ?_, h.restored⟩
  · rw [files_put_self] at hb'
    cases hb'
    exact hgen
  · exact fun hrel hne => absurd (hpend hrel) hne

/-- The executable is replaced while its backup is there. -/
theorem put_executable (hgen : s.Genuine U initial b)
    (hback : reliable → s.update.pendingVersion ≠ "" → s.files U.backup = s.before) :
    (s.put U.executable (some b)).Inv U initial reliable := by
  have hother := files_put_of_ne U.backup_ne_executable s (some b)
  refine ⟨⟨b, files_put_self .., hgen⟩, ?_, h.backupPath, h.execed, ?_, h.restored⟩
  · rw [hother]
    exact h.backup
  · intro hrel hne
    obtain ⟨b', hbefore, hver, -⟩ := h.pending hrel hne
    exact ⟨b', hbefore, hver, .inl ((hother.trans (hback hrel hne)).trans hbefore)⟩

/-- The backup goes once the executable is as before. -/
theorem remove_backup
    (hexe : reliable → s.update.pendingVersion ≠ "" → s.files U.executable = s.before) :
    (s.put U.backup none).Inv U initial reliable := by
  have hother := files_put_of_ne U.backup_ne_executable.symm s none
  refine ⟨?_, ?_, h.backupPath, h.execed, ?_, h.restored⟩
  · rw [hother]
    exact h.executable
  · rw [files_put_self]
    exact fun _ _ => nofun
  · intro hrel hne
    obtain ⟨b', hbefore, hver, -⟩ := h.pending hrel hne
    refine ⟨b', hbefore, hver, .inr ?_⟩
    exact (hother.trans (hexe hrel hne)).trans hbefore

lemma settle {u : UpdateState} (hver : u.pendingVersion = "") (hpath : u.backupPath = "") :
    Inv U initial reliable { s with update := u } :=
  ⟨h.executable, fun hne => absurd hver hne, .inl hpath, h.execed,
    fun _ hne => absurd hver hne, h.restored⟩

lemma process (p : Option Process) : Inv U initial reliable { s with process := p } := { h with }

lemma noteRestored (hrestored : reliable → s.files U.executable = s.before) :
    (s.noteRestored U).Inv U initial reliable := by
  refine { h with restored := fun hrel x hx => ?_ }
  obtain rfl | hx := mem_cons.mp hx
  · exact hrestored hrel
  · exact h.restored hrel x hx

end Inv

lemma Genuine.mono (h : s.Genuine U initial b)
    (hdown : ∀ {x}, x ∈ s.downloaded → x ∈ t.downloaded) : t.Genuine U initial b := by
  obtain heq | ⟨rel, dl, payload, hmem, hrest⟩ := h
  · exact .inl heq
  · exact .inr ⟨rel, dl, payload, hdown hmem, hrest⟩

variable (h : s.Inv U initial reliable)
include h

lemma Inv.downloaded (x : BinaryUpdate × Bytes) :
    Inv U initial reliable { s with downloaded := x :: s.downloaded } := by
  obtain ⟨b, hb, hgen⟩ := h.executable
  refine ⟨⟨b, hb, hgen.mono (mem_cons_of_mem _)⟩, fun hne b hb => ?_, h.backupPath,
    h.execed, h.pending, h.restored⟩
  exact (h.backup hne b hb).mono (mem_cons_of_mem _)

lemma Inv.begin (hpend : reliable → s.update.pendingVersion = "") :
    Inv U initial reliable { s with before := s.files U.executable } :=
  { h with pending := fun hrel hne => absurd (hpend hrel) hne }

lemma Inv.record {version : String} (hgen : ∀ b, s.files U.backup = some b → s.Genuine U initial b)
    (hbefore : reliable → ∃ b, s.before = some b ∧ U.version b ≠ version ∧
      s.files U.backup = some b) :
    (s.save U (.pending version U.backup) none).Inv U initial reliable := by
  refine ⟨h.executable, fun _ => hgen, .inr rfl, h.execed, fun hrel _ => ?_, h.restored⟩
  obtain ⟨b, hb, hver, hback⟩ := hbefore hrel
  exact ⟨b, hb, hver, .inl hback⟩

lemma Inv.start {version : Option String}
    (hallow : ∀ v, version = some v → v ∉ s.update.blacklistedVersions) (p : Option Process) :
    Inv U initial reliable { s with
      execed := (version.map fun v => (v, s.update.blacklistedVersions)).toList ++ s.execed
      process := p } := by
  refine { h with execed := fun x hx => ?_ }
  obtain hx | hx := mem_append.mp hx
  · cases version with
    | none => cases hx
    | some v =>
      cases mem_singleton.mp hx
      exact hallow v rfl
  · exact h.execed x hx

end Host

end SingBox.Panel
