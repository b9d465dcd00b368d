import SingBox.Panel.Manager

/-! The Box that runs and the configuration on record, over any sequence of calls
of the manager. -/

namespace SingBox.Panel
open Lib Option Adapter
open Option (eq_some_of_isSome)
open Machine (Reaches)

namespace Manager

variable {L : Libraries} {s t : Adapter} {call : ManagerCall} {env : AdapterEnv}
  {err : Option String}

/-- What holds between calls: the Box that runs has not been closed, and Boxes to
come have numbers of their own. -/
structure Ready (s : Adapter) : Prop where
  unlocked : s.locked = none
  fresh : ∀ n ∈ s.closed, n < s.created
  running : ∀ {b}, s.running = some b → b.serial < s.created ∧ b.serial ∉ s.closed

section
variable (h : Ready s)
include h

lemma Ready.shut : ∀ n ∈ s.shut.closed, n < s.created := by
  intro n hn
  obtain hn | hn := List.mem_append.mp hn
  · rw [mem_toList] at hn
    obtain ⟨b, hb, rfl⟩ := map_eq_some_iff.mp hn
    exact (h.running hb).1
  · exact h.fresh n hn

lemma Ready.save (thread : Nat) (u : AdapterUpdate) (saveError : Option String) :
    Ready (s.save thread u saveError) := by
  refine ⟨?_, ?_, ?_⟩
  · rw [save_locked]
    exact h.unlocked
  · rw [save_closed, save_created]
    exact h.fresh
  · rw [save_running, save_closed, save_created]
    exact h.running

lemma Ready.outcome (ht : Outcome L s call env t err) : Ready t := by
  cases ht with
  | untouched => exact { h with unlocked := rfl }
  | pending =>
    apply Ready.save
    exact { h with unlocked := rfl }
  | failed =>
    apply Ready.save
    exact ⟨rfl, h.shut, nofun⟩
  | applied =>
    have hfresh := h.shut
    apply Ready.save
    refine ⟨rfl, fun n hn => Nat.lt_succ_of_lt (hfresh n hn), ?_⟩
    rintro b ⟨⟩
    exact ⟨Nat.lt_succ_self _, fun hmem => Nat.lt_irrefl _ (hfresh _ hmem)⟩

lemma outcome_of_step {a : ManagerCall × AdapterEnv} (ht : step L s a = some t) :
    ∃ err, Outcome L s a.1 a.2 t err := by
  obtain ⟨⟨t', err⟩, hrun, rfl⟩ := map_eq_some_iff.mp ht
  exact ⟨err, run_outcome h.unlocked hrun⟩

end

def initial (store : State) : Adapter := { store }

lemma ready_of_reaches {admitted : Adapter → ManagerCall × AdapterEnv → Prop} {store : State}
    (h : Reaches (step L) admitted (initial store) s) : Ready s := by
  refine h.invariant ⟨rfl, nofun, nofun⟩ fun _ ht hs => ?_
  obtain ⟨err, hout⟩ := outcome_of_step hs ht
  exact hs.outcome hout

/-- After any calls: a poll that returns an error leaves the Box that runs as it was
just when no creation of a Box has failed in it. -/
theorem box_kept_iff (L : Libraries) (store : State) {s t : Adapter} {env : AdapterEnv}
    {err : String} {b : Box} (hs : Reaches (step L) (fun _ _ => True) (initial store) s)
    (hb : s.running = some b) (h : run L s .pollConfiguration env = some (t, some err)) :
    (t.running = some b ∧ b.serial ∉ t.closed) ↔
      ∀ cfg etag options, Creates L .pollConfiguration env cfg etag options →
        env.createError = none := by
  have hready := ready_of_reaches hs
  have hout := run_outcome hready.unlocked h
  have hopen := (hready.running hb).2
  generalize hres : some err = result at hout
  cases hout with
  | untouched lastCfg _ hcreates =>
    refine iff_of_true ⟨hb, hopen⟩ fun cfg etag options h => absurd h (hcreates cfg etag options)
  | pending cfg etag hdefers =>
    rw [save_running, save_closed]
    refine iff_of_true ⟨hb, hopen⟩ ?_
    rintro cfg' etag' options ⟨hfetch, -, hstrat⟩
    exact absurd hdefers (not_defers_of_strategy hstrat hfetch cfg etag)
  | failed cfg etag options err' hcreates herr =>
    refine iff_of_false ?_ ?_
    · rintro ⟨hrun, -⟩
      rw [save_running] at hrun
      cases hrun
    · intro hnone
      cases herr.symm.trans (hnone cfg etag options hcreates)
  | applied => cases hres

def sampleLibraries : Libraries where
  parseURL _ := .error "no url"
  stripManagedInboundUsers cfg := .ok cfg.singBoxConfigTemplate
  injectClickHouseService template _ _ := .ok template
  unmarshalOptions template := .ok template
  hostname := "h"

def sampleConfig (revision strategy inboundID tag : String) : ConfigurationResponse where
  revision
  apiVersion := "1"
  nodeID := "n"
  applyStrategy := ⟨strategy, "hot_reload_users"⟩
  pollIntervals := ⟨1, 1, 1, 1⟩
  managedInbounds := [⟨inboundID, tag, "anytls", "hot_reload_users"⟩]
  singBoxConfigTemplate := "t"

/-- The panel sends that configuration. -/
def delivers (cfg : ConfigurationResponse) : AdapterEnv where
  configuration := .ok (cfg, "e")

def firstConfig : ConfigurationResponse := sampleConfig "r1" "recreate_instance" "1" "a"

lemma eq_some_of_failed {σ ε : Type} {o : Option (σ × Option ε)} (h : o.isSome)
    (hfail : (o.get h).2.isSome) : o = some ((o.get h).1, some ((o.get h).2.get hfail)) := by
  rw [some_get]
  exact eq_some_of_isSome h

theorem box_kept_of_lost_connection :
    ∃ s t b err, Reaches (step sampleLibraries) (fun _ _ => True) (initial {}) s ∧
      s.running = some b ∧
      run sampleLibraries s .pollConfiguration { configuration := .error (.transport "lost") } =
        some (t, some err) ∧
      t.running = some b ∧ b.serial ∉ t.closed := by
  have hreach : Reaches (step sampleLibraries) (fun _ _ => True) (initial {}) _ :=
    Reaches.start.run (fun _ _ _ => trivial) (eq_some_of_isSome
      (o := Machine.run _ _ [(.bootstrap, delivers firstConfig)]) (by decide))
  refine ⟨_, _, _, _, hreach, eq_some_of_isSome (by decide),
    eq_some_of_failed (by decide) (by decide), ?_⟩
  refine (box_kept_iff sampleLibraries {} hreach (eq_some_of_isSome _)
    (eq_some_of_failed _ (by decide))).mpr ?_
  rintro cfg etag options ⟨⟨hfetched, -⟩, -⟩
  cases hfetched

/-- The Box is closed before a new one is created; if that fails, none runs. -/
theorem failed_creation_stops_box : ∃ s t b err, Machine.run (step sampleLibraries) (initial {})
        [(.bootstrap, delivers firstConfig)] = some s ∧ s.running = some b ∧
      run sampleLibraries s .pollConfiguration
        { delivers firstConfig with createError := some "address in use" } = some (t, some err) ∧
      t.running = none ∧ b.serial ∈ t.closed := by
  refine ⟨_, _, _, _, eq_some_of_isSome (by decide), eq_some_of_isSome (by decide),
    eq_some_of_failed (by decide) (by decide), ?_⟩
  decide

/-- The revision on record is that of the configuration that the Box was built
from. -/
def RevisionApplied (s : Adapter) : Prop :=
  ∀ b, s.running = some b → s.store.config.revision = b.config.revision

/-- A configuration that is only to be recorded has the revision of the Box that
runs. -/
def KeepsRevision (L : Libraries) (s : Adapter) (a : ManagerCall × AdapterEnv) : Prop :=
  ∀ cfg etag, Defers L a.1 a.2 cfg etag → ∀ b, s.running = some b → cfg.revision = b.config.revision

/-- One call after which saves have succeeded. -/
theorem Outcome.revisionApplied_iff {a : ManagerCall × AdapterEnv} (hs : RevisionApplied s)
    (hsave : a.2.saveError = none) (h : Outcome L s a.1 a.2 t err) :
    RevisionApplied t ↔ KeepsRevision L s a := by
  cases h with
  | untouched lastCfg _ _ hdefers =>
    exact iff_of_true hs fun cfg etag h => absurd h (hdefers cfg etag)
  | pending cfg etag hdefers =>
    have hrev : (Adapter.save { s with lastCfg := some cfg, locked := none } 0
        (.pending cfg etag) a.2.saveError).store.config.revision = cfg.revision := by
      rw [hsave]
      rfl
    unfold RevisionApplied
    rw [hrev, save_running]
    constructor
    · intro h cfg' etag' hdefers' b hb
      cases hdefers.1.unique hdefers'.1
      exact h b hb
    · intro h
      exact h cfg etag hdefers
  | failed cfg etag options err' hcreates =>
    obtain ⟨hfetch, -, hstrat⟩ := hcreates
    refine iff_of_true ?_ fun cfg' etag' h =>
      absurd h (not_defers_of_strategy hstrat hfetch cfg' etag')
    intro b hb
    rw [save_running] at hb
    cases hb
  | applied cfg etag options hcreates =>
    obtain ⟨hfetch, -, hstrat⟩ := hcreates
    refine iff_of_true ?_ fun cfg' etag' h =>
      absurd h (not_defers_of_strategy hstrat hfetch cfg' etag')
    intro b hb
    rw [save_running] at hb
    cases hb
    rw [hsave]
    rfl

/-- As long as every configuration that is only to be recorded has the revision of
the Box that runs, the revision on record is the applied one; and the first that
has another makes it wrong. -/
theorem revision_applied_iff (L : Libraries) (store : State) {t : Adapter}
    (h : Reaches (step L) (fun s a => a.2.saveError = none ∧ KeepsRevision L s a)
      (initial store) t) : RevisionApplied t ∧ ∀ {u a}, a.2.saveError = none → step L t a = some u →
      (RevisionApplied u ↔ KeepsRevision L t a) := by
  have hready := ready_of_reaches h
  have happlied : RevisionApplied t := by
    have hboth : Ready t ∧ RevisionApplied t := by
      refine h.invariant (P := fun s => Ready s ∧ RevisionApplied s) ⟨⟨rfl, nofun, nofun⟩, nofun⟩ ?_
      rintro s u a ⟨hsave, hkeeps⟩ hu ⟨hs, hrev⟩
      obtain ⟨err, hout⟩ := outcome_of_step hs hu
      exact ⟨hs.outcome hout, (hout.revisionApplied_iff hrev hsave).mpr hkeeps⟩
    exact hboth.2
  refine ⟨happlied, fun hsave hu => ?_⟩
  obtain ⟨err, hout⟩ := outcome_of_step hready hu
  exact hout.revisionApplied_iff happlied hsave

def secondConfig : ConfigurationResponse := sampleConfig "r2" "restart_process" "1" "a"

/-- A second configuration replaces the first. -/
theorem revision_applied_of_bootstrap : ∃ t b, Reaches (step sampleLibraries)
        (fun s a => a.2.saveError = none ∧ KeepsRevision sampleLibraries s a) (initial {}) t ∧
      t.running = some b ∧ t.store.config.revision = b.config.revision := by
  have hstart : Reaches (step sampleLibraries)
      (fun s a => a.2.saveError = none ∧ KeepsRevision sampleLibraries s a) (initial {}) _ :=
    .next .start ⟨rfl, fun _ _ h => ManagerCall.noConfusion h.2.1⟩
      (eq_some_of_isSome (o := step sampleLibraries _ (.bootstrap, delivers firstConfig))
        (by decide))
  have hreach := hstart.next (a := (.pollConfiguration, delivers secondConfig))
    ⟨rfl, fun cfg etag h => ?_⟩ (eq_some_of_isSome (by decide +kernel))
  · refine ⟨_, _, hreach, eq_some_of_isSome (by decide +kernel), ?_⟩
    exact (revision_applied_iff sampleLibraries {} hreach).1 _ (eq_some_of_isSome _)
  · cases h.1.1
    exact nomatch h.2.2

/-- A revision that is only recorded takes the place of the one that runs. -/
theorem pending_revision_recorded : ∃ t b, Machine.run (step sampleLibraries) (initial {})
        [(.bootstrap, delivers firstConfig),
          (.pollConfiguration, delivers (sampleConfig "r2" "manual" "1" "a"))] = some t ∧
      t.running = some b ∧ b.config.revision = "r1" ∧ t.store.config.revision = "r2" := by
  refine ⟨_, _, eq_some_of_isSome (by decide +kernel), eq_some_of_isSome (by decide +kernel), ?_⟩
  decide +kernel

end Manager

end SingBox.Panel
