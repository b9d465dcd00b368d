import SingBox.Panel.Applied
import SingBox.Panel.Installed

/-! The calls of manager and poller, side by side, keep the users on record and the
users installed together. -/

namespace SingBox.Panel
open Lib Adapter Machine Option List

namespace Libraries
open System

variable (L : Libraries)

/-- How calls and their surroundings have to behave. A Box goes only when no call
has users to record. Users go under a tag that no other call has users to record
for, and that is the tag of the inbound in the Box that runs. A save that is to
change or to clear the tag of users may fail only where there is no tag. -/
def conduct : Conduct L.system where
  admits s _ op env :=
    match op with
    | .closeInstance => s.installing = []
    | .replaceInboundUsers tag _ inboundID => env.replaceError = none →
        (∀ x ∈ s.installing, x.2.tag ≠ tag) ∧ ∀ b, s.running = some b → b.Pairs inboundID tag
    | .updateAndSave (.applied cfg _) => env.saveError ≠ none → ∀ ib ∈ cfg.managedInbounds,
        s.store.userETag ib.inboundID = ""
    | .updateAndSave (.users inboundID ..) => env.saveError ≠ none → s.store.userETag inboundID = ""
    | _ => True

/-- Users that a call is yet to record are those of the inbound it polls. -/
def protocol : Protocol L.conduct where
  inv := Adapter.Inv
  rely := Adapter.Rely
  idle i s := s.Clear i
  during i call s := ∀ m, (i, m) ∈ s.installing → call.polls = some m.inboundID
  done i _ s := s.Clear i
  rely_refl := Adapter.Rely.refl
  rely_trans := Adapter.Rely.trans
  idle_rely h ht := h.rely ht
  during_rely h ht m hm := h m ((ht.own m).mp hm)
  done_rely h ht := h.rely ht

variable {L : Libraries} {α : Type} {i : Nat} {call : AdapterCall} {Q : α → Adapter → Prop}
  {s : Adapter} {op : AdapterOp}

lemma meets_quiet (hop : op.quiet) {next : op.Ans → AdapterProg α} (hclear : s.Clear i)
    (h : ∀ t u env answer, Rely i s t → Rely i s u → t.exec i op env = some (u, answer) →
      L.protocol.Meets i call Q (next answer) u) : L.protocol.Meets i call Q (.call op next) s := by
  intro t ht hinv env u answer _ hexec
  have hquiet := AdapterOp.quiet_exec hop hexec
  have hu := ht.trans (hquiet.rely i)
  refine ⟨hquiet.inv hinv, fun j _ => hquiet.rely j, ?_, h t u env answer ht hu hexec⟩
  exact fun m hm => absurd hm (hclear.rely hu m)

variable {inboundID : String}

lemma setInboundStatus_meets {loadStatus : UserLoadStatus}
    {message : String} {unsaved saved : List String} (hclear : s.Clear i) :
    L.protocol.Meets i call (fun _ t => t.Clear i)
      (Poller.setInboundStatus inboundID loadStatus message unsaved saved) s := by
  refine meets_quiet rfl hclear ?_
  intro t u env answer _ hu _
  cases answer with
  | none | some err => exact hclear.rely hu

lemma handleFetchError_meets {err : FetchError} {hasPrev : Bool}
    {prevRevision : String} (hclear : s.Clear i) : L.protocol.Meets i call (fun _ t => t.Clear i)
      (Poller.handleFetchError inboundID err hasPrev prevRevision) s := by
  unfold Poller.handleFetchError
  split
  · exact setInboundStatus_meets hclear
  · refine meets_quiet rfl hclear ?_
    intro t u env answer _ hu _
    exact setInboundStatus_meets (hclear.rely hu)
  · split
    · exact setInboundStatus_meets hclear
    · exact setInboundStatus_meets hclear

variable {managedInbound : ManagedInbound} {configRevision : String}

section
variable (hclear : s.Clear i)
include hclear

lemma validateSnapshot_meets {snap : UserSnapshot} :
    L.protocol.Meets i call (fun _ t => Rely i s t)
      (Poller.validateSnapshot snap inboundID managedInbound configRevision) s := by
  refine meets_quiet rfl hclear ?_
  intro t u env answer _ hu _
  dsimp only [Prog.ret_bind]
  repeat' split
  all_goals exact hu

/-- Users are installed, and then recorded. -/
theorem installUsers_meets {newETag : String} {snapshot : UserSnapshot}
    (hdeliv : (inboundID, newETag, snapshot) ∈ s.delivered) :
    L.protocol.Meets i (.pollInbound inboundID managedInbound configRevision)
      (fun _ t => t.Clear i) (Poller.installUsers inboundID managedInbound snapshot newETag) s := by
  intro t ht hinv env u answer hadm hexec
  have hclear := hclear.rely ht
  obtain ⟨hlocked, hexec⟩ := ite_none_right_eq_some.mp hexec
  split at hexec
  · cases hexec
    refine ⟨hinv, fun j _ => .refl j t, fun m hm => absurd hm (hclear m), ?_⟩
    exact setInboundStatus_meets hclear
  · next b hb =>
    split at hexec
    · cases hexec
      refine ⟨hinv, fun j _ => .refl j t, fun m hm => absurd hm (hclear m), ?_⟩
      exact setInboundStatus_meets hclear
    · next herror =>
      cases hexec
      obtain ⟨htags, hpairs⟩ := hadm herror
      have hmark := hclear.mark_installed (b := b)
        (m := ⟨inboundID, managedInbound.tag, convertUsers snapshot⟩)
      refine ⟨hinv.installed hb htags (hpairs b hb), fun j hj => rely_installed hj hlocked, ?_, ?_⟩
      · intro m hm
        cases (hmark m).mp hm
        rfl
      -- The record; until it is made, the installation is the call's own.
      intro v hv hinv' env' w answer' hadm' hexec'
      cases hexec'
      have hdeliv := hv.delivered (ht.delivered hdeliv)
      refine ⟨hinv'.recorded (fun m => (hv.own m).trans (hmark m)) rfl hdeliv hadm', ?_, ?_, ?_⟩
      · exact fun j hj => rely_recorded hj
      · exact fun m hm => absurd hm (clear_recorded m)
      · dsimp only [Prog.ret_bind]
        split
        · exact clear_recorded
        · exact clear_recorded

lemma pollInbound_meets :
    L.protocol.Meets i (.pollInbound inboundID managedInbound configRevision)
      (fun _ t => t.Clear i) (Poller.pollInbound inboundID managedInbound configRevision) s := by
  refine meets_quiet rfl hclear ?_
  intro t u env curState _ hu _
  have hclear := hclear.rely hu
  split
  · exact setInboundStatus_meets hclear
  split
  · exact setInboundStatus_meets hclear
  split
  · exact setInboundStatus_meets hclear
  refine meets_quiet rfl hclear ?_
  intro v w env' answer _ hw hexec
  have hclear := hclear.rely hw
  cases answer with
  | error err => exact handleFetchError_meets hclear
  | ok fetched =>
    obtain ⟨snapshot, newETag⟩ := fetched
    have hdeliv : (inboundID, newETag, snapshot) ∈ w.delivered := by
      simp only [Adapter.exec] at hexec
      split at hexec
      · cases hexec
      · cases hexec
        exact mem_cons_self
    dsimp only [Prog.ret_bind]
    refine Protocol.meets_bind.mpr ((validateSnapshot_meets hclear).mono ?_)
    intro result x hx
    have hclear := hclear.rely hx
    cases result with
    | none => exact installUsers_meets hclear (hx.delivered hdeliv)
    | some err =>
      cases err with
      | revisionConflict =>
        refine meets_quiet rfl hclear ?_
        intro _ y _ _ _ hy _
        exact setInboundStatus_meets (hclear.rely hy)
      | invalid => exact setInboundStatus_meets hclear

end

/-- The call has the lock, and no users to record. -/
structure Holding (i : Nat) (s : Adapter) : Prop where
  locked : s.locked = some i
  clear : s.Clear i

section
variable (h : Holding i s)
include h

variable {t : Adapter}

lemma Holding.rely (ht : Rely i s t) : Holding i t :=
  ⟨(ht.locked h.locked).1, h.clear.rely ht⟩

/-- A step with the lock held that leaves the installations alone. -/
theorem Holding.step (hinv : t.Inv)
    (hinst : t.installing = s.installing) (hdeliv : t.delivered = s.delivered)
    {p : AdapterProg α} (hp : L.protocol.Meets i call Q p t) :
    t.Inv ∧ (∀ j, j ≠ i → Rely j s t) ∧ L.protocol.during i call t ∧
      L.protocol.Meets i call Q p t := by
  refine ⟨hinv, fun j hj => rely_of_locked h.locked hj hinst hdeliv, ?_, hp⟩
  intro m hm
  exact absurd (hinst ▸ hm) (h.clear m)

variable {cfg : ConfigurationResponse} {etag : String}

lemma applyConfigLocked_meets :
    L.protocol.Meets i call (fun _ t => Holding i t) (Manager.applyConfigLocked L cfg etag) s := by
  unfold Manager.applyConfigLocked
  split
  · exact h
  intro t ht hinv env u answer hnil hexec
  cases hexec
  have h := h.rely ht
  have hshut : Holding i t.shut := { h with }
  have hinv : t.shut.Inv := .of_empty hnil nofun
  refine h.step hinv rfl rfl ?_
  refine meets_quiet rfl hshut.clear ?_
  intro v w env answer _ hw hexec
  have hhold := hshut.rely hw
  have hnil := (hw.locked hshut.locked).2.2 hnil
  cases answer with
  | error err =>
    refine meets_quiet rfl hhold.clear ?_
    intro _ x _ _ _ hx _
    exact hhold.rely hx
  | ok box =>
    have hbox : box.config = cfg := by
      simp only [Adapter.exec] at hexec
      split at hexec
      · cases hexec
      · cases hexec
        rfl
    subst hbox
    -- The new Box runs, and is not on record yet.
    intro x hx hinv env y answer _ hexec
    cases hexec
    have hnil := (hx.locked hhold.locked).2.2 hnil
    have hhold := hhold.rely hx
    have hinv : Adapter.Inv { x with running := some box, applying := true } :=
      .of_empty hnil fun happlying => by cases happlying
    refine hhold.step hinv rfl rfl ?_
    intro z hz hinv env z' answer hadm hexec
    cases hexec
    obtain ⟨hlocked, hrun, hempty⟩ := hz.locked hhold.locked
    have hhold : Holding i z := ⟨hlocked, clear_of_nil (hempty hnil)⟩
    refine hhold.step (.applied hrun (hempty hnil) hadm) rfl rfl ?_
    exact ⟨hlocked, clear_of_nil (hempty hnil)⟩

lemma applyStrategy_meets :
    L.protocol.Meets i call (fun _ t => Holding i t) (Manager.applyStrategy L cfg etag) s := by
  unfold Manager.applyStrategy
  dsimp only
  split
  · exact applyConfigLocked_meets h
  split
  · refine meets_quiet rfl h.clear ?_
    intro t u env answer _ hu _
    cases answer with
    | none | some err => exact h.rely hu
  · exact h

lemma bootstrapLocked_meets :
    L.protocol.Meets i call (fun _ t => Holding i t) (Manager.bootstrapLocked L) s := by
  refine meets_quiet rfl h.clear ?_
  intro t u env answer _ hu _
  have h := h.rely hu
  dsimp only [Prog.ret_bind]
  split
  · exact h
  · split
    · exact h
    · refine meets_quiet rfl h.clear ?_
      intro _ v _ _ _ hv _
      exact applyConfigLocked_meets (h.rely hv)

lemma pollConfigurationLocked_meets :
    L.protocol.Meets i call (fun _ t => Holding i t) (Manager.pollConfigurationLocked L) s := by
  refine meets_quiet rfl h.clear ?_
  intro t u env curState _ hu _
  have h := h.rely hu
  refine meets_quiet rfl h.clear ?_
  intro t' u' env' answer _ hu' _
  have h := h.rely hu'
  dsimp only [Prog.ret_bind]
  split
  · exact h
  · exact h
  · split
    · exact h
    · refine meets_quiet rfl h.clear ?_
      intro _ v _ _ _ hv _
      exact applyStrategy_meets (h.rely hv)

end

/-- Taking and giving back the lock shows nothing to others. -/
theorem withLock_meets {p : AdapterProg (Option String)} (hclear : s.Clear i)
    (hp : ∀ t, Holding i t → L.protocol.Meets i call (fun _ u => Holding i u) p t) :
    L.protocol.Meets i call (fun _ t => t.Clear i) (Manager.withLock p) s := by
  intro t ht hinv env u answer _ hexec
  obtain ⟨hlocked, ⟨⟩⟩ := ite_some_none_eq_some.mp hexec
  have hclear := hclear.rely ht
  have hhold : Holding i { t with locked := some i } := ⟨rfl, hclear⟩
  refine ⟨{ hinv with }, ?_, fun m hm => absurd hm (hclear m), ?_⟩
  · intro j _
    refine ⟨fun h => ?_, fun _ => Iff.rfl, id⟩
    cases hlocked.symm.trans h
  dsimp only [Prog.ret_bind]
  refine Protocol.meets_bind.mpr ((hp _ hhold).mono ?_)
  intro result v hv w hw hinv env x answer _ hexec
  cases hexec
  have hunlocked : Adapter.Inv { w with locked := none } := { hinv with }
  refine (hv.rely hw).step hunlocked rfl rfl ?_
  exact (hv.rely hw).clear

lemma program_meets {manage : ManagerCall} (hclear : s.Clear i) :
    L.protocol.Meets i call (fun _ t => t.Clear i) (Manager.program L manage) s := by
  cases manage with
  | bootstrap => exact withLock_meets hclear fun _ h => bootstrapLocked_meets h
  | pollConfiguration => exact withLock_meets hclear fun _ h => pollConfigurationLocked_meets h

lemma protocol_sound : L.protocol.Sound := by
  constructor
  · intro i call s _ hclear _
    refine ⟨fun m hm => absurd hm (hclear m), ?_⟩
    cases call with
    | manage call => exact Protocol.meets_bind.mpr ((program_meets hclear).mono fun _ _ h => h)
    | pollInbound inboundID managedInbound configRevision =>
      exact Protocol.meets_bind.mpr ((pollInbound_meets hclear).mono fun _ _ h => h)
  · exact fun hinv hclear => ⟨hinv, hclear, fun j _ => .refl j _⟩
  · exact fun {e} => e.elim

/-- From any state on disk: whenever no poll of an inbound is under way, and no new
Box runs that is yet to be recorded, the users on record for the inbound are those
installed in it. -/
theorem users_on_record_installed (L : Libraries) (store : State)
    {t : Pool Adapter AdapterOp AdapterOp.Ans AdapterCall}
    (h : Reaches L.system.step L.conduct.admitted ⟨{ store }, fun _ => none⟩ t)
    {id : String} (hpolls : ∀ i call p, t.threads i = some (call, p) → call.polls ≠ some id)
    (happlying : t.shared.applying = false) : t.shared.Matches id := by
  have hstart : L.protocol.Holds ⟨{ store }, fun _ => none⟩ := by
    refine ⟨.of_empty rfl ?_, fun i => clear_of_nil rfl⟩
    intro _ id b hb
    cases hb
  have hholds := L.protocol_sound.holds h hstart
  apply hholds.inv.matching happlying
  rintro ⟨⟨i, m⟩, hm, rfl⟩
  have hthr := hholds.threads i
  cases hi : t.threads i with
  | none =>
    rw [hi] at hthr
    exact hthr m hm
  | some c =>
    rw [hi] at hthr
    exact hpolls i c.1 c.2 hi (hthr.1 m hm)

open Panel.Manager (sampleLibraries firstConfig)

def firstPoll : AdapterCall := .pollInbound "1" ⟨"1", "a", "anytls", "hot_reload_users"⟩ "r1"

def oneUser : AdapterEnv where
  configuration := .ok (firstConfig, "e")
  users := .ok (⟨"u1", "r1", "n", "1", "anytls", [⟨"7", "x", none, ⟨"password", "p"⟩⟩]⟩, "u")

def steps (thread count : Nat) : List (Pool.Action AdapterCall AdapterEnv Empty) :=
  replicate count (.run thread oneUser)

def bootstrapAndPoll : List (Pool.Action AdapterCall AdapterEnv Empty) :=
  .start 0 (.manage .bootstrap) :: steps 0 9 ++ .start 1 firstPoll :: steps 1 6

/-- The poll has installed its users when the Box is replaced, and records them when
the new Box is on record. -/
def pollAcrossRecreation : List (Pool.Action AdapterCall AdapterEnv Empty) :=
  .start 0 (.manage .bootstrap) :: steps 0 9 ++ .start 1 firstPoll :: steps 1 4 ++
    .start 0 (.manage .pollConfiguration) :: steps 0 10 ++ steps 1 2

/-- What the conduct asks for, in a form that can be evaluated. -/
def checksOperation (s : Adapter) (op : AdapterOp) (env : AdapterEnv) : Bool :=
  match op with
  | .closeInstance => s.installing.isEmpty
  | .replaceInboundUsers tag _ inboundID => s.installing.isEmpty &&
      s.running.all fun b => b.config.managedInbounds.all fun ib =>
        decide (ib.tag = tag ↔ ib.inboundID = inboundID)
  | .updateAndSave _ => env.saveError.isNone
  | _ => true

lemma admits_of_checksOperation
    {env : AdapterEnv} (h : checksOperation s op env) : L.conduct.admits s i op env := by
  cases op with
  | closeInstance => exact isEmpty_iff.mp h
  | replaceInboundUsers tag users inboundID =>
    intro _
    obtain ⟨hnil, hpairs⟩ := (Bool.and_eq_true ..).mp h
    refine ⟨fun x hx => ?_, fun b hb ib hib => ?_⟩
    · simp [isEmpty_iff.mp hnil] at hx
    · rw [hb] at hpairs
      exact of_decide_eq_true (all_eq_true.mp hpairs ib hib)
  | updateAndSave u =>
    have hnone : env.saveError = none := isNone_iff_eq_none.mp h
    cases u with
    | applied | users => exact fun hne => absurd hnone hne
    | _ => exact trivial
  | _ => exact trivial

/-- When a run of two threads is at its end, no call is under way. -/
theorem idle_of_run {actions : List (Pool.Action AdapterCall AdapterEnv Empty)}
    {t : Pool Adapter AdapterOp AdapterOp.Ans AdapterCall}
    (hrun : run sampleLibraries.system.step ⟨{}, fun _ => none⟩ actions = some t)
    (hactions : ∀ a ∈ actions, touches 0 a ∨ touches 1 a)
    (h0 : (t.threads 0).isNone) (h1 : (t.threads 1).isNone) (i : Nat) :
    t.threads i = none := by
  match i with
  | 0 => exact isNone_iff_eq_none.mp h0
  | 1 => exact isNone_iff_eq_none.mp h1
  | i + 2 =>
    refine threads_run (fun a ha => ?_) hrun
    have ha := hactions a ha
    cases a with
    | start thread call | run thread env =>
      simp only [touches, beq_iff_eq, beq_eq_false_iff_ne] at ha ⊢
      omega
    | event e => exact e.elim

theorem users_on_record_installed_of_poll :
    ∃ t, Reaches sampleLibraries.system.step sampleLibraries.conduct.admitted
        ⟨{}, fun _ => none⟩ t ∧
      (∀ i, t.threads i = none) ∧ t.shared.applying = false ∧
      t.shared.store.userETag "1" = "u" ∧ t.shared.Matches "1" := by
  obtain ⟨t, ht, h0, h1, happlying, hetag⟩ : ∃ t, runChecked sampleLibraries.system.step
      (checks (fun _ _ _ => true) checksOperation fun _ => true) ⟨{}, fun _ => none⟩
      bootstrapAndPoll = some t ∧ (t.threads 0).isNone ∧ (t.threads 1).isNone ∧
        t.shared.applying = false ∧ t.shared.store.userETag "1" = "u" :=
    exists_end (by decide) fun _ => by decide
  have hidle := idle_of_run (run_of_runChecked ht) (by decide) h0 h1
  have hreach := Reaches.start.runChecked (Conduct.admitted_of_checks
    (C := sampleLibraries.conduct) (fun _ => trivial) admits_of_checksOperation fun _ => trivial) ht
  refine ⟨t, hreach, hidle, happlying, hetag, ?_⟩
  refine users_on_record_installed sampleLibraries {} hreach (fun i call p hi => ?_) happlying
  simp [hidle i] at hi

/-- A poll installs users, the Box is replaced and recorded, and then the poll
records: the tag is that of its users, and the new Box has none. -/
theorem recreated_box_without_users :
    ∃ t b, run sampleLibraries.system.step ⟨{}, fun _ => none⟩ pollAcrossRecreation = some t ∧
      (∀ i, t.threads i = none) ∧ t.shared.applying = false ∧ t.shared.running = some b ∧
      t.shared.store.userETag "1" = "u" ∧ b.config = firstConfig ∧ b.users "a" = none ∧
      ¬t.shared.Matches "1" := by
  refine ⟨_, _, eq_some_of_isSome (by decide), idle_of_run
    (eq_some_of_isSome _) (by decide) (by decide) (by decide),
    by decide, eq_some_of_isSome (by decide), by decide,
    by decide, by decide, fun hmatches => ?_⟩
  obtain ⟨snapshot, -, hinst⟩ := hmatches _ (eq_some_of_isSome (by decide))
    ⟨"1", "a", "anytls", "hot_reload_users"⟩ (by decide) rfl (by decide)
  exact absurd (hinst ▸ isSome_some) (by decide)

end Libraries

end SingBox.Panel
