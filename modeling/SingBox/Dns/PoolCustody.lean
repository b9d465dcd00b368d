import SingBox.Dns.PoolState

/-! The pool has the custody of its connections: whatever the order of dials, calls and
resets, each step is one of those of a custody. -/

namespace SingBox.Dns.ConnPool
open Lib List ConnPool.Thread Option State

namespace State

variable {T : Type} [DecidableEq T]

/-- The step of the custody that one state makes to another. -/
structure Follows (mode : Mode) (l : Option (Nat × T)) (s s' : State T) : Prop where
  pooled : s'.Pooled mode
  step : Custody.Step (mode = .ordered) l s.custody s'.custody

section Follows

variable {mode : Mode} {l : Option (Nat × T)} {s s' : State T} {t : Thread T}
  {call k : Nat} {conn : T}

lemma follows_same (hs : s'.Pooled mode) (h : s'.custody = s.custody) : Follows mode l s s' :=
  ⟨hs, h ▸ .skip subset_rfl⟩

lemma follows_start (hs : s.Pooled mode) (hmode : ∀ m ∈ t.mode, m = mode)
    (hconn : t.connecting = []) (hold : t.old = []) (hpend : t.pending = [])
    (hcloses : t.closes s.states = ∅) : Follows mode l s (s.start t) :=
  follows_same (hs.start hmode hconn hold) (custody_start hcloses hpend)

lemma Follows.of_custody {s₀ : State T} (h : Follows mode l s₀ s') (hs : s.custody = s₀.custody) :
    Follows mode l s s' := by
  refine ⟨h.pooled, ?_⟩
  rw [hs]
  exact h.step

/-- What happens without a thread that has nothing in hand happens with it. -/
theorem Follows.of_rest (h : Follows mode l s s') (hpend : t.pending = [])
    (hcloses : t.closes s.states = ∅) : Follows mode l (s.start t) s' :=
  h.of_custody (custody_start hcloses hpend)

/-- A connection of the current state is removed, to be closed. A holder may give it up. -/
theorem follows_removeConn {holders : List (Nat × T)} (hs : s.Pooled mode) (hst : s.state = some k)
    (hholders : holders = s.holders ∨ ∃ holder, holders = s.holders.erase (holder, conn))
    (next : Next) (hmode : ∀ m ∈ (closing conn next).mode, m = mode)
    (hconn : (closing conn next).connecting = []) : Follows mode l s
      (({ s with holders }.update k (·.removeConn mode conn)).start (.closing conn next)) := by
  let rest : State T := { s with holders }
  have hrest : rest.Pooled mode := { hs with }
  have hval := hs.states k
  constructor
  · have hsame := congrArg (·.connecting) (hval.removeConn_eq conn)
    exact (hrest.update_same (hval.removeConn conn) hsame).start hmode hconn rfl
  · rw [← pool_of_state hst] at hval
    have hpool : rest.pool = s.pool := rfl
    have hd := (dropped_update hrest hst (·.removeConn mode conn)).trans
      (dropped_start (t := .closing conn next))
    rw [custody_closing, custody_update (s := rest) hst, hpool, hval.removeConn_eq]
    exact .drop hholders hd mem_dropped_closing

section
variable (hs : s.Pooled .single)
include hs

lemma takeShared_follows (hst : s.state = some k) (hshared : (s.states k).shared = some conn)
    (alive : Bool) : Follows .single l s (s.takeShared call k conn alive) := by
  unfold takeShared
  cases alive with
  | true =>
    constructor
    · exact (hs.update_same { hs.states k with } rfl).give ..
    · rw [if_pos rfl, custody_give, custody_update hst, ← pool_of_state hst]
      rw [← pool_of_state hst] at hshared
      exact .claim hshared (dropped_update hs hst _)
  | false => exact follows_removeConn hs hst (.inl rfl) _ (by simp [mode]) rfl

lemma startDial_follows (hst : s.state = some k)
    (hshared : (s.states k).shared = none) (hconn : (s.states k).connecting = none)
    (call : Nat) : Follows .single l s (s.startDial call k) := by
  let numbered : State T := { s with
    connects := Function.update s.connects (s.lastConnect + 1) {}
    lastConnect := s.lastConnect + 1 }
  let f : ConnPoolState T → ConnPoolState T := fun p =>
    { p with connecting := some (s.lastConnect + 1) }
  have hnumbered : numbered.Pooled .single := { hs with }
  have hnew : k ∉ s.threads.flatMap connecting := by
    intro hk
    have := (hs.connecting k hk).2
    simp [hconn] at this
  have hupdated : (numbered.update k f).Pooled .single :=
    hnumbered.update { hs.states k with connecting := fun _ => hshared, ordered := nofun }
      fun _ => rfl
  have hstart : ((numbered.update k f).start
      (.connectSingle call k (s.lastConnect + 1))).Pooled .single := by
    refine hupdated.add (by simp [mode]) (nodup_cons.mpr ⟨hnew, hs.connecting_nodup⟩)
      (forall_mem_singleton.mpr ⟨hs.state k hst, ?_⟩) rfl
    rw [update_self]
    rfl
  refine follows_same (hstart.start (by simp [mode]) rfl rfl) ?_
  change (((numbered.update k f).start _).start _).custody = _
  rw [custody_start rfl rfl, custody_start rfl rfl]
  exact custody_update_same numbered k fun _ => ⟨rfl, rfl, rfl, rfl⟩

lemma lockShared_follows (call : Nat) (alive : Bool) :
    Follows .single l s (s.lockShared call alive) := by
  unfold lockShared
  cases hst : s.state with
  | none => exact follows_same (hs.fail ..) rfl
  | some k =>
    dsimp only
    cases hshared : (s.states k).shared with
    | some conn => exact takeShared_follows hs hst hshared alive
    | none =>
      cases hconn : (s.states k).connecting with
      | some connect => exact follows_start hs (by simp [mode]) rfl rfl rfl rfl
      | none => exact startDial_follows hs hst hshared hconn call

lemma collectShared_follows (call k connect : Nat) (startDial alive : Bool) : Follows .single l s
        (s.collectShared call k connect startDial alive) := by
  unfold collectShared
  cases herr : (s.connects connect).err with
  | some err =>
    dsimp only
    split
    · exact follows_same (hs.fail ..) rfl
    · exact follows_start hs (by simp [mode]) rfl rfl rfl rfl
  | none =>
    dsimp only
    split
    · exact follows_same (hs.fail ..) rfl
    · next hst =>
      cases hshared : (s.states k).shared with
      | none => exact follows_start hs (by simp [mode]) rfl rfl rfl rfl
      | some conn => exact takeShared_follows hs (not_not.mp hst) hshared alive

end

lemma lockOrdered_follows (hs : s.Pooled .ordered) (call : Nat) (alive : Bool) :
    Follows .ordered l s (s.lockOrdered call alive) := by
  unfold lockOrdered
  cases hst : s.state with
  | none => exact follows_same (hs.fail ..) rfl
  | some k =>
    dsimp only
    cases hidle : (s.states k).idle with
    | nil => exact follows_start hs (by simp [mode]) rfl rfl rfl rfl
    | cons conn idle =>
      dsimp only
      have hval := hs.states k
      let pop : ConnPoolState T → ConnPoolState T := fun p =>
        { p with idle, idleElements := p.idleElements.erase conn }
      have hpopped : (s.update k pop).Pooled .ordered := hs.update_same (hval.pop hidle) rfl
      have hpool : s.pool.idle = conn :: idle := pool_of_state hst ▸ hidle
      split
      · refine ⟨hpopped.give .., ?_⟩
        rw [custody_give, custody_update hst]
        exact .pop hpool (dropped_update hs hst _)
      · let remove : ConnPoolState T → ConnPoolState T := fun p => { p with all := p.all.erase conn }
        have hrem : ((s.update k pop).update k remove).Pooled .ordered :=
          hpopped.update_same { hpopped.states k with } rfl
        refine ⟨hrem.start (by simp [mode]) rfl rfl, ?_⟩
        have hnone : s.pool.shared ≠ some conn := by
          rw [pool_of_state hst, (hval.ordered rfl).1]
          exact nofun
        have hst' : (s.update k pop).state = some k := hst
        rw [custody_closing, custody_update hst', pool_update hst, custody_update hst]
        exact .dropIdle hpool hnone (((dropped_update hs hst pop).trans
          (dropped_update hpopped hst' remove)).trans dropped_start) mem_dropped_closing

/-- A dial gives a connection, to be installed or to be closed. -/
theorem dialled_step (hnew : conn ∉ s.dialled)
    (ht : t.pending = [conn] ∧ t.closes s.states = ∅ ∨ ∃ next, t = .closing conn next) :
    Custody.Step (mode = .ordered) l s.custody
      ({ s with dialled := conn :: s.dialled }.start t).custody := by
  let dialled : State T := { s with dialled := conn :: s.dialled }
  obtain ⟨hpend, hcloses⟩ | ⟨next, rfl⟩ := ht
  · rw [custody_pending (s := dialled) hcloses hpend]
    exact .make hnew subset_rfl
  · rw [custody_closing]
    exact .makeDropped hnew (dropped_start (s := dialled)) mem_dropped_closing

variable {result : Except String T} {connect : Nat}

lemma connectDialed_follows (hs : (s.start (.connectSingle call k connect)).Pooled .single)
    (hfresh : s.fresh result) :
    Follows .single l (s.start (.connectSingle call k connect))
      (s.connectDialed call k connect result) := by
  refine Follows.of_rest ?_ rfl rfl
  cases result with
  | error err => exact follows_same (hs.replace (by simp [mode]) rfl rfl) (custody_start rfl rfl)
  | ok conn =>
    have hnew : conn ∉ s.dialled := of_decide_eq_true hfresh
    have hdialled : ({ s with dialled := conn :: s.dialled }.start
        (.connectSingle call k connect)).Pooled .single := { hs with }
    unfold connectDialed
    cases s.dialErr call k with
    | some err =>
      exact ⟨hdialled.replace (by simp [mode]) rfl rfl, dialled_step hnew (.inr ⟨_, rfl⟩)⟩
    | none => exact ⟨hdialled.replace (by simp [mode]) rfl rfl, dialled_step hnew (.inl ⟨rfl, rfl⟩)⟩

lemma installDialed_follows (hs : s.Pooled .ordered) (hfresh : s.fresh result) (call k : Nat) :
    Follows .ordered l s (s.installDialed call k result) := by
  cases result with
  | error err => exact follows_start hs (by simp [mode]) rfl rfl rfl rfl
  | ok conn =>
    have hnew : conn ∉ s.dialled := of_decide_eq_true hfresh
    have hdialled : { s with dialled := conn :: s.dialled }.Pooled .ordered := { hs with }
    unfold installDialed
    cases s.dialErr call k with
    | some err => exact ⟨hdialled.start (by simp [mode]) rfl rfl, dialled_step hnew (.inr ⟨_, rfl⟩)⟩
    | none => exact ⟨hdialled.start (by simp [mode]) rfl rfl, dialled_step hnew (.inl ⟨rfl, rfl⟩)⟩

lemma lockConnect_follows {result : Except Error T}
    (hs : (s.start (.connected k connect result)).Pooled .single) :
    Follows .single l (s.start (.connected k connect result)) (s.lockConnect k connect result) := by
  have hnew := (nodup_cons.mp hs.connecting_nodup).1
  have hshared : (s.states k).shared = none :=
    (hs.states k).connecting (hs.connecting k mem_cons_self).2
  let idle : ConnPoolState T → ConnPoolState T := fun p => { p with connecting := none }
  have hidle : (s.update k idle).Pooled .single :=
    hs.rest.update { hs.states k with connecting := nofun, ordered := nofun } (absurd · hnew)
  have hsame : (s.update k idle).custody = s.custody :=
    custody_update_same s k fun _ => ⟨rfl, rfl, rfl, rfl⟩
  cases result with
  | error err =>
    let failed : State T := { s.update k idle with
      connects := Function.update s.connects connect { err := some err } }
    have hfail : failed.Pooled .single := { hidle with }
    refine follows_same (hfail.start (by simp [mode]) rfl rfl) ?_
    change (failed.start (.connectDone connect)).custody = _
    rwa [custody_start rfl rfl, custody_start rfl rfl]
  | ok conn =>
    unfold lockConnect
    dsimp only
    split
    · next hst =>
      let share : ConnPoolState T → ConnPoolState T := fun p =>
        { p with connecting := none, shared := some conn, all := insert conn p.all }
      have hupdated : (s.update k share).Pooled .single :=
        hs.rest.update { hs.states k with connecting := nofun, ordered := nofun } (absurd · hnew)
      refine ⟨hupdated.start (by simp [mode]) rfl rfl, ?_⟩
      rw [← pool_of_state hst] at hshared
      have hstart : ((s.update k share).start (.connectDone connect)).custody =
          (s.update k share).custody := custody_start rfl rfl
      change Custody.Step _ _ _ ((s.update k share).start (.connectDone connect)).custody
      rw [hstart, custody_update hst, custody_pending rfl rfl]
      exact .share rfl rfl hshared (dropped_update hs.rest hst share)
    · let failed : State T := { s.update k idle with
        connects := Function.update s.connects connect { err := some .closed } }
      have hfail : failed.Pooled .single := { hidle with }
      refine ⟨hfail.start (by simp [mode]) rfl rfl, ?_⟩
      change Custody.Step _ _ _ (failed.start (.closing conn (.connectDone connect))).custody
      have hcustody : failed.custody = s.custody := hsame
      have hd : s.custody.dropped ⊆
          (failed.start (.closing conn (.connectDone connect))).custody.dropped :=
        hcustody ▸ dropped_start (s := failed)
      rw [custody_closing, hcustody, custody_pending rfl rfl]
      exact .abandon rfl hd mem_dropped_closing

variable (options : Options)

lemma lockInstall_follows (hs : (s.start (.dialed call k conn)).Pooled .ordered) :
    Follows .ordered l (s.start (.dialed call k conn)) (s.lockInstall options call k conn) := by
  unfold lockInstall
  split
  · next hst =>
    let track : ConnPoolState T → ConnPoolState T := fun p => { p with all := insert conn p.all }
    have hupdated : (s.update k track).Pooled .ordered :=
      hs.rest.update_same { hs.states k with } rfl
    refine ⟨(hupdated.give ..).releaseSlot options, ?_⟩
    rw [custody_releaseSlot, custody_give, custody_update hst, custody_pending rfl rfl]
    exact .install rfl rfl (dropped_update hs.rest hst track)
  · refine ⟨hs.rest.start (by simp [mode]) rfl rfl, ?_⟩
    have hd : s.custody.dropped ⊆ (s.start (.closing conn (.failed call .closed))).custody.dropped :=
      dropped_start
    rw [custody_closing, custody_pending rfl rfl]
    exact .abandon rfl hd mem_dropped_closing

lemma closing_follows {next : Next} (hs : (s.start (.closing conn next)).Pooled mode) :
    Follows mode l (s.start (.closing conn next))
      { s with closed := conn :: s.closed, threads := next.threads ++ s.threads } := by
  let closed : State T := { s with closed := conn :: s.closed }
  have hclosed : (closed.start (.closing conn next)).Pooled mode := { hs with }
  have hd : (s.start (.closing conn next)).custody.dropped ⊆ closed.custody.dropped := by
    refine dropped_mono hs (subset_cons_self _ _) (fun _ _ _ => rfl)
      (forall_mem_cons.mpr ⟨.inr fun conn' hconn' => .inl ?_, fun t ht => .inl ht⟩)
    rw [Finset.mem_singleton.mp hconn']
    exact mem_cons_self
  have hstep : Custody.Step (mode = .ordered) l (s.start (.closing conn next)).custody
      closed.custody := .skip hd
  have hnext t (hmode : t.mode = (closing conn next).mode)
      (hconnecting : t.connecting = (closing conn next).connecting) (hold : t.old = [])
      (hpend : t.pending = []) (hcloses : t.closes s.states = ∅) :
      Follows mode l (s.start (.closing conn next)) (closed.start t) := by
    refine ⟨hclosed.replace (hmode ▸ hs.mode _ mem_cons_self) hconnecting hold, ?_⟩
    rwa [custody_start (s := closed) hcloses hpend]
  cases next with
  | finish => exact ⟨hclosed.rest, hstep⟩
  | acquireShared call => exact hnext (.acquireShared call) rfl rfl rfl rfl rfl
  | acquireOrdered call => exact hnext (.acquireOrdered call) rfl rfl rfl rfl rfl
  | connected state connect err =>
    exact hnext (.connected state connect (.error err)) rfl rfl rfl rfl rfl
  | connectDone connect => exact hnext (.connectDone connect) rfl rfl rfl rfl rfl
  | failed call err => exact hnext (.failed call err) rfl rfl rfl rfl rfl

lemma closeState_follows (hs : (s.start (.closeState k)).Pooled mode) :
    Follows mode l (s.start (.closeState k))
      ((s.update k fun p => { p with cancelled := true }).start (.closeAll (s.states k).all)) := by
  let cancelled : State T := s.update k fun p => { p with cancelled := true }
  have hcancelled : cancelled.Pooled mode := hs.rest.update_same { hs.states k with } rfl
  have hsame : cancelled.custody = s.custody :=
    custody_update_same s k fun _ => ⟨rfl, rfl, rfl, rfl⟩
  refine ⟨hcancelled.start (by simp [Thread.mode]) rfl rfl, ?_⟩
  have heq : (cancelled.start (.closeAll (s.states k).all)).custody = { cancelled.custody with
      dropped := (cancelled.start (.closeAll (s.states k).all)).custody.dropped } := rfl
  have hd : (s.start (.closeState k)).custody.dropped ⊆
      (cancelled.start (.closeAll (s.states k).all)).custody.dropped := by
    refine dropped_mono hs (List.Subset.refl _) (fun j _ _ => ?_)
      (forall_mem_cons.mpr ⟨.inr fun conn hconn => ?_, fun t ht => .inl (mem_cons_of_mem _ ht)⟩)
    · change (cancelled.states j).all = (s.states j).all
      by_cases hjk : j = k
      · subst hjk
        rw [update_self]
      · rw [update_of_ne hjk]
    · exact .inr ⟨_, mem_cons_self, hconn⟩
  change Custody.Step _ _ _ (cancelled.start (.closeAll (s.states k).all)).custody
  rw [heq, hsame]
  exact .skip hd

lemma closeAll_follows {conns : Finset T} (hs : (s.start (.closeAll conns)).Pooled mode) :
    Follows mode l (s.start (.closeAll conns))
      ({ s with closed := conn :: s.closed }.start (.closeAll (conns.erase conn))) := by
  let closed : State T := { s with closed := conn :: s.closed }
  have hclosed : closed.Pooled mode := { hs.rest with }
  refine ⟨hclosed.start (by simp [Thread.mode]) rfl rfl, ?_⟩
  have hd : (s.start (.closeAll conns)).custody.dropped ⊆
      (closed.start (.closeAll (conns.erase conn))).custody.dropped := by
    refine dropped_mono hs (subset_cons_self _ _) (fun _ _ _ => rfl)
      (forall_mem_cons.mpr ⟨.inr fun conn' hconn' => ?_, fun t ht => .inl (mem_cons_of_mem _ ht)⟩)
    by_cases hne : conn' = conn
    · exact .inl (mem_cons.mpr (.inl hne))
    · exact .inr ⟨_, mem_cons_self, Finset.mem_erase.mpr ⟨hne, hconn'⟩⟩
  exact .skip hd

lemma turn_follows {move : Move T} (hs : (s.start t).Pooled options.mode)
    (hu : s.turn options t move = some s') : Follows options.mode l (s.start t) s' := by
  have hrest := hs.rest
  have hthr := hs.mode t mem_cons_self
  have hmode {m} h : options.mode = m := (hthr m h).symm
  unfold turn at hu
  split at hu
  · -- `acquireShared` takes the lock
    cases hu
    rw [hmode rfl] at hrest ⊢
    exact (lockShared_follows hrest _ _).of_rest rfl rfl
  · -- the shared dial is done
    obtain ⟨-, rfl⟩ := ite_some_none_eq_some.mp hu
    rw [hmode rfl] at hrest ⊢
    exact (collectShared_follows hrest _ _ _ _ _).of_rest rfl rfl
  · obtain ⟨err, -, rfl⟩ := map_eq_some_iff.mp hu
    refine Follows.of_rest (s := s) ?_ rfl rfl
    exact follows_same (hrest.fail _ _) rfl
  · obtain ⟨-, rfl⟩ := ite_some_none_eq_some.mp hu
    refine Follows.of_rest (s := s) ?_ rfl rfl
    split
    · exact follows_same (hrest.fail _ _) rfl
    · exact follows_start hrest hthr rfl rfl rfl rfl
  · -- the dial of `connectSingle` returns, and then it takes the lock
    obtain ⟨hfresh, rfl⟩ := ite_some_none_eq_some.mp hu
    rw [hmode rfl] at hs ⊢
    exact connectDialed_follows hs hfresh
  · cases hu
    rw [hmode rfl] at hs ⊢
    exact lockConnect_follows hs
  · cases hu
    refine Follows.of_rest (s := s) ?_ rfl rfl
    exact follows_same { hrest with } rfl
  · -- `acquireOrdered` takes the lock
    cases hu
    rw [hmode rfl] at hrest ⊢
    exact (lockOrdered_follows hrest _ _).of_rest rfl rfl
  · refine Follows.of_rest (s := s) ?_ rfl rfl
    split at hu
    · cases hu
      exact follows_start hrest hthr rfl rfl rfl rfl
    · obtain ⟨-, rfl⟩ := ite_some_none_eq_some.mp hu
      let taken : State T := { s with slots := s.slots + 1 }
      have htaken : taken.Pooled options.mode := { hrest with }
      exact (follows_start (t := .dialing _ _) htaken hthr rfl rfl rfl rfl).of_custody rfl
  · obtain ⟨-, hu⟩ := ite_none_left_eq_some.mp hu
    obtain ⟨err, -, rfl⟩ := map_eq_some_iff.mp hu
    refine Follows.of_rest (s := s) ?_ rfl rfl
    exact follows_same (hrest.fail _ _) rfl
  · -- the dial of `dialAndInstall` returns, and then it takes the lock
    obtain ⟨hfresh, rfl⟩ := ite_some_none_eq_some.mp hu
    rw [hmode rfl] at hrest ⊢
    exact (installDialed_follows hrest hfresh _ _).of_rest rfl rfl
  · cases hu
    rw [hmode rfl] at hs ⊢
    exact lockInstall_follows options hs
  · cases hu
    refine Follows.of_rest (s := s) ?_ rfl rfl
    exact follows_same ((hrest.fail _ _).releaseSlot options) (custody_releaseSlot _ _)
  · -- connections are closed
    cases hu
    exact closing_follows hs
  · cases hu
    exact closeState_follows hs
  · obtain ⟨-, rfl⟩ := ite_some_none_eq_some.mp hu
    exact closeAll_follows hs
  · obtain ⟨hempty, rfl⟩ := ite_some_none_eq_some.mp hu
    refine Follows.of_rest (s := s) ?_ rfl hempty
    exact follows_same hrest rfl
  · cases hu

variable {holder : Nat}

lemma putDown_follows (hs : s.Pooled mode)
    (hconn : conn ∉ s.pool.all ∨ conn ∈ s.pool.idle ∨ mode = .single) :
    Follows mode l s (s.putDown holder conn) := by
  refine ⟨{ hs with }, .putDown ?_ subset_rfl⟩
  exact hconn.imp_right fun h => h.imp_right fun h => by rw [h]; rfl

/-- A holder gives up a connection that the pool has not, and closes it. -/
theorem close_follows (hs : s.Pooled mode) (hconn : conn ∉ s.pool.all) :
    Follows mode l s ((s.putDown holder conn).start (.closing conn .finish)) := by
  have hdown : (s.putDown holder conn).Pooled mode := { hs with }
  have hd : s.custody.dropped ⊆
      ((s.putDown holder conn).start (.closing conn .finish)).custody.dropped :=
    dropped_start (s := s.putDown holder conn)
  exact ⟨hdown.start (by simp [Thread.mode]) rfl rfl, .putDown (.inl hconn) hd⟩

lemma push_follows (hs : s.Pooled .ordered) (hst : s.state = some k)
    (hall : conn ∈ (s.states k).all) (hidle : conn ∉ (s.states k).idleElements) :
    Follows .ordered (some (holder, conn)) s
        ((s.putDown holder conn).update k (·.pushBack conn)) := by
  have hdown : (s.putDown holder conn).Pooled .ordered := { hs with }
  have hval := hs.states k
  refine ⟨hdown.update_same (hval.pushBack hidle) rfl, ?_⟩
  have hpool : (s.putDown holder conn).pool = s.pool := rfl
  have hd : s.custody.dropped ⊆
      ((s.putDown holder conn).update k (·.pushBack conn)).custody.dropped :=
    dropped_update hdown hst _
  rw [hval.idleElements] at hidle
  rw [← pool_of_state hst] at hall hidle
  rw [custody_update (s := s.putDown holder conn) hst, hpool]
  exact .push rfl hall hidle hd

lemma release_follows (hs : s.Pooled options.mode) (holder : Nat) (conn : T)
    (reuse alive : Bool) (hl : reuse → l = some (holder, conn)) :
    Follows options.mode l s (s.release options holder conn reuse alive) := by
  unfold release
  dsimp only
  split
  · next hst => exact close_follows hs (notMem_of_none (s := s) hst conn)
  · next k hst =>
    have hst : s.state = some k := hst
    split
    · next hall => exact close_follows hs (by rw [pool_of_state hst]; exact hall)
    · next hall =>
      split
      · exact follows_removeConn hs hst (.inr ⟨holder, rfl⟩) .finish (by simp [mode]) rfl
      · next hkeep =>
        have hreuse : reuse := by
          cases reuse with
          | false => simp at hkeep
          | true => rfl
        split
        · next hpush =>
          obtain ⟨hmode, hidle⟩ := hpush
          rw [hl hreuse]
          rw [hmode] at hs ⊢
          exact push_follows hs hst (not_not.mp hall) hidle
        · next hkept =>
          refine putDown_follows hs (.inr ?_)
          cases hmode : options.mode with
          | single => exact .inr rfl
          | ordered =>
            have hidle : conn ∈ (s.states k).idleElements :=
              not_not.mp fun hidle => hkept ⟨hmode, hidle⟩
            rw [(hs.states k).idleElements, ← pool_of_state hst] at hidle
            exact .inl hidle

lemma invalidate_follows (hs : s.Pooled options.mode) (holder : Nat)
    (conn : T) : Follows options.mode l s (s.invalidate options holder conn) := by
  unfold invalidate
  dsimp only
  split
  · next hst => exact close_follows hs (notMem_of_none (s := s) hst conn)
  · next k hst =>
    have hst : s.state = some k := hst
    split
    · next hall => exact putDown_follows hs (.inl (by rw [pool_of_state hst]; exact hall))
    · exact follows_removeConn hs hst (.inr ⟨holder, rfl⟩) .finish (by simp [mode]) rfl

section
variable (hs : s.Pooled mode)
include hs

/-- The connections of a state that is given up are to be closed. -/
theorem clear_follows {old : Nat} (hst : s.state = some old)
    (hs' : s'.Pooled mode) (hpool : s'.pool = {}) (hthrs : s'.threads = .closeState old :: s.threads)
    (hall : ∀ j ≤ s.lastState, (s'.states j).all = (s.states j).all)
    (hrest : s'.custody = { s.custody with
      tracked := s'.pool.all, idle := s'.pool.idle, shared := s'.pool.shared
      claimed := s'.pool.sharedClaimed, dropped := s'.custody.dropped })
    (hclosed : s'.closed = s.closed) : Follows mode l s s' := by
  refine ⟨hs', ?_⟩
  have hd : s.custody.dropped ⊆ s'.custody.dropped := by
    refine dropped_mono hs (by rw [hclosed]; exact List.Subset.refl _) (fun j hj _ => hall j hj) ?_
    intro t ht
    rw [hthrs]
    exact .inl (mem_cons_of_mem _ ht)
  rw [hrest, hpool]
  refine .clear hd fun conn hconn => ?_
  refine .inr ⟨.closeState old, by rw [hthrs]; exact mem_cons_self, ?_⟩
  have hconn : conn ∈ (s.states old).all := pool_of_state hst ▸ hconn
  rwa [closes, hall old (hs.state old hst)]

lemma closePool_follows : Follows mode l s s.close := by
  unfold close
  split
  · exact follows_same hs rfl
  · next old hst => exact clear_follows hs hst (hs.close hst) rfl rfl (fun _ _ => rfl) rfl rfl

lemma reset_follows : Follows mode l s s.reset := by
  unfold reset
  split
  · exact follows_same hs rfl
  · next old hst =>
    refine clear_follows hs hst (hs.reset hst) (Function.update_self ..) rfl (fun j hj => ?_) rfl rfl
    change (Function.update s.states (s.lastState + 1) {} j).all = _
    rw [Function.update_of_ne (by omega)]

end

lemma acquire_follows (hs : s.Pooled options.mode) :
    Follows options.mode l s (s.acquire options) := by
  let called : State T := { s with calls := s.calls + 1 }
  have hcalled : called.Pooled options.mode := { hs with }
  unfold acquire
  cases hmode : options.mode with
  | single | ordered =>
    rw [hmode] at hcalled
    exact (follows_start hcalled (by simp [mode]) rfl rfl rfl rfl).of_custody rfl

lemma acquireShared_follows (hs : s.Pooled options.mode) :
    Follows options.mode l s (s.acquireShared options) := by
  let called : State T := { s with calls := s.calls + 1 }
  have hcalled : called.Pooled options.mode := { hs with }
  unfold acquireShared
  split
  · exact follows_same (hcalled.fail _ _) rfl
  · next hmode =>
    refine (follows_start hcalled ?_ rfl rfl rfl rfl).of_custody rfl
    rw [not_not.mp hmode]
    simp [mode]

end Follows

end State

variable {T : Type} [DecidableEq T]

/-- The release of a connection for use by others. -/
def Action.released : Action T → Option (Nat × T)
  | .release holder conn true _ => some (holder, conn)
  | _ => none

section Runs

variable {options : Options} {s s' : State T} {action : Action T}

lemma step_follows (hs : s.Pooled options.mode) (hu : step options s action = some s') :
    State.Follows options.mode action.released s s' := by
  cases action with
  | acquire =>
    cases hu
    exact acquire_follows options hs
  | acquireShared =>
    cases hu
    exact acquireShared_follows options hs
  | release holder conn reuse alive =>
    cases hu
    refine release_follows options hs holder conn reuse alive ?_
    rintro rfl
    rfl
  | invalidate holder conn =>
    cases hu
    exact invalidate_follows options hs holder conn
  | reset =>
    cases hu
    exact reset_follows hs
  | close =>
    cases hu
    exact closePool_follows hs
  | contextDone call err =>
    cases hu
    exact follows_same { hs with } rfl
  | turn i move =>
    obtain ⟨t, ht, hu⟩ := bind_eq_some_iff.mp hu
    obtain ⟨hi, rfl⟩ := List.getElem?_eq_some_iff.mp ht
    let rest : State T := { s with threads := s.threads.eraseIdx i }
    have hperm := getElem_cons_eraseIdx_perm hi
    have hstart := hs.perm hperm
    have hcustody := custody_perm hperm
    have h := turn_follows (l := none) options hstart hu
    exact ⟨h.pooled, hcustody ▸ h.step⟩

end Runs

end SingBox.Dns.ConnPool
