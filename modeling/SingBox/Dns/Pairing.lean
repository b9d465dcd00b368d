import Mathlib.Data.List.Perm.Subperm
import SingBox.Dns.Multiplexer

/-! Which callback the multiplexer calls, how often and with what. The right to call it is in
one place at a time: with a call that acquires a connection, with a pending query, or with a
connection of its own. -/

namespace SingBox.Dns.Multiplexer
open Lib List Machine BitVec Machine Function
open BitVec (ofNat ofNat_add add_assoc toNat add_zero)
open Option (map_eq_some_iff some bind_some)

/-- The callbacks that were called and those that are still to be called, at each place that
has the right to. -/
def State.owners (s : State) : List Nat :=
  s.called.map Called.callback ++ (s.attempts.map Attempt.callback ++
    (s.singles.map Single.callback ++ s.queries.map fun entry => entry.2.callback))

/-- The right to call a callback is nowhere twice, and belongs to a call. -/
structure State.Owned (s : State) : Prop where
  nodup : s.owners.Nodup
  started : ∀ c ∈ s.owners, c < s.started.length

/-- No two queries are pending under one number, and everyone who works for a call has its
message. -/
structure State.Valid (s : State) : Prop where
  keys : (s.queries.map Prod.fst).Nodup
  attempts : ∀ a ∈ s.attempts, s.started[a.callback]? = some a.message
  writings : ∀ w ∈ s.writings, s.started[w.attempt.callback]? = some w.attempt.message
  singles : ∀ q ∈ s.singles, s.started[q.callback]? = some q.message
  queries : ∀ entry ∈ s.queries, s.started[entry.2.callback]? = some entry.2.message

/-! ## Pending queries -/

section Queries

variable {s : State} {queryId : BitVec 16} {p : PendingQuery} {κ ν : Type*}

/-- The entry under a key, and the others. -/
theorem perm_of_lookup [BEq κ] [LawfulBEq κ] {k : κ} {v : ν} {l : List (κ × ν)}
    (hl : (l.map Prod.fst).Nodup) (h : l.lookup k = some v) :
    l.Perm ((k, v) :: l.filter fun entry => entry.1 != k) := by
  induction l with
  | nil => cases h
  | cons entry l ih =>
    obtain ⟨k', v'⟩ := entry
    obtain ⟨hnew, hl⟩ := nodup_cons.mp hl
    rw [lookup_cons] at h
    by_cases hk : k = k'
    · subst hk
      rw [beq_self_eq_true] at h
      cases h
      have hothers : ∀ entry ∈ l, (entry.1 != k) := by
        intro entry hent
        rw [bne_iff_ne]
        rintro rfl
        exact hnew (mem_map.mpr ⟨entry, hent, rfl⟩)
      rw [filter_cons_of_neg (by simp), filter_eq_self.mpr hothers]
    · rw [beq_eq_false_iff_ne.mpr hk] at h
      rw [filter_cons_of_pos (by simpa using Ne.symm hk)]
      exact ((ih hl h).cons _).trans (List.Perm.swap _ _ _)

lemma filter_of_lookup_eq_none [BEq κ] [LawfulBEq κ] {k : κ} {l : List (κ × ν)}
    (h : l.lookup k = none) : (l.filter fun entry => entry.1 != k) = l := by
  apply filter_eq_self.mpr
  intro entry hent
  rw [lookup_eq_none_iff] at h
  have := h entry hent
  simp only [bne_iff_ne]
  rintro rfl
  simp at this

lemma mem_of_pending (h : s.pending queryId = some p) : (queryId, p) ∈ s.queries := by
  obtain ⟨l₁, l₂, hl, -⟩ := lookup_eq_some_iff.mp h
  rw [hl]
  simp

lemma take_of_none (h : s.pending queryId = none) : s.take queryId = (none, s) := by
  rw [State.take, State.without, h, filter_of_lookup_eq_none h]

lemma take_of_some (h : s.pending queryId = some p) :
    s.take queryId = (some p, s.without queryId) := by
  rw [State.take, h]

end Queries

/-! ## The right to call -/

section Owners

variable {s s' : State} {queryId : BitVec 16} {p : PendingQuery}

lemma owners_attempt (s : State) (a : Attempt) :
    { s with attempts := a :: s.attempts }.owners.Perm (a.callback :: s.owners) :=
  perm_middle

lemma owners_single (s : State) (q : Single) :
    { s with singles := q :: s.singles }.owners.Perm (q.callback :: s.owners) :=
  (perm_middle.append_left _).trans perm_middle

lemma owners_query (s : State) (entry : BitVec 16 × PendingQuery) :
    { s with queries := entry :: s.queries }.owners.Perm (entry.2.callback :: s.owners) :=
  ((perm_middle.append_left _).append_left _ |>.trans (perm_middle.append_left _)).trans perm_middle

lemma owners_perm (hcalled : s'.called = s.called) (hatts : s'.attempts.Perm s.attempts)
    (hsingles : s'.singles.Perm s.singles) (hqueries : s'.queries.Perm s.queries) :
    s'.owners.Perm s.owners := by
  unfold State.owners
  rw [hcalled]
  exact ((hatts.map _).append ((hsingles.map _).append (hqueries.map _))).append_left _

/-- Who takes a query has the right to call its callback. -/
theorem owners_without (hs : s.Valid) (h : s.pending queryId = some p) :
    s.owners.Perm (p.callback :: (s.without queryId).owners) := by
  have hperm : s.owners.Perm { s with
      queries := (queryId, p) :: s.queries.filter fun entry => entry.1 != queryId }.owners :=
    owners_perm rfl .rfl .rfl (perm_of_lookup hs.keys h)
  exact hperm.trans (owners_query (s.without queryId) (queryId, p))

lemma owners_erase_attempt {i : Nat} {a : Attempt} (h : s.attempts[i]? = some a) :
    s.owners.Perm (a.callback :: { s with attempts := s.attempts.eraseIdx i }.owners) := by
  obtain ⟨hi, rfl⟩ := List.getElem?_eq_some_iff.mp h
  have hperm : s.owners.Perm { s with
      attempts := s.attempts[i] :: s.attempts.eraseIdx i }.owners :=
    owners_perm rfl (getElem_cons_eraseIdx_perm hi).symm .rfl .rfl
  exact hperm.trans (owners_attempt { s with attempts := s.attempts.eraseIdx i } s.attempts[i])

lemma owners_erase_single {i : Nat} {q : Single} (h : s.singles[i]? = some q) :
    s.owners.Perm (q.callback :: { s with singles := s.singles.eraseIdx i }.owners) := by
  obtain ⟨hi, rfl⟩ := List.getElem?_eq_some_iff.mp h
  have hperm : s.owners.Perm { s with singles := s.singles[i] :: s.singles.eraseIdx i }.owners :=
    owners_perm rfl .rfl (getElem_cons_eraseIdx_perm hi).symm .rfl
  exact hperm.trans (owners_single { s with singles := s.singles.eraseIdx i } s.singles[i])

end Owners

/-! ## What is done with the right to call -/

/-- Who has the rights to call `callbacks` passes them on, or calls one of them without a
response. -/
structure Passes (s : State) (callbacks : List Nat) (s' : State) : Prop where
  valid : s'.Valid
  started : s'.started = s.started
  owners : s'.owners.Perm (callbacks ++ s.owners)
  called : s'.called = s.called ∨
    ∃ callback err, s'.called = { callback, response := none, err } :: s.called

section Passes

variable {options : Options} {s s' : State} {queryId : BitVec 16} {p : PendingQuery}
  {message : Msg} {c : Nat}

section
variable (h : s.Valid)
include h

lemma State.Valid.without (queryId : BitVec 16) : (s.without queryId).Valid := { h with
  keys := h.keys.sublist (filter_sublist.map _)
  queries entry hent := h.queries entry (mem_of_mem_filter hent) }

lemma State.Valid.call (c : Nat) (response : Option Msg) (err : Option String) :
    (s.call c response err).Valid := { h with }

lemma State.Valid.pending (hp : s.pending queryId = some p) :
    s.started[p.callback]? = some p.message := h.queries _ (mem_of_pending hp)

lemma State.Valid.written (i : Nat) : { s with writings := s.writings.eraseIdx i }.Valid :=
  { h with writings := fun w hw => h.writings w (mem_of_mem_eraseIdx hw) }

lemma State.Valid.single (i : Nat) : { s with singles := s.singles.eraseIdx i }.Valid :=
  { h with singles := fun q hq => h.singles q (mem_of_mem_eraseIdx hq) }

lemma passes_refl : Passes s [] s := ⟨h, rfl, .rfl, .inl rfl⟩

lemma passes_invalidate (conn : Nat) (cause : Cause) :
    Passes s [] (s.invalidate conn cause) := ⟨{ h with }, rfl, .rfl, .inl rfl⟩

lemma passes_call (callback : Nat) (err : Option String) :
    Passes s [callback] (s.call callback none err) :=
  ⟨h.call .., rfl, .rfl, .inr ⟨callback, err, rfl⟩⟩

end

variable {a : Attempt}

lemma passes_attempt (h : s.Valid) (ha : s.started[a.callback]? = some a.message) :
    Passes s [a.callback] { s with attempts := a :: s.attempts } where
  valid := { h with attempts := forall_mem_cons.mpr ⟨ha, h.attempts⟩ }
  started := rfl
  owners := owners_attempt s a
  called := .inl rfl

lemma passes_dispatch (h : s.Valid) (hc : s.started[c]? = some message) (retry : Bool) :
    Passes s [c] (s.dispatch options c message retry) := by
  unfold State.dispatch
  split
  · exact ⟨{ h with singles := forall_mem_cons.mpr ⟨hc, h.singles⟩ }, rfl, owners_single s _,
      .inl rfl⟩
  · exact passes_attempt
      (a := { callback := c, message, firstAttempt := true, retryReadError := retry }) h hc

lemma freeId_spec {fuel : Nat} {start : BitVec 16} (h : s.freeId fuel start = some queryId) :
    s.pending queryId = none := by
  induction fuel generalizing start with
  | zero => cases h
  | succ fuel ih =>
    unfold State.freeId at h
    dsimp only at h
    split at h
    · next hnone =>
      cases h
      exact Option.isNone_iff_eq_none.mp hnone
    · split at h
      · cases h
      · exact ih h

variable (h : s.Valid)
include h

section
variable (ha : s.started[a.callback]? = some a.message)
include ha

lemma passes_acquired (result : Except String (Nat × Bool)) :
    Passes s [a.callback] (s.acquired options a result) := by
  unfold State.acquired
  split
  · exact passes_call h ..
  · next conn created =>
    cases hr : s.register options a conn created with
    | none => exact passes_call h ..
    | some s' =>
      obtain ⟨queryId, hfree, rfl⟩ := map_eq_some_iff.mp hr
      refine ⟨⟨nodup_cons.mpr ⟨fun hmem => ?_, h.keys⟩, h.attempts, forall_mem_cons.mpr
        ⟨ha, h.writings⟩, h.singles, forall_mem_cons.mpr ⟨ha, h.queries⟩⟩, rfl, owners_query s _,
        .inl rfl⟩
      obtain ⟨entry, hent, rfl⟩ := mem_map.mp hmem
      have hnone := lookup_eq_none_iff.mp (freeId_spec hfree) entry hent
      simp at hnone

end

/-- A query that is pending is taken, and whoever took it goes on. -/
theorem Passes.take (hp : s.pending queryId = some p)
    (ht : Passes (s.without queryId) [p.callback] s') : Passes s [] s' :=
  { ht with owners := ht.owners.trans (owners_without h hp).symm }

/-- A write that failed takes the query under its number, which should be its own. -/
theorem passes_writeFailed {w : Writing}
    (hw : s.started[w.attempt.callback]? = some w.attempt.message) (err : String) :
    ∃ s₁ callbacks, Passes s₁ callbacks (s.writeFailed w err) ∧ s₁.started = s.started ∧
      s₁.called = s.called ∧
      ((∀ p ∈ s.pending w.queryId, p.callback = w.attempt.callback) →
        (callbacks ++ s₁.owners).Perm s.owners) := by
  unfold State.writeFailed
  cases hp : s.pending w.queryId with
  | none =>
    rw [take_of_none hp]
    exact ⟨s, [], passes_invalidate h .., rfl, rfl, fun _ => .rfl⟩
  | some p =>
    have htaken := (passes_invalidate (h.without w.queryId) w.conn (.other err)).valid
    rw [take_of_some hp]
    refine ⟨(s.without w.queryId).invalidate w.conn (.other err), [w.attempt.callback], ?_, rfl, rfl,
      fun hown => ?_⟩
    · dsimp only
      split
      · exact passes_attempt (a := { w.attempt with firstAttempt := false }) htaken hw
      · exact passes_call htaken ..
    · rw [← hown p rfl]
      exact (owners_without h hp).symm

lemma passes_completeContextDone (queryId : BitVec 16) (err : ContextError) :
    Passes s [] (s.completeContextDone queryId err) := by
  unfold State.completeContextDone
  cases hp : s.pending queryId with
  | none =>
    rw [take_of_none hp]
    exact passes_refl h
  | some p =>
    rw [take_of_some hp]
    apply Passes.take h hp
    dsimp only
    split
    · have hcalled := passes_call (passes_invalidate (h.without queryId) p.conn
        (.other err.text)).valid
        p.callback (some err.text)
      exact { hcalled with }
    · exact passes_call (h.without queryId) ..

lemma passes_completeConnDone (queryId : BitVec 16) (cause : Cause) :
    Passes s [] (s.completeConnDone options queryId cause) := by
  unfold State.completeConnDone
  cases hp : s.pending queryId with
  | none =>
    rw [take_of_none hp]
    exact passes_refl h
  | some p =>
    rw [take_of_some hp]
    apply Passes.take h hp
    dsimp only
    split
    · exact passes_dispatch (h.without queryId) (h.pending hp) _
    · exact passes_call (h.without queryId) ..

lemma passes_runTask {task : Task} (ht : s.runTask options task = some s') : Passes s [] s' := by
  cases task with
  | completeContextDone queryId ctx =>
    obtain ⟨err, -, rfl⟩ := map_eq_some_iff.mp ht
    exact passes_completeContextDone h queryId err
  | completeConnDone queryId conn =>
    obtain ⟨cause, -, rfl⟩ := map_eq_some_iff.mp ht
    exact passes_completeConnDone h queryId cause

lemma passes_modify (queryId : BitVec 16) {f : PendingQuery → PendingQuery}
    (hf : ∀ p, (f p).callback = p.callback ∧ (f p).message = p.message) (tasks : List Task) :
    Passes s [] { s.modify queryId f with tasks } := by
  have hsame {β : Type} (g : BitVec 16 × PendingQuery → β)
      (hg : ∀ entry, g (entry.1, f entry.2) = g entry) :
      (s.modify queryId f).queries.map g = s.queries.map g := by
    rw [State.modify, map_map]
    congr 1
    funext entry
    simp only [comp_apply]
    split
    · exact hg entry
    · rfl
  refine ⟨{ h with keys := ?_, queries := fun entry hent => ?_ }, rfl, .of_eq ?_, .inl rfl⟩
  · exact (hsame Prod.fst fun _ => rfl) ▸ h.keys
  · obtain ⟨entry', hent', rfl⟩ := mem_map.mp hent
    have hold := h.queries entry' hent'
    split
    · rwa [(hf entry'.2).1, (hf entry'.2).2]
    · exact hold
  · have hcalls := hsame (fun entry => entry.2.callback) fun entry => (hf entry.2).1
    exact congrArg (fun callbacks => s.called.map Called.callback ++
      (s.attempts.map Attempt.callback ++
      (s.singles.map Single.callback ++ callbacks))) hcalls

end Passes

/-! ## Answers and questions -/

/-- The query that is registered under the number of a message where the message comes from:
its callback, and what was asked. A connection of its own has a query under the number of its
message. -/
inductive Registered (s : State) : Action → Msg → Nat → Msg → Prop
  | shared {conn : Nat} {message : Msg} {p : PendingQuery}
      (h : s.pending (ofNat 16 message.id) = some p) :
      Registered s (.received conn (some message)) message p.callback p.message
  | single {i : Nat} {message : Msg} {q : Single} (h : s.singles[i]? = some q)
      (hid : message.id = q.message.id) :
      Registered s (.singleResponded i message) message q.callback q.message

lemma Registered.id_of_single {s : State} {i callback : Nat} {message m asked : Msg}
    (h : Registered s (.singleResponded i message) m callback asked) :
    ∃ q, s.singles[i]? = some q ∧ message.id = q.message.id := by
  cases h with
  | single h hid => exact ⟨_, h, hid⟩

/-- A callback is given the message for its query, with the number that the call had. -/
def Paired (s : State) (action : Action) (called : Called) (response : Msg) : Prop :=
  ∃ message asked, Registered s action message called.callback asked ∧
    s.started[called.callback]? = some asked ∧ response = { message with id := asked.id }

/-- A write that failed finds no other call's query under its number, and who asks on a
connection of its own is answered under the number of its message. -/
def ownId (s : State) : Action → Bool
  | .writeFailed i _ => s.writings[i]?.all fun w =>
    (s.pending w.queryId).all fun p => p.callback = w.attempt.callback
  | .singleResponded i response => s.singles[i]?.all fun q => response.id = q.message.id
  | _ => true

/-- A step keeps the queries and the rights to call in order, and gives a callback the answer
to its question. -/
structure Moves (s : State) (action : Action) (s' : State) : Prop where
  valid : s'.Valid
  owned : ownId s action = true → s.Owned → s'.Owned
  paired : ownId s action = true → ∀ called response, s'.called = called :: s.called →
    called.response = some response → Paired s action called response

section Steps

variable {options : Options} {s s' : State} {action : Action}

lemma State.Owned.perm (h : s.Owned) (hstart : s'.started = s.started)
    (hperm : s'.owners.Perm s.owners) : s'.Owned := by
  refine ⟨hperm.nodup_iff.mpr h.nodup, fun c hc => ?_⟩
  rw [hstart]
  exact h.started c (hperm.mem_iff.mp hc)

variable {callbacks : List Nat}

lemma Passes.response {called : Called} (h : Passes s callbacks s')
    (hs : s'.called = called :: s.called) : called.response = none := by
  obtain heq | ⟨callback, err, heq⟩ := h.called
  · rw [heq] at hs
    exact absurd hs (cons_ne_self _ _).symm
  · rw [heq] at hs
    rw [← (cons.inj hs).1]

/-- A step that only passes on rights that it has. -/
theorem Passes.moves {s₁ : State} (h : Passes s₁ callbacks s')
    (hstart : s₁.started = s.started) (hcalled : s₁.called = s.called)
    (howners : ownId s action → (callbacks ++ s₁.owners).Perm s.owners) :
    Moves s action s' := { h with
  owned hown hs := hs.perm (h.started.trans hstart) (h.owners.trans (howners hown))
  paired _ called response hs hresp := by
    rw [← hcalled] at hs
    rw [h.response hs] at hresp
    cases hresp }

lemma moves_exchangeAsync (hs : s.Valid) (message : Msg)
    (hu : step options s (.exchangeAsync message) = some s') :
    Moves s (.exchangeAsync message) s' := by
  cases hu
  let begun : State := { s with started := s.started ++ [message] }
  have hmono {c : Nat} {m : Msg} (h : s.started[c]? = some m) : begun.started[c]? = some m := by
    rwa [List.getElem?_append_left (List.getElem?_eq_some_iff.mp h).1]
  have hbegun : begun.Valid :=
    ⟨hs.keys, fun a ha => hmono (hs.attempts a ha), fun w hw => hmono (hs.writings w hw),
      fun q hq => hmono (hs.singles q hq), fun e he => hmono (hs.queries e he)⟩
  have hpass : Passes begun [s.started.length]
      (begun.dispatch options s.started.length message true) :=
    passes_dispatch hbegun (by simp [begun]) true
  refine ⟨hpass.valid, fun _ ho => ⟨?_, fun c hc => ?_⟩, fun _ called response hcalled hresp => ?_⟩
  · refine hpass.owners.nodup_iff.mpr (nodup_cons.mpr ⟨fun h => ?_, ho.nodup⟩)
    exact absurd (ho.started _ h) (Nat.lt_irrefl _)
  · rw [hpass.started, length_append, length_singleton]
    obtain rfl | hc := mem_cons.mp (hpass.owners.mem_iff.mp hc)
    · exact Nat.lt_succ_self _
    · exact Nat.lt_succ_of_lt (ho.started c hc)
  · simp [hpass.response hcalled] at hresp

lemma moves_received {conn : Nat} {message : Option Msg} (hs : s.Valid)
    (hu : step options s (.received conn message) = some s') :
    Moves s (.received conn message) s' := by
  cases hu
  let read : State := { s with readEpoch := update s.readEpoch conn (s.readEpoch conn + 1) }
  have hread : read.Valid := { hs with }
  have hrefl : Moves s (.received conn message) read :=
    (passes_refl hread).moves rfl rfl fun _ => .rfl
  cases message with
  | none => exact hrefl
  | some message =>
    dsimp only [Option.elim_some]
    unfold State.complete
    cases hp : read.pending (ofNat 16 message.id) with
    | none =>
      rwa [take_of_none hp]
    | some p =>
      rw [take_of_some hp]
      refine ⟨(hread.without _).call .., fun _ ho => ho.perm rfl (owners_without hread hp).symm,
        fun _ called response hcalled hresp => ?_⟩
      obtain rfl := (cons.inj hcalled).1
      exact ⟨message, p.message, .shared hp, hs.pending hp, (some.inj hresp).symm⟩

/-- What a step does, by the kind of step. -/
theorem moves_step (hs : s.Valid) (hu : step options s action = some s') : Moves s action s' := by
  cases action with
  | exchangeAsync message => exact moves_exchangeAsync hs message hu
  | acquired i result =>
    obtain ⟨a, ha, rfl⟩ := map_eq_some_iff.mp hu
    have hs' : { s with attempts := s.attempts.eraseIdx i }.Valid :=
      { hs with attempts := fun a ha => hs.attempts a (mem_of_mem_eraseIdx ha) }
    exact (passes_acquired hs' (hs.attempts a (mem_of_getElem? ha)) result).moves rfl rfl
      fun _ => (owners_erase_attempt ha).symm
  | wrote i =>
    obtain ⟨w, -, rfl⟩ := map_eq_some_iff.mp hu
    exact (passes_refl (hs.written i)).moves rfl rfl fun _ => .rfl
  | writeFailed i err =>
    obtain ⟨w, hw, rfl⟩ := map_eq_some_iff.mp hu
    obtain ⟨s₁, callbacks, hpass, hstart, hcalled, howners⟩ :=
      passes_writeFailed (hs.written i) (hs.writings w (mem_of_getElem? hw)) err
    refine hpass.moves hstart hcalled fun hown => howners fun p hp => ?_
    have hall := (Option.all_eq_true ..).mp hown w hw
    exact of_decide_eq_true ((Option.all_eq_true ..).mp hall p hp)
  | received conn message => exact moves_received hs hu
  | readFailed conn err | connDied conn err =>
    cases hu
    exact (passes_invalidate hs ..).moves rfl rfl fun _ => .rfl
  | contextDone ctx err | reuse supported =>
    cases hu
    refine Passes.moves ?_ rfl rfl fun _ => .refl ([] ++ s.owners)
    exact ⟨{ hs with }, rfl, .rfl, .inl rfl⟩
  | startContextDone queryId | startConnDone queryId =>
    obtain ⟨p, -, hu⟩ := Option.bind_eq_some_iff.mp hu
    obtain ⟨-, rfl⟩ := Option.ite_some_none_eq_some.mp hu
    refine (passes_modify hs queryId ?_ _).moves rfl rfl fun _ => .rfl
    exact fun _ => ⟨rfl, rfl⟩
  | run i =>
    obtain ⟨task, -, hu⟩ := Option.bind_eq_some_iff.mp hu
    have hs' : { s with tasks := s.tasks.eraseIdx i }.Valid := { hs with }
    exact (passes_runTask hs' hu).moves rfl rfl fun _ => .rfl
  | singleFailed i err =>
    obtain ⟨q, hq, rfl⟩ := map_eq_some_iff.mp hu
    exact (passes_call (hs.single i) ..).moves rfl rfl fun _ => (owners_erase_single hq).symm
  | singleResponded i response =>
    obtain ⟨q, hq, rfl⟩ := map_eq_some_iff.mp hu
    refine ⟨(hs.single i).call .., fun _ ho => ho.perm rfl (owners_erase_single hq).symm,
      fun hown called answer hcalled hresp => ?_⟩
    obtain rfl := (cons.inj hcalled).1
    have hid : response.id = q.message.id :=
      of_decide_eq_true ((Option.all_eq_true ..).mp hown q hq)
    exact ⟨response, q.message, .single hq hid, hs.singles q (mem_of_getElem? hq),
      (some.inj hresp).symm⟩

end Steps

/-! ## Free numbers -/

section Free

variable {s : State}

/-- A search that fails has tried all numbers after its first. -/
theorem pending_of_freeId_eq_none {fuel k : Nat} (hk : fuel + k = 2 ^ 16)
    (h : s.freeId fuel (s.queryId + ofNat 16 k) = none) {j : Nat} (hkj : k < j)
    (hj : j ≤ 2 ^ 16) : s.pending (s.queryId + ofNat 16 j) ≠ none := by
  induction fuel generalizing k with
  | zero => omega
  | succ fuel ih =>
    have hnext : s.queryId + ofNat 16 k + 1 = s.queryId + ofNat 16 (k + 1) := by
      rw [ofNat_add, ← add_assoc]
      rfl
    unfold State.freeId at h
    dsimp only at h
    rw [hnext] at h
    split at h
    · cases h
    · next htaken =>
      by_cases hj' : j = k + 1
      · subst hj'
        exact fun hnone => htaken (Option.isNone_iff_eq_none.mpr hnone)
      · split at h
        · next hwrapped =>
          have hzero : ofNat 16 (k + 1) = 0#16 := by
            simpa using hwrapped
          have hmod := congrArg toNat hzero
          rw [toNat_ofNat, toNat_zero] at hmod
          omega
        · exact ih (by omega) h (by omega)

lemma exists_ofNat_add (a b : BitVec 16) : ∃ j, 0 < j ∧ j ≤ 2 ^ 16 ∧ a + ofNat 16 j = b := by
  have hb : a + (b - a) = b := by rw [BitVec.add_comm, BitVec.sub_add_cancel]
  by_cases hzero : (b - a).toNat = 0
  · refine ⟨2 ^ 16, by omega, Nat.le_refl _, ?_⟩
    rw [← hb, eq_of_toNat_eq (y := 0) hzero]
    rfl
  · refine ⟨(b - a).toNat, by omega, Nat.le_of_lt (b - a).isLt, ?_⟩
    rw [ofNat_toNat, setWidth_eq, hb]

/-- Of fewer queries than there are numbers, one number is not taken. -/
theorem freeId_isSome (h : s.queries.length < 2 ^ 16) : (s.freeId (2 ^ 16) s.queryId).isSome := by
  by_contra hnone
  have hfail : s.freeId (2 ^ 16) (s.queryId + ofNat 16 0) = none := by
    rw [add_zero]
    exact Option.not_isSome_iff_eq_none.mp hnone
  have htaken : range (2 ^ 16) ⊆ s.queries.map fun entry => entry.1.toNat := by
    intro n hn
    obtain ⟨j, hj, hle, heq⟩ := exists_ofNat_add s.queryId (ofNat 16 n)
    have hp := pending_of_freeId_eq_none (Nat.add_zero _) hfail hj hle
    rw [heq] at hp
    obtain ⟨p, hp⟩ := Option.ne_none_iff_exists'.mp hp
    refine mem_map.mpr ⟨_, mem_of_pending hp, ?_⟩
    exact toNat_ofNat .. |>.trans (Nat.mod_eq_of_lt (mem_range.mp hn))
  have hle := (subperm_of_subset nodup_range htaken).length_le
  rw [length_range, length_map] at hle
  omega

end Free

lemma valid_start : ({} : State).Valid := by
  constructor <;> simp

lemma owned_start : ({} : State).Owned := by
  constructor <;> simp [State.owners]

/-- Whatever happens, the pending queries of a connection have different numbers, what is read
from a shared connection goes to the query under its number, and a number is found while fewer
than 65536 queries are pending. If each step finds its own number, then no callback is called
twice, and every answer is paired with its question. -/
theorem answers_paired (options : Options) : (∀ s, Reaches (step options) (fun _ _ => True) {} s →
      (∀ conn, ((s.queries.filter fun entry => entry.2.conn = conn).map Prod.fst).Nodup) ∧
      (∀ conn message s' called response, step options s (.received conn message) = some s' →
        s'.called = called :: s.called → called.response = some response →
        Paired s (.received conn message) called response) ∧
      (s.queries.length < 65536 → ∀ a conn created, (s.register options a conn created).isSome)) ∧
    ∀ s, Reaches (step options) (fun s action => ownId s action = true) {} s →
      (s.called.map Called.callback).Nodup ∧
      ∀ action s' called response, ownId s action = true → step options s action = some s' →
        s'.called = called :: s.called → called.response = some response →
        Paired s action called response := by
  constructor
  · intro s hs
    have hval : s.Valid := hs.invariant valid_start fun _ hu hs => (moves_step hs hu).valid
    refine ⟨fun conn => ?_, fun conn message s' called response hu =>
      (moves_received hval hu).paired rfl called response, fun hfew a conn created => ?_⟩
    · exact hval.keys.sublist (List.filter_sublist.map _)
    · unfold State.register
      rw [Option.isSome_map]
      exact freeId_isSome hfew
  · intro s hs
    have hinv : s.Valid ∧ s.Owned :=
      hs.invariant (P := fun s => s.Valid ∧ s.Owned) ⟨valid_start, owned_start⟩
        fun hown hu hs => ⟨(moves_step hs.1 hu).valid, (moves_step hs.1 hu).owned hown hs.2⟩
    exact ⟨(List.nodup_append.mp hinv.2.nodup).1, fun action s' called response hown hu =>
      (moves_step hinv.1 hu).paired hown called response⟩

/-! ## Runs -/

def sampleOptions : Options := { retryReadError := true, probeReuse := false }

def sampleQuery (id : Nat) : Msg := { id }

/-- The answer to the second query comes before the answer to the first. The first write to
the connection after it was read from fails, and its query is written to another one. -/
def sampleActions : List Action :=
  [.exchangeAsync (sampleQuery 7), .acquired 0 (.ok (0, true)), .wrote 0,
    .exchangeAsync (sampleQuery 7), .acquired 0 (.ok (0, false)), .wrote 0,
    .received 0 (some (sampleQuery 2)), .received 0 (some (sampleQuery 1)),
    .exchangeAsync (sampleQuery 8), .acquired 0 (.ok (0, false)), .writeFailed 0 "broken pipe",
    .acquired 0 (.ok (1, true)), .wrote 0]

theorem answers_paired_out_of_order : ∃ s, run (step sampleOptions) {} sampleActions = some s ∧
      s.called.map Called.callback = [0, 1] ∧ (s.called.map Called.callback).Nodup ∧
      Paired s (.received 1 (some (sampleQuery 4))) ⟨2, some (sampleQuery 8), none⟩
        (sampleQuery 8) := by
  refine exists_checked ownId (by decide) fun hs => ⟨by decide, ?_⟩
  obtain ⟨hnodup, hpaired⟩ :=
    (answers_paired sampleOptions).2 _ (Reaches.start.runChecked (fun _ _ h => h) hs)
  exact ⟨hnodup, hpaired _ _ _ _ rfl (Option.some_get (by decide)).symm (by decide) rfl⟩

/-- A query that is written to a connection in use. -/
def asks : List Action := [.exchangeAsync (sampleQuery 0), .acquired 0 (.ok (0, false)), .wrote 0]

/-- Queries that are answered one after the other, each under the number it gets. -/
def roundTrips : Nat → BitVec 16 → List Action
  | 0, _ => []
  | n + 1, queryId =>
    asks ++ .received 0 (some (sampleQuery (queryId + 1).toNat)) :: roundTrips n (queryId + 1)

/-- A call is writing whose callback was called, and no query is pending but those given. -/
structure Writes (s : State) (w : Writing) (queryId : BitVec 16)
    (queries : List (BitVec 16 × PendingQuery)) : Prop where
  queries : s.queries = queries
  attempts : s.attempts = []
  writings : s.writings = [w]
  queryId : s.queryId = queryId
  called : w.attempt.callback ∈ s.called.map Called.callback

section Writes

variable {s : State} {w : Writing} {queryId : BitVec 16}

lemma register_of_nil (options : Options) (h : s.queries = []) (a : Attempt) (conn : Nat)
    (created : Bool) : ∃ p, s.register options a conn created = some { s with
      queryId := s.queryId + 1, queries := [(s.queryId + 1, p)]
      writings := { attempt := a, queryId := s.queryId + 1, conn, created } :: s.writings } := by
  have hfree : s.freeId (2 ^ 16) s.queryId = some (s.queryId + 1) := by
    unfold State.freeId State.pending
    rw [h]
    rfl
  unfold State.register
  rw [hfree, h]
  exact ⟨_, rfl⟩

lemma Writes.asks (h : Writes s w queryId []) : ∃ s' p, run (step sampleOptions) s asks = some s' ∧
      Writes s' w (queryId + 1) [(queryId + 1, p)] := by
  let begun : State := { s with started := s.started ++ [sampleQuery 0], attempts := [] }
  let a : Attempt :=
    { callback := s.started.length, message := sampleQuery 0, firstAttempt := true
      retryReadError := true }
  obtain ⟨p, hreg⟩ := register_of_nil sampleOptions (s := begun) h.queries a 0 false
  have hbegun : step sampleOptions s (.exchangeAsync (sampleQuery 0)) =
      some { begun with attempts := [a] } := by
    change some { begun with attempts := a :: s.attempts } = _
    rw [h.attempts]
  have hacquired : step sampleOptions { begun with attempts := [a] } (.acquired 0 (.ok (0, false))) =
      begun.register sampleOptions a 0 false := by
    change some (begun.acquired sampleOptions a (.ok (0, false))) = _
    unfold State.acquired
    simp [hreg]
  rw [hreg] at hacquired
  refine ⟨{ begun with queryId := s.queryId + 1, queries := [(s.queryId + 1, p)] }, p, ?_, ?_⟩
  · unfold Multiplexer.asks run run run
    rw [hbegun, bind_some, hacquired, bind_some]
    rfl
  · rw [h.queryId]
    exact ⟨rfl, rfl, h.writings, rfl, h.called⟩

variable {p : PendingQuery}

lemma Writes.received (h : Writes s w queryId [(queryId, p)]) :
    ∃ s', step sampleOptions s (.received 0 (some (sampleQuery queryId.toNat))) = some s' ∧
      Writes s' w queryId [] := by
  let read : State := { s with readEpoch := update s.readEpoch 0 (s.readEpoch 0 + 1) }
  have hpend : read.pending (ofNat 16 queryId.toNat) = some p := by
    rw [ofNat_toNat, setWidth_eq, State.pending]
    rw [h.queries]
    exact lookup_cons_self
  refine ⟨(read.complete (sampleQuery queryId.toNat)), rfl, ?_⟩
  unfold State.complete
  rw [show (sampleQuery queryId.toNat).id = queryId.toNat from rfl, take_of_some hpend]
  refine { h with queries := ?_, called := mem_cons_of_mem _ h.called }
  rw [ofNat_toNat, setWidth_eq]
  change s.queries.filter (fun entry => entry.1 != queryId) = []
  rw [h.queries]
  simp

lemma Writes.roundTrips (h : Writes s w queryId []) (n : Nat) :
    ∃ s', run (step sampleOptions) s (roundTrips n queryId) = some s' ∧
      Writes s' w (queryId + ofNat 16 n) [] := by
  induction n generalizing s queryId with
  | zero => exact ⟨s, rfl, by rwa [add_zero]⟩
  | succ n ih =>
    obtain ⟨t, p, ht, hasked⟩ := h.asks
    obtain ⟨u, hu, hans⟩ := hasked.received
    obtain ⟨s', hs', hlast⟩ := ih hans
    refine ⟨s', ?_, ?_⟩
    · unfold Multiplexer.roundTrips
      rw [run_append, ht, bind_some, run, hu]
      exact hs'
    · have hsum : queryId + ofNat 16 (n + 1) = queryId + 1 + ofNat 16 n := by
        rw [Nat.add_comm n, ofNat_add, add_assoc]
        rfl
      rwa [hsum]

lemma Writes.writeFailed (h : Writes s w w.queryId [(w.queryId, p)])
    (hcreated : w.created) (err : String) :
    ∃ s', step sampleOptions s (.writeFailed 0 err) = some s' ∧
      ¬(s'.called.map Called.callback).Nodup := by
  let finished : State := { s with writings := s.writings.eraseIdx 0 }
  have hpend : finished.pending w.queryId = some p := by
    change s.queries.lookup w.queryId = some p
    rw [h.queries]
    exact lookup_cons_self
  have hcalled : (finished.writeFailed w err).called =
      ⟨w.attempt.callback, none, some ("write request: " ++ err)⟩ :: s.called := by
    unfold State.writeFailed
    rw [take_of_some hpend]
    simp only [hcreated, Bool.not_true, Bool.false_and, Bool.false_eq_true, if_false]
    rfl
  refine ⟨finished.writeFailed w err, ?_, fun hnodup => ?_⟩
  · simp only [step, h.writings, getElem?_cons_zero, Option.map_some]
    rw [← h.writings]
  · rw [hcalled] at hnodup
    exact (nodup_cons.mp hnodup).1 h.called

end Writes

/-- The context of a call ends while the call writes. After 65535 more queries its number is
used again, and then its write fails. -/
def reusedNumber : List Action :=
  [.exchangeAsync (sampleQuery 0), .acquired 0 (.ok (0, true)), .contextDone 0 .canceled,
    .startContextDone 1, .run 0] ++ (roundTrips 65535 1 ++ (asks ++ [.writeFailed 0 "broken pipe"]))

/-- Also, who asks on a connection of its own accepts an answer under any number. -/
theorem callback_called_twice : (∃ s, run (step sampleOptions) {} reusedNumber = some s ∧
      ¬(s.called.map Called.callback).Nodup) ∧
    ∃ s s', step { sampleOptions with probeReuse := true } {} (.exchangeAsync (sampleQuery 7)) =
          some s ∧
      step { sampleOptions with probeReuse := true } s (.singleResponded 0 (sampleQuery 8)) =
          some s' ∧
      s'.called = ⟨0, some (sampleQuery 7), none⟩ :: s.called ∧
      ¬Paired s (.singleResponded 0 (sampleQuery 8)) ⟨0, some (sampleQuery 7), none⟩
        (sampleQuery 7) := by
  constructor
  · let w : Writing := {
      attempt :=
        { callback := 0, message := sampleQuery 0, firstAttempt := true, retryReadError := true }
      queryId := 1, conn := 0, created := true }
    obtain ⟨s, hs, hwrites⟩ : ∃ s, run (step sampleOptions) {} (reusedNumber.take 5) =
        some s ∧ Writes s w 1 [] :=
      exists_end (by decide) fun _ => ⟨by decide, by decide,
        by decide, by decide, by decide⟩
    obtain ⟨t, ht, hwrites⟩ := hwrites.roundTrips 65535
    obtain ⟨u, p, hu, hwrites⟩ := hwrites.asks
    have hwrapped : (1 : BitVec 16) + ofNat 16 65535 + 1 = w.queryId := by decide
    obtain ⟨last, hlast, hnodup⟩ := hwrites.writeFailed rfl "broken pipe"
    refine ⟨last, ?_, hnodup⟩
    unfold reusedNumber
    rw [run_append]
    change (run _ _ (reusedNumber.take 5)).bind _ = _
    rw [hs, bind_some, run_append, ht, bind_some, run_append, hu, bind_some, run, hlast]
    rfl
  · refine ⟨_, _, rfl, rfl, rfl, ?_⟩
    rintro ⟨message, asked, hreg, -⟩
    obtain ⟨q, hq, hid⟩ := hreg.id_of_single
    cases hq
    cases hid

end SingBox.Dns.Multiplexer
