import SingBox.Lib.Machine

/-! Programs of atomic operations that run side by side on a shared state, and
the rules by which each of them may rely on the others. -/

namespace SingBox.Lib
open Function Option

/-- A program does an operation and goes on with the answer, until it returns. -/
inductive Prog (Op : Type) (Ans : Op → Type) (α : Type)
  | ret (value : α)
  | call (op : Op) (next : Ans op → Prog Op Ans α)

namespace Prog

variable {Op : Type} {Ans : Op → Type} {α β : Type}

def bind : Prog Op Ans α → (α → Prog Op Ans β) → Prog Op Ans β
  | .ret a, f => f a
  | .call op next, f => .call op fun answer => (next answer).bind f

instance : Monad (Prog Op Ans) where
  pure := .ret
  bind := .bind

def op (o : Op) : Prog Op Ans (Ans o) := .call o .ret

variable (a : α)

@[simp] lemma pure_eq : (pure a : Prog Op Ans α) = .ret a := rfl

variable (p : Prog Op Ans α) (f : α → Prog Op Ans β)

@[simp] lemma bind_eq : p >>= f = p.bind f := rfl

@[simp] lemma ret_bind (f : α → Prog Op Ans β) : (Prog.ret a).bind f = f a := rfl

@[simp] lemma op_bind (o : Op) (f : Ans o → Prog Op Ans β) : (op o).bind f = .call o f := rfl

/-- A program from start to end, with nothing else going on. -/
def runWith {σ : Type} (exec : (op : Op) → σ → Option (σ × Ans op)) :
    Prog Op Ans α → σ → Option (σ × α)
  | .ret a, s => some (s, a)
  | .call op next, s => (exec op s).bind fun (t, answer) => (next answer).runWith exec t

section
variable {σ : Type} {exec : (op : Op) → σ → Option (σ × Ans op)} (s : σ)

@[simp] lemma runWith_ret : (Prog.ret a).runWith exec s = some (s, a) := rfl

@[simp] lemma runWith_call (o : Op) (next : Ans o → Prog Op Ans α) (s : σ) :
    (Prog.call o next).runWith exec s =
      (exec o s).bind fun (t, answer) => (next answer).runWith exec t := rfl

lemma runWith_bind :
    (p.bind f).runWith exec s = (p.runWith exec s).bind fun (t, a) => (f a).runWith exec t := by
  induction p generalizing s with
  | ret a => rfl
  | call o next ih => simp [Prog.bind, ih, bind_assoc]

/-- A program as far as it gets: until it returns, or cannot do an operation. -/
def runOut (exec : (op : Op) → σ → Option (σ × Ans op)) : Prog Op Ans α → σ → σ × Option α
  | .ret a, s => (s, some a)
  | .call op next, s =>
    match exec op s with
    | none => (s, none)
    | some (t, answer) => (next answer).runOut exec t

@[simp] lemma runOut_ret : (Prog.ret a).runOut exec s = (s, some a) := rfl

lemma runOut_bind : (p.bind f).runOut exec s = match p.runOut exec s with
      | (t, none) => (t, none)
      | (t, some a) => (f a).runOut exec t := by
  induction p generalizing s with
  | ret a => rfl
  | call o next ih =>
    rw [Prog.bind, runOut, runOut]
    cases exec o s with
    | none => rfl
    | some r => exact ih r.2 r.1

end

end Prog

/-- The calls that threads make, what an operation does to the shared state, what
is undone when a call returns, and what else happens. -/
structure System (σ Op : Type) (Ans : Op → Type) (Call Env Event : Type) where
  body : Call → Prog Op Ans Unit
  exec : Nat → (op : Op) → Env → σ → Option (σ × Ans op)
  leave : Nat → σ → σ
  event : Event → σ → Option σ
  /-- Whether an event ends every call. -/
  stops : Event → Bool

/-- The shared state and the calls in progress. -/
structure Pool (σ Op : Type) (Ans : Op → Type) (Call : Type) where
  shared : σ
  threads : Nat → Option (Call × Prog Op Ans Unit) := fun _ => none

inductive Pool.Action (Call Env Event : Type)
  | start (thread : Nat) (call : Call)
  | run (thread : Nat) (env : Env)
  | event (event : Event)

namespace System

variable {σ Op : Type} {Ans : Op → Type} {Call Env Event : Type}

def step (S : System σ Op Ans Call Env Event) :
    Machine (Pool σ Op Ans Call) (Pool.Action Call Env Event)
  | s, .start thread call =>
    if (s.threads thread).isNone then
      some { s with threads := update s.threads thread (some (call, S.body call)) }
    else none
  | s, .run thread env =>
    match s.threads thread with
    | none => none
    | some (_, .ret ()) => some ⟨S.leave thread s.shared, update s.threads thread none⟩
    | some (call, .call op next) =>
      (S.exec thread op env s.shared).map fun (t, answer) =>
        ⟨t, update s.threads thread (some (call, next answer))⟩
  | s, .event e =>
    (S.event e s.shared).map fun t => ⟨t, if S.stops e then fun _ => none else s.threads⟩

/-- Whether an action is one of a given thread; an event may be of any. -/
def touches (i : Nat) : Pool.Action Call Env Event → Bool
  | .start thread _ | .run thread _ => thread == i
  | .event _ => true

variable {s t : Pool σ Op Ans Call} {S : System σ Op Ans Call Env Event}
    {a : Pool.Action Call Env Event}

lemma threads_step {i : Nat} (h : touches i a = false) (ht : S.step s a = some t) :
    t.threads i = s.threads i := by
  cases a with
  | start thread call =>
    obtain ⟨-, rfl⟩ := ite_some_none_eq_some.mp ht
    exact update_of_ne (Ne.symm (beq_eq_false_iff_ne.mp h)) ..
  | run thread env =>
    have hne : i ≠ thread := Ne.symm (beq_eq_false_iff_ne.mp h)
    simp only [System.step] at ht
    split at ht
    · cases ht
    · cases ht
      exact update_of_ne hne ..
    · obtain ⟨_, -, rfl⟩ := map_eq_some_iff.mp ht
      exact update_of_ne hne ..
  | event e => cases h

lemma threads_run {i : Nat}
    {actions : List (Pool.Action Call Env Event)} (h : ∀ a ∈ actions, touches i a = false)
    (hrun : Machine.run S.step s actions = some t) : t.threads i = s.threads i := by
  induction actions generalizing s with
  | nil =>
    cases hrun
    rfl
  | cons a actions ih =>
    obtain ⟨u, hu, hrun⟩ := bind_eq_some_iff.mp hrun
    rw [ih (fun b hb => h b (List.mem_cons_of_mem _ hb)) hrun,
      threads_step (h a List.mem_cons_self) hu]

/-- The calls, operations and events that an environment lets happen. -/
structure Conduct (S : System σ Op Ans Call Env Event) where
  starts : σ → Nat → Call → Prop := fun _ _ _ => True
  admits : σ → Nat → Op → Env → Prop := fun _ _ _ _ => True
  occurs : σ → Event → Prop := fun _ _ => True

variable {S : System σ Op Ans Call Env Event}

def Conduct.admitted (C : Conduct S) (s : Pool σ Op Ans Call) : Pool.Action Call Env Event → Prop
  | .start thread call => C.starts s.shared thread call
  | .run thread env => ∀ call op next, s.threads thread = some (call, .call op next) →
      C.admits s.shared thread op env
  | .event e => C.occurs s.shared e

/-- A check of an action by one of calls, one of operations and one of events. -/
def checks (start : σ → Nat → Call → Bool) (operation : σ → Op → Env → Bool) (event : Event → Bool)
    (s : Pool σ Op Ans Call) : Pool.Action Call Env Event → Bool
  | .start thread call => start s.shared thread call
  | .run thread env =>
    match s.threads thread with
    | some (_, .call op _) => operation s.shared op env
    | _ => true
  | .event e => event e

lemma Conduct.admitted_of_checks {C : Conduct S} {start : σ → Nat → Call → Bool}
    {operation : σ → Op → Env → Bool} {event : Event → Bool}
    (hstart : ∀ {s i call}, start s i call → C.starts s i call)
    (hop : ∀ {s i op env}, operation s op env → C.admits s i op env)
    (hevent : ∀ {s e}, event e → C.occurs s e) (s : Pool σ Op Ans Call)
    (a : Pool.Action Call Env Event) (h : checks start operation event s a) :
    C.admitted s a := by
  cases a with
  | start i call => exact hstart h
  | run i env =>
    intro call op next hs
    simp only [checks, hs] at h
    exact hop h
  | event e => exact hevent h

/-- What holds of the shared state, what a thread may rely on while others run,
and what holds of a thread before, during and after a call. -/
structure Protocol (C : Conduct S) where
  inv : σ → Prop
  rely : Nat → σ → σ → Prop
  idle : Nat → σ → Prop
  during : Nat → Call → σ → Prop
  done : Nat → Call → σ → Prop
  rely_refl : ∀ i s, rely i s s
  rely_trans : ∀ {i s t u}, rely i s t → rely i t u → rely i s u
  idle_rely : ∀ {i s t}, idle i s → rely i s t → idle i t
  during_rely : ∀ {i call s t}, during i call s → rely i s t → during i call t
  done_rely : ∀ {i call s t}, done i call s → rely i s t → done i call t

namespace Protocol

variable {C : Conduct S} (P : Protocol C) {α β : Type}

/-- From a state, whatever the others do meanwhile, the program keeps the
invariant and what the others rely on, and returns as described. -/
def Meets (i : Nat) (call : Call) (Q : α → σ → Prop) : Prog Op Ans α → σ → Prop
  | .ret a, s => Q a s
  | .call op next, s => ∀ t, P.rely i s t → P.inv t → ∀ env u answer, C.admits t i op env →
      S.exec i op env t = some (u, answer) →
      P.inv u ∧ (∀ j, j ≠ i → P.rely j t u) ∧ P.during i call u ∧ Meets i call Q (next answer) u

variable {P} {i : Nat} {call : Call} {p : Prog Op Ans α}

lemma meets_bind {Q : β → σ → Prop} {f : α → Prog Op Ans β} {s : σ} :
    P.Meets i call Q (p.bind f) s ↔ P.Meets i call (fun a t => P.Meets i call Q (f a) t) p s := by
  induction p generalizing s with
  | ret a => rfl
  | call op next ih => simp [Prog.bind, Meets, ih]

lemma Meets.mono {Q R : α → σ → Prop} {s : σ} (h : P.Meets i call Q p s)
    (hQ : ∀ a t, Q a t → R a t) : P.Meets i call R p s := by
  induction p generalizing s with
  | ret a => exact hQ a s h
  | call op next ih =>
    intro t ht hinv env u answer ha hu
    obtain ⟨hu, hothers, hduring, hnext⟩ := h t ht hinv env u answer ha hu
    exact ⟨hu, hothers, hduring, ih answer hnext⟩

lemma Meets.rely {Q : α → σ → Prop} {s t : σ} (h : P.Meets i call Q p s)
    (hQ : ∀ a u, Q a s → P.rely i s u → Q a u) (ht : P.rely i s t) : P.Meets i call Q p t := by
  cases p with
  | ret a => exact hQ a t h ht
  | call op next => exact fun u hu => h u (P.rely_trans ht hu)

/-- What has to be shown of a system for its calls to keep the invariant. -/
structure Sound (P : Protocol C) : Prop where
  body : ∀ {i call s}, P.inv s → P.idle i s → C.starts s i call →
    P.during i call s ∧ P.Meets i call (fun _ t => P.done i call t) (S.body call) s
  leave : ∀ {i call s}, P.inv s → P.done i call s →
    P.inv (S.leave i s) ∧ P.idle i (S.leave i s) ∧ ∀ j, j ≠ i → P.rely j s (S.leave i s)
  event : ∀ {e s t}, P.inv s → C.occurs s e → S.event e s = some t →
    P.inv t ∧ ∀ i, if S.stops e then P.idle i t else P.rely i s t

/-- A thread is idle, or its call is under way. -/
def Follows (P : Protocol C) (s : σ) (i : Nat) : Option (Call × Prog Op Ans Unit) → Prop
  | none => P.idle i s
  | some (call, p) => P.during i call s ∧ P.Meets i call (fun _ t => P.done i call t) p s

/-- What holds of the shared state and of every thread. -/
structure Holds (P : Protocol C) (s : Pool σ Op Ans Call) : Prop where
  inv : P.inv s.shared
  threads : ∀ i, P.Follows s.shared i (s.threads i)

variable {thread : Option (Call × Prog Op Ans Unit)}

lemma Follows.rely {s t : σ}
    (h : P.Follows s i thread) (ht : P.rely i s t) : P.Follows t i thread := by
  match thread, h with
  | none, h => exact P.idle_rely h ht
  | some (call, p), ⟨hduring, hmeets⟩ =>
    exact ⟨P.during_rely hduring ht, hmeets.rely (fun _ _ hdone hu => P.done_rely hdone hu) ht⟩

lemma Holds.update {s : Pool σ Op Ans Call} {t : σ}
    (h : P.Holds s) (hinv : P.inv t) (hothers : ∀ j, j ≠ i → P.rely j s.shared t)
    (hthr : P.Follows t i thread) : P.Holds ⟨t, update s.threads i thread⟩ := by
  refine ⟨hinv, fun j => ?_⟩
  by_cases hj : j = i
  · subst hj
    simpa using hthr
  · simpa [hj] using (h.threads j).rely (hothers j hj)

lemma Sound.step (hP : P.Sound)
    (ha : C.admitted s a) (ht : S.step s a = some t) (h : P.Holds s) : P.Holds t := by
  cases a with
  | start i call =>
    obtain ⟨hfree, rfl⟩ := ite_some_none_eq_some.mp ht
    have hidle : P.Follows s.shared i none := isNone_iff_eq_none.mp hfree ▸ h.threads i
    exact h.update h.inv (fun j _ => P.rely_refl j _) (hP.body h.inv hidle ha)
  | run i env =>
    have hthr := h.threads i
    simp only [System.step] at ht
    split at ht
    · cases ht
    · next call hcall =>
      cases ht
      rw [hcall] at hthr
      obtain ⟨hinv, hidle, hothers⟩ := hP.leave h.inv hthr.2
      exact h.update hinv hothers hidle
    · next call op next hcall =>
      obtain ⟨⟨u, answer⟩, hu, ht⟩ := map_eq_some_iff.mp ht
      subst ht
      rw [hcall] at hthr
      obtain ⟨hinv, hothers, hnext⟩ := hthr.2 s.shared (P.rely_refl i _) h.inv env u answer
        (ha call op next hcall) hu
      exact h.update hinv hothers hnext
  | event e =>
    obtain ⟨u, hu, rfl⟩ := map_eq_some_iff.mp ht
    obtain ⟨hinv, hevent⟩ := hP.event h.inv ha hu
    refine ⟨hinv, fun i => ?_⟩
    have hi := hevent i
    cases hstops : S.stops e with
    | true =>
      simp only [hstops, if_true] at hi ⊢
      exact hi
    | false =>
      simp only [hstops, Bool.false_eq_true, if_false] at hi ⊢
      exact (h.threads i).rely hi

/-- Along every run that the environment allows, the invariant holds and every
thread is where the protocol has it. -/
theorem Sound.holds (hP : P.Sound)
    (h : Machine.Reaches S.step C.admitted s t) (hs : P.Holds s) : P.Holds t :=
  h.invariant hs hP.step

/-- Where only the first threads make calls, the others are idle, and what is asked of the run may
be shown with that. -/
theorem Sound.reaches {C' : Conduct S} {n : Nat} (hP : P.Sound)
    (hstarts : ∀ {s i call}, C'.starts s i call → i < n ∧ C.starts s i call)
    (hadm : ∀ {s i op env}, i < n → (∀ j, n ≤ j → P.idle j s) → C'.admits s i op env →
      C.admits s i op env)
    (hoccurs : ∀ {s e}, C'.occurs s e → C.occurs s e) (hs : P.Holds s)
    (hnone : ∀ i, n ≤ i → s.threads i = none) (h : Machine.Reaches S.step C'.admitted s t) :
    Machine.Reaches S.step C.admitted s t ∧ ∀ i, n ≤ i → t.threads i = none := by
  induction h with
  | start => exact ⟨.start, hnone⟩
  | @next t u a _ ha hu ih =>
    obtain ⟨hreach, hnone⟩ := ih
    have hkept : ∀ i < n, (∀ j, j ≠ i → touches j a = false) → ∀ j, n ≤ j → u.threads j = none :=
      fun i hi htouch j hj => (threads_step (htouch j (by omega)) hu).trans (hnone j hj)
    suffices hnext : C.admitted t a ∧ ∀ i, n ≤ i → u.threads i = none from
      ⟨hreach.next hnext.1 hu, hnext.2⟩
    cases a with
    | start i call =>
      obtain ⟨hi, hstart⟩ := hstarts ha
      exact ⟨hstart, hkept i hi fun j hj => beq_false_of_ne hj.symm⟩
    | run i env =>
      by_cases hi : i < n
      · refine ⟨fun call op next hthr => hadm hi (fun j hj => ?_) (ha call op next hthr),
          hkept i hi fun j hj => beq_false_of_ne hj.symm⟩
        have hfollows := (hP.holds hreach hs).threads j
        rwa [hnone j hj] at hfollows
      · simp [System.step, hnone i (Nat.le_of_not_lt hi)] at hu
    | event e =>
      refine ⟨hoccurs ha, fun j hj => ?_⟩
      obtain ⟨v, -, rfl⟩ := map_eq_some_iff.mp hu
      dsimp only
      split
      · rfl
      · exact hnone j hj

end Protocol

end System

end SingBox.Lib
