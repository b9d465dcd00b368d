import Mathlib.Data.List.Induction
import SingBox.Group.Snapshot
import SingBox.Group.Standing

/-! A dial of a load-balance group: the strategy's choice first, then every other member, the
primary ones before the backups and the fast ones before the slow, until one succeeds. -/

namespace SingBox.Group
open Lib List Option

/-- The members of a tier that a dial may still try. -/
structure Pooling where
  measured : List Candidate := []
  unmeasured : List Candidate := []
  tried : List Tag

variable (live : Live) (outbounds : Tag → Option Outbound) (network : Network)

def poolStep (isPrimary : Bool) (network : Network) (p : Pooling) (tag : Tag) : Pooling :=
  if tag ∈ p.tried then p
  else
    match outbounds tag with
    | none => p
    | some detour =>
      if network ∈ detour.network then
        let candidate : Candidate := { tag, outbound := detour, isPrimary }
        match liveMemberDelay live detour with
        | none | some 0 =>
          { p with unmeasured := p.unmeasured ++ [candidate], tried := tag :: p.tried }
        | some delay =>
          { p with
            measured := p.measured ++ [{ candidate with latency := delay }]
            tried := tag :: p.tried }
      else p

variable (S : SliceSort)

/-- The members of a tier in the order of their delays, and the tags tried with them. -/
def poolByLastDelay (live : Live) (tags : List Tag)
    (outbounds : Tag → Option Outbound) (isPrimary : Bool) (network : Network) (tried : List Tag) :
    List Candidate × List Tag :=
  let p := tags.foldl (poolStep live outbounds isPrimary network) { tried }
  (sortCandidatesByLatency S p.measured ++ sortCandidatesByLatency S p.unmeasured, p.tried)

/-- The strategy's choice, if there is one that supports the network. -/
def firstAttempt (selected : Option Candidate) (network : Network) : List Candidate :=
  match selected with
  | none => []
  | some candidate => if network ∈ candidate.outbound.network then [candidate] else []

/-- What became of the attempts: the member that is used or why there is none, the tags tried,
and the candidates whose stored delay is deleted. -/
structure Walked where
  used : Except String Candidate
  tried : List Tag
  failed : List Candidate

/-- The loop of `dialAttempts`. `ctx` is what `ctx.Err()` gives each time it is asked, and
`dial` the error of a dial, if it fails. -/
def dialFrom (ctx : Nat → Option String) (dial : Candidate → Option String) (i : Nat)
    (tried : List Tag) (failed : List Candidate) (lastErr : String) : List Candidate → Walked
  | [] =>
    match ctx i with
    | some err => ⟨.error err, tried, failed⟩
    | none => ⟨.error lastErr, tried, failed⟩
  | candidate :: attempts =>
    match ctx i with
    | some err => ⟨.error err, tried, failed⟩
    | none =>
      match dial candidate with
      | none => ⟨.ok candidate, tried ++ [candidate.tag], failed⟩
      | some err =>
        dialFrom ctx dial (i + 1) (tried ++ [candidate.tag]) (failed ++ [candidate]) err attempts

def emptyPoolError : String := "loadbalance: empty candidate pool"

def dialAttempts (ctx : Nat → Option String) (dial : Candidate → Option String)
    (attempts : List Candidate) : Walked :=
  if attempts.length = 0 then ⟨.error emptyPoolError, [], []⟩
  else dialFrom ctx dial 0 [] [] "" attempts

namespace LoadBalance

variable (S : SliceSort) (l : LoadBalance)

def failoverAttempts (live : Live) (selected : Option Candidate) (network : Network) :
    List Candidate :=
  let first := firstAttempt selected network
  let (primaries, tried) :=
    poolByLastDelay S live l.primaryTags l.primaryOutbounds true network (first.map Candidate.tag)
  let (backups, _) := poolByLastDelay S live l.backupTags l.backupOutbounds false network tried
  first ++ primaries ++ backups

def walk (live : Live) (ctx : Nat → Option String) (selected : Option Candidate)
    (network : Network) (dial : Candidate → Option String) : Walked :=
  dialAttempts ctx dial (l.failoverAttempts S live selected network)

variable (intn : (n : Nat) → Fin (n + 1))

/-- A random member of any tier, if there is one. -/
def selectEmptyPoolFallback : Option Candidate :=
  let primaries : List Candidate := l.primaryTags.filterMap fun tag =>
    (l.primaryOutbounds tag).map fun detour => { tag, outbound := detour, isPrimary := true }
  let backups : List Candidate := l.backupTags.filterMap fun tag =>
    (l.backupOutbounds tag).map fun detour => { tag, outbound := detour }
  match primaries ++ backups with
  | [] => none
  | c :: rest => some ((c :: rest).get (intn rest.length))

/-- The strategy's first choice; none where the pool is empty. -/
def pickCandidate (snapshot : Option CandidateSnapshot)
    (key : Bytes) : Except SelectError (Option Candidate) :=
  match snapshot.elim [] CandidateSnapshot.candidates with
  | [] =>
    match l.emptyPoolAction with
    | .random => .ok (l.selectEmptyPoolFallback intn)
    | .error => .ok none
  | c :: rest =>
    match l.strategy with
    | .random => .ok (some ((c :: rest).get (intn rest.length)))
    | .consistentHash => (l.select S intn ⟨c :: rest, 0⟩ key).map some

end LoadBalance

/-- A tag of a tier whose outbound supports the network. -/
def Offers (tag : Tag) : Prop := ∃ detour, outbounds tag = some detour ∧ network ∈ detour.network

/-- The delay by which a member is ordered; zero stands for none. -/
def lastDelay (detour : Outbound) : Option Nat := (liveMemberDelay live detour).filter (· ≠ 0)

/-- The least of delays, where zero stands for none. -/
def Fastest (delays : List Nat) (d : Nat) : Prop := d ∈ delays ∧ d ≠ 0 ∧ ∀ x ∈ delays, x ≠ 0 → d ≤ x

/-- What was measured of an outbound: its stored delay, and of a group the least one in its snapshot
or, if there is none, the least one of its members. -/
def Live.Measures (detour : Outbound) (d : Nat) : Prop :=
  match detour.kind with
  | .loadBalance tags =>
    let snapshot := (live.nested detour.tag).getD []
    Fastest snapshot d ∨ (∀ x, ¬ Fastest snapshot x) ∧
      Fastest (tags.filterMap fun t => live.history (live.realTag t)) d
  | .urlTest | .other => live.history (live.realTag detour.tag) = some d ∧ d ≠ 0

lemma minDelay_spec (delays : List Nat) :
    (∀ d, minDelay delays = some d → Fastest delays d) ∧
      (minDelay delays = none → ∀ x ∈ delays, x = 0) := by
  induction delays using List.reverseRecOn with
  | nil => simp [minDelay]
  | append_singleton delays x ih =>
    have hstep : minDelay (delays ++ [x]) = if x = 0 then minDelay delays else
        (minDelay delays).elim (some x) fun d => if x < d then some x else some d := by
      rw [minDelay, foldl_append, ← minDelay]
      cases minDelay delays <;> rfl
    cases hleast : minDelay delays <;> grind [Fastest]

lemma minDelay_eq_some {delays : List Nat} {d : Nat} :
    minDelay delays = some d ↔ Fastest delays d := by
  obtain ⟨hsome, hnone⟩ := minDelay_spec delays
  refine ⟨hsome d, fun h => ?_⟩
  cases hmin : minDelay delays with
  | none => exact absurd (hnone hmin d h.1) h.2.1
  | some x =>
    have hx := hsome x hmin
    exact congrArg some (Nat.le_antisymm (hx.2.2 d h.1 h.2.1) (h.2.2 x hx.1 hx.2.1))

lemma lastDelay_eq_some {detour : Outbound} {d : Nat} :
    lastDelay live detour = some d ↔ live.Measures detour d := by
  unfold lastDelay liveMemberDelay Live.Measures
  cases detour.kind with
  | loadBalance tags =>
    have hnested : (live.nested detour.tag).bind minDelay =
        minDelay ((live.nested detour.tag).getD []) := by
      cases live.nested detour.tag <;> rfl
    simp only [nestedMinDelay, hnested, Option.filter_eq_some_iff]
    cases hmin : minDelay ((live.nested detour.tag).getD []) with
    | none =>
      have hnone x : ¬ Fastest ((live.nested detour.tag).getD []) x := by
        rw [← minDelay_eq_some, hmin]
        nofun
      simp only [hnone, minDelay_eq_some, false_or, not_false_eq_true, implies_true, true_and]
      exact ⟨And.left, fun h => ⟨h, by simpa using h.2.1⟩⟩
    | some y =>
      have hy := minDelay_eq_some.mp hmin
      grind [minDelay_eq_some, Fastest]
  | urlTest | other =>
    cases live.history (live.realTag detour.tag) with
    | none => simp
    | some x => cases x <;> grind

section
variable {live : Live} {outbounds : Tag → Option Outbound} {isPrimary : Bool} {network : Network}

/-- A member of a tier as it is listed for a dial. -/
structure Entry (outbounds : Tag → Option Outbound) (isPrimary : Bool) (network : Network)
    (c : Candidate) : Prop where
  outbound : outbounds c.tag = some c.outbound
  network : network ∈ c.outbound.network
  tier : c.isPrimary = isPrimary

/-- What the loop of `poolByLastDelay` has found among the tags so far. -/
structure Pooled (live : Live) (outbounds : Tag → Option Outbound) (isPrimary : Bool)
    (network : Network) (tried tags : List Tag) (p : Pooling) : Prop where
  tried_iff : ∀ t, t ∈ p.tried ↔ t ∈ tried ∨ t ∈ tags ∧ Offers outbounds network t
  tags_iff : ∀ t, t ∈ (p.measured ++ p.unmeasured).map Candidate.tag ↔
    t ∈ tags ∧ Offers outbounds network t ∧ t ∉ tried
  distinct : ((p.measured ++ p.unmeasured).map Candidate.tag).Nodup
  entry : ∀ c ∈ p.measured ++ p.unmeasured, Entry outbounds isPrimary network c
  measured : ∀ c ∈ p.measured, lastDelay live c.outbound = some c.latency
  unmeasured : ∀ c ∈ p.unmeasured, lastDelay live c.outbound = none

/-- What a round of the loop does. -/
theorem poolStep_cases (p : Pooling) (tag : Tag) :
    (poolStep live outbounds isPrimary network p tag = p ∧
      (tag ∈ p.tried ∨ ¬ Offers outbounds network tag)) ∨
    ∃ c : Candidate, c.tag = tag ∧ tag ∉ p.tried ∧ Entry outbounds isPrimary network c ∧
      (poolStep live outbounds isPrimary network p tag =
          { p with unmeasured := p.unmeasured ++ [c], tried := tag :: p.tried } ∧
        lastDelay live c.outbound = none ∨
      poolStep live outbounds isPrimary network p tag =
          { p with measured := p.measured ++ [c], tried := tag :: p.tried } ∧
        lastDelay live c.outbound = some c.latency) := by
  unfold poolStep
  by_cases htried : tag ∈ p.tried
  · rw [if_pos htried]
    exact .inl ⟨rfl, .inl htried⟩
  rw [if_neg htried]
  split
  · next hnone =>
    refine .inl ⟨rfl, .inr ?_⟩
    rintro ⟨detour, hdetour, -⟩
    simp [hnone] at hdetour
  · next detour hdetour =>
    by_cases hnet : network ∈ detour.network
    · rw [if_pos hnet]
      right
      split
      · next hdelay =>
        refine ⟨_, rfl, htried, ⟨hdetour, hnet, rfl⟩, .inl ⟨rfl, ?_⟩⟩
        simp [lastDelay, hdelay]
      · next hdelay =>
        refine ⟨_, rfl, htried, ⟨hdetour, hnet, rfl⟩, .inl ⟨rfl, ?_⟩⟩
        simp [lastDelay, hdelay]
      · next delay hzero hdelay =>
        refine ⟨{ tag, outbound := detour, isPrimary, latency := delay }, rfl, htried,
          ⟨hdetour, hnet, rfl⟩, .inr ⟨rfl, ?_⟩⟩
        simpa [lastDelay, hdelay] using hzero
    · rw [if_neg hnet]
      refine .inl ⟨rfl, .inr ?_⟩
      rintro ⟨detour', hdetour', hin⟩
      rw [hdetour] at hdetour'
      cases hdetour'
      exact hnet hin

namespace Pooled

variable {tried tags : List Tag} {p : Pooling} {tag : Tag}

lemma start (live : Live) (outbounds : Tag → Option Outbound) (isPrimary : Bool)
    (network : Network) (tried : List Tag) :
    Pooled live outbounds isPrimary network tried [] { tried } := by
  constructor <;> simp

section
variable (h : Pooled live outbounds isPrimary network tried tags p)
include h

lemma skip (hskip : tag ∈ p.tried ∨ ¬ Offers outbounds network tag) :
    Pooled live outbounds isPrimary network tried (tags ++ [tag]) p := by
  have hold {t} (ht : t ∈ tags ++ [tag]) (hoffer : Offers outbounds network t) :
      t ∈ tried ∨ t ∈ tags := by
    obtain hin | hin := mem_append.mp ht
    · exact .inr hin
    · rw [mem_singleton.mp hin] at hoffer ⊢
      exact ((h.tried_iff tag).mp (hskip.resolve_right (not_not_intro hoffer))).imp id And.left
  refine { h with tried_iff := fun t => ?_, tags_iff := fun t => ?_ }
  · rw [h.tried_iff t]
    constructor
    · exact Or.imp id fun ⟨hin, hoffer⟩ => ⟨mem_append_left _ hin, hoffer⟩
    · rintro (hin | ⟨hin, hoffer⟩)
      · exact .inl hin
      · exact (hold hin hoffer).imp id fun hin => ⟨hin, hoffer⟩
  · rw [h.tags_iff t]
    constructor
    · exact fun ⟨hin, hrest⟩ => ⟨mem_append_left _ hin, hrest⟩
    · exact fun ⟨hin, hoffer, hnot⟩ => ⟨(hold hin hoffer).resolve_left hnot, hoffer, hnot⟩

lemma add {c : Candidate} (hc : c.tag ∉ p.tried) (hent : Entry outbounds isPrimary network c)
    {q : Pooling} (hperm : (q.measured ++ q.unmeasured).Perm (c :: (p.measured ++ p.unmeasured)))
    (htried : q.tried = c.tag :: p.tried)
    (hmeasured : ∀ d ∈ q.measured, lastDelay live d.outbound = some d.latency)
    (hunmeasured : ∀ d ∈ q.unmeasured, lastDelay live d.outbound = none) :
    Pooled live outbounds isPrimary network tried (tags ++ [c.tag]) q := by
  have hoffer : Offers outbounds network c.tag := ⟨c.outbound, hent.outbound, hent.network⟩
  have hperm' := hperm.map Candidate.tag
  rw [map_cons] at hperm'
  obtain ⟨hfresh, hnew⟩ := not_or.mp fun hor => hc ((h.tried_iff c.tag).mpr hor)
  have hnottags : c.tag ∉ tags := fun hin => hnew ⟨hin, hoffer⟩
  refine ⟨fun t => ?_, fun t => ?_, ?_, fun d hd => ?_, hmeasured, hunmeasured⟩
  · rw [htried, mem_cons, h.tried_iff t, mem_append, mem_singleton]
    by_cases ht : t = c.tag
    · simp [ht, hoffer]
    · simp [ht]
  · rw [hperm'.mem_iff, mem_cons, h.tags_iff t, mem_append, mem_singleton]
    by_cases ht : t = c.tag
    · simp [ht, hoffer, hfresh]
    · simp [ht]
  · rw [hperm'.nodup_iff, nodup_cons, h.tags_iff]
    exact ⟨fun hin => hnottags hin.1, h.distinct⟩
  · obtain rfl | hd := mem_cons.mp (hperm.mem_iff.mp hd)
    · exact hent
    · exact h.entry d hd

lemma step (tag : Tag) : Pooled live outbounds isPrimary network tried (tags ++ [tag])
      (poolStep live outbounds isPrimary network p tag) := by
  obtain ⟨heq, hskip⟩ | ⟨c, rfl, hc, hent, ⟨heq, hdelay⟩ | ⟨heq, hdelay⟩⟩ := poolStep_cases p tag
  · rw [heq]
    exact h.skip hskip
  · rw [heq]
    refine h.add hc hent ?_ rfl h.measured ?_
    · rw [← append_assoc]
      exact perm_append_singleton _ _
    · simpa [or_imp, forall_and] using ⟨h.unmeasured, hdelay⟩
  · rw [heq]
    refine h.add hc hent ?_ rfl ?_ h.unmeasured
    · simp only [append_assoc, singleton_append]
      exact perm_middle
    · simpa [or_imp, forall_and] using ⟨h.measured, hdelay⟩

end

lemma foldl (tried tags : List Tag) : Pooled live outbounds isPrimary network tried tags
      (tags.foldl (poolStep live outbounds isPrimary network) { tried }) := by
  have hrun {done rest} {p}
      (h : Pooled live outbounds isPrimary network tried done p) :
      Pooled live outbounds isPrimary network tried (done ++ rest)
        (rest.foldl (poolStep live outbounds isPrimary network) p) := by
    induction rest generalizing done p with
    | nil => simpa using h
    | cons tag rest ih => simpa using ih (h.step tag)
  exact hrun (.start live outbounds isPrimary network tried)

end Pooled

/-- Where the second was measured, the first was too, and its delay is not greater. -/
def NotSlower (live : Live) (a b : Candidate) : Prop :=
  ∀ y, live.Measures b.outbound y → ∃ x, live.Measures a.outbound x ∧ x ≤ y

/-- The members that `poolByLastDelay` lists of a tier. -/
structure Tier (live : Live) (outbounds : Tag → Option Outbound) (isPrimary : Bool)
    (network : Network) (tried tags : List Tag) (pool : List Candidate) : Prop where
  tags_iff : ∀ t, t ∈ pool.map Candidate.tag ↔ t ∈ tags ∧ Offers outbounds network t ∧ t ∉ tried
  distinct : (pool.map Candidate.tag).Nodup
  entry : ∀ c ∈ pool, Entry outbounds isPrimary network c
  order : pool.Pairwise (NotSlower live)

lemma pairwise_of_measured {measured : List Candidate}
    (h : ∀ c ∈ measured, lastDelay live c.outbound = some c.latency) :
    (sortCandidatesByLatency S measured).Pairwise (NotSlower live) := by
  have hsorted := S.sorted measured fasterThan_strictWeak
  refine List.Pairwise.imp_of_mem ?_ hsorted
  intro a b ha hb hba y hy
  obtain rfl : b.latency = y := by
    simpa [h b (S.mem_sort.mp hb)] using (lastDelay_eq_some live).mpr hy
  refine ⟨a.latency, (lastDelay_eq_some live).mp (h a (S.mem_sort.mp ha)), ?_⟩
  rw [fasterThan, byKey_eq_false] at hba
  obtain hlt | ⟨heq, -⟩ := hba <;> omega

lemma tier_poolByLastDelay (live : Live) (tags : List Tag)
    (outbounds : Tag → Option Outbound) (isPrimary : Bool) (network : Network) (tried : List Tag) :
    Tier live outbounds isPrimary network tried tags
      (poolByLastDelay S live tags outbounds isPrimary network tried).1 ∧
    ∀ t, t ∈ (poolByLastDelay S live tags outbounds isPrimary network tried).2 ↔
      t ∈ tried ∨ t ∈ tags ∧ Offers outbounds network t := by
  have h : Pooled live outbounds isPrimary network tried tags _ := .foldl tried tags
  refine ⟨?_, h.tried_iff⟩
  set p := tags.foldl (poolStep live outbounds isPrimary network) { tried }
  have hperm : (poolByLastDelay S live tags outbounds isPrimary network tried).1.Perm
      (p.measured ++ p.unmeasured) := (S.perm _ _).append (S.perm _ _)
  constructor
  · intro t
    rw [(hperm.map Candidate.tag).mem_iff]
    exact h.tags_iff t
  · exact (hperm.map Candidate.tag).nodup_iff.mpr h.distinct
  · exact fun c hc => h.entry c (hperm.mem_iff.mp hc)
  · -- nothing is asked of a member that comes after the measured ones
    have hfree {a b} (hb : b ∈ sortCandidatesByLatency S p.unmeasured) :
        NotSlower live a b := by
      intro y hy
      simp [← lastDelay_eq_some, h.unmeasured b (S.mem_sort.mp hb)] at hy
    refine pairwise_append.mpr ⟨pairwise_of_measured S h.measured, ?_, fun a _ b hb => hfree hb⟩
    exact List.Pairwise.imp_of_mem (fun _ hb _ => hfree hb)
      (pairwise_iff_forall_sublist.mpr fun _ => trivial : List.Pairwise (fun _ _ => True) _)

end

/-- What the dials came to: the first that succeeded, or why none did. -/
structure Outcome (ctx : Nat → Option String) (dial : Candidate → Option String)
    (attempts : List Candidate) (w : Walked) : Prop where
  tried : ∃ rest, attempts.map Candidate.tag = w.tried ++ rest
  success : ∀ c, w.used = .ok c → ∃ before after, attempts = before ++ c :: after ∧
    (∀ d ∈ before, (dial d).isSome) ∧ dial c = none ∧ w.tried = (before ++ [c]).map Candidate.tag
  failure : ∀ err, w.used = .error err →
    (∀ d ∈ attempts, (dial d).isSome) ∨ ∃ i ≤ attempts.length, ctx i = some err

section
variable {ctx : Nat → Option String} {dial : Candidate → Option String} {attempts : List Candidate}
  {failed : List Candidate} {tried : List Tag} {err : String}

section
variable (htried : ∃ rest, attempts.map Candidate.tag = tried ++ rest)
include htried

lemma Outcome.ended {i : Nat} (hi : i ≤ attempts.length) (hctx : ctx i = some err) :
    Outcome ctx dial attempts ⟨.error err, tried, failed⟩ := by
  constructor
  · exact htried
  · intro c hc
    cases hc
  · intro e he
    cases he
    exact .inr ⟨i, hi, hctx⟩

lemma Outcome.exhausted (hall : ∀ d ∈ attempts, (dial d).isSome) :
    Outcome ctx dial attempts ⟨.error err, tried, failed⟩ := by
  constructor
  · exact htried
  · intro c hc
    cases hc
  · intro _ _
    exact .inl hall

end

lemma outcome_dialFrom {before : List Candidate} (hbefore : ∀ d ∈ before, (dial d).isSome)
    (lastErr : String) : Outcome ctx dial (before ++ attempts) (dialFrom ctx dial before.length
      (before.map Candidate.tag) before lastErr attempts) := by
  induction attempts generalizing before lastErr with
  | nil =>
    rw [dialFrom]
    split
    · next err hctx => exact .ended ⟨[], by simp⟩ (by simp) hctx
    · exact .exhausted ⟨[], by simp⟩ (by simpa using hbefore)
  | cons c attempts ih =>
    rw [dialFrom]
    split
    · next err hctx => exact .ended ⟨_, map_append⟩ (by simp) hctx
    · split
      · next hdial =>
        constructor
        · exact ⟨attempts.map Candidate.tag, by simp⟩
        · intro d hd
          cases hd
          exact ⟨before, attempts, rfl, hbefore, hdial, by simp⟩
        · intro e he
          cases he
      · next err hdial =>
        have hnext : ∀ d ∈ before ++ [c], (dial d).isSome := by
          intro d hd
          obtain hd | hd := mem_append.mp hd
          · exact hbefore d hd
          · rw [mem_singleton.mp hd, hdial]
            rfl
        simpa using ih hnext err

lemma outcome_dialAttempts (ctx : Nat → Option String) (dial : Candidate → Option String)
    (attempts : List Candidate) : Outcome ctx dial attempts (dialAttempts ctx dial attempts) := by
  unfold dialAttempts
  split
  · next hnil =>
    have hatts := length_eq_zero_iff.mp hnil
    exact .exhausted ⟨[], by simp [hatts]⟩ (by simp [hatts])
  · have hnone : ∀ d ∈ ([] : List Candidate), (dial d).isSome := by simp
    exact outcome_dialFrom hnone ""

end

namespace LoadBalance

def Member (l : LoadBalance) (c : Candidate) : Prop :=
  c.tag ∈ l.primaryTags ∧ l.primaryOutbounds c.tag = some c.outbound ∨
    c.tag ∈ l.backupTags ∧ l.backupOutbounds c.tag = some c.outbound

def Supports (l : LoadBalance) (network : Network) (t : Tag) : Prop :=
  t ∈ l.primaryTags ∧ Offers l.primaryOutbounds network t ∨
    t ∈ l.backupTags ∧ Offers l.backupOutbounds network t

/-- A sequence of attempts that tries everything once, in the right order: first the member that is
selected, if it supports the network. -/
structure TriesAll (l : LoadBalance) (live : Live) (selected : Option Candidate) (network : Network)
    (attempts : List Candidate) : Prop where
  once : (attempts.map Candidate.tag).Nodup
  all : ∀ t, t ∈ attempts.map Candidate.tag ↔ l.Supports network t
  member : ∀ c ∈ attempts, l.Member c ∧ network ∈ c.outbound.network
  order : ∃ rest,
    attempts = (selected.filter fun c => network ∈ c.outbound.network).toList ++ rest ∧
    (∀ c ∈ rest, c.tag ∈ (if c.isPrimary then l.primaryTags else l.backupTags)) ∧
    rest.Pairwise fun a b => (b.isPrimary = true → a.isPrimary = true) ∧
      (a.isPrimary = b.isPrimary → NotSlower live a b)

variable {l : LoadBalance} {live : Live} {selected : Option Candidate} {network : Network}

lemma member_firstAttempt (hselected : ∀ c, selected = some c → l.Member c) {c : Candidate}
    (hc : c ∈ firstAttempt selected network) : l.Member c ∧ network ∈ c.outbound.network := by
  unfold firstAttempt at hc
  split at hc
  · cases hc
  · split at hc
    · next hnet =>
      rw [mem_singleton.mp hc]
      exact ⟨hselected _ rfl, hnet⟩
    · cases hc

lemma supports_of_member {c : Candidate} (h : l.Member c) (hnet : network ∈ c.outbound.network) :
    l.Supports network c.tag := by
  obtain ⟨hin, hout⟩ | ⟨hin, hout⟩ := h
  · exact .inl ⟨hin, c.outbound, hout, hnet⟩
  · exact .inr ⟨hin, c.outbound, hout, hnet⟩

lemma nodup_firstAttempt (selected : Option Candidate) (network : Network) :
    ((firstAttempt selected network).map Candidate.tag).Nodup := by
  unfold firstAttempt
  split
  · exact nodup_nil
  · split
    · exact nodup_singleton _
    · exact nodup_nil

lemma triesAll_failoverAttempts (l : LoadBalance) (live : Live)
    (network : Network) (hselected : ∀ c, selected = some c → l.Member c) :
    l.TriesAll live selected network (l.failoverAttempts S live selected network) := by
  obtain ⟨hprim, htried⟩ := tier_poolByLastDelay S live l.primaryTags l.primaryOutbounds true
    network ((firstAttempt selected network).map Candidate.tag)
  obtain ⟨hback, -⟩ := tier_poolByLastDelay S live l.backupTags l.backupOutbounds false network
    (poolByLastDelay S live l.primaryTags l.primaryOutbounds true network
      ((firstAttempt selected network).map Candidate.tag)).2
  simp only [failoverAttempts]
  set first := firstAttempt selected network
  set primaries := poolByLastDelay S live l.primaryTags l.primaryOutbounds true network
    (first.map Candidate.tag)
  set backups := poolByLastDelay S live l.backupTags l.backupOutbounds false network primaries.2
  have hprimaries {t} (ht : t ∈ l.primaryTags) (hoffer : Offers l.primaryOutbounds network t) :
      t ∈ first.map Candidate.tag ∨ t ∈ primaries.1.map Candidate.tag := by
    by_cases hin : t ∈ first.map Candidate.tag
    · exact .inl hin
    · exact .inr ((hprim.tags_iff t).mpr ⟨ht, hoffer, hin⟩)
  constructor
  · simp only [map_append, nodup_append]
    refine ⟨⟨nodup_firstAttempt selected network, hprim.distinct, ?_⟩, hback.distinct, ?_⟩
    · rintro t ht u hu rfl
      exact ((hprim.tags_iff t).mp hu).2.2 ht
    · rintro t ht u hu rfl
      refine ((hback.tags_iff t).mp hu).2.2 ((htried t).mpr ?_)
      obtain ht | ht := mem_append.mp ht
      · exact .inl ht
      · obtain ⟨hin, hoffer, -⟩ := (hprim.tags_iff t).mp ht
        exact .inr ⟨hin, hoffer⟩
  · intro t
    simp only [map_append, mem_append]
    constructor
    · rintro ((ht | ht) | ht)
      · obtain ⟨c, hc, rfl⟩ := mem_map.mp ht
        obtain ⟨hmem, hnet⟩ := member_firstAttempt hselected hc
        exact supports_of_member hmem hnet
      · obtain ⟨hin, hoffer, -⟩ := (hprim.tags_iff t).mp ht
        exact .inl ⟨hin, hoffer⟩
      · obtain ⟨hin, hoffer, -⟩ := (hback.tags_iff t).mp ht
        exact .inr ⟨hin, hoffer⟩
    · rintro (⟨hin, hoffer⟩ | ⟨hin, hoffer⟩)
      · exact .inl (hprimaries hin hoffer)
      · by_cases hdone : t ∈ primaries.2
        · obtain hdone | ⟨hin, hoffer⟩ := (htried t).mp hdone
          · exact .inl (.inl hdone)
          · exact .inl (hprimaries hin hoffer)
        · exact .inr ((hback.tags_iff t).mpr ⟨hin, hoffer, hdone⟩)
  · intro c hc
    simp only [mem_append] at hc
    obtain (hc | hc) | hc := hc
    · exact member_firstAttempt hselected hc
    · have hin := ((hprim.tags_iff c.tag).mp (mem_map_of_mem hc)).1
      have hent := hprim.entry c hc
      exact ⟨.inl ⟨hin, hent.outbound⟩, hent.network⟩
    · have hin := ((hback.tags_iff c.tag).mp (mem_map_of_mem hc)).1
      have hent := hback.entry c hc
      exact ⟨.inr ⟨hin, hent.outbound⟩, hent.network⟩
  · have hfirst : first = (selected.filter fun c => network ∈ c.outbound.network).toList := by
      cases selected with
      | none => rfl
      | some c =>
        by_cases hnet : network ∈ c.outbound.network <;>
          simp [first, firstAttempt, Option.filter, hnet]
    refine ⟨primaries.1 ++ backups.1, hfirst ▸ append_assoc .., ?_, ?_⟩
    · intro c hc
      obtain hc | hc := mem_append.mp hc
      · rw [if_pos (hprim.entry c hc).tier]
        exact ((hprim.tags_iff c.tag).mp (mem_map_of_mem hc)).1
      · rw [if_neg (by simp [(hback.entry c hc).tier])]
        exact ((hback.tags_iff c.tag).mp (mem_map_of_mem hc)).1
    · refine pairwise_append.mpr ⟨?_, ?_, fun a ha b hb => ?_⟩
      · refine List.Pairwise.imp_of_mem ?_ hprim.order
        intro a b ha _ hab
        exact ⟨fun _ => (hprim.entry a ha).tier, fun _ => hab⟩
      · refine List.Pairwise.imp_of_mem ?_ hback.order
        intro a b _ hb hab
        refine ⟨fun hb' => ?_, fun _ => hab⟩
        rw [(hback.entry b hb).tier] at hb'
        cases hb'
      · refine ⟨fun _ => (hprim.entry a ha).tier, fun htier => ?_⟩
        simp [(hprim.entry a ha).tier, (hback.entry b hb).tier] at htier

/-- A dial tries the strategy's choice first, then every other member that supports the
network, once and in the right order; it ends with the first success, and fails only if all
attempts failed or the context ended. -/
theorem failover_tries_everything (S : SliceSort) (l : LoadBalance) (live : Live)
    (ctx : Nat → Option String) (selected : Option Candidate) (network : Network)
    (dial : Candidate → Option String) (hselected : ∀ c, selected = some c → l.Member c) :
    l.TriesAll live selected network (l.failoverAttempts S live selected network) ∧
    Outcome ctx dial (l.failoverAttempts S live selected network)
      (l.walk S live ctx selected network dial) :=
  ⟨triesAll_failoverAttempts S l live network hselected, outcome_dialAttempts ctx dial _⟩

/-- Delays of the members `a` and `b`. -/
def twoMeasured : Live where
  history tag := if tag = [97] then some 40 else if tag = [98] then some 20 else none

/-- Primaries `a` to `d` and a backup that was not measured either. -/
def fiveMembers : LoadBalance where
  primaryTags := [[97], [98], [99], [100]]
  backupTags := [[101]]
  primaryOutbounds tag := some { tag, network := [.tcp] }
  backupOutbounds tag := some { tag, network := [.tcp, .udp] }
  strategy := .random

/-- The member `d` was chosen and fails. -/
theorem failover_five_members :
    let chosen : Candidate := { tag := [100], outbound := { tag := [100], network := [.tcp] } }
    let attempts := fiveMembers.failoverAttempts .insertion twoMeasured (some chosen) .tcp
    attempts.map Candidate.tag = [[100], [98], [97], [99], [101]] ∧
      fiveMembers.TriesAll twoMeasured (some chosen) .tcp attempts := by
  intro chosen attempts
  refine ⟨by decide, ?_⟩
  refine (failover_tries_everything .insertion fiveMembers twoMeasured (fun _ => none) (some chosen)
    .tcp (fun _ => some "refused") ?_).1
  rintro c ⟨⟩
  exact .inl ⟨by decide, rfl⟩

variable {S : SliceSort} {outbounds : Tag → Option Outbound} {isPrimary : Bool} {tags : List Tag}

lemma member_healthy {c : Candidate}
    (hc : c ∈ l.healthyCandidates S live tags outbounds isPrimary) :
    c.tag ∈ tags ∧ outbounds c.tag = some c.outbound := by
  obtain ⟨tag, htag, hc⟩ := mem_filterMap.mp (S.mem_sort.mp hc)
  obtain ⟨detour, hdetour, hc⟩ := bind_eq_some_iff.mp hc
  split at hc
  · cases hc
  · cases hc
  · obtain ⟨-, hc⟩ := ite_none_left_eq_some.mp hc
    cases hc
    exact ⟨htag, hdetour⟩

lemma member_listed
    {c : Candidate} (hc : c ∈ tags.filterMap fun tag => (outbounds tag).map fun detour =>
      ({ tag, outbound := detour, isPrimary } : Candidate)) :
    c.tag ∈ tags ∧ outbounds c.tag = some c.outbound := by
  obtain ⟨tag, htag, hc⟩ := mem_filterMap.mp hc
  obtain ⟨detour, hdetour, rfl⟩ := map_eq_some_iff.mp hc
  exact ⟨htag, hdetour⟩

variable {admitted : State → Action → Prop} {s : State}

lemma member_snapshot (h : Machine.Reaches (l.step S) admitted l.start s) :
    ∀ x, s.snapshot = some x → ∀ c ∈ x.candidates, l.Member c := by
  refine h.invariant (P := fun s => ∀ x, s.snapshot = some x → ∀ c ∈ x.candidates, l.Member c) ?_ ?_
  · intro x hx c hc
    obtain ⟨-, hx⟩ := ite_none_left_eq_some.mp hx
    cases hx
    split at hc
    · exact .inr (member_listed hc)
    · exact .inl (member_listed hc)
  · intro s t a _ ht hmem
    cases a with
    | probe live =>
      cases ht
      exact hmem
    | rebuildSnapshot =>
      simp only [step] at ht
      split at ht
      · cases ht
        exact hmem
      · next y hy =>
        cases ht
        rintro x ⟨⟩ c hc
        rw [(rebuilt_cases hy).1] at hc
        simp only [candidates] at hc
        split at hc
        · exact .inl (member_healthy (selectTopN_subset _ _ _ _ _ hc))
        · exact .inr (member_healthy hc)

variable {intn : (n : Nat) → Fin (n + 1)}

lemma member_fallback {c : Candidate}
    (hc : l.selectEmptyPoolFallback intn = some c) : l.Member c := by
  simp only [selectEmptyPoolFallback] at hc
  split at hc
  · cases hc
  · next first rest hlist =>
    have hin : c ∈ first :: rest := some.inj hc ▸ get_mem ..
    rw [← hlist] at hin
    obtain hin | hin := mem_append.mp hin
    · exact .inl (member_listed hin)
    · exact .inr (member_listed hin)

variable {key : Bytes}

lemma select_mem {snapshot : CandidateSnapshot}
    {c : Candidate} (hc : l.select S intn snapshot key = .ok c) :
    c ∈ snapshot.candidates := by
  by_cases hkey : key = []
  · rw [select, selectFromSnapshot] at hc
    split at hc
    · cases hc
    · next first rest hlist =>
      rw [if_pos hkey] at hc
      split at hc
      · cases hc
        rw [hlist]
        exact get_mem ..
      · cases hc
  · obtain ⟨e, rfl, hnear⟩ := nearest_of_select hkey hc
    exact (mem_virtualEntries.mp hnear.mem).1

lemma member_pickCandidate (h : Machine.Reaches (l.step S) admitted l.start s)
    {c : Candidate} (hc : l.pickCandidate S intn s.snapshot key = .ok (some c)) :
    l.Member c := by
  have hmem : ∀ d ∈ s.snapshot.elim [] CandidateSnapshot.candidates, l.Member d := by
    cases hs : s.snapshot with
    | none => exact fun d hd => absurd hd not_mem_nil
    | some x => exact member_snapshot h x hs
  unfold pickCandidate at hc
  split at hc
  · split at hc
    · exact member_fallback (Except.ok.inj hc)
    · cases hc
  · next first rest hlist =>
    rw [hlist] at hmem
    split at hc
    · cases hc
      exact hmem _ (get_mem ..)
    · cases hsel : l.select S intn ⟨first :: rest, 0⟩ key with
      | error e =>
        rw [hsel] at hc
        cases hc
      | ok d =>
        rw [hsel] at hc
        cases hc
        exact hmem _ (select_mem hsel)

/-- Whatever a group has published, the strategy's choice for a dial is followed by all others. -/
theorem dial_tries_members (intn : (n : Nat) → Fin (n + 1)) (key : Bytes) (live : Live)
    (network : Network) {selected : Option Candidate}
    (h : Machine.Reaches (l.step S) (fun _ _ => True) l.start s)
    (hpick : l.pickCandidate S intn s.snapshot key = .ok selected) :
    l.TriesAll live selected network (l.failoverAttempts S live selected network) := by
  apply triesAll_failoverAttempts
  rintro c rfl
  exact member_pickCandidate h hpick

/-- After a probe and a rebuild the fastest primary is chosen. -/
theorem dial_tries_measured_members : ∃ s,
    Machine.run (fiveMembers.step .insertion) fiveMembers.start
      [.probe twoMeasured, .rebuildSnapshot] = some s ∧
    ∃ c, fiveMembers.pickCandidate .insertion (fun _ => 0) s.snapshot [] = .ok (some c) ∧
      let attempts := fiveMembers.failoverAttempts .insertion twoMeasured (some c) .tcp
      attempts.map Candidate.tag = [[98], [97], [99], [100], [101]] ∧
        fiveMembers.TriesAll twoMeasured (some c) .tcp attempts :=
  Machine.exists_end (by decide) fun h => ⟨_, rfl, by decide, dial_tries_members (fun _ => 0) []
    twoMeasured .tcp (Machine.Reaches.start.run (fun _ _ _ => trivial) h) rfl⟩

end LoadBalance

end SingBox.Group
