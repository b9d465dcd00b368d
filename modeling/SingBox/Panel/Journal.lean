import SingBox.Panel.Node

/-! What holds of journaled reports at every moment: whose bytes they carry, where
they are kept, and what a call may rely on while others run. -/

namespace SingBox.Panel

/-- Byte number `i` that a process counted for a key, each way, is in the record. -/
def TrafficRecord.Carries (x : TrafficRecord) (process : Nat) (k : Key) (d : Direction) (i : Int) :
    Prop :=
  x.source.process = process ∧ x.source.key = k ∧
    x.source.offset d ≤ i ∧ i < x.source.offset d + x.bytes d

instance (x : TrafficRecord) (process : Nat) (k : Key) (d : Direction) (i : Int) :
    Decidable (x.Carries process k d i) :=
  inferInstanceAs (Decidable (_ ∧ _))

/-- Some record has the byte. -/
def Carry (records : List TrafficRecord) (process : Nat) (k : Key) (d : Direction) (i : Int) : Prop :=
  ∃ x ∈ records, x.Carries process k d i

instance (records : List TrafficRecord) (process : Nat) (k : Key) (d : Direction) (i : Int) :
    Decidable (Carry records process k d i) :=
  inferInstanceAs (Decidable (∃ x ∈ records, _))

def PendingReport.records (e : PendingReport) : List TrafficRecord :=
  (e.report.map (·.records)).getD []

namespace Tracker

variable (t : Tracker)

/-- The bytes of the records are off the counters, or were those of an earlier
process. -/
def Settled (records : List TrafficRecord) : Prop :=
  ∀ x ∈ records, x.source.process < t.process ∨
    x.source.process = t.process ∧ ∀ d, x.source.offset d + x.bytes d ≤ t.removed x.source.key d

/-- The records are those of the snapshot that is staged. -/
def Staged (records : List TrafficRecord) : Prop :=
  ∃ S, t.staged = some S ∧ S.report.records = records

/-- What is staged begins where the counters begin. -/
def Based (S : StagedSnapshot) : Prop :=
  ∀ x ∈ S.report.records, x.source.process = t.process ∧
    x.source.offset = t.removed x.source.key ∧ x.bytes = amount S.snapshot x.source.key

variable {t t' : Tracker} {records : List TrafficRecord}

section
variable (h : t.Settled records)
include h

/-- Bytes staged now come after the bytes of settled records. -/
theorem Settled.not_carry {S : StagedSnapshot} (hS : t.Based S)
    {process : Nat} {k : Key} {d : Direction} {i : Int} (hrecs : Carry records process k d i) :
    ¬Carry S.report.records process k d i := by
  rintro ⟨y, hy, hproc', hkey', hfrom', -⟩
  obtain ⟨x, hx, hproc, hkey, -, hto⟩ := hrecs
  obtain ⟨hp, hoffset, -⟩ := hS y hy
  obtain hlt | ⟨-, hle⟩ := h x hx
  · omega
  · have hle := hle d
    rw [hkey] at hle
    rw [hoffset, hkey'] at hfrom'
    omega

lemma Settled.mono (hproc : t'.process = t.process)
    (hrem : ∀ k, t.removed k ≤ t'.removed k) : t'.Settled records := by
  intro x hx
  rw [hproc]
  obtain hlt | ⟨heq, hle⟩ := h x hx
  · exact .inl hlt
  · exact .inr ⟨heq, fun d => le_trans (hle d) (hrem x.source.key d)⟩

lemma Settled.process_le {x : TrafficRecord} (hx : x ∈ records) : x.source.process ≤ t.process := by
  obtain hlt | ⟨heq, -⟩ := h x hx
  · exact Nat.le_of_lt hlt
  · exact Nat.le_of_eq heq

end

end Tracker

variable (R : Reporter)

/-- The entry is as the reporter makes them. -/
def Reporter.Issued (e : PendingReport) : Prop :=
  ∃ r, e.report = some r ∧ r.startedAt = e.startedAt ∧ R.computeBodyHash r.body = .ok e.bodyHash ∧
    e.idempotencyKey = R.makeIdempotencyKey e.startedAt e.bodyHash

namespace Node

/-- The panel accepted a report under the key of the entry and with its hash. -/
def Accepted (s : Node) (e : PendingReport) : Prop :=
  ∃ r, (e.idempotencyKey, r) ∈ s.accepted ∧ R.computeBodyHash r.body = .ok e.bodyHash

/-- The entry was accepted, is pending, or is quarantined. -/
def Kept (s : Node) (e : PendingReport) : Prop :=
  s.Accepted R e ∨ e.core ∈ s.store.pending ∨ e.core ∈ s.store.quarantined

/-- What is journaled and sent. -/
structure Journal (R : Reporter) (s : Node) : Prop where
  issued : ∀ {e}, e ∈ s.journaled → R.Issued e
  pending : ∀ {q}, q ∈ s.store.pending → ∃ e ∈ s.journaled, e.core = q
  quarantined : ∀ {q}, q ∈ s.store.quarantined → ∃ e ∈ s.journaled, e.core = q
  sent : ∀ {key r}, (key, r) ∈ s.accepted →
    ∃ e ∈ s.journaled, e.idempotencyKey = key ∧ e.report = some r
  memory : ∀ {r}, s.memory.pendingReport = some r → ∃ e ∈ s.journaled, e.report = some r ∧
    e.idempotencyKey = s.memory.pendingKey ∧ e.bodyHash = s.memory.pendingHash
  kept : ∀ {e}, e ∈ s.journaled → s.Kept R e

/-- Where the bytes of journaled reports are. -/
structure Apart (s : Node) : Prop where
  valid : s.accounts.Valid
  based : ∀ {S}, s.tracker.staged = some S → s.tracker.Based S
  placed : ∀ {e}, e ∈ s.journaled → s.tracker.Settled e.records ∨ s.tracker.Staged e.records
  settled : s.staging = none → ∀ e ∈ s.journaled, s.tracker.Settled e.records
  disjoint : ∀ {e e'}, e ∈ s.journaled → e' ∈ s.journaled → e.idempotencyKey ≠ e'.idempotencyKey →
    ∀ {process k d i}, Carry e.records process k d i → ¬Carry e'.records process k d i

/-- Every byte removed is in a journaled report. -/
structure Covered (s : Node) : Prop where
  removed : ∀ {process k d i}, 0 ≤ i → i < s.removedBy process k d →
    ∃ e ∈ s.journaled, Carry e.records process k d i
  mapped : ∀ k, s.tracker.live.lookup k ≠ none → s.tracker.inboundMapping k.inboundTag ≠ none
  whole : ∀ {S}, s.tracker.staged = some S → ∀ k, amount S.snapshot k ≠ 0 →
    ∃ x ∈ S.report.records, x.source.key = k
  confirmed : ∀ {S}, s.tracker.staged = some S → S.confirmed = true →
    (∃ e ∈ s.journaled, e.records = S.report.records) ∨ ∀ k, amount S.snapshot k = 0
  keys : ∀ {e e'}, e ∈ s.journaled → e' ∈ s.journaled → e.idempotencyKey = e'.idempotencyKey →
    e.core = e'.core

/-- The invariant; that every byte removed is in a report is asked for where bytes
are to be billed exactly once. -/
structure Inv (R : Reporter) (exact : Prop) (s : Node) : Prop where
  journal : s.Journal R
  apart : s.Apart
  covered : exact → s.Covered

/-- What becomes of a staged snapshot while the call that staged it goes on. -/
structure Handled (t t' : Tracker) : Prop where
  staged : ∀ {S'}, t'.staged = some S' → ∃ S, t.staged = some S ∧ S'.report = S.report ∧
    (S.confirmed = true → S'.confirmed = true)
  settled : ∀ {S}, t.staged = some S → t'.staged = none → t'.Settled S.report.records

/-- What a call relies on: what is on record stays there, and while it is staging,
or between the copy and the replacement of the pending reports, nothing is
journaled by others. -/
structure Rely (i : Nat) (s t : Node) : Prop where
  process : t.tracker.process = s.tracker.process
  removed : ∀ k, s.tracker.removed k ≤ t.tracker.removed k
  journaled : ∀ {e}, e ∈ s.journaled → e ∈ t.journaled
  accepted : ∀ {a}, a ∈ s.accepted → a ∈ t.accepted
  quarantined : ∀ {q}, q ∈ s.store.quarantined → q ∈ t.store.quarantined
  unstaged : s.staging ≠ some i → t.staging ≠ some i
  staging : s.staging = some i → t.staging = some i ∧ t.journaled = s.journaled ∧
    Handled s.tracker t.tracker
  recovering : t.recovering i = s.recovering i
  recovered : s.recovering i = true → t.journaled = s.journaled

lemma Handled.of_eq {t t' : Tracker} (h : t'.staged = t.staged) : Handled t t' := by
  constructor
  · intro S' hS'
    exact ⟨S', h ▸ hS', rfl, id⟩
  · intro S hS hnone
    simp [h, hS] at hnone

lemma Handled.trans {t u v : Tracker} (h : Handled t u) (h' : Handled u v)
    (hproc : v.process = u.process) (hrem : ∀ k, u.removed k ≤ v.removed k) : Handled t v := by
  constructor
  · intro S'' hS''
    obtain ⟨S', hS', hrep', hconf'⟩ := h'.staged hS''
    obtain ⟨S, hS, hrep, hconf⟩ := h.staged hS'
    exact ⟨S, hS, hrep'.trans hrep, fun hc => hconf' (hconf hc)⟩
  · intro S hS hnone
    cases hu : u.staged with
    | none => exact (h.settled hS hu).mono hproc hrem
    | some S' =>
      obtain ⟨S₀, hS₀, hrep, -⟩ := h.staged hu
      cases hS.symm.trans hS₀
      rw [← hrep]
      exact h'.settled hu hnone

lemma Rely.refl (i : Nat) (s : Node) : Rely i s s :=
  ⟨rfl, fun _ => le_refl _, id, id, id, id, fun h => ⟨h, rfl, .of_eq rfl⟩, rfl, fun _ => rfl⟩

lemma Rely.trans {i : Nat} {s t u : Node} (h : Rely i s t) (h' : Rely i t u) : Rely i s u := by
  refine ⟨h'.process.trans h.process, fun k => le_trans (h.removed k) (h'.removed k),
    fun he => h'.journaled (h.journaled he), fun ha => h'.accepted (h.accepted ha),
    fun hq => h'.quarantined (h.quarantined hq), fun hs => h'.unstaged (h.unstaged hs), ?_,
    h'.recovering.trans h.recovering, ?_⟩
  · intro hs
    obtain ⟨ht, hj, hh⟩ := h.staging hs
    obtain ⟨hu, hj', hh'⟩ := h'.staging ht
    exact ⟨hu, hj'.trans hj, hh.trans hh' h'.process h'.removed⟩
  · intro hs
    exact (h'.recovered (h.recovering.trans hs)).trans (h.recovered hs)

/-- A step that journals nothing and leaves the staging alone. -/
theorem Rely.of_frame {i : Nat} {s t : Node} (hproc : t.tracker.process = s.tracker.process)
    (hrem : ∀ k, s.tracker.removed k ≤ t.tracker.removed k)
    (hjour : t.journaled = s.journaled) (hacc : ∀ {a}, a ∈ s.accepted → a ∈ t.accepted)
    (hquar : ∀ {q}, q ∈ s.store.quarantined → q ∈ t.store.quarantined)
    (hstage : s.staging = some i ↔ t.staging = some i) (hhandled : Handled s.tracker t.tracker)
    (hrecov : t.recovering i = s.recovering i) : Rely i s t :=
  ⟨hproc, hrem, fun he => hjour ▸ he, hacc, hquar,
    fun hs ht => hs (hstage.mpr ht), fun hs => ⟨hstage.mp hs, hjour, hhandled⟩,
    hrecov, fun _ => hjour⟩

end Node

end SingBox.Panel
