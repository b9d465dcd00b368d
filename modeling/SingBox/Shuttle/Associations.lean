import SingBox.Lib.Machine
import SingBox.Shuttle.Keepalive

/-! The UDP associations of an inbound: one table for all connections, with the id that a
client gave to the stream as the key. -/

namespace SingBox.Shuttle.Associations
open Lib Function List Machine FrameType
open Option (some map_eq_some_iff bind_eq_some_iff ite_some_none_eq_some)

/-- `NATManagerConfig`, as `NewNATManager` completes it. -/
structure Config where
  maxMappings : Nat := 16
  maxPacketSize : Nat := 1500

/-- Host and port; nothing is the empty address. -/
abbrev Destination := Option (Bytes × UInt16)

/-- How far an association is: it was admitted and not yet put into the table, its loop runs,
the loop has ended, the entry was removed. -/
inductive Phase
  | admitted
  | running
  | leaving
  | gone
  deriving DecidableEq

structure Association where
  streamId : UInt32
  defaultDest : Destination
  phase : Phase := .admitted
  endedAt : Option Nat := none
  packets : List (Destination × Bytes) := []
  deriving DecidableEq

def Association.isOpen (a : Association) : Bool := a.phase ≠ .gone

/-- What a client can see of the inbound: its associations, what was written to its connection,
and whether its session has failed. -/
structure Client where
  associations : List Association := []
  written : List Frame := []
  failed : Bool := false
  deriving DecidableEq

/-- `NATEntry`, with the connection that it was made for. -/
structure NATEntry (n : Nat) where
  owner : Fin n
  destination : Destination
  created : Nat
  lastActivity : Nat
  deriving DecidableEq

abbrev Table (n : Nat) := List (UInt32 × NATEntry n)

inductive Op (n : Nat)
  | skip
  | put (streamId : UInt32) (entry : NATEntry n)
  | touchActivity (streamId : UInt32) (now : Nat)
  | remove (streamId : UInt32)

namespace Op

variable {n : Nat}

def touched (streamId : UInt32) (now : Nat) (mapping : UInt32 × NATEntry n) : UInt32 × NATEntry n :=
  if mapping.1 = streamId then (mapping.1, { mapping.2 with lastActivity := now }) else mapping

def apply (table : Table n) : Op n → Table n
  | .skip => table
  | .put streamId entry => (streamId, entry) :: table.filter (·.1 ≠ streamId)
  | .touchActivity streamId now => table.map (touched streamId now)
  | .remove streamId => table.filter (·.1 ≠ streamId)

def key : Op n → Option UInt32
  | .skip => none
  | .put streamId _ | .touchActivity streamId _ | .remove streamId => some streamId

end Op

def isFull {n : Nat} (config : Config) (table : Table n) : Bool := table.length ≥ config.maxMappings

/-- What happens on one connection. Associations are known by their numbers. -/
inductive Act
  /-- `handleUDPAssociate` up to the entry: the frame of the request. -/
  | associate (frame : Frame)
  /-- The entry is put into the table and the loop is started. -/
  | put (k : Nat)
  /-- The loop reads a frame, or can not read one. -/
  | receive (k : Nat) (frame : Frame)
  | readError (k : Nat)
  /-- What is deferred to the end of `handleUDPStream`. -/
  | finish (k : Nat)

variable (streamId : UInt32)

def openResponseFrame (payload : Bytes) : Frame :=
  { type := openResponse, flags := 0, streamId, payload }

def errorMaxRequests : UInt8 := 0x11

def defaultDest (frame : Frame) : Destination :=
  match decodeOpenRequest frame.payload with
  | .ok request => if request.port ≠ 0 then some (request.address.host, request.port) else none
  | .error _ => none

namespace Client

/-- The datagram that a frame brings, with the address it is for. -/
def packet (config : Config) (a : Association) (frame : Frame) : List (Destination × Bytes) :=
  if frame.streamId = a.streamId ∧ frame.type = data then
    match decodeUDPDatagram frame.payload with
    | .error _ => []
    | .ok datagram =>
      if datagram.payload.length > config.maxPacketSize then []
      else
        let destination :=
          if datagram.port ≠ 0 then some (datagram.address.host, datagram.port) else a.defaultDest
        [(destination, datagram.payload)]
  else []

/-- The association after the frame, and after the end of its loop if it does not go on. -/
def received (config : Config) (now : Nat) (a : Association) (frame : Frame) (goOn : Bool) :
    Association :=
  { a with
    packets := a.packets ++ packet config a frame
    phase := if goOn then .running else .leaving
    endedAt := if goOn then a.endedAt else some now }

def respond (client : Client) (frame : Frame) (response : OpenResponse) : Option Client :=
  match encodeOpenResponse response with
  | .error _ => none
  | .ok payload =>
    some { client with written := client.written ++ [openResponseFrame frame.streamId payload] }

/-- The next state of a connection and what it does to the table. All that it knows of the
other connections is whether the table is full. -/
def act {n : Nat} (config : Config) (now : Nat) (full : Bool) (c : Fin n) (client : Client) :
    Act → Option (Client × Op n)
  | .associate frame =>
    if client.failed then none
    else if full then
      let response : OpenResponse :=
        { status := errorMaxRequests, message := utf8 "max UDP associations reached" }
      (client.respond frame response).map fun client => ({ client with failed := true }, .skip)
    else (client.respond frame { status := ErrorCode.ok }).map fun client =>
      let a : Association := { streamId := frame.streamId, defaultDest := defaultDest frame }
      ({ client with associations := client.associations ++ [a] }, .skip)
  | .put k =>
    client.associations[k]?.bind fun a =>
      if a.phase = .admitted then
        let entry := { owner := c, destination := a.defaultDest, created := now, lastActivity := now }
        some ({ client with associations := client.associations.set k { a with phase := .running } },
          if full then .skip else .put a.streamId entry)
      else none
  | .receive k frame =>
    client.associations[k]?.bind fun a =>
      if a.phase = .running then
        let handled := handleUDPFrame a.streamId config.maxPacketSize frame
        some ({ client with
          associations := client.associations.set k (received config now a frame handled.2)
          written := client.written ++ handled.1 },
          if frame.streamId = a.streamId then .touchActivity a.streamId now else .skip)
      else none
  | .readError k =>
    client.associations[k]?.bind fun a =>
      if a.phase = .running then
        let a' : Association := { a with phase := .leaving, endedAt := some now }
        some ({ client with associations := client.associations.set k a' }, .skip)
      else none
  | .finish k =>
    client.associations[k]?.bind fun a =>
      if a.phase = .leaving then
        some ({ client with associations := client.associations.set k { a with phase := .gone } },
          .remove a.streamId)
      else none

end Client

/-- The connections of an inbound and the table that they share. -/
structure State (n : Nat) where
  now : Nat := 0
  clients : Fin n → Client := fun _ => {}
  table : Table n := []

inductive Action (n : Nat)
  | tick
  | act (c : Fin n) (act : Act)

/-- Time passes for all; what else happens happens on one connection. -/
def Action.concerns {n : Nat} (c : Fin n) : Action n → Bool
  | .tick => true
  | .act d _ => d = c

section

variable {n : Nat} (config : Config)

def step : Machine (State n) (Action n)
  | s, .tick => some { s with now := s.now + 1 }
  | s, .act c act =>
    ((s.clients c).act config s.now (isFull config s.table) c act).map fun (client, op) => { s with
      clients := update s.clients c client
      table := op.apply s.table }

def State.entriesOf (s : State n) (c : Fin n) : Table n := s.table.filter (·.2.owner = c)

/-- What a client sees, and what is in the table for it, is what it would be without the other
clients. -/
def Isolated (actions : List (Action n)) (s : State n) : Prop :=
  ∀ c, ∃ alone, run (step config) {} (actions.filter (Action.concerns c)) = some alone ∧
    s.clients c = alone.clients c ∧ s.entriesOf c = alone.table

/-- An association is only asked for while the table has room, under an id that no open
association of another connection has, and is put into the table while it has room. -/
def apart (s : State n) : Action n → Bool
  | .act c (.associate frame) =>
    !isFull config s.table && decide (∀ d ≠ c, ∀ a ∈ (s.clients d).associations,
      a.isOpen = true → a.streamId ≠ frame.streamId)
  | .act _ (.put _) => !isFull config s.table
  | _ => true

end

namespace Op

variable {n : Nat} {table : Table n} {op : Op n} {c : Fin n}

/-- The entry that the table is given is for the connection that gives it. -/
def OwnedBy (c : Fin n) : Op n → Prop
  | .put _ entry => entry.owner = c
  | _ => True

lemma owner_touched (streamId : UInt32) (now : Nat) (mapping : UInt32 × NATEntry n) :
    (touched streamId now mapping).2.owner = mapping.2.owner := by
  unfold touched
  split <;> rfl

lemma key_touched (streamId : UInt32) (now : Nat) (mapping : UInt32 × NATEntry n) :
    (touched streamId now mapping).1 = mapping.1 := by
  unfold touched
  split <;> rfl

/-- What a connection does to its own entries does not depend on the others. -/
theorem filter_apply_own (h : op.OwnedBy c) :
    (op.apply table).filter (·.2.owner = c) = op.apply (table.filter (·.2.owner = c)) := by
  cases op with
  | skip => rfl
  | put streamId entry =>
    have howner : entry.owner = c := h
    simp [apply, howner, Bool.and_comm]
  | touchActivity streamId now =>
    simp only [apply, filter_map]
    congr 1
    exact filter_congr fun mapping _ => by rw [comp, owner_touched]
  | remove streamId => simp [apply, Bool.and_comm]

/-- Entries of another connection stay, unless one has the id. -/
theorem filter_apply_other {d : Fin n} (hne : d ≠ c) (h : op.OwnedBy d)
    (hkey : ∀ mapping ∈ table, mapping.2.owner = c → op.key ≠ some mapping.1) :
    (op.apply table).filter (·.2.owner = c) = table.filter (·.2.owner = c) := by
  have hfilter streamId (hop : op.key = some streamId) :
      (table.filter (·.1 ≠ streamId)).filter (·.2.owner = c) = table.filter (·.2.owner = c) := by
    rw [filter_filter]
    apply filter_congr
    intro mapping hmem
    by_cases howner : mapping.2.owner = c
    · have hother : mapping.1 ≠ streamId := by
        rintro rfl
        exact hkey mapping hmem howner hop
      simp [howner, hother]
    · simp [howner]
  cases op with
  | skip => rfl
  | put streamId entry =>
    have howner : entry.owner ≠ c := fun heq => hne (h.symm.trans heq)
    rw [apply, filter_cons, if_neg (by simpa using howner)]
    exact hfilter streamId rfl
  | touchActivity streamId now =>
    rw [apply, filter_map]
    have hcongr : table.filter ((fun m => decide (m.2.owner = c)) ∘ touched streamId now) =
        table.filter (·.2.owner = c) :=
      filter_congr fun mapping _ => by rw [comp, owner_touched]
    rw [hcongr]
    refine (map_congr_left fun mapping hmem => ?_).trans (map_id _)
    obtain ⟨hin, howner⟩ := mem_filter.mp hmem
    have hother : mapping.1 ≠ streamId := by
      rintro rfl
      exact hkey mapping hin (of_decide_eq_true howner) rfl
    rw [touched, if_neg hother, id]
  | remove streamId => exact hfilter streamId rfl

/-- A mapping of the next table was there before, up to its activity, or is the new one. -/
theorem mem_apply {mapping : UInt32 × NATEntry n} (h : mapping ∈ op.apply table) :
    (∃ old ∈ table, old.1 = mapping.1 ∧ old.2.owner = mapping.2.owner ∧ op ≠ .remove mapping.1) ∨
      op = .put mapping.1 mapping.2 := by
  cases op with
  | skip => exact Or.inl ⟨mapping, h, rfl, rfl, by simp⟩
  | put streamId entry =>
    obtain rfl | hmem := mem_cons.mp h
    · exact Or.inr rfl
    · exact Or.inl ⟨mapping, (mem_filter.mp hmem).1, rfl, rfl, by simp⟩
  | touchActivity streamId now =>
    obtain ⟨old, hold, rfl⟩ := mem_map.mp h
    exact Or.inl ⟨old, hold, (key_touched ..).symm, (owner_touched ..).symm, by simp⟩
  | remove streamId =>
    obtain ⟨hmem, hkey⟩ := mem_filter.mp h
    refine Or.inl ⟨mapping, hmem, rfl, rfl, ?_⟩
    rintro heq
    cases heq
    simp at hkey

end Op

namespace Client

def HasOpen (client : Client) (streamId : UInt32) : Prop :=
  ∃ a ∈ client.associations, a.isOpen = true ∧ a.streamId = streamId

variable {n : Nat} {config : Config} {now : Nat} {full : Bool} {c : Fin n} {client client' : Client}
  {op : Op n}

/-- What an action can change: it opens an association if it is a request, it closes one if it
removes its entry, and it touches the entries of open associations only. -/
structure Change (client client' : Client) (act : Act) (c : Fin n) (op : Op n) : Prop where
  owned : op.OwnedBy c
  key : ∀ streamId, op.key = some streamId → client.HasOpen streamId
  put : ∀ streamId entry, op = .put streamId entry → client'.HasOpen streamId
  opened : ∀ streamId, client'.HasOpen streamId →
    client.HasOpen streamId ∨ ∃ frame, act = .associate frame ∧ frame.streamId = streamId
  kept : ∀ streamId, client.HasOpen streamId → client'.HasOpen streamId ∨ op = .remove streamId

variable {act : Act}

lemma change_skip (hopened : ∀ streamId, client'.HasOpen streamId →
      client.HasOpen streamId ∨ ∃ frame, act = .associate frame ∧ frame.streamId = streamId)
    (hkept : ∀ streamId, client.HasOpen streamId → client'.HasOpen streamId) :
    Change client client' act c .skip where
  owned := trivial
  key := nofun
  put := nofun
  opened := hopened
  kept := fun streamId h => Or.inl (hkept streamId h)

lemma change_set {k : Nat} {a a' : Association} {written : List Frame}
    (hk : client.associations[k]? = some a) (hopen : a.isOpen)
    (hid : a'.streamId = a.streamId) (howned : op.OwnedBy c)
    (hkey : ∀ streamId, op.key = some streamId → streamId = a.streamId)
    (hput : ∀ streamId entry, op = .put streamId entry → a'.isOpen)
    (hclose : a'.isOpen = false → op = .remove a.streamId) :
    Change client { client with associations := client.associations.set k a', written } act c op := by
  have hmem : a ∈ client.associations := mem_of_getElem? hk
  have hmem' := List.mem_set (List.getElem?_eq_some_iff.mp hk).1 a'
  refine ⟨howned, fun streamId h => ?_, fun streamId entry h => ?_, ?_, ?_⟩
  · exact ⟨a, hmem, hopen, (hkey streamId h).symm⟩
  · have hsame := hkey streamId (by rw [h]; rfl)
    exact ⟨a', hmem', hput streamId entry h, hid.trans hsame.symm⟩
  · rintro streamId ⟨b, hb, hbopen, rfl⟩
    left
    obtain hold | rfl := mem_or_eq_of_mem_set hb
    · exact ⟨b, hold, hbopen, rfl⟩
    · exact ⟨a, hmem, hopen, hid.symm⟩
  · rintro streamId ⟨b, hb, hbopen, rfl⟩
    by_cases hsame : b.streamId = a.streamId
    · cases hopen' : a'.isOpen with
      | true => exact Or.inl ⟨a', hmem', hopen', hid.trans hsame.symm⟩
      | false => exact Or.inr (hsame ▸ hclose hopen')
    · obtain ⟨j, hj⟩ := mem_iff_getElem?.mp hb
      have hne : k ≠ j := by
        rintro rfl
        rw [hk] at hj
        exact hsame (congrArg Association.streamId (some.inj hj)).symm
      refine Or.inl ⟨b, mem_iff_getElem?.mpr ⟨j, ?_⟩, hbopen, rfl⟩
      rw [getElem?_set_ne hne, hj]

lemma respond_eq {frame : Frame} {response : OpenResponse}
    (h : client.respond frame response = some client') :
    ∃ written, client' = { client with written } := by
  unfold respond at h
  split at h
  · cases h
  · exact ⟨_, (some.inj h).symm⟩

lemma isOpen_received (a : Association) (frame : Frame) (goOn : Bool) :
    (received config now a frame goOn).isOpen := by
  cases goOn <;> rfl

lemma change_of_act
    (h : client.act config now full c act = some (client', op)) : Change client client' act c op := by
  cases act with
  | associate frame =>
    obtain ⟨-, h⟩ := Option.ite_none_left_eq_some.mp h
    split at h
    · obtain ⟨responded, hresp, heq⟩ := map_eq_some_iff.mp h
      obtain ⟨written, rfl⟩ := respond_eq hresp
      cases heq
      exact change_skip (fun _ => Or.inl) fun _ => id
    · obtain ⟨responded, hresp, heq⟩ := map_eq_some_iff.mp h
      obtain ⟨written, rfl⟩ := respond_eq hresp
      cases heq
      apply change_skip
      · rintro streamId ⟨a, ha, hopen, rfl⟩
        obtain hold | hnew := mem_append.mp ha
        · exact Or.inl ⟨a, hold, hopen, rfl⟩
        · obtain rfl := mem_singleton.mp hnew
          exact Or.inr ⟨frame, rfl, rfl⟩
      · rintro streamId ⟨a, ha, hopen, rfl⟩
        exact ⟨a, mem_append_left _ ha, hopen, rfl⟩
  | put k =>
    obtain ⟨a, hk, h⟩ := bind_eq_some_iff.mp h
    obtain ⟨hphase, ⟨⟩⟩ := ite_some_none_eq_some.mp h
    apply change_set hk (by simp [Association.isOpen, hphase])
    · rfl
    · split
      · trivial
      · rfl
    · intro streamId hkey
      split at hkey
      · cases hkey
      · exact (some.inj hkey).symm
    · exact fun _ _ _ => rfl
    · intro hclosed
      cases hclosed
  | receive k frame =>
    obtain ⟨a, hk, h⟩ := bind_eq_some_iff.mp h
    obtain ⟨hphase, ⟨⟩⟩ := ite_some_none_eq_some.mp h
    apply change_set hk (by simp [Association.isOpen, hphase])
    · rfl
    · split <;> trivial
    · intro streamId hkey
      split at hkey
      · exact (some.inj hkey).symm
      · cases hkey
    · intro streamId entry hput
      split at hput <;> cases hput
    · rw [isOpen_received]
      intro hclosed
      cases hclosed
  | readError k =>
    obtain ⟨a, hk, h⟩ := bind_eq_some_iff.mp h
    obtain ⟨hphase, ⟨⟩⟩ := ite_some_none_eq_some.mp h
    apply change_set hk (by simp [Association.isOpen, hphase])
    · rfl
    · trivial
    · exact nofun
    · exact nofun
    · intro hclosed
      cases hclosed
  | finish k =>
    obtain ⟨a, hk, h⟩ := bind_eq_some_iff.mp h
    obtain ⟨hphase, ⟨⟩⟩ := ite_some_none_eq_some.mp h
    apply change_set hk (by simp [Association.isOpen, hphase])
    · rfl
    · trivial
    · exact fun streamId hkey => (some.inj hkey).symm
    · exact nofun
    · exact fun _ => rfl

end Client

section Run

variable {n : Nat} {config : Config} {s t : State n} {c d : Fin n} {act : Act}

/-- Open associations of different connections have different ids, and an entry of the table
is one of an open association of its connection. -/
structure Inv (s : State n) : Prop where
  distinct : ∀ c d, c ≠ d → ∀ streamId, (s.clients c).HasOpen streamId →
    ¬ (s.clients d).HasOpen streamId
  owned : ∀ mapping ∈ s.table, (s.clients mapping.2.owner).HasOpen mapping.1

lemma Inv.init : Inv ({} : State n) where
  distinct := by
    rintro c d - streamId ⟨a, ha, -⟩
    cases ha
  owned := by simp

lemma step_act (h : step config s (.act c act) = some t) : ∃ client op,
      (s.clients c).act config s.now (isFull config s.table) c act = some (client, op) ∧
        t = { s with
          clients := update s.clients c client
          table := op.apply s.table } := by
  obtain ⟨⟨client, op⟩, hact, rfl⟩ := map_eq_some_iff.mp h
  exact ⟨client, op, hact, rfl⟩

variable {client : Client} {op : Op n}

/-- Under the condition, what is opened has an id that no other connection has open. -/
theorem Inv.opened (h : Inv s) (hapart : apart config s (.act c act))
    (hchange : Client.Change (s.clients c) client act c op) (hne : c ≠ d)
    {streamId : UInt32} (hopen : client.HasOpen streamId) : ¬ (s.clients d).HasOpen streamId := by
  obtain hold | ⟨frame, rfl, rfl⟩ := hchange.opened streamId hopen
  · exact h.distinct c d hne streamId hold
  · rintro ⟨a, ha, haopen, hid⟩
    have hother := of_decide_eq_true (Bool.and_eq_true_iff.mp hapart).2
    exact hother d hne.symm a ha haopen hid

lemma Inv.of_change (h : Inv s) (hapart : apart config s (.act c act))
    (hchange : Client.Change (s.clients c) client act c op) :
    Inv { s with
      clients := update s.clients c client
      table := op.apply s.table } := by
  have hupd d (hne : d ≠ c) : update s.clients c client d = s.clients d :=
    update_of_ne hne ..
  constructor
  · intro d e hne streamId
    dsimp only
    by_cases hd : d = c
    · subst hd
      rw [update_self, hupd e hne.symm]
      exact h.opened hapart hchange hne
    · rw [hupd d hd]
      by_cases he : e = c
      · subst he
        rw [update_self]
        exact fun hopen hopen' => h.opened hapart hchange hne.symm hopen' hopen
      · rw [hupd e he]
        exact h.distinct d e hne streamId
  · intro mapping hmem
    dsimp only
    obtain ⟨old, hold, hkey, howner, hremove⟩ | hput := Op.mem_apply hmem
    · have hopen := h.owned old hold
      rw [hkey, howner] at hopen
      by_cases hc : mapping.2.owner = c
      · rw [hc, update_self]
        rw [hc] at hopen
        exact (hchange.kept mapping.1 hopen).resolve_right hremove
      · rwa [hupd _ hc]
    · have howner : mapping.2.owner = c := by
        have howned := hchange.owned
        rwa [hput] at howned
      rw [howner, update_self]
      exact hchange.put mapping.1 mapping.2 hput

lemma Inv.step {a : Action n} (h : Inv s) (hapart : apart config s a)
    (hstep : step config s a = some t) : Inv t := by
  cases a with
  | tick =>
    cases hstep
    exact { h with }
  | act c act =>
    obtain ⟨client, op, hact, rfl⟩ := step_act hstep
    exact h.of_change hapart (Client.change_of_act hact)

/-- The run of all clients and the run of one, as far as that one can see. -/
structure Agrees (c : Fin n) (s alone : State n) : Prop where
  now : s.now = alone.now
  client : s.clients c = alone.clients c
  entries : s.entriesOf c = alone.table

variable {alone : State n}

/-- Another client does nothing that this one can see. -/
theorem Agrees.other (h : Agrees c s alone) (hinv : Inv s) (hne : d ≠ c)
    (hchange : Client.Change (s.clients d) client act d op) :
    Agrees c { s with
      clients := update s.clients d client
      table := op.apply s.table } alone := by
  refine ⟨h.now, (update_of_ne hne.symm ..).trans h.client, ?_⟩
  refine Eq.trans (Op.filter_apply_other hne hchange.owned ?_) h.entries
  intro mapping hmem howner hkey
  have hopen := hinv.owned mapping hmem
  rw [howner] at hopen
  exact hinv.distinct d c hne mapping.1 (hchange.key mapping.1 hkey) hopen

/-- There is no less room in the table of one client. -/
theorem Agrees.isFull (h : Agrees c s alone)
    (hroom : isFull config s.table = false) : Associations.isFull config alone.table = false := by
  have hle : alone.table.length ≤ s.table.length := by
    rw [← h.entries]
    exact length_filter_le ..
  have hlt := of_decide_eq_false hroom
  exact decide_eq_false (by omega)

/-- Whether the table is full matters only where the condition says that it is not. -/
theorem act_full {full : Bool} (hapart : apart config s (.act c act))
    (hfull : isFull config s.table = false → full = false) :
    client.act config s.now (isFull config s.table) c act = client.act config s.now full c act := by
  cases act with
  | associate frame =>
    have hroom : isFull config s.table = false := by
      simpa using (Bool.and_eq_true_iff.mp hapart).1
    rw [hroom, hfull hroom]
  | put k =>
    have hroom : isFull config s.table = false := by simpa [apart] using hapart
    rw [hroom, hfull hroom]
  | receive k frame | readError k | finish k => rfl

lemma Agrees.own (h : Agrees c s alone)
    (hapart : apart config s (.act c act)) (hstep : step config s (.act c act) = some t) :
    ∃ alone', step config alone (.act c act) = some alone' ∧ Agrees c t alone' := by
  obtain ⟨client, op, hact, rfl⟩ := step_act hstep
  have howned := (Client.change_of_act hact).owned
  rw [act_full hapart h.isFull, h.now, h.client] at hact
  refine ⟨{ alone with
    clients := update alone.clients c client
    table := op.apply alone.table }, map_eq_some_iff.mpr ⟨_, hact, rfl⟩, h.now, ?_, ?_⟩
  · show update s.clients c client c = update alone.clients c client c
    rw [update_self, update_self]
  · rw [← h.entries]
    exact Op.filter_apply_own howned

/-- As long as the condition is met, each client runs as it would alone. -/
theorem agrees_run {actions : List (Action n)} (h : Agrees c s alone) (hinv : Inv s)
    (hrun : runChecked (step config) (apart config) s actions = some t) :
    ∃ alone', run (step config) alone (actions.filter (Action.concerns c)) = some alone' ∧
      Agrees c t alone' := by
  induction actions generalizing s alone with
  | nil =>
    cases hrun
    exact ⟨alone, rfl, h⟩
  | cons a actions ih =>
    obtain ⟨hapart, hrun⟩ := Option.ite_none_right_eq_some.mp hrun
    obtain ⟨u, hu, hrun⟩ := bind_eq_some_iff.mp hrun
    have hinv' := hinv.step hapart hu
    have hnext : ∀ alone', step config alone a = some alone' → Agrees c u alone' →
        ∃ alone'', run (step config) alone (a :: actions.filter (Action.concerns c)) =
          some alone'' ∧ Agrees c t alone'' := by
      intro alone' hstep hagrees
      obtain ⟨alone'', hrun', hagrees'⟩ := ih hagrees hinv' hrun
      exact ⟨alone'', bind_eq_some_iff.mpr ⟨alone', hstep, hrun'⟩, hagrees'⟩
    cases a with
    | tick =>
      cases hu
      exact hnext _ rfl { h with now := congrArg (· + 1) h.now }
    | act d act =>
      by_cases hd : d = c
      · subst hd
        rw [filter_cons_of_pos (by simp [Action.concerns])]
        obtain ⟨alone', hstep, hagrees⟩ := h.own hapart hu
        exact hnext alone' hstep hagrees
      · rw [filter_cons_of_neg (by simp [Action.concerns, hd])]
        obtain ⟨client, op, hact, rfl⟩ := step_act hu
        exact ih (h.other hinv hd (Client.change_of_act hact)) hinv' hrun

end Run

/-- While no two connections have the same id open and the table has room, every client runs as
it would without the others. -/
theorem associations_isolated {n : Nat} (config : Config) {actions : List (Action n)} {s : State n}
    (h : runChecked (step config) (apart config) {} actions = some s) :
    Isolated config actions s := by
  intro c
  obtain ⟨alone, hrun, hagrees⟩ := agrees_run (c := c) ⟨rfl, rfl, rfl⟩ Inv.init h
  exact ⟨alone, hrun, hagrees.client, hagrees.entries⟩

/-- The request of a client for an association on a stream, and the frame that ends it. -/
def requestFrame : Frame :=
  { type := openRequest, flags := 0, streamId
    payload := [Command.udpAssociate, AddressType.ipv4, 0, 0, 0, 0, 0, 0] }

def endFrame : Frame := { type := endRequest, flags := 0, streamId, payload := [] }

/-- Two clients open an association each, and the first one closes its own. -/
def twoClients (first second : UInt32) : List (Action 2) :=
  [.act 0 (.associate (requestFrame first)), .act 0 (.put 0), .tick,
    .act 1 (.associate (requestFrame second)), .act 1 (.put 0), .tick,
    .act 0 (.receive 0 (endFrame first)), .act 0 (.finish 0)]

theorem associations_isolated_one_two :
    ∃ s, runChecked (step {}) (apart {}) {} (twoClients 1 2) = some s ∧
      s.table.length = 1 ∧ Isolated {} (twoClients 1 2) s := by
  exact exists_end (by decide) fun hs => ⟨by decide, associations_isolated {} hs⟩

/-- Both clients number their first stream 1: when the first one closes its association, the
entry of the second one is removed. -/
theorem same_id_removed : ∃ s, run (step {}) {} (twoClients 1 1) = some s ∧
      ((s.clients 1).associations.map (·.phase)) = [.running] ∧ s.entriesOf 1 = [] ∧
      ¬ Isolated {} (twoClients 1 1) s := by
  have halone : ((run (step {}) {}
      ((twoClients 1 1).filter (Action.concerns 1))).any fun s => s.table.length = 1) := by
    decide
  refine exists_end (by decide) fun hs => ⟨by decide, by decide, ?_⟩
  intro hisolated
  obtain ⟨alone, hrun, -, htable⟩ := hisolated 1
  rw [hrun, Option.any_some, decide_eq_true_eq, ← htable] at halone
  exact absurd halone (by decide)

end SingBox.Shuttle.Associations
