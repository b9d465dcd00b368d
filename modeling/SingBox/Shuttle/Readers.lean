import SingBox.Lib.Machine
import SingBox.Lib.Wire
import SingBox.Shuttle.Keepalive

/-! Who reads the frames of a connection: on the client the streams and the check of the
keepalive, on the server also the loop of the session. -/

namespace SingBox.Shuttle.Readers
open Lib List Option FrameType Machine Nat Capability

/-- The check of the keepalive, the loop of `handleSession`, and a stream by its number on the
connection, with all that reads for it. -/
inductive Reader
  | check
  | loop
  | stream (k : Nat)
  deriving DecidableEq

/-- A stream, on the server also of a UDP association, and whether it was released or has
ended. -/
structure Stream where
  id : UInt32
  udp : Bool := false
  done : Bool := false
  deriving DecidableEq

variable (streams : List Stream) (k : Nat) (conn : Conn)

def isOpen : Bool := streams[k]?.any (!·.done)

def finished : Bool := streams.all (·.done)

def finish : List Stream := streams.modify k ({ · with done := true })

/-- Where `sendKeepalive` or `sendPing` is: nowhere, past its test with the ping written, or at
its read. -/
inductive Check
  | idle
  | tested (ping : Ping)
  | reading (ping : Ping)
  deriving DecidableEq

abbrev Conn := Wire Reader Frame

/-- No frame on its way is meant for the stream. -/
def quiet (k : Nat) : Bool := conn.inbox.all fun message => message.1 ≠ some (.stream k)

/-- A stream is read by one call at a time, and not once it is done. -/
def mayRead (k : Nat) : Bool := isOpen streams k && decide (.stream k ∉ conn.readers)

/-- A stream is done when none of its reads is in progress and no frame for it on its way. -/
def mayFinish (k : Nat) : Bool := decide (.stream k ∉ conn.readers) && quiet conn k

/-- A frame of a stream is on that stream, and only a pong is meant for the check. -/
def addressed (meant : Option Reader) (frame : Frame) : Bool :=
  match meant with
  | some (.stream k) =>
    !isControl frame.type && frame.type ≠ openRequest && streams[k]?.any (·.id = frame.streamId)
  | some .check => frame.type = pong
  | some .loop => frame.type = openRequest
  | none => isControl frame.type && frame.type ≠ pong

/-- One connection as the client has it. -/
structure Client where
  session : ClientSession
  check : Check := .idle
  /-- A ping was written that the peer has not answered. -/
  unanswered : Bool := false
  streams : List Stream := []
  conn : Conn := {}

inductive ClientAction
  /-- `tryAcquire` for a stream with this id. -/
  | openStream (now : Nat) (id : UInt32)
  /-- A read for a stream begins: by `DialContext`, `Read`, `ReadFrom` or `Close`. -/
  | read (k : Nat)
  /-- It ends with the next frame, or with an error. -/
  | take (k : Nat)
  | fail (k : Nat)
  | release (k : Nat) (reusable : Bool) (now : Nat)
  | markActivity (now : Nat)
  /-- `sendKeepalive` up to its read, its read, and the rest of it. -/
  | testKeepalive (now : Nat) (token : UInt32)
  | readKeepalive
  | takeKeepalive (now : Nat)
  | failKeepalive
  | close
  /-- The peer sends a frame. -/
  | send (meant : Option Reader) (frame : Frame)

def clientStep : Machine Client ClientAction
  | s, .openStream now id =>
    (s.session.tryAcquire now).map fun session => { s with
      session
      streams := s.streams ++ [{ id }] }
  | s, .read k =>
    if k < s.streams.length then some { s with conn := s.conn.start (.stream k) } else none
  | s, .take k =>
    if s.session.closed then none
    else (s.conn.take (.stream k)).map fun (_, conn) => { s with conn }
  | s, .fail k => some { s with conn := s.conn.stop (.stream k) }
  | s, .release k reusable now =>
    if isOpen s.streams k then
      some { s with session := s.session.release reusable now, streams := finish s.streams k }
    else none
  | s, .markActivity now => some { s with session := s.session.markActivity now }
  | s, .testKeepalive now token =>
    if s.check = .idle ∧ s.session.keepaliveEnabled = true then
      if s.session.closed || s.session.active then some s
      else
        let counter := s.session.counter + 1
        some { s with
          session := { s.session with counter, lastActivity := now }
          check := .tested { timestamp := UInt64.ofNat now, counter, token }
          unanswered := true }
    else none
  | s, .readKeepalive =>
    match s.check with
    | .tested ping => some { s with check := .reading ping, conn := s.conn.start .check }
    | _ => none
  | s, .takeKeepalive now =>
    match s.check with
    | .reading ping =>
      if s.session.closed then none
      else (s.conn.take .check).map fun (frame, conn) =>
        let session :=
          if answered ping (.ok frame) then s.session.markActivity now else s.session.close
        { s with session, check := .idle, conn }
    | _ => none
  | s, .failKeepalive =>
    if s.check = .idle then none
    else some { s with
      session := s.session.close
      check := .idle
      conn := s.conn.stop .check }
  | s, .close => some { s with session := s.session.close }
  | s, .send meant frame =>
    if addressed s.streams meant frame ∧ meant ≠ some .loop ∧
        (meant = some .check → s.unanswered = true) then
      some { s with
        unanswered := s.unanswered && meant ≠ some .check
        conn := s.conn.send meant frame }
    else none

/-- No stream is opened while the keepalive is being checked; a stream is read by one call at a
time and until it is released; and it is released when none of its reads is in progress and the
peer has nothing more for it. -/
def clientOrderly (s : Client) : ClientAction → Bool
  | .openStream _ _ => s.check = .idle
  | .read k => mayRead s.streams s.conn k
  | .release k _ _ => mayFinish s.conn k
  | .send (some (.stream k)) _ => isOpen s.streams k
  | _ => true

/-- The loop of `handleSession`: at its start, at its read, or left. -/
inductive Loop
  | top
  | reading
  | ended
  deriving DecidableEq

/-- One connection as the server has it. -/
structure Server where
  session : InboundSession
  loop : Loop := .top
  check : Check := .idle
  unanswered : Bool := false
  streams : List Stream := []
  conn : Conn := {}

inductive ServerAction
  /-- The loop checks the session and begins to read. -/
  | readLoop (now : Nat)
  /-- Its read ends with the next frame, or with an error. A request may be refused for other
  reasons than those of `canAccept`. -/
  | takeLoop (now : Nat) (granted : Bool)
  | failLoop
  | read (k : Nat)
  | take (k : Nat)
  | fail (k : Nat)
  /-- The stream is released, or `handleUDPStream` ends. -/
  | release (k : Nat) (now : Nat)
  | endUDP (k : Nat)
  | markActivity (now : Nat)
  | testPing (now : Nat) (token : UInt32)
  | readPing
  | takePing (now : Nat)
  | failPing
  | close
  | send (meant : Option Reader) (frame : Frame)

/-- What the loop does with a frame. After a request the handler has been started, and the loop
goes on if the connection may be reused. -/
def Server.handle (s : Server) (now : Nat) (granted : Bool) (frame : Frame) : Server :=
  match handleSessionFrame frame with
  | .write _ | .goOn => { s with loop := .top }
  | .stop => { s with loop := .ended }
  | .fail _ => { s with loop := .ended, session := s.session.close }
  | .openStream frame =>
    match s.session.canAccept now, decodeOpenRequest frame.payload with
    | some session, .ok request =>
      if granted then { s with
        session
        loop := if session.capabilities &&& reuse = 0 then .ended else .top
        streams := s.streams ++
          [{ id := frame.streamId, udp := request.command = Command.udpAssociate }] }
      else { s with loop := .ended, session := s.session.close }
    | _, _ => { s with loop := .ended, session := s.session.close }

def serverStep : Machine Server ServerAction
  | s, .readLoop now =>
    if s.loop = .top then
      match s.session.checkLifecycle now with
      | (true, session) => some { s with session, loop := .reading, conn := s.conn.start .loop }
      | (false, session) => some { s with session, loop := .ended }
    else none
  | s, .takeLoop now granted =>
    if s.session.closed then none
    else (s.conn.take .loop).map fun (frame, conn) =>
      let session := { s.session with lastActivity := now }
      Server.handle { s with session, conn } now granted frame
  | s, .failLoop =>
    if s.loop = .reading then some { s with loop := .ended, conn := s.conn.stop .loop } else none
  | s, .read k =>
    if k < s.streams.length then some { s with conn := s.conn.start (.stream k) } else none
  | s, .take k =>
    if s.session.closed then none
    else (s.conn.take (.stream k)).map fun (_, conn) => { s with conn }
  | s, .fail k => some { s with conn := s.conn.stop (.stream k) }
  | s, .release k now =>
    if isOpen s.streams k && s.streams[k]?.any (!·.udp) then
      some { s with session := s.session.release now, streams := finish s.streams k }
    else none
  | s, .endUDP k =>
    if isOpen s.streams k && s.streams[k]?.any (·.udp) then
      some { s with streams := finish s.streams k }
    else none
  | s, .markActivity now => some { s with session := { s.session with lastActivity := now } }
  | s, .testPing now token =>
    if s.check = .idle ∧ s.session.keepaliveEnabled = true then
      if s.session.active || s.session.closed then some s
      else
        let counter := s.session.counter + 1
        some { s with
          session := { s.session with counter, lastActivity := now }
          check := .tested { timestamp := UInt64.ofNat now, counter, token }
          unanswered := true }
    else none
  | s, .readPing =>
    match s.check with
    | .tested ping => some { s with check := .reading ping, conn := s.conn.start .check }
    | _ => none
  | s, .takePing now =>
    match s.check with
    | .reading ping =>
      if s.session.closed then none
      else (s.conn.take .check).map fun (frame, conn) =>
        let session :=
          if answered ping (.ok frame) then { s.session with lastActivity := now }
          else { s.session with closeReason := "keepalive timeout" }.close
        { s with session, check := .idle, conn }
    | _ => none
  | s, .failPing =>
    if s.check = .idle then none
    else some { s with
      session := { s.session with closeReason := "keepalive timeout" }.close
      check := .idle
      conn := s.conn.stop .check }
  | s, .close => some { s with session := s.session.close }
  | s, .send meant frame =>
    if addressed s.streams meant frame ∧ (meant = some .check → s.unanswered = true) then
      some { s with
        unanswered := s.unanswered && meant ≠ some .check
        conn := s.conn.send meant frame }
    else none

/-- The keepalive finds a stream active or the session closed; the loop goes on only when the
streams that it opened are done; streams are read and end as on the client; and the peer asks
for a stream when its last one is done and it has not asked for another. -/
def serverOrderly (s : Server) : ServerAction → Bool
  | .testPing _ _ => s.session.active || s.session.closed
  | .readLoop _ => finished s.streams
  | .read k => mayRead s.streams s.conn k
  | .release k _ | .endUDP k => mayFinish s.conn k
  | .send (some (.stream k)) _ => isOpen s.streams k
  | .send (some .loop) _ =>
    finished s.streams && s.conn.inbox.all fun message => message.1 ≠ some .loop
  | _ => true

section Streams

variable {streams : List Stream} {conn : Conn} {k j : Nat}

lemma isOpen_iff :
    isOpen streams k ↔ ∃ stream, streams[k]? = some stream ∧ stream.done = false := by
  simp [isOpen, Option.any_eq_true]

lemma not_isOpen_of_finished (h : finished streams) : isOpen streams k = false := by
  by_contra hopen
  obtain ⟨stream, hk, hdone⟩ := isOpen_iff.mp (by simpa using hopen)
  have hfin := all_eq_true.mp h stream (mem_of_getElem? hk)
  simp [hdone] at hfin

lemma isOpen_finish : isOpen (finish streams k) j ↔ isOpen streams j ∧ j ≠ k := by
  unfold isOpen finish
  rw [getElem?_modify]
  by_cases hkj : k = j
  · subst hkj
    cases streams[k]? <;> simp
  · cases streams[j]? <;> simp [hkj, Ne.symm hkj]

lemma finished_finish (h : finished streams) : finished (finish streams k) := by
  refine all_eq_true.mpr fun stream hmem => ?_
  obtain ⟨j, hj⟩ := mem_iff_getElem?.mp hmem
  by_contra hdone
  have hopen := isOpen_finish.mp (isOpen_iff.mpr ⟨stream, hj, by simpa using hdone⟩)
  rw [not_isOpen_of_finished h] at hopen
  cases hopen.1

/-- One stream at most is open, the last one. -/
def LastOpen (streams : List Stream) : Prop := ∀ k, isOpen streams k = true → k + 1 = streams.length

lemma LastOpen.eq (h : LastOpen streams) (hk : isOpen streams k)
    (hj : isOpen streams j) : k = j := by
  have hk := h k hk
  have hj := h j hj
  omega

lemma LastOpen.finish (h : LastOpen streams) : LastOpen (finish streams k) := by
  intro j hj
  rw [Readers.finish, length_modify]
  exact h j (isOpen_finish.mp hj).1

lemma lastOpen_append (h : ∀ k, isOpen streams k = false) (stream : Stream) :
    LastOpen (streams ++ [stream]) := by
  intro j hj
  rw [length_append, length_singleton]
  by_cases hlt : j < streams.length
  · rw [isOpen, getElem?_append_left hlt] at hj
    exact absurd hj (by simpa [isOpen] using h j)
  · obtain ⟨_, hj, -⟩ := isOpen_iff.mp hj
    have hle := (List.getElem?_eq_some_iff.mp hj).1
    rw [length_append, length_singleton] at hle
    omega

/-- Who has something to do with the connection has not finished. -/
theorem ne_of_mayFinish (hmay : mayFinish conn k)
    (h : .stream j ∈ conn.readers ∨ ∃ frame, (some (.stream j), frame) ∈ conn.inbox) : j ≠ k := by
  obtain ⟨hreader, hquiet⟩ := Bool.and_eq_true_iff.mp hmay
  rintro rfl
  obtain hr | ⟨frame, hmem⟩ := h
  · exact of_decide_eq_true hreader hr
  · exact of_decide_eq_true (all_eq_true.mp hquiet _ hmem) rfl

end Streams

/-- The messages on their way that are meant for one who reads. -/
def meantFor (r : Reader) : Nat := conn.inbox.countP (·.1 = some r)

section Counts

variable {conn conn' : Conn} {r : Reader} {frame : Frame}

lemma meantFor_eq_zero : meantFor conn r = 0 ↔ ∀ frame, (some r, frame) ∉ conn.inbox := by
  simp only [meantFor, countP_eq_zero, Prod.forall, decide_eq_true_eq]
  exact ⟨fun h frame hmem => h _ frame hmem rfl, fun h meant frame hmem hfor => h frame (hfor ▸ hmem)⟩

lemma meantFor_send (meant : Option Reader) :
    meantFor (conn.send meant frame) r = meantFor conn r + if meant = some r then 1 else 0 := by
  simp [meantFor, Wire.send, countP_append, countP_cons]

/-- If a message of this type is only for one who reads, then one fewer is on its way. -/
theorem meantFor_take {r' : Reader} (htake : conn.take r' = some (frame, conn')) :
    meantFor conn' r ≤ meantFor conn r ∧ ((∀ meant, (meant, frame) ∈ conn.inbox → meant = some r) →
        meantFor conn' r + 1 = meantFor conn r) := by
  obtain ⟨meant, -, hinbox, -⟩ := Wire.take_eq_some htake
  rw [meantFor, meantFor, hinbox, countP_cons]
  refine ⟨Nat.le_add_right .., fun hfor => ?_⟩
  rw [if_pos (by simpa using hfor meant mem_cons_self)]

end Counts

section Client

/-- A stream may read while it is open, and the check of the keepalive while it is made. -/
def Client.may (s : Client) : Reader → Prop
  | .stream k => isOpen s.streams k = true
  | .check => s.check ≠ .idle
  | .loop => False

/-- The session is active while a stream is open, and not while the keepalive is checked; a
pong is only on its way while the keepalive is checked, or on a closed session. -/
structure ClientInv (s : Client) : Prop where
  held : s.conn.Held (s.session.closed = false) s.may
  last : LastOpen s.streams
  active : ∀ k, isOpen s.streams k = true → s.session.active = true
  check : s.check ≠ .idle → s.session.active = false
  reading : .check ∈ s.conn.readers → ∃ ping, s.check = .reading ping
  pong : ∀ message ∈ s.conn.inbox, message.2.type = pong → message.1 = some .check
  pongs : meantFor s.conn .check + s.unanswered.toNat ≤ 1
  asked : s.session.closed = false → s.unanswered = true → s.check ≠ .idle

variable {s t : Client} {k : Nat} {session : ClientSession}

lemma ClientInv.new : ClientInv { session } where
  held := Wire.held_new
  last := fun k h => by simp [isOpen] at h
  active := fun k h => by simp [isOpen] at h
  check := fun h => absurd rfl h
  reading := fun h => by simp at h
  pong := by simp
  pongs := zero_le _
  asked := nofun

lemma ClientInv.unique (h : ClientInv s) {r r' : Reader} (hr : s.may r) (hr' : s.may r') :
    r' = r := by
  have hclash {k} (hopen : isOpen s.streams k) (hcheck : s.check ≠ .idle) : False := by
    have hact := h.active k hopen
    simp [h.check hcheck] at hact
  cases r with
  | loop => exact hr.elim
  | check =>
    cases r' with
    | loop => exact hr'.elim
    | check => rfl
    | stream k => exact (hclash hr' hr).elim
  | stream k =>
    cases r' with
    | loop => exact hr'.elim
    | check => exact (hclash hr hr').elim
    | stream j => rw [h.last.eq hr' hr]

/-- A change of the session that leaves it as active as it was and does not reopen it. -/
theorem ClientInv.setSession (h : ClientInv s) (hact : session.active = s.session.active)
    (hclosed : session.closed = false → s.session.closed = false) : ClientInv { s with session } :=
        { h with
  held := h.held.change (fun _ _ hr => hr) fun hlive => ⟨hclosed hlive, fun _ _ _ hr => hr⟩
  active := fun k hk => hact.trans (h.active k hk)
  check := fun hcheck => hact.trans (h.check hcheck)
  asked := fun hlive => h.asked (hclosed hlive) }

variable {now : Nat}

lemma ClientInv.openStream (h : ClientInv s) {id : UInt32}
    (hidle : s.check = .idle) (hacq : s.session.tryAcquire now = some session) :
    ClientInv { s with session, streams := s.streams ++ [{ id }] } := by
  obtain ⟨hopenable, rfl⟩ := ClientSession.tryAcquire_eq_some hacq
  have hnone k : isOpen s.streams k = false := by
    by_contra hopen
    have hact := h.active k (by simpa using hopen)
    simp [hopenable.active] at hact
  have hmay r : ¬ s.may r := by
    cases r <;> simp [Client.may, hidle, hnone]
  exact ⟨h.held.change (fun r _ hr => absurd hr (hmay r)) fun hlive =>
      ⟨hlive, fun r _ _ hr => absurd hr (hmay r)⟩, lastOpen_append hnone _, fun _ _ => rfl,
    fun hcheck => absurd hidle hcheck, h.reading, h.pong, h.pongs, h.asked⟩

lemma ClientInv.release (h : ClientInv s) {reusable : Bool}
    (hopen : isOpen s.streams k) (hmay : mayFinish s.conn k) :
    ClientInv { s with
      session := s.session.release reusable now, streams := finish s.streams k } := by
  have hclosed : (s.session.release reusable now).closed = false → s.session.closed = false := by
    dsimp only [ClientSession.release]
    split
    · intro hfalse
      cases hfalse
    · exact id
  have hstill {r} (hin : r ∈ s.conn.readers ∨ ∃ frame, (some r, frame) ∈ s.conn.inbox)
      (hr : s.may r) :
      Client.may { s with
        session := s.session.release reusable now, streams := finish s.streams k } r := by
    cases r with
    | loop | check => exact hr
    | stream j => exact isOpen_finish.mpr ⟨hr, ne_of_mayFinish hmay hin⟩
  refine ⟨h.held.change (fun r hin hr => hstill (.inl hin) hr) fun hlive =>
      ⟨hclosed hlive, fun r frame hin hr => hstill (.inr ⟨frame, hin⟩) hr⟩, h.last.finish,
          fun j hj => ?_,
    fun hcheck => ?_, h.reading, h.pong, h.pongs, fun hlive => h.asked (hclosed hlive)⟩
  · obtain ⟨hj, hne⟩ := isOpen_finish.mp hj
    exact absurd (h.last.eq hj hopen) hne
  · have hsame : Reader.stream k = .check := h.unique hcheck hopen
    cases hsame

variable {ping : Ping}

namespace ClientInv
variable (h : ClientInv s)
include h

lemma testKeepalive (hidle : s.check = .idle) (hact : s.session.active = false)
    (hopen : s.session.closed = false) (hsess : session.active = s.session.active) :
    ClientInv { s with session, check := .tested ping, unanswered := true } := by
  have hpongs : meantFor s.conn .check = 0 :=
    meantFor_eq_zero.mpr fun frame hmem => h.held.inbox hopen .check frame hmem hidle
  have hgrows {r} (hr : s.may r) :
      Client.may { s with session, check := .tested ping, unanswered := true } r := by
    cases r <;> simp_all [Client.may]
  refine ⟨h.held.change (fun r _ hr => hgrows hr) fun _ => ⟨hopen, fun r _ _ hr => hgrows hr⟩, h.last,
    fun k hk => hsess.trans (h.active k hk), fun _ => hsess.trans hact,
    fun hr => absurd hidle (h.held.readers _ hr), h.pong, ?_, fun _ _ => by simp⟩
  rw [hpongs]
  exact le_refl 1

lemma start {r : Reader} (hmay : s.may r) (hr : r ∉ s.conn.readers)
    (hreading : r = .check → ∃ ping, s.check = .reading ping) :
    ClientInv { s with conn := s.conn.start r } := by
  refine { h with
    held := h.held.start (fun r' hr' => h.unique hmay hr') hr hmay, reading := fun hin => ?_ }
  obtain rfl | hin := mem_cons.mp hin
  · exact hreading rfl
  · exact h.reading hin

lemma readKeepalive (hcheck : s.check = .tested ping) :
    ClientInv { s with check := .reading ping, conn := s.conn.start .check } := by
  have hbusy : s.check ≠ .idle := by simp [hcheck]
  have hreader : .check ∉ s.conn.readers := by
    intro hr
    obtain ⟨ping', hreading⟩ := h.reading hr
    simp [hcheck] at hreading
  have hgrows {r} (hr : s.may r) : Client.may { s with check := .reading ping } r := by
    cases r <;> simp_all [Client.may]
  have hnext : ClientInv { s with check := .reading ping } :=
    ⟨h.held.change (fun r _ hr => hgrows hr) fun hlive => ⟨hlive, fun r _ _ hr => hgrows hr⟩, h.last,
      h.active, fun _ => h.check hbusy, fun hr => absurd hr hreader, h.pong, h.pongs,
      fun _ _ => by simp⟩
  exact hnext.start (by simp [Client.may]) hreader fun _ => ⟨ping, rfl⟩

lemma stop (r : Reader) : ClientInv { s with conn := s.conn.stop r } :=
  { h with held := h.held.stop r, reading := fun hr => h.reading (mem_of_mem_erase hr) }

end ClientInv

variable {frame : Frame} (h : ClientInv s)
include h

variable {conn : Conn}

lemma ClientInv.take {r : Reader} (hopen : s.session.closed = false)
    (htake : s.conn.take r = some (frame, conn)) : ClientInv { s with conn } := by
  obtain ⟨meant, hreader, hinbox, hreaders, -⟩ := Wire.take_eq_some htake
  have hpongs := h.pongs
  have hfewer := (meantFor_take (r := .check) htake).1
  refine ⟨h.held.take (fun r' => h.unique (h.held.readers r hreader)) hopen htake, h.last, h.active,
    h.check,
    fun hr => h.reading ?_, fun message hmem => h.pong message ?_, ?_, h.asked⟩
  · rw [hreaders] at hr
    exact mem_of_mem_erase hr
  · rw [hinbox]
    exact mem_cons_of_mem _ hmem
  · dsimp only
    omega

/-- The check is over: no one reads, and on an open session nothing for it is on its way. -/
theorem ClientInv.idle (hbusy : s.check ≠ .idle) (hreader : .check ∉ s.conn.readers)
    (hlive : session.closed = false →
      s.session.closed = false ∧ meantFor s.conn .check + s.unanswered.toNat = 0) :
    ClientInv { s with session, check := .idle } := by
  have hmay r (hr : s.may r) : r = .check := h.unique hbusy hr
  refine ⟨h.held.change (fun r hin hr => ?_) fun hopen => ⟨(hlive hopen).1, fun r frame hin hr => ?_⟩,
    h.last, fun k hk => ?_, fun hidle => absurd rfl hidle,
    fun hr => absurd hr hreader, h.pong, h.pongs,
    fun hopen hasked => ?_⟩
  · exact absurd (hmay r hr ▸ hin) hreader
  · have hzero : meantFor s.conn .check = 0 := by
      have hnone := (hlive hopen).2
      omega
    exact absurd (hmay r hr ▸ hin) (meantFor_eq_zero.mp hzero frame)
  · cases hmay (.stream k) hk
  · have hnone := (hlive hopen).2
    rw [show s.unanswered from hasked] at hnone
    exact absurd hnone (by simp)

lemma ClientInv.takeKeepalive (hopen : s.session.closed = false)
    (hcheck : s.check = .reading ping) (htake : s.conn.take .check = some (frame, conn)) :
    ClientInv { s with
      session :=
        if Shuttle.answered ping (.ok frame) then s.session.markActivity now else s.session.close
      check := .idle
      conn } := by
  obtain ⟨-, hreader, -, hreaders, -⟩ := Wire.take_eq_some htake
  refine (h.take hopen htake).idle (by simp [hcheck]) ?_ fun hlive => ⟨hopen, ?_⟩
  · dsimp only
    rw [hreaders, h.held.toExclusive.erase_eq hreader]
    exact not_mem_nil
  · cases hans : Shuttle.answered ping (.ok frame) with
    | false =>
      rw [hans] at hlive
      cases hlive
    | true =>
      -- only a pong is an answer, and it was the only one
      have hpong : frame.type = FrameType.pong := by
        by_contra hne
        simp [Shuttle.answered, hne] at hans
      have hone := (meantFor_take htake).2 fun meant hmem => h.pong (meant, frame) hmem hpong
      have hpongs := h.pongs
      dsimp only
      omega

lemma ClientInv.send {meant : Option Reader}
    (hopen : ∀ k, meant = some (.stream k) → isOpen s.streams k)
    (haddr : addressed s.streams meant frame) (hloop : meant ≠ some .loop)
    (hasked : meant = some .check → s.unanswered) : ClientInv { s with
      unanswered := s.unanswered && meant ≠ some .check
      conn := s.conn.send meant frame } := by
  have hpongs := h.pongs
  refine ⟨h.held.send fun hlive r hr => ?_, h.last, h.active, h.check, h.reading,
    fun message hmem => ?_,
    ?_, fun hlive hunans => h.asked hlive (Bool.and_eq_true_iff.mp hunans).1⟩
  · cases r with
    | stream k => exact hopen k hr
    | loop => exact absurd hr hloop
    | check => exact h.asked hlive (hasked hr)
  · obtain hold | hnew := mem_append.mp hmem
    · exact h.pong message hold
    · obtain rfl := mem_singleton.mp hnew
      intro hpong
      replace hpong : frame.type = FrameType.pong := hpong
      unfold addressed at haddr
      split at haddr
      · simp [hpong, isControl] at haddr
      · rfl
      · exact absurd rfl hloop
      · simp [hpong] at haddr
  · dsimp only
    rw [meantFor_send]
    by_cases hmeant : meant = some .check
    · rw [hasked hmeant] at hpongs
      simp only [hmeant, Bool.toNat_true, if_true, ne_eq, not_true_eq_false, decide_false,
        Bool.and_false, Bool.toNat_false] at hpongs ⊢
      omega
    · simpa [hmeant] using hpongs

lemma ClientInv.step {a : ClientAction} (horder : clientOrderly s a)
    (hstep : clientStep s a = some t) : ClientInv t := by
  cases a with
  | openStream now id =>
    obtain ⟨session, hacq, rfl⟩ := map_eq_some_iff.mp hstep
    exact h.openStream (of_decide_eq_true horder) hacq
  | read k =>
    obtain ⟨-, rfl⟩ := ite_some_none_eq_some.mp hstep
    obtain ⟨hopen, hreader⟩ := Bool.and_eq_true_iff.mp horder
    exact h.start (r := .stream k) hopen (of_decide_eq_true hreader) nofun
  | take k =>
    obtain ⟨hclosed, hstep⟩ := ite_none_left_eq_some.mp hstep
    obtain ⟨⟨frame, conn⟩, htake, rfl⟩ := map_eq_some_iff.mp hstep
    exact h.take (by simpa using hclosed) htake
  | fail k =>
    cases hstep
    exact h.stop (.stream k)
  | release k reusable now =>
    obtain ⟨hopen, rfl⟩ := ite_some_none_eq_some.mp hstep
    exact h.release hopen horder
  | markActivity now =>
    cases hstep
    exact h.setSession rfl id
  | testKeepalive now token =>
    obtain ⟨⟨hidle, -⟩, hstep⟩ := ite_none_right_eq_some.mp hstep
    split at hstep
    · cases hstep
      exact h
    · rename_i hfree
      cases hstep
      simp only [Bool.or_eq_true, not_or, Bool.not_eq_true] at hfree
      exact h.testKeepalive hidle hfree.2 hfree.1 rfl
  | readKeepalive =>
    simp only [clientStep] at hstep
    split at hstep
    · rename_i ping hcheck
      cases hstep
      exact h.readKeepalive hcheck
    · cases hstep
  | takeKeepalive now =>
    simp only [clientStep] at hstep
    split at hstep
    · rename_i ping hcheck
      obtain ⟨hclosed, hstep⟩ := ite_none_left_eq_some.mp hstep
      obtain ⟨⟨frame, conn⟩, htake, rfl⟩ := map_eq_some_iff.mp hstep
      exact h.takeKeepalive (by simpa using hclosed) hcheck htake
    · cases hstep
  | failKeepalive =>
    obtain ⟨hbusy, hstep⟩ := ite_none_left_eq_some.mp hstep
    cases hstep
    refine (h.stop .check).idle hbusy (fun hr => ?_) nofun
    have hmem := mem_of_mem_erase hr
    simp [Wire.stop, h.held.toExclusive.erase_eq hmem] at hr
  | close =>
    cases hstep
    exact h.setSession rfl nofun
  | send meant frame =>
    obtain ⟨⟨haddr, hloop, hasked⟩, rfl⟩ := ite_some_none_eq_some.mp hstep
    refine h.send (fun k hk => ?_) haddr hloop hasked
    subst hk
    exact horder

end Client

section Server

/-- A stream may read while it is open, and the loop when all streams are done. -/
def Server.may (s : Server) : Reader → Prop
  | .stream k => isOpen s.streams k = true
  | .loop => finished s.streams = true
  | .check => False

/-- The keepalive is not checked; the loop reads when all streams are done, and so is a request
sent, one at a time. -/
structure ServerInv (s : Server) : Prop where
  held : s.conn.Held True s.may
  last : LastOpen s.streams
  idle : s.check = .idle
  asked : s.unanswered = false
  loop : .loop ∈ s.conn.readers → s.loop = .reading
  request : ∀ message ∈ s.conn.inbox, message.2.type = openRequest → message.1 = some .loop
  requests : meantFor s.conn .loop ≤ 1

variable {s t : Server} {k : Nat} {session : InboundSession}

lemma ServerInv.new : ServerInv { session } where
  held := Wire.held_new
  last := fun k h => by simp [isOpen] at h
  idle := rfl
  asked := rfl
  loop := fun h => by simp at h
  request := by simp
  requests := zero_le _

namespace ServerInv
variable (h : ServerInv s)
include h

lemma unique {r r' : Reader} (hr : s.may r) (hr' : s.may r') : r' = r := by
  have hclash {k} (hopen : isOpen s.streams k) (hfin : finished s.streams) :
      False := by
    simp [not_isOpen_of_finished hfin] at hopen
  cases r with
  | check => exact hr.elim
  | loop =>
    cases r' with
    | check => exact hr'.elim
    | loop => rfl
    | stream k => exact (hclash hr' hr).elim
  | stream k =>
    cases r' with
    | check => exact hr'.elim
    | loop => exact (hclash hr hr').elim
    | stream j => rw [h.last.eq hr' hr]

lemma setLoop {loop : Loop} (session : InboundSession)
    (hloop : .loop ∈ s.conn.readers → loop = .reading) : ServerInv { s with loop, session } :=
  { h with loop := hloop }

lemma finish (hmay : mayFinish s.conn k) :
    ServerInv { s with session, streams := Readers.finish s.streams k } := by
  have hstill {r} (hin : r ∈ s.conn.readers ∨ ∃ frame, (some r, frame) ∈ s.conn.inbox)
      (hr : s.may r) : Server.may { s with session, streams := Readers.finish s.streams k } r := by
    cases r with
    | check => exact hr
    | loop => exact finished_finish hr
    | stream j => exact isOpen_finish.mpr ⟨hr, ne_of_mayFinish hmay hin⟩
  exact { h with held := h.held.change (fun r hin hr => hstill (.inl hin) hr) fun hlive => ⟨hlive,
      fun r frame hin hr => hstill (.inr ⟨frame, hin⟩) hr⟩, last := h.last.finish }

lemma start {r : Reader} (hmay : s.may r) (hr : r ∉ s.conn.readers)
    (hreading : r = .loop → s.loop = .reading) : ServerInv { s with conn := s.conn.start r } := by
  refine { h with
    held := h.held.start (fun r' hr' => h.unique hmay hr') hr hmay, loop := fun hin => ?_ }
  obtain rfl | hin := mem_cons.mp hin
  · exact hreading rfl
  · exact h.loop hin

lemma stop (r : Reader) : ServerInv { s with conn := s.conn.stop r } :=
  { h with held := h.held.stop r, loop := fun hr => h.loop (mem_of_mem_erase hr) }

end ServerInv

variable {frame : Frame}

lemma ServerInv.take (h : ServerInv s) {r : Reader} {conn : Conn}
    (htake : s.conn.take r = some (frame, conn)) : ServerInv { s with conn } := by
  obtain ⟨meant, hreader, hinbox, hreaders, -⟩ := Wire.take_eq_some htake
  refine ⟨h.held.take (fun r' => h.unique (h.held.readers r hreader)) trivial htake, h.last, h.idle,
    h.asked,
    fun hr => h.loop ?_, fun message hmem => h.request message ?_,
    le_trans (meantFor_take htake).1 h.requests⟩
  · rw [hreaders] at hr
    exact mem_of_mem_erase hr
  · rw [hinbox]
    exact mem_cons_of_mem _ hmem

/-- The loop opens a stream: all the others are done and there is no other request. -/
theorem ServerInv.opened (h : ServerInv s) (hfin : finished s.streams)
    (hreader : .loop ∉ s.conn.readers) (hnone : meantFor s.conn .loop = 0) (session : InboundSession)
    (loop : Loop) (stream : Stream) :
    ServerInv { s with session, loop, streams := s.streams ++ [stream] } := by
  have hmay r (hr : s.may r) : r = .loop := h.unique (r := .loop) hfin hr
  exact ⟨h.held.change (fun r hin hr => absurd (hmay r hr ▸ hin) hreader) fun hlive =>
      ⟨hlive, fun r frame hin hr => absurd (hmay r hr ▸ hin) (meantFor_eq_zero.mp hnone frame)⟩,
    lastOpen_append (fun _ => not_isOpen_of_finished hfin) stream, h.idle, h.asked,
    fun hr => absurd hr hreader, h.request, h.requests⟩

lemma openRequest_of_handle {frame' : Frame}
    (h : handleSessionFrame frame = .openStream frame') : frame.type = openRequest := by
  by_contra hne
  rw [handleSessionFrame, if_neg hne] at h
  repeat' split at h
  all_goals cases h

variable (h : ServerInv s)
include h

lemma ServerInv.handle (hfin : finished s.streams) (hreader : .loop ∉ s.conn.readers)
    (hnone : frame.type = openRequest → meantFor s.conn .loop = 0) (now : Nat) (granted : Bool) :
    ServerInv (s.handle now granted frame) := by
  have hloop {loop : Loop} (hr : .loop ∈ s.conn.readers) : loop = .reading := absurd hr hreader
  unfold Server.handle
  split
  · exact h.setLoop s.session hloop
  · exact h.setLoop s.session hloop
  · exact h.setLoop s.session hloop
  · exact h.setLoop s.session.close hloop
  · rename_i frame' hopen
    split
    · split
      · exact h.opened hfin hreader (hnone (openRequest_of_handle hopen)) ..
      · exact h.setLoop s.session.close hloop
    · exact h.setLoop s.session.close hloop

lemma ServerInv.takeLoop {now : Nat} {conn : Conn}
    (htake : s.conn.take .loop = some (frame, conn)) (session : InboundSession) (granted : Bool) :
    ServerInv (Server.handle { s with session, conn } now granted frame) := by
  obtain ⟨-, hreader, -, hreaders, -⟩ := Wire.take_eq_some htake
  have hnext := (h.take htake).setLoop session fun _ => h.loop hreader
  refine hnext.handle (h.held.readers _ hreader) ?_ (fun hreq => ?_) now granted
  · dsimp only
    rw [hreaders, h.held.toExclusive.erase_eq hreader]
    exact not_mem_nil
  · have hone := (meantFor_take htake).2 fun meant hmem => h.request (meant, frame) hmem hreq
    have hreqs := h.requests
    dsimp only
    omega

lemma ServerInv.send {meant : Option Reader} (horder : serverOrderly s (.send meant frame))
    (haddr : addressed s.streams meant frame) (hcheck : meant ≠ some .check) :
    ServerInv { s with
      unanswered := s.unanswered && meant ≠ some .check
      conn := s.conn.send meant frame } := by
  refine ⟨h.held.send fun _ r hr => ?_, h.last, h.idle,
    by simp [h.asked], h.loop, fun message hmem => ?_, ?_⟩
  · subst hr
    cases r with
    | stream k => exact horder
    | loop => exact (Bool.and_eq_true_iff.mp horder).1
    | check => exact absurd rfl hcheck
  · obtain hold | hnew := mem_append.mp hmem
    · exact h.request message hold
    · obtain rfl := mem_singleton.mp hnew
      intro hreq
      replace hreq : frame.type = openRequest := hreq
      unfold addressed at haddr
      split at haddr
      · simp [hreq] at haddr
      · exact absurd rfl hcheck
      · rfl
      · have hctl : isControl openRequest = false := by decide
        simp [hreq, hctl] at haddr
  · dsimp only
    rw [meantFor_send]
    by_cases hmeant : meant = some .loop
    · subst hmeant
      have hzero : meantFor s.conn .loop = 0 := by
        refine meantFor_eq_zero.mpr fun other hmem => ?_
        exact of_decide_eq_true (all_eq_true.mp (Bool.and_eq_true_iff.mp horder).2 _ hmem) rfl
      rw [hzero]
      exact le_refl 1
    · rw [if_neg hmeant]
      exact h.requests

lemma ServerInv.step {a : ServerAction} (horder : serverOrderly s a)
    (hstep : serverStep s a = some t) : ServerInv t := by
  cases a with
  | readLoop now =>
    obtain ⟨htop, hstep⟩ := ite_none_right_eq_some.mp hstep
    have hreader : .loop ∉ s.conn.readers := by
      intro hr
      have hreading := h.loop hr
      simp [htop] at hreading
    split at hstep
    · cases hstep
      exact (h.setLoop _ fun hr => absurd hr hreader).start (r := .loop) horder hreader fun _ => rfl
    · cases hstep
      exact h.setLoop _ fun hr => absurd hr hreader
  | takeLoop now granted =>
    obtain ⟨-, hstep⟩ := ite_none_left_eq_some.mp hstep
    obtain ⟨⟨frame, conn⟩, htake, rfl⟩ := map_eq_some_iff.mp hstep
    exact h.takeLoop htake _ granted
  | failLoop =>
    obtain ⟨-, rfl⟩ := ite_some_none_eq_some.mp hstep
    refine (h.stop .loop).setLoop s.session fun hr => ?_
    have hr : .loop ∈ s.conn.readers.erase .loop := hr
    simp [h.held.toExclusive.erase_eq (mem_of_mem_erase hr)] at hr
  | read k =>
    obtain ⟨-, rfl⟩ := ite_some_none_eq_some.mp hstep
    obtain ⟨hopen, hreader⟩ := Bool.and_eq_true_iff.mp horder
    exact h.start (r := .stream k) hopen (of_decide_eq_true hreader) nofun
  | take k =>
    obtain ⟨-, hstep⟩ := ite_none_left_eq_some.mp hstep
    obtain ⟨⟨frame, conn⟩, htake, rfl⟩ := map_eq_some_iff.mp hstep
    exact h.take htake
  | fail k =>
    cases hstep
    exact h.stop (.stream k)
  | release k now | endUDP k =>
    obtain ⟨-, rfl⟩ := ite_some_none_eq_some.mp hstep
    exact h.finish horder
  | markActivity now | close =>
    cases hstep
    exact h.setLoop _ h.loop
  | testPing now token =>
    obtain ⟨-, hstep⟩ := ite_none_right_eq_some.mp hstep
    have hbusy : (s.session.active || s.session.closed) := horder
    rw [if_pos hbusy] at hstep
    cases hstep
    exact h
  | readPing | takePing now =>
    simp only [serverStep, h.idle] at hstep
    cases hstep
  | failPing =>
    obtain ⟨hbusy, -⟩ := ite_none_left_eq_some.mp hstep
    exact absurd h.idle hbusy
  | send meant frame =>
    obtain ⟨⟨haddr, hasked⟩, rfl⟩ := ite_some_none_eq_some.mp hstep
    refine h.send horder haddr fun hmeant => ?_
    have htrue := hasked hmeant
    simp [h.asked] at htrue

end Server

/-- On both sides of a connection, in every run that keeps the conditions, one activity at a
time reads, and every frame is taken by the one it is meant for. -/
theorem one_reader (client : ClientSession) (server : InboundSession) :
    (∀ s, Reaches clientStep (fun s a => clientOrderly s a = true) { session := client } s →
      s.conn.Exclusive) ∧
    ∀ s, Reaches serverStep (fun s a => serverOrderly s a = true) { session := server } s →
      s.conn.Exclusive := by
  constructor
  · intro s h
    exact (h.invariant ClientInv.new fun horder hstep hinv => hinv.step horder hstep).held.toExclusive
  · intro s h
    exact (h.invariant ServerInv.new fun horder hstep hinv => hinv.step horder hstep).held.toExclusive

/-- A session that may be reused and has a keepalive, as each side has it. -/
def clientSession : ClientSession :=
  newClientSession 0 (reuse ||| keepalive) 4 { keepaliveInterval := 30000 }

def serverSession : InboundSession :=
  newInboundSession 0 (reuse ||| keepalive) 4 { keepaliveInterval := 30000 }

def requestFrame : Frame :=
  { type := openRequest, flags := 0, streamId := 1
    payload := [Command.connect, AddressType.ipv4, 127, 0, 0, 1, 0, 80] }

def responseFrame : Frame :=
  { type := openResponse, flags := 0, streamId := 1, payload := [ErrorCode.ok, 0, 0] }

def endFrame : Frame := { type := endResponse, flags := 0, streamId := 1, payload := [] }

/-- A stream is opened, read to its end and released; then the keepalive is checked. -/
def clientTurn : List ClientAction :=
  [.openStream 0 1, .read 0, .send (some (.stream 0)) responseFrame, .take 0, .read 0,
    .send (some (.stream 0)) endFrame, .take 0, .release 0 true 5, .testKeepalive 30000 7,
    .readKeepalive,
    .send (some .check) { type := pong, flags := 0, streamId := 0
                          payload := encodePong { counter := 1, token := 7 } },
    .takeKeepalive 30001]

/-- A request is taken by the loop and the end of the stream by the stream; then the loop goes
on. -/
def serverTurn : List ServerAction :=
  [.readLoop 0, .send (some .loop) requestFrame, .takeLoop 1 true, .testPing 30000 7, .read 0,
    .send (some (.stream 0)) endFrame, .take 0, .release 0 30001, .readLoop 30002]

theorem one_reader_turn :
    (∃ s, runChecked clientStep clientOrderly { session := clientSession } clientTurn = some s ∧
      s.session.closed = false ∧ s.conn.taken.length = 3 ∧ s.conn.Exclusive) ∧
    ∃ s, runChecked serverStep serverOrderly { session := serverSession } serverTurn = some s ∧
      s.conn.readers = [.loop] ∧ s.conn.taken.length = 2 ∧ s.conn.Exclusive := by
  obtain ⟨hclient, hserver⟩ := one_reader clientSession serverSession
  constructor
  · refine exists_end (by decide) fun hs => ⟨by decide, by decide, ?_⟩
    exact hclient _ (Reaches.start.runChecked (fun _ _ h => h) hs)
  · refine exists_end (by decide) fun hs => ⟨by decide, by decide, ?_⟩
    exact hserver _ (Reaches.start.runChecked (fun _ _ h => h) hs)

/-- On the server the keepalive reads beside the loop, on a session without streams: the
request of the client is taken for the answer to the ping. -/
def serverClash : List ServerAction :=
  [.readLoop 0, .testPing 30000 7, .readPing, .send (some .loop) requestFrame, .takePing 30001]

/-- On the client a stream is opened between the test and the read of the keepalive, which takes
the response. -/
def clientClash : List ClientAction :=
  [.testKeepalive 30000 7, .openStream 30000 1, .readKeepalive, .read 0,
    .send (some (.stream 0)) responseFrame, .takeKeepalive 30001]

theorem two_readers : (∃ s, run serverStep { session := serverSession } serverClash = some s ∧
      s.session.closed = true ∧ (.check, some .loop) ∈ s.conn.taken ∧ ¬ s.conn.Exclusive) ∧
    ∃ s, run clientStep { session := clientSession } clientClash = some s ∧
      s.session.closed = true ∧ (.check, some (.stream 0)) ∈ s.conn.taken ∧ ¬ s.conn.Exclusive := by
  constructor
  · refine exists_end (by decide) fun _ => ⟨by decide, by decide, ?_⟩
    exact fun h => nomatch h.meant (.check, some .loop) (by decide) _ rfl
  · refine exists_end (by decide) fun _ => ⟨by decide, by decide, ?_⟩
    exact fun h => nomatch h.meant (.check, some (.stream 0)) (by decide) _ rfl

end SingBox.Shuttle.Readers
