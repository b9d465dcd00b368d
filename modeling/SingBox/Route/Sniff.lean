import SingBox.Route.RuleSet

/-! Matching a packet connection against the route rules: the sniff actions read
packets ahead, and `matchRule` hands them on. -/

namespace SingBox.Route
open Dns List

inductive SniffCause
  | needMoreData
  | other (message : String)
  deriving DecidableEq

abbrev SniffError := List SniffCause

/-- `errors.Is` with `ErrNeedMoreData`. -/
def needsMoreData : Option SniffError → Bool
  | none => false
  | some err => err.contains .needMoreData

structure Socksaddr where
  addr : Addr := .invalid
  port : Nat := 0
  fqdn : String := ""
  deriving DecidableEq

/-- The metadata of a connection that is being routed. -/
structure Metadata where
  context : InboundContext := {}
  routeOriginalDestination : Option Socksaddr := none
  snifferNames : List String := []
  sniffError : Option SniffError := none

namespace Metadata

variable (m : Metadata)

def destination : Socksaddr :=
  ⟨m.context.destinationAddr, m.context.flow.destinationPort, m.context.flow.destinationFqdn⟩

def setDestination (d : Socksaddr) : Metadata :=
  { m with context := { m.context with
    destinationAddr := d.addr
    flow := { m.context.flow with destinationPort := d.port, destinationFqdn := d.fqdn } } }

def setDestinationAddresses (addresses : List Addr) : Metadata :=
  { m with context := { m.context with destinationAddresses := addresses } }

/-- `sniff.Skip`: the ports of SMTP, IMAP and POP3. -/
def skip : Bool := [25, 465, 587, 143, 993, 110, 995].contains m.context.flow.destinationPort

end Metadata

/-- A sniffer writes what it recognises into the metadata. -/
abbrev PacketSniffer := Metadata → List UInt8 → Metadata × Option SniffError

/-- `RuleActionRouteOptions`, as far as it changes what rules see. -/
structure RouteOptions where
  overrideAddress : Option Socksaddr := none
  overridePort : Nat := 0
  deriving DecidableEq

/-- `RuleActionSniff`; of its stream sniffers only the number counts here. -/
structure SniffAction where
  snifferNames : List String := []
  streamSniffers : Nat := 0
  packetSniffers : List PacketSniffer := []
  overrideDestination : Bool := false

structure ResolveAction where
  server : String := ""
  disableCache : Bool := false
  clientSubnet : Option Prefix := none

inductive RuleAction
  | route (options : RouteOptions)
  | routeOptions (options : RouteOptions)
  | direct
  | bypass (outbound : String) (options : RouteOptions)
  | reject
  | hijackDNS
  | sniff (action : SniffAction)
  | resolve (action : ResolveAction)

structure RouteRule where
  rule : Rule
  action : RuleAction

/-- A buffer with a packet in it; buffers are told apart by their number. -/
structure PacketBuffer where
  id : Nat
  data : List UInt8
  destination : Socksaddr
  deriving DecidableEq

inductive PacketRead
  | packet (data : List UInt8) (destination : Socksaddr)
  | timeout
  | failed (err : String)
  | cancelled (err : String)
  deriving DecidableEq

/-- A packet connection: what its next reads give, and time-outs from then on; the
number of buffers taken, the packets that were read, and the buffers released. -/
structure PacketConn where
  reads : List PacketRead
  taken : Nat := 0
  received : List PacketBuffer := []
  released : List Nat := []

namespace PacketConn

variable (conn : PacketConn) (reads : List PacketRead)

/-- The next read gives a packet. -/
def receive (data : List UInt8) (destination : Socksaddr) (reads : List PacketRead) : PacketConn :=
  { conn with
    reads
    taken := conn.taken + 1
    received := conn.received ++ [⟨conn.taken, data, destination⟩] }

/-- The next read fails, and its buffer is released. -/
def giveUp : PacketConn :=
  { conn with reads, taken := conn.taken + 1, released := conn.released ++ [conn.taken] }

/-- The next read is not waited for. -/
def abandon : PacketConn := { conn with reads, taken := conn.taken + 1 }

end PacketConn

structure Router where
  rules : List RouteRule
  /-- Process, neighbour, fake IP and reverse mapping are looked up. -/
  prepareMatchMetadata : Metadata → Except String Metadata
  hasTransport : String → Bool
  lookup : Metadata → ResolveAction → Except String (List Addr)
  isDomainName : String → Bool
  defaultPacketSniffers : List PacketSniffer
  quicClientHello : PacketSniffer

/-- The sniffers are tried in turn until one recognises the packet. -/
def peekPacket (data : List UInt8) : List PacketSniffer → List SniffError → Metadata →
    Metadata × Option SniffError
  | [], errs, m => (m, if errs.isEmpty then none else some errs.flatten)
  | sniffer :: sniffers, errs, m =>
    match sniffer m data with
    | (m, none) => (m, none)
    | (m, some err) => peekPacket data sniffers (errs ++ [err]) m

structure Sniffed where
  metadata : Metadata
  conn : PacketConn
  packetBuffers : List PacketBuffer := []
  fatalErr : Option String := none

/-- The state of the loop over the rules. -/
structure Matching where
  metadata : Metadata
  conn : PacketConn
  packetBuffers : List PacketBuffer := []

inductive Progress
  | next (s : Matching)
  | selected (s : Matching)
  | failed (s : Matching) (err : String)

/-- What holds of the state that is left, if the rule did not fail. -/
def Progress.Leaves (P : Matching → Prop) : Progress → Prop
  | .next s | .selected s => P s
  | .failed _ _ => True

structure MatchResult where
  selectedRule : Option Nat
  state : Matching
  fatalErr : Option String

/-- The action is left before it looks at any packet. -/
def SniffAction.isSkipped (action : SniffAction) (m : Metadata) : Bool :=
  m.skip || m.context.flow.protocol != "" ||
    action.packetSniffers.isEmpty && decide (0 < action.streamSniffers) ||
    m.snifferNames == action.snifferNames && m.sniffError.isSome && !needsMoreData m.sniffError

namespace Router

variable (R : Router) (action : SniffAction) (m : Metadata)

/-- One packet is sniffed, by the QUIC sniffer alone where that asked for more. -/
def sniffPacket (data : List UInt8) : Metadata × Option SniffError :=
  let quicMoreData := m.snifferNames == action.snifferNames && needsMoreData m.sniffError
  let packetSniffers :=
    if action.packetSniffers.isEmpty then R.defaultPacketSniffers else action.packetSniffers
  match peekPacket data (if quicMoreData then [R.quicClientHello] else packetSniffers) [] m with
  | (m, err) => ({ m with snifferNames := action.snifferNames, sniffError := err }, err)

/-- The packets at hand are sniffed until one does not ask for more; if there is
none, the connection is to be read. -/
def sniffInputs (action : SniffAction) :
    List PacketBuffer → Metadata → Metadata × Option (Option SniffError)
  | [], m => (m, none)
  | b :: buffers, m =>
    match R.sniffPacket action m b.data with
    | (m, err) => if needsMoreData err then sniffInputs action buffers m else (m, some err)

/-- What follows the label `finally`. -/
def finishSniff (err : Option SniffError) : Metadata :=
  if err.isNone && action.overrideDestination && R.isDomainName m.context.flow.domain then
    m.setDestination { fqdn := m.context.flow.domain, port := m.destination.port }
  else m

/-- Packets are read and sniffed until one does not ask for more. -/
def sniffReads (action : SniffAction) :
    List PacketRead → Metadata → PacketConn → List PacketBuffer → Sniffed
  | [], m, conn, buffers => { metadata := m, conn := conn.giveUp [], packetBuffers := buffers }
  | .timeout :: reads, m, conn, buffers =>
    { metadata := m, conn := conn.giveUp reads, packetBuffers := buffers }
  | .failed err :: reads, m, conn, buffers =>
    { metadata := m, conn := conn.giveUp reads, packetBuffers := buffers, fatalErr := some err }
  | .cancelled err :: reads, m, conn, buffers =>
    { metadata := m, conn := conn.abandon reads, packetBuffers := buffers, fatalErr := some err }
  | .packet data destination :: reads, m, conn, buffers =>
    match R.sniffPacket action m data with
    | (m, err) =>
      let buffers := buffers ++ [⟨conn.taken, data, destination⟩]
      let conn := conn.receive data destination reads
      if needsMoreData err then sniffReads action reads m conn buffers
      else { metadata := R.finishSniff action m err, conn, packetBuffers := buffers }

/-- `actionSniff` with a packet connection and the packets that were read before. -/
def actionSniff (conn : PacketConn) (inputPacketBuffers : List PacketBuffer) : Sniffed :=
  if action.isSkipped m then { metadata := m, conn }
  else
    match R.sniffInputs action inputPacketBuffers m with
    | (m, some err) => { metadata := R.finishSniff action m err, conn }
    | (m, none) => R.sniffReads action conn.reads m conn inputPacketBuffers

def actionResolve (action : ResolveAction) (m : Metadata) : Except String Metadata :=
  if m.destination.fqdn = "" then .ok m
  else if action.server ≠ "" ∧ R.hasTransport action.server = false then
    .error ("DNS server not found: " ++ action.server)
  else
    match R.lookup m action with
    | .error err => .error err
    | .ok addresses => .ok (m.setDestinationAddresses addresses)

end Router

/-- The options of an action that has some. -/
def RuleAction.options : RuleAction → Option RouteOptions
  | .route options | .routeOptions options => some options
  | .bypass outbound options => if outbound ≠ "" then some options else none
  | _ => none

/-- Whether the loop ends with the rule. -/
def RuleAction.isFinal : RuleAction → Bool
  | .route _ | .reject | .hijackDNS => true
  | .bypass outbound _ => outbound != ""
  | _ => false

/-- `applyRouteOptionsOverride`. -/
def Metadata.override (m : Metadata) (options : RouteOptions) : Metadata :=
  let m := match options.overrideAddress with
    | some d => m.setDestination { addr := d.addr, port := m.destination.port, fqdn := d.fqdn }
    | none => m
  if 0 < options.overridePort then
    m.setDestination { m.destination with port := options.overridePort }
  else m

/-- The options of a rule that matched, as `matchRule` applies them. -/
def Metadata.applyOptions (m : Metadata) (options : RouteOptions) : Metadata :=
  let m := if (options.overrideAddress.isSome || decide (0 < options.overridePort)) &&
      m.routeOriginalDestination.isNone then
    { m with routeOriginalDestination := some m.destination } else m
  let m := if options.overrideAddress.isSome then m.setDestinationAddresses [] else m
  m.override options

namespace Router

variable (R : Router)

def matchStep (rule : RouteRule) (s : Matching) : Progress :=
  if !(rule.rule.match s.metadata.context .fresh).1 then .next s
  else
    let m := match rule.action.options with
      | some options => s.metadata.applyOptions options
      | none => s.metadata
    match rule.action with
    | .sniff action =>
      let sniffed := R.actionSniff action m s.conn s.packetBuffers
      let s : Matching := ⟨sniffed.metadata, sniffed.conn, s.packetBuffers ++ sniffed.packetBuffers⟩
      match sniffed.fatalErr with
      | some err => .failed s err
      | none => .next s
    | .resolve action =>
      match R.actionResolve action m with
      | .error err => .failed { s with metadata := m } err
      | .ok m => .next { s with metadata := m }
    | action =>
      if action.isFinal then .selected { s with metadata := m } else .next { s with metadata := m }

def matchRules : List RouteRule → Nat → Matching → MatchResult
  | [], _, s => ⟨none, s, none⟩
  | rule :: rules, i, s =>
    match R.matchStep rule s with
    | .next s => matchRules rules (i + 1) s
    | .selected s => ⟨some i, s, none⟩
    | .failed s err => ⟨none, s, some err⟩

/-- `matchRule` with a packet connection on which `reads` are to come. -/
def matchRule (m : Metadata) (reads : List PacketRead) : MatchResult :=
  match R.prepareMatchMetadata m with
  | .error err => ⟨none, ⟨m, { reads }, []⟩, some err⟩
  | .ok m => R.matchRules R.rules 0 ⟨m, { reads }, []⟩

/-- The rules that the loop comes to, each with the state it is in then. -/
def visited : List RouteRule → Matching → List (RouteRule × Matching)
  | [], _ => []
  | rule :: rules, s =>
    (rule, s) ::
      match R.matchStep rule s with
      | .next s => visited rules s
      | _ => []

/-- The rule matches, and its sniff action goes on to read the connection. -/
def ReadsAt (x : RouteRule × Matching) : Prop :=
  (x.1.rule.match x.2.metadata.context .fresh).1 = true ∧
    ∃ action, x.1.action = .sniff action ∧ action.isSkipped x.2.metadata = false ∧
      (R.sniffInputs action x.2.packetBuffers x.2.metadata).2 = none

end Router

/-- No buffer was taken twice: those read and those released are all different. -/
structure PacketConn.Tidy (conn : PacketConn) : Prop where
  fresh : ∀ id ∈ conn.received.map (·.id) ++ conn.released, id < conn.taken
  nodup : (conn.received.map (·.id) ++ conn.released).Nodup

namespace PacketConn.Tidy

variable {conn : PacketConn} {data : List UInt8} {destination : Socksaddr}
  {reads : List PacketRead} (h : conn.Tidy)
include h

/-- One more buffer is taken, and then read into or released. -/
theorem of_perm {conn' : PacketConn} (htaken : conn'.taken = conn.taken + 1)
    (hperm : (conn'.received.map (·.id) ++ conn'.released).Perm
      (conn.taken :: (conn.received.map (·.id) ++ conn.released))) : conn'.Tidy := by
  constructor
  · intro id hid
    rw [htaken]
    obtain rfl | hid := mem_cons.mp (hperm.mem_iff.mp hid)
    · exact Nat.lt_succ_self _
    · exact Nat.lt_succ_of_lt (h.fresh id hid)
  · refine hperm.nodup_iff.mpr (nodup_cons.mpr ⟨fun hmem => ?_, h.nodup⟩)
    exact Nat.lt_irrefl _ (h.fresh _ hmem)

lemma receive : (conn.receive data destination reads).Tidy := by
  refine h.of_perm rfl ?_
  simp only [PacketConn.receive, map_append, map_cons, map_nil, append_assoc]
  exact perm_middle

lemma giveUp : (conn.giveUp reads).Tidy := by
  refine h.of_perm rfl ?_
  simp only [PacketConn.giveUp, ← append_assoc]
  exact perm_append_comm

lemma abandon : (conn.abandon reads).Tidy :=
  ⟨fun id hid => Nat.lt_succ_of_lt (h.fresh id hid), h.nodup⟩

end PacketConn.Tidy

namespace Router

variable {R : Router} {action : SniffAction}

lemma sniffReads_spec (reads : List PacketRead) (m : Metadata) (conn : PacketConn)
    (buffers : List PacketBuffer) (hconn : conn.Tidy) :
    ∃ new, (R.sniffReads action reads m conn buffers).conn.received = conn.received ++ new ∧
      (R.sniffReads action reads m conn buffers).packetBuffers = buffers ++ new ∧
      (R.sniffReads action reads m conn buffers).conn.Tidy := by
  induction reads generalizing m conn buffers with
  | nil => exact ⟨[], (append_nil _).symm, (append_nil _).symm, hconn.giveUp⟩
  | cons read reads ih =>
    cases read with
    | timeout | failed => exact ⟨[], (append_nil _).symm, (append_nil _).symm, hconn.giveUp⟩
    | cancelled => exact ⟨[], (append_nil _).symm, (append_nil _).symm, hconn.abandon⟩
    | packet data destination =>
      rw [sniffReads]
      split
      next m' err _ =>
      split
      · obtain ⟨new, hreceived, hbufs, htidy⟩ := ih m' (conn.receive data destination reads)
          (buffers ++ [⟨conn.taken, data, destination⟩]) hconn.receive
        refine ⟨⟨conn.taken, data, destination⟩ :: new, ?_, ?_, htidy⟩
        · rw [hreceived, PacketConn.receive, append_assoc, singleton_append]
        · rw [hbufs, append_assoc, singleton_append]
      · exact ⟨[⟨conn.taken, data, destination⟩], rfl, rfl, hconn.receive⟩

/-- An action that reads returns the packets at hand along with those it has read. -/
theorem actionSniff_spec (m : Metadata) (conn : PacketConn) (input : List PacketBuffer)
    (hconn : conn.Tidy) :
    ∃ new, (R.actionSniff action m conn input).conn.received = conn.received ++ new ∧
      (R.actionSniff action m conn input).conn.Tidy ∧
      if action.isSkipped m = false ∧ (R.sniffInputs action input m).2 = none then
        (R.actionSniff action m conn input).packetBuffers = input ++ new
      else (R.actionSniff action m conn input).packetBuffers = [] ∧ new = [] := by
  unfold actionSniff
  by_cases hskipped : action.isSkipped m
  · rw [if_pos hskipped]
    refine ⟨[], (append_nil _).symm, hconn, ?_⟩
    rw [if_neg (by simp [hskipped])]
    exact ⟨rfl, rfl⟩
  rw [if_neg hskipped]
  cases hinputs : R.sniffInputs action input m with
  | mk m' answer =>
    cases answer with
    | some err =>
      refine ⟨[], (append_nil _).symm, hconn, ?_⟩
      rw [if_neg (by simp)]
      exact ⟨rfl, rfl⟩
    | none =>
      obtain ⟨new, hreceived, hbufs, htidy⟩ := sniffReads_spec conn.reads m' conn input hconn
      refine ⟨new, hreceived, htidy, ?_⟩
      rwa [if_pos ⟨Bool.eq_false_iff.mpr hskipped, rfl⟩]

/-- What one rule adds to the buffers: the packets at hand once more, if its action
reads the connection, and the packets that it reads. -/
structure Adds (R : Router) (rule : RouteRule) (s t : Matching) (again new : List PacketBuffer) :
    Prop where
  tidy : t.conn.Tidy
  received : t.conn.received = s.conn.received ++ new
  packetBuffers : t.packetBuffers = s.packetBuffers ++ (again ++ new)
  again : again = [] ↔ (R.ReadsAt (rule, s) → s.packetBuffers = [])

variable {rule : RouteRule}

lemma Adds.nothing {s : Matching} (hs : s.conn.Tidy) (m : Metadata)
    (h : ¬ R.ReadsAt (rule, s)) : R.Adds rule s { s with metadata := m } [] [] where
  tidy := hs
  received := (append_nil _).symm
  packetBuffers := (append_nil _).symm
  again := iff_of_true rfl fun h' => absurd h' h

lemma matchStep_adds (rule : RouteRule) (s : Matching) (hs : s.conn.Tidy) :
    (R.matchStep rule s).Leaves fun t => ∃ again new, R.Adds rule s t again new := by
  unfold matchStep
  by_cases hmatch : (rule.rule.match s.metadata.context .fresh).1
  case neg =>
    rw [if_pos (by simp [hmatch])]
    exact ⟨[], [], .nothing hs s.metadata fun h => hmatch h.1⟩
  rw [if_neg (by simp [hmatch])]
  cases hact : rule.action with
  | sniff action =>
    dsimp only [RuleAction.options]
    obtain ⟨new, hreceived, htidy, hbufs⟩ := actionSniff_spec s.metadata s.conn s.packetBuffers hs
    cases (R.actionSniff action s.metadata s.conn s.packetBuffers).fatalErr with
    | some err => trivial
    | none =>
    have hreads : R.ReadsAt (rule, s) ↔ action.isSkipped s.metadata = false ∧
        (R.sniffInputs action s.packetBuffers s.metadata).2 = none := by
      constructor
      · rintro ⟨-, action', hact', h⟩
        cases hact.symm.trans hact'
        exact h
      · exact fun h => ⟨hmatch, action, hact, h⟩
    split at hbufs
    · next h =>
      refine ⟨s.packetBuffers, new, htidy, hreceived, ?_, ?_⟩
      · rw [hbufs]
      · exact ⟨fun hempty _ => hempty, fun hempty => hempty (hreads.mpr h)⟩
    · next h =>
      obtain ⟨hbufs, rfl⟩ := hbufs
      refine ⟨[], [], htidy, hreceived, ?_, iff_of_true rfl fun h' => absurd (hreads.mp h') h⟩
      rw [hbufs]
      rfl
  | resolve action =>
    dsimp only [RuleAction.options]
    have hreads : ¬ R.ReadsAt (rule, s) := by
      rintro ⟨-, action', hact', -⟩
      cases hact.symm.trans hact'
    cases R.actionResolve action s.metadata with
    | error err => trivial
    | ok m => exact ⟨[], [], .nothing hs m hreads⟩
  | _ =>
    have hreads : ¬ R.ReadsAt (rule, s) := by
      rintro ⟨-, action', hact', -⟩
      cases hact.symm.trans hact'
    dsimp only
    split <;> exact ⟨[], [], .nothing hs _ hreads⟩

section
variable {s t : Matching} {again new : List PacketBuffer} (h : R.Adds rule s t again new)
  (hle : s.conn.received.length ≤ s.packetBuffers.length)
include h hle

lemma Adds.eq_received_iff : t.packetBuffers = t.conn.received ↔
    s.packetBuffers = s.conn.received ∧ (R.ReadsAt (rule, s) → s.packetBuffers = []) := by
  rw [h.packetBuffers, h.received, ← append_assoc, append_left_inj, ← h.again]
  constructor
  · intro heq
    have hlen : s.packetBuffers.length + again.length = s.conn.received.length := by
      rw [← heq, length_append]
    have hagain : again = [] := eq_nil_of_length_eq_zero (by omega)
    rw [hagain, append_nil] at heq
    exact ⟨heq, hagain⟩
  · rintro ⟨heq, hagain⟩
    rw [hagain, append_nil, heq]

lemma Adds.length_le : t.conn.received.length ≤ t.packetBuffers.length := by
  rw [h.packetBuffers, h.received, length_append, length_append, length_append]
  omega

end

/-- Along the rules: what is handed on stays what was read just as long as no action
reads the connection with packets at hand. -/
theorem matchRules_eq_received_iff (rules : List RouteRule) (i : Nat) (s : Matching)
    (hs : s.conn.Tidy) (hle : s.conn.received.length ≤ s.packetBuffers.length)
    (h : (R.matchRules rules i s).fatalErr = none) : (R.matchRules rules i s).state.conn.Tidy ∧
      ((R.matchRules rules i s).state.packetBuffers = (R.matchRules rules i s).state.conn.received ↔
        s.packetBuffers = s.conn.received ∧
          ∀ x ∈ R.visited rules s, R.ReadsAt x → x.2.packetBuffers = []) := by
  induction rules generalizing i s with
  | nil =>
    refine ⟨hs, (and_iff_left ?_).symm⟩
    exact fun _ h => absurd h not_mem_nil
  | cons rule rules ih =>
    have hadds := matchStep_adds (R := R) rule s hs
    rw [matchRules] at h ⊢
    rw [visited, forall_mem_cons]
    cases hstep : R.matchStep rule s with
    | next t =>
      rw [hstep] at h hadds
      obtain ⟨again, new, hadds⟩ := hadds
      obtain ⟨htidy, hiff⟩ := ih (i + 1) t hadds.tidy (hadds.length_le hle) h
      refine ⟨htidy, hiff.trans ?_⟩
      rw [hadds.eq_received_iff hle, and_assoc]
    | selected t =>
      rw [hstep] at hadds
      obtain ⟨again, new, hadds⟩ := hadds
      refine ⟨hadds.tidy, (hadds.eq_received_iff hle).trans ?_⟩
      refine and_congr_right fun _ => (and_iff_left ?_).symm
      exact fun _ h => absurd h not_mem_nil
    | failed t err =>
      simp [hstep] at h

/-- The rules and states that a call comes to. -/
def visitedBy (R : Router) (m : Metadata) (reads : List PacketRead) : List (RouteRule × Matching) :=
  match R.prepareMatchMetadata m with
  | .error _ => []
  | .ok m => R.visited R.rules ⟨m, { reads }, []⟩

/-- A call that returns without an error hands on exactly the packets that it has
read, in their order, and no buffer is handed on or released twice, just when every
sniff action that reads the connection does so before any packet was read. -/
theorem packets_handed_on_iff (R : Router) (m : Metadata) (reads : List PacketRead)
    (h : (R.matchRule m reads).fatalErr = none) :
    ((R.matchRule m reads).state.packetBuffers = (R.matchRule m reads).state.conn.received ∧
        ((R.matchRule m reads).state.packetBuffers.map (·.id) ++
          (R.matchRule m reads).state.conn.released).Nodup) ↔
      ∀ x ∈ R.visitedBy m reads, R.ReadsAt x → x.2.packetBuffers = [] := by
  unfold matchRule at h ⊢
  unfold visitedBy
  cases hprep : R.prepareMatchMetadata m with
  | error err =>
    simp [hprep] at h
  | ok m' =>
    rw [hprep] at h
    obtain ⟨htidy, hiff⟩ := matchRules_eq_received_iff R.rules 0 ⟨m', { reads }, []⟩
      ⟨nofun, List.nodup_nil⟩ (Nat.le_refl 0) h
    refine Iff.trans ⟨fun h => h.1, fun heq => ⟨heq, ?_⟩⟩ (hiff.trans (and_iff_right rfl))
    rw [heq]
    exact htidy.nodup

/-- Every packet is a fragment. -/
def wantsMore : PacketSniffer := fun m _ => (m, some [.needMoreData])

def always : Rule := .logical .and [] false

/-- Packets are sniffed by the given number of rules. -/
def sampleRouter (count : Nat) : Router where
  rules := replicate count
    ⟨always, .sniff { snifferNames := ["quic"], packetSniffers := [wantsMore] }⟩
  prepareMatchMetadata m := .ok m
  hasTransport _ := false
  lookup _ _ := .ok []
  isDomainName _ := false
  defaultPacketSniffers := []
  quicClientHello := wantsMore

theorem packets_handed_on_once :
    ((sampleRouter 1).matchRule {} [.packet [1] {}, .packet [2] {}]).fatalErr = none ∧
      ((sampleRouter 1).matchRule {} [.packet [1] {}, .packet [2] {}]).state.packetBuffers =
        [⟨0, [1], {}⟩, ⟨1, [2], {}⟩] ∧
      ((sampleRouter 1).matchRule {} [.packet [1] {}, .packet [2] {}]).state.packetBuffers =
        ((sampleRouter 1).matchRule {} [.packet [1] {}, .packet [2] {}]).state.conn.received := by
  refine ⟨rfl, rfl, ((packets_handed_on_iff (sampleRouter 1) {} _ rfl).mpr ?_).1⟩
  intro x hx _
  cases List.mem_singleton.mp hx
  rfl

/-- The second rule finds the packet that the first has read, reads another, and
returns both: the first is handed on twice. -/
theorem packet_handed_on_twice :
    ((sampleRouter 2).matchRule {} [.packet [1] {}, .timeout, .packet [2] {}]).fatalErr = none ∧
      ((sampleRouter 2).matchRule {} [.packet [1] {}, .timeout,
        .packet [2] {}]).state.conn.received = [⟨0, [1], {}⟩, ⟨2, [2], {}⟩] ∧
      ((sampleRouter 2).matchRule {} [.packet [1] {}, .timeout,
        .packet [2] {}]).state.packetBuffers = [⟨0, [1], {}⟩, ⟨0, [1], {}⟩, ⟨2, [2], {}⟩] :=
  ⟨rfl, rfl, rfl⟩

end Router

end SingBox.Route
