import Mathlib.Data.List.Basic

/-! The dials of a WebSocket client. A dial that sends no early data in a header of its own works
on the header table of the client, and removes the sub-protocol from it. -/

namespace SingBox.Websocket
open List

abbrev Bytes := List UInt8

/-- `http.Header`, by canonical names. -/
abbrev Header := String → List String

def Header.get (headers : Header) (name : String) : String := (headers name).headD ""

def Header.set (headers : Header) (name value : String) : Header :=
  Function.update headers name [value]

def Header.del (headers : Header) (name : String) : Header := Function.update headers name []

/-- `base64.RawURLEncoding` and `http.CanonicalHeaderKey`. -/
structure Library where
  encodeToString : Bytes → String
  canonicalHeaderKey : String → String

structure Client where
  host : String
  path : String
  headers : Header
  maxEarlyData : Nat
  earlyDataHeaderName : String

structure Request where
  host : String
  path : String
  headers : Header
  protocols : List String

/-- One dial: what is written first, and what the server sends after its answer. The first part
of it was read together with the answer. -/
structure Dial where
  content : Bytes := []
  refused : Bool := false
  buffered : Bytes := []
  rest : Bytes := []

def secWebSocketProtocol : String := "Sec-Websocket-Protocol"

/-- `upgrade`, up to the handshake: what is sent, and the header table after it. -/
def upgrade (host path : String) (headers : Header) : Request × Header :=
  let protocolHeader := headers.get secWebSocketProtocol
  if protocolHeader ≠ "" then
    let headers := headers.del secWebSocketProtocol
    ({ host, path, headers, protocols := [protocolHeader] }, headers)
  else ({ host, path, headers, protocols := [] }, headers)

/-- The rest of `upgrade`: what is read from the connection that it returns. The buffer is new, so
its length is 0. -/
def Dial.reads (d : Dial) : Option Bytes :=
  let buffer : Bytes := []
  if d.refused then none else some (buffer ++ d.buffered.take buffer.length ++ d.rest)

variable (L : Library)

namespace Client

variable (c : Client)

def earlyData (d : Dial) : Bytes := d.content.take c.maxEarlyData

/-- `DialContext` and `writeRequest`. -/
def dial (d : Dial) : Client × Request :=
  let earlyData := c.earlyData d
  if earlyData ≠ [] then
    let earlyDataString := L.encodeToString earlyData
    if c.earlyDataHeaderName = "" then
      let (request, headers) := upgrade c.host (c.path ++ earlyDataString) c.headers
      ({ c with headers }, request)
    else
      let headers := c.headers.set (L.canonicalHeaderKey c.earlyDataHeaderName) earlyDataString
      (c, (upgrade c.host c.path headers).1)
  else
    let (request, headers) := upgrade c.host c.path c.headers
    ({ c with headers }, request)

/-- The client after dials. -/
def after (ds : List Dial) : Client := ds.foldl (fun c d => (c.dial L d).1) c

/-- Every dial sends the request that the client would begin with and leaves the client as it was
at the beginning, and what the server sends after its answer is read. -/
def Transparent (ds : List Dial) : Prop :=
  ∀ before d later, ds = before ++ d :: later → (c.after L before).dial L d = (c, (c.dial L d).2) ∧
      (d.refused = false → d.reads = some (d.buffered ++ d.rest))

/-- The dial sends early data in a header, and so with a table of its own. -/
def clones (d : Dial) : Bool := c.earlyData d ≠ [] && c.earlyDataHeaderName ≠ ""

variable {L} {c : Client} {d : Dial} {ds : List Dial}

lemma upgrade_eq_iff (host path : String) :
    { c with headers := (upgrade host path c.headers).2 } = c ↔
      c.headers.get secWebSocketProtocol = "" := by
  unfold upgrade
  dsimp only
  split
  · next hproto =>
    refine ⟨fun h => ?_, fun h => absurd h hproto⟩
    rw [← h]
    simp [Header.get, Header.del]
  · next hproto => simpa using hproto

/-- A dial changes the client if it removes a sub-protocol from its table. -/
theorem dial_eq_iff : (c.dial L d).1 = c ↔
    c.headers.get secWebSocketProtocol = "" ∨ c.clones d := by
  unfold dial clones
  dsimp only
  split
  · next hearly =>
    split
    · next hname =>
      rw [upgrade_eq_iff]
      simp [hname]
    · next hname => simp [hearly, hname]
  · next hearly => simpa [hearly] using upgrade_eq_iff ..

lemma after_eq (h : c.Transparent L ds) {before later : List Dial} (hds : ds = before ++ later) :
    c.after L before = c := by
  obtain rfl | ⟨before, d, rfl⟩ := eq_nil_or_concat' before
  · rfl
  · rw [append_assoc] at hds
    rw [after, foldl_append]
    exact congrArg Prod.fst (h before d later hds).1

/-- Dials are transparent just if nothing comes together with an answer, and no sub-protocol is
configured or every dial sends early data in a header. -/
theorem dials_alike_iff (L : Library) (c : Client) (ds : List Dial) :
    c.Transparent L ds ↔ (∀ d ∈ ds, d.refused = false → d.buffered = []) ∧
      (c.headers.get secWebSocketProtocol = "" ∨ ∀ d ∈ ds, c.clones d = true) := by
  have hreads (d : Dial) (hd : d.refused = false) :
      d.reads = some (d.buffered ++ d.rest) ↔ d.buffered = [] := by
    simp [Dial.reads, hd]
  constructor
  · intro h
    have heach : ∀ d ∈ ds, (d.refused = false → d.buffered = []) ∧
        (c.headers.get secWebSocketProtocol = "" ∨ c.clones d) := by
      intro d hd
      obtain ⟨before, later, hds⟩ := append_of_mem hd
      obtain ⟨hdial, hread⟩ := h before d later hds
      rw [after_eq h hds] at hdial
      exact ⟨fun hok => (hreads d hok).mp (hread hok), dial_eq_iff.mp (congrArg Prod.fst hdial)⟩
    refine ⟨fun d hd => (heach d hd).1, or_iff_not_imp_left.mpr fun hproto d hd => ?_⟩
    exact (heach d hd).2.resolve_left hproto
  · rintro ⟨hbuffered, hheaders⟩ before d later rfl
    have hsame : ∀ e ∈ before ++ d :: later, (c.dial L e).1 = c := fun e he =>
      dial_eq_iff.mpr (hheaders.imp_right fun hall => hall e he)
    have hafter : c.after L before = c := by
      refine foldlRecOn (motive := (· = c)) before _ rfl fun c' hc' e he => ?_
      rw [hc']
      exact hsame e (mem_append_left _ he)
    rw [hafter]
    exact ⟨Prod.ext (hsame d (by simp)) rfl,
        fun hok => (hreads d hok).mpr (hbuffered d (by simp) hok)⟩

/-- A client with a sub-protocol, and no early data. -/
def chatClient : Client where
  host := "example.com"
  path := "/"
  headers := Header.set (fun _ => []) secWebSocketProtocol "chat"
  maxEarlyData := 0
  earlyDataHeaderName := ""

/-- A frame that comes with the answer is lost, and the second request has no sub-protocol. -/
theorem chatClient_not_transparent : { buffered := [0x81, 0] : Dial }.reads = some [] ∧
      ((chatClient.dial ⟨fun _ => "", id⟩ {}).1.dial ⟨fun _ => "", id⟩ {}).2.protocols = [] ∧
      ¬ chatClient.Transparent ⟨fun _ => "", id⟩ [{}, {}] := by
  refine ⟨rfl, rfl, fun h => ?_⟩
  have hprotocols := congrArg (·.2.protocols) (h [{}] {} [] rfl).1
  cases hprotocols

end Client

end SingBox.Websocket
