import Mathlib.Data.List.Nodup
import SingBox.Lib.Codec

/-! The configuration and the users that the panel sends, with the checks on a configuration, and
the artifact of a release. -/

namespace SingBox.Panel
open Lib List

def isSpace (c : Char) : Bool :=
  [0x9, 0xa, 0xb, 0xc, 0xd, 0x20, 0x85, 0xa0, 0x1680, 0x2028, 0x2029, 0x202f, 0x205f,
    0x3000].contains c.toNat || (0x2000 ≤ c.toNat && c.toNat ≤ 0x200a)

def trimSpace (s : String) : String :=
  String.ofList ((s.toList.dropWhile isSpace).reverse.dropWhile isSpace).reverse

def cause {α : Type} (message : String) : Except String α → Except String α :=
  Except.mapError fun err => message ++ ": " ++ err

def supportedProtocols : List String := ["hysteria2", "anytls", "shadowsocks"]

def isSupportedProtocol (protocol : String) : Bool := supportedProtocols.contains protocol

structure ApplyStrategy where
  onConfigurationChange : String
  onUserChange : String
  deriving DecidableEq

structure PollIntervals where
  configurationSeconds : Int
  usersSeconds : Int
  trafficSeconds : Int
  heartbeatSeconds : Int
  deriving DecidableEq

structure ManagedInbound where
  inboundID : String
  tag : String
  protocol : String
  userApplyPolicy : String := ""
  deriving DecidableEq

structure ClickHouseConfig where
  server : String
  protocol : String := ""
  deriving DecidableEq

structure BinaryDownload where
  url : String
  sha256 : String
  deriving DecidableEq

/-- The downloads are listed as the map is gone through. -/
structure BinaryUpdate where
  version : String
  url : String := ""
  sha256 : String := ""
  downloads : List (String × BinaryDownload) := []
  deriving DecidableEq

structure ConfigurationResponse where
  revision : String
  apiVersion : String
  nodeID : String
  applyStrategy : ApplyStrategy
  pollIntervals : PollIntervals
  managedInbounds : List ManagedInbound
  clickHouse : Option ClickHouseConfig := none
  binary : Option BinaryUpdate := none
  singBoxConfigTemplate : String
  deriving DecidableEq

structure UserRuntimeIdentity where
  source : String
  value : String
  deriving DecidableEq

structure Credential where
  type : String
  password : String
  deriving DecidableEq

structure User where
  userID : String
  name : String
  runtimeIdentity : Option UserRuntimeIdentity := none
  credential : Credential
  deriving DecidableEq

structure UserSnapshot where
  revision : String
  configurationRevision : String
  nodeID : String
  inboundID : String
  protocol : String
  users : List User
  deriving DecidableEq

inductive UserLoadStatus
  | ok
  | stale
  | emptyInitialLoad
  | revisionConflict
  | unsupportedProto
  | applyFailed
  deriving DecidableEq

/-- What is looked at of a parsed URL. -/
structure URL where
  scheme : String
  host : String
  deriving DecidableEq

def refuse (p : Prop) [Decidable p] (message : String) : Except String Unit :=
  if p then .error message else .ok ()

def ApplyStrategy.validate (s : ApplyStrategy) : Except String Unit := do
  refuse (s.onConfigurationChange = "") "missing on_configuration_change"
  refuse (s.onConfigurationChange ∉ ["restart_process", "recreate_instance", "manual"])
    ("unknown on_configuration_change: " ++ s.onConfigurationChange)
  refuse (s.onUserChange = "") "missing on_user_change"
  refuse (s.onUserChange ∉ ["hot_reload_users", "restart_process", "recreate_instance"])
    ("unknown on_user_change: " ++ s.onUserChange)

namespace ManagedInbound

def validate (m : ManagedInbound) : Except String Unit := do
  refuse (m.inboundID = "") "missing inbound_id"
  refuse (m.tag = "") "missing tag"
  refuse (m.protocol = "") "missing protocol"

/-- The checks on inbounds, from the one with a given number on. -/
def validateAll (i : Nat) (seenIDs : List String) : List ManagedInbound → Except String Unit
  | [] => .ok ()
  | inbound :: inbounds => do
    cause ("managed_inbounds[" ++ toString i ++ "]") inbound.validate
    refuse (inbound.inboundID ∈ seenIDs)
      ("duplicate managed_inbound inbound_id: " ++ inbound.inboundID)
    validateAll (i + 1) (inbound.inboundID :: seenIDs) inbounds

end ManagedInbound

def ClickHouseConfig.validate (c : ClickHouseConfig) : Except String Unit := do
  refuse (trimSpace c.server = "") "missing server"
  refuse (c.protocol ∉ ["", "native", "http"]) ("unknown protocol: " ++ c.protocol)

def validSHA256 (sum : String) : Bool :=
  sum.utf8ByteSize == 64 && sum.toList.all fun c =>
    ('0' ≤ c && c ≤ '9') || ('a' ≤ c && c ≤ 'f') || ('A' ≤ c && c ≤ 'F')

section
variable (parseURL : String → Except String URL)

def validateBinaryDownload (rawURL sha256 : String) : Except String Unit := do
  refuse (trimSpace rawURL = "") "missing url"
  let parsed ← cause "invalid url" (parseURL rawURL)
  refuse (parsed.scheme ≠ "https" ∧ parsed.scheme ≠ "http") "url scheme must be http or https"
  refuse (parsed.host = "") "url host is required"
  refuse (validSHA256 sha256 = false) "sha256 must be 64 hex characters"

@[irreducible] def BinaryUpdate.validate (b : BinaryUpdate) : Except String Unit := do
  refuse (trimSpace b.version = "") "missing version"
  if b.downloads.isEmpty then validateBinaryDownload parseURL b.url b.sha256
  else b.downloads.forM fun (key, dl) =>
    cause ("downloads[" ++ key ++ "]") (validateBinaryDownload parseURL dl.url dl.sha256)

def ConfigurationResponse.validate (c : ConfigurationResponse) : Except String Unit := do
  refuse (c.revision = "") "missing configuration revision"
  refuse (c.apiVersion = "") "missing api_version"
  refuse (c.nodeID = "") "missing node_id"
  cause "invalid apply_strategy" c.applyStrategy.validate
  refuse (c.pollIntervals.configurationSeconds ≤ 0)
    "poll_intervals.configuration_seconds must be positive"
  refuse (c.pollIntervals.usersSeconds ≤ 0) "poll_intervals.users_seconds must be positive"
  refuse (c.pollIntervals.trafficSeconds ≤ 0) "poll_intervals.traffic_seconds must be positive"
  refuse (c.pollIntervals.heartbeatSeconds ≤ 0) "poll_intervals.heartbeat_seconds must be positive"
  refuse (c.managedInbounds = []) "managed_inbounds must not be empty"
  ManagedInbound.validateAll 0 [] c.managedInbounds
  refuse (c.singBoxConfigTemplate = "") "missing sing_box_config_template"
  cause "clickhouse" ((c.clickHouse.map (·.validate)).getD (.ok ()))
  cause "binary" ((c.binary.map (·.validate parseURL)).getD (.ok ()))

end

lemma of_refuse {p : Prop} [Decidable p] {message : String} {u : Unit}
    (h : refuse p message = .ok u) : ¬p := by
  unfold refuse at h
  split at h
  · cases h
  · assumption

variable {parseURL : String → Except String URL}

lemma BinaryUpdate.version_ne_of_validate {b : BinaryUpdate}
    (h : b.validate parseURL = .ok ()) : b.version ≠ "" := by
  unfold BinaryUpdate.validate at h
  obtain ⟨_, hver, -⟩ := bind_eq_ok h
  intro hempty
  rw [hempty] at hver
  exact of_refuse hver rfl

/-- Inbounds that pass have different ids, none of them seen before. -/
theorem ManagedInbound.nodup_of_validateAll {inbounds : List ManagedInbound} {i : Nat}
    {seenIDs : List String} (h : validateAll i seenIDs inbounds = .ok ()) :
    (inbounds.map (·.inboundID)).Nodup ∧ ∀ m ∈ inbounds, m.inboundID ∉ seenIDs := by
  induction inbounds generalizing i seenIDs with
  | nil => exact ⟨nodup_nil, nofun⟩
  | cons inbound inbounds ih =>
    obtain ⟨_, -, h⟩ := bind_eq_ok h
    obtain ⟨_, hunseen, h⟩ := bind_eq_ok h
    obtain ⟨hnodup, hrest⟩ := ih h
    rw [map_cons, nodup_cons]
    refine ⟨⟨?_, hnodup⟩, ?_⟩
    · intro hmem
      obtain ⟨m, hm, hid⟩ := mem_map.mp hmem
      exact hrest m hm (hid ▸ mem_cons_self)
    · intro m hm
      obtain rfl | hm := mem_cons.mp hm
      · exact of_refuse hunseen
      · exact fun hseen => hrest m hm (mem_cons_of_mem _ hseen)

namespace ConfigurationResponse

lemma nodup_of_validate {c : ConfigurationResponse}
    (h : c.validate parseURL = .ok ()) : (c.managedInbounds.map (·.inboundID)).Nodup := by
  -- Nine checks come before those of the inbounds.
  iterate 9 obtain ⟨_, -, h⟩ := bind_eq_ok h
  obtain ⟨_, hinbounds, -⟩ := bind_eq_ok h
  exact (ManagedInbound.nodup_of_validateAll hinbounds).1

end ConfigurationResponse

abbrev Bytes := List UInt8

/-- 256 MiB. -/
def maxBinaryBytes : Nat := 268435456

/-- A member of a tar archive; at most `maxBinaryBytes + 1` bytes of it are read. -/
structure TarMember where
  name : String
  isRegular : Bool
  data : Except String Bytes

/-- Functions of libraries. At most a given number of bytes is decompressed. The
members of a tar archive are listed up to its end, or to where it cannot be read. -/
structure ArtifactLibraries where
  sha256Hex : Bytes → String
  gunzip : Bytes → Nat → Except String Bytes
  tarMembers : Bytes → List (Except String TarMember)
  pathBase : String → String

/-- The entry for the platform, or else the one without a platform. -/
def resolveDownload (rel : BinaryUpdate) (goos goarch : String) : Except String BinaryDownload :=
  let key := goos ++ "/" ++ goarch
  match rel.downloads.lookup key with
  | some dl => .ok dl
  | none =>
    if rel.url ≠ "" then .ok { url := rel.url, sha256 := rel.sha256 }
    else .error ("no binary download for " ++ key)

/-- `strings.EqualFold` where one of the strings is of digits and letters a to f. -/
def equalFold (s t : String) : Bool := s.toList.map Char.toLower == t.toList.map Char.toLower

def isGzip (payload : Bytes) : Bool := payload.take 2 == [0x1f, 0x8b]

def isTar (payload : Bytes) : Bool := (payload.drop 257).take 5 == [0x75, 0x73, 0x74, 0x61, 0x72]

namespace ArtifactLibraries

variable (A : ArtifactLibraries) (payload : Bytes)

def verifySHA256 (want : String) : Except String Unit :=
  refuse (equalFold (A.sha256Hex payload) want = false) "binary sha256 mismatch"

/-- The member with the preferred name, or else the first regular one that could be
an executable. -/
def extractFromTar (preferName : String) :
    List (Except String TarMember) → Option Bytes → Except String Bytes
  | [], some fallback => .ok fallback
  | [], none => .error "tar archive contains no executable"
  | .error err :: _, _ => .error ("read tar: " ++ err)
  | .ok m :: members, fallback =>
    let name := A.pathBase m.name
    if !m.isRegular || name == "" || name == "." || name.startsWith "." then
      extractFromTar preferName members fallback
    else
      match m.data with
      | .error err => .error ("read tar member " ++ m.name ++ ": " ++ err)
      | .ok data =>
        if data.length = 0 ∨ maxBinaryBytes < data.length then
          extractFromTar preferName members fallback
        else if preferName ≠ "" ∧ name = preferName then .ok data
        else extractFromTar preferName members (fallback.or (some data))

def decompress : Except String Bytes := do
  if isGzip payload then
    let payload ← cause "gunzip binary" (A.gunzip payload (maxBinaryBytes + 1))
    refuse (maxBinaryBytes < payload.length)
      ("decompressed binary exceeds " ++ toString maxBinaryBytes ++ " bytes")
    return payload
  return payload

def unpackExecutable (preferName : String) : Except String Bytes := do
  let payload ← A.decompress payload
  if isTar payload then
    A.extractFromTar (A.pathBase preferName) (A.tarMembers payload) none
  else
    refuse (payload.length = 0) "empty binary payload"
    return payload

end ArtifactLibraries

end SingBox.Panel
