import SingBox.Lib.Decoder
import SingBox.Lib.Machine
import SingBox.Route.Load

/-! A rule-set that is fetched from a server: its rules, the ETag that the next request asks
with, and the copy of both in the cache file. -/

namespace SingBox.Route
open Lib Codec Option

/-! ## The copy in the cache file -/

/-- `time.Time`: its seconds, as `Unix` has them, and the nanoseconds beyond. -/
structure Time where
  unix : BitVec 64
  nanosecond : Fin 1000000000 := 0

structure SavedBinary where
  content : Bytes
  lastUpdated : Time
  lastEtag : Bytes
  urlHash : Bytes

namespace SavedBinary

variable (s : SavedBinary)

def marshalBinary : Bytes :=
  2 :: putField s.content ++ putBigEndian 8 s.lastUpdated.unix.toNat ++ putField s.lastEtag ++
    putField s.urlHash

/-- A length, which `binary.ReadUvarint` reads, and so many bytes. -/
def readField (data : Bytes) : Option (Bytes × Bytes) :=
  match Decoder.readUvarint data with
  | (.ok length, data) => readBytes length data
  | (.error _, _) => none

def unmarshalBinary : Bytes → Option SavedBinary
  | [] => none
  | version :: data => do
    let (content, data) ← readField data
    let (lastUpdated, data) ← readBytes 8 data
    let (lastEtag, data) ← readField data
    -- the first version has no hash
    let urlHash ← if version < 2 then some [] else (readField data).map Prod.fst
    return {
      content, lastEtag, urlHash
      lastUpdated := { unix := BitVec.ofNat 64 (ofBigEndian lastUpdated) } }

/-- The time is saved without its nanoseconds. -/
def truncated : SavedBinary := { s with lastUpdated := { unix := s.lastUpdated.unix } }

/-- The lengths are those that slices and strings can have. -/
structure Sized : Prop where
  content : s.content.length < 2 ^ 63
  lastEtag : s.lastEtag.length < 2 ^ 63
  urlHash : s.urlHash.length < 2 ^ 63

variable {s}

lemma readField_putField {bytes : Bytes} (h : bytes.length < 2 ^ 63) (rest : Bytes) :
    readField (putField bytes ++ rest) = some (bytes, rest) := by
  rw [readField, putField, List.append_assoc, (Decoder.Reads.uvarint (by omega)).apply]
  exact readBytes_append bytes rest

lemma eq_of_readField {bytes rest : Bytes} {read : Bytes × Bytes}
    (h : readField (putField bytes ++ rest) = some read) : read = (bytes, rest) := by
  unfold readField at h
  split at h
  · next hread =>
    rw [putField, List.append_assoc] at hread
    obtain ⟨rfl, rfl⟩ := Decoder.eq_of_readGroups (Nat.le_refl _) hread
    rw [readBytes_append] at h
    exact (some.inj h).symm
  · cases h

lemma infix_of_readField {data : Bytes} {read : Bytes × Bytes} (h : readField data = some read) :
    read.1 <:+: data := by
  unfold readField at h
  split at h
  · next length rest hread =>
    obtain ⟨-, h⟩ := ite_none_left_eq_some.mp h
    cases h
    exact (List.take_prefix length rest).isInfix.trans (Decoder.suffix_of_readGroups hread).isInfix
  · cases h

lemma ofBigEndian_time (t : BitVec 64) : ofBigEndian (putBigEndian 8 t.toNat) = t.toNat :=
  ofBigEndian_putBigEndian t.isLt

lemma readBytes_time (t : BitVec 64) (rest : Bytes) :
    readBytes 8 (putBigEndian 8 t.toNat ++ rest) = some (putBigEndian 8 t.toNat, rest) := by
  have := readBytes_append (putBigEndian 8 t.toNat) rest
  rwa [length_putBigEndian] at this

/-- A record that is read back is the one that was written. -/
theorem eq_of_unmarshalBinary {t : SavedBinary} (h : unmarshalBinary s.marshalBinary = some t) :
    t = s.truncated := by
  simp only [marshalBinary, unmarshalBinary, List.cons_append, List.append_assoc] at h
  obtain ⟨read, hread, h⟩ := bind_eq_some_iff.mp h
  obtain rfl := eq_of_readField hread
  simp only [readBytes_time, bind_some, Option.bind_eq_bind] at h
  obtain ⟨read, hread, h⟩ := bind_eq_some_iff.mp h
  obtain rfl := eq_of_readField hread
  obtain ⟨hash, hhash, h⟩ := bind_eq_some_iff.mp h
  obtain ⟨read, hread, rfl⟩ := map_eq_some_iff.mp hhash
  rw [← List.append_nil (putField s.urlHash)] at hread
  obtain rfl := eq_of_readField hread
  cases h
  simp [truncated, ofBigEndian_time]

def marshalBinaryV1 (s : SavedBinary) : Bytes :=
  1 :: putField s.content ++ putBigEndian 8 s.lastUpdated.unix.toNat ++ putField s.lastEtag

/-- Records of both versions are read back, with the time in whole seconds, and of any other bytes
nothing is read but a part of them. -/
theorem unmarshalBinary_total (s : SavedBinary) (hs : s.Sized) (data : Bytes) :
    unmarshalBinary s.marshalBinary = some s.truncated ∧
    unmarshalBinary s.marshalBinaryV1 = some { s.truncated with urlHash := [] } ∧
    (unmarshalBinary data = none ∨ ∃ t, unmarshalBinary data = some t ∧ t.content <:+: data) := by
  have hetag := readField_putField hs.lastEtag []
  have hhash := readField_putField hs.urlHash []
  rw [List.append_nil] at hetag hhash
  refine ⟨?_, ?_, ?_⟩
  · simp [marshalBinary, unmarshalBinary, readField_putField hs.content,
      readField_putField hs.lastEtag, readBytes_time, hhash, ofBigEndian_time, truncated]
  · simp [marshalBinaryV1, unmarshalBinary, readField_putField hs.content, readBytes_time, hetag,
      ofBigEndian_time, truncated]
  · cases hdata : unmarshalBinary data with
    | none => exact .inl rfl
    | some t =>
      refine .inr ⟨t, rfl, ?_⟩
      cases data with
      | nil => cases hdata
      | cons version data =>
        obtain ⟨read, hread, h⟩ := bind_eq_some_iff.mp hdata
        obtain ⟨_, _, h⟩ := bind_eq_some_iff.mp h
        obtain ⟨_, _, h⟩ := bind_eq_some_iff.mp h
        have hcontent : t.content = read.1 := by
          dsimp only at h
          split at h
          · cases h
            rfl
          · obtain ⟨_, _, h⟩ := bind_eq_some_iff.mp h
            cases h
            rfl
        rw [hcontent]
        exact (infix_of_readField hread).trans (List.suffix_cons version data).isInfix

/-- A record of the first second of 1970, and a length that overflows. -/
theorem unmarshalBinary_total_half_second :
    let s : SavedBinary := ⟨[1, 2], ⟨0, 500000000⟩, [3], [4, 5]⟩
    unmarshalBinary s.marshalBinary = some ⟨[1, 2], ⟨0, 0⟩, [3], [4, 5]⟩ ∧
      unmarshalBinary (2 :: List.replicate 10 128 ++ [0]) = none := by
  intro s
  obtain ⟨hback, -, -⟩ := unmarshalBinary_total s ⟨by decide, by decide, by decide⟩ []
  exact ⟨hback, by decide⟩

end SavedBinary

def loadRuleSet (file : Option Bytes) : Option SavedBinary := file.bind SavedBinary.unmarshalBinary

/-- The seconds of the zero value of `Time`. -/
def zeroTime : BitVec 64 := BitVec.ofInt 64 (-62135596800)

/-- What `sha256.Sum256` returns. -/
abbrev Sum256 := { hash : Bytes // hash.length = 32 }

/-! ## The rule-set -/

/-- How content is decoded, by the format of the set, and whether there is a network
manager. -/
structure Loader where
  decode : Bytes → Except String (List HeadlessOptions)
  networkManager : Bool

/-- The answer to a request. A body may fail to be read. -/
inductive Answer
  | failed (err : String)
  | ok (etag : Bytes) (body : Except String Bytes)
  | notModified
  | status (status : String)

/-- What a fetch finds: the answer, the check of new metadata, the time, and whether the
cache file takes the copy. -/
structure FetchEnv where
  answer : Answer
  validateRuleSetMetadataUpdate : String → RuleSetMetadata → Except String Unit
  now : BitVec 64
  saves : Bool

/-- The fields of `RemoteRuleSet` that loading and fetching read or write. -/
structure RemoteRuleSet where
  set : RuleSet
  urlHash : Sum256
  cacheFile : Bool
  lastUpdated : BitVec 64 := zeroTime
  lastEtag : Bytes := []
  refs : Nat := 0

namespace RemoteRuleSet

variable (L : Loader) (validate : String → RuleSetMetadata → Except String Unit) (s : RemoteRuleSet)

def loadBytes (content : Bytes) : Except String RemoteRuleSet := do
  let options ← L.decode content
  let set ← s.set.reloadRules L.networkManager validate options
  return { s with set }

variable (env : FetchEnv) (s : RemoteRuleSet)

/-- `fetch`: its error, the set, and the copy in the cache file. -/
def fetch (file : Option Bytes) : Except String Unit × RemoteRuleSet × Option Bytes :=
  match env.answer with
  | .failed err => (.error err, s, file)
  | .status status => (.error ("unexpected status: " ++ status), s, file)
  | .notModified =>
    let s := { s with lastUpdated := env.now }
    match s.cacheFile, loadRuleSet file with
    | true, some saved =>
      (.ok (), s, if env.saves then
        some { saved with lastUpdated := ⟨env.now, 0⟩, urlHash := s.urlHash.1 }.marshalBinary
            else file)
    | _, _ => (.ok (), s, file)
  | .ok _ (.error err) => (.error err, s, file)
  | .ok etag (.ok content) =>
    match s.loadBytes L env.validateRuleSetMetadataUpdate content with
    | .error err => (.error err, s, file)
    | .ok s =>
      let lastEtag := if etag ≠ [] then etag else s.lastEtag
      let s := { s with lastEtag, lastUpdated := env.now }
      (.ok (), s, if s.cacheFile && env.saves then
        some (SavedBinary.marshalBinary
          { content, lastUpdated := ⟨env.now, 0⟩, lastEtag, urlHash := s.urlHash.1 }) else file)

/-- `Cleanup`, and the end of `updateOnce`. -/
def cleanup : RemoteRuleSet :=
  if s.refs = 0 then { s with set := { s.set with rules := [] } } else s

def updateOnce (file : Option Bytes) : RemoteRuleSet × Option Bytes :=
  match s.fetch L env file with
  | (.error _, s, file) => (s, file)
  | (.ok _, s, file) => (s.cleanup, file)

/-- The copy in the cache file is loaded, unless it was fetched from another URL. -/
def restore (file : Option Bytes) : RemoteRuleSet :=
  match s.cacheFile, loadRuleSet file with
  | true, some saved =>
    if 0 < saved.urlHash.length ∧ saved.urlHash ≠ s.urlHash.1 then s
    else
      match s.loadBytes L validate saved.content with
      | .error _ => s
      | .ok s => { s with lastUpdated := saved.lastUpdated.unix, lastEtag := saved.lastEtag }
  | _, _ => s

/-- What `StartContext` does before it fetches, and whether it will: the initial file is read
where nothing was restored. -/
def prepare (file : Option Bytes) (initial : Option (Except String Bytes)) : RemoteRuleSet × Bool :=
  let s := s.restore L validate file
  if s.lastUpdated = zeroTime then
    match initial with
    | some (.ok content) =>
      match s.loadBytes L validate content with
      | .ok s => (s, false)
      | .error _ => (s, true)
    | _ => (s, true)
  else
    (s, false)

def startContext (file : Option Bytes)
    (initial : Option (Except String Bytes)) : Except String Unit × RemoteRuleSet × Option Bytes :=
  match s.prepare L env.validateRuleSetMetadataUpdate file initial with
  | (s, false) => (.ok (), s, file)
  | (s, true) =>
    match s.fetch L env file with
    | (.error err, s, file) => (.error ("initial rule-set: " ++ s.set.tag ++ ": " ++ err), s, file)
    | fetched => fetched

end RemoteRuleSet

/-! ## Runs -/

/-- The copy in the cache file, and the set while the box runs. -/
structure RemoteHost where
  file : Option Bytes := none
  remote : Option RemoteRuleSet := none

inductive RemoteAction
  /-- `NewRemoteRuleSet` and `StartContext`. -/
  | start (tag : String) (urlHash : Sum256) (cacheFile : Bool)
      (initial : Option (Except String Bytes)) (env : FetchEnv)
  | updateOnce (env : FetchEnv)
  | incRef
  | decRef
  | cleanup
  | close

/-- One step of the box; without a set it stays down. -/
def RemoteHost.step (L : Loader) : Machine RemoteHost RemoteAction
  | h, .start tag urlHash cacheFile initial env =>
    if h.remote.isNone then
      match RemoteRuleSet.startContext L env { set := { tag, rules := [] }, urlHash, cacheFile }
        h.file initial with
      | (.ok _, s, file) => some { file, remote := some s }
      | (.error _, _, file) => some { file }
    else none
  | h, .updateOnce env => h.remote.map fun s =>
    { file := (s.updateOnce L env h.file).2, remote := some (s.updateOnce L env h.file).1 }
  | h, .incRef => h.remote.map fun s => { h with remote := some { s with refs := s.refs + 1 } }
  -- a negative count is a panic
  | h, .decRef => h.remote.bind fun s =>
    if s.refs = 0 then none else some { h with remote := some { s with refs := s.refs - 1 } }
  | h, .cleanup => h.remote.map fun s => { h with remote := some s.cleanup }
  | h, .close => h.remote.map fun _ => { file := h.file }

end SingBox.Route
