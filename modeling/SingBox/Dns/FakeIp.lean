import SingBox.Dns.Message
import SingBox.Lib.Machine

/-! The fake IP store: addresses are handed out in turn from a range, kept with the domain
that they stand for in memory or in the cache file, and handed out again once the range is
used up. -/

namespace SingBox.Dns
open Function

/-! ## Addresses and ranges -/

namespace Addr

def is4 : Addr → Bool
  | .v4 _ => true
  | _ => false

def val : Addr → Nat
  | .invalid => 0
  | .v4 bits => bits.toNat
  | .v6 bits => bits.toNat

/-- `Addr.Next`: the address after the last one is the invalid one. -/
def next : Addr → Addr
  | .invalid => .invalid
  | .v4 bits => if bits = BitVec.allOnes 32 then .invalid else .v4 (bits + 1)
  | .v6 bits => if bits = BitVec.allOnes 128 then .invalid else .v6 (bits + 1)

def as16 : Addr → BitVec 128
  | .invalid => 0
  | .v4 bits => 0xffff#96 ++ bits
  | .v6 bits => bits

end Addr

def Prefix.contains (p : Prefix) (a : Addr) : Bool :=
  p.isValid && match p.addr, a with
    | .v4 x, .v4 y => x >>> (32 - p.bits) == y >>> (32 - p.bits)
    | .v6 x, .v6 y => x >>> (128 - p.bits) == y >>> (128 - p.bits)
    | _, _ => false

namespace FakeIp

/-- The loop of `broadcastAddress`, which sets the bits from this one on. -/
def setHostBits (raw : BitVec 128) (bits : Nat) : BitVec 128 :=
  (List.range' bits (128 - bits)).foldl (fun raw i => raw ||| (1#128 <<< (127 - i))) raw

def broadcastAddress (p : Prefix) : Addr :=
  if p.addr.is4 then .v4 ((setHostBits p.addr.as16 (p.bits + 96)).extractLsb' 0 32)
  else .v6 (setHostBits p.addr.as16 p.bits)

/-! ## The storage -/

/-- `FakeIPMetadata`. -/
structure Metadata where
  inet4Range : Prefix
  inet6Range : Prefix
  inet4Current : Addr
  inet6Current : Addr
  deriving DecidableEq

/-- The domain of an address, and the addresses of a domain: three maps of `MemoryStorage`,
or three buckets of the cache file. -/
structure Entries where
  address : Addr → Option String := fun _ => none
  domain4 : String → Option Addr := fun _ => none
  domain6 : String → Option Addr := fun _ => none

namespace Entries

variable (e : Entries)

def domain (isIPv6 : Bool) : String → Option Addr :=
  if isIPv6 then e.domain6 else e.domain4

def setDomain (isIPv6 : Bool) (d : String) (a : Option Addr) : Entries :=
  if isIPv6 then { e with domain6 := update e.domain6 d a }
  else { e with domain4 := update e.domain4 d a }

/-- `FakeIPStore`: the domain that had the address before loses it. -/
def store (a : Addr) (d : String) : Entries :=
  let cleared := match e.address a with
    | some old => e.setDomain (!a.is4) old none
    | none => e
  { cleared with address := update cleared.address a (some d) }.setDomain (!a.is4) d
    (some a)

end Entries

inductive Storage
  | memory
  | cacheFile
  deriving DecidableEq

def maxKeySize : Nat := 32768

variable (storage : Storage)

/-- Whether `FakeIPStore` has no error. The database takes no empty key and no long one, and
may fail to commit. -/
def Storage.takes (a : Addr) (d : String) (commits : Bool) : Bool :=
  match storage with
  | .memory => true
  | .cacheFile => a.isValid && d != "" && decide (d.utf8ByteSize ≤ maxKeySize) && commits

/-- `FakeIPLoad`. -/
def Storage.load (e : Entries) (a : Addr) : Option String :=
  match storage with
  | .memory => e.address a
  | .cacheFile => (e.address a).filter (· ≠ "")

/-- `FakeIPLoadDomain`. -/
def Storage.loadDomain (e : Entries) (d : String) (isIPv6 : Bool) : Option Addr :=
  match storage with
  | .memory => e.domain isIPv6 d
  | .cacheFile => (e.domain isIPv6 d).filter Addr.isValid

/-! ## The store -/

/-- The fields of `Store` for IPv4, or those for IPv6. -/
structure Inet where
  range : Prefix
  last : Addr
  current : Addr
  deriving DecidableEq

/-- The fields that `NewStore` sets. -/
def newInet (range : Prefix) : Inet where
  range := range
  last := if range.isValid then broadcastAddress range else .invalid
  current := .invalid

/-- The position at which `Start` begins. -/
def Inet.begin (i : Inet) : Inet :=
  if i.range.isValid then { i with current := i.range.addr.next } else i

def Inet.nextAddress (i : Inet) : Addr :=
  let next := i.current.next
  if next = i.last ∨ i.range.contains next = false then i.range.addr.next.next else next

structure Store where
  inet4 : Inet
  inet6 : Inet
  deriving DecidableEq

def newStore (inet4Range inet6Range : Prefix) : Store :=
  { inet4 := newInet inet4Range, inet6 := newInet inet6Range }

namespace Store

variable (s : Store)

def inet (isIPv6 : Bool) : Inet := if isIPv6 then s.inet6 else s.inet4

def setCurrent (isIPv6 : Bool) (a : Addr) : Store :=
  if isIPv6 then { s with inet6.current := a } else { s with inet4.current := a }

def metadata : Metadata where
  inet4Range := s.inet4.range
  inet6Range := s.inet6.range
  inet4Current := s.inet4.current
  inet6Current := s.inet6.current

/-- What `Start` makes of the metadata: the position is taken over if the ranges are the
same. -/
def resume (metadata : Option Metadata) : Option Store :=
  match metadata with
  | none => none
  | some m =>
    if m.inet4Range = s.inet4.range ∧ m.inet6Range = s.inet6.range then
      some { inet4 := { s.inet4 with current := m.inet4Current }
             inet6 := { s.inet6 with current := m.inet6Current } }
    else
      none

def begin (s : Store) : Store := { inet4 := s.inet4.begin, inet6 := s.inet6.begin }

end Store

/-- The storage, the metadata in the cache file, those that a timer is to write there, and
the store while it runs. -/
structure Host where
  entries : Entries := {}
  metadata : Option Metadata := none
  saveMetadata : Option Metadata := none
  store : Option Store := none

inductive Action
  /-- `NewStore` and `Start`. -/
  | start (inet4Range inet6Range : Prefix)
  /-- `Start` ends where it has read the metadata. -/
  | startInterrupted
  | create (domain : String) (isIPv6 : Bool) (commits : Bool)
  | reset
  /-- The timer of `FakeIPSaveMetadataAsync`. -/
  | timer
  | close
  | crash

namespace Host

variable (storage : Storage) (h : Host)

/-- `Start`. The metadata are taken out of the file; storage in memory is new. -/
def start (inet4Range inet6Range : Prefix) : Host :=
  let s := newStore inet4Range inet6Range
  match storage, s.resume h.metadata with
  | .cacheFile, some resumed => { entries := h.entries, store := some resumed }
  | _, _ => { store := some s.begin }

/-- `Create`: the address, if any, and what is then. -/
def create (s : Store) (domain : String) (isIPv6 commits : Bool) : Option Addr × Host :=
  match storage.loadDomain h.entries domain isIPv6 with
  | some address => (some address, h)
  | none =>
    let i := s.inet isIPv6
    if i.current.isValid then
      let address := i.nextAddress
      let s := s.setCurrent isIPv6 address
      -- an error of the storage is only logged
      let entries :=
        if storage.takes address domain commits then h.entries.store address domain
        else h.entries
      (some address, { h with
        entries
        saveMetadata := if storage = .cacheFile then some s.metadata else none
        store := some s })
    else
      (none, h)

/-- `FakeIPReset`: the metadata go with the bucket of the addresses. -/
def reset : Host := { h with entries := {}, metadata := none }

/-- `Store.Close`, with which the process ends. -/
def close (s : Store) : Host where
  entries := h.entries
  metadata := if storage = .cacheFile then some s.metadata else none

end Host

def step : Lib.Machine Host Action
  | h, .start inet4Range inet6Range =>
    if h.store.isNone then some (h.start storage inet4Range inet6Range) else none
  | h, .startInterrupted => if h.store.isNone then some { h with metadata := none } else none
  | h, .create domain isIPv6 commits =>
    h.store.map fun s => (h.create storage s domain isIPv6 commits).2
  | h, .reset => h.store.map fun _ => h.reset
  | h, .timer => h.saveMetadata.map fun m => { h with metadata := some m, saveMetadata := none }
  | h, .close => h.store.map (h.close storage)
  | h, .crash => h.store.map fun _ => { entries := h.entries, metadata := h.metadata }

end FakeIp

end SingBox.Dns
