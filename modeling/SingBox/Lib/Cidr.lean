import SingBox.Lib.Netip

/-! Address prefixes: their text, and which addresses they stand for. -/

namespace SingBox.Lib.Netip
open Codec BitVec

namespace Addr

def zone : Addr → Bytes
  | .v4 _ => []
  | .v6 _ zone => zone

def bitLen : Addr → Nat
  | .v4 _ => 32
  | .v6 _ _ => 128

def val : Addr → Nat
  | .v4 bits => bits.toNat
  | .v6 bits _ => bits.toNat

def asSlice : Addr → Bytes
  | .v4 bits => putBigEndian 4 bits.toNat
  | .v6 bits _ => putBigEndian 16 bits.toNat

/-- The address with these bytes, if there are four or sixteen of them. -/
def fromSlice (bytes : Bytes) : Option Addr :=
  if bytes.length = 4 then some (.v4 (BitVec.ofNat 32 (ofBigEndian bytes)))
  else if bytes.length = 16 then some (.v6 (BitVec.ofNat 128 (ofBigEndian bytes)) [])
  else none

variable (a : Addr)

@[simp] lemma withoutZone_withoutZone : a.withoutZone.withoutZone = a.withoutZone := by
  cases a <;> rfl

@[simp] lemma bitLen_withoutZone : a.withoutZone.bitLen = a.bitLen := by
  cases a <;> rfl

lemma bitLen_le : a.bitLen ≤ 128 := by
  cases a with
  | v4 bits => exact (show 32 ≤ 128 by decide)
  | v6 bits zone => exact Nat.le_refl 128

lemma length_asSlice : a.asSlice.length = 4 ∨ a.asSlice.length = 16 := by
  cases a with
  | v4 bits => exact .inl (length_putBigEndian 4 _)
  | v6 bits zone => exact .inr (length_putBigEndian 16 _)

lemma fromSlice_asSlice : fromSlice a.asSlice = some a.withoutZone := by
  cases a with
  | v4 bits =>
    have hlen := length_putBigEndian 4 bits.toNat
    have hlt : bits.toNat < 256 ^ 4 := bits.isLt
    have hval := ofBigEndian_putBigEndian hlt
    change fromSlice (putBigEndian 4 bits.toNat) = _
    rw [fromSlice, if_pos hlen, hval, ofNat_toNat, setWidth_eq]
    rfl
  | v6 bits zone =>
    have hlen := length_putBigEndian 16 bits.toNat
    have hlt : bits.toNat < 256 ^ 16 := bits.isLt
    have hval := ofBigEndian_putBigEndian hlt
    change fromSlice (putBigEndian 16 bits.toNat) = _
    rw [fromSlice, if_neg (by omega), if_pos hlen, hval, ofNat_toNat, setWidth_eq]
    rfl

end Addr

/-- `netip.Prefix` with an address, which has no zone; a length that does not fit it is none. -/
structure Prefix where
  addr : Addr
  bits : Option Nat
  plain : addr.withoutZone = addr
  fits : ∀ b, bits = some b → b ≤ addr.bitLen
  deriving DecidableEq

def prefixFrom (addr : Addr) (bits : Nat) : Prefix where
  addr := addr.withoutZone
  bits := if bits ≤ addr.bitLen then some bits else none
  plain := addr.withoutZone_withoutZone
  fits := by
    intro b h
    split at h
    · cases h
      rwa [Addr.bitLen_withoutZone]
    · cases h

lemma Prefix.eq_of {p q : Prefix} (haddr : p.addr = q.addr) (hbits : p.bits = q.bits) : p = q := by
  cases p
  cases q
  cases haddr
  cases hbits
  rfl

lemma prefixFrom_addr {p : Prefix} {bits : Nat}
    (h : (if bits ≤ p.addr.bitLen then some bits else none) = p.bits) :
    prefixFrom p.addr bits = p :=
  Prefix.eq_of p.plain h

/-- Whether an address is one of those of the prefix; an address with a zone is of none. -/
def Prefix.contains (p : Prefix) (a : Addr) : Bool :=
  match p.bits with
  | none => false
  | some b =>
    let size := 2 ^ (p.addr.bitLen - b)
    a.zone = [] && a.bitLen = p.addr.bitLen && a.val / size = p.addr.val / size

def slash : UInt8 := 47

/-- `netip.Prefix.String`. -/
def Prefix.text (p : Prefix) : Bytes :=
  match p.bits with
  | none => "invalid Prefix".toUTF8.toList
  | some b => p.addr.text ++ slash :: numeral 10 3 b

/-- The length behind the slash: digits only, and no leading zero. -/
def parseBits (s : Bytes) : Option Nat :=
  if s = [] ∨ (s.length > 1 ∧ s.head? = some (digitByte 0)) then none
  else (s.mapM decDigit).map fun digits => digits.foldl (fun n d => n * 10 + d) 0

/-- `netip.ParsePrefix`: an address without a zone, the last slash and a length. -/
def parsePrefix (s : Bytes) : Option Prefix :=
  let bitsText := (s.reverse.takeWhile (· ≠ slash)).reverse
  if bitsText.length = s.length then none
  else
    match parseAddr (s.take (s.length - bitsText.length - 1)) with
    | none => none
    | some addr =>
      if addr.zone ≠ [] then none
      else
        match parseBits bitsText with
        | none => none
        | some bits => if bits ≤ addr.bitLen then some (prefixFrom addr bits) else none

end SingBox.Lib.Netip
