import SingBox.Srs.Items

/-! Libraries that keep what they are given as it is: the assumptions on libraries can be met. -/

namespace SingBox.Srs
open Lib Codec Netip Decoder Nat Option

section Range

/-- An address of the same length as another one, with this value. -/
def withVal : Addr → Nat → Addr
  | .v4 _, n => .v4 (BitVec.ofNat 32 n)
  | .v6 _ _, n => .v6 (BitVec.ofNat 128 n) []

variable (a : Addr)

lemma withVal_withoutZone (n : Nat) : (withVal a n).withoutZone = withVal a n := by
  cases a <;> rfl

lemma bitLen_withVal (n : Nat) : (withVal a n).bitLen = a.bitLen := by
  cases a <;> rfl

lemma val_withVal {a : Addr} {n : Nat} (h : n < 2 ^ a.bitLen) : (withVal a n).val = n := by
  cases a with
  | v4 bits => exact (BitVec.toNat_ofNat n 32).trans (mod_eq_of_lt h)
  | v6 bits zone => exact (BitVec.toNat_ofNat n 128).trans (mod_eq_of_lt h)

lemma val_lt : a.val < 2 ^ a.bitLen := by
  cases a with
  | v4 bits | v6 bits zone => exact bits.isLt

lemma val_withoutZone : a.withoutZone.val = a.val := by
  cases a <;> rfl

/-- Addresses without a zone are told apart by length and value. -/
theorem eq_of_val {a b : Addr} (ha : a.zone = []) (hb : b.zone = []) (hlen : a.bitLen = b.bitLen)
    (hval : a.val = b.val) : a = b := by
  cases a with
  | v4 bits =>
    cases b with
    | v4 bits' => rw [BitVec.eq_of_toNat_eq hval]
    | v6 bits' zone => exact absurd hlen (show (32 : Nat) ≠ 128 by decide)
  | v6 bits zone =>
    cases b with
    | v4 bits' => exact absurd hlen (show (128 : Nat) ≠ 32 by decide)
    | v6 bits' zone' =>
      cases ha
      cases hb
      rw [BitVec.eq_of_toNat_eq hval]

/-- The first and the last address of a prefix. -/
def Added.range : Added → Option IPRange
  | .cidr p => p.bits.map fun b =>
    let size := 2 ^ (p.addr.bitLen - b)
    let first := p.addr.val / size * size
    { fromAddr := withVal p.addr first, toAddr := withVal p.addr (first + (size - 1)) }
  | .addr a => some { fromAddr := a.withoutZone, toAddr := a.withoutZone }

def IPRange.contains (rr : IPRange) (a : Addr) : Bool :=
  a.zone = [] && a.bitLen = rr.fromAddr.bitLen && rr.fromAddr.val ≤ a.val && a.val ≤ rr.toAddr.val

lemma last_lt {w b n : Nat} (hb : b ≤ w) (hn : n < 2 ^ w) :
    n / 2 ^ (w - b) * 2 ^ (w - b) + (2 ^ (w - b) - 1) < 2 ^ w := by
  have hsplit : 2 ^ b * 2 ^ (w - b) = 2 ^ w := by rw [← Nat.pow_add, Nat.add_sub_cancel' hb]
  have hpos : 0 < 2 ^ (w - b) := Nat.two_pow_pos _
  have hquot : n / 2 ^ (w - b) < 2 ^ b := by
    rwa [div_lt_iff_lt_mul hpos, hsplit]
  have hle : (n / 2 ^ (w - b) + 1) * 2 ^ (w - b) ≤ 2 ^ b * 2 ^ (w - b) := mul_le_mul_right _ hquot
  rw [Nat.add_mul, hsplit] at hle
  omega

lemma div_eq_iff_between {size m n : Nat} (hpos : 0 < size) :
    m / size = n / size ↔ n / size * size ≤ m ∧ m ≤ n / size * size + (size - 1) := by
  rw [Nat.div_eq_iff hpos]
  omega

/-- The range of what was added has its addresses. -/
theorem contains_range (added : Added) (a : Addr) :
    added.range.any (·.contains a) = added.covers a := by
  cases added with
  | addr b =>
    rw [Bool.eq_iff_iff]
    simp only [Added.range, any_some, IPRange.contains, Added.covers, Bool.and_eq_true,
      decide_eq_true_eq, Addr.bitLen_withoutZone, val_withoutZone]
    constructor
    · rintro ⟨⟨⟨hzone, hlen⟩, hge⟩, hle⟩
      refine ⟨hzone, eq_of_val (by cases b <;> rfl) hzone ?_ ?_⟩
      · rw [Addr.bitLen_withoutZone, hlen]
      · rw [val_withoutZone]
        omega
    · rintro ⟨hzone, rfl⟩
      rw [Addr.bitLen_withoutZone, val_withoutZone]
      exact ⟨⟨⟨hzone, rfl⟩, le_refl _⟩, le_refl _⟩
  | cidr p =>
    cases hbits : p.bits with
    | none => simp [Added.range, Added.covers, Prefix.contains, hbits]
    | some b =>
      have hfits := p.fits b hbits
      have hlast := last_lt hfits (val_lt p.addr)
      have hpos : 0 < 2 ^ (p.addr.bitLen - b) := Nat.two_pow_pos _
      rw [Bool.eq_iff_iff]
      simp only [Added.range, hbits, map_some, any_some, IPRange.contains, Added.covers,
        Prefix.contains, Bool.and_eq_true, decide_eq_true_eq, bitLen_withVal,
        val_withVal hlast, val_withVal (lt_of_le_of_lt (le_add_right _ _) hlast),
        div_eq_iff_between hpos]
      rw [and_assoc, and_assoc]

end Range

section Strings

def putStrings (value : List Bytes) : Bytes := putUvarint value.length ++ value.flatMap putField

def readStrings : Decoder (List Bytes) := do
  let length ← ofReader Codec.readGroups
  times length fun _ => ofReader readField

lemma reads_putStrings (value : List Bytes) : Reads readStrings (putStrings value) value := by
  apply Reads.bind (Reads.ofReader (readGroups_putUvarint value.length))
  exact Reads.times fun s _ _ => Reads.ofReader (readField_putField s)

end Strings

/-- Domains and suffixes are matched one by one, and nothing is compressed. -/
def plainLibraries : Libraries where
  Matcher := List Bytes × List Bytes
  AdGuardMatcher := List Bytes
  newMatcher domain suffix _ := (domain, suffix)
  matchDomain matcher name := matcher.1.contains name ||
    matcher.2.any fun suffix => name = suffix || (46 :: suffix).isSuffixOf name
  dumpMatcher matcher := matcher
  writeMatcher matcher := putStrings matcher.1 ++ putStrings matcher.2
  readMatcher := do
    let domain ← readStrings
    let suffix ← readStrings
    return (domain, suffix)
  newAdGuardMatcher rules := rules
  matchAdGuard rules name := rules.contains name
  dumpAdGuardMatcher rules := rules
  writeAdGuardMatcher := putStrings
  readAdGuardMatcher := readStrings
  ipSet added := added.filterMap Added.range
  contains set a := set.any (·.contains a)
  prefixes set := set.map fun rr => prefixFrom rr.fromAddr rr.fromAddr.bitLen
  addrFromIP bytes := (Addr.fromSlice bytes).getD (.v4 0)
  readSlice8 := ofReader readField
  readSlice16 := do
    let length ← ofReader Codec.readGroups
    times length fun _ => do return UInt16.ofNat (← readBigEndian 2)
  compress content := content
  decompress content := .ok content

lemma plainLibraries_lawful : plainLibraries.Lawful where
  readMatcher matcher := (reads_putStrings matcher.1).bind ((reads_putStrings matcher.2).map rfl)
  legacy _ _ := rfl
  readAdGuardMatcher := reads_putStrings
  contains added a := by
    change (added.filterMap Added.range).any (·.contains a) = _
    rw [List.any_filterMap]
    congr
    funext item
    rw [← contains_range item a]
    cases item.range <;> rfl
  plain added rr hrr := by
    obtain ⟨item, -, hrange⟩ := List.mem_filterMap.mp hrr
    cases item with
    | addr a =>
      cases hrange
      exact ⟨a.withoutZone_withoutZone, a.withoutZone_withoutZone⟩
    | cidr p =>
      obtain ⟨b, -, rfl⟩ := map_eq_some_iff.mp hrange
      exact ⟨withVal_withoutZone _ _, withVal_withoutZone _ _⟩
  length added := List.length_filterMap_le _ _
  addrFromIP bytes a h := by
    change (Addr.fromSlice bytes).getD (.v4 0) = a
    rw [h]
    rfl
  readSlice8 bytes _ := Reads.ofReader (readField_putField bytes)
  readSlice16 value _ := by
    apply Reads.bind (Reads.ofReader (readGroups_putUvarint value.length))
    apply Reads.times
    intro n _ _
    exact Reads.map (Reads.bigEndian n.toNat_lt) UInt16.ofNat_toNat
  decompress _ := rfl

end SingBox.Srs
