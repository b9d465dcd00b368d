import Mathlib.Algebra.Group.Nat.Defs
import Mathlib.Data.List.Basic

/-! Writing numbers and byte strings one after another, and reading them back. A reader
takes what it needs from the front and leaves the rest. -/

namespace SingBox.Lib
open Option List Nat UInt8

abbrev Bytes := List UInt8

instance : LawfulBEq Bytes := inferInstance

lemma bind_eq_ok {ε α β : Type} {x : Except ε α} {f : α → Except ε β} {b : β}
    (h : x >>= f = .ok b) : ∃ a, x = .ok a ∧ f a = .ok b := by
  cases x with
  | error err => cases h
  | ok a => exact ⟨a, rfl, h⟩

namespace Codec

/-- A number in groups of seven bits, the lowest first; every byte but the last has its
highest bit set. The first argument bounds the number of bytes. -/
def putUvarintWithin : Nat → Nat → Bytes
  | 0, n => [ofNat n]
  | fuel + 1, n =>
    if n < 128 then [ofNat n]
    else ofNat (n % 128 + 128) :: putUvarintWithin fuel (n / 128)

def putUvarint (n : Nat) : Bytes := putUvarintWithin n n

/-- As many groups as there are. -/
def readGroups : Bytes → Option (Nat × Bytes)
  | [] => none
  | b :: rest =>
    if b.toNat < 128 then some (b.toNat, rest)
    else (readGroups rest).map fun read => (b.toNat - 128 + 128 * read.1, read.2)

/-- The lowest bytes of a number, the highest of them first. -/
def putBigEndian : Nat → Nat → Bytes
  | 0, _ => []
  | width + 1, n => putBigEndian width (n / 256) ++ [ofNat (n % 256)]

variable (bytes : Bytes)

def ofBigEndian : Nat := bytes.foldl (fun n b => n * 256 + b.toNat) 0

/-- That many bytes, if there are. -/
def readBytes (n : Nat) (bytes : Bytes) : Option (Bytes × Bytes) :=
  if bytes.length < n then none else some (bytes.take n, bytes.drop n)

def putField : Bytes := putUvarint bytes.length ++ bytes

def readField : Option (Bytes × Bytes) :=
  (readGroups bytes).bind fun read => readBytes read.1 read.2

lemma readGroups_putUvarintWithin {fuel n : Nat} (h : n ≤ fuel) (rest : Bytes) :
    readGroups (putUvarintWithin fuel n ++ rest) = some (n, rest) := by
  have hsmall {n} (hn : n < 128) : readGroups ([ofNat n] ++ rest) = some (n, rest) := by
    have hnat : (ofNat n).toNat = n := toNat_ofNat_of_lt' (Nat.lt_trans hn (by decide))
    rw [singleton_append, readGroups, hnat, if_pos hn]
  induction fuel generalizing n with
  | zero => exact hsmall (by omega)
  | succ fuel ih =>
    unfold putUvarintWithin
    split
    · exact hsmall ‹_›
    · have hnat : (ofNat (n % 128 + 128)).toNat = n % 128 + 128 :=
        toNat_ofNat_of_lt' (by
          have := mod_lt n (show 128 > 0 by decide)
          change _ < 256
          omega)
      rw [cons_append, readGroups, hnat, if_neg (by omega), ih (by omega), map_some,
        Nat.add_sub_cancel, Nat.mod_add_div]

@[simp] lemma readGroups_putUvarint (n : Nat) (rest : Bytes) :
    readGroups (putUvarint n ++ rest) = some (n, rest) :=
  readGroups_putUvarintWithin (Nat.le_refl n) rest

@[simp] lemma readBytes_append (bytes rest : Bytes) :
    readBytes bytes.length (bytes ++ rest) = some (bytes, rest) := by
  rw [readBytes, if_neg (by simp), take_left, drop_left]

/-- The bytes between two places, put together from what is before, between and after. -/
theorem extract_append_append (before bytes rest : Bytes) {i j : Nat} (hi : before.length = i)
    (hj : i + bytes.length = j) : (before ++ bytes ++ rest).extract i j = bytes := by
  rw [extract_eq_take_drop, append_assoc, ← hi, drop_left, hi, ← hj,
    Nat.add_sub_cancel_left, take_left]

@[simp] lemma readField_putField (bytes rest : Bytes) :
    readField (putField bytes ++ rest) = some (bytes, rest) := by
  rw [readField, putField, append_assoc, readGroups_putUvarint, bind_some, readBytes_append]

@[simp] lemma length_putBigEndian (width n : Nat) : (putBigEndian width n).length = width := by
  induction width generalizing n with
  | zero => rfl
  | succ width ih => rw [putBigEndian, length_append, ih, length_singleton]

lemma ofBigEndian_append_singleton (b : UInt8) :
    ofBigEndian (bytes ++ [b]) = ofBigEndian bytes * 256 + b.toNat := by
  simp [ofBigEndian]

/-- What does not fit into the bytes is lost. -/
theorem ofBigEndian_putBigEndian_mod (width n : Nat) :
    ofBigEndian (putBigEndian width n) = n % 256 ^ width := by
  induction width generalizing n with
  | zero => rw [Nat.pow_zero, Nat.mod_one]; rfl
  | succ width ih =>
    have hnat : (ofNat (n % 256)).toNat = n % 256 := toNat_ofNat_of_lt' (mod_lt n (by decide))
    rw [putBigEndian, ofBigEndian_append_singleton, ih, hnat, pow_succ', mod_mul,
      Nat.add_comm, Nat.mul_comm]

lemma ofBigEndian_putBigEndian {width n : Nat} (h : n < 256 ^ width) :
    ofBigEndian (putBigEndian width n) = n := by
  rw [ofBigEndian_putBigEndian_mod, mod_eq_of_lt h]

end Codec

end SingBox.Lib
