import SingBox.Dns.CacheFile
import SingBox.Dns.FakeIp
import SingBox.Lib.Codec

/-! The metadata of the fake IP store in the cache file. A record that ends where the length of an
element should stand makes `UnmarshalBinary` panic, and then the file is made anew. -/

namespace SingBox.Dns
open Lib Codec List Function

/-- An error that is returned, or a panic. -/
inductive Failure
  | error (text : String)
  | panicked

namespace Addr

/-- `netip.Addr.MarshalBinary`, for addresses without a zone. -/
def marshalBinary : Addr → Bytes
  | .invalid => []
  | .v4 bits => putBigEndian 4 bits.toNat
  | .v6 bits => putBigEndian 16 bits.toNat

def sized (length : Nat) : Bool := length = 0 || length = 4 || 16 ≤ length

/-- `netip.Addr.UnmarshalBinary`; a zone is left out. -/
def unmarshalBinary (b : Bytes) : Except Failure Addr :=
  if b.length = 0 then .ok .invalid
  else if b.length = 4 then .ok (.v4 (BitVec.ofNat 32 (ofBigEndian b)))
  else if 16 ≤ b.length then .ok (.v6 (BitVec.ofNat 128 (ofBigEndian (b.take 16))))
  else .error (.error "unexpected slice size")

end Addr

namespace Prefix

def marshalBinary (p : Prefix) : Bytes := p.addr.marshalBinary ++ [UInt8.ofNat p.bits]

def sized (length : Nat) : Bool := length ≠ 0 && Addr.sized (length - 1)

def unmarshalBinary (b : Bytes) : Except Failure Prefix :=
  match b.getLast? with
  | none => .error (.error "unexpected slice size")
  | some bits => (Addr.unmarshalBinary b.dropLast).map fun addr => prefixFrom addr bits.toNat

end Prefix

namespace FakeIp

/-- An element of the record, after its length. -/
def putElement (bytes : Bytes) : Bytes := putBigEndian 2 bytes.length ++ bytes

def Metadata.marshalBinary (m : Metadata) : Bytes :=
  putElement m.inet4Range.marshalBinary ++ (putElement m.inet6Range.marshalBinary ++
    (putElement m.inet4Current.marshalBinary ++ (putElement m.inet6Current.marshalBinary ++ [])))

abbrev Field := Metadata → Bytes → Except Failure Metadata

/-- The loop of `UnmarshalBinary` over what is left of the fields. -/
def unmarshalFields : List Field → Metadata → Bytes → Except Failure Metadata
  | [], m, _ => .ok m
  | unmarshal :: fields, m, data =>
    match readBytes 2 data with
    | none => .error .panicked
    | some (length, rest) =>
      match readBytes (ofBigEndian length) rest with
      | none => .error (.error (if rest = [] then "EOF" else "unexpected EOF"))
      | some (element, rest) => (unmarshal m element).bind fun m => unmarshalFields fields m rest

def Metadata.fields : List Field :=
  [fun m b => (Prefix.unmarshalBinary b).map ({ m with inet4Range := · }),
    fun m b => (Prefix.unmarshalBinary b).map ({ m with inet6Range := · }),
    fun m b => (Addr.unmarshalBinary b).map ({ m with inet4Current := · }),
    fun m b => (Addr.unmarshalBinary b).map ({ m with inet6Current := · })]

def Metadata.unmarshalBinary (data : Bytes) : Except Failure Metadata :=
  unmarshalFields fields ⟨⟨.invalid, 255⟩, ⟨.invalid, 255⟩, .invalid, .invalid⟩ data

abbrev Bucket := String → Option Bytes

abbrev Database := String → Option Bucket

def bucketFakeIP : String := "fakeip_address"
def keyMetadata : String := "fakeip_metadata"

/-- `CacheFile.FakeIPMetadata`. A transaction that fails is rolled back; after a panic `resetDB`
removes the file. -/
def fakeIPMetadata (db : Database) : Option Metadata × Database :=
  match db bucketFakeIP with
  | none => (none, db)
  | some bucket =>
    match bucket keyMetadata with
    | none | some [] => (none, db)
    | some data =>
      match Metadata.unmarshalBinary data with
      | .ok m => (some m, update db bucketFakeIP (some (update bucket keyMetadata none)))
      | .error (.error _) => (none, db)
      | .error .panicked => (none, fun _ => none)

/-- The record does not end before or within the length of an element that is reached: those before
it are there and have the sizes of their kind. -/
def Whole : List (Nat → Bool) → Bytes → Prop
  | [], _ => True
  | sized :: sizes, data => 2 ≤ data.length ∧
    let length := ofBigEndian (data.take 2)
    (length ≤ data.length - 2 → sized length = true → Whole sizes ((data.drop 2).drop length))

def Metadata.sizes : List (Nat → Bool) := [Prefix.sized, Prefix.sized, Addr.sized, Addr.sized]

/-- A value is read without a panic, and just from bytes of the sizes of its kind. -/
def Sized {α : Type} (unmarshal : Bytes → Except Failure α) (sized : Nat → Bool) : Prop :=
  ∀ b, unmarshal b ≠ .error .panicked ∧ ((∃ a, unmarshal b = .ok a) ↔ sized b.length = true)

lemma sized_addr : Sized Addr.unmarshalBinary Addr.sized := by
  intro b
  unfold Addr.unmarshalBinary Addr.sized
  repeat' split
  all_goals simp [*]

lemma Sized.map {α β : Type} {unmarshal : Bytes → Except Failure α} {sized : Nat → Bool}
    (h : Sized unmarshal sized) (f : α → β) : Sized (fun b => (unmarshal b).map f) sized := by
  intro b
  obtain ⟨hpanic, hok⟩ := h b
  cases hb : unmarshal b <;> simp_all [Except.map]

lemma sized_prefix : Sized Prefix.unmarshalBinary Prefix.sized := by
  intro b
  obtain rfl | ⟨b, bits, rfl⟩ := eq_nil_or_concat' b
  · simp [Prefix.unmarshalBinary, Prefix.sized]
  · simpa [Prefix.unmarshalBinary, Prefix.sized] using
      (sized_addr.map fun addr => prefixFrom addr bits.toNat) b

variable {fields : List Field}

/-- The loop panics just if the record is not whole. -/
theorem unmarshalFields_iff {sizes : List (Nat → Bool)}
    (h : List.Forall₂ (fun f sized => ∀ m, Sized (f m) sized) fields sizes) (m : Metadata)
    (data : Bytes) :
    unmarshalFields fields m data ≠ .error .panicked ↔ Whole sizes data := by
  induction h generalizing m data with
  | nil => simp [unmarshalFields, Whole]
  | @cons f sized fields sizes hf _ ih =>
    unfold unmarshalFields Whole
    by_cases hshort : data.length < 2
    · simp [readBytes, hshort]
    · have hread : readBytes 2 data = some (data.take 2, data.drop 2) := if_neg hshort
      simp only [hread, Nat.not_lt.mp hshort, true_and]
      by_cases hcut : (data.drop 2).length < ofBigEndian (data.take 2)
      · have hless : ¬ ofBigEndian (data.take 2) ≤ data.length - 2 := by simpa using hcut
        simp only [readBytes, if_pos hcut]
        simp [hless]
      · have hlen : ofBigEndian (data.take 2) ≤ data.length - 2 := by simpa using hcut
        obtain ⟨hpanic, hok⟩ := hf m ((data.drop 2).take (ofBigEndian (data.take 2)))
        rw [length_take_of_le (Nat.not_lt.mp hcut)] at hok
        simp only [readBytes, if_neg hcut, hlen, true_imp_iff, ← hok]
        cases hres : f m ((data.drop 2).take (ofBigEndian (data.take 2))) with
        | error e => simpa [Except.bind, hres] using hpanic
        | ok m' => simpa [Except.bind] using ih m' _

lemma unmarshalBinary_iff (data : Bytes) :
    Metadata.unmarshalBinary data ≠ .error .panicked ↔ Whole Metadata.sizes data :=
  unmarshalFields_iff (.cons (fun _ => sized_prefix.map _) (.cons (fun _ => sized_prefix.map _)
    (.cons (fun _ => sized_addr.map _) (.cons (fun _ => sized_addr.map _) .nil)))) _ data

lemma unmarshalFields_putElement {unmarshal : Field} (m : Metadata)
    {bytes rest : Bytes} (h : bytes.length < 256 ^ 2) :
    unmarshalFields (unmarshal :: fields) m (putElement bytes ++ rest) =
      (unmarshal m bytes).bind fun m => unmarshalFields fields m rest := by
  have hlen := readBytes_append (putBigEndian 2 bytes.length) (bytes ++ rest)
  rw [length_putBigEndian] at hlen
  simp [unmarshalFields, putElement, hlen, ofBigEndian_putBigEndian h]

lemma unmarshalBinary_addr (a : Addr) :
    Addr.unmarshalBinary a.marshalBinary = .ok a ∧ a.marshalBinary.length ≤ 16 := by
  cases a with
  | invalid => exact ⟨rfl, by decide⟩
  | v4 bits =>
    have hbits : ofBigEndian (putBigEndian 4 bits.toNat) = bits.toNat :=
      ofBigEndian_putBigEndian bits.isLt
    simp [Addr.unmarshalBinary, Addr.marshalBinary, hbits]
  | v6 bits =>
    have hbits : ofBigEndian (putBigEndian 16 bits.toNat) = bits.toNat :=
      ofBigEndian_putBigEndian bits.isLt
    have htake : (putBigEndian 16 bits.toNat).take 16 = _ := take_of_length_le (by simp)
    simp [Addr.unmarshalBinary, Addr.marshalBinary, hbits, htake]

lemma unmarshalBinary_prefix {p : Prefix} (h : p.isValid) :
    Prefix.unmarshalBinary p.marshalBinary = .ok p ∧ p.marshalBinary.length ≤ 17 := by
  obtain ⟨haddr, hlen⟩ := unmarshalBinary_addr p.addr
  obtain ⟨-, hbits⟩ : _ ∧ p.bits ≤ p.addr.bitLen := by simpa [Prefix.isValid] using h
  have hlt : p.bits < 256 := by
    cases ha : p.addr <;> simp [ha, Addr.bitLen] at hbits <;> omega
  constructor
  · unfold Prefix.unmarshalBinary Prefix.marshalBinary
    simp only [getLast?_concat, dropLast_concat, haddr, Except.map, prefixFrom,
      UInt8.toNat_ofNat_of_lt' hlt, if_pos hbits]
  · rw [Prefix.marshalBinary, length_append, length_singleton]
    omega

/-- What was written is read back. Reading does not panic, and loading the metadata leaves the other
buckets as they were, just if the record is whole. -/
theorem metadata_safe_iff (p4 p6 : { p : Prefix // p.isValid = true }) (a4 a6 : Addr)
    (db : Database) (bucket : Bucket) (data : Bytes) :
    Metadata.unmarshalBinary (Metadata.marshalBinary ⟨p4, p6, a4, a6⟩) = .ok ⟨p4, p6, a4, a6⟩ ∧
    ((Metadata.unmarshalBinary data ≠ .error .panicked ∧ ∀ name, name ≠ bucketFakeIP →
        (fakeIPMetadata (update db bucketFakeIP
          (some (update bucket keyMetadata (some data))))).2 name = db name) ↔
      Whole Metadata.sizes data) := by
  constructor
  · obtain ⟨h4, hlen4⟩ := unmarshalBinary_prefix p4.2
    obtain ⟨h6, hlen6⟩ := unmarshalBinary_prefix p6.2
    obtain ⟨hc4, hlenc4⟩ := unmarshalBinary_addr a4
    obtain ⟨hc6, hlenc6⟩ := unmarshalBinary_addr a6
    simp only [Metadata.unmarshalBinary, Metadata.marshalBinary, Metadata.fields]
    rw [unmarshalFields_putElement _ (by omega), h4]
    simp only [Except.map, Except.bind]
    rw [unmarshalFields_putElement _ (by omega), h6]
    simp only [Except.bind]
    rw [unmarshalFields_putElement _ (by omega), hc4]
    simp only [Except.bind]
    rw [unmarshalFields_putElement _ (by omega), hc6]
    rfl
  · rw [← unmarshalBinary_iff, and_iff_left_iff_imp]
    intro hpanic name hname
    unfold fakeIPMetadata
    simp only [update_self]
    split
    · exact update_of_ne hname _ _
    · exact update_of_ne hname _ _
    · split
      · simp [hname]
      · exact update_of_ne hname _ _
      · simp_all

/-- A record of one byte costs all that the file holds. -/
theorem metadata_one_byte : Metadata.unmarshalBinary [0] = .error .panicked ∧
    (fakeIPMetadata fun _ => some fun _ => some [0]).2 "selected" = none :=
  ⟨rfl, rfl⟩

end FakeIp

end SingBox.Dns
