import Mathlib.Data.Vector.Defs
import SingBox.Lib.Netip
import SingBox.Shuttle.Frame

/-! The first bytes of a connection: the hash of the password and padding of a random
length, each with a line end after it. -/

namespace SingBox.Shuttle
open Lib Option
open List hiding Vector

def cr : UInt8 := 13
def lf : UInt8 := 10
def crlf : Bytes := [cr, lf]

/-- `bytes.Index` for a line end. -/
def indexCRLF : Bytes → Option Nat
  | a :: b :: rest => if a = cr ∧ b = lf then some 0 else (indexCRLF (b :: rest)).map (· + 1)
  | _ => none

def hexString (bytes : Bytes) : Bytes :=
  bytes.flatMap fun b => [Netip.digitByte (b.toNat / 16), Netip.digitByte (b.toNat % 16)]

section

variable (sha256 : Bytes → Vector UInt8 32)

def passwordHashHex (password : Bytes) : Bytes := hexString (sha256 password).toList

/-- The padding of a preface: as many bytes as asked for, from a source of random bytes. -/
def padding (paddingLen : Nat) (random : Nat → UInt8) : Bytes := (range paddingLen).map random

def encodePreface (password : Bytes) (paddingLen : Int) (random : Nat → UInt8) :
    Except String Bytes :=
  if paddingLen < 0 ∨ paddingLen > maxPayloadLength then
    .error ("invalid padding length: " ++ toString paddingLen)
  else
    .ok (passwordHashHex sha256 password ++ crlf ++ padding paddingLen.toNat random ++ crlf)

end

/-- The loop of `DecodePreface`, which reads one byte at a time: the bytes so far and those
left to read. The first argument is how many more may be read. -/
def decodePrefaceLoop (maxPadding : Nat) : Nat → Bytes → Bytes → Except String (Bytes × Bytes) × Bytes
  | 0, _, conn => (.error "preface exceeds maximum length", conn)
  | _ + 1, _, [] => (.error "read preface: EOF", [])
  | fuel + 1, data, b :: conn =>
    let data := data ++ [b]
    if data.length ≥ 66 then
      match indexCRLF (data.drop 66) with
      | some index =>
        if data.getD 64 0 ≠ cr ∨ data.getD 65 0 ≠ lf then (.error "bad preface delimiter", conn)
        else if index > maxPadding then (.error "preface padding too large", conn)
        else (.ok (data.take 64, (data.drop 66).take index), conn)
      | none => decodePrefaceLoop maxPadding fuel data conn
    else decodePrefaceLoop maxPadding fuel data conn

/-- `DecodePreface`: the hash and the padding, and what is left to read. -/
def decodePreface (maxPadding : Int) (conn : Bytes) : Except String (Bytes × Bytes) × Bytes :=
  if maxPadding < 0 then (.error ("invalid max padding: " ++ toString maxPadding), conn)
  else decodePrefaceLoop maxPadding.toNat (64 + 2 + maxPadding.toNat + 2) [] conn

section Index

lemma indexCRLF_append {seen more : Bytes} (h : indexCRLF (seen ++ more) = none) :
    indexCRLF seen = none := by
  induction seen using indexCRLF.induct with
  | case1 a b rest hab => simp [indexCRLF, hab] at h
  | case2 a b rest hab ih =>
    rw [cons_append, cons_append, indexCRLF, if_neg hab, map_eq_none_iff] at h
    rw [indexCRLF, if_neg hab, ih h]
    rfl
  | case3 seen hshort =>
    unfold indexCRLF
    split
    · exact absurd rfl (hshort _ _ _)
    · rfl

lemma indexCRLF_cons_cons_eq_none {a b : UInt8} {rest : Bytes} :
    indexCRLF (a :: b :: rest) = none ↔ ¬ (a = cr ∧ b = lf) ∧ indexCRLF (b :: rest) = none := by
  rw [indexCRLF]
  by_cases hab : a = cr ∧ b = lf
  · simp [hab]
  · simp [hab]

variable {seen : Bytes}

lemma indexCRLF_append_crlf (h : indexCRLF (seen ++ [cr]) = none) :
    indexCRLF (seen ++ crlf) = some seen.length := by
  induction seen with
  | nil => rfl
  | cons a seen ih =>
    have hne : ∃ b rest, seen ++ [cr] = b :: rest := exists_cons_of_ne_nil (by simp)
    obtain ⟨b, rest, hseen⟩ := hne
    rw [cons_append, hseen, indexCRLF_cons_cons_eq_none, ← hseen] at h
    have hcons : seen ++ crlf = b :: (rest ++ [lf]) := by
      rw [← cons_append, ← hseen, append_assoc]
      rfl
    rw [cons_append, hcons, indexCRLF, if_neg h.1, ← hcons, ih h.2]
    rfl

lemma indexCRLF_append_cr (h : indexCRLF seen = none) : indexCRLF (seen ++ [cr]) = none := by
  induction seen with
  | nil => rfl
  | cons a seen ih =>
    cases seen with
    | nil =>
      rw [singleton_append, indexCRLF_cons_cons_eq_none]
      exact ⟨fun hab => absurd hab.2 (by decide), rfl⟩
    | cons b seen =>
      rw [indexCRLF_cons_cons_eq_none] at h
      rw [cons_append, cons_append, indexCRLF_cons_cons_eq_none]
      exact ⟨h.1, ih h.2⟩

lemma exists_first_crlf {bytes : Bytes} (h : indexCRLF bytes ≠ none) :
    ∃ before after, bytes = before ++ crlf ++ after ∧ indexCRLF (before ++ [cr]) = none := by
  induction bytes with
  | nil => exact absurd rfl h
  | cons a bytes ih =>
    cases bytes with
    | nil => exact absurd rfl h
    | cons b bytes =>
      by_cases hab : a = cr ∧ b = lf
      · obtain ⟨rfl, rfl⟩ := hab
        exact ⟨[], bytes, rfl, rfl⟩
      · have hrest : indexCRLF (b :: bytes) ≠ none :=
          fun hnone => h (indexCRLF_cons_cons_eq_none.mpr ⟨hab, hnone⟩)
        obtain ⟨before, after, heq, hfirst⟩ := ih hrest
        refine ⟨a :: before, after, by rw [heq]; rfl, ?_⟩
        cases before with
        | nil => exact indexCRLF_cons_cons_eq_none.mpr ⟨fun h => absurd h.2 (by decide), rfl⟩
        | cons b' before =>
          obtain rfl : b = b' := (cons.inj heq).1
          exact indexCRLF_cons_cons_eq_none.mpr ⟨hab, hfirst⟩

lemma indexCRLF_eq_none_iff (bytes : Bytes) :
    indexCRLF bytes = none ↔ ∀ i, ¬ (bytes[i]? = some cr ∧ bytes[i + 1]? = some lf) := by
  induction bytes with
  | nil => simp [indexCRLF]
  | cons a bytes ih =>
    cases bytes with
    | nil => simp [indexCRLF]
    | cons b bytes =>
      rw [indexCRLF_cons_cons_eq_none, ih]
      constructor
      · rintro ⟨hab, hrest⟩ i
        cases i with
        | zero => simpa using hab
        | succ i => simpa using hrest i
      · intro h
        exact ⟨by simpa using h 0, fun i => by simpa using h (i + 1)⟩

end Index

section Loop

variable {maxPadding : Nat}

/-- Bytes without a line end in what counts as padding are only collected. -/
theorem decodePrefaceLoop_append {data chunk : Bytes}
    (h : indexCRLF ((data ++ chunk).drop 66) = none) {fuel : Nat} (hfuel : chunk.length ≤ fuel)
    (conn : Bytes) : decodePrefaceLoop maxPadding fuel data (chunk ++ conn) =
      decodePrefaceLoop maxPadding (fuel - chunk.length) (data ++ chunk) conn := by
  induction chunk generalizing data fuel with
  | nil => simp
  | cons b chunk ih =>
    obtain ⟨fuel, rfl⟩ := Nat.exists_eq_add_one_of_ne_zero
      (show fuel ≠ 0 by simp at hfuel; omega)
    have hsplit : data ++ b :: chunk = data ++ [b] ++ chunk := by simp
    rw [hsplit] at h
    have hnone : (data ++ [b]).length ≥ 66 → indexCRLF ((data ++ [b]).drop 66) = none := by
      intro hlen
      rw [drop_append_of_le_length hlen] at h
      exact indexCRLF_append h
    have hstep : decodePrefaceLoop maxPadding (fuel + 1) data (b :: (chunk ++ conn)) =
        decodePrefaceLoop maxPadding fuel (data ++ [b]) (chunk ++ conn) := by
      rw [decodePrefaceLoop]
      split
      · rw [hnone ‹_›]
      · rfl
    rw [cons_append, hstep, ih h (by simpa using hfuel), hsplit, length_cons, Nat.add_sub_add_right]

end Loop

section Decode

variable {hash before : Bytes} {maxPadding : Int}

section
variable (hhash : hash.length = 64)
include hhash

lemma drop_preface (bytes : Bytes) : (hash ++ crlf ++ bytes).drop 66 = bytes :=
  drop_left' (by rw [length_append, hhash]; rfl)

lemma delimiter_preface (bytes : Bytes) :
    ¬ ((hash ++ crlf ++ bytes).getD 64 0 ≠ cr ∨ (hash ++ crlf ++ bytes).getD 65 0 ≠ lf) := by
  have h65 : (hash ++ cr :: lf :: bytes)[65]? = some lf := by
    rw [getElem?_append_right (by omega), hhash]
    rfl
  simp [crlf, hhash, h65]

lemma take_preface (bytes : Bytes) : (hash ++ crlf ++ bytes).take 64 = hash := by
  rw [append_assoc]
  exact take_left' hhash

section
variable (hfirst : indexCRLF (before ++ [cr]) = none)
include hfirst

/-- The first line end after the hash ends the preface. -/
theorem decodePreface_of_le (hle : before.length ≤ maxPadding) (after : Bytes) :
    decodePreface maxPadding (hash ++ crlf ++ before ++ crlf ++ after) =
      (.ok (hash, before), after) := by
  obtain ⟨max, rfl⟩ := Int.eq_ofNat_of_zero_le (show 0 ≤ maxPadding by omega)
  have hmax : before.length ≤ max := by omega
  set read := hash ++ crlf ++ (before ++ [cr]) with hread
  have hstr : hash ++ crlf ++ before ++ crlf ++ after = read ++ lf :: after := by
    simp [hread, crlf]
  have hlen : read.length = 67 + before.length := by
    simp [hread, hhash, crlf]
    omega
  have hskip : indexCRLF (([] ++ read).drop 66) = none := by
    rw [nil_append, hread, drop_preface hhash, hfirst]
  have hend : read ++ [lf] = hash ++ crlf ++ (before ++ crlf) := by simp [hread, crlf]
  rw [decodePreface, if_neg (by omega), Int.toNat_natCast, hstr,
    decodePrefaceLoop_append hskip (by omega), nil_append, hlen,
    show 64 + 2 + max + 2 - (67 + before.length) = max - before.length + 1 by omega,
    decodePrefaceLoop, hend, drop_preface hhash, indexCRLF_append_crlf hfirst,
    take_preface hhash]
  simp only [take_left, if_neg (delimiter_preface hhash _), if_neg (Nat.not_lt.mpr hmax)]
  simp [hhash, crlf]
  omega

/-- A preface whose first line end is too far away is refused. -/
theorem decodePreface_of_gt (hgt : maxPadding < before.length) (after : Bytes) :
    ∃ err conn, decodePreface maxPadding (hash ++ crlf ++ before ++ crlf ++ after) =
      (.error err, conn) := by
  by_cases hneg : maxPadding < 0
  · exact ⟨_, _, by rw [decodePreface, if_pos hneg]⟩
  obtain ⟨max, rfl⟩ := Int.eq_ofNat_of_zero_le (Int.not_lt.mp hneg)
  -- all that may be read is part of what comes before the line feed
  set read := hash ++ crlf ++ (before ++ [cr]).take (max + 2) with hread
  have hstr : hash ++ crlf ++ before ++ crlf ++ after =
      read ++ ((before ++ [cr]).drop (max + 2) ++ lf :: after) := by
    rw [hread, ← append_assoc, append_assoc _ (take ..), take_append_drop]
    simp [crlf]
  have hlen : read.length = 64 + 2 + max + 2 := by
    simp [hread, hhash, crlf]
    omega
  have hskip : indexCRLF (([] ++ read).drop 66) = none := by
    rw [nil_append, hread, drop_preface hhash]
    exact indexCRLF_append ((take_append_drop (max + 2) (before ++ [cr])).symm ▸ hfirst)
  refine ⟨"preface exceeds maximum length", (before ++ [cr]).drop (max + 2) ++ lf :: after, ?_⟩
  rw [decodePreface, if_neg hneg, Int.toNat_natCast, hstr,
    decodePrefaceLoop_append hskip (Nat.le_of_eq hlen), hlen, Nat.sub_self, decodePrefaceLoop]

end

end

variable (maxPadding) in
lemma decodePreface_eq_iff (hhash : hash.length = 64) (padding rest : Bytes) :
    (∃ received, decodePreface maxPadding (hash ++ crlf ++ padding ++ crlf ++ rest) =
        (.ok (hash, received), rest)) ↔
      padding.length ≤ maxPadding ∧ indexCRLF padding = none := by
  constructor
  · rintro ⟨received, hdec⟩
    by_cases hidx : indexCRLF padding = none
    · refine ⟨?_, hidx⟩
      by_contra hgt
      obtain ⟨err, conn, herr⟩ := decodePreface_of_gt hhash (indexCRLF_append_cr hidx)
        (Int.not_le.mp hgt) rest
      rw [herr] at hdec
      cases hdec
    · obtain ⟨before, after, rfl, hfirst⟩ := exists_first_crlf hidx
      have hstr : hash ++ crlf ++ (before ++ crlf ++ after) ++ crlf ++ rest =
          hash ++ crlf ++ before ++ crlf ++ (after ++ crlf ++ rest) := by simp
      rw [hstr] at hdec
      by_cases hle : before.length ≤ maxPadding
      · -- the decoder stops at the line end in the padding and leaves too much
        rw [decodePreface_of_le hhash hfirst hle] at hdec
        have hrest := congrArg length (Prod.mk.inj hdec).2
        simp [crlf] at hrest
        omega
      · obtain ⟨err, conn, herr⟩ := decodePreface_of_gt hhash hfirst (Int.not_le.mp hle)
          (after ++ crlf ++ rest)
        rw [herr] at hdec
        cases hdec
  · rintro ⟨hle, hidx⟩
    exact ⟨padding, decodePreface_of_le hhash (indexCRLF_append_cr hidx) hle rest⟩

end Decode

section Encode

variable (sha256 : Bytes → Vector UInt8 32) (password : Bytes)

lemma length_passwordHashHex : (passwordHashHex sha256 password).length = 64 := by
  simp [passwordHashHex, hexString, length_flatMap]

lemma encodePreface_of_le {paddingLen : Nat}
    (h : paddingLen ≤ maxPayloadLength) (random : Nat → UInt8) :
    encodePreface sha256 password paddingLen random =
      .ok (passwordHashHex sha256 password ++ crlf ++ padding paddingLen random ++ crlf) := by
  rw [encodePreface, if_neg (by omega), Int.toNat_natCast]

lemma padding_getElem? (paddingLen : Nat) (random : Nat → UInt8) (i : Nat) :
    (padding paddingLen random)[i]? = if i < paddingLen then some (random i) else none := by
  by_cases h : i < paddingLen
  · simp [padding, h]
  · simp [padding, h]

lemma indexCRLF_padding (paddingLen : Nat) (random : Nat → UInt8) :
    indexCRLF (padding paddingLen random) = none ↔
      ∀ i, i + 1 < paddingLen → ¬ (random i = cr ∧ random (i + 1) = lf) := by
  rw [indexCRLF_eq_none_iff]
  constructor
  · rintro h i hi ⟨hcr, hlf⟩
    apply h i
    rw [padding_getElem?, padding_getElem?, if_pos (by omega), if_pos hi, hcr, hlf]
    exact ⟨rfl, rfl⟩
  · rintro h i ⟨hcr, hlf⟩
    rw [padding_getElem?] at hcr hlf
    split at hlf
    · rw [if_pos (by omega)] at hcr
      exact h i ‹_› ⟨some.inj hcr, some.inj hlf⟩
    · cases hlf

/-- The decoder gives the hash of the password and leaves what follows the preface. -/
def SelfDelimiting (paddingLen : Int) (random : Nat → UInt8) (maxPadding : Int)
    (rest : Bytes) : Prop :=
  ∃ bytes received, encodePreface sha256 password paddingLen random = .ok bytes ∧
    decodePreface maxPadding (bytes ++ rest) =
      (.ok (passwordHashHex sha256 password, received), rest)

/-- A preface is read to its end and no further exactly if the decoder admits as much padding
and there is no line end among the random bytes of the padding. -/
theorem selfDelimiting_iff (password : Bytes) {paddingLen : Nat}
    (hlen : paddingLen ≤ maxPayloadLength) (random : Nat → UInt8) (maxPadding : Int) (rest : Bytes) :
    SelfDelimiting sha256 password paddingLen random maxPadding rest ↔ paddingLen ≤ maxPadding ∧
        ∀ i, i + 1 < paddingLen → ¬ (random i = cr ∧ random (i + 1) = lf) := by
  have henc := encodePreface_of_le sha256 password hlen random
  have hcount : (padding paddingLen random).length = paddingLen := by simp [padding]
  have hdec := decodePreface_eq_iff maxPadding (length_passwordHashHex sha256 password)
    (padding paddingLen random) rest
  rw [hcount, indexCRLF_padding] at hdec
  rw [← hdec]
  constructor
  · rintro ⟨bytes, received, hbytes, h⟩
    obtain rfl := Except.ok.inj (henc.symm.trans hbytes)
    exact ⟨received, h⟩
  · rintro ⟨received, h⟩
    exact ⟨_, received, henc, h⟩

end Encode

def secret : Bytes := [115, 101, 99, 114, 101, 116]

def secretDigest : Vector UInt8 32 := #v[43, 184, 13, 83, 123, 29, 163, 227, 139, 211, 3, 97, 170,
  133, 86, 134, 189, 224, 234, 205, 113, 98, 254, 246, 162, 95, 233, 123, 245, 39, 162, 91]

theorem selfDelimiting_three : SelfDelimiting (fun _ => secretDigest) secret (3 : Nat)
    (fun i => if i = 2 then cr else 7) 256 [1, 0] := by
  refine (selfDelimiting_iff _ secret (by decide) _ 256 [1, 0]).mpr ⟨by decide, ?_⟩
  rintro i - ⟨-, h⟩
  split at h <;> exact absurd h (by decide)

/-- Two random bytes that are a line end, and a client hello after the preface: the decoder
leaves the end of the preface before the hello. -/
theorem padding_with_line_end :
    ¬ SelfDelimiting (fun _ => secretDigest) secret (2 : Nat) (fun i => if i = 0 then cr else lf) 256
      [1, 0, 0, 0, 0, 0, 0, 6, 1, 0, 7, 0, 8, 0] := by
  rintro ⟨bytes, received, henc, hdec⟩
  obtain rfl := Except.ok.inj ((encodePreface_of_le _ secret (by decide) _).symm.trans henc)
  have hpadding : padding 2 (fun i => if i = 0 then cr else lf) = crlf := rfl
  rw [hpadding] at hdec
  have hle := ((decodePreface_eq_iff 256 (length_passwordHashHex _ secret) crlf _).mp
    ⟨received, hdec⟩).2
  revert hle
  decide

end SingBox.Shuttle
