import SingBox.Lib.Codec

/-! Readers of a byte stream that may fail, and what it means that a reader takes back what was
written. -/

namespace SingBox.Lib
open Codec List Option UInt8

/-- Takes bytes from the front. What is left is known also when it fails. -/
def Decoder (α : Type) := Bytes → Except String α × Bytes

namespace Decoder

variable {α β γ : Type}

instance : Monad Decoder where
  pure a := fun bytes => (.ok a, bytes)
  bind d f := fun bytes =>
    match d bytes with
    | (.ok a, rest) => f a rest
    | (.error err, rest) => (.error err, rest)

def fail (err : String) : Decoder α := fun bytes => (.error err, bytes)

def withCause (text : String) (d : Decoder α) : Decoder α := fun bytes =>
  match d bytes with
  | (.ok a, rest) => (.ok a, rest)
  | (.error err, rest) => (.error (text ++ ": " ++ err), rest)

def readByte : Decoder UInt8
  | [] => (.error "EOF", [])
  | b :: rest => (.ok b, rest)

/-- That many bytes; a stream that ends before takes what there is. -/
def readFull (n : Nat) : Decoder Bytes := fun bytes =>
  if n ≤ bytes.length then (.ok (bytes.take n), bytes.drop n)
  else (.error (if bytes = [] then "EOF" else "unexpected EOF"), [])

def readBigEndian (width : Nat) : Decoder Nat := do
  return ofBigEndian (← readFull width)

def readBool : Decoder Bool := do
  return (← readByte) ≠ 0

def overflow : String := "binary: varint overflows a 64-bit integer"

/-- Groups of seven bits, of which at most so many are left; the last one of ten has a single
bit. The text is the error at the end of the stream. -/
def readGroups : Nat → String → Decoder Nat
  | 0, _, bytes => (.error overflow, bytes)
  | _ + 1, eof, [] => (.error eof, [])
  | left + 1, _, b :: rest =>
    if b.toNat < 128 then
      if left = 0 ∧ 1 < b.toNat then (.error overflow, rest) else (.ok b.toNat, rest)
    else
      match readGroups left "unexpected EOF" rest with
      | (.ok n, rest) => (.ok (b.toNat - 128 + 128 * n), rest)
      | (.error err, rest) => (.error err, rest)

/-- A number below `2 ^ 64`. -/
def readUvarint : Decoder Nat := readGroups 10 "EOF"

/-- A reader that has one way to fail. -/
def ofReader (reader : Bytes → Option (α × Bytes)) : Decoder α := fun bytes =>
  match reader bytes with
  | some (a, rest) => (.ok a, rest)
  | none => (.error "unexpected EOF", [])

/-- One value after another; the reader is told the number of the value. -/
def timesFrom (d : Nat → Decoder α) : Nat → Nat → Decoder (List α)
  | 0, _ => pure []
  | n + 1, i => do
    let a ← d i
    let as ← timesFrom d n (i + 1)
    return a :: as

def times (n : Nat) (d : Nat → Decoder α) : Decoder (List α) := timesFrom d n 0

/-- What a reader ends with: the value, and the rest behind it, or an error if there is no
value. -/
def Gives (rest : Bytes) : Option α → Except String α × Bytes → Prop
  | some a, result => result = (.ok a, rest)
  | none, result => ∃ err left, result = (.error err, left)

variable (d : Decoder α)

/-- The reader takes these bytes for the value and leaves what comes after, or it fails on them
if there is no value. -/
def Returns (bytes : Bytes) (o : Option α) : Prop :=
  ∀ rest, Gives rest o (d (bytes ++ rest))

def Reads (bytes : Bytes) (a : α) : Prop := Returns d bytes (some a)

section Rules

variable {d : Decoder α} {bytes bytes' : Bytes} {a : α} {o : Option α}

lemma bind_apply (f : α → Decoder β) (bytes : Bytes) : (d >>= f) bytes = match d bytes with
      | (.ok a, rest) => f a rest
      | (.error err, rest) => (.error err, rest) := rfl

lemma Reads.apply (h : Reads d bytes a) (rest : Bytes) : d (bytes ++ rest) = (.ok a, rest) := h rest

lemma Reads.pure (a : α) : Reads (pure a) [] a := fun _ => rfl

variable {f : α → Decoder β} {g : α → Option β}

/-- What comes after a reader sees what that one left. -/
theorem Gives.bind {rest rest' : Bytes}
    (h : Gives rest o (d bytes)) (h' : ∀ a, o = some a → Gives rest' (g a) (f a rest)) :
    Gives rest' (o.bind g) ((d >>= f) bytes) := by
  cases o with
  | none =>
    obtain ⟨err, left, hd⟩ := h
    exact ⟨err, left, by rw [bind_apply, hd]⟩
  | some a =>
    rw [bind_apply, h]
    exact h' a rfl

lemma Returns.bind (h : Returns d bytes o) (h' : ∀ a, o = some a → Returns (f a) bytes' (g a)) :
    Returns (d >>= f) (bytes ++ bytes') (o.bind g) := by
  intro rest
  rw [append_assoc]
  exact (h (bytes' ++ rest)).bind fun a ha => h' a ha rest

lemma Reads.bind {o : Option β} (h : Reads d bytes a)
    (h' : Returns (f a) bytes' o) : Returns (d >>= f) (bytes ++ bytes') o :=
  Returns.bind h fun _ ha => some.inj ha ▸ h'

variable {f : α → β}

lemma Returns.map (h : Returns d bytes o) :
    Returns (d >>= fun a => Pure.pure (f a)) bytes (o.map f) := by
  have hbind : Returns (d >>= fun a => Pure.pure (f a)) (bytes ++ []) (o.bind fun a => some (f a)) :=
    h.bind fun a _ => Reads.pure (f a)
  rw [append_nil] at hbind
  cases o <;> exact hbind

lemma Reads.map {b : β} (h : Reads d bytes a) (hb : f a = b) :
    Reads (d >>= fun a => Pure.pure (f a)) bytes b := by
  rw [← hb]
  exact Returns.map h

lemma Returns.withCause (text : String) (h : Returns d bytes o) :
    Returns (d.withCause text) bytes o := by
  intro rest
  have hrest := h rest
  cases o with
  | none =>
    obtain ⟨err, left, hd⟩ := hrest
    exact ⟨text ++ ": " ++ err, left, by rw [Decoder.withCause, hd]⟩
  | some a =>
    change d.withCause text (bytes ++ rest) = (.ok a, rest)
    rw [Decoder.withCause, hrest]

variable {d : Nat → Decoder α}

lemma Returns.timesFrom_cons {os : Option (List α)} {n i : Nat}
    (h : Returns (d i) bytes o) (h' : Returns (timesFrom d n (i + 1)) bytes' os) :
    Returns (timesFrom d (n + 1) i) (bytes ++ bytes') (o.bind fun a => os.map (a :: ·)) :=
  h.bind fun _ _ => h'.map

lemma Returns.timesFrom {put : γ → Bytes} {get : γ → Option α}
    {values : List γ} (h : ∀ v ∈ values, ∀ i, Returns (d i) (put v) (get v)) (i : Nat) :
    Returns (timesFrom d values.length i) (values.flatMap put) (values.mapM get) := by
  induction values generalizing i with
  | nil => exact Reads.pure []
  | cons v values ih =>
    rw [flatMap_cons, mapM_cons]
    have htail := ih (fun w hw => h w (mem_cons_of_mem v hw)) (i + 1)
    have hcons := Returns.timesFrom_cons (h v mem_cons_self i) htail
    cases hv : get v <;> cases hvs : values.mapM get <;> rw [hv, hvs] at hcons <;> exact hcons

lemma mapM_guard (p : α → Bool) (values : List α) :
    values.mapM (guard p) = guard (·.all p) values := by
  induction values with
  | nil => rfl
  | cons v values ih =>
    rw [mapM_cons, ih]
    cases hv : p v <;> cases hvs : values.all p <;> simp [Option.guard, hv, hvs]

variable {put : α → Bytes} {values : List α}

/-- A list of values of which some cannot be read. -/
theorem Returns.times_guard {p : α → Bool}
    (h : ∀ v ∈ values, ∀ i, Returns (d i) (put v) (guard p v)) :
    Returns (Decoder.times values.length d) (values.flatMap put) (guard (·.all p) values) := by
  rw [← mapM_guard]
  exact Returns.timesFrom h 0

lemma Reads.times (h : ∀ v ∈ values, ∀ i, Reads (d i) (put v) v) :
    Reads (times values.length d) (values.flatMap put) values := by
  have hret : Returns (Decoder.times values.length d) (values.flatMap put)
      (guard (·.all fun _ => true) values) := Returns.times_guard h
  rwa [Option.guard, if_pos (by simp)] at hret

end Rules

section Values

lemma Reads.byte (b : UInt8) : Reads readByte [b] b := fun _ => rfl

variable {bytes : Bytes}

lemma Reads.ofReader {reader : Bytes → Option (α × Bytes)} {a : α}
    (h : ∀ rest, reader (bytes ++ rest) = some (a, rest)) : Reads (ofReader reader) bytes a := by
  intro rest
  change Decoder.ofReader reader (bytes ++ rest) = (.ok a, rest)
  rw [Decoder.ofReader, h]

lemma Reads.bool (b : Bool) : Reads readBool [if b then 1 else 0] b := by
  cases b <;> exact Reads.map (Reads.byte _) (by decide)

lemma Reads.full {n : Nat} (h : bytes.length = n) : Reads (readFull n) bytes bytes := by
  intro rest
  change readFull n (bytes ++ rest) = (.ok bytes, rest)
  rw [readFull, if_pos (by rw [length_append]; omega), ← h, take_left, drop_left]

lemma Reads.bigEndian {width n : Nat} (h : n < 256 ^ width) :
    Reads (readBigEndian width) (putBigEndian width n) n :=
  Reads.map (Reads.full (length_putBigEndian width n)) (ofBigEndian_putBigEndian h)

lemma Reads.groups {fuel n left : Nat} (hfuel : n ≤ fuel) (hn : n < 2 * 128 ^ left) (eof : String) :
    Reads (readGroups (left + 1) eof) (putUvarintWithin fuel n) n := by
  have hsmall {n left} eof (hn : n < 128) (hlast : left = 0 → n < 2) :
      Reads (readGroups (left + 1) eof) [ofNat n] n := by
    intro rest
    have hnat : (ofNat n).toNat = n := toNat_ofNat_of_lt' (Nat.lt_trans hn (by decide))
    change readGroups (left + 1) eof ([ofNat n] ++ rest) = (.ok n, rest)
    rw [singleton_append, readGroups, hnat, if_pos hn, if_neg (by omega)]
  induction fuel generalizing n left eof with
  | zero => exact hsmall eof (by omega) (by omega)
  | succ fuel ih =>
    unfold putUvarintWithin
    by_cases hlt : n < 128
    · rw [if_pos hlt]
      apply hsmall eof hlt
      rintro rfl
      simpa using hn
    · rw [if_neg hlt]
      cases left with
      | zero => omega
      | succ left =>
        have hdiv : n / 128 < 2 * 128 ^ left := by
          omega
        have hnat : (ofNat (n % 128 + 128)).toNat = n % 128 + 128 :=
          toNat_ofNat_of_lt' (by change _ < 256; omega)
        intro rest
        change readGroups (left + 1 + 1) eof (_ :: putUvarintWithin fuel (n / 128) ++ rest) =
            (.ok n, rest)
        rw [cons_append, readGroups, hnat, if_neg (by omega),
          Reads.apply (ih (by omega) hdiv "unexpected EOF") rest]
        simp [Nat.mod_add_div]

/-- A number that is read back is the one that was written. -/
theorem eq_of_readGroups {fuel n m left : Nat} {eof : String} {rest rest' : Bytes} (hfuel : n ≤ fuel)
    (h : readGroups left eof (putUvarintWithin fuel n ++ rest) = (.ok m, rest')) :
    m = n ∧ rest' = rest := by
  have hsmall {n m left eof} (hn : n < 128)
      (h : readGroups left eof ([ofNat n] ++ rest) = (.ok m, rest')) :
      m = n ∧ rest' = rest := by
    have hnat : (ofNat n).toNat = n := toNat_ofNat_of_lt' (Nat.lt_trans hn (by decide))
    cases left with
    | zero => cases h
    | succ left =>
      rw [singleton_append, readGroups, hnat, if_pos hn] at h
      split at h <;> cases h
      exact ⟨rfl, rfl⟩
  induction fuel generalizing n m left eof with
  | zero => exact hsmall (by omega) h
  | succ fuel ih =>
    unfold putUvarintWithin at h
    by_cases hlt : n < 128
    · rw [if_pos hlt] at h
      exact hsmall hlt h
    · have hnat : (ofNat (n % 128 + 128)).toNat = n % 128 + 128 :=
        toNat_ofNat_of_lt' (by change _ < 256; omega)
      cases left with
      | zero => cases h
      | succ left =>
        rw [if_neg hlt, cons_append, readGroups, hnat, if_neg (by omega)] at h
        split at h
        · next hread =>
          cases h
          obtain ⟨rfl, rfl⟩ := ih (n := n / 128) (by omega) hread
          exact ⟨by omega, rfl⟩
        · cases h

lemma suffix_of_readGroups {n left : Nat} {eof : String} {bytes rest : Bytes}
    (h : readGroups left eof bytes = (.ok n, rest)) : rest <:+ bytes := by
  induction left generalizing n eof bytes with
  | zero => cases h
  | succ left ih =>
    cases bytes with
    | nil => cases h
    | cons b bytes =>
      unfold readGroups at h
      split at h
      · split at h <;> cases h
        exact suffix_cons b rest
      · split at h
        · next hread =>
          cases h
          exact (ih hread).trans (suffix_cons b bytes)
        · cases h

lemma Reads.uvarint {n : Nat} (h : n < 2 ^ 64) : Reads readUvarint (putUvarint n) n :=
  Reads.groups (Nat.le_refl n) (by omega) "EOF"

end Values

end Decoder

end SingBox.Lib
