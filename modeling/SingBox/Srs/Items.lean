import SingBox.Srs.Binary

/-! Every item of a rule is read as it was written, if it can be read at all. -/

namespace SingBox.Srs
open Lib Codec Netip Decoder Option UInt8
open Reads (bind uvarint map full byte)

/-- What is documented of the libraries. The readers take back what was written, the two forms
of a matcher match the same names, and a set of addresses has those that were added and no
zones. -/
structure Libraries.Lawful (L : Libraries) : Prop where
  readMatcher : ∀ m, Reads L.readMatcher (L.writeMatcher m) m
  legacy : ∀ domain suffix, L.matchDomain (L.newMatcher domain suffix true) =
    L.matchDomain (L.newMatcher domain suffix false)
  readAdGuardMatcher : ∀ m, Reads L.readAdGuardMatcher (L.writeAdGuardMatcher m) m
  contains : ∀ added a, L.contains (L.ipSet added) a = added.any (·.covers a)
  plain : ∀ added, ∀ rr ∈ L.ipSet added,
    rr.fromAddr.withoutZone = rr.fromAddr ∧ rr.toAddr.withoutZone = rr.toAddr
  length : ∀ added, (L.ipSet added).length ≤ added.length
  addrFromIP : ∀ bytes a, Addr.fromSlice bytes = some a → L.addrFromIP bytes = a
  readSlice8 : ∀ bytes, bytes.length < 2 ^ 63 → Reads L.readSlice8 (putField bytes) bytes
  readSlice16 : ∀ value, value.length < 2 ^ 63 → Reads L.readSlice16
    (putUvarint value.length ++ value.flatMap fun n => putBigEndian 2 n.toNat) value
  decompress : ∀ bytes, L.decompress (L.compress bytes) = .ok bytes

variable {L : Libraries}

section Values

variable (hL : L.Lawful)
include hL

lemma reads_addr (a : Addr) : Reads (readAddr L) (putField a.asSlice) a.withoutZone := by
  have hlen := a.length_asSlice
  have hlt : a.asSlice.length < 2 ^ 64 := by omega
  apply bind (uvarint hlt)
  rw [if_neg (by omega)]
  exact map (full rfl) (hL.addrFromIP _ _ a.fromSlice_asSlice)

lemma reads_ipSet {set : IPSet} (hlen : set.length < 2 ^ 63)
    (hplain : ∀ rr ∈ set, rr.fromAddr.withoutZone = rr.fromAddr ∧ rr.toAddr.withoutZone = rr.toAddr) :
    Reads (readIPSet L) (writeIPSet set) set := by
  have hlt : set.length < 256 ^ 8 := by omega
  apply bind (byte 1)
  apply bind (Reads.bigEndian hlt)
  apply Reads.times
  intro rr hrr _
  obtain ⟨hfrom, hto⟩ := hplain rr hrr
  have hreadFrom := reads_addr hL rr.fromAddr
  have hreadTo := reads_addr hL rr.toAddr
  rw [hfrom] at hreadFrom
  rw [hto] at hreadTo
  exact hreadFrom.bind (hreadTo.map rfl)

lemma returns_prefix (p : Prefixable) :
    Returns (readPrefix L) (writePrefix p) (guard isSome p) := by
  cases p with
  | none => exact fun rest => ⟨errInvalid, 255 :: rest, rfl⟩
  | some p =>
    have hread := reads_addr hL p.addr
    rw [p.plain] at hread
    apply hread.bind
    apply map (byte _)
    rw [prefixFrom_addr]
    cases hbits : p.bits with
    | none =>
      have hle := p.addr.bitLen_le
      have hlong : ¬ 255 ≤ p.addr.bitLen := by omega
      exact if_neg hlong
    | some b =>
      have hfits : b ≤ p.addr.bitLen := p.fits b hbits
      have hle := p.addr.bitLen_le
      have hnat : (ofNat b).toNat = b := toNat_ofNat_of_lt' (by change b < 256; omega)
      change (if (ofNat b).toNat ≤ p.addr.bitLen then some (ofNat b).toNat else none) = _
      rw [hnat, if_pos hfits]

lemma returns_prefixes {value : List Prefixable} (hlen : value.length < 2 ^ 63) :
    Returns (readPrefixes L) (writePrefixes value) (guard (·.all isSome) value) := by
  have hlt : value.length < 2 ^ 64 := by omega
  apply bind (uvarint hlt)
  exact Returns.times_guard fun p _ _ => returns_prefix hL p

lemma returns_interfaceAddresses {entries : List (UInt8 × List Prefixable)}
    (hlen : entries.length < 2 ^ 63) (hlens : ∀ entry ∈ entries, entry.2.length < 2 ^ 63) :
    Returns (readInterfaceAddresses L) (writeInterfaceAddresses entries)
      (guard (·.all fun entry => entry.2.all isSome) entries) := by
  have hlt : entries.length < 2 ^ 64 := by omega
  apply bind (uvarint hlt)
  apply Returns.times_guard
  intro entry hent _
  have hkey := byte entry.1
  have hent : Returns (readPrefixes L >>= fun value => pure (entry.1, value))
      (writePrefixes entry.2) (guard (fun entry => entry.2.all isSome) entry) := by
    have hmap := (returns_prefixes hL (hlens entry hent)).map (f := fun value => (entry.1, value))
    cases hall : entry.2.all Option.isSome <;> simpa [Option.guard, hall] using hmap
  exact hkey.bind hent

lemma reads_strings {value : List Bytes} (hlen : value.length < 2 ^ 63)
    (hlens : ∀ s ∈ value, s.length < 2 ^ 63) :
    Reads (readRuleItemString L) (putUvarint value.length ++ value.flatMap putField) value := by
  have hlt : value.length < 2 ^ 64 := by omega
  apply bind (uvarint hlt)
  exact Reads.times fun s hs _ => hL.readSlice8 s (hlens s hs)

end Values

lemma ofCode_code (item : RuleItem) : RuleItem.ofCode item.code = some item := by
  cases item <;> rfl

lemma code_ne_final (item : RuleItem) : item.code ≠ finalCode := by
  cases item <;> decide

section Blocks

/-- Reading what a block has written changes a rule like this, or fails. -/
def Restores (recover : Bool) (written : Except Failure Bytes)
    (set : DefaultHeadlessRule L → Option (DefaultHeadlessRule L)) : Prop :=
  ∀ bytes, written = .ok bytes → (bytes = [] ∧ ∀ rule, set rule = some rule) ∨
    ∃ item payload, bytes = item.code :: payload ∧
      ∀ rule, Returns (readItem L recover rule item) payload (set rule)

variable {recover : Bool} {set : DefaultHeadlessRule L → Option (DefaultHeadlessRule L)}

lemma restores_block {present : Bool} {written : Except Failure Bytes} {item : RuleItem}
    {payload : Bytes} (hwritten : ∀ bytes, written = .ok bytes → bytes = item.code :: payload)
    (habsent : present = false → ∀ rule, set rule = some rule)
    (hpresent : present → ∀ rule, Returns (readItem L recover rule item) payload (set rule)) :
    Restores recover (block present written) set := by
  intro bytes hbytes
  cases present with
  | false =>
    cases hbytes
    exact .inl ⟨rfl, habsent rfl⟩
  | true => exact .inr ⟨item, payload, hwritten bytes hbytes, hpresent rfl⟩

variable {bytes bytes' : Bytes}

lemma eq_of_ok (h : (Except.ok bytes : Except Failure Bytes) = .ok bytes') : bytes' = bytes := by
  cases h
  rfl

lemma eq_of_since {generateVersion minimum : UInt8} {err : String}
    (h : since generateVersion minimum err bytes = .ok bytes') : bytes' = bytes := by
  unfold since at h
  split at h
  · cases h
  · exact eq_of_ok h

variable {bytes : Bytes}

lemma append_eq_ok {written rest : Except Failure Bytes}
    (h : (do return (← written) ++ (← rest)) = Except.ok bytes) :
    ∃ first more, written = .ok first ∧ rest = .ok more ∧ bytes = first ++ more := by
  obtain ⟨first, hfirst, h⟩ := bind_eq_ok h
  obtain ⟨more, hmore, h⟩ := bind_eq_ok h
  exact ⟨first, more, hfirst, hmore, eq_of_ok h⟩

lemma readItems_item (recover : Bool) (rounds : Nat) (lastItemType : UInt8)
    (rule : DefaultHeadlessRule L) (item : RuleItem) (bytes : Bytes) :
    readItems L recover (rounds + 1) lastItemType rule (item.code :: bytes) =
      (readItem L recover rule item >>= readItems L recover rounds item.code) bytes := by
  change (if item.code = finalCode then _ else _ : Decoder _) bytes = _
  rw [if_neg (code_ne_final item), ofCode_code]

/-- One change after another, if none of them fails. -/
def restored : List (DefaultHeadlessRule L → Option (DefaultHeadlessRule L)) →
    DefaultHeadlessRule L → Option (DefaultHeadlessRule L)
  | [], rule => some rule
  | set :: sets, rule => (set rule).bind (restored sets)

lemma gives_readItems {blocks : List (Except Failure Bytes)}
    {sets : List (DefaultHeadlessRule L → Option (DefaultHeadlessRule L))}
    (h : List.Forall₂ (Restores recover) blocks sets)
    (hbytes : concat blocks = .ok bytes) (invert : Bool) (rest : Bytes) {rounds : Nat}
    (hrounds : (bytes ++ [finalCode, putBool invert] ++ rest).length ≤ rounds)
    (lastItemType : UInt8) (rule : DefaultHeadlessRule L) :
    Gives rest ((restored sets rule).map ({ · with invert }))
      (readItems L recover rounds lastItemType rule
        (bytes ++ [finalCode, putBool invert] ++ rest)) := by
  induction h generalizing bytes rounds lastItemType rule with
  | nil =>
    cases hbytes
    cases rounds with
    | zero => simp at hrounds
    | succ rounds => cases invert <;> rfl
  | cons hfirst _ ih =>
    obtain ⟨first, more, hwritten, hmore, rfl⟩ := append_eq_ok hbytes
    rw [restored]
    obtain ⟨rfl, hset⟩ | ⟨item, payload, rfl, hread⟩ := hfirst first hwritten
    · rw [hset rule]
      exact ih hmore hrounds lastItemType rule
    · cases rounds with
      | zero => simp at hrounds
      | succ rounds =>
        have hleft : (more ++ [finalCode, putBool invert] ++ rest).length ≤ rounds := by
          simp only [List.length_append, List.length_cons] at hrounds ⊢
          omega
        have hbytes : item.code :: payload ++ more ++ [finalCode, putBool invert] ++ rest =
            item.code :: (payload ++ (more ++ [finalCode, putBool invert] ++ rest)) := by simp
        rw [hbytes, readItems_item, map_bind]
        exact (hread rule _).bind fun rule' _ => ih hmore hleft item.code rule'

end Blocks

end SingBox.Srs
