import SingBox.Dns.FakeIp

/-! The addresses of a range as numbers, and the addresses of it that are handed out. -/

namespace SingBox.Dns
open Nat Addr

/-! ## Addresses as numbers -/

namespace Addr

variable {a b : Addr}

lemma ext_val (hlen : a.bitLen = b.bitLen) (hval : a.val = b.val) : a = b := by
  cases a with
  | invalid =>
    cases b with
    | invalid => rfl
    | v4 | v6 => cases hlen
  | v4 x =>
    cases b with
    | v4 y => exact congrArg Addr.v4 (BitVec.eq_of_toNat_eq hval)
    | invalid | v6 => cases hlen
  | v6 x =>
    cases b with
    | v6 y => exact congrArg Addr.v6 (BitVec.eq_of_toNat_eq hval)
    | invalid | v4 => cases hlen

lemma toNat_add_one {w : Nat} {x : BitVec w} (h : x ≠ BitVec.allOnes w) :
    (x + 1).toNat = x.toNat + 1 := by
  have hne : x.toNat ≠ 2 ^ w - 1 := by
    intro hx
    exact h (BitVec.eq_of_toNat_eq (hx.trans BitVec.toNat_allOnes.symm))
  have hw : 0 < w := by
    by_contra hw
    obtain rfl : w = 0 := by omega
    omega
  have hone : (1 : BitVec w).toNat = 1 := BitVec.toNat_one hw
  rw [BitVec.toNat_add, hone]
  exact mod_eq_of_lt (by omega)

lemma next_spec (h : a.next.isValid) : a.next.bitLen = a.bitLen ∧ a.next.val = a.val + 1 := by
  cases a with
  | invalid => cases h
  | v4 bits | v6 bits =>
    simp only [next] at h ⊢
    split at h
    · cases h
    · next hne =>
      rw [if_neg hne]
      exact ⟨rfl, toNat_add_one hne⟩

lemma is4_eq_of_bitLen (h : a.bitLen = b.bitLen) : a.is4 = b.is4 := by
  cases a <;> cases b <;> first | rfl | cases h

end Addr

/-! ## Ranges -/

namespace Prefix

variable {p : Prefix} {a : Addr}

def size (p : Prefix) : Nat := 2 ^ (p.addr.bitLen - p.bits)

lemma size_pos (p : Prefix) : 0 < p.size := Nat.two_pow_pos _

lemma contains_iff : p.contains a ↔
    p.isValid ∧ a.bitLen = p.addr.bitLen ∧ a.val / p.size = p.addr.val / p.size := by
  have hshift {w k : Nat} (x y : BitVec w) :
      (x >>> k == y >>> k) ↔ y.toNat / 2 ^ k = x.toNat / 2 ^ k := by
    rw [beq_iff_eq, ← BitVec.toNat_inj, BitVec.toNat_ushiftRight, BitVec.toNat_ushiftRight,
      shiftRight_eq_div_pow, shiftRight_eq_div_pow, eq_comm]
  unfold contains size
  rw [Bool.and_eq_true]
  apply and_congr_right
  intro hval
  cases hp : p.addr with
  | invalid => simp [isValid, hp, Addr.isValid] at hval
  | v4 x | v6 x =>
    cases a with
    | invalid | v4 y | v6 y => simp [Addr.bitLen, Addr.val, hshift]

lemma contains_addr (h : p.isValid) : p.contains p.addr :=
  contains_iff.mpr ⟨h, rfl, rfl⟩

end Prefix

namespace FakeIp

/-! ## The last address -/

lemma getLsbD_foldl_range' {n s : Nat} (h : s + n ≤ 128) (raw : BitVec 128) (j : Nat) :
    ((List.range' s n).foldl (fun raw i => raw ||| (1#128 <<< (127 - i))) raw).getLsbD j =
      (raw.getLsbD j || decide (128 ≤ j + s + n ∧ j + s < 128)) := by
  induction n generalizing s raw with
  | zero =>
    have hnone : ¬ (128 ≤ j + s + 0 ∧ j + s < 128) := by omega
    rw [decide_eq_false hnone, Bool.or_false]
    rfl
  | succ n ih =>
    have hbit : (1#128 <<< (127 - s)).getLsbD j = decide (j + s = 127) := by
      rw [BitVec.getLsbD_shiftLeft, BitVec.getLsbD_one]
      apply Bool.eq_iff_iff.mpr
      simp only [Bool.and_eq_true, Bool.not_eq_true', decide_eq_true_eq, decide_eq_false_iff_not]
      omega
    rw [List.range'_succ, List.foldl_cons, ih (by omega), BitVec.getLsbD_or, hbit, Bool.or_assoc]
    congr 1
    apply Bool.eq_iff_iff.mpr
    simp only [Bool.or_eq_true, decide_eq_true_eq]
    omega

lemma getLsbD_setHostBits (raw : BitVec 128) {bits : Nat} (h : bits ≤ 128) (j : Nat) :
    (setHostBits raw bits).getLsbD j = (raw.getLsbD j || decide (j + bits < 128)) := by
  rw [setHostBits, getLsbD_foldl_range' (by omega)]
  congr 1
  apply Bool.eq_iff_iff.mpr
  simp only [decide_eq_true_eq]
  omega

/-- A number whose last bits are set is the last of those that agree on the other bits. -/
theorem eq_of_testBit_or {x y k : Nat} (h : ∀ j, y.testBit j = (x.testBit j || decide (j < k))) :
    y = x / 2 ^ k * 2 ^ k + (2 ^ k - 1) := by
  have hdiv : y / 2 ^ k = x / 2 ^ k := by
    apply eq_of_testBit_eq
    intro j
    rw [← shiftRight_eq_div_pow, ← shiftRight_eq_div_pow, testBit_shiftRight,
      testBit_shiftRight, h, decide_eq_false (by omega), Bool.or_false]
  have hmod : y % 2 ^ k = 2 ^ k - 1 := by
    apply eq_of_testBit_eq
    intro j
    rw [testBit_mod_two_pow, testBit_two_pow_sub_one, h]
    cases hj : decide (j < k) <;> simp
  rw [← hdiv, ← hmod, div_add_mod']

variable {p : Prefix}

lemma broadcastAddress_spec (h : p.isValid) : (broadcastAddress p).bitLen = p.addr.bitLen ∧
      (broadcastAddress p).val = p.addr.val / p.size * p.size + (p.size - 1) := by
  simp only [Prefix.isValid, Bool.and_eq_true, decide_eq_true_eq] at h
  obtain ⟨hval, hbits⟩ := h
  unfold broadcastAddress Prefix.size
  cases hp : p.addr with
  | invalid => simp [hp, Addr.isValid] at hval
  | v4 x =>
    have hbits' : p.bits ≤ 32 := by simpa [hp, Addr.bitLen] using hbits
    refine ⟨rfl, eq_of_testBit_or fun j => ?_⟩
    change ((setHostBits (0xffff#96 ++ x) (p.bits + 96)).extractLsb' 0 32).toNat.testBit j =
      (x.toNat.testBit j || decide (j < 32 - p.bits))
    rw [BitVec.testBit_toNat, BitVec.testBit_toNat, BitVec.getLsbD_extractLsb', Nat.zero_add,
      getLsbD_setHostBits _ (by omega), BitVec.getLsbD_append]
    by_cases hj : j < 32
    · rw [decide_eq_true hj, Bool.true_and, if_pos hj]
      congr 1
      apply Bool.eq_iff_iff.mpr
      simp only [decide_eq_true_eq]
      omega
    · rw [decide_eq_false hj, Bool.false_and, BitVec.getLsbD_of_ge _ _ (by omega),
        decide_eq_false (by omega)]
      rfl
  | v6 x =>
    have hbits' : p.bits ≤ 128 := by simpa [hp, Addr.bitLen] using hbits
    refine ⟨rfl, eq_of_testBit_or fun j => ?_⟩
    change (setHostBits x p.bits).toNat.testBit j = (x.toNat.testBit j || decide (j < 128 - p.bits))
    rw [BitVec.testBit_toNat, BitVec.testBit_toNat, getLsbD_setHostBits _ hbits']
    congr 1
    apply Bool.eq_iff_iff.mpr
    simp only [decide_eq_true_eq]
    omega

/-- The address with the last bits set is in the range, and no other is after it. -/
theorem contains_broadcastAddress (h : p.isValid) : p.contains (broadcastAddress p) := by
  obtain ⟨hlen, hval⟩ := broadcastAddress_spec h
  have := p.size_pos
  refine Prefix.contains_iff.mpr ⟨h, hlen, ?_⟩
  rw [hval, Nat.add_comm, Nat.add_mul_div_right _ _ p.size_pos,
    Nat.div_eq_of_lt (by omega), Nat.zero_add]

lemma val_le_broadcastAddress {a : Addr} (h : p.contains a) : a.val ≤ (broadcastAddress p).val := by
  obtain ⟨hval, hlen, hdiv⟩ := Prefix.contains_iff.mp h
  rw [(broadcastAddress_spec hval).2, ← hdiv]
  have hmod := mod_lt a.val p.size_pos
  have hsplit := div_add_mod' a.val p.size
  omega

/-! ## The addresses that are handed out -/

/-- An address of the range that is not the first, and as an IPv4 address not the last. -/
structure InPool (p : Prefix) (a : Addr) : Prop where
  contained : p.contains a = true
  not_first : ∃ b, p.contains b = true ∧ b.val < a.val
  not_last : a.is4 = true → ∃ b, p.contains b = true ∧ a.val < b.val

/-- The second address after the one that the range is given by can be handed out. -/
structure Roomy (p : Prefix) : Prop where
  contained : p.addr.next.isValid = true → p.contains p.addr.next.next = true
  not_last : p.addr.is4 = true → p.addr.next.next ≠ broadcastAddress p

/-- A position, if there is one, is an address after the one that the range is given by. -/
structure Placed (p : Prefix) (current : Addr) : Prop where
  valid : current.isValid = true → p.isValid = true ∧ p.addr.next.isValid = true
  family : current.isValid = true → current.bitLen = p.addr.bitLen
  after : current.isValid = true → p.addr.val < current.val

/-- The fields of the store as `NewStore` sets them, and its position. -/
structure Inet.Valid (i : Inet) : Prop where
  last : i.range.isValid = true → i.last = broadcastAddress i.range
  placed : Placed i.range i.current

variable {p : Prefix} {i : Inet} {a : Addr}

lemma isValid_of_contains (h : p.contains a) : a.isValid := by
  obtain ⟨hval, hlen, -⟩ := Prefix.contains_iff.mp h
  cases a with
  | invalid =>
    simp only [Prefix.isValid, Bool.and_eq_true] at hval
    cases hp : p.addr with
    | invalid => simp [hp, Addr.isValid] at hval
    | v4 | v6 => simp [hp, Addr.bitLen] at hlen
  | v4 | v6 => rfl

lemma InPool.of_contains (h : p.contains a) (hafter : p.addr.val < a.val)
    (hlast : a.is4 → a ≠ broadcastAddress p) : InPool p a := by
  obtain ⟨hvalid, hlen, -⟩ := Prefix.contains_iff.mp h
  refine ⟨h, ⟨p.addr, Prefix.contains_addr hvalid, hafter⟩, fun h4 => ?_⟩
  refine ⟨broadcastAddress p, contains_broadcastAddress hvalid, ?_⟩
  apply Nat.lt_of_le_of_ne (val_le_broadcastAddress h)
  intro hval
  exact hlast h4 (ext_val (hlen.trans (broadcastAddress_spec hvalid).1.symm) hval)

/-- The address after the position is handed out, or the second of the range. -/
theorem inPool_nextAddress (hroomy : Roomy i.range) (hi : i.Valid) (hcur : i.current.isValid) :
    InPool i.range i.nextAddress ∧ i.range.addr.val < i.nextAddress.val := by
  obtain ⟨hvalid, hnext⟩ := hi.placed.valid hcur
  unfold Inet.nextAddress
  dsimp only
  split
  · have hcont := hroomy.contained hnext
    obtain ⟨hlen, hval⟩ := next_spec hnext
    obtain ⟨hlen', hval'⟩ := next_spec (isValid_of_contains hcont)
    have hafter : i.range.addr.val < i.range.addr.next.next.val := by omega
    refine ⟨.of_contains hcont hafter fun h4 => ?_, hafter⟩
    exact hroomy.not_last ((is4_eq_of_bitLen (hlen'.trans hlen)).symm.trans h4)
  · next hwrap =>
    rw [not_or, Bool.not_eq_false] at hwrap
    obtain ⟨hlast, hcont⟩ := hwrap
    obtain ⟨-, hval⟩ := next_spec (isValid_of_contains hcont)
    have hafter : i.range.addr.val < i.current.next.val := by
      have := hi.placed.after hcur
      omega
    refine ⟨.of_contains hcont hafter fun _ => ?_, hafter⟩
    rwa [← hi.last hvalid]

/-- Out of a narrow range other addresses are handed out, but none before the position that
the range begins with. -/
theorem placed_nextAddress (hi : i.Valid) (hcur : i.current.isValid) :
    Placed i.range i.nextAddress := by
  obtain ⟨hvalid, hnext⟩ := hi.placed.valid hcur
  have hafter := hi.placed.after hcur
  have hfamily := hi.placed.family hcur
  unfold Inet.nextAddress
  dsimp only
  split
  · obtain ⟨hlen, hval⟩ := next_spec hnext
    refine ⟨fun _ => ⟨hvalid, hnext⟩, fun h => ?_, fun h => ?_⟩
    · exact (next_spec h).1.trans hlen
    · have := (next_spec h).2
      omega
  · refine ⟨fun _ => ⟨hvalid, hnext⟩, fun h => ?_, fun h => ?_⟩
    · exact (next_spec h).1.trans hfamily
    · have := (next_spec h).2
      omega

@[simp] lemma range_begin (i : Inet) : i.begin.range = i.range := by
  unfold Inet.begin
  split <;> rfl

lemma valid_begin (p : Prefix) : (newInet p).begin.Valid := by
  unfold Inet.begin newInet
  dsimp only
  split
  · next hval =>
    refine ⟨fun _ => rfl, fun h => ⟨hval, h⟩, fun h => (next_spec h).1, fun h => ?_⟩
    have := (next_spec h).2
    dsimp only
    omega
  · next hval => exact ⟨fun h => absurd h hval, ⟨nofun, nofun, nofun⟩⟩

/-- The range that was given decides where a new store begins: it is roomy just if the first
address is one to hand out. -/
theorem inPool_begin_iff (hnext : (newInet p).begin.current.isValid) :
    InPool p (newInet p).begin.nextAddress ↔ Roomy p := by
  have hrange : (newInet p).begin.range = p := range_begin _
  have hval : p.isValid ∧ p.addr.next.isValid := by
    have := (valid_begin p).placed.valid hnext
    rwa [hrange] at this
  have hbegin : (newInet p).begin =
      { range := p, last := broadcastAddress p, current := p.addr.next } := by
    simp [Inet.begin, newInet, if_pos hval.1]
  have hfirst : (newInet p).begin.nextAddress = p.addr.next.next := by
    rw [hbegin, Inet.nextAddress, ite_self]
  constructor
  · intro h
    rw [hfirst] at h
    refine ⟨fun _ => h.contained, fun h4 heq => ?_⟩
    have hlen := (Prefix.contains_iff.mp h.contained).2.1
    obtain ⟨b, hb, hlt⟩ := h.not_last ((is4_eq_of_bitLen hlen).trans h4)
    have := val_le_broadcastAddress hb
    rw [heq] at hlt
    omega
  · intro h
    have := (inPool_nextAddress (hrange.symm ▸ h) (valid_begin p) hnext).1
    rwa [hrange] at this

end FakeIp

end SingBox.Dns
