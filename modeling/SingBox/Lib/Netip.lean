import Mathlib.Data.List.TakeWhile
import SingBox.Lib.Codec

/-! IP addresses and their text: reading every spelling there is, and writing the one that
is canonical. -/

namespace SingBox.Lib.Netip
open List Nat Option
open BitVec (ofNat ofNat_toNat setWidth_eq)

/-- `netip.Addr` that is valid. Only an IPv6 address has a zone, and none is the empty one. -/
inductive Addr
  | v4 (bits : BitVec 32)
  | v6 (bits : BitVec 128) (zone : Bytes)
  deriving DecidableEq

def Addr.is4 : Addr → Bool
  | .v4 _ => true
  | .v6 _ _ => false

def Addr.withoutZone : Addr → Addr
  | .v4 bits => .v4 bits
  | .v6 bits _ => .v6 bits []

def dot : UInt8 := 46
def colon : UInt8 := 58
def percent : UInt8 := 37

def digitByte (d : Nat) : UInt8 := UInt8.ofNat (if d < 10 then 48 + d else 87 + d)

/-- A number in a base of at most 16, in lower case and without leading zeros; the first
argument bounds the number of digits. -/
def numeral (base : Nat) : Nat → Nat → Bytes
  | 0, _ => []
  | fuel + 1, n =>
    if n < base then [digitByte n]
    else numeral base fuel (n / base) ++ [digitByte (n % base)]

def decDigit (c : UInt8) : Option Nat :=
  if 48 ≤ c.toNat ∧ c.toNat ≤ 57 then some (c.toNat - 48) else none

def hexDigit (c : UInt8) : Option Nat :=
  if 48 ≤ c.toNat ∧ c.toNat ≤ 57 then some (c.toNat - 48)
  else if 97 ≤ c.toNat ∧ c.toNat ≤ 102 then some (c.toNat - 87)
  else if 65 ≤ c.toNat ∧ c.toNat ≤ 70 then some (c.toNat - 55)
  else none

/-- The loop of `parseIPv4Fields`: the octets so far, the value of the one that is being
read and the number of its digits. -/
def parseIPv4Fields : Bytes → List Nat → Nat → Nat → Option (List Nat)
  | [], fields, val, _ => if fields.length < 3 then none else some (fields ++ [val])
  | c :: s, fields, val, digLen =>
    match decDigit c with
    | some d =>
      -- an octet has no leading zero and is below 256
      if digLen = 1 ∧ val = 0 then none
      else if val * 10 + d > 255 then none
      else parseIPv4Fields s fields (val * 10 + d) (digLen + 1)
    | none =>
      if c ≠ dot then none
      else if digLen = 0 ∨ s = [] then none
      else if fields.length = 3 then none
      else parseIPv4Fields s (fields ++ [val]) 0 0

/-- The digits of base 65536 or 256, the highest first, as a number. -/
def ofGroups (base : Nat) (groups : List Nat) : Nat :=
  groups.foldl (fun n group => n * base + group) 0

def toGroups (base : Nat) : Nat → Nat → List Nat
  | 0, _ => []
  | k + 1, n => toGroups base k (n / base) ++ [n % base]

variable (groups : List Nat) (s : Bytes)

def parseIPv4 : Option Addr :=
  (parseIPv4Fields s [] 0 0).map fun fields => .v4 (ofNat 32 (ofGroups 256 fields))

/-- The digits of one field, at most four: their value, their number and what follows. -/
def takeHex : Bytes → Nat → Nat → Option (Nat × Nat × Bytes)
  | [], off, acc => some (acc, off, [])
  | c :: s, off, acc =>
    match hexDigit c with
    | none => some (acc, off, c :: s)
    | some d => if off > 3 then none else takeHex s (off + 1) (acc * 16 + d)

/-- The loop of `parseIPv6`: the text that is left, the groups so far and before which of
them the ellipsis stands. The first argument is how many groups there is room for. -/
def parseIPv6Loop : Nat → Bytes → List Nat → Option Nat → Option (Bytes × List Nat × Option Nat)
  | 0, s, groups, ellipsis => some (s, groups, ellipsis)
  | room + 1, s, groups, ellipsis =>
    match takeHex s 0 0 with
    | none => none
    | some (acc, off, rest) =>
      if off = 0 then none
      else if rest.head? = some dot then
        -- an IPv4 address in place of the last two groups
        if ellipsis.isNone ∧ groups.length ≠ 6 then none
        else if room = 0 then none
        else (parseIPv4Fields s [] 0 0).map fun fields =>
          ([], groups ++ toGroups 65536 2 (ofGroups 256 fields), ellipsis)
      else
        match rest with
        | [] => some ([], groups ++ [acc], ellipsis)
        | c :: s =>
          if c ≠ colon then none
          else if s = [] then none
          else if s.head? = some colon then
            if ellipsis.isSome then none
            else if s.tail = [] then some ([], groups ++ [acc], some (groups.length + 1))
            else parseIPv6Loop room s.tail (groups ++ [acc]) (some (groups.length + 1))
          else parseIPv6Loop room s (groups ++ [acc]) ellipsis

/-- The end of `parseIPv6`: all of the text was used, and the ellipsis stands for at least
one group. -/
def expandEllipsis : Bytes × List Nat × Option Nat → Option (List Nat)
  | (_ :: _, _, _) => none
  | ([], groups, none) => if groups.length < 8 then none else some groups
  | ([], groups, some place) =>
    if groups.length < 8 then
      some (groups.take place ++ replicate (8 - groups.length) 0 ++ groups.drop place)
    else none

def parseIPv6Groups : Option (List Nat) :=
  if s.take 2 = [colon, colon] then
    if s.drop 2 = [] then some (replicate 8 0)
    else (parseIPv6Loop 8 (s.drop 2) [] (some 0)).bind expandEllipsis
  else (parseIPv6Loop 8 s [] none).bind expandEllipsis

def parseIPv6 : Option Addr :=
  let address := s.takeWhile (· ≠ percent)
  let zone := (s.dropWhile (· ≠ percent)).tail
  if address ≠ s ∧ zone = [] then none
  else (parseIPv6Groups address).map fun groups => .v6 (ofNat 128 (ofGroups 65536 groups)) zone

/-- `netip.ParseAddr`: the first byte of the three decides. -/
def parseAddr : Option Addr :=
  match s.find? fun c => c = dot ∨ c = colon ∨ c = percent with
  | none => none
  | some c => if c = dot then parseIPv4 s else if c = colon then parseIPv6 s else none

variable (sep : UInt8)

def join (texts : List Bytes) : Bytes := (texts.intersperse [sep]).flatten

def text4 (bits : BitVec 32) : Bytes := join dot ((toGroups 256 4 bits.toNat).map (numeral 10 3))

/-- How many groups from there on are zero. -/
def zeroRunAt (i : Nat) : Nat := ((groups.drop i).takeWhile (· = 0)).length

/-- Where the longest run of zeros starts and its length, the first one of those that are
longest; a single zero is no run. -/
def zeroRun : Nat × Nat :=
  (range 8).foldl (fun run i =>
    if 2 ≤ zeroRunAt groups i ∧ run.2 < zeroRunAt groups i then (i, zeroRunAt groups i) else run)
    (0, 0)

def text6 : Bytes :=
  let texts := groups.map (numeral 16 4)
  let (start, length) := zeroRun groups
  if length = 0 then join colon texts
  else join colon (texts.take start) ++ [colon, colon] ++ join colon (texts.drop (start + length))

/-- `Addr.String`. -/
def Addr.text : Addr → Bytes
  | .v4 bits => text4 bits
  | .v6 bits zone =>
    let suffix := if zone = [] then [] else percent :: zone
    if bits.toNat / 2 ^ 32 = 0xffff then
      [colon, colon, 102, 102, 102, 102, colon] ++ text4 (bits.setWidth 32) ++ suffix
    else text6 (toGroups 65536 8 bits.toNat) ++ suffix

section Digits

lemma hexDigit_digitByte : ∀ d < 16, hexDigit (digitByte d) = some d := by decide

/-- A digit is none of the bytes that part an address. -/
theorem digitByte_plain : ∀ d < 16,
    digitByte d ≠ dot ∧ digitByte d ≠ colon ∧ digitByte d ≠ percent := by decide

variable {base : Nat}

lemma mem_numeral (hbase : 0 < base) {fuel n : Nat} {c : UInt8}
    (hc : c ∈ numeral base fuel n) : ∃ d < base, c = digitByte d := by
  induction fuel generalizing n with
  | zero => cases hc
  | succ fuel ih =>
    unfold numeral at hc
    split at hc
    · exact ⟨n, ‹_›, mem_singleton.mp hc⟩
    · obtain hc | hc := mem_append.mp hc
      · exact ih hc
      · exact ⟨n % base, mod_lt n hbase, mem_singleton.mp hc⟩

variable (fuel n : Nat)

lemma numeral_ne_nil : numeral base (fuel + 1) n ≠ [] := by
  unfold numeral
  split <;> simp

lemma length_numeral_ne_zero : (numeral base (fuel + 1) n).length ≠ 0 :=
  fun h => numeral_ne_nil fuel n (length_eq_zero_iff.mp h)

lemma length_numeral_le : (numeral base fuel n).length ≤ fuel := by
  induction fuel generalizing n with
  | zero => exact le_refl 0
  | succ fuel ih =>
    unfold numeral
    split
    · simp
    · have := ih (n / base)
      simp only [length_append, length_singleton]
      omega

end Digits

section Groups

variable {base : Nat}

@[simp] lemma length_toGroups (count n : Nat) : (toGroups base count n).length = count := by
  induction count generalizing n with
  | zero => rfl
  | succ count ih => simp [toGroups, ih]

lemma lt_of_mem_toGroups (hbase : 0 < base) {count n group : Nat}
    (hg : group ∈ toGroups base count n) : group < base := by
  induction count generalizing n with
  | zero => cases hg
  | succ count ih =>
    obtain hg | hg := mem_append.mp hg
    · exact ih hg
    · rw [mem_singleton.mp hg]
      exact mod_lt n hbase

lemma ofGroups_append_singleton (groups : List Nat) (group : Nat) :
    ofGroups base (groups ++ [group]) = ofGroups base groups * base + group := by
  simp [ofGroups]

lemma ofGroups_toGroups {count n : Nat} (h : n < base ^ count) :
    ofGroups base (toGroups base count n) = n := by
  induction count generalizing n with
  | zero => simp_all [ofGroups, toGroups]
  | succ count ih =>
    have hdiv : n / base < base ^ count := Nat.div_lt_of_lt_mul (by rwa [Nat.pow_succ'] at h)
    rw [toGroups, ofGroups_append_singleton, ih hdiv, div_add_mod']

end Groups

section Decimal

lemma parseIPv4Fields_numeral {n : Nat} (h : n < 256) (rest : Bytes) (fields : List Nat) :
    parseIPv4Fields (numeral 10 3 n ++ rest) fields 0 0 =
      parseIPv4Fields rest fields n (numeral 10 3 n).length := by
  have hdigit : ∀ d < 10, decDigit (digitByte d) = some d := by decide
  by_cases h1 : n < 10
  · simp [numeral, h1, parseIPv4Fields, hdigit n h1, show ¬ 255 < n by omega]
  · by_cases h2 : n / 10 < 10
    · have hval : n / 10 * 10 + n % 10 = n := div_add_mod' n 10
      simp [numeral, h1, h2, parseIPv4Fields, hdigit _ h2, hdigit (n % 10) (by omega), hval,
        show ¬ 255 < n / 10 by omega, show ¬ 255 < n by omega, show n / 10 ≠ 0 by omega]
    · have hval := div_add_mod' (n / 10) 10
      have hval' : n / 10 * 10 + n % 10 = n := div_add_mod' n 10
      have h3 : n / 10 / 10 < 10 := by omega
      simp [numeral, h1, h2, h3, parseIPv4Fields, hdigit _ h3, hdigit (n / 10 % 10) (by omega),
        hdigit (n % 10) (by omega), hval, hval', show ¬ 255 < n / 10 / 10 by omega,
        show ¬ 255 < n / 10 by omega, show ¬ 255 < n by omega, show n / 10 / 10 ≠ 0 by omega]

variable {fields : List Nat}

lemma parseIPv4Fields_dot {s : Bytes} (hs : s ≠ [])
    (hf : fields.length < 3) (val : Nat) {digLen : Nat} (hd : digLen ≠ 0) :
    parseIPv4Fields (dot :: s) fields val digLen = parseIPv4Fields s (fields ++ [val]) 0 0 := by
  have hdot : decDigit dot = none := by decide
  simp [parseIPv4Fields, hdot, hs, hd, show fields.length ≠ 3 by omega]

variable (sep : UInt8) (bits : BitVec 32)

@[simp] lemma join_singleton (text : Bytes) : join sep [text] = text := by
  simp [join]

@[simp] lemma join_cons_cons (text text' : Bytes) (texts : List Bytes) :
    join sep (text :: text' :: texts) = text ++ sep :: join sep (text' :: texts) := by
  simp [join]

lemma join_ne_nil {text : Bytes} (h : text ≠ []) (texts : List Bytes) :
    join sep (text :: texts) ≠ [] := by
  cases texts with
  | nil => simpa using h
  | cons text' texts => simp [h]

lemma parseIPv4Fields_join (hlt : ∀ n ∈ fields, n < 256)
    (hne : fields ≠ []) {before : List Nat} (hlen : before.length + fields.length = 4) :
    parseIPv4Fields (join dot (fields.map (numeral 10 3))) before 0 0 = some (before ++ fields) := by
  induction fields generalizing before with
  | nil => exact absurd rfl hne
  | cons n fields ih =>
    have hn : n < 256 := hlt n mem_cons_self
    cases fields with
    | nil =>
      have hb : ¬ before.length < 3 := by simp at hlen; omega
      have := parseIPv4Fields_numeral hn [] before
      simpa [parseIPv4Fields, hb] using this
    | cons m fields =>
      have hb : before.length < 3 := by simp at hlen; omega
      rw [map_cons, map_cons, join_cons_cons, parseIPv4Fields_numeral hn,
        parseIPv4Fields_dot (join_ne_nil dot (numeral_ne_nil 2 m) _) hb n
          (length_numeral_ne_zero 2 n), ← map_cons,
        ih (fun k hk => hlt k (mem_cons_of_mem n hk)) (cons_ne_nil m fields)
          (by simp at hlen ⊢; omega)]
      simp

lemma parseIPv4Fields_text4 :
    parseIPv4Fields (text4 bits) [] 0 0 = some (toGroups 256 4 bits.toNat) :=
  parseIPv4Fields_join (fun _ => lt_of_mem_toGroups (by decide))
    (ne_nil_of_length_pos (by simp)) (by simp)

lemma ofGroups_octets : ofGroups 256 (toGroups 256 4 bits.toNat) = bits.toNat :=
  ofGroups_toGroups bits.isLt

end Decimal

section Hexadecimal

/-- What the digits stand for, after those that `acc` stands for. -/
def hexValue (acc : Nat) (s : Bytes) : Nat :=
  s.foldl (fun acc c => acc * 16 + (hexDigit c).getD 0) acc

lemma hexValue_numeral {fuel n : Nat} (h : n < 16 ^ fuel) : hexValue 0 (numeral 16 fuel n) = n := by
  induction fuel generalizing n with
  | zero => simp_all [numeral, hexValue]
  | succ fuel ih =>
    unfold numeral
    split
    · simp [hexValue, hexDigit_digitByte n ‹_›]
    · have hdiv : n / 16 < 16 ^ fuel := Nat.div_lt_of_lt_mul (by rwa [Nat.pow_succ'] at h)
      have happ : hexValue 0 (numeral 16 fuel (n / 16) ++ [digitByte (n % 16)]) =
          hexValue 0 (numeral 16 fuel (n / 16)) * 16 + n % 16 := by
        simp [hexValue, hexDigit_digitByte (n % 16) (mod_lt n (by decide))]
      rw [happ, ih hdiv, div_add_mod']

lemma takeHex_append {digits rest : Bytes} (hdigits : ∀ c ∈ digits, (hexDigit c).isSome)
    (hrest : ∀ c, rest.head? = some c → hexDigit c = none) {off : Nat}
    (hoff : off + digits.length ≤ 4) (acc : Nat) :
    takeHex (digits ++ rest) off acc = some (hexValue acc digits, off + digits.length, rest) := by
  induction digits generalizing off acc with
  | nil =>
    cases rest with
    | nil => rfl
    | cons c rest => simp [takeHex, hrest c rfl, hexValue]
  | cons c digits ih =>
    obtain ⟨d, hd⟩ := isSome_iff_exists.mp (hdigits c mem_cons_self)
    have hlen : off + 1 + digits.length ≤ 4 := by simp at hoff; omega
    have := ih (fun c hc => hdigits c (mem_cons_of_mem _ hc)) hlen (acc * 16 + d)
    simp only [cons_append, takeHex, hd, show ¬ off > 3 by omega, if_false, this]
    simp [hexValue, hd]
    omega

lemma isSome_hexDigit_of_mem_numeral {base fuel n : Nat} (hbase : 0 < base) (hle : base ≤ 16)
    {c : UInt8} (hc : c ∈ numeral base fuel n) : (hexDigit c).isSome := by
  obtain ⟨d, hd, rfl⟩ := mem_numeral hbase hc
  rw [hexDigit_digitByte d (lt_of_lt_of_le hd hle)]
  rfl

lemma takeHex_numeral {n : Nat} (h : n < 65536) (rest : Bytes)
    (hrest : ∀ c, rest.head? = some c → hexDigit c = none) :
    takeHex (numeral 16 4 n ++ rest) 0 0 = some (n, (numeral 16 4 n).length, rest) := by
  have hlen : (numeral 16 4 n).length ≤ 4 := length_numeral_le 4 n
  rw [takeHex_append (fun c => isSome_hexDigit_of_mem_numeral (by decide) (by decide)) hrest
    (by omega), hexValue_numeral h, Nat.zero_add]

lemma hexDigit_dot : hexDigit dot = none := by decide

lemma hexDigit_colon : hexDigit colon = none := by decide

lemma takeHex_colon {n : Nat} (h : n < 65536) (s : Bytes) :
    takeHex (numeral 16 4 n ++ colon :: s) 0 0 = some (n, (numeral 16 4 n).length, colon :: s) := by
  apply takeHex_numeral h
  rintro _ ⟨⟩
  exact hexDigit_colon

lemma head_numeral {base : Nat} (hbase : 0 < base) (hle : base ≤ 16) (fuel n : Nat)
    (rest : Bytes) : ∃ c, (numeral base (fuel + 1) n ++ rest).head? = some c ∧
        (hexDigit c).isSome := by
  obtain ⟨c, s, hs⟩ := exists_cons_of_ne_nil (@numeral_ne_nil base fuel n)
  refine ⟨c, by rw [hs]; rfl, ?_⟩
  exact isSome_hexDigit_of_mem_numeral hbase hle (hs ▸ mem_cons_self)

def joinGroups (groups : List Nat) : Bytes := join colon (groups.map (numeral 16 4))

section
variable (g : Nat) (groups : List Nat) (rest : Bytes)

lemma joinGroups_cons_cons (g' : Nat) :
    joinGroups (g :: g' :: groups) = numeral 16 4 g ++ colon :: joinGroups (g' :: groups) :=
  join_cons_cons ..

lemma head_joinGroups :
    ∃ c, (joinGroups (g :: groups) ++ rest).head? = some c ∧ (hexDigit c).isSome := by
  cases groups with
  | nil => simpa [joinGroups] using head_numeral (by decide) (by decide) 3 g rest
  | cons g' groups =>
    rw [joinGroups_cons_cons, append_assoc]
    exact head_numeral (by decide) (by decide) 3 g _

lemma joinGroups_ne_nil : joinGroups (g :: groups) ≠ [] := join_ne_nil colon (numeral_ne_nil 3 g) _

lemma head_joinGroups_ne_colon : (joinGroups (g :: groups) ++ rest).head? ≠ some colon := by
  obtain ⟨c, hc, hsome⟩ := head_joinGroups g groups rest
  intro h
  rw [hc] at h
  simp [some.inj h, hexDigit_colon] at hsome

end

/-- One turn for a group that another one follows. -/
theorem parseIPv6Loop_group {g : Nat} (hg : g < 65536) {s : Bytes} (hs : s ≠ [])
    (hcolon : s.head? ≠ some colon) (room : Nat) (groups : List Nat) (ellipsis : Option Nat) :
    parseIPv6Loop (room + 1) (numeral 16 4 g ++ colon :: s) groups ellipsis =
      parseIPv6Loop room s (groups ++ [g]) ellipsis := by
  have hoff : (numeral 16 4 g).length ≠ 0 := length_numeral_ne_zero 3 g
  rw [parseIPv6Loop, takeHex_colon hg]
  simp [hoff, hs, hcolon, show colon ≠ dot by decide]

/-- One turn for the last group before the ellipsis. -/
theorem parseIPv6Loop_ellipsis {g : Nat} (hg : g < 65536) (s : Bytes) (room : Nat)
    (groups : List Nat) :
    parseIPv6Loop (room + 1) (numeral 16 4 g ++ colon :: colon :: s) groups none =
      if s = [] then some ([], groups ++ [g], some (groups.length + 1))
      else parseIPv6Loop room s (groups ++ [g]) (some (groups.length + 1)) := by
  have hoff : (numeral 16 4 g).length ≠ 0 := length_numeral_ne_zero 3 g
  rw [parseIPv6Loop, takeHex_colon hg]
  by_cases hs : s = [] <;> simp [hoff, hs, show colon ≠ dot by decide]

variable {gs : List Nat}

lemma parseIPv6Loop_joinGroups (hlt : ∀ g ∈ gs, g < 65536) (hne : gs ≠ [])
    {room : Nat} (hroom : gs.length ≤ room) (groups : List Nat) (ellipsis : Option Nat) :
    parseIPv6Loop room (joinGroups gs) groups ellipsis = some ([], groups ++ gs, ellipsis) := by
  induction gs generalizing room groups with
  | nil => exact absurd rfl hne
  | cons g gs ih =>
    obtain ⟨room, rfl⟩ := exists_eq_add_one_of_ne_zero
      (show room ≠ 0 by simp at hroom; omega)
    have hg : g < 65536 := hlt g mem_cons_self
    cases gs with
    | nil =>
      have hoff : (numeral 16 4 g).length ≠ 0 := length_numeral_ne_zero 3 g
      have htake := takeHex_numeral hg [] nofun
      rw [append_nil] at htake
      simp [joinGroups, parseIPv6Loop, htake, hoff]
    | cons g' gs =>
      rw [joinGroups_cons_cons, parseIPv6Loop_group hg (joinGroups_ne_nil g' gs)
        (by simpa using head_joinGroups_ne_colon g' gs []),
        ih (fun k hk => hlt k (mem_cons_of_mem g hk)) (cons_ne_nil g' gs)
          (by simp at hroom ⊢; omega)]
      simp

lemma parseIPv6Loop_joinGroups_ellipsis (hlt : ∀ g ∈ gs, g < 65536)
    (hne : gs ≠ []) (s : Bytes) (room : Nat) (groups : List Nat) :
    parseIPv6Loop (room + gs.length) (joinGroups gs ++ [colon, colon] ++ s) groups none =
      if s = [] then some ([], groups ++ gs, some (groups.length + gs.length))
      else parseIPv6Loop room s (groups ++ gs) (some (groups.length + gs.length)) := by
  induction gs generalizing groups with
  | nil => exact absurd rfl hne
  | cons g gs ih =>
    have hg : g < 65536 := hlt g mem_cons_self
    cases gs with
    | nil => simpa [joinGroups] using parseIPv6Loop_ellipsis hg s room groups
    | cons g' gs =>
      have hroom : room + (g :: g' :: gs).length = room + (g' :: gs).length + 1 := by simp; omega
      have htext : joinGroups (g :: g' :: gs) ++ [colon, colon] ++ s =
          numeral 16 4 g ++ colon :: (joinGroups (g' :: gs) ++ [colon, colon] ++ s) := by
        rw [joinGroups_cons_cons]
        simp
      have hcolon : (joinGroups (g' :: gs) ++ [colon, colon] ++ s).head? ≠ some colon := by
        rw [append_assoc]
        exact head_joinGroups_ne_colon g' gs _
      rw [hroom, htext, parseIPv6Loop_group hg (by simp) hcolon,
        ih (fun k hk => hlt k (mem_cons_of_mem g hk)) (cons_ne_nil g' gs)]
      simp [Nat.add_assoc, Nat.add_comm 1]

end Hexadecimal

section Ellipsis

/-- A run of zeros that an ellipsis may stand for. -/
def IsRun (groups : List Nat) (run : Nat × Nat) : Prop :=
  2 ≤ run.2 ∧ groups.drop run.1 = replicate run.2 0 ++ groups.drop (run.1 + run.2)

lemma drop_zeroRunAt (groups : List Nat) (i : Nat) :
    groups.drop i = replicate (zeroRunAt groups i) 0 ++ groups.drop (i + zeroRunAt groups i) := by
  have hzero : (groups.drop i).takeWhile (· = 0) = replicate (zeroRunAt groups i) 0 :=
    eq_replicate_of_mem fun g hg => by simpa using mem_takeWhile_imp hg
  have hsplit : replicate (zeroRunAt groups i) 0 ++ (groups.drop i).dropWhile (· = 0) =
      groups.drop i := by rw [← hzero, takeWhile_append_dropWhile]
  have hrest := congrArg (drop (zeroRunAt groups i)) hsplit
  rw [drop_left' length_replicate, drop_drop] at hrest
  rw [← hrest, hsplit]

lemma zeroRun_isRun (groups : List Nat) :
    (zeroRun groups).2 = 0 ∨ IsRun groups (zeroRun groups) := by
  apply foldlRecOn (motive := fun run => run.2 = 0 ∨ IsRun groups run)
  · exact Or.inl rfl
  intro run hrun i _
  split
  · exact Or.inr ⟨‹_ ∧ _›.1, drop_zeroRunAt groups i⟩
  · exact hrun

variable {groups : List Nat}

/-- The text of groups, with an ellipsis in place of a run of zeros or without one. -/
theorem text6_cases (groups : List Nat) : text6 groups = joinGroups groups ∨
    ∃ before length after, 0 < length ∧ groups = before ++ replicate length 0 ++ after ∧
      text6 groups = joinGroups before ++ [colon, colon] ++ joinGroups after := by
  obtain hrun | ⟨htwo, hdrop⟩ := zeroRun_isRun groups
  · left
    simp [text6, hrun, joinGroups]
  · refine .inr ⟨groups.take (zeroRun groups).1, (zeroRun groups).2,
      groups.drop ((zeroRun groups).1 + (zeroRun groups).2), by omega, ?_, ?_⟩
    · rw [append_assoc, ← hdrop, take_append_drop]
    · have hne : (zeroRun groups).2 ≠ 0 := by omega
      simp [text6, hne, joinGroups, map_take, map_drop]

lemma take_two_joinGroups (g : Nat) (gs : List Nat) (rest : Bytes) :
    (joinGroups (g :: gs) ++ rest).take 2 ≠ [colon, colon] := by
  intro h
  have hhead := head_joinGroups_ne_colon g gs rest
  cases hs : joinGroups (g :: gs) ++ rest with
  | nil => rw [hs] at h; cases h
  | cons c s =>
    rw [hs] at h hhead
    exact hhead (congrArg some (cons.inj h).1)

lemma parseIPv6Groups_ellipsis {before after : List Nat} {length : Nat}
    (hlen : before.length + length + after.length = 8) (hlength : 0 < length)
    (hbefore : ∀ g ∈ before, g < 65536) (hafter : ∀ g ∈ after, g < 65536) :
    parseIPv6Groups (joinGroups before ++ [colon, colon] ++ joinGroups after) =
      some (before ++ replicate length 0 ++ after) := by
  cases before with
  | nil =>
    cases after with
    | nil =>
      obtain rfl : length = 8 := by simpa using hlen
      rfl
    | cons g gs =>
      have hroom : (g :: gs).length ≤ 8 := by omega
      have hzeros : 8 - (g :: gs).length = length := by simp at hlen ⊢; omega
      have hlt : (g :: gs).length < 8 := by omega
      have htake : (colon :: colon :: joinGroups (g :: gs)).take 2 = [colon, colon] := rfl
      change parseIPv6Groups (colon :: colon :: joinGroups (g :: gs)) = _
      rw [parseIPv6Groups, if_pos htake, drop_succ_cons, drop_succ_cons, drop_zero,
        if_neg (joinGroups_ne_nil g gs),
        parseIPv6Loop_joinGroups hafter (cons_ne_nil g gs) hroom, bind_some,
        nil_append, expandEllipsis, if_pos hlt, hzeros]
      rfl
  | cons b bs =>
    have htake : (joinGroups (b :: bs) ++ [colon, colon] ++ joinGroups after).take 2 ≠
        [colon, colon] := by
      rw [append_assoc]
      exact take_two_joinGroups b bs _
    have hroom : 8 = length + after.length + (b :: bs).length := by omega
    rw [parseIPv6Groups, if_neg htake, hroom,
      parseIPv6Loop_joinGroups_ellipsis hbefore (cons_ne_nil b bs), nil_append,
      length_nil, Nat.zero_add]
    cases after with
    | nil =>
      have hlt : (b :: bs).length < 8 := by simp at hlen ⊢; omega
      have hzeros : 8 - (b :: bs).length = length := by simp at hlen ⊢; omega
      have hnil : joinGroups [] = [] := rfl
      rw [if_pos hnil, bind_some, expandEllipsis, if_pos hlt, hzeros]
      simp
    | cons g gs =>
      have hlt : (b :: bs ++ g :: gs).length < 8 := by simp at hlen ⊢; omega
      have hzeros : 8 - (b :: bs ++ g :: gs).length = length := by simp at hlen ⊢; omega
      rw [if_neg (joinGroups_ne_nil g gs),
        parseIPv6Loop_joinGroups hafter (cons_ne_nil g gs) (by omega), bind_some,
        expandEllipsis, if_pos hlt, hzeros, take_left, drop_left]

/-- The canonical text of eight groups is read as these groups. -/
theorem parseIPv6Groups_text6 (hlen : groups.length = 8) (hlt : ∀ g ∈ groups, g < 65536) :
    parseIPv6Groups (text6 groups) = some groups := by
  obtain htext | ⟨before, length, after, hpos, rfl, htext⟩ := text6_cases groups
  · obtain ⟨g, gs, rfl⟩ := exists_cons_of_ne_nil
      (ne_nil_of_length_pos (show 0 < groups.length by omega))
    have htake : (joinGroups (g :: gs)).take 2 ≠ [colon, colon] := by
      simpa using take_two_joinGroups g gs []
    rw [htext, parseIPv6Groups, if_neg htake,
      parseIPv6Loop_joinGroups hlt (cons_ne_nil g gs) (le_of_eq hlen)]
    simp [expandEllipsis, hlen]
  · rw [htext]
    apply parseIPv6Groups_ellipsis _ hpos
    · exact fun g hg => hlt g (mem_append_left _ (mem_append_left _ hg))
    · exact fun g hg => hlt g (mem_append_right _ hg)
    · simpa [Nat.add_assoc] using hlen

end Ellipsis

section Text

lemma mem_join {sep c : UInt8} {texts : List Bytes} (hc : c ∈ join sep texts) :
    c = sep ∨ ∃ text ∈ texts, c ∈ text := by
  induction texts with
  | nil => cases hc
  | cons text texts ih =>
    cases texts with
    | nil => exact Or.inr ⟨text, mem_singleton_self text, by simpa using hc⟩
    | cons text' texts =>
      obtain hc | hc := mem_append.mp hc
      · exact Or.inr ⟨text, mem_cons_self, hc⟩
      obtain hc | hc := mem_cons.mp hc
      · exact Or.inl hc
      obtain hc | ⟨found, hmem, hc⟩ := ih hc
      · exact Or.inl hc
      · exact Or.inr ⟨found, mem_cons_of_mem text hmem, hc⟩

/-- None of the bytes that `parseAddr` looks for, apart from one of them. -/
def OnlySep (s : Bytes) : Prop :=
  ∀ c ∈ s, c = sep ∨ (c ≠ dot ∧ c ≠ colon ∧ c ≠ percent)

lemma onlySep_join_numeral {base fuel : Nat} (hbase : 0 < base) (hle : base ≤ 16)
    (groups : List Nat) : OnlySep sep (join sep (groups.map (numeral base fuel))) := by
  intro c hc
  obtain hc | ⟨text, htext, hc⟩ := mem_join hc
  · exact Or.inl hc
  · obtain ⟨n, -, rfl⟩ := mem_map.mp htext
    obtain ⟨d, hd, rfl⟩ := mem_numeral hbase hc
    exact Or.inr (digitByte_plain d (lt_of_lt_of_le hd hle))

variable {s : Bytes} {sep : UInt8}

lemma OnlySep.find (hs : OnlySep sep s) (hmem : sep ∈ s)
    (hsep : sep = dot ∨ sep = colon ∨ sep = percent) :
    (s.find? fun c => c = dot ∨ c = colon ∨ c = percent) = some sep := by
  induction s with
  | nil => cases hmem
  | cons c s ih =>
    obtain rfl | ⟨h1, h2, h3⟩ := hs c mem_cons_self
    · simp [hsep]
    · have hne : sep ≠ c := by rintro rfl; tauto
      rw [find?_cons_of_neg (by simp [h1, h2, h3])]
      exact ih (fun c hc => hs c (mem_cons_of_mem _ hc)) ((mem_cons.mp hmem).resolve_left hne)

variable (bits : BitVec 32)

lemma onlySep_text4 : OnlySep dot (text4 bits) := onlySep_join_numeral dot (by decide) (by decide) _

lemma onlySep_text6 (groups : List Nat) : OnlySep colon (text6 groups) := by
  obtain htext | ⟨before, length, after, -, -, htext⟩ := text6_cases groups
  · rw [htext]
    exact onlySep_join_numeral colon (by decide) (by decide) _
  · rw [htext]
    intro c hc
    obtain hc | hc := mem_append.mp hc
    · obtain hc | hc := mem_append.mp hc
      · exact onlySep_join_numeral colon (by decide) (by decide) _ c hc
      · left
        simpa using hc
    · exact onlySep_join_numeral colon (by decide) (by decide) _ c hc

lemma colon_mem_text6 {groups : List Nat} (hlen : groups.length = 8) : colon ∈ text6 groups := by
  obtain htext | ⟨before, length, after, -, -, htext⟩ := text6_cases groups
  · rw [htext]
    match groups, hlen with
    | a :: b :: groups, _ => simp [joinGroups]
  · rw [htext]
    simp

lemma exists_text4_eq : ∃ n s, text4 bits = numeral 10 3 n ++ dot :: s := by
  rw [text4]
  generalize hg : toGroups 256 4 bits.toNat = groups
  have hlen : groups.length = 4 := by rw [← hg, length_toGroups]
  match groups, hlen with
  | a :: b :: groups, _ => exact ⟨a, _, join_cons_cons ..⟩

lemma dot_mem_text4 : dot ∈ text4 bits := by
  obtain ⟨n, s, hs⟩ := exists_text4_eq bits
  rw [hs]
  simp

lemma parseIPv6Loop_text4 (room : Nat) (groups : List Nat) (place : Nat) :
    parseIPv6Loop (room + 2) (text4 bits) groups (some place) =
      some ([], groups ++ toGroups 65536 2 bits.toNat, some place) := by
  obtain ⟨n, s, hs⟩ := exists_text4_eq bits
  have hlen : (numeral 10 3 n).length ≤ 3 := length_numeral_le 3 n
  have hoff : (numeral 10 3 n).length ≠ 0 := length_numeral_ne_zero 2 n
  have htake : takeHex (numeral 10 3 n ++ dot :: s) 0 0 =
      some (hexValue 0 (numeral 10 3 n), 0 + (numeral 10 3 n).length, dot :: s) :=
    takeHex_append (fun c => isSome_hexDigit_of_mem_numeral (by decide) (by decide))
      (fun c hc => by cases hc; exact hexDigit_dot) (by omega) 0
  rw [← hs] at htake
  rw [parseIPv6Loop, htake, parseIPv4Fields_text4]
  simp [hoff, ofGroups_octets]

/-- What `parseIPv6` does with a text without a zone. -/
theorem parseIPv6_of_no_zone (hs : percent ∉ s) :
    parseIPv6 s = (parseIPv6Groups s).map fun groups =>
      .v6 (ofNat 128 (ofGroups 65536 groups)) [] := by
  have htake : s.takeWhile (· ≠ percent) = s := by
    rw [takeWhile_eq_self_iff]
    intro c hc
    simpa using fun h : c = percent => hs (h ▸ hc)
  have hdrop : s.dropWhile (· ≠ percent) = [] := by
    have := takeWhile_append_dropWhile (p := fun c => decide (c ≠ percent)) (l := s)
    rwa [htake, append_right_eq_self] at this
  simp only [parseIPv6, htake, hdrop, ne_eq, not_true_eq_false, false_and, if_false, tail_nil]

lemma OnlySep.percent_not_mem (hs : OnlySep sep s) (hsep : sep ≠ percent) : percent ∉ s := by
  intro h
  obtain h | ⟨-, -, h⟩ := hs percent h
  · exact hsep h.symm
  · exact h rfl

lemma ofNat_ofGroups_toGroups (bits : BitVec 128) :
    ofNat 128 (ofGroups 65536 (toGroups 65536 8 bits.toNat)) = bits := by
  have hlt : bits.toNat < 65536 ^ 8 := bits.isLt
  rw [ofGroups_toGroups hlt, ofNat_toNat, setWidth_eq]

lemma parseAddr_of_colon (h : (s.find? fun c => c = dot ∨ c = colon ∨ c = percent) = some colon) :
    parseAddr s = parseIPv6 s := by
  rw [parseAddr, h]
  rfl

lemma parseAddr_text6 (bits : BitVec 128) :
    parseAddr (text6 (toGroups 65536 8 bits.toNat)) = some (.v6 bits []) := by
  have honly := onlySep_text6 (toGroups 65536 8 bits.toNat)
  have hlen : (toGroups 65536 8 bits.toNat).length = 8 := length_toGroups 8 _
  rw [parseAddr_of_colon (honly.find (colon_mem_text6 hlen) (by decide)),
    parseIPv6_of_no_zone (honly.percent_not_mem (by decide)),
    parseIPv6Groups_text6 hlen fun _ => lt_of_mem_toGroups (by decide), map_some,
    ofNat_ofGroups_toGroups]

variable {bits : BitVec 128}

section
variable (h : bits.toNat / 2 ^ 32 = 0xffff)
include h

/-- An IPv4 address in IPv6 is the lower part of the address. -/
theorem ofGroups_mapped :
    ofGroups 65536 (replicate 5 0 ++ 0xffff :: toGroups 65536 2 (bits.setWidth 32).toNat) =
      bits.toNat := by
  have hlow := BitVec.toNat_setWidth 32 bits
  simp only [hlow, toGroups, ofGroups, replicate, nil_append, cons_append, foldl_cons, foldl_nil]
  omega

lemma parseAddr_mapped :
    parseAddr ([colon, colon, 102, 102, 102, 102, colon] ++ text4 (bits.setWidth 32)) =
      some (.v6 bits []) := by
  have hne : text4 (bits.setWidth 32) ≠ [] := ne_nil_of_mem (dot_mem_text4 _)
  have hhead : (text4 (bits.setWidth 32)).head? ≠ some colon := by
    intro hhead
    obtain h | ⟨-, h, -⟩ := onlySep_text4 _ colon (mem_of_mem_head? hhead)
    · exact absurd h (by decide)
    · exact h rfl
  have hgroup : numeral 16 4 0xffff = [102, 102, 102, 102] := by decide
  have hpercent : percent ∉ [colon, colon, 102, 102, 102, 102, colon] ++
      text4 (bits.setWidth 32) := by
    intro hmem
    obtain hmem | hmem := mem_append.mp hmem
    · exact absurd hmem (by decide)
    · exact (onlySep_text4 _).percent_not_mem (by decide) hmem
  have hgroups : parseIPv6Groups ([colon, colon, 102, 102, 102, 102, colon] ++
      text4 (bits.setWidth 32)) =
      some (replicate 5 0 ++ 0xffff :: toGroups 65536 2 (bits.setWidth 32).toNat) := by
    change (parseIPv6Loop 8 ([102, 102, 102, 102] ++ colon :: text4 (bits.setWidth 32)) []
      (some 0)).bind expandEllipsis = _
    rw [← hgroup, parseIPv6Loop_group (by decide) hne hhead, parseIPv6Loop_text4]
    simp [expandEllipsis]
  rw [parseAddr_of_colon rfl, parseIPv6_of_no_zone hpercent, hgroups, map_some, ofGroups_mapped h,
    ofNat_toNat, setWidth_eq]

end

/-- The text of an address without a zone is read as that address. -/
theorem parseAddr_text (a : Addr) : parseAddr a.withoutZone.text = some a.withoutZone := by
  cases a with
  | v4 bits =>
    change parseAddr (text4 bits) = some (.v4 bits)
    rw [parseAddr, (onlySep_text4 bits).find (dot_mem_text4 bits) (by decide)]
    rw [parseIPv4, parseIPv4Fields_text4, map_some, ofGroups_octets, ofNat_toNat, setWidth_eq]
    rfl
  | v6 bits zone =>
    simp only [Addr.withoutZone, Addr.text, if_true, append_nil]
    split
    · exact parseAddr_mapped ‹_›
    · exact parseAddr_text6 bits

end Text

end SingBox.Lib.Netip
