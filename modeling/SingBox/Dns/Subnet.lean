import SingBox.Dns.Message

/-! What `SetClientSubnet` does to a message. -/

namespace SingBox.Dns
open List Bool

/-- `Addr.Prefix`, on an address that has so many bits. -/
def Addr.masked (n : Nat) : Addr → Addr
  | .invalid => .invalid
  | .v4 bits => .v4 (bits >>> (32 - n) <<< (32 - n))
  | .v6 bits => .v6 (bits >>> (128 - n) <<< (128 - n))

def Prefix.masked (p : Prefix) : Prefix := { p with addr := p.addr.masked p.bits }

def EDNS0.isSubnet (option : EDNS0) : Bool := option.subnet?.isSome

def RR.hasSubnet (r : RR) : Bool := r.data.options.any EDNS0.isSubnet

/-- Whether the loop of `setClientSubnet` ends with an OPT record at hand. -/
def Msg.findsOPT (m : Msg) : Bool := m.extra.any RR.hasSubnet || m.extra.getLast?.any (·.data.isOPT)

/-- `setClientSubnet` without `clone`: what is returned, and what the message that was given
is then. A new record goes to a copy of the message, one that is there is changed in
place. -/
def setClientSubnetInPlace (message : Msg) (clientSubnet : Prefix) : Msg × Msg :=
  let changed := setClientSubnet message clientSubnet
  if message.findsOPT then (changed, changed) else (changed, message)

/-- `SetClientSubnet`: as `setClientSubnetInPlace`, but a record that is there is changed in
a copy of the message. -/
def setClientSubnetCloned (message : Msg) (clientSubnet : Prefix) : Msg × Msg :=
  if message.findsOPT then
    ((setClientSubnetInPlace message clientSubnet).1, message)
  else
    setClientSubnetInPlace message clientSubnet

def RR.withoutSubnet (r : RR) : RR := r.mapOptions (·.filter fun option => !option.isSubnet)

def emptyOPT : RR := { name := ".", rrtype := typeOPT, rclass := 0, ttl := 0, data := .opt [] }

/-- The message has the prefix as its client subnet, in one option of one OPT record, and
is otherwise the one that was given. -/
structure SetsSubnet (m changed : Msg) (p : Prefix) : Prop where
  header : { changed with extra := [] } = { m with extra := [] }
  oneOPT : (changed.extra.filter (·.data.isOPT)).length = 1
  oneSubnet : ∀ r ∈ changed.extra, r.data.isOPT = true →
    (r.data.options.filter EDNS0.isSubnet).length = 1
  found : clientSubnetFromMessage changed = some p.masked
  others : changed.extra.map RR.withoutSubnet = m.extra.map RR.withoutSubnet ++
    (if m.extra.any (·.data.isOPT) then [] else [emptyOPT])

/-- An OPT record without a subnet comes last, and no record has two. -/
structure Msg.TakesSubnet (m : Msg) : Prop where
  last : ∀ r ∈ m.extra.dropLast, r.data.isOPT = true → r.hasSubnet = true
  single : ∀ r ∈ m.extra, (r.data.options.filter EDNS0.isSubnet).length ≤ 1

/-! ## The options of the record -/

section Options

variable {p : Prefix}

@[simp] lemma EDNS0.isSubnet_subnet (q : Prefix) : (EDNS0.subnet q).isSubnet := rfl

@[simp] lemma EDNS0.isSubnet_padding (n) : (EDNS0.padding n).isSubnet = false := rfl

@[simp] lemma EDNS0.isSubnet_other (code data) : (EDNS0.other code data).isSubnet = false := rfl

variable (options : List EDNS0)

lemma filter_isSubnet_setSubnetOption : ((setSubnetOption p options).filter EDNS0.isSubnet).length =
      max 1 (options.filter EDNS0.isSubnet).length := by
  induction options with
  | nil => rfl
  | cons option options ih =>
    cases option with
    | subnet q =>
      rw [setSubnetOption, filter_cons_of_pos rfl, filter_cons_of_pos rfl, length_cons, length_cons]
      omega
    | padding | other => simpa [setSubnetOption] using ih

lemma filter_not_isSubnet_setSubnetOption :
    (setSubnetOption p options).filter (fun option => !option.isSubnet) =
      options.filter fun option => !option.isSubnet := by
  induction options with
  | nil => rfl
  | cons option options ih =>
    cases option with
    | subnet q => simp [setSubnetOption]
    | padding | other => simpa [setSubnetOption] using ih

lemma findSome_setSubnetOption : (setSubnetOption p options).findSome? EDNS0.subnet? = some p := by
  induction options with
  | nil => rfl
  | cons option options ih =>
    cases option with
    | subnet q => rfl
    | padding | other => exact ih

end Options

/-! ## The records of the message -/

section Records

variable {p : Prefix} {records before after : List RR} {r : RR}

lemma RData.options_of_not_isOPT {data : RData} (h : data.isOPT = false) : data.options = [] := by
  cases data with
  | opt options => cases h
  | _ => rfl

lemma RR.isOPT_of_hasSubnet (h : r.hasSubnet) : r.data.isOPT := by
  cases hopt : r.data.isOPT with
  | true => rfl
  | false => simp [RR.hasSubnet, RData.options_of_not_isOPT hopt] at h

lemma RR.mapOptions_data_isOPT (f : List EDNS0 → List EDNS0) (r : RR) :
    (r.mapOptions f).data.isOPT = r.data.isOPT := by
  unfold RR.mapOptions
  cases hdata : r.data with
  | opt options => rfl
  | _ => simp [hdata]

lemma RR.mapOptions_options {f : List EDNS0 → List EDNS0} (h : r.data.isOPT) :
    (r.mapOptions f).data.options = f r.data.options := by
  unfold RR.mapOptions
  cases hdata : r.data with
  | opt options => rfl
  | _ => simp [hdata, RData.isOPT] at h

lemma RR.withoutSubnet_mapOptions (r : RR) :
    (r.mapOptions (setSubnetOption p)).withoutSubnet = r.withoutSubnet := by
  cases hdata : r.data with
  | opt options =>
    simp [RR.withoutSubnet, RR.mapOptions, hdata, filter_not_isSubnet_setSubnetOption]
  | _ => simp [RR.mapOptions, hdata]

lemma setSubnetRecord_cons_of_not_hasSubnet (h : r.hasSubnet = false) (hne : records ≠ []) :
    setSubnetRecord p (r :: records) = r :: setSubnetRecord p records := by
  cases records with
  | nil => exact absurd rfl hne
  | cons r' records =>
    have hnone : ¬ (r.data.options.any fun option => option.subnet?.isSome) := by
      simpa [RR.hasSubnet, EDNS0.isSubnet] using h
    rw [setSubnetRecord, if_neg hnone]
    exact cons_ne_nil _ _

lemma setSubnetRecord_cons_of_hasSubnet (h : r.hasSubnet) :
    setSubnetRecord p (r :: records) = r.mapOptions (setSubnetOption p) :: records := by
  cases records with
  | nil => exact if_pos (RR.isOPT_of_hasSubnet h)
  | cons r' records =>
    rw [setSubnetRecord, if_pos (by simpa [RR.hasSubnet, EDNS0.isSubnet] using h)]
    exact cons_ne_nil _ _

lemma setSubnetRecord_of_not_found (hnone : ∀ r ∈ records, r.hasSubnet = false)
    (hlast : ∀ r ∈ records.getLast?, r.data.isOPT = false) :
    setSubnetRecord p records = records ++ [subnetRecord p] := by
  induction records with
  | nil => rfl
  | cons r records ih =>
    cases records with
    | nil => exact if_neg (by simpa using hlast)
    | cons r' records =>
      rw [setSubnetRecord_cons_of_not_hasSubnet (hnone r mem_cons_self) (by simp),
        ih (fun x hx => hnone x (mem_cons_of_mem _ hx)) (by simpa using hlast)]
      rfl

/-- The only OPT record is changed if it has a subnet or is the last record. -/
theorem setSubnetRecord_of_found (hbefore : ∀ x ∈ before, x.data.isOPT = false)
    (hopt : r.data.isOPT) (hfound : r.hasSubnet ∨ after = []) :
    setSubnetRecord p (before ++ r :: after) =
      before ++ r.mapOptions (setSubnetOption p) :: after := by
  induction before with
  | nil =>
    obtain hnet | rfl := hfound
    · exact setSubnetRecord_cons_of_hasSubnet hnet
    · exact if_pos hopt
  | cons x before ih =>
    have hx : x.hasSubnet = false := by
      simp [RR.hasSubnet, RData.options_of_not_isOPT (hbefore x mem_cons_self)]
    rw [cons_append, setSubnetRecord_cons_of_not_hasSubnet hx (by simp),
      ih fun y hy => hbefore y (mem_cons_of_mem _ hy)]
    rfl

/-- The first subnet of the message is the one that was set. -/
theorem findSome_setSubnetRecord (records : List RR) :
    ((setSubnetRecord p records).flatMap fun r => r.data.options).findSome? EDNS0.subnet? =
      some p := by
  have hset {r : RR} (hopt : r.data.isOPT) (records : List RR) :
      ((r.mapOptions (setSubnetOption p) :: records).flatMap
        fun r => r.data.options).findSome? EDNS0.subnet? = some p := by
    rw [flatMap_cons, findSome?_append, RR.mapOptions_options hopt, findSome_setSubnetOption]
    rfl
  induction records with
  | nil => rfl
  | cons r records ih =>
    cases hnet : r.hasSubnet with
    | true =>
      rw [setSubnetRecord_cons_of_hasSubnet hnet]
      exact hset (RR.isOPT_of_hasSubnet hnet) records
    | false =>
      have hnone : r.data.options.findSome? EDNS0.subnet? = none := by
        simpa [RR.hasSubnet, EDNS0.isSubnet] using hnet
      by_cases hne : records = []
      · subst hne
        unfold setSubnetRecord
        split
        · exact hset ‹_› []
        · rw [flatMap_cons, findSome?_append, hnone]
          rfl
      · rw [setSubnetRecord_cons_of_not_hasSubnet hnet hne, flatMap_cons,
          findSome?_append, hnone, ih]
        rfl

lemma split_at_opt (hone : (records.filter (·.data.isOPT)).length ≤ 1) (hr : r ∈ records)
    (hopt : r.data.isOPT) : ∃ before after, records = before ++ r :: after ∧
      (∀ x ∈ before, x.data.isOPT = false) ∧ ∀ x ∈ after, x.data.isOPT = false := by
  obtain ⟨before, after, rfl⟩ := append_of_mem hr
  have hcons : (r :: after).filter (·.data.isOPT) = r :: after.filter (·.data.isOPT) :=
    filter_cons_of_pos hopt
  rw [filter_append, hcons, length_append, length_cons] at hone
  have hbefore : before.filter (·.data.isOPT) = [] := length_eq_zero_iff.mp (by omega)
  have hafter : after.filter (·.data.isOPT) = [] := length_eq_zero_iff.mp (by omega)
  exact ⟨before, after, rfl, by simpa using hbefore, by simpa using hafter⟩

end Records

/-! ## The message -/

section Message

variable {m : Msg} {p : Prefix}

lemma setClientSubnetCloned_eq (m : Msg) (p : Prefix) :
    setClientSubnetCloned m p = (setClientSubnet m p, m) := by
  unfold setClientSubnetCloned setClientSubnetInPlace
  split <;> rfl

/-- An address that is mapped loses its length with the first 96 bits. -/
theorem prefixFrom_unmap_eq_masked_iff (hp : p.isValid) :
    prefixFrom p.addr.unmap p.bits = p.masked ↔ p.masked = p ∧ p.addr.unmap = p.addr := by
  have hbits : p.bits ≤ p.addr.bitLen := by
    simp only [Prefix.isValid, and_eq_true, decide_eq_true_eq] at hp
    exact hp.2
  have hself : prefixFrom p.addr p.bits = p := by rw [prefixFrom, if_pos hbits]
  constructor
  · intro h
    have haddr : p.addr.unmap = p.addr := by
      have h' : p.addr.unmap = p.addr.masked p.bits := congrArg Prefix.addr h
      cases hcase : p.addr with
      | invalid | v4 => rfl
      | v6 bits =>
        simp only [hcase, Addr.unmap, Addr.masked] at h' ⊢
        split at h'
        · cases h'
        · next hmapped => exact if_neg hmapped
    rw [haddr, hself] at h
    exact ⟨h.symm, haddr⟩
  · rintro ⟨hmasked, haddr⟩
    rw [haddr, hself, hmasked]

lemma clientSubnetFromMessage_setClientSubnet (hp : p.isValid) :
    clientSubnetFromMessage (setClientSubnet m p) = some (prefixFrom p.addr.unmap p.bits) := by
  have haddr : p.addr.isValid := by
    simp only [Prefix.isValid, and_eq_true] at hp
    exact hp.1
  have hfind := findSome_setSubnetRecord (p := p) m.extra
  unfold clientSubnetFromMessage setClientSubnet
  simp [hfind, if_pos haddr]

lemma Msg.findsOPT_eq_false : m.findsOPT = false ↔
    (∀ r ∈ m.extra, r.hasSubnet = false) ∧ ∀ r ∈ m.extra.getLast?, r.data.isOPT = false := by
  rw [Msg.findsOPT, or_eq_false_iff, any_eq_false, Option.any_eq_false]
  simp

lemma Msg.TakesSubnet.of_no_opt (h : ∀ r ∈ m.extra, r.data.isOPT = false) : m.TakesSubnet := by
  constructor
  · intro r hr hopt
    simp [h r (dropLast_subset _ hr)] at hopt
  · intro r hr
    rw [RData.options_of_not_isOPT (h r hr)]
    exact Nat.zero_le 1

lemma takesSubnet_of_not_findsOPT (hfinds : m.findsOPT = false)
    (hcount : ((setClientSubnet m p).extra.filter (·.data.isOPT)).length = 1) : m.TakesSubnet := by
  obtain ⟨hnone, hlast⟩ := Msg.findsOPT_eq_false.mp hfinds
  have hextra : (setClientSubnet m p).extra = m.extra ++ [subnetRecord p] :=
    setSubnetRecord_of_not_found hnone hlast
  have hlen : ([subnetRecord p].filter (·.data.isOPT)).length = 1 := rfl
  rw [hextra, filter_append, length_append, hlen] at hcount
  have hnil : m.extra.filter (·.data.isOPT) = [] := length_eq_zero_iff.mp (by omega)
  exact .of_no_opt (by simpa using hnil)

/-- A record that the loop found had at most one subnet. -/
theorem takesSubnet_of_findsOPT (hone : (m.extra.filter (·.data.isOPT)).length ≤ 1)
    (hfinds : m.findsOPT)
    (hsubnets : ∀ r ∈ (setClientSubnet m p).extra, r.data.isOPT →
      (r.data.options.filter EDNS0.isSubnet).length = 1) : m.TakesSubnet := by
  obtain ⟨r, hr, hopt, hfound⟩ : ∃ r ∈ m.extra, r.data.isOPT ∧
      (r.hasSubnet ∨ m.extra.getLast? = some r) := by
    rw [Msg.findsOPT, or_eq_true, any_eq_true, Option.any_eq_true] at hfinds
    obtain ⟨r, hr, hnet⟩ | ⟨r, hlast, hopt⟩ := hfinds
    · exact ⟨r, hr, RR.isOPT_of_hasSubnet hnet, .inl hnet⟩
    · exact ⟨r, mem_of_getLast? hlast, hopt, .inr hlast⟩
  obtain ⟨before, after, hextra, hbefore, hafter⟩ := split_at_opt hone hr hopt
  have hfound' : r.hasSubnet ∨ after = [] := by
    obtain hnet | hlast := hfound
    · exact .inl hnet
    · by_cases hne : after = []
      · exact .inr hne
      · rw [hextra, getLast?_append_cons, getLast?_cons_of_ne_nil hne] at hlast
        simp [hafter r (mem_of_getLast? hlast)] at hopt
  have hchanged : (setClientSubnet m p).extra =
      before ++ r.mapOptions (setSubnetOption p) :: after := by
    rw [setClientSubnet, hextra]
    exact setSubnetRecord_of_found hbefore hopt hfound'
  have honly : ∀ x ∈ m.extra, x.data.isOPT → x = r := by
    intro x hx hxopt
    rw [hextra, mem_append, mem_cons] at hx
    obtain hx | hx | hx := hx
    · simp [hbefore x hx] at hxopt
    · exact hx
    · simp [hafter x hx] at hxopt
  constructor
  · intro x hx hxopt
    obtain rfl := honly x (dropLast_subset _ hx) hxopt
    obtain hnet | rfl := hfound'
    · exact hnet
    · rw [hextra, dropLast_concat] at hx
      simp [hbefore x hx] at hxopt
  · intro x hx
    cases hxopt : x.data.isOPT with
    | false =>
      rw [RData.options_of_not_isOPT hxopt]
      exact Nat.zero_le 1
    | true =>
      obtain rfl := honly x hx hxopt
      have hlen := hsubnets (x.mapOptions (setSubnetOption p)) (by simp [hchanged])
        ((RR.mapOptions_data_isOPT _ x).trans hxopt)
      rw [RR.mapOptions_options hxopt, filter_isSubnet_setSubnetOption] at hlen
      omega

lemma setsSubnet_of_no_opt (hno : ∀ r ∈ m.extra, r.data.isOPT = false)
    (hfound : clientSubnetFromMessage (setClientSubnet m p) = some p.masked) :
    SetsSubnet m (setClientSubnet m p) p := by
  have hextra : (setClientSubnet m p).extra = m.extra ++ [subnetRecord p] := by
    apply setSubnetRecord_of_not_found
    · intro r hr
      simp [RR.hasSubnet, RData.options_of_not_isOPT (hno r hr)]
    · intro r hr
      exact hno r (mem_of_getLast? hr)
  have hnil : m.extra.filter (·.data.isOPT) = [] := by simpa using hno
  have hany : m.extra.any (·.data.isOPT) = false := by simpa using hno
  constructor
  · rfl
  · rw [hextra, filter_append, hnil]
    rfl
  · intro r hr hopt
    rw [hextra, mem_append, mem_singleton] at hr
    obtain hr | rfl := hr
    · simp [hno r hr] at hopt
    · rfl
  · exact hfound
  · rw [hextra, map_append, hany]
    rfl

lemma setsSubnet_of_opt {r : RR} (hone : (m.extra.filter (·.data.isOPT)).length ≤ 1)
    (htakes : m.TakesSubnet) (hr : r ∈ m.extra) (hopt : r.data.isOPT)
    (hfound : clientSubnetFromMessage (setClientSubnet m p) = some p.masked) :
    SetsSubnet m (setClientSubnet m p) p := by
  obtain ⟨before, after, hextra, hbefore, hafter⟩ := split_at_opt hone hr hopt
  have hplace : r.hasSubnet ∨ after = [] := by
    by_cases hne : after = []
    · exact .inr hne
    · refine .inl (htakes.last r ?_ hopt)
      rw [hextra, dropLast_append_cons, dropLast_cons_of_ne_nil hne]
      simp
  have hchanged : (setClientSubnet m p).extra =
      before ++ r.mapOptions (setSubnetOption p) :: after := by
    rw [setClientSubnet, hextra]
    exact setSubnetRecord_of_found hbefore hopt hplace
  have hopt' : (r.mapOptions (setSubnetOption p)).data.isOPT :=
    (RR.mapOptions_data_isOPT _ r).trans hopt
  constructor
  · rfl
  · have hnil : before.filter (·.data.isOPT) = [] := by simpa using hbefore
    have hnil' : after.filter (·.data.isOPT) = [] := by simpa using hafter
    have hcons : (r.mapOptions (setSubnetOption p) :: after).filter (·.data.isOPT) =
        r.mapOptions (setSubnetOption p) :: after.filter (·.data.isOPT) :=
      filter_cons_of_pos hopt'
    rw [hchanged, filter_append, hnil, hcons, hnil']
    rfl
  · intro x hx hxopt
    rw [hchanged, mem_append, mem_cons] at hx
    obtain hx | rfl | hx := hx
    · simp [hbefore x hx] at hxopt
    · have := htakes.single r hr
      rw [RR.mapOptions_options hopt, filter_isSubnet_setSubnetOption]
      omega
    · simp [hafter x hx] at hxopt
  · exact hfound
  · have hany : m.extra.any (·.data.isOPT) := any_eq_true.mpr ⟨r, hr, hopt⟩
    rw [hchanged, hany, hextra, if_pos rfl, append_nil, map_append, map_append,
      map_cons, map_cons, RR.withoutSubnet_mapOptions]

end Message

/-- The subnet of a message with at most one OPT record is set, and the message that was
given stays as it is, just if that record is found and has no second subnet, and the prefix
is the one that is read back. -/
theorem setsSubnet_iff_takesSubnet (m : Msg) (p : Prefix)
    (hone : (m.extra.filter (·.data.isOPT)).length ≤ 1) (hp : p.isValid = true) :
    (SetsSubnet m (setClientSubnetCloned m p).1 p ∧ (setClientSubnetCloned m p).2 = m) ↔
      m.TakesSubnet ∧ p.masked = p ∧ p.addr.unmap = p.addr := by
  have hread := clientSubnetFromMessage_setClientSubnet (m := m) hp
  rw [setClientSubnetCloned_eq]
  constructor
  · rintro ⟨h, -⟩
    constructor
    · cases hfinds : m.findsOPT with
      | false => exact takesSubnet_of_not_findsOPT hfinds h.oneOPT
      | true => exact takesSubnet_of_findsOPT hone hfinds h.oneSubnet
    · exact (prefixFrom_unmap_eq_masked_iff hp).mp (Option.some.inj (hread.symm.trans h.found))
  · rintro ⟨htakes, hgiven⟩
    rw [← prefixFrom_unmap_eq_masked_iff hp] at hgiven
    rw [hgiven] at hread
    refine ⟨?_, rfl⟩
    by_cases hopt : ∃ r ∈ m.extra, r.data.isOPT
    · obtain ⟨r, hr, hopt⟩ := hopt
      exact setsSubnet_of_opt hone htakes hr hopt hread
    · refine setsSubnet_of_no_opt (fun r hr => ?_) hread
      exact eq_false_iff.mpr fun h => hopt ⟨r, hr, h⟩

/-- 192.0.2.0/24. -/
def documentationPrefix : Prefix := { addr := .v4 0xC0000200#32, bits := 24 }

/-- A query whose OPT record has these options and stands before the other records. -/
def queryWith (options : List EDNS0) (others : List RR) : Msg :=
  { question := [{ name := "example.com.", qtype := typeA, qclass := 1 }]
    extra := { emptyOPT with rclass := 1232, data := .opt options } :: others }

def anyPrefix : Prefix := { addr := .v4 0#32, bits := 0 }

/-- A signature comes after the OPT record. -/
def signature : RR :=
  { name := "key.", rrtype := 250, rclass := 255, ttl := 0, data := .other "TSIG" }

theorem setsSubnet_of_option_between :
    (SetsSubnet (queryWith [.padding 4, .subnet anyPrefix, .other 10 "cookie"] [signature])
      (setClientSubnetCloned (queryWith [.padding 4, .subnet anyPrefix, .other 10 "cookie"]
        [signature]) documentationPrefix).1 documentationPrefix) := by
  refine ((setsSubnet_iff_takesSubnet _ _ (by decide) (by decide)).mpr ⟨⟨?_, ?_⟩, ?_, ?_⟩).1
  all_goals decide

/-- An OPT record without a subnet that another record follows gets a second OPT record
beside it, and the second subnet of an OPT record stays. -/
theorem subnet_set_beside_opt :
    (((queryWith [] [signature]).extra.filter (·.data.isOPT)).length = 1 ∧
      ((setClientSubnetCloned (queryWith [] [signature])
        documentationPrefix).1.extra.filter (·.data.isOPT)).length = 2) ∧
    (setClientSubnetCloned (queryWith [.subnet anyPrefix, .subnet anyPrefix] [])
      documentationPrefix).1 = queryWith [.subnet documentationPrefix, .subnet anyPrefix] [] ∧
    ¬ SetsSubnet (queryWith [] [signature])
      (setClientSubnetCloned (queryWith [] [signature]) documentationPrefix).1
      documentationPrefix := by
  refine ⟨by decide, by decide, fun h => ?_⟩
  have := h.oneOPT
  revert this
  decide

end SingBox.Dns
