import SingBox.Srs.Compiled
import SingBox.Srs.Plain

/-! A rule-set that was written is read with the same rules. -/

namespace SingBox.Srs
open Lib Codec Netip Decoder List Option

variable {L : Libraries}

namespace DefaultHeadlessRule

variable (rule : DefaultHeadlessRule L)

/-- The rule without its domains and addresses. -/
def verbatim : DefaultHeadlessRule L :=
  { rule with
    domain := []
    domainSuffix := []
    domainMatcher := none
    sourceIPCIDR := []
    sourceIPSet := none
    ipCIDR := []
    ipSet := none
    adGuardDomain := []
    adGuardDomainMatcher := none }

/-- Which names the domain items of a rule match, if it has such items. -/
def domainNames : Option (Bytes → Bool) :=
  if rule.hasDomain then some (L.matchDomain (L.newMatcher rule.domain rule.domainSuffix false))
  else rule.domainMatcher.map L.matchDomain

def adGuardNames : Option (Bytes → Bool) :=
  if rule.adGuardDomain ≠ [] then some (L.matchAdGuard (L.newAdGuardMatcher rule.adGuardDomain))
  else rule.adGuardDomainMatcher.map L.matchAdGuard

/-- Which addresses the texts of an item stand for, or else the set that is there without
texts. -/
def addresses (L : Libraries) (texts : List Bytes) (set : Option IPSet) : Option (Addr → Bool) :=
  if texts ≠ [] then some fun a => texts.any fun text => (parseCIDR text).any (·.covers a)
  else set.map L.contains

/-- A rule that was read stands for the same as the one that was written. -/
structure Same (rule read : DefaultHeadlessRule L) : Prop where
  verbatim : read.verbatim = rule.verbatim
  domain : read.domainMatcher.map L.matchDomain = rule.domainNames
  sourceIPCIDR : read.sourceIPSet.map L.contains = addresses L rule.sourceIPCIDR rule.sourceIPSet
  ipCIDR : read.ipSet.map L.contains = addresses L rule.ipCIDR rule.ipSet
  adGuardDomain : read.adGuardDomainMatcher.map L.matchAdGuard = rule.adGuardNames

/-- The rule has no matcher or set without the items that it is made from. -/
structure Sourced (rule : DefaultHeadlessRule L) : Prop where
  domain : rule.hasDomain = false → rule.domainMatcher = none
  sourceIPCIDR : rule.sourceIPCIDR = [] → rule.sourceIPSet = none
  ipCIDR : rule.ipCIDR = [] → rule.ipSet = none
  adGuardDomain : rule.adGuardDomain = [] → rule.adGuardDomainMatcher = none

end DefaultHeadlessRule

namespace HeadlessRule

mutual

def depth : HeadlessRule L → Nat
  | .default _ => 0
  | .logical _ rules _ => depths rules + 1
  | .other _ => 0

def depths : List (HeadlessRule L) → Nat
  | [] => 0
  | rule :: rules => max rule.depth (depths rules)

end

lemma depth_le_depths {rules : List (HeadlessRule L)} {r : HeadlessRule L} (h : r ∈ rules) :
    r.depth ≤ depths rules := by
  induction rules with
  | nil => exact absurd h not_mem_nil
  | cons rule rules ih =>
    obtain rfl | h := mem_cons.mp h
    · exact Nat.le_max_left _ _
    · exact Nat.le_trans (ih h) (Nat.le_max_right _ _)

/-- All lengths are numbers of the type `int`. -/
inductive Sized : HeadlessRule L → Prop
  | default {options} (h : options.Sized) : Sized (.default options)
  | logical {mode rules invert} (hlen : rules.length < 2 ^ 63) (h : ∀ r ∈ rules, Sized r) :
    Sized (.logical mode rules invert)

/-- The same type, mode and sense, and rules that are the same in the same order. -/
inductive Same : HeadlessRule L → HeadlessRule L → Prop
  | default {rule read} (h : rule.Same read) : Same (.default rule) (.default read)
  | logical {mode rules read invert} (h : List.Forall₂ Same rules read) :
    Same (.logical mode rules invert) (.logical mode read invert)

/-- Every default rule in it has addresses for its prefixes and items for its matchers. -/
inductive Compilable : HeadlessRule L → Prop
  | default {options} (haddressed : options.addressed = true) (hsourced : options.Sourced) :
    Compilable (.default options)
  | logical {mode rules invert} (h : ∀ r ∈ rules, Compilable r) :
    Compilable (.logical mode rules invert)

end HeadlessRule

section Compiled

variable (recover : Bool) (generateVersion : UInt8)

mutual

/-- The rule that comes back, if it can be read. -/
def compiledRule : HeadlessRule L → Option (HeadlessRule L)
  | .default options =>
    (if options.addressed then some (compiled recover generateVersion options) else none).map .default
  | .logical mode rules invert => (compiledRules rules).map (.logical mode · invert)
  | .other _ => none

def compiledRules : List (HeadlessRule L) → Option (List (HeadlessRule L))
  | [] => some []
  | rule :: rules => (compiledRule rule).bind fun rule => (compiledRules rules).map (rule :: ·)

end

variable {recover generateVersion} {rules : List (HeadlessRule L)} {bytes : Bytes}

lemma returns_rules {d : Nat → Decoder (HeadlessRule L)}
    (hread : ∀ r ∈ rules, ∀ bytes, writeRule L generateVersion r = .ok bytes →
      ∀ i, Returns (d i) bytes (compiledRule recover generateVersion r))
          (h : writeRules L generateVersion rules = .ok bytes) (i : Nat) :
    Returns (timesFrom d rules.length i) bytes (compiledRules recover generateVersion rules) := by
  induction rules generalizing bytes i with
  | nil =>
    cases h
    exact Reads.pure []
  | cons rule rules ih =>
    obtain ⟨first, more, hfirst, hmore, rfl⟩ := append_eq_ok h
    have htail := ih (fun r hr => hread r (mem_cons_of_mem rule hr)) hmore (i + 1)
    exact Returns.timesFrom_cons (hread rule mem_cons_self first hfirst i) htail

variable {mode : LogicalMode} {code : UInt8}

lemma reads_mode (h : writeMode mode = .ok code) : Reads readMode [code] mode := by
  cases mode with
  | and | or =>
    cases h
    exact fun _ => rfl
  | other text => cases h

variable {body : Bytes}

/-- A logical rule, with a reader for the rules in it. -/
theorem returns_logicalRule (hmode : writeMode mode = .ok code) (hlen : rules.length < 2 ^ 63)
    {readInner : Decoder (HeadlessRule L)}
    (hread : ∀ r ∈ rules, ∀ bytes, writeRule L generateVersion r = .ok bytes →
      Returns readInner bytes (compiledRule recover generateVersion r))
    (hbody : writeRules L generateVersion rules = .ok body) (invert : Bool) :
    Returns (readLogicalRule L readInner)
      ([code] ++ (putUvarint rules.length ++ (body ++ [putBool invert])))
      (compiledRule recover generateVersion (.logical mode rules invert)) := by
  have hlt : rules.length < 2 ^ 64 := by omega
  have hrules := returns_rules
    (d := fun i => readInner.withCause ("read logical rule [" ++ toString i ++ "]"))
    (fun r hr bytes hbytes i => (hread r hr bytes hbytes).withCause _) hbody 0
  apply Reads.bind (reads_mode hmode)
  apply Reads.bind (Reads.uvarint hlt)
  rw [compiledRule, map_eq_bind]
  apply hrules.bind
  intro read _
  exact Reads.map (Reads.bool invert) rfl

/-- Every rule that was written is read as it is compiled, where there are levels for it. -/
theorem returns_rule (hL : L.Lawful) (r : HeadlessRule L) {levels : Nat} (hdepth : r.depth < levels)
    (hr : r.Sized) (h : writeRule L generateVersion r = .ok bytes) :
    Returns (readRule L recover levels) bytes (compiledRule recover generateVersion r) := by
  induction r using HeadlessRule.induction generalizing levels bytes with
  | other type => cases hr
  | default options =>
    obtain ⟨levels, rfl⟩ : ∃ n, levels = n + 1 := ⟨levels - 1, by omega⟩
    cases hr with | default hopts =>
    obtain ⟨items, hitems, h⟩ := bind_eq_ok h
    cases eq_of_ok h
    rw [readRule]
    apply Reads.bind (Reads.byte 0)
    exact (returns_defaultRule hL hopts hitems recover).map
  | logical mode rules invert ih =>
    obtain ⟨levels, rfl⟩ : ∃ n, levels = n + 1 := ⟨levels - 1, by omega⟩
    cases hr with | logical hlen hrules =>
    rw [HeadlessRule.depth] at hdepth
    obtain ⟨code, hmode, h⟩ := bind_eq_ok h
    obtain ⟨body, hbody, h⟩ := bind_eq_ok h
    have hbytes : bytes = [1] ++ ([code] ++
        (putUvarint rules.length ++ (body ++ [putBool invert]))) := by
      rw [eq_of_ok h]
      simp
    rw [hbytes, readRule]
    apply Reads.bind (Reads.byte 1)
    apply returns_logicalRule hmode hlen _ hbody invert
    intro r hr bytes hbytes
    have hle := HeadlessRule.depth_le_depths hr
    exact ih r hr (by omega) (hrules r hr) hbytes

lemma returns_ruleSet (hL : L.Lawful) (hlen : rules.length < 2 ^ 63)
    (hdepth : ∀ r ∈ rules, r.depth ≤ maxLogicalRuleDepth) (hr : ∀ r ∈ rules, r.Sized)
    (h : writeRules L generateVersion rules = .ok body) (recover : Bool) :
    Returns (readRuleSet L recover) (putUvarint rules.length ++ body)
      (compiledRules recover generateVersion rules) := by
  have hlt : rules.length < 2 ^ 64 := by omega
  apply Reads.bind (Reads.uvarint hlt)
  apply returns_rules _ h 0
  intro r hmem bytes hbytes i
  have hle := hdepth r hmem
  exact (returns_rule hL r (by omega) (hr r hmem) hbytes).withCause _

end Compiled

section Meaning

variable {recover : Bool} {generateVersion : UInt8} {α β : Type} {c : Prop}

lemma ite_eq_iff [Decidable c] {b : β} {o : Option α} {f : α → β} :
    (if c then some b else none) = (if c then some b else o.map f) ↔ (¬ c → o = none) := by
  by_cases hc : c
  · simp [hc]
  · cases o <;> simp [hc]

lemma map_ite_none [Decidable c] (a : α) (f : α → β) :
    (if c then some a else none).map f = if c then some (f a) else none := by
  split <;> rfl

section
variable (hL : L.Lawful)
include hL

variable (rule : DefaultHeadlessRule L)

lemma matchDomain_matcher :
    L.matchDomain (rule.matcher generateVersion) =
      L.matchDomain (L.newMatcher rule.domain rule.domainSuffix false) := by
  unfold DefaultHeadlessRule.matcher
  by_cases h : generateVersion = ruleSetVersion1
  · rw [decide_eq_true h, hL.legacy]
  · rw [decide_eq_false h]

lemma contains_cidrSet (texts : List Bytes) :
    L.contains (cidrSet L texts) = fun a => texts.any fun text =>
        (parseCIDR text).any (·.covers a) := by
  funext a
  rw [cidrSet, hL.contains, any_filterMap]
  congr

lemma addresses_iff (texts : List Bytes) (set : Option IPSet) :
    (if texts ≠ [] then some (cidrSet L texts) else none).map L.contains =
        DefaultHeadlessRule.addresses L texts set ↔ (texts = [] → set = none) := by
  rw [map_ite_none, contains_cidrSet hL, DefaultHeadlessRule.addresses, ite_eq_iff, not_not]

/-- The compiled rule stands for the same exactly if nothing was there without its items. -/
theorem same_compiled : rule.Same (compiled recover generateVersion rule) ↔ rule.Sourced := by
  have hdomain : (if rule.hasDomain then some (rule.matcher generateVersion) else none).map
      L.matchDomain =
      rule.domainNames ↔ (rule.hasDomain = false → rule.domainMatcher = none) := by
    rw [map_ite_none, matchDomain_matcher hL, DefaultHeadlessRule.domainNames, ite_eq_iff,
      Bool.not_eq_true]
  have hadGuard : (if rule.adGuardDomain ≠ [] then some (L.newAdGuardMatcher rule.adGuardDomain)
      else none).map L.matchAdGuard = rule.adGuardNames ↔
        (rule.adGuardDomain = [] → rule.adGuardDomainMatcher = none) := by
    rw [map_ite_none, DefaultHeadlessRule.adGuardNames, ite_eq_iff, not_not]
  constructor
  · intro h
    exact ⟨hdomain.mp h.domain, (addresses_iff hL _ _).mp h.sourceIPCIDR,
      (addresses_iff hL _ _).mp h.ipCIDR, hadGuard.mp h.adGuardDomain⟩
  · intro h
    exact ⟨rfl, hdomain.mpr h.domain, (addresses_iff hL _ _).mpr h.sourceIPCIDR,
      (addresses_iff hL _ _).mpr h.ipCIDR, hadGuard.mpr h.adGuardDomain⟩

end

/-- A rule comes back and stands for the same exactly if it can be compiled. -/
theorem compiledRules_same {rules : List (HeadlessRule L)}
    (ih : ∀ r ∈ rules, (∃ read, compiledRule recover generateVersion r = some read ∧ r.Same read) ↔
      r.Compilable) : (∃ read, compiledRules recover generateVersion rules = some read ∧
      List.Forall₂ HeadlessRule.Same rules read) ↔ ∀ r ∈ rules, r.Compilable := by
  induction rules with
  | nil => exact ⟨fun _ r hr => absurd hr not_mem_nil, fun _ => ⟨[], rfl, .nil⟩⟩
  | cons rule rules ihs =>
    rw [forall_mem_cons] at ih ⊢
    rw [← ihs ih.2, ← ih.1, compiledRules]
    constructor
    · rintro ⟨read, hread, hsame⟩
      obtain ⟨first, hfirst, hread⟩ := bind_eq_some_iff.mp hread
      obtain ⟨more, hmore, rfl⟩ := map_eq_some_iff.mp hread
      cases hsame with | cons hs hss =>
      exact ⟨⟨first, hfirst, hs⟩, more, hmore, hss⟩
    · rintro ⟨⟨first, hfirst, hs⟩, more, hmore, hss⟩
      exact ⟨first :: more, by rw [hfirst, hmore]; rfl, .cons hs hss⟩

lemma compiledRule_same (hL : L.Lawful) (r : HeadlessRule L) :
    (∃ read, compiledRule recover generateVersion r = some read ∧ r.Same read) ↔ r.Compilable := by
  induction r using HeadlessRule.induction with
  | other type =>
    constructor
    · rintro ⟨read, hread, -⟩
      cases hread
    · rintro ⟨⟩
  | default options =>
    rw [compiledRule]
    constructor
    · rintro ⟨read, hread, hsame⟩
      split at hread
      · rename_i haddressed
        cases hread
        cases hsame with | default hsame =>
        exact .default haddressed ((same_compiled hL options).mp hsame)
      · cases hread
    · rintro (⟨haddressed, hsourced⟩)
      rw [if_pos haddressed]
      exact ⟨_, rfl, .default ((same_compiled hL options).mpr hsourced)⟩
  | logical mode rules invert ih =>
    have hrules := compiledRules_same ih
    rw [compiledRule]
    constructor
    · rintro ⟨read, hread, hsame⟩
      obtain ⟨rules', hrules', rfl⟩ := map_eq_some_iff.mp hread
      cases hsame with | logical hsame =>
      exact .logical (hrules.mp ⟨rules', hrules', hsame⟩)
    · intro h
      cases h with | logical h =>
      obtain ⟨rules', hrules', hsame⟩ := hrules.mpr h
      exact ⟨.logical mode rules' invert, by rw [hrules']; rfl, .logical hsame⟩

end Meaning

lemma readHeader_append (version : UInt8) (rest : Bytes) :
    readHeader (magicBytes ++ [version] ++ rest) =
      if version > ruleSetVersionCurrent then
        (.error ("unsupported version: " ++ toString version), rest)
      else (.ok version, rest) := by
  change (if version > ruleSetVersionCurrent then
    fail ("unsupported version: " ++ toString version) else pure version : Decoder UInt8) rest = _
  split <;> rfl

lemma read_append (hL : L.Lawful) (recover : Bool) (version : UInt8) (bytes : Bytes) :
    read L recover (magicBytes ++ [version] ++ L.compress bytes) =
      if version > ruleSetVersionCurrent then .error ("unsupported version: " ++ toString version)
      else (readRuleSet L recover bytes).1.map fun rules => { version, rules } := by
  rw [read, readHeader_append]
  by_cases h : version > ruleSetVersionCurrent
  · rw [if_pos h, if_pos h]
    rfl
  · rw [if_neg h, if_neg h, hL.decompress]
    change ((readRuleSet L recover bytes).1 >>= fun rules =>
        .ok (PlainRuleSetCompat.mk version rules)) = _
    cases (readRuleSet L recover bytes).1 <;> rfl

/-- Whatever is written is read with the same version and rules that stand for the same, exactly
if the version is one that is read and the rules can be compiled. -/
theorem readable_iff (hL : L.Lawful) {rules : List (HeadlessRule L)} {generateVersion : UInt8}
    {content : Bytes} (hlen : rules.length < 2 ^ 63) (hsized : ∀ r ∈ rules, r.Sized)
    (hdepth : ∀ r ∈ rules, r.depth ≤ maxLogicalRuleDepth)
    (h : write L rules generateVersion = .ok content) (recover : Bool) :
    (∃ result, read L recover content = .ok result ∧ result.version = generateVersion ∧
      List.Forall₂ HeadlessRule.Same rules result.rules) ↔
    generateVersion ≤ ruleSetVersionCurrent ∧ ∀ r ∈ rules, r.Compilable := by
  obtain ⟨body, hbody, h⟩ := bind_eq_ok h
  have hread := returns_ruleSet hL hlen hdepth hsized hbody recover []
  have hsame : (∃ read, compiledRules recover generateVersion rules = some read ∧
      List.Forall₂ HeadlessRule.Same rules read) ↔ ∀ r ∈ rules, r.Compilable :=
    compiledRules_same fun r _ => compiledRule_same hL r
  rw [List.append_nil] at hread
  rw [eq_of_ok h, read_append hL, ← hsame]
  by_cases hver : generateVersion > ruleSetVersionCurrent
  · rw [if_pos hver]
    constructor
    · rintro ⟨result, ⟨⟩, -⟩
    · rintro ⟨hle, -⟩
      exact absurd hle (UInt8.not_le.mpr hver)
  · have hle := UInt8.not_lt.mp hver
    rw [if_neg hver]
    cases hrules : compiledRules recover generateVersion rules with
    | none =>
      rw [hrules] at hread
      obtain ⟨err, left, hread⟩ := hread
      rw [hread]
      constructor
      · rintro ⟨result, ⟨⟩, -⟩
      · rintro ⟨-, read, ⟨⟩, -⟩
    | some read =>
      rw [hrules] at hread
      rw [hread]
      constructor
      · rintro ⟨result, ⟨⟩, -, hall⟩
        exact ⟨hle, read, rfl, hall⟩
      · rintro ⟨-, read, ⟨⟩, hall⟩
        exact ⟨_, rfl, rfl, hall⟩

section Samples

def tenNet : Bytes := [49, 48, 46, 48, 46, 48, 46, 48, 47, 56]

def sampleOptions : DefaultHeadlessRule plainLibraries where
  domainSuffix := [[97, 46, 98]]
  ipCIDR := [tenNet]
  port := [80, 443]
  defaultInterfaceAddress := [some (prefixFrom (.v4 0x0a000000) 8)]

def sampleRules : List (HeadlessRule plainLibraries) :=
  [.logical .or [.default sampleOptions, .default { network := [[116, 99, 112]], invert := true }]
      false]

lemma sampleRules_sized : ∀ r ∈ sampleRules, r.Sized := by
  intro r hr
  rw [mem_singleton.mp hr]
  refine .logical (by decide) ?_
  intro r hr
  obtain rfl | hr := mem_cons.mp hr
  · exact .default ⟨by decide, by decide, by decide, by decide, by decide⟩
  · rw [mem_singleton.mp hr]
    exact .default ⟨by decide, by decide, by decide, by decide, by decide⟩

lemma sampleRules_compilable : ∀ r ∈ sampleRules, r.Compilable := by
  have hsourced (options : DefaultHeadlessRule plainLibraries)
      (hmatcher : options.domainMatcher = none)
      (hsrc : options.sourceIPSet = none) (hset : options.ipSet = none)
      (hadGuard : options.adGuardDomainMatcher = none) : options.Sourced :=
    ⟨fun _ => hmatcher, fun _ => hsrc, fun _ => hset, fun _ => hadGuard⟩
  intro r hr
  rw [mem_singleton.mp hr]
  refine .logical ?_
  intro r hr
  obtain rfl | hr := mem_cons.mp hr
  · exact .default rfl (hsourced _ rfl rfl rfl rfl)
  · rw [mem_singleton.mp hr]
    exact .default rfl (hsourced _ rfl rfl rfl rfl)

theorem sampleRules_readable : ∃ content, write plainLibraries sampleRules 4 = .ok content ∧
      ∃ result, read plainLibraries false content = .ok result ∧ result.version = 4 ∧
        List.Forall₂ HeadlessRule.Same sampleRules result.rules := by
  have hwrite : (write plainLibraries sampleRules 4).isOk := by decide
  cases h : write plainLibraries sampleRules 4 with
  | error err =>
    rw [h] at hwrite
    cases hwrite
  | ok content =>
    exact ⟨content, rfl, (readable_iff plainLibraries_lawful (by decide) sampleRules_sized
      (by decide) h false).mpr ⟨by decide, sampleRules_compilable⟩⟩

/-- An interface address that is null is written, and what was written is refused. -/
theorem null_address_not_read :
    ∃ content, write plainLibraries [.default { defaultInterfaceAddress := [none] }] 4 = .ok content ∧
      ∀ recover, read plainLibraries recover content = .error "read rule[0]: invalid argument" := by
  refine ⟨[0x53, 0x52, 0x53, 4, 1, 0, 22, 1, 0, 255, 255, 0], rfl, ?_⟩
  intro recover
  cases recover <;> rfl

end Samples

end SingBox.Srs
