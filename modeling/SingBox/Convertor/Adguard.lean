import SingBox.Lib.Netip
import SingBox.Route.Semantics

/-! The converter of AdGuard filter lists: the lines that it accepts, the headless rules that it
makes of them, and what these match once they are loaded. -/

namespace SingBox.Convertor
open Lib Route List

def text (s : String) : Bytes := s.toUTF8.toList

/-- What the converter and its rules take from libraries: names and addresses, the lower case of
a name, and whether a domain, an AdGuard rule or a regular expression matches a name. -/
structure Libraries where
  isDomainName : Bytes → Bool
  parseAddr : Bytes → Option Netip.Addr
  toLower : String → String
  matchDomain : Bytes → String → Bool
  matchAdGuard : Bytes → String → Bool
  compile : Bytes → Except String (String → Bool)

/-! ## Lines -/

/-- What stands before and after the first separator. -/
def cut (sep : Bytes) (s : Bytes) : Option (Bytes × Bytes) :=
  if sep.isPrefixOf s then some ([], s.drop sep.length)
  else
    match s with
    | [] => none
    | b :: s => (cut sep s).map fun parts => (b :: parts.1, parts.2)

variable (s sep : Bytes)

def contains : Bool := (cut sep s).isSome

def substringBefore : Bytes := (cut sep s).elim s Prod.fst

def substringAfter : Bytes := (cut sep s).elim s Prod.snd

def trimSuffix (s suffix : Bytes) : Bytes :=
  if suffix.isSuffixOf s then s.take (s.length - suffix.length) else s

/-- Whether `strconv.ParseUint` reads a decimal number of eight bits. -/
def isUint8 (s : Bytes) : Bool :=
  s ≠ [] && s.all (fun b => 48 ≤ b && b ≤ 57) &&
    s.foldl (fun n b => 10 * n + (b.toNat - 48)) 0 ≤ 255

def isUnspecified (a : Netip.Addr) : Bool := a = .v4 0 || a = .v6 0 []

/-- The lines that `bufio.Scanner` gives. It stops at a line that does not fit its buffer. -/
def scanLines (s : Bytes) : List Bytes :=
  let lines := s.splitOn 10
  let lines := if lines.getLast? = some [] then lines.dropLast else lines
  (lines.takeWhile (·.length < 65536)).map (trimSuffix · [13])

/-- `agdguardRuleLine`. A domain alone is neither an exception nor important. -/
structure RuleLine where
  ruleLine : Bytes
  isRawDomain : Bool := false
  isExclude : Bool := false
  isSuffix : Bool := false
  hasStart : Bool := false
  hasEnd : Bool := false
  isRegexp : Bool := false
  isImportant : Bool := false
  raw : isRawDomain = true → isExclude = false ∧ isImportant = false := by decide

variable (L : Libraries) (lines : List RuleLine) (ruleLine : Bytes) (flow : Flow)

/-- A domain for an unspecified address; nothing for another address. -/
def parseAdGuardHostLine : Option Bytes :=
  (cut (text " ") ruleLine).bind fun (before, domain) =>
    (Netip.parseAddr before).bind fun address =>
      if !isUnspecified address then some []
      else if L.isDomainName domain then some domain
      else none

/-- The parameters that do not make the converter ignore a line. -/
def isImportantParam (param : Bytes) : Bool :=
  let parts := param.splitOn 61
  parts.length ≤ 2 && parts.head? = some (text "important")

def isSupportedParam (param : Bytes) : Bool :=
  isImportantParam param ||
    match param.splitOn 61 with
    | [key, value] => key = text "dnsrewrite" && (L.parseAddr value).any isUnspecified
    | _ => false

def ignoreIPCIDRRegexp : Bool :=
  let ruleLine :=
    if (text "(http?:\\/\\/)").isPrefixOf ruleLine then ruleLine.drop 12
    else if (text "(https?:\\/\\/)").isPrefixOf ruleLine then ruleLine.drop 13
    else if (text "^").isPrefixOf ruleLine then ruleLine.drop 1
    else ruleLine
  isUint8 (substringBefore ruleLine (text "\\.")) || isUint8 (substringBefore ruleLine (text "."))

/-- A rule without its marks, where it is not a regular expression: what follows `://`, if it is a
domain with wildcards. -/
def parsePattern : Option (Bytes × Bool) :=
  let hasScheme := contains ruleLine (text "://")
  let ruleLine := if hasScheme then substringAfter ruleLine (text "://") else ruleLine
  if ruleLine.any (· ∈ text "/?&[]()!#~") then none
  else if ruleLine = [] then none
  else
    let domainCheck := if ruleLine.head? ∈ [some 46, some 45] then 114 :: ruleLine else ruleLine
    if L.isDomainName (domainCheck.map fun b => if b = 42 then 120 else b) then
      some (ruleLine, hasScheme)
    else none

/-- One round of the loop over the lines: the rule, nothing if the line is ignored, or the panic
for a regular expression that is one slash. -/
def parseLine (line : Bytes) : Except String (Option RuleLine) :=
  if line = [] || (text "!").isPrefixOf line || (text "#").isPrefixOf line then .ok none
  else if L.isDomainName line then .ok (some { ruleLine := line, isRawDomain := true })
  else
    match parseAdGuardHostLine L line with
    | some [] => .ok none
    | some host =>
      .ok (some { ruleLine := host, isRawDomain := true, hasStart := true, hasEnd := true })
    | none =>
      let line := trimSuffix line (text "|")
      let params := if !(text "/").isPrefixOf line && contains line (text "$") then
        (substringAfter line (text "$")).splitOn 44 else []
      if !params.all (isSupportedParam L) then .ok none
      else
        let line := if params = [] then line else substringBefore line (text "$")
        let isExclude := (text "@@").isPrefixOf line
        let line := if isExclude then line.drop 2 else line
        let line := trimSuffix line (text "|")
        let isSuffix := (text "||").isPrefixOf line
        let hasStart := !isSuffix && (text "|").isPrefixOf line
        let line := if isSuffix then line.drop 2 else if hasStart then line.drop 1 else line
        let hasEnd := (text "^").isSuffixOf line
        let line := trimSuffix line (text "^")
        let isImportant := params.any isImportantParam
        if (text "/").isPrefixOf line && (text "/").isSuffixOf line then
          if line = text "/" then .error "slice bounds out of range [1:0]"
          else
            let line := (line.drop 1).dropLast
            if ignoreIPCIDRRegexp line then .ok none
            else .ok (some {
              ruleLine := line, isExclude, isSuffix, hasStart, hasEnd, isRegexp := true, isImportant
              raw := by simp })
        else .ok ((parsePattern L line).map fun (ruleLine, hasScheme) => {
          ruleLine, isExclude, isSuffix := isSuffix || hasScheme, hasStart, hasEnd, isImportant
          raw := by simp })

def ruleLines (filter : Bytes) : Except String (List RuleLine) :=
  ((scanLines filter).mapM (parseLine L)).map (filterMap id)

/-! ## Rules -/

/-- The fields of `option.DefaultHeadlessRule` that the converter sets. A slice may be nil, and
one that is empty is something else. -/
structure DefaultHeadlessRule where
  domain : Option (List Bytes) := none
  domainRegex : Option (List Bytes) := none
  adGuardDomain : Option (List Bytes) := none
  invert : Bool := false

inductive HeadlessRule
  | default (options : DefaultHeadlessRule)
  | logical (mode : LogicalMode) (rules : List HeadlessRule)

def mapDomain (it : RuleLine) : Bytes :=
  (if it.isSuffix then text "||" else if it.hasStart then text "|" else []) ++ it.ruleLine ++
    if it.hasEnd then text "^" else []

variable (isImportant isExclude : Bool)

def classOf (lines : List RuleLine) : List RuleLine :=
  lines.filter fun it => it.isImportant = isImportant && it.isExclude = isExclude

/-- The rule for a class: its AdGuard rules and its regular expressions. `common.Map` returns an
empty slice, not nil, for a class without them. -/
def classRule (invert : Bool) : DefaultHeadlessRule where
  adGuardDomain := some ((lines.filter (!·.isRegexp)).map mapDomain)
  domainRegex := some ((lines.filter (·.isRegexp)).map mapDomain)
  invert := invert

/-- A rule in front of what there is so far, unless its class is empty. -/
def addClass (mode : LogicalMode) (lines : List RuleLine) (invert : Bool)
    (currentRule : HeadlessRule) :
    HeadlessRule :=
  if lines = [] then currentRule
  else .logical mode [.default (classRule lines invert), currentRule]

def toRule : HeadlessRule :=
  if lines.all (·.isRawDomain) then .default { domain := some (lines.map (·.ruleLine)) }
  else
    let currentRule := .default (classRule (classOf false false lines) false)
    let currentRule := addClass .and (classOf false true lines) true currentRule
    let currentRule := addClass .or (classOf true false lines) false currentRule
    addClass .and (classOf true true lines) true currentRule

def toOptions (L : Libraries) (filter : Bytes) : Except String (List HeadlessRule) :=
  match ruleLines L filter with
  | .error err => .error err
  | .ok [] => .error "AdGuard rule-set is empty or all rules are unsupported"
  | .ok lines => .ok [toRule lines]

mutual

def HeadlessRule.isValid : HeadlessRule → Bool
  | .default o => o.domain.isSome || o.domainRegex.isSome || o.adGuardDomain.isSome
  | .logical _ rules => !rules.isEmpty && HeadlessRule.allValid rules

def HeadlessRule.allValid : List HeadlessRule → Bool
  | [] => true
  | rule :: rules => rule.isValid && HeadlessRule.allValid rules

end

/-- The name that the items for names look at. -/
def domainHost : String := if flow.domain ≠ "" then flow.domain else flow.destinationFqdn

def onHost (p : String → Bool) (flow : Flow) : Bool :=
  domainHost flow ≠ "" && p (L.toLower (domainHost flow))

variable (lists : List (List (String → Bool)))

/-- The items for names: one for each list that is not empty. -/
def nameItems : List RuleItem :=
  (lists.filter (!·.isEmpty)).map fun list => .flow (onHost L fun host => list.any (· host))

def compileAll (L : Libraries) : Nat → List Bytes → Except String (List (String → Bool))
  | _, [] => .ok []
  | i, regex :: expressions =>
    match L.compile regex with
    | .error err => .error ("domain_regex: parse expression " ++ toString i ++ ": " ++ err)
    | .ok matcher => (compileAll L (i + 1) expressions).map (matcher :: ·)

def newDefaultHeadlessRule (o : DefaultHeadlessRule) : Except String DefaultRule :=
  if [] ∈ o.domain.getD [] then .error "domain: empty item is not allowed"
  else (compileAll L 0 (o.domainRegex.getD [])).map fun matchers => {
    destinationAddressItems := nameItems L
      [(o.domain.getD []).map L.matchDomain, matchers, (o.adGuardDomain.getD []).map L.matchAdGuard]
    invert := o.invert }

mutual

def newHeadlessRule (L : Libraries) : HeadlessRule → Except String Route.HeadlessRule
  | .default o =>
    if (HeadlessRule.default o).isValid then (newDefaultHeadlessRule L o).map .default
    else .error "missing conditions"
  | .logical mode rules =>
    if !rules.isEmpty && HeadlessRule.allValid rules then
      (newHeadlessRules L 0 rules).map fun rules => .logical mode rules false
    else .error "missing conditions"

def newHeadlessRules (L : Libraries) : Nat → List HeadlessRule →
    Except String (List Route.HeadlessRule)
  | _, [] => .ok []
  | i, rule :: rules =>
    match newHeadlessRule L rule with
    | .error err => .error ("sub rule[" ++ toString i ++ "]: " ++ err)
    | .ok rule => (newHeadlessRules L (i + 1) rules).map (rule :: ·)

end

/-! ## What a list should match -/

/-- Whether a line matches: a domain by itself in a list of domains, and else as a rule. -/
def RuleLine.hits (isRaw : Bool) (it : RuleLine) (flow : Flow) : Bool :=
  if isRaw then onHost L (L.matchDomain it.ruleLine) flow
  else if it.isRegexp then (L.compile (mapDomain it)).toOption.any (onHost L · flow)
  else onHost L (L.matchAdGuard (mapDomain it)) flow

def classHits (flow : Flow) : Bool :=
  (classOf isImportant isExclude lines).any (·.hits L (lines.all (·.isRawDomain)) flow)

/-- No important exception matches, and an important rule does, or a rule and no exception. -/
def blocks : Bool :=
  !classHits L lines true true flow && (classHits L lines true false flow ||
    !classHits L lines false true flow && classHits L lines false false flow)

section Value

variable {L : Libraries} {lines : List RuleLine} {c : InboundContext}

lemma map_eq_ok {α β : Type} {x : Except String α} {f : α → β} {b : β} (h : x.map f = .ok b) :
    ∃ a, x = .ok a ∧ f a = b := by
  cases x with
  | error err => cases h
  | ok a => exact ⟨a, rfl, Except.ok.inj h⟩

lemma onHost_any {α : Type} (l : List α) (p : α → String → Bool) (flow : Flow) :
    onHost L (fun host => l.any (p · host)) flow = l.any fun a => onHost L (p a) flow := by
  unfold onHost
  by_cases hhost : domainHost flow = ""
  · simp [hhost]
  · simp [hhost]

lemma compileAll_ok {expressions : List Bytes} {i : Nat} {matchers : List (String → Bool)}
    (h : compileAll L i expressions = .ok matchers) :
    matchers.map some = expressions.map fun regex => (L.compile regex).toOption := by
  induction expressions generalizing i matchers with
  | nil =>
    cases h
    rfl
  | cons regex expressions ih =>
    unfold compileAll at h
    cases hregex : L.compile regex with
    | error err =>
      simp [hregex] at h
    | ok matcher =>
      rw [hregex] at h
      obtain ⟨rest, hrest, rfl⟩ := map_eq_ok h
      rw [map_cons, map_cons, ih hrest, hregex]
      rfl

lemma value_names (invert : Bool) :
    DefaultRule.value { destinationAddressItems := nameItems L lists, invert } none c =
      (lists.all isEmpty ||
        (invert ^^ lists.any fun list => list.any fun p => onHost L p c.flow)) := by
  have hempty : (nameItems L lists).isEmpty = lists.all isEmpty := by
    rw [Bool.eq_iff_iff]
    simp [nameItems, filter_eq_nil_iff]
  have hany : ((nameItems L lists).any fun it => it.match c {}) =
      lists.any fun list => list.any fun p => onHost L p c.flow := by
    rw [nameItems, any_map, any_filter]
    refine congrArg lists.any (funext fun list => ?_)
    rw [← onHost_any list fun p => p]
    cases list <;> simp [RuleItem.match, onHost]
  simp only [DefaultRule.value, DefaultRule.hasNoItem, DefaultRule.itemsMatch,
    DefaultRule.groupsMatch,
    groupMatches, hempty, hany, append_nil, isEmpty_nil, Option.isNone_none, Option.getD_none,
    all_nil, Bool.true_and, Bool.and_true, Bool.true_or]
  cases lists.all isEmpty <;> simp

/-- The rule of a class is that one of its lines matches, but without lines it always holds. -/
theorem value_classRule {invert : Bool} {r : DefaultRule}
    (h : newDefaultHeadlessRule L (classRule lines invert) = .ok r) :
    r.value none c = (lines.isEmpty || (invert ^^ lines.any (·.hits L false c.flow))) := by
  unfold newDefaultHeadlessRule classRule at h
  simp only [Option.getD_none, not_mem_nil, if_false, Option.getD_some, map_nil] at h
  obtain ⟨matchers, hmatchers, rfl⟩ := map_eq_ok h
  have hcompiled := compileAll_ok hmatchers
  have hany : (matchers.any fun p => onHost L p c.flow) =
      (lines.filter (·.isRegexp)).any (·.hits L false c.flow) := by
    have hsome := congrArg (any · fun o => o.any fun p => onHost L p c.flow) hcompiled
    simp only [map_map, any_map, any_filter, Function.comp_def, Option.any_some] at hsome
    rw [hsome, any_filter]
    refine congrArg lines.any (funext fun it => ?_)
    cases hre : it.isRegexp <;> simp [RuleLine.hits, hre]
  have hempty : matchers.isEmpty = (lines.filter (·.isRegexp)).isEmpty := by
    simpa using congrArg isEmpty hcompiled
  have hplain : ((lines.filter (!·.isRegexp)).any fun it =>
      onHost L (L.matchAdGuard (mapDomain it)) c.flow) =
      (lines.filter (!·.isRegexp)).any (·.hits L false c.flow) := by
    simp only [any_filter]
    refine congrArg lines.any (funext fun it => ?_)
    cases hre : it.isRegexp <;> simp [RuleLine.hits, hre]
  have hlines : lines.isEmpty =
      ((lines.filter (·.isRegexp)).isEmpty && (lines.filter (!·.isRegexp)).isEmpty) := by
    cases lines with
    | nil => rfl
    | cons it lines => cases hre : it.isRegexp <;> simp [hre]
  have hhits : lines.any (·.hits L false c.flow) =
      ((lines.filter (·.isRegexp)).any (·.hits L false c.flow) ||
      (lines.filter (!·.isRegexp)).any (·.hits L false c.flow)) := by
    rw [Bool.eq_iff_iff]
    grind -linarith
  rw [value_names, hlines, hhits, ← hplain]
  simp [hempty, hany]

variable {rule : HeadlessRule}

lemma newHeadlessRules_cons {i : Nat} {rules : List HeadlessRule}
    {loaded : List Route.HeadlessRule} (h : newHeadlessRules L i (rule :: rules) = .ok loaded) :
    ∃ r rest, newHeadlessRule L rule = .ok r ∧ newHeadlessRules L (i + 1) rules = .ok rest ∧
      loaded = r :: rest := by
  unfold newHeadlessRules at h
  cases hrule : newHeadlessRule L rule with
  | error err =>
    simp [hrule] at h
  | ok r =>
    rw [hrule] at h
    obtain ⟨rest, hrest, rfl⟩ := map_eq_ok h
    exact ⟨r, rest, rfl, hrest, rfl⟩

variable {r : Route.HeadlessRule}

lemma newHeadlessRule_default {o : DefaultHeadlessRule}
    (h : newHeadlessRule L (.default o) = .ok r) :
    ∃ rule, newDefaultHeadlessRule L o = .ok rule ∧ r = .default rule := by
  unfold newHeadlessRule at h
  split at h
  · obtain ⟨rule, hrule, rfl⟩ := map_eq_ok h
    exact ⟨rule, hrule, rfl⟩
  · cases h

lemma value_addClass {mode : LogicalMode}
    (h : newHeadlessRule L (addClass mode lines (mode = .and) rule) = .ok r) :
    ∃ r₀, newHeadlessRule L rule = .ok r₀ ∧
      r.value c =
        logicalValue mode [(mode = .and) ^^ lines.any (·.hits L false c.flow), r₀.value c] := by
  unfold addClass at h
  by_cases hlines : lines = []
  · rw [if_pos hlines] at h
    refine ⟨r, h, ?_⟩
    cases mode <;> simp [hlines, logicalValue]
  · rw [if_neg hlines] at h
    unfold newHeadlessRule at h
    split at h
    · obtain ⟨rules, hrules, rfl⟩ := map_eq_ok h
      obtain ⟨first, rest, hfirst, hrest, rfl⟩ := newHeadlessRules_cons hrules
      obtain ⟨r₀, last, hr₀, hlast, rfl⟩ := newHeadlessRules_cons hrest
      obtain ⟨rule, hrule, rfl⟩ := newHeadlessRule_default hfirst
      cases hlast
      refine ⟨r₀, hr₀, ?_⟩
      rw [Route.HeadlessRule.value, Route.HeadlessRule.values_eq, Bool.false_xor, map_cons,
        map_cons, Route.HeadlessRule.value, value_classRule hrule,
        isEmpty_eq_false_iff.mpr hlines, Bool.false_or]
      rfl
    · cases h

lemma classOf_of_raw (hraw : lines.all (·.isRawDomain)) (isImportant isExclude : Bool) :
    classOf isImportant isExclude lines = if !isImportant && !isExclude then lines else [] := by
  have hplain it (hit : it ∈ lines) := it.raw (all_eq_true.mp hraw it hit)
  split
  · refine filter_eq_self.mpr fun it hit => ?_
    simp_all
  · refine filter_eq_nil_iff.mpr fun it hit => ?_
    grind -linarith

/-- What the rules of a list match: a list without plain rules matches all that no exception
matches. -/
theorem value_toRule (h : newHeadlessRule L (toRule lines) = .ok r) :
    r.value c = (!classHits L lines true true c.flow && (classHits L lines true false c.flow ||
      !classHits L lines false true c.flow &&
        ((classOf false false lines).isEmpty || classHits L lines false false c.flow))) := by
  unfold toRule at h
  unfold classHits
  cases hraw : lines.all (·.isRawDomain) with
  | true =>
    rw [hraw] at h
    obtain ⟨rule, hrule, rfl⟩ := newHeadlessRule_default h
    simp only [classOf_of_raw hraw]
    unfold newDefaultHeadlessRule at hrule
    split at hrule
    · cases hrule
    · cases hrule
      rw [Route.HeadlessRule.value, value_names]
      simp [RuleLine.hits, Function.comp_def]
  | false =>
    rw [hraw] at h
    obtain ⟨r₁, hr₁, hvalue⟩ := value_addClass h
    obtain ⟨r₂, hr₂, hvalue₁⟩ := value_addClass hr₁
    obtain ⟨r₃, hr₃, hvalue₂⟩ := value_addClass hr₂
    obtain ⟨rule, hrule, rfl⟩ := newHeadlessRule_default hr₃
    rw [hvalue, hvalue₁, hvalue₂, Route.HeadlessRule.value, value_classRule hrule]
    simp [logicalValue]

lemma any_hits (isRaw : Bool) (flow : Flow) : lines.any (·.hits L isRaw flow) =
    ((classOf true true lines).any (·.hits L isRaw flow) ||
      (classOf true false lines).any (·.hits L isRaw flow) ||
      (classOf false true lines).any (·.hits L isRaw flow) ||
      (classOf false false lines).any (·.hits L isRaw flow)) := by
  rw [Bool.eq_iff_iff]
  simp only [classOf, any_filter, Bool.or_eq_true, any_eq_true, Bool.and_eq_true]
  grind -linarith

end Value

/-- The rules made of a list match as they should if the list has a plain rule, or if any of its
lines matches; and only then. -/
theorem precedence_iff (L : Libraries) {filter : Bytes} {lines : List RuleLine}
    {rules : List HeadlessRule} {loaded : List Route.HeadlessRule}
    (hlines : ruleLines L filter = .ok lines)
    (hrules : toOptions L filter = .ok rules) (hloaded : newHeadlessRules L 0 rules = .ok loaded)
    (tag : String) (c : InboundContext) :
    ((RuleSet.match { tag, rules := loaded } c .fresh).1 = true ↔ blocks L lines c.flow = true) ↔
      classOf false false lines ≠ [] ∨
        lines.any (·.hits L (lines.all (·.isRawDomain)) c.flow) = true := by
  have htoRule : rules = [toRule lines] := by
    unfold toOptions at hrules
    rw [hlines] at hrules
    split at hrules
    · cases hrules
    · cases hrules
    · next hok =>
      cases hok
      cases hrules
      rfl
  subst htoRule
  obtain ⟨r, rest, hr, hrest, rfl⟩ := newHeadlessRules_cons hloaded
  cases hrest
  have hmatch : (RuleSet.match { tag, rules := [r] } c .fresh).1 = r.value c := by
    rw [(RuleSet.match_computes _ c .fresh rfl).answer]
    have hverd := RuleSet.verdict_eq_value { tag, rules := [r] } c
    rw [List.any_cons, List.any_nil, Bool.or_false] at hverd
    exact (congrArg Verdict.holds hverd).trans (by cases r.value c <;> rfl)
  rw [hmatch, value_toRule hr, blocks, any_hits]
  change _ ↔ _ ∨ (classHits L lines true true c.flow || classHits L lines true false c.flow ||
    classHits L lines false true c.flow || classHits L lines false false c.flow)
  by_cases hplain : classOf false false lines = []
  · have hnone : classHits L lines false false c.flow = false := by
      rw [classHits, hplain]
      rfl
    rw [hplain, hnone]
    cases classHits L lines true true c.flow <;> cases classHits L lines true false c.flow <;>
      cases classHits L lines false true c.flow <;> simp
  · simp [hplain]

/-- Names are compared as they are, and there are no regular expressions. -/
def sampleLibraries : Libraries where
  isDomainName s := s.all fun b => b = 46 || 97 ≤ b && b ≤ 122
  parseAddr := Netip.parseAddr
  toLower := id
  matchDomain rule host := rule = text host
  matchAdGuard rule host := rule = text "||" ++ text host ++ text "^"
  compile _ := .error "unsupported"

def queried (domain : String) : InboundContext := { flow := { domain } }

lemma eq_ok {α : Type} {x : Except String α} (h : x.toOption.isSome) :
    x = .ok (x.toOption.get h) := by
  cases x with
  | error err => cases h
  | ok a => rfl

theorem precedence_of_exception :
    let filter := text "||a.b^\n@@||c.d^\n||c.d^\n"
    ∃ lines rules loaded, ruleLines sampleLibraries filter = .ok lines ∧
      toOptions sampleLibraries filter = .ok rules ∧
      newHeadlessRules sampleLibraries 0 rules = .ok loaded ∧
      ∀ c, (RuleSet.match { tag := "", rules := loaded } c .fresh).1 = true ↔
        blocks sampleLibraries lines c.flow = true := by
  intro filter
  refine ⟨_, _, _, eq_ok (by decide +kernel), eq_ok (by decide +kernel),
    eq_ok (by decide +kernel), fun c => ?_⟩
  exact (precedence_iff sampleLibraries (eq_ok _) (eq_ok _) (eq_ok _) "" c).mpr
    (.inl (by decide +kernel))

/-- A list of one important rule matches another name. -/
theorem important_alone_matches_all :
    let filter := text "||a.b^$important\n"
    ∃ lines rules loaded, ruleLines sampleLibraries filter = .ok lines ∧
      toOptions sampleLibraries filter = .ok rules ∧
      newHeadlessRules sampleLibraries 0 rules = .ok loaded ∧
      blocks sampleLibraries lines (queried "c.d").flow = false ∧
      (RuleSet.match { tag := "", rules := loaded } (queried "c.d") .fresh).1 = true := by
  intro filter
  refine ⟨_, _, _, eq_ok (by decide +kernel), eq_ok (by decide +kernel),
    eq_ok (by decide +kernel), ?_⟩
  decide +kernel

end SingBox.Convertor
