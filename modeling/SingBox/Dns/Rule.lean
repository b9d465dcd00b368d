import SingBox.Route.Semantics

/-! DNS rules with their actions, the responses they are bound to, and the
checks a rule list passes before it is used outside the legacy mode. -/

namespace SingBox.Dns
open Route

inductive RejectMethod
  | default
  | drop
  | reply
  deriving DecidableEq

/-- The actions of a DNS rule. The response of a predefined action is a function
of the query. -/
inductive DNSRuleAction
  | route (server : String) (options : DNSRouteOptions) (speculative : Bool)
  | evaluate (server tag : String) (options : DNSRouteOptions) (speculative : Bool)
  | respond
  | routeOptions (options : DNSRouteOptions)
  | reject (method : RejectMethod)
  | predefined (response : Msg → Msg)

/-- A top-level DNS rule. Rules nested in it carry no action of their own. -/
structure DNSRule where
  rule : Rule
  action : DNSRuleAction
  race : Bool := false

/-- `DefaultDNSRule.MatchResponseTags`. -/
def defaultMatchResponseTags (r : DefaultDNSRule) : List String :=
  if r.matchResponseTag = "" then [] else [r.matchResponseTag]

mutual

/-- `MatchResponseTags`: a logical rule collects the tags of its rules. -/
def matchResponseTags : Rule → List String
  | .default rule => defaultMatchResponseTags rule
  | .logical _ rules _ => (allMatchResponseTags rules).eraseDups

def allMatchResponseTags : List Rule → List String
  | [] => []
  | rule :: rules => matchResponseTags rule ++ allMatchResponseTags rules

end

mutual

def matchResponseAnonymous : Rule → Bool
  | .default rule => rule.matchResponse && rule.matchResponseTag == ""
  | .logical _ rules _ => anyMatchResponseAnonymous rules

def anyMatchResponseAnonymous : List Rule → Bool
  | [] => false
  | rule :: rules => matchResponseAnonymous rule || anyMatchResponseAnonymous rules

end

namespace DNSRule

variable (r : DNSRule)

/-- `MatchResponseTag`: the one tag of a default rule. -/
def matchResponseTag : String :=
  match r.rule with
  | .default rule => rule.matchResponseTag
  | .logical _ _ _ => ""

def matchResponseTags : List String := Dns.matchResponseTags r.rule

def matchResponseAnonymous : Bool := Dns.matchResponseAnonymous r.rule

def hasBindings : Bool := !r.matchResponseTags.isEmpty || r.matchResponseAnonymous

def evaluateTag : Option String :=
  match r.action with
  | .evaluate _ tag _ _ => if tag = "" then none else some tag
  | _ => none

def isSpeculative : Bool :=
  match r.action with
  | .route _ _ speculative => speculative
  | .evaluate _ _ _ speculative => speculative
  | _ => false

end DNSRule

/-! ## Validation -/

namespace DNSRuleAction

def routeOptionsOf : DNSRuleAction → DNSRouteOptions
  | .route _ options _ => options
  | .evaluate _ _ options _ => options
  | .routeOptions options => options
  | _ => {}

def isReplyReject : DNSRuleAction → Bool
  | .reject .reply => true
  | _ => false

def isFinal : DNSRuleAction → Bool
  | .evaluate _ _ _ _ => false
  | .routeOptions _ => false
  | _ => true

def isSpeculativeRoute : DNSRuleAction → Bool
  | .route _ _ speculative => speculative
  | _ => false

/-- A route or evaluate action names its server. -/
def lacksServer : DNSRuleAction → Bool
  | .route server _ _ => server == ""
  | .evaluate server _ _ _ => server == ""
  | _ => false

end DNSRuleAction

def validateDNSRuleAction (action : DNSRuleAction) (race : Bool) : Except String Unit :=
  if action.isReplyReject then
    .error "reject method `reply` is not supported for DNS rules"
  else if action.routeOptionsOf.removeClientSubnet && action.routeOptionsOf.clientSubnet.isSome then
    .error "`client_subnet` and `remove_client_subnet` are mutually exclusive"
  else if race && !action.isFinal then
    .error "`race` requires a final action"
  else if race && action.isSpeculativeRoute then
    .error "`race` and `speculative` cannot be combined on the same rule"
  else .ok ()

/-- The checks of `NewDNSRule` on the action of a top-level rule. A logical rule is
checked for something to race on when its rules are there. -/
def newDNSRule (r : DNSRule) : Except String Unit :=
  match validateDNSRuleAction r.action r.race with
  | .error err => .error err
  | .ok _ =>
    match r.rule with
    | .default rule =>
      if r.race && !rule.matchResponse then .error "`race` requires `match_response`"
      else if r.action.lacksServer then .error "missing server field"
      else .ok ()
    | .logical _ _ _ =>
      if r.action.lacksServer then .error "missing server field"
      else if r.race && !r.hasBindings then .error "`race` requires `match_response` in sub-rules"
      else .ok ()

structure DNSRuleResponseUse where
  needsAnonymous : Bool := false
  referencedTags : List String := []
  deriving DecidableEq

/-- `MessageWithLink` of the two notes that share version and link. -/
def deprecatedMessage (description : String) : String :=
  description ++ " is deprecated in sing-box 1.14.0 and will be removed in sing-box 1.16.0, " ++
  "checkout documentation for migration: " ++
  "https://sing-box.sagernet.org/migration/#migrate-address-filter-fields-to-response-matching"

def legacyDNSAddressFilterMessage : String :=
  deprecatedMessage "Legacy Address Filter Fields in DNS rules"

def ruleSetIPCIDRAcceptEmptyMessage : String :=
  deprecatedMessage "Legacy `rule_set_ip_cidr_accept_empty` DNS rule item"

def responseMatchFieldsMessage : String :=
  "Response Match Fields (ip_cidr, ip_is_private, ip_accept_any, response_rcode, " ++
  "response_answer, response_ns, response_extra) require match_response to be enabled"

/-- `validateLegacyDNSModeDisabledDefaultRule`, without the part on the action. -/
def validateLegacyDNSModeDisabledDefaultRule (r : DefaultDNSRule) :
    Except String DNSRuleResponseUse :=
  let hasResponseRecords := r.plainItems.any RuleItem.isResponseMatchField
  -- Only a set of nothing but addresses is refused: a mixed one can still match by name.
  let addressSets := r.ruleSetItem.any fun item => item.setList.any fun s =>
    s.metadata.containsIPCIDRRule && !s.metadata.containsNonIPCIDRRule
  if (hasResponseRecords || !r.destinationIPCIDRItems.isEmpty) && !r.matchResponse then
    .error responseMatchFieldsMessage
  else if !r.matchResponse && addressSets then
    .error legacyDNSAddressFilterMessage
  else if r.ruleSetItem.any RuleSetItem.ipCidrAcceptEmpty then
    .error ruleSetIPCIDRAcceptEmptyMessage
  else if !r.matchResponse then .ok {}
  else if r.matchResponseTag ≠ "" then .ok { referencedTags := [r.matchResponseTag] }
  else .ok { needsAnonymous := true }

mutual

/-- The tree part of `validateLegacyDNSModeDisabledRuleTree`. -/
def validateRuleTree : Rule → Except String DNSRuleResponseUse
  | .default rule => validateLegacyDNSModeDisabledDefaultRule rule
  | .logical _ rules _ => validateSubRules rules 0

def validateSubRules : List Rule → Nat → Except String DNSRuleResponseUse
  | [], _ => .ok {}
  | rule :: rules, i =>
    match validateRuleTree rule with
    | .error err => .error ("sub rule[" ++ toString i ++ "]: " ++ err)
    | .ok use =>
      (validateSubRules rules (i + 1)).map fun rest =>
        { needsAnonymous := use.needsAnonymous || rest.needsAnonymous
          referencedTags := use.referencedTags ++ rest.referencedTags }

end

/-- What the action of a rule adds to the use its tree makes of responses: a respond
action answers with the response the rule is bound to, or with the anonymous one. -/
def validateRespond (r : DNSRule) (use : DNSRuleResponseUse) : Except String DNSRuleResponseUse :=
  match r.action, r.rule with
  | .respond, .logical _ _ _ =>
    if !use.referencedTags.isEmpty then
      .error ("respond on a logical rule cannot bind a `match_response` tag from its sub rules; " ++
        "use a non-logical rule")
    else .ok { use with needsAnonymous := true }
  | .respond, .default rule =>
    .ok { use with needsAnonymous := use.needsAnonymous || rule.matchResponseTag == "" }
  | _, _ => .ok use

/-- `validateLegacyDNSModeDisabledRuleTree`. -/
def validateLegacyDNSModeDisabledRule (r : DNSRule) : Except String DNSRuleResponseUse :=
  (validateRuleTree r.rule).bind (validateRespond r)

/-- The variables of `validateLegacyDNSModeDisabledRules` that decide errors. -/
structure ValidateState where
  seenAnonymousEvaluate : Bool := false
  definedTags : List String := []

namespace ValidateState

variable (s : ValidateState)

/-- The responses a rule uses are there. -/
def checkUse (label : String) (use : DNSRuleResponseUse) : Except String Unit :=
  if use.needsAnonymous && !s.seenAnonymousEvaluate then
    if s.definedTags.isEmpty then
      .error (label ++ "response-based matching requires a preceding evaluate action")
    else
      .error (label ++ "response-based matching requires a preceding evaluate action without " ++
        "`tag`; use `match_response` with an evaluate tag to reference a tagged result")
  else
    match use.referencedTags.find? fun tag => tag ∉ s.definedTags with
    | some tag => .error (label ++ "undefined evaluate tag: " ++ tag)
    | none => .ok ()

/-- The response an evaluate action adds. -/
def define (label : String) (action : DNSRuleAction) : Except String ValidateState :=
  match action with
  | .evaluate _ tag _ _ =>
    if tag = "" then .ok { s with seenAnonymousEvaluate := true }
    else if tag ∈ s.definedTags then .error (label ++ "duplicate evaluate tag: " ++ tag)
    else .ok { s with definedTags := s.definedTags ++ [tag] }
  | _ => .ok s

/-- One round of the loop of `validateLegacyDNSModeDisabledRules`. -/
def step (i : Nat) (r : DNSRule) : Except String ValidateState :=
  let label := "dns rule[" ++ toString i ++ "]: "
  match validateLegacyDNSModeDisabledRule r with
  | .error err => .error ("validate " ++ label ++ err)
  | .ok use =>
    match s.checkUse label use with
    | .error err => .error err
    | .ok _ => s.define label r.action

end ValidateState

def validateFrom : List DNSRule → Nat → ValidateState → Except String Unit
  | [], _, _ => .ok ()
  | r :: rules, i, s =>
    match newDNSRule r with
    | .error err => .error err
    | .ok _ =>
      match s.step i r with
      | .error err => .error err
      | .ok s => validateFrom rules (i + 1) s

/-- What the constructors and `validateLegacyDNSModeDisabledRules` accept. -/
def validateLegacyDNSModeDisabledRules (rules : List DNSRule) : Except String Unit :=
  validateFrom rules 0 {}

end SingBox.Dns
