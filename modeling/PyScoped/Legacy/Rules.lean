import PyScoped.Foundation.Json
import PyScoped.Legacy.Types

/-! The rule engine of version 1: which rules a request collects, which of them
match, and the decision taken from those, once plain and once explained. -/

namespace PyScoped.Legacy
open Foundation

inductive RuleType where
  | access | sharing | visibility | ownership | constraint | redaction | rateLimit | quota | featureFlag
  deriving DecidableEq, Repr

inductive RuleEffect where
  | allow | deny
  deriving DecidableEq, Repr

def RuleEffect.value : RuleEffect → String
  | .allow => "ALLOW"
  | .deny => "DENY"

inductive BindingTargetType where
  | scope | principal | objectType | object | environment | connector
  deriving DecidableEq, Repr

def BindingTargetType.value : BindingTargetType → String
  | .scope => "scope"
  | .principal => "principal"
  | .objectType => "object_type"
  | .object => "object"
  | .environment => "environment"
  | .connector => "connector"

/-- The columns of a rule that engine and store read. -/
structure Rule where
  id : String
  name : String
  ruleType : RuleType
  effect : RuleEffect
  priority : Int
  conditions : List (String × Json)
  currentVersion : Nat
  lifecycle : Lifecycle

def Rule.isActive (rule : Rule) : Bool := rule.lifecycle == .active

structure RuleBinding where
  id : String
  ruleId : String
  targetType : BindingTargetType
  targetId : String
  lifecycle : Lifecycle
  deriving DecidableEq, Repr

def RuleBinding.isActive (binding : RuleBinding) : Bool := binding.lifecycle == .active

def RuleBinding.attaches (binding : RuleBinding) (rule : Rule) (targetType : BindingTargetType)
    (targetId : String) : Bool :=
  binding.ruleId == rule.id && binding.targetType == targetType && binding.targetId == targetId && binding.isActive

/-- One row for each active binding of an active rule, as the join delivers. -/
def joinedRules (rules : List Rule) (bindings : List RuleBinding) (targetType : BindingTargetType)
    (targetId : String) : List Rule :=
  (rules.filter Rule.isActive).flatMap fun rule =>
    (bindings.filter (·.attaches rule targetType targetId)).map fun _ => rule

/-- The two tables, with the order in which the database happens to return the
rows of a target: the statement asks for none. -/
structure RuleTables where
  rules : List Rule
  bindings : List RuleBinding
  primaryKey : (rules.map Rule.id).Nodup
  fetched : BindingTargetType → String → List Rule
  joined : ∀ targetType targetId, (fetched targetType targetId).Perm (joinedRules rules bindings targetType targetId)

/-- The arguments of an evaluation. -/
structure AccessRequest where
  action : String
  principalId : Option String
  principalKind : Option String
  objectType : Option String
  objectId : Option String
  scopeId : Option String
  environmentId : Option String
  deriving DecidableEq, Repr

structure EvaluationResult where
  allowed : Bool
  matchingRules : List Rule
  denyRules : List Rule
  allowRules : List Rule

structure ConditionMatch where
  conditionKey : String
  matched : Bool
  expected : Json
  actual : Option String

structure RuleExplanation where
  rule : Rule
  matched : Bool
  effect : RuleEffect
  priority : Int
  bindingTargetType : String
  bindingTargetId : String
  conditionMatches : List ConditionMatch
  reason : String

structure EvaluationExplanation where
  result : EvaluationResult
  explanations : List RuleExplanation
  summary : String

/-- Keep the first item of every key. -/
def dedupe (key : α → String) (seen : List String) : List α → List α
  | [] => []
  | item :: items =>
    if key item ∈ seen then dedupe key seen items else item :: dedupe key (key item :: seen) items

/-- Python's `==` between a string and a decoded JSON value. -/
def equalsText (actual : String) : Json → Bool
  | .str value => value == actual
  | _ => false

def valueMatches (expected : Json) (actual : Option String) : Bool :=
  match actual, expected with
  | none, _ => true
  | some actual, .arr items => items.any (equalsText actual)
  | some actual, expected => equalsText actual expected

namespace RuleEngine

def rulesForTarget (tables : RuleTables) (targetType : BindingTargetType) (targetId : String) : List Rule :=
  tables.fetched targetType targetId

/-- The rules of a target that the request names; an empty name is none. -/
def rulesFor (tables : RuleTables) (targetType : BindingTargetType) : Option String → List Rule
  | some targetId => if targetId = "" then [] else rulesForTarget tables targetType targetId
  | none => []

/-- One condition of `_matches_conditions`; every key but the action is skipped
when the request leaves its value out. -/
def conditionHolds (conditions : List (String × Json)) (key : String) (actual : Option String) : Bool :=
  match conditions.lookup key, actual with
  | some (.arr allowed), some actual => allowed.any (equalsText actual)
  | some allowed, some actual => equalsText actual allowed
  | _, _ => true

def matchesConditions (rule : Rule) (request : AccessRequest) : Bool :=
  if rule.conditions.isEmpty then true
  else if !conditionHolds rule.conditions "action" (some request.action) then false
  else if !conditionHolds rule.conditions "principal_kind" request.principalKind then false
  else if !conditionHolds rule.conditions "object_type" request.objectType then false
  else if !conditionHolds rule.conditions "scope_id" request.scopeId then false
  else true

/-- Highest priority first; equal priorities keep their order. -/
def sortByPriority (matching : List Rule) : List Rule :=
  matching.insertionSort fun first second => second.priority ≤ first.priority

def denyOverrides (matching : List Rule) : EvaluationResult :=
  let denyRules := matching.filter (·.effect == .deny)
  let allowRules := matching.filter (·.effect == .allow)
  { allowed := if denyRules ≠ [] then false else if allowRules ≠ [] then true else false
    matchingRules := matching
    denyRules
    allowRules }

/-- What `evaluate` does with the candidates it has collected. -/
def decideFrom (candidates : List Rule) (request : AccessRequest) : EvaluationResult :=
  let unique := dedupe Rule.id [] candidates
  let matching := unique.filter (matchesConditions · request)
  denyOverrides (sortByPriority matching)

def evaluate (tables : RuleTables) (request : AccessRequest) : EvaluationResult :=
  let candidates := rulesFor tables .scope request.scopeId
    ++ rulesFor tables .principal request.principalId
    ++ rulesFor tables .objectType request.objectType
    ++ rulesFor tables .object request.objectId
    ++ rulesFor tables .environment request.environmentId
  decideFrom candidates request

def conditionMatches (rule : Rule) (request : AccessRequest) : List ConditionMatch :=
  [("action", some request.action), ("principal_kind", request.principalKind),
    ("object_type", request.objectType), ("scope_id", request.scopeId)].filterMap fun (key, actual) =>
      (rule.conditions.lookup key).map fun expected =>
        { conditionKey := key, matched := valueMatches expected actual, expected, actual }

def explainMatch (rule : Rule) (request : AccessRequest) (bindingTargetType bindingTargetId : String) :
    RuleExplanation :=
  let found := conditionMatches rule request
  let allMatched := if rule.conditions.isEmpty then true else found.all (·.matched)
  { rule
    matched := allMatched
    effect := rule.effect
    priority := rule.priority
    bindingTargetType
    bindingTargetId
    conditionMatches := found
    reason :=
      if allMatched then
        "Rule '" ++ rule.name ++ "' (" ++ rule.effect.value ++ ") matched — all conditions satisfied"
      else
        "Rule '" ++ rule.name ++ "' did not match — failed on: "
          ++ ", ".intercalate ((found.filter (!·.matched)).map (·.conditionKey)) }

def summary (result : EvaluationResult) : String :=
  match result.denyRules, result.allowRules with
  | topDeny :: _, _ => "Denied by rule '" ++ topDeny.name ++ "' (priority " ++ toString topDeny.priority ++ ")"
  | [], _ :: _ => "Allowed by " ++ toString result.allowRules.length ++ " rule(s), no DENY rules matched"
  | [], [] => "Denied — no matching rules (default-deny)"

/-- A rule with the target that led to it. -/
def candidatesFor (tables : RuleTables) (targetType : BindingTargetType) (targetId : Option String) :
    List (Rule × String × String) :=
  (rulesFor tables targetType targetId).map fun rule => (rule, targetType.value, targetId.getD "")

/-- The explained evaluation takes no environment. -/
def evaluateWithExplanation (tables : RuleTables) (request : AccessRequest) : EvaluationExplanation :=
  let candidates := candidatesFor tables .scope request.scopeId
    ++ candidatesFor tables .principal request.principalId
    ++ candidatesFor tables .objectType request.objectType
    ++ candidatesFor tables .object request.objectId
  let unique := dedupe (fun candidate => candidate.1.id) [] candidates
  let explanations := unique.map fun (rule, targetType, targetId) => explainMatch rule request targetType targetId
  let matching := (explanations.filter (·.matched)).map (·.rule)
  let result := denyOverrides (sortByPriority matching)
  { result, explanations, summary := summary result }

end RuleEngine
end PyScoped.Legacy
