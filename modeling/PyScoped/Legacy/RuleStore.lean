import PyScoped.Foundation.Interleaving
import PyScoped.Legacy.Errors
import PyScoped.Legacy.Rules

/-! The rule store of version 1 and a rule engine that caches what it selects.
Clients share the tables and the cache; every statement and every cache
operation is a step of its own. -/

namespace PyScoped.Legacy.RuleStore
open Foundation

structure Target where
  targetType : BindingTargetType
  targetId : String
  deriving DecidableEq, Repr

def Target.cacheKey (target : Target) : String := target.targetType.value ++ ":" ++ target.targetId

/-- The tables, with `rule_versions` reduced to what its constraint reads. -/
structure Tables where
  rules : List Rule
  versions : List (String × Nat)
  bindings : List RuleBinding

/-- `SELECT rules.* FROM rules JOIN rule_bindings ...` -/
def Tables.rulesForTarget (tables : Tables) (target : Target) : List Rule :=
  joinedRules tables.rules tables.bindings target.targetType target.targetId

/-- The statements that write. -/
inductive Change where
  | insertRule (rule : Rule)
  | insertVersion (ruleId : String) (version : Nat)
  | updateRule (id : String) (conditions : List (String × Json)) (effect : RuleEffect) (priority : Int)
      (currentVersion : Nat)
  | archiveRule (id : String)
  | archiveBindings (ruleId : String)
  | insertBinding (binding : RuleBinding)
  | archiveBinding (ruleId : String) (target : Target)

def RuleBinding.names (binding : RuleBinding) (ruleId : String) (target : Target) : Bool :=
  binding.ruleId == ruleId && binding.targetType == target.targetType && binding.targetId == target.targetId

def Change.apply (tables : Tables) : Change → Except Raised Tables
  | .insertRule rule =>
    if tables.rules.any (·.id == rule.id) then .error (.unique "rules")
    else .ok { tables with rules := tables.rules ++ [rule] }
  | .insertVersion ruleId version =>
    if (ruleId, version) ∈ tables.versions then .error (.unique "rule_versions")
    else .ok { tables with versions := tables.versions ++ [(ruleId, version)] }
  | .updateRule id conditions effect priority currentVersion =>
    .ok { tables with rules := tables.rules.map fun rule =>
      if rule.id = id then { rule with conditions, effect, priority, currentVersion } else rule }
  | .archiveRule id =>
    .ok { tables with rules := tables.rules.map fun rule =>
      if rule.id = id then { rule with lifecycle := .archived } else rule }
  | .archiveBindings ruleId =>
    .ok { tables with bindings := tables.bindings.map fun binding =>
      if binding.ruleId = ruleId ∧ binding.isActive then { binding with lifecycle := .archived } else binding }
  | .insertBinding binding =>
    if tables.bindings.any fun other => other.id == binding.id
        || RuleBinding.names other binding.ruleId ⟨binding.targetType, binding.targetId⟩ then
      .error (.unique "rule_bindings")
    else if !tables.rules.any (·.id == binding.ruleId) then .error (.other "FOREIGN KEY constraint failed")
    else .ok { tables with bindings := tables.bindings ++ [binding] }
  | .archiveBinding ruleId target =>
    .ok { tables with bindings := tables.bindings.map fun binding =>
      if RuleBinding.names binding ruleId target ∧ binding.isActive then { binding with lifecycle := .archived }
      else binding }

/-- A cached result. How many writes its SELECT had seen is a remark. -/
structure Entry where
  expiresAt : Int
  value : List Rule
  selected : Nat

/-- The rules an evaluation took for a target, between which writes it may have
read them, and the writes of the calls that had ended when it began. -/
structure Use where
  target : Target
  rows : List Rule
  since : Nat
  seen : Nat

/-- The tables after every write so far, the cache, the clock, and remarks:
the last write of the calls that have ended and of those that have at least
invalidated, the last write and the last SELECT of each client's running call,
what had ended when its evaluation began, and all uses. -/
structure Store (ι : Type) where
  past : Nat → Tables
  writes : Nat
  cache : String → Option Entry
  clock : Int
  ended : Nat
  invalidated : Nat
  written : ι → Nat
  selected : ι → Nat
  since : ι → Nat
  uses : List Use

variable {ι : Type}

def Store.tables (store : Store ι) : Tables := store.past store.writes

inductive Request where
  | generate
  | get (target : Target)
  | put (target : Target) (rows : List Rule)
  | invalidate
  | selectTarget (target : Target)
  | selectRule (id : String)
  | selectBinding (ruleId : String) (target : Target)
  | write (change : Change)
  | record (actorId : String) (action : ActionType) (targetType targetId : String)
  | evaluating
  | returned
  | raised

def Reply : Request → Type
  | .generate => String
  | .get _ => Option (List Rule)
  | .selectTarget _ => List Rule
  | .selectRule _ => Option Rule
  | .selectBinding _ _ => Bool
  | _ => Unit

abbrev Program (α : Type) := Prog Request Reply Raised α

/-- Any statement may fail and takes some time; identifiers come from outside. -/
structure Choice where
  failure : Option Raised
  elapsed : Nat
  generated : String

/-- What the cache holds for a target at this moment, past its expiry nothing. -/
def Store.cached (store : Store ι) (target : Target) : Option Entry :=
  (store.cache target.cacheKey).filter fun entry => store.clock ≤ entry.expiresAt

def Store.use (store : Store ι) [DecidableEq ι] (client : ι) (target : Target) (rows : List Rule) : Store ι :=
  { store with uses := ⟨target, rows, store.since client, store.writes⟩ :: store.uses }

/-- Cache operations and remarks never fail. -/
def Request.fallible : Request → Bool
  | .get _ => false
  | .put _ _ => false
  | .invalidate => false
  | .evaluating => false
  | .returned => false
  | .raised => false
  | _ => true

/-- `ttl` is the cache's time to live. -/
def answer [DecidableEq ι] (ttl : Int) (client : ι) (generated : String) (store : Store ι) :
    (request : Request) → Except Raised (Reply request) × Store ι
  | .generate => (.ok generated, store)
  | .get target =>
    match store.cached target with
    | some entry => (.ok (some entry.value), store.use client target entry.value)
    | none => (.ok none, { store with cache := Function.update store.cache target.cacheKey none })
  | .put target rows => (.ok (), { store with
      cache := Function.update store.cache target.cacheKey (some ⟨store.clock + ttl, rows, store.selected client⟩) })
  | .invalidate => (.ok (), { store with
      cache := fun _ => none
      invalidated := max store.invalidated (store.written client) })
  | .selectTarget target =>
    let rows := store.tables.rulesForTarget target
    (.ok rows, { store.use client target rows with
      selected := Function.update store.selected client store.writes })
  | .selectRule id => (.ok (store.tables.rules.find? (·.id == id)), store)
  | .selectBinding ruleId target =>
    (.ok (store.tables.bindings.any fun binding => RuleBinding.names binding ruleId target && binding.isActive), store)
  | .write change =>
    match change.apply store.tables with
    | .error error => (.error error, store)
    | .ok tables => (.ok (), { store with
        past := Function.update store.past (store.writes + 1) tables
        writes := store.writes + 1
        written := Function.update store.written client (store.writes + 1) })
  | .record _ _ _ _ => (.ok (), store)
  | .evaluating => (.ok (), { store with since := Function.update store.since client store.ended })
  | .returned => (.ok (), { store with
      ended := max store.ended (store.written client)
      written := Function.update store.written client 0 })
  | .raised => (.ok (), { store with
      ended := max store.ended (store.written client)
      invalidated := max store.invalidated (store.written client)
      written := Function.update store.written client 0 })

def Store.tick (store : Store ι) (elapsed : Nat) : Store ι := { store with clock := store.clock + elapsed }

def serve [DecidableEq ι] (ttl : Int) : Service Request Reply Raised (Store ι) ι Choice :=
  fun client choice store request =>
    match choice.failure, request.fallible with
    | some error, true => some (.error error, store.tick choice.elapsed)
    | _, _ => some (answer ttl client choice.generated (store.tick choice.elapsed) request)

/-- `if self._audit: self._audit.record(...)` -/
def recordIf (audit : Bool) (actorId : String) (action : ActionType) (targetType targetId : String) : Program Unit :=
  if audit then Prog.perform (Request.record actorId action targetType targetId) else pure ()

/-- The fields a `create_rule` call passes. -/
structure NewRule where
  name : String
  ruleType : RuleType
  effect : RuleEffect
  conditions : List (String × Json)
  priority : Int

def createRule (audit : Bool) (new : NewRule) (createdBy : String) : Program Rule := do
  let ruleId : String ← Prog.perform Request.generate
  let rule : Rule :=
    { id := ruleId, name := new.name, ruleType := new.ruleType, effect := new.effect, priority := new.priority
      conditions := new.conditions, currentVersion := 1, lifecycle := .active }
  let _ : Unit ← Prog.perform (Request.write (.insertRule rule))
  let _ : Unit ← Prog.perform (Request.write (.insertVersion rule.id rule.currentVersion))
  recordIf audit createdBy .ruleChange "Rule" ruleId
  let _ : Unit ← Prog.perform Request.invalidate
  return rule

def getRuleOrRaise (ruleId : String) : Program Rule := do
  let row : Option Rule ← Prog.perform (Request.selectRule ruleId)
  match row with
  | some rule => return rule
  | none => throw (.other ("Rule " ++ ruleId ++ " not found"))

def updateRule (audit : Bool) (ruleId updatedBy : String) (conditions : Option (List (String × Json)))
    (effect : Option RuleEffect) (priority : Option Int) : Program Rule := do
  let loaded ← getRuleOrRaise ruleId
  let rule := { loaded with
    conditions := conditions.getD loaded.conditions
    effect := effect.getD loaded.effect
    priority := priority.getD loaded.priority
    currentVersion := loaded.currentVersion + 1 }
  let _ : Unit ← Prog.perform
    (Request.write (.updateRule ruleId rule.conditions rule.effect rule.priority rule.currentVersion))
  let _ : Unit ← Prog.perform (Request.write (.insertVersion rule.id rule.currentVersion))
  recordIf audit updatedBy .ruleChange "Rule" ruleId
  let _ : Unit ← Prog.perform Request.invalidate
  return rule

def archiveRule (audit : Bool) (ruleId archivedBy : String) : Program Rule := do
  let loaded ← getRuleOrRaise ruleId
  let _ : Unit ← Prog.perform (Request.write (.archiveRule ruleId))
  let _ : Unit ← Prog.perform (Request.write (.archiveBindings ruleId))
  recordIf audit archivedBy .lifecycleChange "Rule" ruleId
  let _ : Unit ← Prog.perform Request.invalidate
  return { loaded with lifecycle := .archived }

/-- Bindings are stored without an audit record. -/
def bindRule (ruleId : String) (target : Target) : Program RuleBinding := do
  let bindingId : String ← Prog.perform Request.generate
  let binding : RuleBinding :=
    { id := bindingId, ruleId, targetType := target.targetType, targetId := target.targetId, lifecycle := .active }
  let _ : Unit ← Prog.perform (Request.write (.insertBinding binding))
  let _ : Unit ← Prog.perform Request.invalidate
  return binding

def unbindRule (ruleId : String) (target : Target) : Program Bool := do
  let found : Bool ← Prog.perform (Request.selectBinding ruleId target)
  if !found then return false
  let _ : Unit ← Prog.perform (Request.write (.archiveBinding ruleId target))
  let _ : Unit ← Prog.perform Request.invalidate
  return true

def getBindings (tables : Tables) (ruleId : String) (activeOnly : Bool) : List RuleBinding :=
  tables.bindings.filter fun binding => binding.ruleId = ruleId ∧ (activeOnly → binding.isActive)

def getTargetBindings (tables : Tables) (target : Target) (activeOnly : Bool) : List RuleBinding :=
  tables.bindings.filter fun binding =>
    binding.targetType = target.targetType ∧ binding.targetId = target.targetId ∧ (activeOnly → binding.isActive)

/-- `RuleEngine._rules_for_target`, with a cache. -/
def rulesForTarget (target : Target) : Program (List Rule) := do
  let cached : Option (List Rule) ← Prog.perform (Request.get target)
  match cached with
  | some rows => return rows
  | none =>
    let rows : List Rule ← Prog.perform (Request.selectTarget target)
    let _ : Unit ← Prog.perform (Request.put target rows)
    return rows

def rulesFor (targetType : BindingTargetType) : Option String → Program (List Rule)
  | some targetId => if targetId = "" then return [] else rulesForTarget ⟨targetType, targetId⟩
  | none => return []

def evaluate (audit : Bool) (request : AccessRequest) : Program EvaluationResult := do
  let _ : Unit ← Prog.perform Request.evaluating
  let scope ← rulesFor .scope request.scopeId
  let principal ← rulesFor .principal request.principalId
  let objectType ← rulesFor .objectType request.objectType
  let object ← rulesFor .object request.objectId
  let environment ← rulesFor .environment request.environmentId
  let result := RuleEngine.decideFrom (scope ++ principal ++ objectType ++ object ++ environment) request
  recordIf audit (request.principalId.getD "system") .accessCheck (request.objectType.getD "unknown")
    (request.objectId.getD "unknown")
  return result

/-- The store calls of a client. -/
inductive Call where
  | createRule (new : NewRule) (createdBy : String)
  | updateRule (ruleId updatedBy : String) (conditions : Option (List (String × Json))) (effect : Option RuleEffect)
      (priority : Option Int)
  | archiveRule (ruleId archivedBy : String)
  | bindRule (ruleId : String) (target : Target)
  | unbindRule (ruleId : String) (target : Target)

inductive Outcome where
  | rule (rule : Rule)
  | binding (binding : RuleBinding)
  | removed (found : Bool)

def invoke (audit : Bool) : Call → Program Outcome
  | .createRule new createdBy => .rule <$> createRule audit new createdBy
  | .updateRule ruleId updatedBy conditions effect priority =>
    .rule <$> updateRule audit ruleId updatedBy conditions effect priority
  | .archiveRule ruleId archivedBy => .rule <$> archiveRule audit ruleId archivedBy
  | .bindRule ruleId target => .binding <$> bindRule ruleId target
  | .unbindRule ruleId target => .removed <$> unbindRule ruleId target

/-- A store call, and the moment its caller has the result or the exception. -/
def call (audit : Bool) (made : Call) : Program (Except Raised Outcome) := do
  let result ← (invoke audit made).attempt
  match result with
  | .ok outcome =>
    let _ : Unit ← Prog.perform Request.returned
    return .ok outcome
  | .error error =>
    let _ : Unit ← Prog.perform Request.raised
    return .error error

/-- Clients that evaluate and change rules, each call chosen after the last. -/
inductive Client : Program Unit → Prop where
  | done : Client (.pure ())
  | evaluate (audit : Bool) (request : AccessRequest) (next : Except Raised EvaluationResult → Program Unit)
      (each : ∀ result, Client (next result)) : Client ((evaluate audit request).attempt.bind next)
  | call (audit : Bool) (made : Call) (next : Except Raised Outcome → Program Unit)
      (each : ∀ result, Client (next result)) : Client ((call audit made).bind next)

end PyScoped.Legacy.RuleStore
