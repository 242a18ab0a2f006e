import PyScoped.Foundation.Interleaving
import PyScoped.Legacy.Errors
import PyScoped.Legacy.RuleStore

/-! Rules and their versions, written by clients that share the tables. Every
statement commits by itself. A call that is cut off raises at its next statement. -/

namespace PyScoped.Legacy.RuleVersions
open Foundation
open RuleStore (NewRule)

/-- What a rule enforces, and what each of its versions records. -/
structure Policy where
  conditions : List (String × Json)
  effect : RuleEffect
  priority : Int

def policyOf (rule : Rule) : Policy := ⟨rule.conditions, rule.effect, rule.priority⟩

structure RuleVersion where
  id : String
  ruleId : String
  version : Nat
  policy : Policy

structure Tables where
  rules : List Rule
  versions : List RuleVersion
  bindings : List RuleBinding

/-- The calls of a client. -/
inductive Call where
  | createRule (new : NewRule) (createdBy : String)
  | updateRule (ruleId updatedBy : String) (conditions : Option (List (String × Json))) (effect : Option RuleEffect)
      (priority : Option Int)
  | archiveRule (ruleId archivedBy : String)

inductive Request where
  | began
  | generate
  | selectRule (id : String)
  | insertRule (rule : Rule)
  | insertVersion (version : RuleVersion)
  | updateRule (id : String) (policy : Policy) (currentVersion : Nat)
  | archiveRule (id : String)
  | archiveBindings (ruleId : String)
  | record (actorId : String) (action : ActionType) (targetType targetId : String)
  | invalidate
  | finished (call : Call) (raised : Option Raised)

def Reply : Request → Type
  | .generate => String
  | .selectRule _ => Option Rule
  | _ => Unit

abbrev Program (α : Type) := Prog Request Reply Raised α

/-- How far the call of a client is: whether it has written a row of `rules` and
recorded that as a version. -/
inductive Stage where
  | idle
  | running
  | written (ruleId : String) (version : Nat) (policy : Policy)
  | recorded

/-- How a call ended, with what each rule it overwrote enforced before and after. -/
structure Outcome where
  call : Call
  raised : Option Raised
  changes : List (Policy × Policy)

/-- The tables, and remarks on the calls. -/
structure Store (ι : Type) where
  tables : Tables
  stage : ι → Stage
  changes : ι → List (Policy × Policy)
  outcomes : List Outcome

structure Choice where
  failure : Option Raised
  generated : String

variable {ι : Type} [DecidableEq ι]

def overwrite (policy : Policy) (currentVersion : Nat) (rule : Rule) : Rule :=
  { rule with
    conditions := policy.conditions, effect := policy.effect, priority := policy.priority, currentVersion }

/-- `UPDATE rules SET ... WHERE id = ?` -/
def updated (rules : List Rule) (id : String) (change : Rule → Rule) : List Rule :=
  rules.map fun rule => if rule.id = id then change rule else rule

def answer (choice : Choice) (client : ι) (store : Store ι) : (request : Request) → Except Raised (Reply request) × Store ι
  | .began => (.ok (), { store with
      stage := Function.update store.stage client .running
      changes := Function.update store.changes client [] })
  | .generate => (.ok choice.generated, store)
  | .selectRule id => (.ok (store.tables.rules.find? (·.id == id)), store)
  | .insertRule rule =>
    if store.tables.rules.any (·.id == rule.id) then (.error (.unique "rules"), store)
    else (.ok (), { store with
      tables := { store.tables with rules := store.tables.rules ++ [rule] }
      stage := Function.update store.stage client (.written rule.id rule.currentVersion (policyOf rule)) })
  | .insertVersion version =>
    if store.tables.versions.any fun other =>
        other.id == version.id || other.ruleId == version.ruleId && other.version == version.version then
      (.error (.unique "rule_versions"), store)
    else if !store.tables.rules.any (·.id == version.ruleId) then
      (.error (.other "FOREIGN KEY constraint failed"), store)
    else (.ok (), { store with
      tables := { store.tables with versions := store.tables.versions ++ [version] }
      stage := Function.update store.stage client .recorded })
  | .updateRule id policy currentVersion => (.ok (), { store with
      tables := { store.tables with rules := updated store.tables.rules id (overwrite policy currentVersion) }
      stage := Function.update store.stage client (.written id currentVersion policy)
      changes := Function.update store.changes client (store.changes client ++
        ((store.tables.rules.filter (·.id == id)).map fun rule => (policyOf rule, policy))) })
  | .archiveRule id => (.ok (), { store with
      tables := { store.tables with
        rules := updated store.tables.rules id fun rule => { rule with lifecycle := .archived } } })
  | .archiveBindings ruleId => (.ok (), { store with
      tables := { store.tables with
        bindings := store.tables.bindings.map fun binding =>
          if binding.ruleId = ruleId ∧ binding.isActive then { binding with lifecycle := .archived } else binding } })
  | .record _ _ _ _ => (.ok (), store)
  | .invalidate => (.ok (), store)
  | .finished call raised => (.ok (), { store with
      stage := Function.update store.stage client .idle
      outcomes := ⟨call, raised, store.changes client⟩ :: store.outcomes })

/-- Everything a call does can fail, or is where it is cut off. -/
def Request.fallible : Request → Bool
  | .began => false
  | .finished _ _ => false
  | _ => true

def serve : Service Request Reply Raised (Store ι) ι Choice :=
  fun client choice store request =>
    match choice.failure, request.fallible with
    | some error, true => some (.error error, store)
    | _, _ => some (answer choice client store request)

/-- Whether a rule store has an audit writer and a cache. -/
structure RuleStore where
  audit : Bool
  cache : Bool

namespace RuleStore

variable (self : RuleStore)

def recordIf (actorId : String) (action : ActionType) (targetId : String) : Program Unit :=
  if self.audit then Prog.perform (Request.record actorId action "Rule" targetId) else pure ()

def invalidateIf : Program Unit := if self.cache then Prog.perform Request.invalidate else pure ()

/-- `_create_version` -/
def createVersion (rule : Rule) : Program Unit := do
  let verId : String ← Prog.perform Request.generate
  Prog.perform (Request.insertVersion ⟨verId, rule.id, rule.currentVersion, policyOf rule⟩)

def createRule (new : NewRule) (createdBy : String) : Program Rule := do
  let ruleId : String ← Prog.perform Request.generate
  let rule : Rule :=
    { id := ruleId, name := new.name, ruleType := new.ruleType, effect := new.effect, priority := new.priority
      conditions := new.conditions, currentVersion := 1, lifecycle := .active }
  let _ : Unit ← Prog.perform (Request.insertRule rule)
  createVersion rule
  self.recordIf createdBy .ruleChange ruleId
  self.invalidateIf
  return rule

def getRule (ruleId : String) : Program Rule := do
  let row : Option Rule ← Prog.perform (Request.selectRule ruleId)
  match row with
  | some rule => return rule
  | none => throw (.other ("Rule " ++ ruleId ++ " not found"))

def updateRule (ruleId updatedBy : String) (conditions : Option (List (String × Json))) (effect : Option RuleEffect)
    (priority : Option Int) : Program Rule := do
  let loaded ← getRule ruleId
  let rule := { loaded with
    conditions := conditions.getD loaded.conditions
    effect := effect.getD loaded.effect
    priority := priority.getD loaded.priority
    currentVersion := loaded.currentVersion + 1 }
  let _ : Unit ← Prog.perform (Request.updateRule ruleId (policyOf rule) rule.currentVersion)
  createVersion rule
  self.recordIf updatedBy .ruleChange ruleId
  self.invalidateIf
  return rule

def archiveRule (ruleId archivedBy : String) : Program Rule := do
  let loaded ← getRule ruleId
  let _ : Unit ← Prog.perform (Request.archiveRule ruleId)
  let _ : Unit ← Prog.perform (Request.archiveBindings ruleId)
  self.recordIf archivedBy .lifecycleChange ruleId
  self.invalidateIf
  return { loaded with lifecycle := .archived }

def invoke : Call → Program Rule
  | .createRule new createdBy => self.createRule new createdBy
  | .updateRule ruleId updatedBy conditions effect priority =>
    self.updateRule ruleId updatedBy conditions effect priority
  | .archiveRule ruleId archivedBy => self.archiveRule ruleId archivedBy

/-- A call, and the remark on how it ended. -/
def call (made : Call) : Program (Except Raised Rule) := do
  let _ : Unit ← Prog.perform Request.began
  let result ← (self.invoke made).attempt
  match result with
  | .ok rule =>
    let _ : Unit ← Prog.perform (Request.finished made none)
    return .ok rule
  | .error error =>
    let _ : Unit ← Prog.perform (Request.finished made (some error))
    return .error error

/-- Clients that make one call after another. -/
inductive Client : Program Unit → Prop where
  | done : Client (.pure ())
  | call (made : Call) (next : Except Raised Rule → Program Unit) (each : ∀ result, Client (next result)) :
      Client ((self.call made).bind next)

end RuleStore
end PyScoped.Legacy.RuleVersions
