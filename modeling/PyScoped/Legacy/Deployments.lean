import PyScoped.Foundation.Instants
import PyScoped.Foundation.Interleaving
import PyScoped.Foundation.Rows
import PyScoped.Legacy.Errors
import PyScoped.Legacy.Tenancy

/-! Deployments of version 1: their gates, their states and their rollbacks. What
a statement changes was checked by statements before it, none of them in a
transaction with it. -/

namespace PyScoped.Legacy.Deployments
open Foundation

inductive DeploymentState where
  | pending | deploying | deployed | failed | rolledBack
  deriving DecidableEq, Repr

def DeploymentState.value : DeploymentState → String
  | .pending => "pending"
  | .deploying => "deploying"
  | .deployed => "deployed"
  | .failed => "failed"
  | .rolledBack => "rolled_back"

/-- `_ALLOWED_TRANSITIONS` -/
def allowedTransitions : DeploymentState → List DeploymentState
  | .pending => [.deploying]
  | .deploying => [.deployed, .failed]
  | .deployed => [.rolledBack]
  | .failed => []
  | .rolledBack => []

inductive GateType where
  | stageCheck | ruleCheck | approval | custom
  deriving DecidableEq, Repr

def GateType.value : GateType → String
  | .stageCheck => "stage_check"
  | .ruleCheck => "rule_check"
  | .approval => "approval"
  | .custom => "custom"

structure DeploymentTarget where
  id : String
  name : String
  targetType : String
  ownerId : String
  createdAt : Moment
  config : Json
  lifecycle : Lifecycle

def DeploymentTarget.isActive (target : DeploymentTarget) : Bool := target.lifecycle = .active

structure Deployment where
  id : String
  targetId : String
  deployedBy : String
  version : Nat
  state : DeploymentState
  objectId : Option String
  scopeId : Option String
  deployedAt : Option Moment
  rollbackOf : Option String
  metadata : Json

def Deployment.snapshot (deployment : Deployment) : Json :=
  .obj [("id", .str deployment.id), ("target_id", .str deployment.targetId), ("object_id", optionalText deployment.objectId),
    ("scope_id", optionalText deployment.scopeId), ("version", .int deployment.version),
    ("state", .str deployment.state.value),
    ("deployed_at", optionalText (deployment.deployedAt.map fun moment => moment.toAware.isoformat)),
    ("deployed_by", .str deployment.deployedBy), ("rollback_of", optionalText deployment.rollbackOf),
    ("metadata", deployment.metadata)]

structure DeploymentGate where
  id : String
  deploymentId : String
  gateType : GateType
  passed : Bool
  checkedAt : Moment
  details : Json

def DeploymentGate.snapshot (gate : DeploymentGate) : Json :=
  .obj [("id", .str gate.id), ("deployment_id", .str gate.deploymentId), ("gate_type", .str gate.gateType.value),
    ("passed", .bool gate.passed), ("checked_at", .str gate.checkedAt.toAware.isoformat), ("details", gate.details)]

/-- What is handed to the audit writer. -/
structure Trace where
  actorId : String
  action : ActionType
  targetType : String
  targetId : String
  before : Option Json
  after : Option Json

/-- A call of the deploy function, and whether a failed gate of the deployment had committed by then. -/
structure Invocation where
  deploymentId : String
  failedGate : Bool
  deriving DecidableEq

abbrev DeploymentTable := Rows Deployment.id

namespace DeploymentTable

def stateOf (deployments : DeploymentTable) (deploymentId : String) : Option DeploymentState :=
  (deployments.find deploymentId).map Deployment.state

/-- `COALESCE(MAX(version), 0)` of a target. -/
def maxVersion (deployments : DeploymentTable) (targetId : String) : Nat :=
  ((deployments.list.filter fun deployment => deployment.targetId = targetId).map Deployment.version).foldr max 0

/-- `UPDATE deployments SET state, deployed_at WHERE id = ...`; without a time, that is left alone. -/
def setState (deployments : DeploymentTable) (deploymentId : String) (state : DeploymentState) (deployedAt : Option Moment) :
    DeploymentTable :=
  deployments.update (·.id = deploymentId) (fun deployment =>
    { deployment with state := state, deployedAt := deployedAt.or deployment.deployedAt }) fun _ => rfl

end DeploymentTable

/-- The tables. Remembered are whose call is in progress, who has set a deployment
going, who has inserted the rollback of which deployment without having marked
that one since, the calls of deploy functions and the changes of states, the
latest first. -/
structure Store (ι : Type) where
  targets : Rows DeploymentTarget.id
  deployments : DeploymentTable
  gates : Rows DeploymentGate.id
  calling : ι → Bool
  launched : String → Option ι
  rolling : ι → Option String
  invocations : List Invocation
  changes : List (DeploymentState × DeploymentState)

inductive Request where
  | fetchTarget (targetId : String)
  /-- Objects and scopes are other managers' rows. -/
  | fetchObject (objectId : String)
  | fetchScope (scopeId : String)
  | fetch (deploymentId : String)
  | maxVersion (targetId : String)
  /-- The row of a deployment, and the state in which its original was found if it is a rollback's. -/
  | insertDeployment (deployment : Deployment) (found : Option DeploymentState)
  /-- The state that was found, the new one, and the time that is set with it. -/
  | setState (deploymentId : String) (found new : DeploymentState) (deployedAt : Option Moment)
  | fetchGates (deploymentId : String)
  | insertGate (gate : DeploymentGate)
  /-- The deploy function is called, after these gates were read. -/
  | invoke (deployment : Deployment) (gates : List DeploymentGate)
  | record (trace : Trace)
  | now
  | generateId
  /-- A call begins or ends, which takes no statement. -/
  | enter
  | leave

/-- What a deploy function does: it answers, or raises an `Exception`, or
something that is none and that no handler here catches. -/
inductive Answer where
  | returned (success : Bool)
  | exception
  | interrupt (error : Raised)

def Reply : Request → Type
  | .fetchTarget _ => Option DeploymentTarget
  | .fetchObject _ => Bool
  | .fetchScope _ => Bool
  | .fetch _ => Option Deployment
  | .maxVersion _ => Nat
  | .fetchGates _ => List DeploymentGate
  | .invoke _ _ => Answer
  | .now => Moment
  | .generateId => ScopedId
  | _ => Unit

abbrev Program (α : Type) := Prog Request Reply Raised α

structure Choice where
  failure : Option Raised
  known : Bool
  answer : Answer
  now : Moment
  id : ScopedId

variable {ι : Type} [DecidableEq ι]

/-- The store before anything was deployed. -/
def Store.starting (targets : Rows DeploymentTarget.id) : Store ι :=
  ⟨targets, .empty, .empty, fun _ => false, fun _ => none, fun _ => none, [], []⟩

namespace Store

def gatesOf (store : Store ι) (deploymentId : String) : List DeploymentGate :=
  store.gates.list.filter fun gate => gate.deploymentId = deploymentId

def failedGate (store : Store ι) (deploymentId : String) : Bool :=
  (store.gatesOf deploymentId).any fun gate => !gate.passed

/-- A state is set, and what is remembered of it. -/
def setState (store : Store ι) (client : ι) (deploymentId : String) (new : DeploymentState) (deployedAt : Option Moment) :
    Store ι :=
  { store with
    deployments := store.deployments.setState deploymentId new deployedAt
    launched := if new = .deploying then Function.update store.launched deploymentId (some client) else store.launched
    rolling := if new = .rolledBack then Function.update store.rolling client none else store.rolling
    changes := ((store.deployments.stateOf deploymentId).map fun before => (before, new)).toList ++ store.changes }

/-- A deployment was inserted, and what is remembered of it. -/
def inserted (store : Store ι) (client : ι) (deployment : Deployment) (found : Option DeploymentState)
    (deployments : DeploymentTable) : Store ι :=
  { store with
    deployments := deployments
    rolling := if found.isSome then Function.update store.rolling client deployment.rollbackOf else store.rolling }

end Store

/-- Any statement may fail, and so cut off the call that it belongs to. -/
def serve : Service Request Reply Raised (Store ι) ι Choice := fun client choice store request =>
  match request, choice.failure with
  | .now, _ => some (.ok choice.now, store)
  | .generateId, _ => some (.ok choice.id, store)
  | .enter, _ => some (.ok (), { store with calling := Function.update store.calling client true })
  | .leave, _ => some (.ok (), { store with calling := Function.update store.calling client false })
  | .invoke deployment _, _ =>
    some (.ok choice.answer, { store with
      invocations := ⟨deployment.id, store.failedGate deployment.id⟩ :: store.invocations })
  | _, some error => some (.error error, store)
  | .fetchTarget targetId, none => some (.ok (store.targets.find targetId), store)
  | .fetchObject _, none => some (.ok choice.known, store)
  | .fetchScope _, none => some (.ok choice.known, store)
  | .fetch deploymentId, none => some (.ok (store.deployments.find deploymentId), store)
  | .maxVersion targetId, none => some (.ok (store.deployments.maxVersion targetId), store)
  | .insertDeployment deployment found, none =>
    match store.deployments.insert deployment with
    | some deployments => some (.ok (), store.inserted client deployment found deployments)
    | none => some (.error (.unique "deployments"), store)
  | .setState deploymentId _ new deployedAt, none =>
    some (.ok (), store.setState client deploymentId new deployedAt)
  | .fetchGates deploymentId, none => some (.ok (store.gatesOf deploymentId), store)
  | .insertGate gate, none =>
    match store.gates.insert gate with
    | some gates => some (.ok (), { store with gates := gates })
    | none => some (.error (.unique "deployment_gates"), store)
  | .record _, none => some (.ok (), store)

end Deployments

/-- Whether an audit writer is wired. -/
structure DeploymentExecutor where
  audit : Bool

structure GateChecker where
  audit : Bool

structure DeploymentRollbackManager where
  executor : DeploymentExecutor
  audit : Bool

namespace Deployments
open Foundation

def record (audit : Bool) (trace : Trace) : Program Unit :=
  if audit then Prog.perform (Request.record trace) else pure ()

/-- What is recorded where somebody is named. -/
def recordBy (audit : Bool) (actorId : Option String) (trace : String → Trace) : Program Unit :=
  match actorId with
  | some actorId => record audit (trace actorId)
  | none => pure ()

/-- A dictionary that is missing or empty gives way to another. -/
def orElse (given : Option Json) (default : Json) : Json :=
  match given with
  | none | some (.obj []) => default
  | some given => given

end Deployments

namespace DeploymentExecutor
open Foundation Deployments

variable (executor : DeploymentExecutor)

def requireTarget (targetId : String) (activeOnly : Bool) : Program DeploymentTarget := do
  let row : Option DeploymentTarget ← Prog.perform (Deployments.Request.fetchTarget targetId)
  match row with
  | none => throw (.scoped .deployment ("Deployment target " ++ targetId ++ " not found") [("target_id", .str targetId)])
  | some target =>
    if activeOnly && !target.isActive then
      throw (.scoped .deployment ("Deployment target " ++ targetId ++ " is archived")
        [("target_id", .str targetId), ("lifecycle", .str target.lifecycle.name)])
    else return target

def requireObject (objectId : String) : Program Unit := do
  let known : Bool ← Prog.perform (Deployments.Request.fetchObject objectId)
  if !known then
    throw (.scoped .deployment ("Deployment object " ++ objectId ++ " not found") [("object_id", .str objectId)])

def requireScope (scopeId : String) : Program Unit := do
  let known : Bool ← Prog.perform (Deployments.Request.fetchScope scopeId)
  if !known then
    throw (.scoped .scopeNotFound ("Scope " ++ scopeId ++ " not found") [("scope_id", .str scopeId)])

def getDeployment (deploymentId : String) : Program (Option Deployment) :=
  Prog.perform (Deployments.Request.fetch deploymentId)

/-- The deployment that is rolled back, which must be of the same target. -/
def requireOriginal (targetId rollbackOf : String) : Program Unit := do
  match ← getDeployment rollbackOf with
  | none =>
    throw (.scoped .deployment ("Rollback source deployment " ++ rollbackOf ++ " not found") [("rollback_of", .str rollbackOf)])
  | some original =>
    if original.targetId ≠ targetId then
      throw (.scoped .deployment "Rollback deployment target must match the original deployment"
        [("rollback_of", .str rollbackOf), ("original_target_id", .str original.targetId), ("target_id", .str targetId)])

def whereGiven (given : Option String) (require : String → Program Unit) : Program Unit :=
  match given with
  | some id => require id
  | none => pure ()

/-- `create_deployment`, of metadata that JSON can write; in which state a rollback has
found its original is a remark. -/
def createDeployment (targetId deployedBy : String) (objectId scopeId : Option String) (metadata : Option Json)
    (rollbackOf : Option String) (found : Option DeploymentState) : Program Deployment := do
  let _ ← requireTarget targetId true
  whereGiven objectId requireObject
  whereGiven scopeId requireScope
  whereGiven rollbackOf (requireOriginal targetId)
  let maxVersion : Nat ← Prog.perform (Deployments.Request.maxVersion targetId)
  let deploymentId : ScopedId ← Prog.perform Deployments.Request.generateId
  let deployment : Deployment :=
    { id := deploymentId.text, targetId := targetId, deployedBy := deployedBy, version := maxVersion + 1, state := .pending
      objectId := objectId, scopeId := scopeId, deployedAt := none, rollbackOf := rollbackOf
      metadata := orElse metadata (.obj []) }
  let _ : Unit ← Prog.perform (Deployments.Request.insertDeployment deployment found)
  record executor.audit ⟨deployedBy, .deploy, "deployment", deploymentId.text, none, some deployment.snapshot⟩
  return deployment

/-- The time that is set with a state. -/
def timeOf (new : DeploymentState) : Program (Option Moment) :=
  if new = .deployed then do
    let ts : Moment ← Prog.perform Deployments.Request.now
    return some ts
  else return none

def transitionState (deploymentId : String) (new : DeploymentState) (actorId : Option String) : Program Deployment := do
  match ← getDeployment deploymentId with
  | none => throw (.scoped .deployment ("Deployment " ++ deploymentId ++ " not found") [("deployment_id", .str deploymentId)])
  | some before =>
    let allowed := allowedTransitions before.state
    if new ∉ allowed then
      throw (.scoped .deployment ("Invalid deployment transition " ++ before.state.value ++ " -> " ++ new.value)
        [("deployment_id", .str deploymentId), ("from_state", .str before.state.value), ("to_state", .str new.value),
          ("allowed_transitions", .arr (allowed.map fun state => .str state.value))])
    else
      let deployedAt ← timeOf new
      let after : Deployment := { before with state := new, deployedAt := deployedAt.or before.deployedAt }
      let _ : Unit ← Prog.perform (Deployments.Request.setState deploymentId before.state new deployedAt)
      recordBy executor.audit actorId fun actorId =>
        ⟨actorId, .deploy, "deployment", deploymentId, some before.snapshot, some after.snapshot⟩
      return after

/-- The gates of a deployment, none of which has failed. -/
def requireGates (deploymentId : String) : Program (List DeploymentGate) := do
  let gates : List DeploymentGate ← Prog.perform (Deployments.Request.fetchGates deploymentId)
  let failed := gates.filter fun gate => !gate.passed
  if failed ≠ [] then
    throw (.scoped .deploymentGateFailed
      (toString failed.length ++ " gate(s) failed for deployment " ++ deploymentId)
      [("deployment_id", .str deploymentId), ("failed_gates", .arr (failed.map fun gate => .str gate.id))])
  else return gates

/-- Whether the deployment succeeds, which it does where no function is given. -/
def deploy (deployFn : Bool) (deployment : Deployment) (gates : List DeploymentGate) : Program Bool :=
  if deployFn then do
    let answer : Answer ← Prog.perform (Deployments.Request.invoke deployment gates)
    match answer with
    | .returned success => return success
    | .exception => return false
    | .interrupt error => throw error
  else return true

def executeDeployment (deploymentId actorId : String) (deployFn : Bool) : Program Deployment := do
  match ← getDeployment deploymentId with
  | none => throw (.scoped .deployment ("Deployment " ++ deploymentId ++ " not found") [("deployment_id", .str deploymentId)])
  | some deployment =>
    if deployment.state ≠ .pending then
      throw (.scoped .deployment ("Deployment must be in PENDING state, got " ++ deployment.state.value)
        [("deployment_id", .str deploymentId), ("state", .str deployment.state.value)])
    else
      let _ ← requireTarget deployment.targetId true
      let gates ← requireGates deploymentId
      let deployment ← executor.transitionState deploymentId .deploying (some actorId)
      if ← deploy deployFn deployment gates then executor.transitionState deploymentId .deployed (some actorId)
      else executor.transitionState deploymentId .failed (some actorId)

end DeploymentExecutor

open Foundation Deployments

def GateChecker.recordGate (checker : GateChecker) (deploymentId : String) (gateType : GateType) (passed : Bool)
    (details : Option Json) (checkedBy : Option String) : Program DeploymentGate := do
  let ts : Moment ← Prog.perform Deployments.Request.now
  let gateId : ScopedId ← Prog.perform Deployments.Request.generateId
  let gate : DeploymentGate := ⟨gateId.text, deploymentId, gateType, passed, ts, orElse details (.obj [])⟩
  let _ : Unit ← Prog.perform (Deployments.Request.insertGate gate)
  recordBy checker.audit checkedBy fun checkedBy =>
    ⟨checkedBy, .gateCheck, "deployment_gate", gateId.text, none, some gate.snapshot⟩
  return gate

def DeploymentRollbackManager.rollbackDeployment (manager : DeploymentRollbackManager) (deploymentId actorId : String)
    (metadata : Option Json) : Program Deployment := do
  match ← DeploymentExecutor.getDeployment deploymentId with
  | none =>
    throw (.scoped .deploymentRollback ("Deployment " ++ deploymentId ++ " not found") [("deployment_id", .str deploymentId)])
  | some original =>
    if original.state ≠ .deployed then
      throw (.scoped .deploymentRollback ("Cannot roll back deployment in state " ++ original.state.value)
        [("deployment_id", .str deploymentId), ("state", .str original.state.value)])
    else
      let rollbackMetadata := orElse metadata (.obj [("reason", .str ("rollback of " ++ deploymentId))])
      let rollback ← manager.executor.createDeployment original.targetId actorId original.objectId original.scopeId
        (some rollbackMetadata) (some deploymentId) (some original.state)
      let _ ← manager.executor.transitionState deploymentId .rolledBack (some actorId)
      record manager.audit ⟨actorId, .deployRollback, "deployment", rollback.id, some original.snapshot, some rollback.snapshot⟩
      return rollback

namespace Deployments

/-- A call, on an executor, a checker or a manager of the client's own. -/
inductive Call where
  | createDeployment (executor : DeploymentExecutor) (targetId deployedBy : String) (objectId scopeId : Option String)
      (metadata : Option Json) (rollbackOf : Option String)
  | recordGate (checker : GateChecker) (deploymentId : String) (gateType : GateType) (passed : Bool) (details : Option Json)
      (checkedBy : Option String)
  | executeDeployment (executor : DeploymentExecutor) (deploymentId actorId : String) (deployFn : Bool)
  | rollbackDeployment (manager : DeploymentRollbackManager) (deploymentId actorId : String) (metadata : Option Json)

def invoke : Call → Program (Option Deployment)
  | .createDeployment executor targetId deployedBy objectId scopeId metadata rollbackOf =>
    some <$> executor.createDeployment targetId deployedBy objectId scopeId metadata rollbackOf none
  | .recordGate checker deploymentId gateType passed details checkedBy =>
    (fun _ => none) <$> checker.recordGate deploymentId gateType passed details checkedBy
  | .executeDeployment executor deploymentId actorId deployFn =>
    some <$> executor.executeDeployment deploymentId actorId deployFn
  | .rollbackDeployment manager deploymentId actorId metadata =>
    some <$> manager.rollbackDeployment deploymentId actorId metadata

/-- A call from its beginning to its end, whether it returns or raises. -/
def call (made : Call) : Program (Except Raised (Option Deployment)) := do
  let _ : Unit ← Prog.perform Request.enter
  let result ← (invoke made).attempt
  let _ : Unit ← Prog.perform Request.leave
  return result

/-- Clients that make one call after the other, and may depend on what the calls
before have returned or raised. -/
inductive Client : Program Unit → Prop where
  | done : Client (.pure ())
  | call (made : Call) (next : Except Raised (Option Deployment) → Program Unit) (each : ∀ result, Client (next result)) :
      Client ((call made).bind next)

end Deployments
end PyScoped.Legacy
