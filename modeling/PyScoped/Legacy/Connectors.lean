import PyScoped.Foundation.Interleaving
import PyScoped.Legacy.Errors
import PyScoped.Legacy.Types

/-! Connectors of version 1 and their transitions. A transition selects the
connector, checks the table of allowed moves, and updates the row by its id. -/

namespace PyScoped.Legacy
open Foundation

inductive ConnectorState where
  | proposed | pendingApproval | active | suspended | revoked | rejected
  deriving DecidableEq, Repr

namespace ConnectorState

def value : ConnectorState → String
  | .proposed => "proposed"
  | .pendingApproval => "pending_approval"
  | .active => "active"
  | .suspended => "suspended"
  | .revoked => "revoked"
  | .rejected => "rejected"

/-- `VALID_CONNECTOR_TRANSITIONS` -/
def transitions : ConnectorState → List ConnectorState
  | .proposed => [.pendingApproval, .rejected, .revoked]
  | .pendingApproval => [.active, .rejected, .revoked]
  | .active => [.suspended, .revoked]
  | .suspended => [.active, .revoked]
  | .revoked => []
  | .rejected => []

end ConnectorState

inductive ConnectorDirection where
  | inbound | outbound | bidirectional
  deriving DecidableEq, Repr

def ConnectorDirection.value : ConnectorDirection → String
  | .inbound => "inbound"
  | .outbound => "outbound"
  | .bidirectional => "bidirectional"

structure Connector where
  id : String
  name : String
  localOrgId : String
  remoteOrgId : String
  remoteEndpoint : String
  createdAt : DateTime
  createdBy : String
  description : String
  state : ConnectorState
  direction : ConnectorDirection
  localScopeId : Option String
  approvedAt : Option DateTime
  approvedBy : Option String
  metadata : Json

namespace Connector

def canTransitionTo (connector : Connector) (target : ConnectorState) : Bool :=
  connector.state.transitions.contains target

def isoJson (moment : DateTime) : Json := .str (String.ofList moment.isoformat)

def textOrNull : Option String → Json
  | some text => .str text
  | none => .null

def snapshot (connector : Connector) : Json :=
  .obj [("id", .str connector.id), ("name", .str connector.name), ("description", .str connector.description),
    ("local_org_id", .str connector.localOrgId), ("remote_org_id", .str connector.remoteOrgId),
    ("remote_endpoint", .str connector.remoteEndpoint), ("state", .str connector.state.value),
    ("direction", .str connector.direction.value), ("local_scope_id", textOrNull connector.localScopeId),
    ("created_at", isoJson connector.createdAt), ("created_by", .str connector.createdBy),
    ("approved_at", (connector.approvedAt.map isoJson).getD .null), ("approved_by", textOrNull connector.approvedBy),
    ("metadata", connector.metadata)]

end Connector

namespace ConnectorManager

/-- What a transition hands to the audit writer. -/
structure Trace where
  actorId : String
  action : ActionType
  targetType : String
  targetId : String
  afterState : Json

/-- What a rule engine answers. -/
structure Verdict where
  allowed : Bool
  denyRules : List String
  matchingRules : List String

/-- What has happened so far: an UPDATE, with the state its call had loaded, the
one it found and the one it wrote, and the return of a call. -/
inductive Event where
  | wrote (id : String) (loaded stored target : ConnectorState)
  | returned (id : String) (target : ConnectorState)
  deriving DecidableEq, Repr

structure Store where
  connectors : String → Option Connector
  traces : List Trace
  history : List Event

/-- The statements of a transition. What an UPDATE's call had loaded is a remark,
which the database does not see. -/
inductive Request where
  | select (id : String)
  | evaluate (action principalId objectId : String) (scopeId : Option String)
  | now
  | update (id : String) (state : ConnectorState) (approved : Option (DateTime × String)) (loaded : ConnectorState)
  | record (trace : Trace)
  | returned (id : String) (target : ConnectorState)

def Reply : Request → Type
  | .select _ => Option Connector
  | .evaluate _ _ _ _ => Verdict
  | .now => DateTime
  | .update _ _ _ _ => Unit
  | .record _ => Unit
  | .returned _ _ => Unit

abbrev Program (α : Type) := Prog Request Reply Raised α

/-- A statement may fail; otherwise rule engine and clock say what they say. -/
structure Choice where
  failure : Option Raised
  verdict : Verdict
  now : DateTime

/-- `UPDATE connectors SET state = ..., approved_at = ..., approved_by = ... WHERE id = ...` -/
def Store.update (store : Store) (id : String) (state : ConnectorState) (approved : Option (DateTime × String))
    (loaded : ConnectorState) : Store :=
  match store.connectors id with
  | none => store
  | some row =>
    let moved := { row with
      state := state
      approvedAt := (approved.map (·.1)).or row.approvedAt
      approvedBy := (approved.map (·.2)).or row.approvedBy }
    { store with
      connectors := Function.update store.connectors id (some moved)
      history := .wrote id loaded row.state state :: store.history }

def serve {ι : Type} : Service Request Reply Raised Store ι Choice := fun _ choice store request =>
  match choice.failure with
  | some error => some (.error error, store)
  | none =>
    match request with
    | .select id => some (.ok (store.connectors id), store)
    | .evaluate _ _ _ _ => some (.ok choice.verdict, store)
    | .now => some (.ok choice.now, store)
    | .update id state approved loaded => some (.ok (), store.update id state approved loaded)
    | .record trace => some (.ok (), { store with traces := trace :: store.traces })
    | .returned id target => some (.ok (), { store with history := .returned id target :: store.history })

end ConnectorManager

/-- Which collaborators a manager is wired with. -/
structure ConnectorManager where
  audit : Bool
  ruleEngine : Bool

namespace ConnectorManager

def checkRule (manager : ConnectorManager) (action principalId objectId : String) (scopeId : Option String) :
    Program Unit := do
  if manager.ruleEngine then
    let result : Verdict ← Prog.perform (Request.evaluate action principalId objectId scopeId)
    if !result.allowed && (!result.denyRules.isEmpty || !result.matchingRules.isEmpty) then
      throw (.scoped .accessDenied (action ++ " denied by rule(s): " ++ listText result.denyRules)
        [("action", .str action), ("principal_id", .str principalId), ("object_id", .str objectId),
          ("scope_id", Connector.textOrNull scopeId), ("deny_rules", .arr (result.denyRules.map .str))])

def getConnectorOrRaise (connectorId : String) : Program Connector := do
  let row : Option Connector ← Prog.perform (Request.select connectorId)
  match row with
  | some connector => return connector
  | none => throw (.scoped .connector ("Connector " ++ connectorId ++ " not found") [("connector_id", .str connectorId)])

def requireCreator (connector : Connector) (actorId : String) : Except Raised Unit :=
  if connector.createdBy ≠ actorId then
    .error (.scoped .accessDenied ("Principal '" ++ actorId ++ "' is not the creator of connector '" ++ connector.id ++ "'")
      [("connector_id", .str connector.id), ("actor_id", .str actorId), ("created_by", .str connector.createdBy)])
  else .ok ()

/-- The actions that have a rule gate. -/
def ruleAction : ActionType → Option String
  | .connectorSubmit => some "connector_submit"
  | .connectorApprove => some "connector_approve"
  | .connectorReject => some "connector_reject"
  | .connectorSuspend => some "connector_suspend"
  | .connectorRevoke => some "connector_revoke"
  | _ => none

def checkRuleOf (manager : ConnectorManager) (action : ActionType) (actorId : String) (connector : Connector)
    (connectorId : String) : Program Unit :=
  match ruleAction action with
  | some rule => manager.checkRule rule actorId connectorId connector.localScopeId
  | none => pure ()

def transition (manager : ConnectorManager) (connectorId : String) (targetState : ConnectorState) (actorId : String)
    (action : ActionType) : Program Connector := do
  let connector ← getConnectorOrRaise connectorId
  requireCreator connector actorId
  manager.checkRuleOf action actorId connector connectorId
  if !connector.canTransitionTo targetState then
    throw (.scoped .connector
      ("Cannot transition connector from " ++ connector.state.value ++ " to " ++ targetState.value)
      [("connector_id", .str connectorId), ("current_state", .str connector.state.value),
        ("target_state", .str targetState.value)])
  let ts : DateTime ← Prog.perform Request.now
  let approved := if targetState = .active ∧ connector.approvedAt = none then some (ts, actorId) else none
  let _ : Unit ← Prog.perform (Request.update connectorId targetState approved connector.state)
  let connector := { connector with
    state := targetState
    approvedAt := (approved.map (·.1)).or connector.approvedAt
    approvedBy := (approved.map (·.2)).or connector.approvedBy }
  if manager.audit then
    let _ : Unit ← Prog.perform (Request.record ⟨actorId, action, "connector", connectorId, connector.snapshot⟩)
  return connector

def submitForApproval (manager : ConnectorManager) (connectorId actorId : String) : Program Connector :=
  manager.transition connectorId .pendingApproval actorId .connectorSubmit

def approve (manager : ConnectorManager) (connectorId actorId : String) : Program Connector :=
  manager.transition connectorId .active actorId .connectorApprove

def reject (manager : ConnectorManager) (connectorId actorId : String) : Program Connector :=
  manager.transition connectorId .rejected actorId .connectorReject

def suspend (manager : ConnectorManager) (connectorId actorId : String) : Program Connector :=
  manager.transition connectorId .suspended actorId .connectorSuspend

def reactivate (manager : ConnectorManager) (connectorId actorId : String) : Program Connector :=
  manager.transition connectorId .active actorId .connectorApprove

def revoke (manager : ConnectorManager) (connectorId actorId : String) : Program Connector :=
  manager.transition connectorId .revoked actorId .connectorRevoke

/-- The calls that move a connector, each with the state it moves to. -/
inductive Method where
  | submitForApproval | approve | reject | suspend | reactivate | revoke
  deriving DecidableEq, Repr

def Method.target : Method → ConnectorState
  | .submitForApproval => .pendingApproval
  | .approve => .active
  | .reject => .rejected
  | .suspend => .suspended
  | .reactivate => .active
  | .revoke => .revoked

def invoke (manager : ConnectorManager) : Method → String → String → Program Connector
  | .submitForApproval => manager.submitForApproval
  | .approve => manager.approve
  | .reject => manager.reject
  | .suspend => manager.suspend
  | .reactivate => manager.reactivate
  | .revoke => manager.revoke

/-- A call, and the moment its caller has the result. -/
def call (manager : ConnectorManager) (method : Method) (connectorId actorId : String) : Program Connector := do
  let connector ← manager.invoke method connectorId actorId
  let _ : Unit ← Prog.perform (Request.returned connectorId method.target)
  return connector

/-- Clients that make calls, each chosen after the last one returned or raised. -/
inductive Client : Program Unit → Prop where
  | done : Client (.pure ())
  | call (manager : ConnectorManager) (method : Method) (connectorId actorId : String)
      (next : Except Raised Connector → Program Unit) (each : ∀ result, Client (next result)) :
      Client ((manager.call method connectorId actorId).attempt.bind next)

end ConnectorManager
end PyScoped.Legacy
