import PyScoped.Legacy.Flow

/-! The lifecycle of an environment in version 1. Discarding it archives what
was created in it and its scope; promoting it promotes what was created in it. -/

namespace PyScoped.Legacy
open Foundation Environments

/-- Whether an audit writer and a container are wired, and with which promotion manager. -/
structure EnvironmentLifecycle where
  audit : Bool
  container : Bool
  promotionManager : Option PromotionManager

namespace EnvironmentLifecycle

variable (lifecycle : EnvironmentLifecycle) (env : Environments.Env)

def getOrRaise (step : Step) (envId : String) : Program Environment := do
  let row ← Stateful.ask (env.fault step) fun world => world.environments.find envId
  match row with
  | some environment => return environment
  | none => throw (.scoped .environmentNotFound ("Environment '" ++ envId ++ "' not found") [("environment_id", .str envId)])

def requireOwner (environment : Environment) (actorId : String) : Program Unit :=
  if environment.ownerId ≠ actorId then
    throw (.scoped .accessDenied ("Principal '" ++ actorId ++ "' is not the owner of environment '" ++ environment.id ++ "'")
      [("environment_id", .str environment.id), ("actor_id", .str actorId), ("owner_id", .str environment.ownerId)])
  else pure ()

def requireTransition (environment : Environment) (target : EnvironmentState) : Program Unit :=
  if !environment.canTransitionTo target then
    throw (.scoped .environmentState
      ("Cannot transition from '" ++ environment.state.value ++ "' to '" ++ target.value ++ "'")
      [("environment_id", .str environment.id), ("current_state", .str environment.state.value),
        ("target_state", .str target.value)])
  else pure ()

/-- What a transition asks before it writes. -/
def checkTransition (envId : String) (target : EnvironmentState) (actorId : String) : Program Environment := do
  let environment ← getOrRaise env .reloadEnvironment envId
  requireOwner environment actorId
  requireTransition environment target
  return environment

/-- `_transition` -/
def transition (envId : String) (target : EnvironmentState) (actorId : String) : Program Environment := do
  let environment ← checkTransition env envId target actorId
  Stateful.assign (env.fault .updateState) fun world => world.setState envId target
  recordIf lifecycle.audit (env.fault .traceTransition)
    ⟨actorId, target.action, "environment", environment.id, environment.scopeId⟩
  return inState target environment

/-- The loop of `_tombstone_created_objects`. -/
def tombstoneEach : List String → Program Unit
  | [] => return
  | objectId :: objectIds => do
    Stateful.assign (env.fault (.tombstone objectId)) fun world => world.tombstone objectId
    tombstoneEach objectIds

def tombstoneCreatedObjects (envId : String) : Program Unit := do
  let objectIds ← Stateful.ask (env.fault .listCreated) fun world => world.createdObjectIds envId
  tombstoneEach env objectIds

def getScopeOrRaise (step : Step) (scopeId : String) : Program Scope := do
  let row ← Stateful.ask (env.fault step) fun world => world.scopes.find scopeId
  match row with
  | some scope => return scope
  | none => throw (.scoped .scopeNotFound ("Scope " ++ scopeId ++ " not found") [("scope_id", .str scopeId)])

/-- `ScopeLifecycle.archive_scope` -/
def archiveScope (scopeId archivedBy : String) : Program Scope := do
  let scope ← getScopeOrRaise env .getScope scopeId
  if scope.isArchived then
    throw (.scoped .scopeFrozen ("Scope " ++ scopeId ++ " is already archived") [("scope_id", .str scopeId)])
  Stateful.assign (env.fault .archiveScope) fun world => world.archiveScope scopeId
  recordIf lifecycle.audit (env.fault .traceArchive) ⟨archivedBy, .scopeDissolve, "Scope", scopeId, some scopeId⟩
  getScopeOrRaise env .reloadScope scopeId

/-- The scope of an environment, where it has one. -/
def archiveOwnScope (environment : Environment) (actorId : String) : Program Unit :=
  match environment.scopeId with
  | none | some "" => pure ()
  | some scopeId => do
    let _ ← lifecycle.archiveScope env scopeId actorId

def dissolve (environment : Environment) (envId actorId : String) : Program Unit := do
  tombstoneCreatedObjects env envId
  lifecycle.archiveOwnScope env environment actorId

/-- A failure after the transition writes the old state back, and nothing else. -/
def discard (envId actorId : String) : Program Environment := do
  let previous ← getOrRaise env .getEnvironment envId
  let environment ← lifecycle.transition env envId .discarded actorId
  try lifecycle.dissolve env environment envId actorId
  catch error =>
    Stateful.assign (env.fault .restoreState) fun world => world.setState envId previous.state
    throw error
  return environment

/-- The promotion of one of the objects created in an environment, which names no type. -/
def requestFor (envId actorId targetScopeId : String) (targetStageId : Option String) (accessLevel : AccessLevel)
    (objectId : String) : PromotionManager.Request :=
  ⟨objectId, envId, targetScopeId, actorId, targetStageId, none, accessLevel⟩

def promoteEach (manager : PromotionManager) : List PromotionManager.Request → Program Unit
  | [] => return
  | request :: requests => do
    let _ ← manager.promote env request
    promoteEach manager requests

/-- What is asked before the created objects are promoted, and their identifiers. -/
def checkPromotable (envId actorId : String) : Program (List String) := do
  let environment ← getOrRaise env .getEnvironment envId
  requireOwner environment actorId
  Stateful.ask (env.fault .listCreated) fun world => world.createdObjectIds envId

def promoteCreated (envId actorId targetScopeId : String) (targetStageId : Option String)
    (accessLevel : Option AccessLevel) : Program Unit :=
  match lifecycle.container, lifecycle.promotionManager with
  | true, some manager => do
    let objectIds ← checkPromotable env envId actorId
    promoteEach env manager
      (objectIds.map (requestFor envId actorId targetScopeId targetStageId (accessLevel.getD .read)))
  | _, _ =>
    throw (.scoped .environmentState
      "target_scope_id requires EnvironmentLifecycle to be constructed with both a container and a promotion_manager."
      [("environment_id", .str envId), ("target_scope_id", .str targetScopeId)])

/-- The state of the environment is looked at after its objects have been promoted. -/
def promote (envId actorId : String) (targetScopeId targetStageId : Option String) (accessLevel : Option AccessLevel) :
    Program Environment := do
  match targetScopeId with
  | none => pure ()
  | some targetScopeId => lifecycle.promoteCreated env envId actorId targetScopeId targetStageId accessLevel
  lifecycle.transition env envId .promoted actorId

end EnvironmentLifecycle
end PyScoped.Legacy
