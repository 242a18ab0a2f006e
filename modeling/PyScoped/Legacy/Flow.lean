import PyScoped.Legacy.Environments
import PyScoped.Legacy.ScopeLifecycle

/-! Flow channels of version 1 and the promotion of objects that they gate. A
promotion projects the object into the target scope and records itself. -/

namespace PyScoped.Legacy
open Foundation Environments

namespace Environments.FlowChannel

def isActive (channel : FlowChannel) : Bool := channel.lifecycle = .active

/-- No types at all permit every type. -/
def allowsType (channel : FlowChannel) (objectType : String) : Bool :=
  channel.allowedTypes.isEmpty || channel.allowedTypes.contains objectType

end Environments.FlowChannel

structure FlowResolution where
  allowed : Bool
  channel : Option FlowChannel
  reason : String

namespace FlowEngine

/-- What the rows of a listing have in common. -/
structure Route where
  sourceType : Option FlowPointType
  sourceId : Option String
  targetType : Option FlowPointType
  targetId : Option String
  activeOnly : Bool

def Route.selects (route : Route) (channel : FlowChannel) : Bool :=
  route.sourceType.all (fun wanted => decide (channel.sourceType = wanted)) &&
    route.sourceId.all (fun wanted => decide (channel.sourceId = wanted)) &&
    route.targetType.all (fun wanted => decide (channel.targetType = wanted)) &&
    route.targetId.all (fun wanted => decide (channel.targetId = wanted)) && (!route.activeOnly || channel.isActive)

/-- `ORDER BY created_at DESC LIMIT ?`; rows of one time keep their order. -/
def listChannels (channels : List FlowChannel) (route : Route) (limit : Nat) : List FlowChannel :=
  ((channels.filter route.selects).insertionSort fun first second => second.createdAt ≤ first.createdAt).take limit

/-- A channel that permits the type, if one is given. -/
def permits (objectType : Option String) (channel : FlowChannel) : Bool := objectType.all channel.allowsType

def resolve (channels : List FlowChannel) (objectType : Option String) : FlowResolution :=
  if channels.isEmpty then ⟨false, none, "No active flow channel found for this route"⟩
  else match channels.find? (permits objectType) with
    | some channel => ⟨true, some channel, ""⟩
    | none => ⟨false, none, "No channel permits object type '" ++ objectType.getD "None" ++ "'"⟩

def canFlow (fault : Option Raised) (sourceType : FlowPointType) (sourceId : String) (targetType : FlowPointType)
    (targetId : String) (objectType : Option String) : Program FlowResolution := do
  let channels ← Stateful.ask fault fun world =>
    listChannels world.channels.list ⟨some sourceType, some sourceId, some targetType, some targetId, true⟩ 100
  return resolve channels objectType

end FlowEngine

/-- What a promotion manager is wired with. -/
structure PromotionManager where
  flow : Bool
  projections : Option ProjectionManager
  ruleEngine : Bool
  audit : Bool

namespace PromotionManager
open FlowEngine

/-- The arguments of `promote`. -/
structure Request where
  objectId : String
  sourceEnvId : String
  targetScopeId : String
  promotedBy : String
  targetStageId : Option String
  objectType : Option String
  accessLevel : AccessLevel

variable (manager : PromotionManager) (env : Environments.Env) (request : Request)

def fault (step : PromotionStep) : Option Raised := env.fault (.promotion request.objectId step)

def requireEnvironmentExists : Program Unit := do
  let row ← Stateful.ask (fault env request .environment) fun world => world.environments.find request.sourceEnvId
  if row.isNone then
    throw (.scoped .environmentNotFound ("Environment " ++ request.sourceEnvId ++ " not found")
      [("environment_id", .str request.sourceEnvId)])

def requireScopeExists : Program Unit := do
  let row ← Stateful.ask (fault env request .scope) fun world => world.scopes.find request.targetScopeId
  if row.isNone then
    throw (.scoped .scopeNotFound ("Scope " ++ request.targetScopeId ++ " not found")
      [("scope_id", .str request.targetScopeId)])

def requireObjectExists : Program Unit := do
  let row ← Stateful.ask (fault env request .object) fun world => world.objects.find request.objectId
  if row.isNone then
    throw (.scoped .promotionDenied ("Object " ++ request.objectId ++ " not found") [("object_id", .str request.objectId)])

def requireStageExists : Program Unit :=
  match request.targetStageId with
  | none => pure ()
  | some stageId => do
    let row ← Stateful.ask (fault env request .stage) fun world => world.stages.find stageId
    if row.isNone then
      throw (.scoped .promotionDenied ("Stage " ++ stageId ++ " not found") [("stage_id", .str stageId)])

def requireChannel : Program Unit :=
  if manager.flow then do
    let resolution ← canFlow (fault env request .channels) .environment request.sourceEnvId .scope request.targetScopeId
      request.objectType
    if !resolution.allowed then
      throw (.scoped .promotionDenied ("No flow channel permits this promotion: " ++ resolution.reason)
        [("object_id", .str request.objectId), ("source_env_id", .str request.sourceEnvId),
          ("target_scope_id", .str request.targetScopeId)])
  else pure ()

/-- The type that the rules see: the given one, or else the stored one. -/
def ruledType : Program (Option String) :=
  match request.objectType with
  | none | some "" => Stateful.ask (fault env request .objectType) fun world =>
    (world.objects.find request.objectId).map (·.objectType)
  | some objectType => pure (some objectType)

/-- `_check_promotion_rules`. The verdict is the engine's. -/
def checkPromotionRules (objectType : Option String) : Program Unit :=
  if manager.ruleEngine then do
    let result ← Stateful.ask (fault env request .rules) fun _ => env.verdict request.objectId objectType
    if !result.allowed && (!result.denyRules.isEmpty || !result.matchingRules.isEmpty) then
      let denyNames := result.denyRules.map (·.name)
      throw (.scoped .promotionDenied ("Promotion denied by rule(s): " ++ listText denyNames)
        [("object_id", .str request.objectId), ("source_env_id", .str request.sourceEnvId),
          ("target_scope_id", .str request.targetScopeId), ("principal_id", .str request.promotedBy),
          ("deny_rules", .arr (denyNames.map .str))])
  else pure ()

/-- All that is asked before the object is projected. -/
def check : Program Unit := do
  requireEnvironmentExists env request
  requireScopeExists env request
  requireObjectExists env request
  requireStageExists env request
  requireChannel manager env request
  let objectType ← ruledType env request
  checkPromotionRules manager env request objectType

/-- What `project` asks before it writes: the scope, the owner, and the projection that is there. -/
def checkProjection : Program (Option ScopeProjection) := do
  let scope ← Stateful.ask (fault env request .projectionScope) fun world => world.scopes.find request.targetScopeId
  match scope with
  | none => throw (.scoped .scopeNotFound ("Scope " ++ request.targetScopeId ++ " not found")
      [("scope_id", .str request.targetScopeId)])
  | some scope =>
    if scope.isFrozen || scope.isArchived then
      throw (.scoped .scopeFrozen ("Scope " ++ request.targetScopeId ++ " is not mutable")
        [("scope_id", .str request.targetScopeId), ("lifecycle", .str scope.lifecycle.name)])
    let object ← Stateful.ask (fault env request .projectionObject) fun world => world.objects.find request.objectId
    match object with
    | none => throw (.scoped .accessDenied ("Object " ++ request.objectId ++ " not found")
        [("object_id", .str request.objectId)])
    | some object =>
      if object.ownerId ≠ request.promotedBy then
        throw (.scoped .accessDenied "Only the object owner can project objects into scopes"
          [("object_id", .str request.objectId), ("owner_id", .str object.ownerId),
            ("projected_by", .str request.promotedBy)])
      Stateful.ask (fault env request .projectionLookup) fun world =>
        world.projections.find (request.targetScopeId, request.objectId)

def reactivate (accessLevel : AccessLevel) (projectedAt projectedBy : String) (row : ScopeProjection) : ScopeProjection :=
  { row with lifecycle := .active, accessLevel := accessLevel, projectedAt := projectedAt, projectedBy := projectedBy }

/-- A projection in the place of a revoked one, or a new one. -/
def writeProjection (existing : Option ScopeProjection) (world : World) : World :=
  let projectedAt := isoText (env.now (.promotion request.objectId .project))
  match existing with
  | some _ => { world with
    projections := world.projections.update
      (fun row => row.scopeId = request.targetScopeId && row.objectId = request.objectId)
      (reactivate request.accessLevel projectedAt request.promotedBy) fun _ => rfl }
  | none =>
    let proj : ScopeProjection := ⟨(env.ids (.promotion request.objectId .project)).text, request.targetScopeId,
      request.objectId, projectedAt, request.promotedBy, request.accessLevel, .active⟩
    { world with projections := (world.projections.insert proj).getD world.projections }

/-- There is nothing to write. -/
def isProjected (existing : Option ScopeProjection) : Bool := existing.any fun row => row.lifecycle = .active

/-- `ProjectionManager.project` -/
def project (projections : ProjectionManager) : Program Unit := do
  let existing ← checkProjection env request
  if isProjected existing then
    return
  Stateful.assign (fault env request .project) (writeProjection env request existing)
  recordIf projections.audit (fault env request .traceProjection)
    ⟨request.promotedBy, .projection, "ScopeProjection", request.objectId, some request.targetScopeId⟩

/-- The projection, where a manager of projections is wired. -/
def projectWired : Program Unit :=
  match manager.projections with
  | some projections => project env request projections
  | none => pure ()

def promotion : Promotion :=
  ⟨(env.ids (.promotion request.objectId .promote)).text, request.objectId, request.sourceEnvId, request.targetScopeId,
    request.targetStageId, isoText (env.now (.promotion request.objectId .promote)), request.promotedBy⟩

/-- The record of the promotion, which comes last. -/
def recordPromotion : Program Promotion := do
  let promo := promotion env request
  Stateful.assign (fault env request .promote) fun world => { world with promotions := world.promotions ++ [promo] }
  recordIf manager.audit (fault env request .tracePromotion)
    ⟨request.promotedBy, .promotion, "promotion", promo.id, some request.targetScopeId⟩
  return promo

def promote : Program Promotion := do
  check manager env request
  projectWired manager env request
  recordPromotion manager env request

end PromotionManager
end PyScoped.Legacy
