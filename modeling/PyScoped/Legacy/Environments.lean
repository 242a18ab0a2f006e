import PyScoped.Foundation.Rows
import PyScoped.Foundation.Stateful
import PyScoped.Legacy.Objects
import PyScoped.Legacy.Pipelines

/-! Environments of version 1, the objects tracked in them, and the scopes,
projections and promotions that their calls touch. A call is a sequence of
autocommitted statements, each of which may fail. -/

namespace PyScoped.Legacy.Environments
open Foundation

inductive EnvironmentState where
  | spawning | active | suspended | completed | discarded | promoted
  deriving DecidableEq, Repr

namespace EnvironmentState

def value : EnvironmentState → String
  | .spawning => "spawning"
  | .active => "active"
  | .suspended => "suspended"
  | .completed => "completed"
  | .discarded => "discarded"
  | .promoted => "promoted"

/-- `VALID_TRANSITIONS` -/
def validTransitions : EnvironmentState → List EnvironmentState
  | .spawning => [.active]
  | .active => [.suspended, .completed]
  | .suspended => [.active]
  | .completed => [.discarded, .promoted]
  | .discarded => []
  | .promoted => [.discarded]

/-- The action that is recorded for a move to a state. -/
def action : EnvironmentState → ActionType
  | .active => .envResume
  | .suspended => .envSuspend
  | .completed => .envComplete
  | .discarded => .envDiscard
  | .promoted => .envPromote
  | .spawning => .lifecycleChange

end EnvironmentState

inductive ObjectOrigin where
  | created | projected
  deriving DecidableEq, Repr

structure Environment where
  id : String
  name : String
  ownerId : String
  description : String
  templateId : Option String
  scopeId : Option String
  state : EnvironmentState
  ephemeral : Bool
  createdAt : String
  completedAt : Option String
  metadata : Json

def Environment.canTransitionTo (env : Environment) (target : EnvironmentState) : Bool :=
  target ∈ env.state.validTransitions

structure EnvironmentObject where
  id : String
  environmentId : String
  objectId : String
  origin : ObjectOrigin
  addedAt : String
  deriving DecidableEq

/-- The columns of the unique constraint. -/
def EnvironmentObject.address (row : EnvironmentObject) : String × String := (row.environmentId, row.objectId)

inductive FlowPointType where
  | environment | scope | stage
  deriving DecidableEq, Repr

structure FlowChannel where
  id : String
  name : String
  sourceType : FlowPointType
  sourceId : String
  targetType : FlowPointType
  targetId : String
  allowedTypes : List String
  ownerId : String
  createdAt : String
  lifecycle : Lifecycle
  deriving DecidableEq

structure Promotion where
  id : String
  objectId : String
  sourceEnvId : String
  targetScopeId : String
  targetStageId : Option String
  promotedAt : String
  promotedBy : String

/-- The columns of the unique constraint. -/
def projectionAddress (row : ScopeProjection) : String × String := (row.scopeId, row.objectId)

/-- What is handed to the audit writer, as far as it names the call. -/
structure Trace where
  actorId : String
  action : ActionType
  targetType : String
  targetId : String
  scopeId : Option String

/-- Promotions and traces stand in the order in which they were written. -/
structure World where
  environments : Rows Environment.id
  tracked : Rows EnvironmentObject.address
  objects : Rows ScopedObject.id
  scopes : Rows Scope.id
  memberships : List ScopeMembership
  projections : Rows projectionAddress
  channels : Rows FlowChannel.id
  stages : Rows Pipelines.Stage.id
  promotions : List Promotion
  traces : List Trace

/-- Everything but what the audit trail holds. -/
def World.untraced (world : World) : World := { world with traces := [] }

/-- The statements of the promotion of one object. -/
inductive PromotionStep where
  | environment | scope | object | stage | channels | objectType | rules
  | projectionScope | projectionObject | projectionLookup | project | traceProjection
  | promote | tracePromotion
  deriving DecidableEq

/-- The statements of one call. A transaction counts as one: where it fails it leaves nothing. -/
inductive Step where
  | getEnvironment | reloadEnvironment | updateState | traceTransition
  | listCreated
  | tombstone (objectId : String)
  | getScope | archiveScope | traceArchive | reloadScope
  | restoreState
  | promotion (objectId : String) (step : PromotionStep)
  deriving DecidableEq

/-- Which statements of a call fail, and what the clock, the generator of
identifiers and the rule engine answer. -/
structure Env where
  fault : Step → Option Raised
  now : Step → DateTime
  ids : Step → ScopedId
  verdict : String → Option String → EvaluationResult

abbrev Program := Stateful World Raised

def isoText (moment : DateTime) : String := String.ofList moment.isoformat

def recordIf (audit : Bool) (fault : Option Raised) (trace : Trace) : Program Unit :=
  if audit then Stateful.assign fault fun world => { world with traces := trace :: world.traces } else pure ()

/-- `SELECT object_id FROM environment_objects WHERE environment_id = ? AND origin = 'created'` -/
def World.createdObjectIds (world : World) (envId : String) : List String :=
  (world.tracked.list.filter fun row => row.environmentId = envId && row.origin = .created).map (·.objectId)

def inState (state : EnvironmentState) (env : Environment) : Environment := { env with state := state }

def World.setState (world : World) (envId : String) (state : EnvironmentState) : World :=
  { world with environments := world.environments.update (·.id = envId) (inState state) fun _ => rfl }

def archivedObject (object : ScopedObject) : ScopedObject := { object with lifecycle := .archived }

/-- `UPDATE scoped_objects SET lifecycle = 'ARCHIVED' WHERE id = ? AND lifecycle != 'ARCHIVED'` -/
def World.tombstone (world : World) (objectId : String) : World :=
  { world with
    objects := world.objects.update (fun object => object.id = objectId && object.lifecycle ≠ .archived)
      archivedObject fun _ => rfl }

def archivedScope (scope : Scope) : Scope := { scope with lifecycle := .archived }

def archivedProjection (row : ScopeProjection) : ScopeProjection := { row with lifecycle := .archived }

/-- The transaction of `archive_scope`: memberships, projections and the scope itself. -/
def World.archiveScope (world : World) (scopeId : String) : World :=
  { world with
    memberships := world.memberships.map fun row =>
      if row.scopeId = scopeId ∧ row.lifecycle = .active then { row with lifecycle := .archived } else row
    projections := world.projections.update (fun row => row.scopeId = scopeId && row.lifecycle = .active)
      archivedProjection fun _ => rfl
    scopes := world.scopes.update (·.id = scopeId) archivedScope fun _ => rfl }

end PyScoped.Legacy.Environments
