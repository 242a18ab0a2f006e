import PyScoped.Foundation.Interleaving
import PyScoped.Foundation.Rows
import PyScoped.Legacy.Errors
import PyScoped.Legacy.Rules
import PyScoped.Legacy.Tenancy

/-! Pipelines, stages and the transitions of objects between them in version 1.
The current stage of an object is its transition with the latest time; it is
looked up, checked and then extended by statements of their own. -/

namespace PyScoped.Legacy.Pipelines
open Foundation

structure Pipeline where
  id : String
  name : String
  ownerId : String
  description : String
  createdAt : String
  lifecycle : Lifecycle

def Pipeline.isActive (pipeline : Pipeline) : Bool := pipeline.lifecycle = .active

structure Stage where
  id : String
  pipelineId : String
  name : String
  ordinal : Int
  metadata : Json

/-- Times are kept as the stored text, which is what the database orders by. -/
structure StageTransition where
  id : String
  objectId : String
  fromStageId : Option String
  toStageId : String
  transitionedAt : String
  transitionedBy : String
  reason : String
  deriving DecidableEq

/-- The owner and the type of an object, all that is read of it. -/
structure ObjectFacts where
  ownerId : String
  objectType : String

/-- What is handed to the audit writer. -/
structure Trace where
  actorId : String
  action : ActionType
  targetType : String
  targetId : String
  before : Option Json
  after : Option Json

/-- The transitions stand in the order in which they were committed. -/
structure Store where
  pipelines : Rows Pipeline.id
  stages : Rows Stage.id
  transitions : Rows StageTransition.id
  traces : List Trace

inductive Request where
  | selectPipeline (pipelineId : String)
  | insertPipeline (pipeline : Pipeline)
  | archivePipeline (pipelineId : String)
  | selectStage (stageId : String)
  | insertStage (stage : Stage)
  /-- Objects are other managers' rows. -/
  | selectObject (objectId : String)
  | evaluate (principalId objectId : String) (objectType : Option String) (scopeId : String)
  | selectCurrent (objectId : String)
  /-- The row of a transition, and the stage that was looked up as the current one. -/
  | insertTransition (transition : StageTransition) (currentStageId : Option String)
  | now
  | generateId
  | record (trace : Trace)

def Reply : Request → Type
  | .selectPipeline _ => Option Pipeline
  | .selectStage _ => Option Stage
  | .selectObject _ => Option ObjectFacts
  | .evaluate _ _ _ _ => EvaluationResult
  | .selectCurrent _ => Option StageTransition
  | .now => DateTime
  | .generateId => ScopedId
  | _ => Unit

abbrev Program (α : Type) := Prog Request Reply Raised α

/-- A database error, the row of an object, a verdict, which of several latest
transitions comes first, and where time and identifiers come from. -/
structure Choice where
  failure : Option Raised
  object : Option ObjectFacts
  verdict : EvaluationResult
  tie : Nat
  now : DateTime
  id : ScopedId

namespace Store

/-- The transitions of an object in commit order. -/
def history (store : Store) (objectId : String) : List StageTransition :=
  store.transitions.list.filter fun transition => transition.objectId = objectId

/-- The transitions of an object that none is later than. -/
def latest (store : Store) (objectId : String) : List StageTransition :=
  (store.history objectId).filter fun transition =>
    (store.history objectId).all fun other => decide (other.transitionedAt ≤ transition.transitionedAt)

/-- `ORDER BY transitioned_at DESC LIMIT 1` -/
def current (store : Store) (objectId : String) (tie : Nat) : Option StageTransition :=
  (store.latest objectId)[tie % (store.latest objectId).length]?

end Store

/-- Any statement may fail. -/
def serve {ι : Type} : Service Request Reply Raised Store ι Choice := fun _ choice store request =>
  match choice.failure, request with
  | some error, _ => some (.error error, store)
  | none, .selectPipeline pipelineId => some (.ok (store.pipelines.find pipelineId), store)
  | none, .insertPipeline pipeline =>
    match store.pipelines.insert pipeline with
    | some pipelines => some (.ok (), { store with pipelines := pipelines })
    | none => some (.error (.unique "pipelines"), store)
  | none, .archivePipeline pipelineId =>
    let archived := fun pipeline : Pipeline => { pipeline with lifecycle := .archived }
    some (.ok (), { store with
      pipelines := store.pipelines.update (fun pipeline => pipeline.id = pipelineId) archived fun _ => rfl })
  | none, .selectStage stageId => some (.ok (store.stages.find stageId), store)
  | none, .insertStage stage =>
    if store.stages.list.any fun other => other.pipelineId = stage.pipelineId && other.name = stage.name then
      some (.error (.unique "stages"), store)
    else match store.stages.insert stage with
      | some stages => some (.ok (), { store with stages := stages })
      | none => some (.error (.unique "stages"), store)
  | none, .selectObject _ => some (.ok choice.object, store)
  | none, .evaluate _ _ _ _ => some (.ok choice.verdict, store)
  | none, .selectCurrent objectId => some (.ok (store.current objectId choice.tie), store)
  | none, .insertTransition transition _ =>
    match store.transitions.insert transition with
    | some transitions => some (.ok (), { store with transitions := transitions })
    | none => some (.error (.unique "stage_transitions"), store)
  | none, .now => some (.ok choice.now, store)
  | none, .generateId => some (.ok choice.id, store)
  | none, .record trace => some (.ok (), { store with traces := trace :: store.traces })

def isoText (moment : DateTime) : String := String.ofList moment.isoformat

end Pipelines

/-- Whether an audit writer and a rule engine are wired. -/
structure PipelineManager where
  audit : Bool
  ruleEngine : Bool

namespace PipelineManager
open Foundation Pipelines

variable (manager : PipelineManager)

def trace (trace : Trace) : Program Unit :=
  if manager.audit then Prog.perform (Pipelines.Request.record trace) else pure ()

def createPipeline (name ownerId description : String) : Program Pipeline := do
  let ts : DateTime ← Prog.perform Pipelines.Request.now
  let pid : ScopedId ← Prog.perform Pipelines.Request.generateId
  let pipeline : Pipeline := ⟨pid.text, name, ownerId, description, isoText ts, .active⟩
  let _ : Unit ← Prog.perform (Pipelines.Request.insertPipeline pipeline)
  manager.trace ⟨ownerId, .create, "pipeline", pid.text, none,
    some (.obj [("name", .str name), ("description", .str description)])⟩
  return pipeline

def archivePipeline (pipelineId archivedBy : String) : Program Unit := do
  let _ : Unit ← Prog.perform (Pipelines.Request.archivePipeline pipelineId)
  manager.trace ⟨archivedBy, .lifecycleChange, "pipeline", pipelineId, some (.obj [("lifecycle", .str "ACTIVE")]),
    some (.obj [("lifecycle", .str "ARCHIVED")])⟩

def addStage (pipelineId name : String) (ordinal : Int) (metadata : Option Json) : Program Stage := do
  let sid : ScopedId ← Prog.perform Pipelines.Request.generateId
  let stage : Stage := ⟨sid.text, pipelineId, name, ordinal, metadata.getD (.obj [])⟩
  let _ : Unit ← Prog.perform (Pipelines.Request.insertStage stage)
  let pipeline : Option Pipeline ← Prog.perform (Pipelines.Request.selectPipeline pipelineId)
  match pipeline with
  | some pipeline =>
    manager.trace ⟨pipeline.ownerId, .create, "stage", sid.text, none,
      some (.obj [("name", .str name), ("ordinal", .int ordinal), ("pipeline_id", .str pipelineId)])⟩
  | none => pure ()
  return stage

/-- The stage that is left, which must be in the pipeline of the target stage. -/
def requireSource (toStage : Stage) : Option String → Program Unit
  | none => pure ()
  | some fromStageId => do
    let row : Option Stage ← Prog.perform (Pipelines.Request.selectStage fromStageId)
    match row with
    | none =>
      throw (.scoped .flow ("Source stage '" ++ fromStageId ++ "' not found") [("from_stage_id", .str fromStageId)])
    | some fromStage =>
      if fromStage.pipelineId ≠ toStage.pipelineId then
        throw (.scoped .stageTransitionDenied
          "Stages belong to different pipelines — transitions must stay within a single pipeline."
          [("from_stage_id", .str fromStageId), ("to_stage_id", .str toStage.id),
            ("from_pipeline_id", .str fromStage.pipelineId), ("to_pipeline_id", .str toStage.pipelineId)])

/-- A pipeline that is not found denies nothing. -/
def requirePipeline (pipelineId : String) : Program Unit := do
  let row : Option Pipeline ← Prog.perform (Pipelines.Request.selectPipeline pipelineId)
  match row with
  | none => pure ()
  | some pipeline =>
    if !pipeline.isActive then
      throw (.scoped .stageTransitionDenied ("Pipeline '" ++ pipeline.name ++ "' is archived; transitions denied.")
        [("pipeline_id", .str pipeline.id), ("lifecycle", .str pipeline.lifecycle.name)])

def requireOwner (objectId transitionedBy : String) : Program Unit := do
  let object : Option ObjectFacts ← Prog.perform (Pipelines.Request.selectObject objectId)
  match object with
  | none => throw (.scoped .flow ("Object '" ++ objectId ++ "' not found") [("object_id", .str objectId)])
  | some object =>
    if object.ownerId ≠ transitionedBy then
      throw (.scoped .accessDenied "Only the object owner can transition its stage."
        [("object_id", .str objectId), ("owner_id", .str object.ownerId), ("actor_id", .str transitionedBy)])

/-- `_check_transition_rules` -/
def checkTransitionRules (objectId : String) (objectType : Option String) (principalId toStageId pipelineId : String) :
    Program Unit := do
  if manager.ruleEngine then
    let result : EvaluationResult ← Prog.perform (Pipelines.Request.evaluate principalId objectId objectType pipelineId)
    if !result.allowed && (!result.denyRules.isEmpty || !result.matchingRules.isEmpty) then
      let denyNames := result.denyRules.map (·.name)
      throw (.scoped .stageTransitionDenied ("Stage transition denied by rule(s): " ++ listText denyNames)
        [("object_id", .str objectId), ("to_stage_id", .str toStageId), ("principal_id", .str principalId),
          ("deny_rules", .arr (denyNames.map .str))])

/-- The stage from which the object is moved is its current one. -/
def requireCurrent (objectId : String) (currentStageId : Option String) : Option String → Except Raised Unit
  | none =>
    match currentStageId with
    | some currentStageId =>
      .error (.scoped .stageTransitionDenied
        "Object already has a current stage; pass from_stage_id to move it or use an explicit transition."
        [("object_id", .str objectId), ("current_stage_id", .str currentStageId)])
    | none => .ok ()
  | some fromStageId =>
    if currentStageId ≠ some fromStageId then
      .error (.scoped .stageTransitionDenied "from_stage_id does not match the object's current stage."
        [("object_id", .str objectId), ("from_stage_id", .str fromStageId),
          ("current_stage_id", optionalText currentStageId)])
    else .ok ()

def getCurrentStage (objectId : String) : Program (Option StageTransition) :=
  Prog.perform (Pipelines.Request.selectCurrent objectId)

/-- The insert, which asks for nothing; what the current stage was is a remark. -/
def insertTransition (objectId : String) (currentStageId fromStageId : Option String) (toStageId transitionedBy reason : String) :
    Program StageTransition := do
  let ts : DateTime ← Prog.perform Pipelines.Request.now
  let tid : ScopedId ← Prog.perform Pipelines.Request.generateId
  let trans : StageTransition := ⟨tid.text, objectId, fromStageId, toStageId, isoText ts, transitionedBy, reason⟩
  let _ : Unit ← Prog.perform (Pipelines.Request.insertTransition trans currentStageId)
  manager.trace ⟨transitionedBy, .stageTransition, "stage_transition", tid.text,
    match fromStageId with
    | some "" | none => none
    | some fromStageId => some (.obj [("stage_id", .str fromStageId)]),
    some (.obj [("stage_id", .str toStageId), ("object_id", .str objectId)])⟩
  return trans

def transition (objectId toStageId transitionedBy : String) (fromStageId : Option String) (reason : String) :
    Program StageTransition := do
  let row : Option Stage ← Prog.perform (Pipelines.Request.selectStage toStageId)
  match row with
  | none => throw (.scoped .flow ("Target stage '" ++ toStageId ++ "' not found") [("to_stage_id", .str toStageId)])
  | some toStage =>
    requireSource toStage fromStageId
    requirePipeline toStage.pipelineId
    requireOwner objectId transitionedBy
    let object : Option ObjectFacts ← Prog.perform (Pipelines.Request.selectObject objectId)
    manager.checkTransitionRules objectId (object.map (·.objectType)) transitionedBy toStageId toStage.pipelineId
    let current ← getCurrentStage objectId
    let currentStageId := current.map (·.toStageId)
    requireCurrent objectId currentStageId fromStageId
    manager.insertTransition objectId currentStageId fromStageId toStageId transitionedBy reason

inductive Call where
  | createPipeline (name ownerId description : String)
  | archivePipeline (pipelineId archivedBy : String)
  | addStage (pipelineId name : String) (ordinal : Int) (metadata : Option Json)
  | transition (objectId toStageId transitionedBy : String) (fromStageId : Option String) (reason : String)

def invoke : Call → Program (Option StageTransition)
  | .createPipeline name ownerId description => do
    let _ ← manager.createPipeline name ownerId description
    return none
  | .archivePipeline pipelineId archivedBy => do
    let _ ← manager.archivePipeline pipelineId archivedBy
    return none
  | .addStage pipelineId name ordinal metadata => do
    let _ ← manager.addStage pipelineId name ordinal metadata
    return none
  | .transition objectId toStageId transitionedBy fromStageId reason => do
    return some (← manager.transition objectId toStageId transitionedBy fromStageId reason)

/-- Clients that make one call after the other, and may depend on what the calls
before have returned or raised. -/
inductive Client : Program Unit → Prop where
  | done : Client (.pure ())
  | call (manager : PipelineManager) (made : Call) (next : Except Raised (Option StageTransition) → Program Unit)
      (each : ∀ result, Client (next result)) : Client ((manager.invoke made).attempt.bind next)

end PipelineManager
end PyScoped.Legacy
