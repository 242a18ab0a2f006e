import PyScoped.Foundation.JsonText
import PyScoped.Legacy.AuditTable
import PyScoped.Legacy.Types

/-! The writer of the audit trail. It keeps the tip of the chain in memory, seeded
from the table when it is constructed and again before each call. -/

namespace PyScoped.Legacy
open Foundation

/-- The members of the enumeration. -/
def ActionType.all : List ActionType :=
  [.create, .read, .update, .delete, .share, .revoke, .register, .unregister, .ruleChange, .rollback, .scopeCreate,
    .scopeModify, .scopeDissolve, .membershipChange, .ownershipTransfer, .lifecycleChange, .accessCheck,
    .projection, .envSpawn, .envSuspend, .envResume, .envComplete, .envDiscard, .envPromote, .envSnapshot,
    .stageTransition, .flowPush, .promotion, .deploy, .deployRollback, .gateCheck, .secretCreate, .secretRead,
    .secretRotate, .secretRevoke, .secretRefGrant, .secretRefResolve, .integrationConnect, .integrationDisconnect,
    .pluginInstall, .pluginActivate, .pluginSuspend, .pluginUninstall, .pluginPermissionGrant,
    .pluginPermissionRevoke, .hookRegister, .hookDeactivate, .hookExecute, .connectorPropose, .connectorSubmit,
    .connectorApprove, .connectorReject, .connectorSuspend, .connectorRevoke, .connectorSync, .connectorPolicyAdd,
    .marketplacePublish, .marketplaceInstall, .marketplaceVersionUpdate, .marketplaceDeprecate, .marketplaceRemove,
    .marketplaceVisibilityChange, .marketplaceReview, .contractCreate, .contractUpdate, .contractValidate,
    .blobCreate, .blobRead, .blobDelete, .rateLimitCheck, .quotaCheck, .featureFlagCheck, .redactionApply,
    .configSet, .configDelete, .templateCreate, .templateUpdate, .templateInstantiate, .exportPackage,
    .importPackage, .eventEmit, .eventSubscribe, .eventUnsubscribe, .webhookCreate, .webhookDelete, .webhookDeliver,
    .notificationCreate, .notificationRead, .notificationDismiss, .notificationRuleCreate, .scheduleCreate,
    .scheduleArchive, .jobEnqueue, .jobStart, .jobComplete, .jobFail, .jobCancel]

structure AuditWriter where
  algorithm : Digest
  sequence : Int
  lastHash : String

namespace AuditWriter

/-- The table, and the writer that is called. -/
structure State where
  table : AuditTable
  writer : AuditWriter

abbrev Program := Stateful State Raised

/-- `ORDER BY sequence DESC LIMIT 1` -/
def newest (table : AuditTable) : Option AuditRow := (AuditTable.inOrder table).getLast?

def seedChain (table : AuditTable) : Int × String :=
  match newest table with
  | none => (0, "")
  | some row => (row.sequence, row.hash)

def construct (algorithm : Digest) (table : AuditTable) : AuditWriter :=
  ⟨algorithm, (seedChain table).1, (seedChain table).2⟩

def reseeded (state : State) : AuditWriter :=
  if state.writer.sequence < (seedChain state.table).1 then construct state.writer.algorithm state.table else state.writer

def reseedIfStale : Program Unit := modify fun state => { state with writer := reseeded state }

/-- The keyword arguments of `record`. -/
structure Recording where
  actorId : String
  action : ActionType
  targetType : String
  targetId : String
  scopeId : Option String
  beforeState : Option Json
  afterState : Option Json
  metadata : List (String × Json)
  parentTraceId : Option String

/-- A dictionary of a batch, by what it has under each key. -/
structure BatchEntry where
  actorId : Option String
  action : Option (ActionType ⊕ String)
  targetType : Option String
  targetId : Option String
  scopeId : Option String
  beforeState : Option Json
  afterState : Option Json
  metadata : Option Json
  parentTraceId : Option String

def dumps (value : Json) : String := String.ofList value.spaced

/-- The row of an entry behind the tip of the chain. -/
def entryRow (writer : AuditWriter) (entryId : String) (timestamp : Moment) (actorId : String) (action : ActionType)
    (targetType targetId : String) (scopeId : Option String) (beforeState afterState : Option Json) (metadata : Json)
    (parentTraceId : Option String) : AuditRow :=
  let entry : AuditRow :=
    { id := entryId, sequence := writer.sequence + 1, actorId, action := action.value, targetType, targetId, scopeId
      timestamp := timestamp.isoformat, beforeState := beforeState.map dumps, afterState := afterState.map dumps
      metadataJson := dumps metadata, parentTraceId, hash := "", previousHash := writer.lastHash }
  { entry with hash := entry.computeHash writer.algorithm }

/-- An entry becomes the tip. -/
def advanced (writer : AuditWriter) (entry : AuditRow) : AuditWriter :=
  { writer with sequence := entry.sequence, lastHash := entry.hash }

/-- The row's parent is in the table, or is the row itself. -/
def hasParent (table : AuditTable) (row : AuditRow) : Bool :=
  row.parentTraceId.all fun parent => decide (parent = row.id) || table.list.any fun other => decide (other.id = parent)

def persistInTxn (row : AuditRow) : Program Unit := do
  let state ← get
  if state.table.list.any fun other => decide (other.id = row.id) then
    throw (.unique "audit_trail.id")
  match state.table.insert row with
  | none => throw (.unique "audit_trail.sequence")
  | some table =>
    if hasParent state.table row then
      set { state with table }
    else throw (.other "FOREIGN KEY constraint failed")

/-- What is written inside is taken back when the body raises; the writer's memory is not. -/
def transaction {α : Type} (body : Program α) : Program α := do
  let before ← get
  tryCatch body fun error => do
    modify fun state => { state with table := before.table }
    throw error

/-- A unique constraint that names the sequence. -/
def isSequenceCollision : Raised → Bool
  | .unique name => name = "audit_trail.sequence"
  | _ => false

/-- What one attempt draws: a new identifier, and the clock. -/
structure Draw where
  entryId : String
  timestamp : Moment

/-- The attempts of `record`, as long as the sequence collides. -/
def recordAttempts (recording : Recording) : List Draw → Program AuditRow
  | [] => throw (.other "Failed to assign unique audit sequence after 3 retries")
  | draw :: later => do
    reseedIfStale
    let state ← get
    let entry := entryRow state.writer draw.entryId draw.timestamp recording.actorId recording.action recording.targetType
      recording.targetId recording.scopeId recording.beforeState recording.afterState (.obj recording.metadata)
      recording.parentTraceId
    tryCatch (do
        transaction (persistInTxn entry)
        modify fun state => { state with writer := state.writer.advanced entry }
        return entry) fun error =>
      if isSequenceCollision error && !later.isEmpty then recordAttempts recording later else throw error

/-- `_MAX_SEQUENCE_RETRIES + 1` attempts. -/
def record (recording : Recording) (draws : Fin 4 → Draw) : Program AuditRow := recordAttempts recording (List.ofFn draws)

/-- What an attempt at a batch draws: the clock once, and an identifier for each entry. -/
structure BatchDraw where
  entryId : Nat → String
  timestamp : Moment

/-- `ActionType(action)`, unless it is one. -/
def actionOf : ActionType ⊕ String → Option ActionType
  | .inl action => some action
  | .inr text => ActionType.all.find? fun action => action.value = text

def requireKey {α : Type} (key : String) : Option α → Except Raised α
  | none => .error (.other ("'" ++ key ++ "'"))
  | some value => .ok value

/-- The row of a dictionary, where it has the keys that are read without a default. -/
def batchRow (writer : AuditWriter) (entryId : String) (timestamp : Moment) (entry : BatchEntry) : Except Raised AuditRow := do
  let given ← requireKey "action" entry.action
  let actorId ← requireKey "actor_id" entry.actorId
  let targetType ← requireKey "target_type" entry.targetType
  let targetId ← requireKey "target_id" entry.targetId
  match actionOf given with
  | none => .error (.other "not a valid ActionType")
  | some action =>
    return entryRow writer entryId timestamp actorId action targetType targetId entry.scopeId entry.beforeState
      entry.afterState (entry.metadata.getD (.obj [])) entry.parentTraceId

def persistEach (draw : BatchDraw) : Nat → List BatchEntry → Program (List AuditRow)
  | _, [] => return []
  | position, entry :: entries => do
    let state ← get
    let row ← liftM (batchRow state.writer (draw.entryId position) draw.timestamp entry)
    persistInTxn row
    modify fun state => { state with writer := state.writer.advanced row }
    let rows ← persistEach draw (position + 1) entries
    return row :: rows

/-- The attempts of `record_batch`. An attempt that fails puts the memory back. -/
def batchAttempts (entries : List BatchEntry) : List BatchDraw → Program (List AuditRow)
  | [] => throw (.other "Failed to assign unique audit sequence for batch after 3 retries")
  | draw :: later => do
    reseedIfStale
    let saved ← get
    tryCatch (transaction (persistEach draw 0 entries)) fun error => do
      modify fun state => { state with writer := saved.writer }
      if isSequenceCollision error && !later.isEmpty then batchAttempts entries later else throw error

def recordBatch (entries : List BatchEntry) (draws : Fin 4 → BatchDraw) : Program (List AuditRow) :=
  batchAttempts entries (List.ofFn draws)

end AuditWriter

/-- The audit trail of a run: its table, and the writers that are open. -/
structure AuditTrail (κ : Type) where
  table : AuditTable
  writers : κ → Option AuditWriter

namespace AuditTrail
open AuditWriter

variable {κ : Type} [DecidableEq κ]

inductive Turn (κ : Type) where
  | construct (writer : κ) (algorithm : Digest)
  | close (writer : κ)
  | record (writer : κ) (recording : Recording) (draws : Fin 4 → Draw)
  | recordBatch (writer : κ) (entries : List BatchEntry) (draws : Fin 4 → BatchDraw)
  | apply (now : Moment) (policy : RetentionPolicy)

def start : AuditTrail κ := ⟨Rows.empty, fun _ => none⟩

/-- A call of an open writer: the entries it returns, and what it leaves. -/
def through (trail : AuditTrail κ) (name : κ) (program : AuditWriter.Program (List AuditRow)) :
    List AuditRow × AuditTrail κ :=
  match trail.writers name with
  | none => ([], trail)
  | some writer =>
    let (answer, state) := program.on ⟨trail.table, writer⟩
    (answer.toOption.getD [], ⟨state.table, Function.update trail.writers name (some state.writer)⟩)

def turn (trail : AuditTrail κ) : Turn κ → List AuditRow × AuditTrail κ
  | .construct name algorithm =>
    ([], { trail with writers := Function.update trail.writers name (some (AuditWriter.construct algorithm trail.table)) })
  | .close name => ([], { trail with writers := Function.update trail.writers name none })
  | .record name recording draws => through trail name ((fun entry => [entry]) <$> record recording draws)
  | .recordBatch name entries draws => through trail name (recordBatch entries draws)
  | .apply now policy => ([], { trail with table := ((AuditRetention.apply now policy).on trail.table).2 })

/-- The entries that the calls of a run have returned, in order, and what they leave. -/
def run (trail : AuditTrail κ) : List (Turn κ) → List AuditRow × AuditTrail κ
  | [] => ([], trail)
  | turn :: turns =>
    let (entries, after) := trail.turn turn
    let (later, final) := after.run turns
    (entries ++ later, final)

end AuditTrail
end PyScoped.Legacy
