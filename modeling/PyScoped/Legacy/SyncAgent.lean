import PyScoped.Foundation.Interleaving
import PyScoped.Legacy.AuditTable
import PyScoped.Legacy.Types

/-! The agent of version 1 that ships the audit trail to the management plane. It
reads behind a stored watermark, pushes a batch and then moves the watermark, one
autocommitted statement after the other, while entries go on being committed. -/

namespace PyScoped.Legacy.SyncAgent
open Foundation

inductive SyncStatus where
  | idle | syncing | paused | error | stopped
  deriving DecidableEq, Repr

/-- The row of `_sync_state`. Times are kept as the stored text. -/
structure SyncState where
  lastSequence : Int
  lastHash : String
  lastSyncedAt : Option String
  lastBatchId : Option String
  status : SyncStatus
  errorMessage : Option String
  errorCount : Nat
  createdAt : String
  updatedAt : String
  deriving DecidableEq

structure SyncStateSnapshot where
  lastSequence : Int
  lastHash : String
  lastSyncedAt : Option String
  lastBatchId : Option String
  status : SyncStatus
  errorMessage : Option String
  errorCount : Nat
  deriving DecidableEq

/-- An entry without its states. Its time and its metadata are kept as the stored texts. -/
structure SyncEntryMetadata where
  id : String
  sequence : Int
  actorId : String
  action : String
  targetType : String
  targetId : String
  timestamp : String
  hash : String
  previousHash : String
  scopeId : Option String
  parentTraceId : Option String
  metadata : String
  deriving DecidableEq

/-- The columns that are selected. -/
def entryMetadata (row : AuditRow) : SyncEntryMetadata where
  id := row.id
  sequence := row.sequence
  actorId := row.actorId
  action := row.action
  targetType := row.targetType
  targetId := row.targetId
  timestamp := row.timestamp
  hash := row.hash
  previousHash := row.previousHash
  scopeId := row.scopeId
  parentTraceId := row.parentTraceId
  metadata := row.metadataJson

structure ResourceCounts where
  activeObjects : Nat
  activePrincipals : Nat
  activeScopes : Nat
  timestamp : DateTime
  deriving DecidableEq

structure SyncBatch where
  batchId : String
  sdkVersion : String
  entries : List SyncEntryMetadata
  resourceCounts : ResourceCounts
  firstSequence : Int
  lastSequence : Int
  chainHash : String
  contentHash : String
  signature : String
  createdAt : DateTime
  deriving DecidableEq

structure SyncBatchAck where
  batchId : String
  accepted : Bool
  serverSequence : Int
  serverChainHash : String
  message : String
  errors : List String
  deriving DecidableEq

/-- What the client of the management plane computes with its key. -/
structure Transport where
  contentHash : List SyncEntryMetadata → String
  signPayload : List SyncEntryMetadata → String → String → String

/-- The tables and the two events of the agent, the batches that the management plane
has taken, the latest first, and all entries that were ever committed, in that order. -/
structure Store where
  trail : AuditTable
  state : Option SyncState
  stopping : Bool
  running : Bool
  accepted : List SyncBatch
  history : List AuditRow

inductive Request where
  | status
  | ensureState (ts : String)
  | setStatus (status : SyncStatus) (ts : String)
  | setWatermark (lastSequence : Int) (lastHash batchId ts : String)
  | setError (message : String) (errorCount : Nat) (ts : String)
  | newEntries (afterSequence : Int) (limit : Nat)
  | countActive (table : String)
  | push (batch : SyncBatch)
  | stopIsSet
  /-- Blocks as long as the agent is paused. -/
  | pauseWait
  | setStopping (stopping : Bool)
  | setRunning (running : Bool)
  | threadAlive
  /-- The interval between two cycles, or the delay behind a failed one. -/
  | wait
  | now
  | generateId
  /-- An audit writer commits. -/
  | commit (rows : List AuditRow)
  /-- Retention deletes, or drops states. -/
  | delete (chosen : AuditRow → Bool)
  | compact (chosen : AuditRow → Bool) (before after : Bool)

def Reply : Request → Type
  | .status => Option SyncState
  | .newEntries _ _ => List SyncEntryMetadata
  | .countActive _ => Nat
  | .push _ => SyncBatchAck
  | .stopIsSet => Bool
  | .threadAlive => Bool
  | .now => DateTime
  | .generateId => ScopedId
  | _ => Unit

abbrev Program (α : Type) := Prog Request Reply Raised α

/-- The answer of the management plane, and whether it has taken a batch whose push raises. -/
structure Choice where
  failure : Option Raised
  now : DateTime
  id : ScopedId
  count : Nat
  alive : Bool
  ack : SyncBatchAck
  taken : Bool

/-- Rows under new sequences, all or none of them. -/
def insertAll : List AuditRow → AuditTable → Option AuditTable
  | [], table => some table
  | row :: rows, table => (table.insert row).bind (insertAll rows)

def entriesAfter (table : AuditTable) (afterSequence : Int) (limit : Nat) : List SyncEntryMetadata :=
  (((AuditTable.inOrder table).filter fun row => afterSequence < row.sequence).take limit).map entryMetadata

/-- `UPDATE _sync_state SET ... WHERE id = 'singleton'` -/
def Store.assign (store : Store) (change : SyncState → SyncState) : Store := { store with state := store.state.map change }

def Store.take (store : Store) (batch : SyncBatch) : Store := { store with accepted := batch :: store.accepted }

theorem compacted_sequence (before after : Bool) (row : AuditRow) :
    (AuditRetention.compacted before after row).sequence = row.sequence := rfl

variable {ι : Type}

/-- Any statement may fail, and any push. -/
@[simp] def serve : Service Request Reply Raised Store ι Choice := fun _ choice store request =>
  match request, choice.failure with
  | .now, _ => some (.ok choice.now, store)
  | .generateId, _ => some (.ok choice.id, store)
  | .stopIsSet, _ => some (.ok store.stopping, store)
  | .pauseWait, _ => if store.running then some (.ok (), store) else none
  | .setStopping stopping, _ => some (.ok (), { store with stopping := stopping })
  | .setRunning running, _ => some (.ok (), { store with running := running })
  | .threadAlive, _ => some (.ok choice.alive, store)
  | .wait, _ => some (.ok (), store)
  | .push batch, some error => some (.error error, if choice.taken then store.take batch else store)
  | .push batch, none => some (.ok choice.ack, if choice.ack.accepted then store.take batch else store)
  | _, some error => some (.error error, store)
  | .status, none => some (.ok store.state, store)
  | .ensureState ts, none =>
    some (.ok (), { store with state := some (store.state.getD ⟨0, "", none, none, .idle, none, 0, ts, ts⟩) })
  | .setStatus status ts, none =>
    some (.ok (), store.assign fun state => { state with status := status, updatedAt := ts })
  | .setWatermark lastSequence lastHash batchId ts, none =>
    some (.ok (), store.assign fun state => { state with
      lastSequence := lastSequence, lastHash := lastHash, lastSyncedAt := some ts, lastBatchId := some batchId
      status := .syncing, errorMessage := none, errorCount := 0, updatedAt := ts })
  | .setError message errorCount ts, none =>
    some (.ok (), store.assign fun state => { state with
      status := .error, errorMessage := some message, errorCount := errorCount, updatedAt := ts })
  | .newEntries afterSequence limit, none => some (.ok (entriesAfter store.trail afterSequence limit), store)
  | .countActive _, none => some (.ok choice.count, store)
  | .commit rows, none =>
    match insertAll rows store.trail with
    | some trail => some (.ok (), { store with trail := trail, history := store.history ++ rows })
    | none => some (.error (.unique "audit_trail"), store)
  | .delete chosen, none => some (.ok (), { store with trail := store.trail.delete chosen })
  | .compact chosen before after, none =>
    some (.ok (), { store with
      trail := store.trail.update chosen (AuditRetention.compacted before after) (compacted_sequence before after) })

def isoText (moment : DateTime) : String := String.ofList moment.isoformat

end SyncAgent

structure SyncAgent where
  batchSize : Nat
  sdkVersion : String
  transport : SyncAgent.Transport

namespace SyncAgent
open Foundation

variable (agent : SyncAgent)

def status : Program SyncStateSnapshot := do
  let row : Option SyncState ← Prog.perform Request.status
  match row with
  | none => return ⟨0, "", none, none, .idle, none, 0⟩
  | some row => return ⟨row.lastSequence, row.lastHash, row.lastSyncedAt, row.lastBatchId, row.status, row.errorMessage, row.errorCount⟩

def queryNewEntries (afterSequence : Int) : Program (List SyncEntryMetadata) :=
  Prog.perform (Request.newEntries afterSequence agent.batchSize)

def countResources : Program ResourceCounts := do
  let objects : Nat ← Prog.perform (Request.countActive "scoped_objects")
  let principals : Nat ← Prog.perform (Request.countActive "principals")
  let scopes : Nat ← Prog.perform (Request.countActive "scopes")
  let timestamp : DateTime ← Prog.perform Request.now
  return ⟨objects, principals, scopes, timestamp⟩

def buildBatch (entries : List SyncEntryMetadata) (counts : ResourceCounts) : Program SyncBatch := do
  let contentHash := agent.transport.contentHash entries
  let chainHash := (entries.getLast?.map SyncEntryMetadata.hash).getD ""
  let signature := agent.transport.signPayload entries contentHash chainHash
  let batchId : ScopedId ← Prog.perform Request.generateId
  match entries.head?, entries.getLast? with
  | some first, some last =>
    let createdAt : DateTime ← Prog.perform Request.now
    return ⟨batchId.text, agent.sdkVersion, entries, counts, first.sequence, last.sequence, chainHash, contentHash, signature,
      createdAt⟩
  | _, _ => throw (.other "list index out of range")

def updateWatermark (lastSequence : Int) (lastHash batchId : String) : Program Unit := do
  let ts : DateTime ← Prog.perform Request.now
  Prog.perform (Request.setWatermark lastSequence lastHash batchId (isoText ts))

def updateStatus (status : SyncStatus) : Program Unit := do
  let ts : DateTime ← Prog.perform Request.now
  Prog.perform (Request.setStatus status (isoText ts))

def ensureSyncState : Program Unit := do
  let ts : DateTime ← Prog.perform Request.now
  Prog.perform (Request.ensureState (isoText ts))

/-- What a cycle does with the entries that it has read. -/
def shipEntries (entries : List SyncEntryMetadata) : Program Unit := do
  let counts ← countResources
  let batch ← agent.buildBatch entries counts
  let ack : SyncBatchAck ← Prog.perform (Request.push batch)
  if ack.accepted then
    updateWatermark batch.lastSequence batch.chainHash batch.batchId

def syncCycle : Program Unit := do
  let state ← status
  let entries ← agent.queryNewEntries state.lastSequence
  if entries.isEmpty then
    return ()
  agent.shipEntries entries

def handleError (error : Raised) : Program Unit := do
  let state ← status
  let ts : DateTime ← Prog.perform Request.now
  let _ : Unit ← Prog.perform
    (Request.setError (String.ofList (error.text.toList.take 500)) (state.errorCount + 1) (isoText ts))
  Prog.perform Request.wait

/-- A cycle, whose exception is recorded. -/
def cycle : Program Unit := do
  try agent.syncCycle
  catch error => handleError error

/-- The loop of `_run`, for a number of rounds. -/
def run : Nat → Program Unit
  | 0 => return ()
  | rounds + 1 => do
    let stopped : Bool ← Prog.perform Request.stopIsSet
    if stopped then
      return ()
    let _ : Unit ← Prog.perform Request.pauseWait
    let stopped : Bool ← Prog.perform Request.stopIsSet
    if stopped then
      return ()
    agent.cycle
    let _ : Unit ← Prog.perform Request.wait
    run rounds

/-- The thread that is started at the end is a client of its own. -/
def start : Program Unit := do
  let alive : Bool ← Prog.perform Request.threadAlive
  if alive then
    throw (.other "Sync agent is already running.")
  ensureSyncState
  updateStatus .syncing
  let _ : Unit ← Prog.perform (Request.setStopping false)
  Prog.perform (Request.setRunning true)

def pause : Program Unit := do
  let _ : Unit ← Prog.perform (Request.setRunning false)
  updateStatus .paused

def resume : Program Unit := do
  updateStatus .syncing
  Prog.perform (Request.setRunning true)

/-- The thread is joined for a time only. -/
def stop : Program Unit := do
  let _ : Unit ← Prog.perform (Request.setStopping true)
  let _ : Unit ← Prog.perform (Request.setRunning true)
  let _ : Unit ← Prog.perform Request.wait
  updateStatus .stopped

/-- What goes on beside the loops. -/
inductive Call where
  | start
  | pause
  | resume
  | stop
  | commit (rows : List AuditRow)
  | delete (chosen : AuditRow → Bool)
  | compact (chosen : AuditRow → Bool) (before after : Bool)

def Call.program : Call → Program Unit
  | .start => SyncAgent.start
  | .pause => SyncAgent.pause
  | .resume => SyncAgent.resume
  | .stop => SyncAgent.stop
  | .commit rows => Prog.perform (Request.commit rows)
  | .delete chosen => Prog.perform (Request.delete chosen)
  | .compact chosen before after => Prog.perform (Request.compact chosen before after)

/-- Clients that make calls, each chosen after the last one returned or raised. -/
inductive Outside : Program Unit → Prop where
  | done : Outside (.pure ())
  | call (call : Call) (next : Except Raised Unit → Program Unit) (each : ∀ result, Outside (next result)) :
      Outside (call.program.attempt.bind next)

/-- A thread of the agent, which may be started again where it has ended. -/
inductive Thread : Program Unit → Prop where
  | done : Thread (.pure ())
  | run (rounds : Nat) (next : Except Raised Unit → Program Unit) (each : ∀ result, Thread (next result)) :
      Thread ((agent.run rounds).attempt.bind next)

end SyncAgent
end PyScoped.Legacy
