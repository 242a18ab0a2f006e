import PyScoped.Foundation.Stateful
import PyScoped.Legacy.Scheduler
import PyScoped.Legacy.Tenancy

/-! The automatic rotation of secrets of version 1, as one worker runs it: the
scan that opens a scheduled action for each secret, and the loop that enqueues a
job for every action that is due, runs the next job of the queue, and advances
the action. -/

namespace PyScoped.Legacy.Rotation
open Foundation

inductive SecretClassification where
  | standard | sensitive | critical
  deriving DecidableEq, Repr

/-- A row of `secrets`, and of it what rotation reads and writes. -/
structure Secret where
  id : ScopedId
  currentVersion : Nat
  classification : SecretClassification
  createdAt : Moment
  expiresAt : Option Aware
  lastRotatedAt : Option Moment
  lifecycle : Lifecycle

structure SecretVersion where
  id : String
  secretId : ScopedId
  version : Nat
  encryptedValue : String
  encryptionAlgo : String
  keyId : String
  createdAt : Moment
  createdBy : String
  reason : String

/-- A row of `secret_policies`. What it restricts besides the age is not read here. -/
structure SecretPolicy where
  id : ScopedId
  secretId : Option ScopedId
  classification : Option SecretClassification
  maxAgeSeconds : Option Int
  autoRotate : Bool
  createdAt : Moment

/-- The tables, and the texts of the identifiers that are still to be generated. -/
structure Store where
  secrets : Rows Secret.id
  versions : Rows SecretVersion.id
  policies : Rows SecretPolicy.id
  actions : Scheduler.Actions
  jobs : JobQueue.Jobs
  ids : ℕ → String

abbrev Program (α : Type) := Stateful Store Raised α

def generateId : Program String := do
  let store ← get
  set { store with ids := fun n => store.ids (n + 1) }
  return store.ids 0

/-- `dict.get`, of what a JSON column holds. -/
def member (config : Json) (key : String) : Except Raised (Option Json) :=
  match config with
  | .obj members => .ok (members.lookup key)
  | _ => .error (.other "object has no attribute 'get'")

def truthy : Json → Bool
  | .null => false
  | .bool value => value
  | .int value => value ≠ 0
  | .float value => value.text ≠ "0.0" && value.text ≠ "-0.0"
  | .nonfinite => true
  | .str value => value ≠ ""
  | .arr items => !items.isEmpty
  | .obj members => !members.isEmpty

/-- `value[:8]` -/
def prefix8 (text : String) : String := String.ofList (text.toList.take 8)

section Policies

/-- The quotient rounded to an integer, halves to even. -/
def halfEven (n d : Nat) : Nat :=
  if 2 * (n % d) < d ∨ (2 * (n % d) = d ∧ n / d % 2 = 0) then n / d else n / d + 1

/-- `timedelta.total_seconds`: the seconds as a float, the nearest of 53 bits. -/
def totalSeconds (microseconds : Int) : ℚ :=
  let n := microseconds.natAbs
  let shift := 72 - Nat.log2 (n * 2 ^ 20 / 1000000)
  let magnitude : ℚ := halfEven (n * 2 ^ shift) 1000000 / 2 ^ shift
  if microseconds < 0 then -magnitude else magnitude

/-- `last_rotated_at or created_at` -/
def Secret.lastRotated (secret : Secret) : Moment := secret.lastRotatedAt.getD secret.createdAt

def SecretPolicy.exceeded (policy : SecretPolicy) (now : Moment) (secret : Secret) : Bool :=
  match policy.maxAgeSeconds with
  | some maxAge => maxAge < totalSeconds (now.instant - secret.lastRotated.instant)
  | none => false

/-- The row that a bound value of a configuration selects. An identifier of 32
hexadecimal digits is the text of no number that the database takes. -/
def Store.secretRow (store : Store) : Json → Except Raised (Option Secret)
  | .str secretId => .ok (store.secrets.list.find? fun secret => secret.id.text = secretId)
  | .int value =>
    if -9223372036854775808 ≤ value ∧ value < 9223372036854775808 then .ok none
    else .error (.other "Python int too large to convert to SQLite INTEGER")
  | .arr _ => .error (.other "Error binding parameter 1: type 'list' is not supported")
  | .obj _ => .error (.other "Error binding parameter 1: type 'dict' is not supported")
  | _ => .ok none

/-- `get_policies_for_secret` -/
def Store.policiesForSecret (store : Store) (secret : Secret) : List SecretPolicy :=
  (store.policies.list.filter fun policy =>
    policy.secretId = some secret.id || policy.classification = some secret.classification).insertionSort
    fun first second => first.createdAt.isoformat ≤ second.createdAt.isoformat

def Store.isExceeded (store : Store) (now : Moment) (secret : Secret) : Bool :=
  (store.policiesForSecret secret).any fun policy => policy.exceeded now secret

def needsRotation (now : Moment) (secretId : Json) : Program Bool := do
  let store ← get
  match ← (store.secretRow secretId : Except Raised (Option Secret)) with
  | none => return false
  | some secret => return store.isExceeded now secret

end Policies

/-- What the worker is set up with: the generator of new values and the
encryption of the vault, and what Python makes of a list in a text and of a
float as a duration, in microseconds. -/
structure Worker where
  ownerId : String
  generate : String → String
  encrypt : String → String
  algorithm : String
  defaultKeyId : String
  listText : List Json → String
  duration : FloatText → Except Raised Int

variable (worker : Worker) (now : Moment)

section Vault

/-- `_require_active_secret`, which does not allow an expired one here. -/
def requireActiveSecret (secretId : String) : Option Secret → Except Raised Secret
  | none => .error (.scoped .secretNotFound ("Secret " ++ secretId ++ " not found") [("secret_id", .str secretId)])
  | some secret =>
    if secret.lifecycle ≠ .active then
      .error (.scoped .secretAccessDenied "Secret is archived"
        [("secret_id", .str secretId), ("lifecycle", .str secret.lifecycle.name)])
    else match secret.expiresAt with
      | none => .ok secret
      | some expiresAt =>
        if expiresAt.instant ≤ now.instant then
          .error (.scoped .secretAccessDenied "Secret has expired"
            [("secret_id", .str secretId), ("expires_at", .str expiresAt.isoformat)])
        else .ok secret

def insertVersion (version : SecretVersion) : Program Unit := do
  let store ← get
  if store.versions.list.any fun other => other.secretId = version.secretId && other.version = version.version then
    throw (.unique "secret_versions")
  match store.versions.insert version with
  | some versions => set { store with versions := versions }
  | none => throw (.unique "secret_versions")

/-- What `UPDATE secrets` makes of a row. -/
def Secret.rotated (newVersion : Nat) (secret : Secret) : Secret :=
  { secret with currentVersion := newVersion, lastRotatedAt := some now }

def Store.setRotated (store : Store) (secretId : ScopedId) (newVersion : Nat) : Store :=
  { store with secrets := store.secrets.update (fun row => row.id = secretId) (Secret.rotated now newVersion) fun _ => rfl }

def rotate (secretId newValue rotatedBy reason : String) : Program SecretVersion := do
  let row ← ((← get).secretRow (.str secretId) : Except Raised (Option Secret))
  let secret ← (requireActiveSecret now secretId row : Except Raised Secret)
  let id ← generateId
  let version : SecretVersion :=
    { id := id, secretId := secret.id, version := secret.currentVersion + 1, encryptedValue := worker.encrypt newValue
      encryptionAlgo := worker.algorithm, keyId := worker.defaultKeyId, createdAt := now, createdBy := rotatedBy
      reason := reason }
  insertVersion version
  modify fun store => store.setRotated now secret.id version.version
  return version

end Vault

def rotationActionType : String := "secret_auto_rotate"

/-- The executor of `make_rotation_executor`. -/
def execute (actionType : String) (actionConfig : Json) : Program Json := do
  if actionType ≠ rotationActionType then
    return .obj [("skipped", .bool true), ("reason", .str ("unknown action_type: " ++ actionType))]
  else
    let secretId := (← (member actionConfig "secret_id" : Except Raised (Option Json))).getD .null
    if truthy secretId then
      -- Only the identifier of a secret, which is a text, can be due.
      match secretId, ← needsRotation now secretId with
      | .str text, true =>
        let version ← rotate worker now text (worker.generate text) "system:auto-rotation" "auto-rotation policy"
        return .obj [("rotated", .bool true), ("secret_id", secretId), ("new_version", .int version.version)]
      | _, _ => return .obj [("rotated", .bool false), ("secret_id", secretId), ("reason", .str "not_due")]
    else
      return .obj [("rotated", .bool false), ("reason", .str "missing secret_id in config")]

section Queue
open JobQueue

def insertJob (job : Job) : Program Unit := do
  let store ← get
  match store.jobs.insert job with
  | some jobs => set { store with jobs := jobs }
  | none => throw (.unique "jobs")

/-- `JobQueue.enqueue` -/
def enqueue (name actionType : String) (actionConfig : Json) (ownerId : String) (scheduledActionId : Option String) :
    Program Job := do
  let id ← generateId
  let job : Job :=
    { id := id, name := name, actionType := actionType
      actionConfig := some (if truthy actionConfig then actionConfig else .obj []), ownerId := ownerId, state := .queued
      createdAt := now.isoformat, startedAt := none, completedAt := none, result := .obj [], errorMessage := none
      scheduledActionId := scheduledActionId, scopeId := none, lifecycle := .active }
  insertJob job
  return job

def assignJob (jobId : String) (assignment : Assignment) : Program Unit :=
  modify fun store => { store with jobs := store.jobs.assign (·.id = jobId) assignment }

def fetchJob (jobId : String) : Program Job := do
  (jobFromRow ((← get).jobs.find jobId) : Except Raised Job)

/-- `_run_job`, with the executor of the rotation. -/
def runJob (job : Job) : Program Job := do
  assignJob job.id (.start now.isoformat)
  try
    let result ← execute worker now job.actionType (job.actionConfig.getD (.obj []))
    assignJob job.id (.complete now.isoformat result)
    fetchJob job.id
  catch error =>
    assignJob job.id (.fail now.isoformat error.text)
    fetchJob job.id

def runNext : Program (Option Job) := do
  match (← get).jobs.queued.head? with
  | none => return none
  | some job => return some (← runJob worker now job)

end Queue

section Actions
open Scheduler

def insertAction (action : ScheduledAction) : Program Unit := do
  let store ← get
  match store.actions.insert action with
  | some actions => set { store with actions := actions }
  | none => throw (.unique "scheduled_actions")

/-- `Scheduler.create_action` -/
def createAction (name ownerId actionType : String) (actionConfig : Json) (nextRunAt : Aware) : Program ScheduledAction := do
  let id ← generateId
  let action : ScheduledAction :=
    { id := id, name := name, ownerId := ownerId, actionType := actionType, actionConfig := actionConfig
      nextRunAt := nextRunAt, scheduleId := none, scopeId := none, createdAt := now, lifecycle := .active }
  insertAction action
  return action

def getDueActions : Program (List ScheduledAction) := do
  return (← get).actions.due now.isoformat

def advanceAction (actionId : String) (nextRunAt : Aware) : Program Unit :=
  modify fun store => { store with actions := store.actions.advance actionId nextRunAt }

/-- The secret that the configuration of an action names, if it names one. -/
def scheduledSecret (config : Json) : Except Raised (Option String) := do
  match ← member config "secret_id" with
  | some (.str secretId) => return if secretId ≠ "" then some secretId else none
  | some (.arr items) => if items.isEmpty then return none else throw (.other "unhashable type: 'list'")
  | some (.obj members) => if members.isEmpty then return none else throw (.other "unhashable type: 'dict'")
  | _ => return none

/-- The secrets that the active rotation actions name. -/
def Store.alreadyScheduled (store : Store) : Except Raised (List String) := do
  let secretIds ← (store.actions.list.filter fun action =>
    action.actionType = rotationActionType && action.lifecycle = .active).mapM fun action => scheduledSecret action.actionConfig
  return secretIds.reduceOption

/-- What a row of the scan asks for: an action for its secret, and the age that
the policy allows. Nothing, where it has no secret or no age, or where the secret
is scheduled already or does not exist. -/
def Store.asksFor (store : Store) (alreadyScheduled : List String) (policy : SecretPolicy) : Option (Secret × Int) := do
  let secretId ← policy.secretId
  if secretId.text ∈ alreadyScheduled then none
  let maxAge ← policy.maxAgeSeconds
  let secret ← store.secrets.find secretId
  return (secret, maxAge)

/-- When the action runs first: when the secret reaches the age, or now if it is over it. -/
def nextRunAt (secret : Secret) (maxAge : Int) : Except Raised Aware := do
  let nextRun ← plus secret.lastRotated.toAware maxAge
  return if nextRun.instant < now.instant then now.toAware else nextRun

def rotationConfig (secretId policyId : ScopedId) : Json :=
  .obj [("secret_id", .str secretId.text), ("policy_id", .str policyId.text)]

def scheduleEach (alreadyScheduled : List String) : List SecretPolicy → Program (List ScheduledAction)
  | [] => return []
  | policy :: policies => do
    match (← get).asksFor alreadyScheduled policy with
    | none => scheduleEach alreadyScheduled policies
    | some (secret, maxAge) =>
      let nextRun ← (nextRunAt now secret maxAge : Except Raised Aware)
      let action ← createAction now ("auto-rotate-" ++ prefix8 secret.id.text) worker.ownerId rotationActionType
        (rotationConfig secret.id policy.id) nextRun
      return action :: (← scheduleEach (secret.id.text :: alreadyScheduled) policies)

def scheduleAutoRotations : Program (List ScheduledAction) := do
  let store ← get
  let rows := store.policies.list.filter (·.autoRotate)
  if rows.isEmpty then return []
  else scheduleEach worker now (← (store.alreadyScheduled : Except Raised (List String))) rows

/-- The first eight of what the job is named after. -/
def jobLabel (config : Json) : Except Raised String := do
  match (← member config "secret_id").getD (.str "unknown") with
  | .str secretId => return prefix8 secretId
  | .arr items => return worker.listText (items.take 8)
  | _ => throw (.other "object is not subscriptable")

def plusMicroseconds (moment : Aware) (microseconds : Int) : Except Raised Aware :=
  if inRange : 0 ≤ moment.instant + microseconds + moment.offset.microseconds ∧
      moment.instant + microseconds + moment.offset.microseconds < 315537897600000000 then
    .ok ⟨moment.instant + microseconds, moment.offset, inRange⟩
  else .error (.other "date value out of range")

/-- Where an action goes after its turn: on by the age that its configuration
gives, or by a day where it gives none. -/
def nextTurn (config : Json) : Except Raised Aware := do
  let maxAge := (← member config "max_age_seconds").getD .null
  if truthy maxAge then
    match maxAge with
    | .bool _ => plus now.toAware 1
    | .int seconds => plus now.toAware seconds
    | .float seconds => plusMicroseconds now.toAware (← worker.duration seconds)
    | _ => throw (.other "unsupported type for timedelta seconds component")
  else plus now.toAware 86400

def runEach : List ScheduledAction → Program (List JobQueue.Job)
  | [] => return []
  | action :: actions => do
    let label ← (jobLabel worker action.actionConfig : Except Raised String)
    let _ ← enqueue now ("rotate-" ++ label) action.actionType action.actionConfig action.ownerId (some action.id)
    let result ← runNext worker now
    let nextRun ← (nextTurn worker now action.actionConfig : Except Raised Aware)
    advanceAction action.id nextRun
    return result.toList ++ (← runEach actions)

def runPendingRotations : Program (List JobQueue.Job) := do
  let due ← getDueActions now
  runEach worker now (due.filter fun action => action.actionType = rotationActionType)

end Actions

/-- One turn of the worker, at a time of its own. -/
def turn : Program (List JobQueue.Job) := do
  let _ ← scheduleAutoRotations worker now
  runPendingRotations worker now

end PyScoped.Legacy.Rotation
