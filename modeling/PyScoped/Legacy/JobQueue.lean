import PyScoped.Foundation.Interleaving
import PyScoped.Foundation.Rows
import PyScoped.Legacy.Errors
import PyScoped.Legacy.Types

/-! The job queue of version 1. Workers select queued jobs, claim them and hand
them to an executor, one autocommitted statement after the other, while others
cancel jobs. -/

namespace PyScoped.Legacy.JobQueue
open Foundation

inductive JobState where
  | queued | running | completed | failed | cancelled
  deriving DecidableEq, Repr

/-- A row of `jobs`. Times are kept as the stored text, JSON columns as the
values their texts denote. -/
structure Job where
  id : String
  name : String
  actionType : String
  actionConfig : Option Json
  ownerId : String
  state : JobState
  createdAt : String
  startedAt : Option String
  completedAt : Option String
  result : Json
  errorMessage : Option String
  scheduledActionId : Option String
  scopeId : Option String
  lifecycle : Lifecycle

abbrev Jobs := Rows Job.id

/-- What `UPDATE jobs SET ...` assigns. -/
structure Assignment where
  change : Job → Job
  id : ∀ job, (change job).id = job.id

namespace Assignment

def start (startedAt : String) : Assignment where
  change job := { job with state := .running, startedAt := some startedAt }
  id _ := rfl

def complete (completedAt : String) (result : Json) : Assignment where
  change job := { job with state := .completed, completedAt := some completedAt, result := result }
  id _ := rfl

def fail (completedAt message : String) : Assignment where
  change job := { job with state := .failed, completedAt := some completedAt, errorMessage := some message }
  id _ := rfl

def cancel : Assignment where
  change job := { job with state := .cancelled }
  id _ := rfl

end Assignment

namespace Jobs

/-- `state = 'queued'` in the order of `created_at`. -/
def queued (jobs : Jobs) : List Job :=
  (jobs.list.filter fun job => job.state = .queued).insertionSort fun first second => first.createdAt ≤ second.createdAt

def stateOf (jobs : Jobs) (jobId : String) : Option JobState := (jobs.find jobId).map Job.state

def assign (jobs : Jobs) (chosen : Job → Bool) (assignment : Assignment) : Jobs :=
  jobs.update chosen assignment.change assignment.id

def cancelled (jobs : Jobs) (jobId : String) : Bool := jobs.stateOf jobId = some .cancelled

end Jobs

/-- A call of the executor, and whether the cancellation of the job had committed by then. -/
structure Invocation where
  jobId : String
  withdrawn : Bool
  deriving DecidableEq

/-- The table, who has claimed a job last, the jobs that some committed state
so far has shown cancelled, and the calls of the executor, the latest first. -/
structure Store (ι : Type) where
  jobs : Jobs
  claimedBy : String → Option ι
  withdrawn : String → Bool
  invocations : List Invocation

inductive Request where
  | nextQueued
  | allQueued
  | start (jobId startedAt : String)
  /-- The executor is called; what it does itself follows. -/
  | invoke (jobId : String)
  | complete (jobId completedAt : String) (result : Json)
  | fail (jobId completedAt message : String)
  | fetch (jobId : String)
  | cancel (jobId : String)
  | insert (job : Job)
  | now
  | generateId

def Reply : Request → Type
  | .nextQueued => Option Job
  | .allQueued => List Job
  | .fetch _ => Option Job
  | .now => DateTime
  | .generateId => ScopedId
  | _ => Unit

abbrev Program (α : Type) := Prog Request Reply Raised α

structure Choice where
  failure : Option Raised
  now : DateTime
  id : ScopedId

variable {ι : Type} [DecidableEq ι]

/-- The store where nobody has claimed anything yet. -/
def Store.starting (jobs : Jobs) : Store ι := ⟨jobs, fun _ => none, jobs.cancelled, []⟩

/-- The store with another table. What it shows cancelled is remembered. -/
def Store.put (store : Store ι) (jobs : Jobs) : Store ι :=
  { store with jobs := jobs, withdrawn := fun jobId => store.withdrawn jobId || jobs.cancelled jobId }

/-- Any statement may fail. -/
def serve : Service Request Reply Raised (Store ι) ι Choice := fun client choice store request =>
  match request, choice.failure with
  | .invoke jobId, _ =>
    some (.ok (), { store with invocations := ⟨jobId, store.withdrawn jobId⟩ :: store.invocations })
  | _, some error => some (.error error, store)
  | .nextQueued, none => some (.ok store.jobs.queued.head?, store)
  | .allQueued, none => some (.ok store.jobs.queued, store)
  | .start jobId startedAt, none =>
    some (.ok (), { store.put (store.jobs.assign (·.id = jobId) (.start startedAt)) with
      claimedBy := Function.update store.claimedBy jobId (some client) })
  | .complete jobId completedAt result, none =>
    some (.ok (), store.put (store.jobs.assign (·.id = jobId) (.complete completedAt result)))
  | .fail jobId completedAt message, none =>
    some (.ok (), store.put (store.jobs.assign (·.id = jobId) (.fail completedAt message)))
  | .fetch jobId, none => some (.ok (store.jobs.find jobId), store)
  | .cancel jobId, none =>
    some (.ok (), store.put (store.jobs.assign (fun job => job.id = jobId && job.state = .queued) .cancel))
  | .insert job, none =>
    match store.jobs.insert job with
    | some jobs => some (.ok (), store.put jobs)
    | none => some (.error (.unique "jobs"), store)
  | .now, none => some (.ok choice.now, store)
  | .generateId, none => some (.ok choice.id, store)

def isoText (moment : DateTime) : String := String.ofList moment.isoformat

/-- All but the statements of a worker that runs a job. -/
def Request.Outside : Request → Prop
  | .start _ _ | .invoke _ | .complete _ _ _ | .fail _ _ _ => False
  | _ => True

/-- `JobExecutor`. It may itself read, enqueue and cancel jobs, and may raise. -/
structure Executor where
  run : String → Json → Program Json
  outside : ∀ actionType config, (run actionType config).Only Request.Outside

/-- `_default_executor` -/
def Executor.default : Executor where
  run actionType _ := return .obj [("status", .str "ok"), ("action_type", .str actionType)]
  outside _ _ := trivial

end JobQueue

structure JobQueue where
  executor : Option JobQueue.Executor

namespace JobQueue
open Foundation

variable (queue : JobQueue)

def enqueue (name actionType : String) (actionConfig : Option Json) (ownerId : String)
    (scheduledActionId scopeId : Option String) : Program Job := do
  let jobId : ScopedId ← Prog.perform Request.generateId
  let createdAt : DateTime ← Prog.perform Request.now
  let job : Job :=
    { id := jobId.text, name := name, actionType := actionType, actionConfig := some (actionConfig.getD (.obj []))
      ownerId := ownerId, state := .queued, createdAt := isoText createdAt, startedAt := none, completedAt := none
      result := .obj [], errorMessage := none, scheduledActionId := scheduledActionId, scopeId := scopeId
      lifecycle := .active }
  let _ : Unit ← Prog.perform (Request.insert job)
  return job

/-- `job_from_row`. Of a row that is gone nothing can be read. -/
def jobFromRow : Option Job → Except Raised Job
  | some job => .ok job
  | none => .error (.other "'NoneType' object is not subscriptable")

/-- What is done under `try`: the call of the executor and the completion. -/
def execute (job : Job) : Program Job := do
  let _ : Unit ← Prog.perform (Request.invoke job.id)
  let result ← (queue.executor.getD .default).run job.actionType (job.actionConfig.getD (.obj []))
  let completedAt : DateTime ← Prog.perform Request.now
  let _ : Unit ← Prog.perform (Request.complete job.id (isoText completedAt) result)
  let updated : Option Job ← Prog.perform (Request.fetch job.id)
  jobFromRow updated

/-- What is done where the attempt has raised. -/
def recordFailure (job : Job) (error : Raised) : Program Job := do
  let completedAt : DateTime ← Prog.perform Request.now
  let _ : Unit ← Prog.perform (Request.fail job.id (isoText completedAt) error.text)
  let updated : Option Job ← Prog.perform (Request.fetch job.id)
  jobFromRow updated

/-- `_run_job` -/
def runJob (job : Job) : Program Job := do
  let startedAt : DateTime ← Prog.perform Request.now
  let _ : Unit ← Prog.perform (Request.start job.id (isoText startedAt))
  try queue.execute job
  catch error => recordFailure job error

def runNext : Program (Option Job) := do
  let row : Option Job ← Prog.perform Request.nextQueued
  match row with
  | none => return none
  | some job => return some (← queue.runJob job)

def runEach : List Job → Program (List Job)
  | [] => return []
  | job :: jobs => do
    let done ← queue.runJob job
    let rest ← runEach jobs
    return done :: rest

/-- The rows are read before the first of them runs. -/
def runAll : Program (List Job) := do
  let rows : List Job ← Prog.perform Request.allQueued
  queue.runEach rows

def cancelJob (jobId : String) : Program Unit := Prog.perform (Request.cancel jobId)

inductive Call where
  | enqueue (name actionType : String) (actionConfig : Option Json) (ownerId : String)
      (scheduledActionId scopeId : Option String)
  | runNext
  | runAll
  | cancelJob (jobId : String)

def invoke : Call → Program (List Job)
  | .enqueue name actionType actionConfig ownerId scheduledActionId scopeId => do
    return [← enqueue name actionType actionConfig ownerId scheduledActionId scopeId]
  | .runNext => do return (← queue.runNext).toList
  | .runAll => queue.runAll
  | .cancelJob jobId => do
    let _ ← cancelJob jobId
    return []

/-- Clients that make one call after the other, on queues of their own, and may
depend on what the calls before have returned or raised. -/
inductive Client : Program Unit → Prop where
  | done : Client (.pure ())
  | call (queue : JobQueue) (made : Call) (next : Except Raised (List Job) → Program Unit)
      (each : ∀ result, Client (next result)) : Client ((queue.invoke made).attempt.bind next)

end PyScoped.Legacy.JobQueue
