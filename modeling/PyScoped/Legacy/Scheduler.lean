import PyScoped.Foundation.Instants
import PyScoped.Legacy.JobQueue

/-! The scheduler of version 1. The actions that are due are read by one
statement, then enqueued one after the other, each of them advanced or archived
by a statement of its own. -/

namespace PyScoped.Legacy.Scheduler
open Foundation

/-- A row of `scheduled_actions`. The text of `next_run_at` reads back as the
datetime that was written; it is the text that is compared. -/
structure ScheduledAction where
  id : String
  name : String
  ownerId : String
  actionType : String
  actionConfig : Json
  nextRunAt : Aware
  scheduleId : Option String
  scopeId : Option String
  createdAt : Moment
  lifecycle : Lifecycle

/-- A row of `recurring_schedules`. -/
structure RecurringSchedule where
  id : String
  name : String
  ownerId : String
  cronExpression : Option String
  intervalSeconds : Option Int
  createdAt : Moment
  lifecycle : Lifecycle

abbrev Actions := Rows ScheduledAction.id

abbrev Schedules := Rows RecurringSchedule.id

/-- A text that is neither missing nor empty. -/
def given (text : Option String) : Option String := text.filter (· ≠ "")

/-- An interval that is neither missing nor zero. -/
def nonzero (seconds : Option Int) : Option Int := seconds.filter (· ≠ 0)

/-- A run time of an action. -/
structure Occurrence where
  actionId : String
  runAt : Aware
  deriving DecidableEq

namespace Actions

/-- `lifecycle = 'ACTIVE' AND next_run_at <= ts` in the order of `next_run_at`. -/
def due (actions : Actions) (ts : String) : List ScheduledAction :=
  (actions.list.filter fun action => action.lifecycle = .active && decide (action.nextRunAt.isoformat ≤ ts)).insertionSort
    fun first second => first.nextRunAt.isoformat ≤ second.nextRunAt.isoformat

def advance (actions : Actions) (actionId : String) (nextRunAt : Aware) : Actions :=
  actions.update (·.id = actionId) (fun action => { action with nextRunAt := nextRunAt }) fun _ => rfl

def archive (actions : Actions) (actionId : String) : Actions :=
  actions.update (·.id = actionId) (fun action => { action with lifecycle := .archived }) fun _ => rfl

end Actions

/-- The tables, the occurrences that were enqueued, the latest first, and who has
enqueued an action and neither advanced nor archived it since. -/
structure Store (ι : Type) where
  actions : Actions
  schedules : Schedules
  queue : JobQueue.Store ι
  enqueued : List Occurrence
  settling : String → Option ι

inductive Request where
  | due (ts : String)
  | schedule (scheduleId : String)
  | advance (actionId : String) (nextRunAt : Aware)
  | archive (actionId : String)
  | insertSchedule (schedule : RecurringSchedule)
  | now
  | generateId
  /-- A statement of the queue, and the occurrence that it serves. -/
  | queue (occurrence : Occurrence) (asked : JobQueue.Request)

def Reply : Request → Type
  | .due _ => List ScheduledAction
  | .schedule _ => Option RecurringSchedule
  | .now => Moment
  | .generateId => ScopedId
  | .queue _ asked => JobQueue.Reply asked
  | _ => Unit

abbrev Program (α : Type) := Prog Request Reply Raised α

structure Choice where
  queue : JobQueue.Choice
  now : Moment

variable {ι : Type}

/-- The store before anything was enqueued. -/
def Store.starting (actions : Actions) (schedules : Schedules) (jobs : JobQueue.Jobs) : Store ι :=
  ⟨actions, schedules, .starting jobs, [], fun _ => none⟩

/-- An occurrence whose job has been inserted is remembered. -/
def Store.noted (store : Store ι) (client : ι) (occurrence : Occurrence) :
    (asked : JobQueue.Request) → Except Raised (JobQueue.Reply asked) → Store ι
  | .insert _, .ok _ =>
    { store with
      enqueued := occurrence :: store.enqueued, settling := Function.update store.settling occurrence.actionId (some client) }
  | _, _ => store

/-- The actions after one of them was advanced or archived. -/
def Store.settled (store : Store ι) (actionId : String) (actions : Actions) : Store ι :=
  { store with actions := actions, settling := Function.update store.settling actionId none }

/-- Any statement may fail, and so cut off the call that it belongs to. -/
def serve : Service Request Reply Raised (Store ι) ι Choice := fun client choice store request =>
  match request, choice.queue.failure with
  | .queue occurrence asked, _ =>
    (JobQueue.serve client choice.queue store.queue asked).map fun (reply, queue) =>
      (reply, { store with queue := queue }.noted client occurrence asked reply)
  | _, some error => some (.error error, store)
  | .due ts, none => some (.ok (store.actions.due ts), store)
  | .schedule scheduleId, none => some (.ok (store.schedules.find scheduleId), store)
  | .advance actionId nextRunAt, none => some (.ok (), store.settled actionId (store.actions.advance actionId nextRunAt))
  | .archive actionId, none => some (.ok (), store.settled actionId (store.actions.archive actionId))
  | .insertSchedule schedule, none =>
    match store.schedules.insert schedule with
    | some schedules => some (.ok (), { store with schedules := schedules })
    | none => some (.error (.unique "recurring_schedules"), store)
  | .now, none => some (.ok choice.now, store)
  | .generateId, none => some (.ok choice.queue.id, store)

/-- `moment + timedelta(seconds=seconds)` -/
def plus (moment : Aware) (seconds : Int) : Except Raised Aware :=
  if seconds / 86400 < -999999999 ∨ 999999999 < seconds / 86400 then
    .error (.other "timedelta must have magnitude <= 999999999 days")
  else if inRange : 0 ≤ moment.instant + seconds * 1000000 + moment.offset.microseconds ∧
      moment.instant + seconds * 1000000 + moment.offset.microseconds < 315537897600000000 then
    .ok ⟨moment.instant + seconds * 1000000, moment.offset, inRange⟩
  else .error (.other "date value out of range")

/-- What `create_schedule` refuses. -/
def checkSchedule (cronExpression : Option String) (intervalSeconds : Option Int) : Except Raised Unit := do
  if (given cronExpression).isNone && (nonzero intervalSeconds).isNone then
    throw (.other "Either cron_expression or interval_seconds must be provided")
  if (given cronExpression).isSome && (nonzero intervalSeconds).isSome then
    throw (.other "Only one of cron_expression or interval_seconds may be provided")

def createSchedule (name ownerId : String) (cronExpression : Option String) (intervalSeconds : Option Int) :
    Program RecurringSchedule := do
  checkSchedule cronExpression intervalSeconds
  let id : ScopedId ← Prog.perform Request.generateId
  let createdAt : Moment ← Prog.perform Request.now
  let schedule : RecurringSchedule :=
    { id := id.text, name := name, ownerId := ownerId, cronExpression := cronExpression
      intervalSeconds := intervalSeconds, createdAt := createdAt, lifecycle := .active }
  let _ : Unit ← Prog.perform (Request.insertSchedule schedule)
  return schedule

end Scheduler

structure Scheduler where
  cronParser : Option (String → Aware → Except Raised Aware)

namespace Scheduler
open Foundation

variable (scheduler : Scheduler)

/-- `as_of or now_utc()` -/
def evaluatedAt : Option Aware → Program Aware
  | some asOf => return asOf
  | none => do
    let now : Moment ← Prog.perform Request.now
    return now.toAware

def getDueActions (asOf : Option Aware) : Program (List ScheduledAction) := do
  let moment ← evaluatedAt asOf
  Prog.perform (Request.due moment.isoformat)

/-- When a linked action runs next; an action whose schedule says nothing does not. -/
def nextRun (action : ScheduledAction) (schedule : Option RecurringSchedule) : Except Raised (Option Aware) :=
  match schedule with
  | none => .ok none
  | some schedule =>
    match nonzero schedule.intervalSeconds, given schedule.cronExpression, scheduler.cronParser with
    | some seconds, _, _ => (plus action.nextRunAt seconds).map some
    | none, some cronExpression, some cronParser => (cronParser cronExpression action.nextRunAt).map some
    | none, some _, none => (plus action.nextRunAt 3600).map some
    | none, none, _ => .ok none

def advanceAction (actionId : String) (nextRunAt : Aware) : Program Unit := Prog.perform (Request.advance actionId nextRunAt)

def archiveAction (actionId : String) : Program Unit := Prog.perform (Request.archive actionId)

/-- What follows on the enqueueing of an action: it is advanced or archived. -/
def settle (action : ScheduledAction) : Program Unit :=
  match given action.scheduleId with
  | some scheduleId => do
    let schedule : Option RecurringSchedule ← Prog.perform (Request.schedule scheduleId)
    match ← (scheduler.nextRun action schedule : Except Raised (Option Aware)) with
    | some nextRunAt => advanceAction action.id nextRunAt
    | none => archiveAction action.id
  | none => archiveAction action.id

def enqueue (action : ScheduledAction) : Program JobQueue.Job :=
  (JobQueue.enqueue action.name action.actionType (some action.actionConfig) action.ownerId (some action.id)
    action.scopeId).within (.queue ⟨action.id, action.nextRunAt⟩) fun _ reply => reply

def processEach : List ScheduledAction → Program (List JobQueue.Job)
  | [] => return []
  | action :: actions => do
    let job ← enqueue action
    scheduler.settle action
    let jobs ← processEach actions
    return job :: jobs

def processDueActions (asOf : Option Aware) : Program (List JobQueue.Job) := do
  scheduler.processEach (← getDueActions asOf)

/-- Clients that process what is due again and again, each time as of some
moment of those that are admitted, and on schedulers of their own. They may
depend on what the calls before have returned or raised. -/
inductive Client (admitted : Option Aware → Prop) : Program Unit → Prop where
  | done : Client admitted (.pure ())
  | call (scheduler : Scheduler) (asOf : Option Aware) (admits : admitted asOf)
      (next : Except Raised (List JobQueue.Job) → Program Unit) (each : ∀ result, Client admitted (next result)) :
      Client admitted ((scheduler.processDueActions asOf).attempt.bind next)

end PyScoped.Legacy.Scheduler
