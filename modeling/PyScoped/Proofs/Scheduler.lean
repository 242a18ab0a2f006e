import PyScoped.Foundation.TimeOrder
import PyScoped.Legacy.Scheduler

/-! When the scheduler enqueues each occurrence once. Neither the statement that
enqueues an action nor the one that advances or archives it looks at the action
again: all is well as long as nobody else is at it, and no call is cut off in between. -/

namespace PyScoped.Legacy.Scheduler
open Foundation

variable {ι : Type}

def Accepted (schedule : RecurringSchedule) : Prop := checkSchedule schedule.cronExpression schedule.intervalSeconds = .ok ()

/-- The interval of the schedule that an action is linked to. -/
def interval (schedules : Schedules) (scheduleId : Option String) : Option Int :=
  (given scheduleId).bind fun scheduleId => (schedules.find scheduleId).bind fun schedule => nonzero schedule.intervalSeconds

/-- Every action is a one-shot or linked to an interval schedule that was accepted. -/
def Planned (actions : Actions) (schedules : Schedules) : Prop :=
  ∀ action ∈ actions.list, ∀ scheduleId, given action.scheduleId = some scheduleId →
    ∃ schedule, schedules.find scheduleId = some schedule ∧ Accepted schedule ∧ given schedule.cronExpression = none

def spot (moment : Aware) : Int × Offset := (moment.instant, moment.offset)

/-- The k-th run time after the first. -/
def spotAt (start : Aware) (seconds : Int) (k : Nat) : Int × Offset := (start.instant + k * (seconds * 1000000), start.offset)

/-- For which run times the action was enqueued, the earliest first. -/
def Store.runTimes (store : Store ι) (actionId : String) : List Aware :=
  ((store.enqueued.filter fun occurrence => occurrence.actionId = actionId).map Occurrence.runAt).reverse

/-- No occurrence was enqueued twice, and those of an action one after the other, without a gap. -/
structure Exact (actions : Actions) (schedules : Schedules) (store : Store ι) : Prop where
  once : store.enqueued.Nodup
  known : ∀ occurrence ∈ store.enqueued, ∃ action ∈ actions.list, action.id = occurrence.actionId
  inOrder : ∀ action ∈ actions.list, ∀ seconds, interval schedules action.scheduleId = some seconds →
    (store.runTimes action.id).map spot =
      (List.range (store.runTimes action.id).length).map (spotAt action.nextRunAt seconds)
  single : ∀ action ∈ actions.list, given action.scheduleId = none → store.runTimes action.id <+: [action.nextRunAt]

/-- A positive interval, and a datetime for the run after. -/
def Advances (schedules : Schedules) (action : ScheduledAction) : Prop :=
  ∀ seconds, interval schedules action.scheduleId = some seconds → 0 < seconds ∧ ∃ next, plus action.nextRunAt seconds = .ok next

/-- The statement that enqueues an action finds it active and as it was read,
nobody about to advance or archive it, and a run to come after this one. -/
def Current (_ : ι) (store : Store ι) : Request → Prop
  | .queue occurrence (.insert _) =>
    store.settling occurrence.actionId = none ∧ ∃ action ∈ store.actions.find occurrence.actionId,
      action.lifecycle = .active ∧ action.nextRunAt = occurrence.runAt ∧ Advances store.schedules action
  | _ => True

/-- No statement fails that has to advance or archive what was enqueued. -/
def steady (_ : ι) (choice : Choice) (_ : Store ι) : Request → Bool
  | .schedule _ | .advance _ _ | .archive _ => choice.queue.failure.isNone
  | _ => true

/-- How far an action at an interval has come. -/
structure Recurs (seconds : Int) (first row : Aware) (runs : List Aware) (settled : Bool) : Prop where
  inOrder : runs.map spot = (List.range runs.length).map (spotAt first seconds)
  forward : runs ≠ [] → 0 < seconds
  offset : row.offset = first.offset
  instant : row.instant + (if settled then 0 else seconds * 1000000) = first.instant + runs.length * (seconds * 1000000)

/-- How far a one-shot has come. -/
structure RunsOnce (first row : ScheduledAction) (runs : List Aware) (settled : Bool) : Prop where
  still : row.nextRunAt = first.nextRunAt
  single : runs = [] ∧ settled = true ∨ runs = [first.nextRunAt] ∧ (settled = true → row.lifecycle = .archived)

structure Follows (schedules : Schedules) (first row : ScheduledAction) (runs : List Aware) (settled : Bool) : Prop where
  linked : row.scheduleId = first.scheduleId
  recurs : ∀ seconds, interval schedules first.scheduleId = some seconds → Recurs seconds first.nextRunAt row.nextRunAt runs settled
  once : interval schedules first.scheduleId = none → RunsOnce first row runs settled

variable {schedules : Schedules} {first row : ScheduledAction} {runs : List Aware}

namespace Follows

theorem start (first : ScheduledAction) : Follows schedules first first [] true where
  linked := rfl
  recurs seconds _ := by
    refine ⟨rfl, fun some => absurd rfl some, rfl, ?_⟩
    simp
  once _ := ⟨rfl, .inl ⟨rfl, rfl⟩⟩

theorem enqueue (follows : Follows schedules first row runs true) (active : row.lifecycle = .active)
    (advances : Advances schedules row) : Follows schedules first row (runs ++ [row.nextRunAt]) false where
  linked := follows.linked
  recurs seconds recurring := by
    obtain ⟨inOrder, -, offset, instant⟩ := follows.recurs seconds recurring
    rw [← follows.linked] at recurring
    simp only [if_true, add_zero] at instant
    refine ⟨?_, fun _ => (advances seconds recurring).1, offset, ?_⟩
    · rw [List.map_append, inOrder, List.length_append, List.length_singleton, List.range_succ, List.map_append]
      simp only [List.map_cons, List.map_nil, spot, spotAt, instant, offset]
    · simp only [Bool.false_eq_true, if_false, List.length_append, List.length_singleton, Nat.cast_add, Nat.cast_one]
      linarith
  once oneShot := by
    obtain ⟨still, single⟩ := follows.once oneShot
    refine ⟨still, .inr ⟨?_, nofun⟩⟩
    rcases single with ⟨rfl, -⟩ | ⟨-, archived⟩
    · rw [still]
      rfl
    · rw [archived rfl] at active
      cases active

theorem advance (follows : Follows schedules first row runs false) {seconds : Int} {next : Aware}
    (recurring : interval schedules first.scheduleId = some seconds) (added : plus row.nextRunAt seconds = .ok next) :
    Follows schedules first { row with nextRunAt := next } runs true where
  linked := follows.linked
  recurs seconds' recurring' := by
    cases recurring.symm.trans recurring'
    obtain ⟨inOrder, forward, offset, instant⟩ := follows.recurs seconds recurring
    unfold plus at added
    split at added
    · cases added
    split at added
    · cases added
      refine ⟨inOrder, forward, offset, ?_⟩
      simpa using instant
    · cases added
  once oneShot := by
    rw [recurring] at oneShot
    cases oneShot

theorem archive (follows : Follows schedules first row runs false) (oneShot : interval schedules first.scheduleId = none) :
    Follows schedules first { row with lifecycle := .archived } runs true where
  linked := follows.linked
  recurs seconds recurring := by
    rw [oneShot] at recurring
    cases recurring
  once _ := by
    obtain ⟨still, single⟩ := follows.once oneShot
    rcases single with ⟨-, settled⟩ | ⟨ran, -⟩
    · cases settled
    · exact ⟨still, .inr ⟨ran, fun _ => rfl⟩⟩

end Follows

variable {actions : Actions} {timely : Aware → Prop}

/-- Every action has come as far as its occurrences were enqueued. -/
structure Kept (actions : Actions) (schedules : Schedules) (timely : Aware → Prop) (store : Store ι) : Prop where
  unaltered : store.schedules = schedules
  rows : ∀ actionId, Option.Rel
    (fun first row => Follows schedules first row (store.runTimes actionId) (store.settling actionId).isNone)
    (actions.find actionId) (store.actions.find actionId)
  known : ∀ occurrence ∈ store.enqueued, (actions.find occurrence.actionId).isSome = true ∧ timely occurrence.runAt

/-- Nobody else touches what the client has enqueued and is to advance or archive. -/
def Undisturbed (client : ι) (first second : Store ι) : Prop :=
  ∀ actionId, (second.settling actionId = some client ↔ first.settling actionId = some client) ∧
    (first.settling actionId = some client → second.actions.find actionId = first.actions.find actionId)

theorem Undisturbed.refl (client : ι) (store : Store ι) : Undisturbed client store store := fun _ => ⟨Iff.rfl, fun _ => rfl⟩

theorem Undisturbed.trans {client : ι} {first second third : Store ι} (one : Undisturbed client first second)
    (two : Undisturbed client second third) : Undisturbed client first third := by
  intro actionId
  obtain ⟨same, still⟩ := one actionId
  obtain ⟨same', still'⟩ := two actionId
  exact ⟨same'.trans same, fun mine => (still' (same.mpr mine)).trans (still mine)⟩

/-- What the clients keep, all of whose times admit a run of this kind. -/
def orderly (ι : Type) (actions : Actions) (schedules : Schedules) (timely : Aware → Prop) : Contract Request (Store ι) ι :=
  ⟨Kept actions schedules timely, Undisturbed, Current⟩

namespace Kept

variable {store : Store ι} {client : ι}

theorem start (actions : Actions) (schedules : Schedules) (jobs : JobQueue.Jobs) :
    Kept actions schedules timely (Store.starting actions schedules jobs : Store ι) where
  unaltered := rfl
  rows actionId := by
    change Option.Rel _ (actions.find actionId) (actions.find actionId)
    cases actions.find actionId with
    | none => exact .none
    | some first => exact .some (Follows.start first)
  known := by
    intro occurrence member
    cases member

theorem reads (kept : Kept actions schedules timely store) {actionId : String} {row : ScheduledAction}
    (found : store.actions.find actionId = some row) : ∃ first, actions.find actionId = some first ∧
      Follows schedules first row (store.runTimes actionId) (store.settling actionId).isNone := by
  have rel := kept.rows actionId
  rw [found] at rel
  cases isFirst : actions.find actionId with
  | none =>
    rw [isFirst] at rel
    cases rel
  | some first =>
    rw [isFirst] at rel
    cases rel with
    | some follows => exact ⟨first, rfl, follows⟩

end Kept

theorem runTimes_cons (store : Store ι) (occurrence : Occurrence) (settling : String → Option ι) (actionId : String) :
    Store.runTimes { store with enqueued := occurrence :: store.enqueued, settling := settling } actionId =
      if occurrence.actionId = actionId then store.runTimes actionId ++ [occurrence.runAt] else store.runTimes actionId := by
  unfold Store.runTimes
  by_cases same : occurrence.actionId = actionId <;> simp [same]

variable {occurrence : Occurrence} {action : ScheduledAction}

namespace Kept

variable {store : Store ι} {client : ι}

theorem noted (kept : Kept actions schedules timely store) (client : ι)
    (free : store.settling occurrence.actionId = none) (found : store.actions.find occurrence.actionId = some action)
    (active : action.lifecycle = .active) (same : action.nextRunAt = occurrence.runAt) (advances : Advances schedules action)
    (due : timely occurrence.runAt) :
    Kept actions schedules timely
      { store with
        enqueued := occurrence :: store.enqueued
        settling := Function.update store.settling occurrence.actionId (some client) } := by
  obtain ⟨first, isFirst, follows⟩ := kept.reads found
  refine ⟨kept.unaltered, ?_, ?_⟩
  · intro actionId
    rw [runTimes_cons]
    by_cases this : occurrence.actionId = actionId
    · subst this
      rw [free] at follows
      have onward := follows.enqueue active advances
      rw [isFirst, found, if_pos rfl, ← same]
      simp only [Function.update_self]
      exact .some onward
    · rw [if_neg this]
      simp only [Function.update_of_ne (Ne.symm this)]
      exact kept.rows actionId
  · refine List.forall_mem_cons.mpr ⟨⟨?_, due⟩, kept.known⟩
    rw [isFirst]
    rfl

theorem settled (kept : Kept actions schedules timely store) {actionId : String} {change : ScheduledAction → ScheduledAction}
    (keeps : ∀ action, (change action).id = action.id) {row : ScheduledAction} (found : store.actions.find actionId = some row)
    (onward : ∀ first, actions.find actionId = some first → Follows schedules first (change row) (store.runTimes actionId) true) :
    Kept actions schedules timely (store.settled actionId (store.actions.update (·.id = actionId) change keeps)) := by
  obtain ⟨first, isFirst, -⟩ := kept.reads found
  refine ⟨kept.unaltered, ?_, kept.known⟩
  intro another
  simp only [Store.settled, Rows.find_update]
  by_cases this : another = actionId
  · subst this
    obtain ⟨-, same⟩ := Rows.find_eq_some.mp found
    rw [isFirst, found, Function.update_self, Option.map_some, if_pos (by simpa using same)]
    exact .some (onward first isFirst)
  · rw [Function.update_of_ne this]
    have still : (store.actions.find another).map (fun row => if decide (row.id = actionId) = true then change row else row) =
        store.actions.find another := by
      cases isRow : store.actions.find another with
      | none => rfl
      | some row =>
        obtain ⟨-, same⟩ := Rows.find_eq_some.mp isRow
        rw [Option.map_some, if_neg (by simpa [same] using this)]
    rw [still]
    exact kept.rows another

end Kept

/-- What the program of a client knows of an action that it has read as due. -/
structure Foreseen (actions : Actions) (timely : Aware → Prop) (action : ScheduledAction) : Prop where
  linked : ∃ first, actions.find action.id = some first ∧ action.scheduleId = first.scheduleId
  timely : timely action.nextRunAt

/-- The client has nothing to advance or archive. -/
def Free (client : ι) (store : Store ι) : Prop := ∀ actionId, store.settling actionId ≠ some client

/-- The client has this action to advance or archive, and nothing else. -/
structure Mine (schedules : Schedules) (client : ι) (action : ScheduledAction) (store : Store ι) : Prop where
  only : ∀ actionId, store.settling actionId = some client ↔ actionId = action.id
  still : ∃ row, store.actions.find action.id = some row ∧ row.nextRunAt = action.nextRunAt ∧ row.scheduleId = action.scheduleId
  advances : Advances schedules action

theorem Free.moved {client : ι} {first second : Store ι} (free : Free client first) (moved : Undisturbed client first second) :
    Free client second := by
  intro actionId mine
  exact free actionId ((moved actionId).1.mp mine)

theorem Mine.moved {client : ι} {first second : Store ι}
    (mine : Mine schedules client action first) (moved : Undisturbed client first second) : Mine schedules client action second where
  only actionId := (moved actionId).1.trans (mine.only actionId)
  still := by
    rw [(moved action.id).2 ((mine.only action.id).mpr rfl)]
    exact mine.still
  advances := mine.advances

theorem Free.noted {client : ι} {store : Store ι} (free : Free client store)
    (nobody : store.settling occurrence.actionId = none) :
    (∀ actionId, Function.update store.settling occurrence.actionId (some client) actionId = some client ↔
      actionId = occurrence.actionId) ∧
    ∀ other, other ≠ client → Undisturbed other store
      { store with
        enqueued := occurrence :: store.enqueued
        settling := Function.update store.settling occurrence.actionId (some client) } := by
  constructor
  · intro actionId
    by_cases this : actionId = occurrence.actionId
    · simp [this]
    · simp [this, free actionId]
  · intro other unlike actionId
    refine ⟨?_, fun _ => rfl⟩
    by_cases this : actionId = occurrence.actionId
    · simp [this, nobody, Ne.symm unlike]
    · simp [this]

theorem Mine.settled {client : ι} {store : Store ι} {change : ScheduledAction → ScheduledAction}
    (mine : Mine schedules client action store) (keeps : ∀ action, (change action).id = action.id) :
    Free client (store.settled action.id (store.actions.update (·.id = action.id) change keeps)) ∧
    ∀ other, other ≠ client →
      Undisturbed other store (store.settled action.id (store.actions.update (·.id = action.id) change keeps)) := by
  constructor
  · intro actionId
    by_cases this : actionId = action.id
    · simp [Store.settled, this]
    · simpa [Store.settled, this] using fun held => this ((mine.only actionId).mp held)
  · intro other unlike actionId
    by_cases this : actionId = action.id
    · have held := (mine.only actionId).mpr this
      have foreign : store.settling actionId ≠ some other := by
        rw [held]
        simpa using Ne.symm unlike
      refine ⟨?_, fun theirs => absurd theirs foreign⟩
      subst this
      simpa [Store.settled] using foreign
    · refine ⟨by simp [Store.settled, this], fun _ => ?_⟩
      simp only [Store.settled, Rows.find_update]
      cases isRow : store.actions.find actionId with
      | none => rfl
      | some row =>
        obtain ⟨-, same⟩ := Rows.find_eq_some.mp isRow
        rw [Option.map_some, if_neg (by simpa [same] using this)]

variable {client : ι} {state : Store ι}

theorem reading_safe {asked : JobQueue.Request} (reads : asked = .generateId ∨ asked = .now)
    (free : Free client state) :
    (orderly ι actions schedules timely).Safe (serve.restrict steady) client (fun _ final => Free client final)
      ((Prog.perform asked).within (.queue occurrence) fun _ reply => reply) state := by
  intro now kept moved _ choice reply after answered
  obtain ⟨-, answered⟩ := Service.restrict_some answered
  have same : after = now := by
    obtain ⟨⟨failure, clock, id⟩, moment⟩ := choice
    rcases reads with rfl | rfl <;> cases failure <;> cases answered <;> rfl
  subst after
  refine ⟨kept, fun other _ => .refl other now, ?_⟩
  cases reply with
  | ok value => exact free.moved moved
  | error error => exact free.moved moved

/-- The statement that enqueues an action which it finds as it was read. -/
theorem insert_safe {job : JobQueue.Job} (foreseen : Foreseen actions timely action) (free : Free client state) :
    (orderly ι actions schedules timely).Safe (serve.restrict steady) client
      (fun result final => match result with
        | .ok _ => Mine schedules client action final
        | .error _ => Free client final)
      ((Prog.perform (.insert job)).within (.queue ⟨action.id, action.nextRunAt⟩) fun _ reply => reply) state := by
  intro now kept moved allowed choice reply after answered
  obtain ⟨-, answered⟩ := Service.restrict_some answered
  replace free := free.moved moved
  obtain ⟨⟨_, queue⟩, inserted, same⟩ := Option.map_eq_some_iff.mp answered
  cases same
  cases reply with
  | error error => exact ⟨⟨kept.unaltered, kept.rows, kept.known⟩, fun other _ => .refl other now, free⟩
  | ok inserted =>
    obtain ⟨nobody, row, found, active, same, advances⟩ := allowed
    rw [kept.unaltered] at advances
    obtain ⟨first, isFirst, linked⟩ := foreseen.linked
    obtain ⟨first', isFirst', follows⟩ := kept.reads found
    cases isFirst.symm.trans isFirst'
    have linked := follows.linked.trans linked.symm
    have noted := kept.noted client nobody found active same advances foreseen.timely
    obtain ⟨only, others⟩ := free.noted nobody
    refine ⟨⟨noted.unaltered, noted.rows, noted.known⟩, others, only, ⟨row, found, same, linked⟩, ?_⟩
    have same : row.nextRunAt = action.nextRunAt := same
    unfold Advances at advances ⊢
    rw [← linked, ← same]
    exact advances

theorem enqueue_safe (foreseen : Foreseen actions timely action) (free : Free client state) :
    (orderly ι actions schedules timely).Safe (serve.restrict steady) client
      (fun result final => match result with
        | .ok _ => Mine schedules client action final
        | .error _ => Free client final) (enqueue action) state := by
  unfold enqueue JobQueue.enqueue
  apply Contract.Safe.within_bind
  refine (reading_safe (.inl rfl) free).weaken fun id drawn free => ?_
  cases id with
  | error error => exact free
  | ok id =>
    apply Contract.Safe.within_bind
    refine (reading_safe (.inr rfl) free).weaken fun createdAt read free => ?_
    cases createdAt with
    | error error => exact free
    | ok createdAt =>
      apply Contract.Safe.within_bind
      refine (insert_safe foreseen free).weaken fun inserted final reached => ?_
      cases inserted with
      | error error => exact reached
      | ok inserted => exact reached

theorem Accepted.interval {schedule : RecurringSchedule} (accepted : Accepted schedule)
    (noCron : given schedule.cronExpression = none) : ∃ seconds, nonzero schedule.intervalSeconds = some seconds := by
  apply Option.ne_none_iff_exists'.mp
  intro missing
  rw [Accepted, checkSchedule, noCron, missing] at accepted
  cases accepted

theorem interval_oneShot {scheduleId : Option String} (oneShot : given scheduleId = none) :
    interval schedules scheduleId = none := by
  rw [interval, oneShot, Option.bind_none]

theorem Planned.linked (planned : Planned actions schedules) {first : ScheduledAction} {scheduleId : String}
    (isFirst : actions.find action.id = some first) (same : action.scheduleId = first.scheduleId)
    (linked : given action.scheduleId = some scheduleId) :
    ∃ schedule seconds, schedules.find scheduleId = some schedule ∧ nonzero schedule.intervalSeconds = some seconds ∧
      interval schedules action.scheduleId = some seconds := by
  obtain ⟨member, -⟩ := Rows.find_eq_some.mp isFirst
  obtain ⟨schedule, found, accepted, noCron⟩ := planned first member scheduleId (same ▸ linked)
  obtain ⟨seconds, recurring⟩ := accepted.interval noCron
  refine ⟨schedule, seconds, found, recurring, ?_⟩
  rw [Scheduler.interval, linked, Option.bind_some, found, Option.bind_some, recurring]

theorem settling_safe {request : Request} (change : ScheduledAction → ScheduledAction)
    (keeps : ∀ action, (change action).id = action.id)
    (answers : ∀ choice now reply after, steady client choice now request = true →
      serve client choice now request = some (reply, after) → after = now.settled action.id (now.actions.update (·.id = action.id) change keeps))
    (onward : ∀ first row runs, actions.find action.id = some first → row.nextRunAt = action.nextRunAt →
      Follows schedules first row runs false → Follows schedules first (change row) runs true)
    (mine : Mine schedules client action state) :
    (orderly ι actions schedules timely).Safe (serve.restrict steady) client (fun _ final => Free client final)
      (Prog.perform request) state := by
  apply Contract.Safe.perform
  intro now kept moved _ choice reply after answered
  obtain ⟨steadily, answered⟩ := Service.restrict_some answered
  cases answers choice now reply after steadily answered
  replace mine := mine.moved moved
  obtain ⟨row, found, same, -⟩ := mine.still
  obtain ⟨free, others⟩ := mine.settled keeps
  refine ⟨kept.settled keeps found fun first isFirst => ?_, others, free⟩
  obtain ⟨first', isFirst', follows⟩ := kept.reads found
  cases isFirst.symm.trans isFirst'
  rw [(mine.only action.id).mpr rfl] at follows
  exact onward first row _ isFirst same follows

theorem settle_safe (planned : Planned actions schedules) (scheduler : Scheduler)
    (foreseen : Foreseen actions timely action) (mine : Mine schedules client action state) :
    (orderly ι actions schedules timely).Safe (serve.restrict steady) client (fun _ final => Free client final)
      (scheduler.settle action) state := by
  obtain ⟨first, isFirst, same⟩ := foreseen.linked
  unfold settle
  cases linked : given action.scheduleId with
  | none =>
    have oneShot : interval schedules first.scheduleId = none := interval_oneShot (same ▸ linked)
    refine settling_safe (fun row => { row with lifecycle := .archived }) (fun _ => rfl) ?_ ?_ mine
    · intro choice now reply after steadily answered
      obtain ⟨⟨failure, clock, id⟩, moment⟩ := choice
      cases failure with
      | some error => cases steadily
      | none =>
        cases answered
        rfl
    · intro first' row runs isFirst' _ follows
      cases isFirst.symm.trans isFirst'
      exact follows.archive oneShot
  | some scheduleId =>
    obtain ⟨schedule, seconds, found, recurring, known⟩ := planned.linked isFirst same linked
    obtain ⟨positive, next, added⟩ := mine.advances seconds known
    apply Contract.Safe.bind
    apply Contract.Safe.perform
    intro now kept moved _ choice reply after answered
    obtain ⟨steadily, answered⟩ := Service.restrict_some answered
    obtain ⟨⟨failure, clock, id⟩, moment⟩ := choice
    cases failure with
    | some error => cases steadily
    | none =>
      cases answered
      refine ⟨kept, fun other _ => .refl other now, ?_⟩
      have runs : scheduler.nextRun action (now.schedules.find scheduleId) = .ok (some next) := by
        rw [kept.unaltered, found]
        simp only [nextRun, recurring, added]
        rfl
      simp only [runs]
      refine settling_safe (fun row => { row with nextRunAt := next }) (fun _ => rfl) ?_ ?_ (mine.moved moved)
      · intro choice now reply after steadily answered
        obtain ⟨⟨failure, clock, id⟩, moment⟩ := choice
        cases failure with
        | some error => cases steadily
        | none =>
          cases answered
          rfl
      · intro first' row runs isFirst' as follows
        cases isFirst.symm.trans isFirst'
        rw [same] at known
        rw [← as] at added
        exact follows.advance known added

theorem processEach_safe (planned : Planned actions schedules) (scheduler : Scheduler) {due : List ScheduledAction}
    (foreseen : ∀ action ∈ due, Foreseen actions timely action) (free : Free client state) :
    (orderly ι actions schedules timely).Safe (serve.restrict steady) client (fun _ final => Free client final)
      (scheduler.processEach due) state := by
  induction due generalizing state with
  | nil => exact free
  | cons action due ih =>
    obtain ⟨known, foreseen⟩ := List.forall_mem_cons.mp foreseen
    apply Contract.Safe.bind
    refine (enqueue_safe known free).weaken fun job final reached => ?_
    cases job with
    | error error => exact reached
    | ok job =>
      apply Contract.Safe.bind
      refine (settle_safe planned scheduler known reached).weaken fun settled final free => ?_
      cases settled with
      | error error => exact free
      | ok settled =>
        apply Contract.Safe.bind
        refine (ih foreseen free).weaken fun jobs final free => ?_
        cases jobs <;> exact free

/-- What a call with one of these times may enqueue. -/
def Timely (admitted : Option Aware → Prop) (moment : Aware) : Prop :=
  admitted none ∨ ∃ asOf, admitted (some asOf) ∧ moment.isoformat ≤ asOf.isoformat

theorem due_foreseen {now : Store ι} (kept : Kept actions schedules timely now) {ts : String}
    (due : ∀ moment : Aware, moment.isoformat ≤ ts → timely moment) :
    ∀ action ∈ now.actions.due ts, Foreseen actions timely action := by
  intro action member
  obtain ⟨present, chosen⟩ := List.mem_filter.mp ((List.mem_insertionSort _).mp member)
  simp only [Bool.and_eq_true, decide_eq_true_eq] at chosen
  obtain ⟨first, isFirst, follows⟩ := kept.reads (Rows.find_mem present)
  exact ⟨⟨first, isFirst, follows.linked⟩, due _ chosen.2⟩

theorem looking_safe {request : Request} {post : Except Raised (Reply request) → Store ι → Prop}
    (looks : ∀ choice now reply after, serve client choice now request = some (reply, after) → after = now)
    (reached : ∀ choice now reply, Kept actions schedules timely now → Undisturbed client state now →
      serve client choice now request = some (reply, now) → post reply now) :
    (orderly ι actions schedules timely).Safe (serve.restrict steady) client post (Prog.perform request) state := by
  apply Contract.Safe.perform
  intro now kept moved _ choice reply after answered
  obtain ⟨-, answered⟩ := Service.restrict_some answered
  cases looks choice now reply after answered
  exact ⟨kept, fun other _ => .refl other now, reached choice now reply kept moved answered⟩

variable {admitted : Option Aware → Prop}

theorem evaluatedAt_safe {asOf : Option Aware} (admits : admitted asOf) (free : Free client state) :
    (orderly ι actions schedules (Timely admitted)).Safe (serve.restrict steady) client
      (fun result final => Free client final ∧ ∀ moment, result = .ok moment →
        ∀ earlier : Aware, earlier.isoformat ≤ moment.isoformat → Timely admitted earlier) (evaluatedAt asOf) state := by
  cases asOf with
  | some asOf =>
    refine ⟨free, fun moment same earlier before => ?_⟩
    cases same
    exact .inr ⟨_, admits, before⟩
  | none =>
    apply Contract.Safe.bind
    apply looking_safe
    · rintro ⟨⟨_ | _, clock, id⟩, _⟩ now reply after answered <;> cases answered <;> rfl
    · intro choice now reply kept moved answered
      cases reply with
      | error error => exact ⟨free.moved moved, fun moment same => by cases same⟩
      | ok moment => exact ⟨free.moved moved, fun _ _ _ _ => .inl admits⟩

theorem getDueActions_safe {asOf : Option Aware} (admits : admitted asOf) (free : Free client state) :
    (orderly ι actions schedules (Timely admitted)).Safe (serve.restrict steady) client
      (fun result final => Free client final ∧ ∀ due, result = .ok due →
        ∀ action ∈ due, Foreseen actions (Timely admitted) action) (getDueActions asOf) state := by
  apply Contract.Safe.bind
  refine (evaluatedAt_safe admits free).weaken fun result final reached => ?_
  cases result with
  | error error => exact ⟨reached.1, fun due same => by cases same⟩
  | ok moment =>
    obtain ⟨free, timely⟩ := reached
    apply looking_safe
    · rintro ⟨⟨_ | _, clock, id⟩, _⟩ now reply after answered <;> cases answered <;> rfl
    · rintro ⟨⟨_ | _, clock, id⟩, _⟩ now reply kept moved answered <;> cases answered
      · refine ⟨free.moved moved, fun due same => ?_⟩
        cases same
        exact due_foreseen kept (timely moment rfl)
      · exact ⟨free.moved moved, fun due same => by cases same⟩

theorem processDueActions_safe (planned : Planned actions schedules) (scheduler : Scheduler)
    {asOf : Option Aware} (admits : admitted asOf) (free : Free client state) :
    (orderly ι actions schedules (Timely admitted)).Safe (serve.restrict steady) client (fun _ final => Free client final)
      (scheduler.processDueActions asOf) state := by
  apply Contract.Safe.bind
  refine (getDueActions_safe admits free).weaken fun result final reached => ?_
  cases result with
  | error error => exact reached.1
  | ok due => exact processEach_safe planned scheduler (reached.2 due rfl) reached.1

theorem Client.safe (planned : Planned actions schedules) {program : Program Unit}
    (runs : Client admitted program) (free : Free client state) :
    (orderly ι actions schedules (Timely admitted)).Safe (serve.restrict steady) client (fun _ final => Free client final)
      program state := by
  induction runs generalizing state with
  | done => exact free
  | call scheduler asOf admits next each ih =>
    apply Contract.Safe.bind
    apply Contract.Safe.attempt
    exact (processDueActions_safe planned scheduler admits free).weaken fun result final free => ih result free

theorem mem_runTimes {store : Store ι} {actionId : String} {moment : Aware} (member : moment ∈ store.runTimes actionId) :
    (⟨actionId, moment⟩ : Occurrence) ∈ store.enqueued := by
  obtain ⟨occurrence, chosen, rfl⟩ := List.mem_map.mp (List.mem_reverse.mp member)
  obtain ⟨present, same⟩ := List.mem_filter.mp chosen
  rw [← of_decide_eq_true same]
  exact present

theorem second_of_spotAt {moment start : Aware} {seconds : Int} {k : Nat} (positive : 0 < seconds)
    (same : spot moment = spotAt start seconds k) : k ≤ moment.second := by
  obtain ⟨instant, offset⟩ := Prod.mk.inj same
  have inRange := start.inRange
  have apart : (k : Int) ≤ k * seconds := le_mul_of_one_le_right (by omega) (by omega)
  unfold Aware.second
  rw [instant, offset]
  have far : k * seconds * 1000000 ≤ start.instant + k * (seconds * 1000000) + start.offset.microseconds := by
    rw [← mul_assoc]
    omega
  generalize start.instant + k * (seconds * 1000000) + start.offset.microseconds = local' at *
  generalize (k : Int) * seconds = least at *
  omega

namespace Kept

variable {store : Store ι}

theorem follows (kept : Kept actions schedules timely store) (member : action ∈ actions.list) :
    ∃ row, store.actions.find action.id = some row ∧
      Follows schedules action row (store.runTimes action.id) (store.settling action.id).isNone := by
  have rel := kept.rows action.id
  rw [Rows.find_mem member] at rel
  cases isRow : store.actions.find action.id with
  | none =>
    rw [isRow] at rel
    cases rel
  | some row =>
    rw [isRow] at rel
    cases rel with
    | some follows => exact ⟨row, rfl, follows⟩

theorem runTimes_nodup (kept : Kept actions schedules timely store) (member : action ∈ actions.list) :
    (store.runTimes action.id).Nodup := by
  obtain ⟨row, -, follows⟩ := kept.follows member
  cases recurring : interval schedules action.scheduleId with
  | none =>
    rcases (follows.once recurring).single with ⟨never, -⟩ | ⟨once, -⟩
    · rw [never]
      exact List.nodup_nil
    · rw [once]
      exact List.nodup_singleton _
  | some seconds =>
    obtain ⟨inOrder, forward, -, -⟩ := follows.recurs seconds recurring
    by_cases never : store.runTimes action.id = []
    · rw [never]
      exact List.nodup_nil
    · have positive := forward never
      apply List.Nodup.of_map spot
      rw [inOrder]
      apply List.nodup_range.map
      intro k l same
      have instant := (Prod.mk.inj same).1
      have times : (k : Int) * (seconds * 1000000) = l * (seconds * 1000000) := by linarith
      exact_mod_cast mul_right_cancel₀ (by omega) times

theorem exact (kept : Kept actions schedules timely store) : Exact actions schedules store where
  once := by
    rw [List.nodup_iff_count_le_one]
    intro occurrence
    by_cases present : occurrence ∈ store.enqueued
    · obtain ⟨action, found⟩ := Option.isSome_iff_exists.mp (kept.known occurrence present).1
      obtain ⟨member, same⟩ := Rows.find_eq_some.mp found
      have once := List.nodup_iff_count_le_one.mp (kept.runTimes_nodup member) occurrence.runAt
      rw [same, Store.runTimes, List.count_reverse] at once
      refine le_trans ?_ once
      refine le_trans (le_of_eq ?_) (List.count_le_count_map)
      rw [List.count_filter (by simp)]
    · rw [List.count_eq_zero.mpr present]
      exact Nat.zero_le 1
  known occurrence present := by
    obtain ⟨action, found⟩ := Option.isSome_iff_exists.mp (kept.known occurrence present).1
    obtain ⟨member, same⟩ := Rows.find_eq_some.mp found
    exact ⟨action, member, same⟩
  inOrder action member seconds recurring := by
    obtain ⟨row, -, follows⟩ := kept.follows member
    exact (follows.recurs seconds recurring).inOrder
  single action member oneShot := by
    obtain ⟨row, -, follows⟩ := kept.follows member
    rcases (follows.once (interval_oneShot oneShot)).single with ⟨never, -⟩ | ⟨once, -⟩
    · rw [never]
      exact List.nil_prefix
    · rw [once]

theorem archived (kept : Kept actions schedules timely store) (member : action ∈ actions.list)
    (oneShot : given action.scheduleId = none) (ran : store.runTimes action.id ≠ [])
    (nobody : store.settling action.id = none) :
    ∃ row, store.actions.find action.id = some row ∧ row.lifecycle = .archived := by
  obtain ⟨row, found, follows⟩ := kept.follows member
  rcases (follows.once (interval_oneShot oneShot)).single with ⟨never, -⟩ | ⟨-, archived⟩
  · exact absurd never ran
  · exact ⟨row, found, archived (by rw [nobody]; rfl)⟩

theorem runTimes_length {horizon : Nat} (kept : Kept actions schedules timely store)
    (limited : ∀ moment, timely moment → moment.second ≤ horizon) (member : action ∈ actions.list) :
    (store.runTimes action.id).length ≤ horizon + 1 := by
  obtain ⟨row, -, follows⟩ := kept.follows member
  cases recurring : interval schedules action.scheduleId with
  | none =>
    rcases (follows.once recurring).single with ⟨never, -⟩ | ⟨once, -⟩
    · rw [never]
      exact Nat.zero_le _
    · rw [once]
      exact Nat.le_add_left 1 horizon
  | some seconds =>
    obtain ⟨inOrder, forward, -, -⟩ := follows.recurs seconds recurring
    by_contra more
    have inside : horizon + 1 < (store.runTimes action.id).length := by omega
    have positive := forward (List.ne_nil_of_length_pos (by omega))
    have last := congrArg (·[horizon + 1]?) inOrder
    simp only [List.getElem?_map, List.getElem?_eq_getElem inside, Option.map_some, List.getElem?_range inside,
      Option.some.injEq] at last
    have late := second_of_spotAt positive last
    have early := limited _ (kept.known _ (mem_runTimes (List.getElem_mem inside))).2
    dsimp only at early
    omega

theorem enqueued_length {horizon : Nat} (kept : Kept actions schedules timely store)
    (limited : ∀ moment, timely moment → moment.second ≤ horizon) :
    store.enqueued.length ≤ actions.list.length * (horizon + 1) := by
  have known : ∀ occurrence ∈ store.enqueued.toFinset,
      occurrence.actionId ∈ (actions.list.map ScheduledAction.id).toFinset := by
    intro occurrence present
    obtain ⟨action, member, same⟩ := kept.exact.known occurrence (List.mem_toFinset.mp present)
    exact List.mem_toFinset.mpr (List.mem_map.mpr ⟨action, member, same⟩)
  have few : ∀ actionId ∈ (actions.list.map ScheduledAction.id).toFinset,
      (store.enqueued.toFinset.filter fun occurrence => occurrence.actionId = actionId).card ≤ horizon + 1 := by
    intro actionId present
    obtain ⟨action, member, rfl⟩ := List.mem_map.mp (List.mem_toFinset.mp present)
    have length := kept.runTimes_length limited member
    rw [Store.runTimes, List.length_reverse, List.length_map] at length
    refine le_trans ?_ length
    refine le_trans (le_of_eq ?_) (List.toFinset_card_le _)
    rw [List.toFinset_filter]
    simp
  have counted := Finset.card_le_mul_card_image_of_maps_to known (horizon + 1) few
  rw [List.toFinset_card_of_nodup kept.exact.once, List.toFinset_card_of_nodup actions.unique, List.length_map] at counted
  rw [mul_comm]
  exact counted

end Kept

/-- Nothing is enqueued twice or out of order where every statement that enqueues
an action finds it as it was read, and no call fails between that statement and the
one that advances or archives. One-shots are archived when all calls are over, and
what is enqueued is limited where the times of the calls are. -/
theorem occurrences_exact [DecidableEq ι] {jobs : JobQueue.Jobs} {programs : ι → Program Unit}
    {admitted : Option Aware → Prop} {world : Interleaved Request Reply Raised (Store ι) ι}
    (planned : Planned actions schedules) (clients : ∀ client, Client admitted (programs client))
    (reached : Interleaved.Reaches (serve.restrict steady) Current ⟨.starting actions schedules jobs, programs⟩ world) :
    Exact actions schedules world.state ∧
    ((∀ client, world.programs client = .pure ()) → ∀ action ∈ actions.list, given action.scheduleId = none →
      world.state.runTimes action.id ≠ [] →
      ∃ row, world.state.actions.find action.id = some row ∧ row.lifecycle = .archived) ∧
    ∀ horizon, (∀ asOf, admitted asOf → ∃ moment, asOf = some moment ∧ moment.second ≤ horizon) →
      world.state.enqueued.length ≤ actions.list.length * (horizon + 1) := by
  have begun : ∀ client, (orderly ι actions schedules (Timely admitted)).Safe (serve.restrict steady) client
      (fun _ final => Free client final) (programs client) (.starting actions schedules jobs) := by
    intro client
    apply (clients client).safe planned
    intro actionId mine
    cases mine
  have stable : ∀ client (_ : Except Raised Unit) (first second : Store ι), Free client first →
      Undisturbed client first second → Free client second := fun _ _ _ _ => Free.moved
  obtain ⟨kept, safe⟩ := Interleaved.Reaches.safe_to (orderly ι actions schedules (Timely admitted)) reached
    (fun client state => .refl client state) (fun _ _ _ _ => .trans) stable (.start actions schedules jobs) begun
  refine ⟨kept.exact, fun ended action member oneShot ran => ?_, fun horizon limit => ?_⟩
  · apply kept.archived member oneShot ran
    by_contra somebody
    obtain ⟨client, settling⟩ := Option.ne_none_iff_exists'.mp somebody
    have free := safe client
    rw [ended client] at free
    exact free action.id settling
  · apply kept.enqueued_length
    rintro moment (unlimited | ⟨asOf, admits, before⟩)
    · obtain ⟨_, none, -⟩ := limit _ unlimited
      cases none
    · obtain ⟨_, same, near⟩ := limit _ admits
      cases same
      by_contra far
      exact String.not_le.mpr (Aware.isoformat_lt_of_second (by omega)) before

section Sample

/-- Noon of 2024-05-01, in UTC. -/
private def noon : Aware := (Moment.of 63850161600000000 (by decide)).toAware

private def reminder : ScheduledAction where
  id := "reminder"
  name := "Reminder"
  ownerId := "alice"
  actionType := "notify"
  actionConfig := .obj []
  nextRunAt := noon
  scheduleId := none
  scopeId := none
  createdAt := .of 0 Moment.start_within
  lifecycle := .active

private def report : ScheduledAction :=
  { reminder with id := "report", name := "Report", actionType := "run_report", scheduleId := some "hourly" }

private def hourly : RecurringSchedule where
  id := "hourly"
  name := "Hourly"
  ownerId := "alice"
  cronExpression := none
  intervalSeconds := some 3600
  createdAt := .of 0 Moment.start_within
  lifecycle := .active

private def planned : Actions := ⟨[reminder, report], by decide⟩

private def plans : Schedules := ⟨[hourly], by decide⟩

/-- Two schedulers that each process once what is due at noon. -/
private def twoSchedulers (_ : Bool) : Program Unit :=
  ((⟨none⟩ : Scheduler).processDueActions (some noon)).attempt.bind fun _ => .pure ()

private def plainly (turn : Bool × Fin 10) : Bool × Choice :=
  (turn.1, ⟨⟨none, ⟨2024, 5, 1, 12, 0, 0, 0, by decide⟩, .repeated turn.2⟩, .of 63850161600000000 (by decide)⟩)

private theorem planned_planned : Planned planned plans := by
  intro action member scheduleId linked
  simp only [planned, List.mem_cons, List.not_mem_nil, or_false] at member
  rcases member with rfl | rfl
  · cases linked
  · cases linked
    exact ⟨hourly, rfl, rfl, rfl⟩

private theorem twoSchedulers_clients (client : Bool) : Client (· = some noon) (twoSchedulers client) := by
  apply Client.call
  · rfl
  · exact fun _ => .done

private def outcome (world : Interleaved Request Reply Raised (Store Bool) Bool) : List Occurrence × Bool :=
  (world.state.enqueued, [false, true].all fun client => match world.programs client with
    | .pure _ => true
    | _ => false)

private theorem race_runs :
    ((Interleaved.run serve (fun _ _ _ => True) ⟨.starting planned plans .empty, twoSchedulers⟩
      ([(false, 0), (true, 0), (false, 1), (false, 1), (false, 1), (true, 2), (true, 2), (true, 2)].map plainly)).map
        outcome) = some ([⟨"reminder", noon⟩, ⟨"reminder", noon⟩], false) := by
  decide +kernel

/-- Both schedulers read what is due before either enqueues it. -/
theorem race_enqueues_twice :
    ∃ world, Planned planned plans ∧ (∀ client, Client (· = some noon) (twoSchedulers client)) ∧
      Interleaved.Reaches serve (fun _ _ _ => True) ⟨.starting planned plans .empty, twoSchedulers⟩ world ∧
      ¬ world.state.enqueued.Nodup := by
  obtain ⟨world, ran, ends⟩ := Option.map_eq_some_iff.mp race_runs
  have twice : world.state.enqueued = [⟨"reminder", noon⟩, ⟨"reminder", noon⟩] := (Prod.mk.inj ends).1
  refine ⟨world, planned_planned, twoSchedulers_clients, Interleaved.run_reaches .start ran, ?_⟩
  rw [twice]
  simp

private instance (schedules : Schedules) (action : ScheduledAction) : Decidable (Advances schedules action) :=
  decidable_of_iff (∀ seconds ∈ interval schedules action.scheduleId, 0 < seconds ∧
    (plus action.nextRunAt seconds).toOption.isSome = true) (by
      unfold Advances
      refine forall₂_congr fun seconds recurring => and_congr_right fun positive => ?_
      cases plus action.nextRunAt seconds <;> simp [Except.toOption])

private instance (client : Bool) (store : Store Bool) (request : Request) : Decidable (Current client store request) := by
  unfold Current
  split <;> infer_instance

private theorem sequence_runs :
    ((Interleaved.run (serve.restrict steady) Current ⟨.starting planned plans .empty, twoSchedulers⟩
      ((List.replicate 5 (false, (0 : Fin 10)) ++ List.replicate 5 (false, 1) ++ [(true, 2)]).map plainly)).map outcome) =
        some ([⟨"report", noon⟩, ⟨"reminder", noon⟩], true) := by
  decide +kernel

/-- Two schedulers, the second of which begins when the first is through. -/
theorem occurrences_exact_sequence :
    ∃ world, Interleaved.Reaches (serve.restrict steady) Current ⟨.starting planned plans .empty, twoSchedulers⟩ world ∧
      Exact planned plans world.state ∧ world.state.enqueued = [⟨"report", noon⟩, ⟨"reminder", noon⟩] ∧
      (∃ row, world.state.actions.find "reminder" = some row ∧ row.lifecycle = .archived) ∧
      world.state.enqueued.length ≤ 2 * (noon.second + 1) := by
  obtain ⟨world, ran, ends⟩ := Option.map_eq_some_iff.mp sequence_runs
  obtain ⟨enqueued, ended⟩ := Prod.mk.inj ends
  have reached := Interleaved.run_reaches .start ran
  obtain ⟨exact, archived, limited⟩ := occurrences_exact planned_planned twoSchedulers_clients reached
  have through : ∀ client, world.programs client = .pure () := by
    intro client
    have held := List.all_eq_true.mp ended client (by cases client <;> simp)
    split at held
    next value same => rw [same]
    · cases held
  refine ⟨world, reached, exact, enqueued, ?_, ?_⟩
  · apply archived through reminder (by simp [planned]) rfl
    simp [Store.runTimes, enqueued, reminder]
  · exact limited _ fun asOf same => ⟨noon, same, le_refl _⟩

end Sample

end PyScoped.Legacy.Scheduler
