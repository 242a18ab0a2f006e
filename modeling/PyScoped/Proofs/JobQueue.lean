import PyScoped.Legacy.JobQueue

/-! When the job queue runs each job at most once and honours cancellation. The
statement that claims a job does not look at its state: all is well as long as
it finds the job queued. -/

namespace PyScoped.Legacy.JobQueue
open Foundation

variable {ι : Type}

def Store.calls (store : Store ι) (jobId : String) : Nat :=
  store.invocations.countP fun invocation => invocation.jobId = jobId

/-- No job is run twice, none is run once its cancellation has committed, and
what was once cancelled is cancelled. -/
structure Honoured (store : Store ι) : Prop where
  once : ∀ jobId, store.calls jobId ≤ 1
  willing : ∀ invocation ∈ store.invocations, invocation.withdrawn = false
  stays : ∀ jobId, store.withdrawn jobId = true → store.jobs.stateOf jobId = some .cancelled

/-- The statement that claims a job finds it queued. -/
def Queued (_ : ι) (store : Store ι) : Request → Prop
  | .start jobId _ => store.jobs.stateOf jobId = some .queued
  | _ => True

/-- A claimed job is under way or ended, and a job that nobody has claimed was never run. -/
structure Kept (store : Store ι) : Prop where
  honoured : Honoured store
  claimed : ∀ jobId client, store.claimedBy jobId = some client →
    ∃ state, store.jobs.stateOf jobId = some state ∧ state ≠ .queued ∧ state ≠ .cancelled
  unclaimed : ∀ jobId, store.claimedBy jobId = none → store.calls jobId = 0

/-- Nobody else claims a job that the client has claimed, or runs it. -/
def Undisturbed (client : ι) (first second : Store ι) : Prop :=
  ∀ jobId, first.claimedBy jobId = some client → second.claimedBy jobId = some client ∧ second.calls jobId = first.calls jobId

def claiming (ι : Type) : Contract Request (Store ι) ι := ⟨Kept, Undisturbed, Queued⟩

/-- The statements of a worker that has claimed a job and called the executor. -/
def Request.Tends (jobId : String) : Request → Prop
  | .start _ _ | .invoke _ => False
  | .complete other _ _ | .fail other _ _ => other = jobId
  | _ => True

theorem Request.Outside.tends {request : Request} (outside : request.Outside) (jobId : String) : request.Tends jobId := by
  cases request <;> first | exact absurd outside id | trivial

theorem Undisturbed.refl (client : ι) (store : Store ι) : Undisturbed client store store := fun _ mine => ⟨mine, rfl⟩

theorem Undisturbed.trans {client : ι} {first second third : Store ι} (one : Undisturbed client first second)
    (two : Undisturbed client second third) : Undisturbed client first third := by
  intro jobId mine
  obtain ⟨mine', same⟩ := one jobId mine
  obtain ⟨mine'', same'⟩ := two jobId mine'
  exact ⟨mine'', same'.trans same⟩

theorem Undisturbed.of_same {client : ι} {first second : Store ι} (claims : second.claimedBy = first.claimedBy)
    (calls : second.invocations = first.invocations) : Undisturbed client first second := by
  intro jobId mine
  unfold Store.calls
  rw [claims, calls]
  exact ⟨mine, rfl⟩

theorem stateOf_assign (jobs : Jobs) (chosen : Job → Bool) (assignment : Assignment) (jobId : String) :
    (jobs.assign chosen assignment).stateOf jobId =
      (jobs.find jobId).map fun job => (if chosen job then assignment.change job else job).state := by
  unfold Jobs.stateOf Jobs.assign
  rw [Rows.find_update, Option.map_map]
  rfl

theorem stateOf_assign_one (jobs : Jobs) (chosen : String) (assignment : Assignment) (jobId : String) :
    (jobs.assign (·.id = chosen) assignment).stateOf jobId =
      (jobs.find jobId).map fun job => if jobId = chosen then (assignment.change job).state else job.state := by
  rw [stateOf_assign]
  cases found : jobs.find jobId with
  | none => rfl
  | some job =>
    obtain ⟨-, rfl⟩ := Rows.find_eq_some.mp found
    by_cases same : job.id = chosen <;> simp [same]

variable {jobId : String}

namespace Kept

variable {store : Store ι} {client : ι}

theorem willing (kept : Kept store) (mine : store.claimedBy jobId = some client) :
    store.withdrawn jobId = false := by
  obtain ⟨state, found, -, unlike⟩ := kept.claimed jobId client mine
  by_contra shown
  rw [Bool.not_eq_false] at shown
  rw [kept.honoured.stays jobId shown] at found
  cases found
  exact unlike rfl

theorem put (kept : Kept store) {jobs : Jobs}
    (cancelled : ∀ jobId, store.jobs.stateOf jobId = some .cancelled → store.withdrawn jobId = true →
      jobs.stateOf jobId = some .cancelled)
    (claimed : ∀ jobId client state, store.claimedBy jobId = some client → store.jobs.stateOf jobId = some state →
      state ≠ .queued → state ≠ .cancelled →
      ∃ state, jobs.stateOf jobId = some state ∧ state ≠ .queued ∧ state ≠ .cancelled) :
    Kept (store.put jobs) := by
  refine ⟨⟨kept.honoured.once, kept.honoured.willing, ?_⟩, ?_, kept.unclaimed⟩
  · intro jobId shown
    rcases Bool.or_eq_true_iff.mp shown with shown | shown
    · exact cancelled jobId (kept.honoured.stays jobId shown) shown
    · exact of_decide_eq_true shown
  · intro jobId client mine
    obtain ⟨state, found, unqueued, uncancelled⟩ := kept.claimed jobId client mine
    exact claimed jobId client state mine found unqueued uncancelled

theorem assign_one (kept : Kept store) (assignment : Assignment) (state : JobState)
    (assigns : ∀ job, (assignment.change job).state = state) (unqueued : state ≠ .queued) (uncancelled : state ≠ .cancelled)
    (willing : store.withdrawn jobId = false) : Kept (store.put (store.jobs.assign (·.id = jobId) assignment)) := by
  refine kept.put ?_ ?_
  · intro other was shown
    have unlike : other ≠ jobId := by
      rintro rfl
      rw [willing] at shown
      cases shown
    obtain ⟨job, present, state⟩ := Option.map_eq_some_iff.mp was
    rw [stateOf_assign_one, present]
    simpa only [Option.map_some, if_neg unlike] using congrArg some state
  · intro other _ was _ found unqueued' uncancelled'
    rw [stateOf_assign_one]
    obtain ⟨job, present, rfl⟩ := Option.map_eq_some_iff.mp found
    rw [present]
    by_cases same : other = jobId
    · exact ⟨state, by simp [same, assigns], unqueued, uncancelled⟩
    · exact ⟨job.state, by simp [same], unqueued', uncancelled'⟩

theorem invoke (kept : Kept store) (mine : store.claimedBy jobId = some client) (never : store.calls jobId = 0) :
    Kept { store with invocations := ⟨jobId, store.withdrawn jobId⟩ :: store.invocations } := by
  have calls : ∀ other, Store.calls { store with invocations := ⟨jobId, store.withdrawn jobId⟩ :: store.invocations } other =
      store.calls other + if jobId = other then 1 else 0 := by
    intro other
    simp [Store.calls, List.countP_cons]
  refine ⟨⟨?_, ?_, kept.honoured.stays⟩, kept.claimed, ?_⟩
  · intro other
    rw [calls]
    split
    next same => rw [← same, never]
    · exact kept.honoured.once other
  · exact List.forall_mem_cons.mpr ⟨kept.willing mine, kept.honoured.willing⟩
  · intro other nobody
    rw [calls, if_neg, kept.unclaimed other nobody]
    rintro rfl
    rw [mine] at nobody
    cases nobody

theorem cancel (kept : Kept store) (jobId : String) :
    Kept (store.put (store.jobs.assign (fun job => job.id = jobId && job.state = .queued) .cancel)) := by
  refine kept.put ?_ ?_
  · intro other was _
    obtain ⟨job, present, state⟩ := Option.map_eq_some_iff.mp was
    rw [stateOf_assign, present]
    simp [state]
  · intro other _ state _ found unqueued uncancelled
    obtain ⟨job, present, rfl⟩ := Option.map_eq_some_iff.mp found
    rw [stateOf_assign, present]
    exact ⟨job.state, by simp [unqueued], unqueued, uncancelled⟩

theorem insert (kept : Kept store) {job : Job} {jobs : Jobs} (inserted : store.jobs.insert job = some jobs) :
    Kept (store.put jobs) := by
  have found : ∀ {jobId state}, store.jobs.stateOf jobId = some state → jobs.stateOf jobId = some state := by
    intro jobId state was
    obtain ⟨old, present, rfl⟩ := Option.map_eq_some_iff.mp was
    have unlike : jobId ≠ job.id := by
      rintro rfl
      rw [(Rows.insert_eq_some inserted).1] at present
      cases present
    unfold Jobs.stateOf
    rw [Rows.find_insert inserted, if_neg unlike, present]
    rfl
  exact kept.put (fun _ was _ => found was) fun _ _ state _ was unqueued uncancelled =>
    ⟨state, found was, unqueued, uncancelled⟩

variable {choice : Choice} {after : Store ι}

/-- Whoever has claimed nothing may issue these. -/
theorem outside (kept : Kept store) {request : Request} {reply : Except Raised (Reply request)}
    (outside : request.Outside) (answered : serve client choice store request = some (reply, after)) :
    Kept after ∧ ∀ other, Undisturbed other store after := by
  have quiet : ∀ {after : Store ι}, Kept after → after.claimedBy = store.claimedBy → after.invocations = store.invocations →
      Kept after ∧ ∀ other, Undisturbed other store after :=
    fun kept' claims calls => ⟨kept', fun _ => .of_same claims calls⟩
  obtain ⟨failure, clock, generated⟩ := choice
  cases request with
  | start _ _ | invoke _ | complete _ _ _ | fail _ _ _ => exact absurd outside id
  | cancel jobId =>
    cases failure <;> cases answered
    · exact quiet (kept.cancel jobId) rfl rfl
    · exact quiet kept rfl rfl
  | insert job =>
    cases failure with
    | some error =>
      cases answered
      exact quiet kept rfl rfl
    | none =>
      simp only [serve] at answered
      split at answered
      next jobs inserted =>
        cases answered
        exact quiet (kept.insert inserted) rfl rfl
      · cases answered
        exact quiet kept rfl rfl
  | _ => cases failure <;> cases answered <;> exact quiet kept rfl rfl

theorem start (kept : Kept store) {startedAt : String} (queued : store.jobs.stateOf jobId = some .queued) :
    Kept { store.put (store.jobs.assign (·.id = jobId) (.start startedAt)) with
      claimedBy := Function.update store.claimedBy jobId (some client) } := by
  have willing : store.withdrawn jobId = false := by
    by_contra shown
    rw [Bool.not_eq_false] at shown
    rw [kept.honoured.stays jobId shown] at queued
    cases queued
  have put := kept.assign_one (.start startedAt) .running (fun _ => rfl) nofun nofun willing
  refine ⟨⟨put.honoured.once, put.honoured.willing, put.honoured.stays⟩, ?_, ?_⟩
  · intro other owner mine
    by_cases same : other = jobId
    · subst other
      refine ⟨.running, ?_, nofun, nofun⟩
      change (store.jobs.assign _ _).stateOf jobId = some .running
      obtain ⟨job, present, -⟩ := Option.map_eq_some_iff.mp queued
      rw [stateOf_assign_one, present]
      simp [Assignment.start]
    · simp only [Function.update_of_ne same] at mine
      exact put.claimed other owner mine
  · intro other nobody
    by_cases same : other = jobId
    · subst other
      simp only [Function.update_self, reduceCtorEq] at nobody
    · exact kept.unclaimed other (by simpa only [Function.update_of_ne same] using nobody)

theorem tend (kept : Kept store) {request : Request}
    {reply : Except Raised (Reply request)} (mine : store.claimedBy jobId = some client)
    (tends : request.Tends jobId) (answered : serve client choice store request = some (reply, after)) :
    Kept after ∧ ∀ other, Undisturbed other store after := by
  have quiet : ∀ {after : Store ι}, Kept after → after.claimedBy = store.claimedBy → after.invocations = store.invocations →
      Kept after ∧ ∀ other, Undisturbed other store after :=
    fun kept' claims calls => ⟨kept', fun _ => .of_same claims calls⟩
  obtain ⟨failure, clock, generated⟩ := choice
  cases request with
  | complete other completedAt result =>
    cases tends
    cases failure <;> cases answered
    · exact quiet (kept.assign_one _ .completed (fun _ => rfl) nofun nofun (kept.willing mine)) rfl rfl
    · exact quiet kept rfl rfl
  | fail other completedAt message =>
    cases tends
    cases failure <;> cases answered
    · exact quiet (kept.assign_one _ .failed (fun _ => rfl) nofun nofun (kept.willing mine)) rfl rfl
    · exact quiet kept rfl rfl
  | start _ _ | invoke _ => exact absurd tends id
  | _ =>
    refine outside kept ?_ answered
    exact tends

theorem free (kept : Kept store) (queued : store.jobs.stateOf jobId = some .queued) :
    store.claimedBy jobId = none := by
  cases owner : store.claimedBy jobId with
  | none => rfl
  | some other =>
    obtain ⟨state, found, unqueued, -⟩ := kept.claimed jobId other owner
    rw [queued] at found
    cases found
    exact absurd rfl unqueued

theorem claim (kept : Kept store) {startedAt : String} {reply : Except Raised Unit}
    (queued : store.jobs.stateOf jobId = some .queued)
    (answered : serve client choice store (.start jobId startedAt) = some (reply, after)) :
    Kept after ∧ (∀ other, Undisturbed other store after) ∧
      (reply = .ok () → after.claimedBy jobId = some client ∧ after.calls jobId = 0) := by
  obtain ⟨failure, clock, generated⟩ := choice
  cases failure <;> cases answered
  · refine ⟨kept.start queued, fun other another mine => ⟨?_, rfl⟩, fun _ => ⟨Function.update_self .., ?_⟩⟩
    · have foreign : another ≠ jobId := by
        rintro rfl
        rw [kept.free queued] at mine
        cases mine
      exact (Function.update_of_ne foreign ..).trans mine
    · exact kept.unclaimed jobId (kept.free queued)
  · exact ⟨kept, fun other => .refl other store, nofun⟩

theorem call (kept : Kept store) {reply : Except Raised Unit}
    (mine : store.claimedBy jobId = some client) (never : store.calls jobId = 0)
    (answered : serve client choice store (.invoke jobId) = some (reply, after)) :
    Kept after ∧ (∀ other, other ≠ client → Undisturbed other store after) ∧ after.claimedBy jobId = some client := by
  cases answered
  refine ⟨kept.invoke mine never, fun other unlike another theirs => ⟨theirs, ?_⟩, mine⟩
  have foreign : jobId ≠ another := by
    rintro rfl
    rw [mine] at theirs
    cases theirs
    exact unlike rfl
  simp [Store.calls, foreign]

end Kept

variable {client : ι}

theorem tending_safe {α : Type} {program : Program α} (only : program.Only (Request.Tends jobId))
    {state : Store ι} (mine : state.claimedBy jobId = some client) :
    (claiming ι).Safe serve client (fun _ final => final.claimedBy jobId = some client) program state := by
  induction program generalizing state with
  | pure value => exact mine
  | raise error => exact mine
  | request request next ih =>
    intro now kept moved _ choice reply after answered
    have still := (moved jobId mine).1
    obtain ⟨kept', others⟩ := Kept.tend kept still only.1 answered
    exact ⟨kept', fun other _ => others other, ih reply (only.2 reply) ((others client) jobId still).1⟩

theorem outside_safe {α : Type} {program : Program α} (only : program.Only Request.Outside) (state : Store ι) :
    (claiming ι).Safe serve client (fun _ _ => True) program state :=
  Contract.Safe.keeping (fun _ _ _ _ _ outside kept _ answered =>
    have ⟨kept', others⟩ := Kept.outside kept outside answered
    ⟨kept', fun other _ => others other⟩) only

variable (queue : JobQueue)

theorem recordFailure_only (job : Job) (error : Raised) : (recordFailure job error).Only (Request.Tends job.id) := by
  refine .bind (.perform trivial) fun _ => .bind (.perform rfl) fun _ => .bind (.perform trivial) fun updated => ?_
  exact .ofExcept (jobFromRow updated)

theorem execute_safe (job : Job) {state : Store ι} (mine : state.claimedBy job.id = some client)
    (never : state.calls job.id = 0) :
    (claiming ι).Safe serve client (fun _ final => final.claimedBy job.id = some client) (queue.execute job) state := by
  refine Contract.Safe.bind (Contract.Safe.perform fun now kept moved _ choice reply after answered => ?_)
  obtain ⟨still, same⟩ := moved job.id mine
  obtain ⟨kept', others, owned⟩ := Kept.call kept still (same.trans never) answered
  refine ⟨kept', others, ?_⟩
  cases reply with
  | error error => exact owned
  | ok called =>
    refine tending_safe (.bind ?_ fun result => ?_) owned
    · exact ((queue.executor.getD .default).outside _ _).weaken fun _ outside => outside.tends job.id
    · exact .bind (.perform trivial) fun _ => .bind (.perform rfl) fun _ => .bind (.perform trivial) fun updated =>
        .ofExcept (jobFromRow updated)

theorem runJob_safe (job : Job) (state : Store ι) :
    (claiming ι).Safe serve client (fun _ _ => True) (queue.runJob job) state := by
  refine Contract.Safe.bind ((outside_safe (.perform (show Request.Outside .now from trivial)) state).weaken
    fun result now _ => ?_)
  cases result with
  | error error => trivial
  | ok startedAt =>
    refine Contract.Safe.bind (Contract.Safe.perform fun now kept moved queued choice reply after answered => ?_)
    obtain ⟨kept', others, owned⟩ := Kept.claim kept queued answered
    refine ⟨kept', fun other _ => others other, ?_⟩
    cases reply with
    | error error => trivial
    | ok claimed =>
      obtain ⟨mine, never⟩ := owned rfl
      refine Contract.Safe.tryCatch ((execute_safe queue job mine never).weaken fun result final still => ?_)
      cases result with
      | ok done => trivial
      | error error => exact (tending_safe (recordFailure_only job error) still).weaken fun _ _ _ => trivial

theorem runEach_safe (jobs : List Job) (state : Store ι) :
    (claiming ι).Safe serve client (fun _ _ => True) (queue.runEach jobs) state := by
  induction jobs generalizing state with
  | nil => trivial
  | cons job jobs ih =>
    refine Contract.Safe.bind ((runJob_safe queue job state).weaken fun result now _ => ?_)
    cases result with
    | error error => trivial
    | ok done =>
      refine Contract.Safe.bind ((ih now).weaken fun result final _ => ?_)
      cases result <;> trivial

theorem invoke_safe (made : Call) (state : Store ι) :
    (claiming ι).Safe serve client (fun _ _ => True) (queue.invoke made) state := by
  cases made with
  | enqueue name actionType actionConfig ownerId scheduledActionId scopeId =>
    have only : (queue.invoke (.enqueue name actionType actionConfig ownerId scheduledActionId scopeId)).Only
        Request.Outside :=
      .bind (.bind (.perform trivial) fun _ => .bind (.perform trivial) fun _ => .bind (.perform trivial) fun _ => trivial)
        fun _ => trivial
    exact outside_safe only state
  | cancelJob jobId =>
    have only : (queue.invoke (.cancelJob jobId)).Only Request.Outside := .bind (.perform trivial) fun _ => trivial
    exact outside_safe only state
  | runAll =>
    refine Contract.Safe.bind ((outside_safe (.perform (show Request.Outside .allQueued from trivial)) state).weaken
      fun result now _ => ?_)
    cases result with
    | error error => trivial
    | ok rows => exact runEach_safe queue rows now
  | runNext =>
    refine Contract.Safe.bind (Contract.Safe.bind
      ((outside_safe (.perform (show Request.Outside .nextQueued from trivial)) state).weaken fun result now _ => ?_))
    cases result with
    | error error => trivial
    | ok row =>
      cases row with
      | none => trivial
      | some job =>
        refine Contract.Safe.bind ((runJob_safe queue job now).weaken fun result final _ => ?_)
        cases result <;> trivial

theorem Client.safe {program : Program Unit} (runs : Client program) (state : Store ι) :
    (claiming ι).Safe serve client (fun _ _ => True) program state := by
  induction runs generalizing state with
  | done => trivial
  | call queue made next each ih =>
    refine Contract.Safe.bind (Contract.Safe.attempt ((invoke_safe queue made state).weaken fun result final _ => ?_))
    exact ih result final

variable [DecidableEq ι]

/-- Where every claim finds its job still queued, each job is run at most once,
none after its cancellation, and cancelled jobs stay cancelled. -/
theorem jobs_honoured {jobs : Jobs} {programs : ι → Program Unit} {world : Interleaved Request Reply Raised (Store ι) ι}
    (clients : ∀ client, Client (programs client))
    (reached : Interleaved.Reaches serve Queued ⟨.starting jobs, programs⟩ world) : Honoured world.state := by
  have start : Kept (Store.starting jobs : Store ι) :=
    ⟨⟨fun _ => Nat.zero_le _, nofun, fun _ shown => of_decide_eq_true shown⟩, nofun, fun _ _ => rfl⟩
  have kept := Interleaved.Reaches.safe (claiming ι) reached (fun client state => .refl client state)
    (fun _ _ _ _ one two => .trans one two) start fun client => (clients client).safe _
  exact kept.1.honoured

section Sample

private def report (jobId createdAt : String) : Job :=
  { id := jobId, name := jobId, actionType := "report", actionConfig := some (.obj []), ownerId := "ann", state := .queued
    createdAt := createdAt, startedAt := none, completedAt := none, result := .obj [], errorMessage := none
    scheduledActionId := none, scopeId := none, lifecycle := .active }

def twoReports : Jobs := ⟨[report "first" "2024-01-01T00:00:00+00:00", report "second" "2024-01-02T00:00:00+00:00"], by decide⟩

/-- Whatever it runs, it cancels the second job. -/
def cancelling : JobQueue where
  executor := some
    { run := fun _ _ => do
        cancelJob "second"
        return .obj []
      outside := fun _ _ => .bind (.perform trivial) fun _ => trivial }

/-- One worker runs all jobs. -/
def oneBatch : Bool → Program Unit
  | false => (cancelling.invoke .runAll).attempt.bind fun _ => .pure ()
  | true => .pure ()

/-- Two workers run the next job. -/
def twoWorkers (_ : Bool) : Program Unit := (JobQueue.invoke ⟨none⟩ .runNext).attempt.bind fun _ => .pure ()

theorem oneBatch_clients (client : Bool) : Client (oneBatch client) := by
  cases client with
  | false => exact .call _ _ _ fun _ => .done
  | true => exact .done

theorem twoWorkers_clients (client : Bool) : Client (twoWorkers client) := .call _ _ _ fun _ => .done

private def plainly (client : Bool) : Bool × Choice := (client, ⟨none, ⟨2024, 1, 3, 0, 0, 0, 0, by decide⟩, .repeated 1⟩)

/-- The state of both jobs, the calls of the executor, and whether the second job was ever cancelled. -/
private def outcome (world : Interleaved Request Reply Raised (Store Bool) Bool) :
    Option JobState × Option JobState × List Invocation × Bool :=
  (world.state.jobs.stateOf "first", world.state.jobs.stateOf "second", world.state.invocations,
    world.state.withdrawn "second")

private theorem batch_runs :
    ((Interleaved.run serve (fun _ _ _ => True) ⟨.starting twoReports, oneBatch⟩ (
      List.replicate 15 (plainly false))).map outcome) =
      some (some .completed, some .completed, [⟨"second", true⟩, ⟨"first", false⟩], true) := by
  decide +kernel

private theorem race_runs :
    ((Interleaved.run serve (fun _ _ _ => True) ⟨.starting twoReports, twoWorkers⟩ (
      [false, true, false, false, false, true, true, true].map plainly)).map outcome) =
      some (some .running, some .queued, [⟨"first", false⟩, ⟨"first", false⟩], false) := by
  decide +kernel

/-- A batch runs a job that its own executor has cancelled, and two workers run one job. -/
theorem jobs_not_honoured :
    (∃ world, Interleaved.Reaches serve (fun _ _ _ => True) ⟨.starting twoReports, oneBatch⟩ world ∧
      (∀ client, Client (oneBatch client)) ∧ ⟨"second", true⟩ ∈ world.state.invocations ∧
      world.state.withdrawn "second" = true ∧ world.state.jobs.stateOf "second" = some .completed ∧
      ¬ Honoured world.state) ∧
    ∃ world, Interleaved.Reaches serve (fun _ _ _ => True) ⟨.starting twoReports, twoWorkers⟩ world ∧
      (∀ client, Client (twoWorkers client)) ∧ world.state.calls "first" = 2 ∧ ¬ Honoured world.state := by
  constructor
  · obtain ⟨world, ran, ends⟩ := Option.map_eq_some_iff.mp batch_runs
    simp only [outcome, Prod.mk.injEq] at ends
    obtain ⟨-, completed, calls, shown⟩ := ends
    refine ⟨world, Interleaved.run_reaches .start ran, oneBatch_clients, by simp [calls], shown, completed, ?_⟩
    intro honoured
    have stays := honoured.stays "second" shown
    rw [completed] at stays
    cases stays
  · obtain ⟨world, ran, ends⟩ := Option.map_eq_some_iff.mp race_runs
    simp only [outcome, Prod.mk.injEq] at ends
    obtain ⟨-, -, calls, -⟩ := ends
    have twice : world.state.calls "first" = 2 := by simp [Store.calls, calls]
    refine ⟨world, Interleaved.run_reaches .start ran, twoWorkers_clients, twice, fun honoured => ?_⟩
    have once := honoured.once "first"
    omega

private instance (client : Bool) (store : Store Bool) (request : Request) : Decidable (Queued client store request) := by
  unfold Queued
  split <;> infer_instance

private theorem sequence_runs :
    ((Interleaved.run serve Queued ⟨.starting twoReports, twoWorkers⟩ (
      (List.replicate 7 false ++ List.replicate 7 true).map plainly)).map outcome) =
      some (some .completed, some .completed, [⟨"second", false⟩, ⟨"first", false⟩], false) := by
  decide +kernel

/-- Two workers, the second of which begins when the first is through. -/
theorem jobs_honoured_sequence :
    ∃ world, Interleaved.Reaches serve Queued ⟨.starting twoReports, twoWorkers⟩ world ∧ Honoured world.state ∧
      world.state.invocations = [⟨"second", false⟩, ⟨"first", false⟩] := by
  obtain ⟨world, ran, ends⟩ := Option.map_eq_some_iff.mp sequence_runs
  simp only [outcome, Prod.mk.injEq] at ends
  have reached := Interleaved.run_reaches .start ran
  exact ⟨world, reached, jobs_honoured twoWorkers_clients reached, ends.2.2.1⟩

end Sample
end PyScoped.Legacy.JobQueue
