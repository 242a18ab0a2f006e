import PyScoped.Legacy.Pipelines

/-! When the stage transitions of an object form one path. A transition is
committed without another look at the current stage, and the current stage is
told by the time alone. -/

namespace PyScoped.Legacy.Pipelines
open Foundation

def Store.pipelineOf (store : Store) (stageId : String) : Option String :=
  (store.stages.find stageId).map (·.pipelineId)

/-- In commit order the transitions lead from stage to stage of one pipeline,
the first from nowhere, and the last tells the current stage. -/
structure OnePath (objectId : String) (store : Store) : Prop where
  starts : ∀ transition, (store.history objectId).head? = some transition → transition.fromStageId = none
  linked : (store.history objectId).IsChain fun earlier later => later.fromStageId = some earlier.toStageId
  within : ∀ transition ∈ store.history objectId, ∀ fromStageId, transition.fromStageId = some fromStageId →
    ∃ pipelineId, store.pipelineOf fromStageId = some pipelineId ∧ store.pipelineOf transition.toStageId = some pipelineId
  current : ∀ tie, store.current objectId tie = (store.history objectId).getLast?

/-- A transition of the object is inserted while the stage that was looked up is the
current one still, and at a later time than all before. -/
def Extending (objectId : String) {ι : Type} (_ : ι) (store : Store) : Request → Prop
  | .insertTransition transition currentStageId => transition.objectId = objectId →
    (∀ tie, (store.current objectId tie).map (·.toStageId) = currentStageId) ∧
    ∀ earlier ∈ store.history objectId, earlier.transitionedAt < transition.transitionedAt
  | _ => True

/-- Stages stay in their pipelines. -/
def Grown (first second : Store) : Prop :=
  ∀ stageId pipelineId, first.pipelineOf stageId = some pipelineId → second.pipelineOf stageId = some pipelineId

theorem Grown.refl (store : Store) : Grown store store := fun _ _ found => found

theorem Grown.trans {first second third : Store} (one : Grown first second) (two : Grown second third) : Grown first third :=
  fun stageId pipelineId found => two stageId pipelineId (one stageId pipelineId found)

def staging (objectId : String) (ι : Type) : Contract Request Store ι := ⟨OnePath objectId, fun _ => Grown, Extending objectId⟩

/-- The stages of a transition are known to be in one pipeline. -/
def Known (store : Store) (toStageId : String) (fromStageId : Option String) : Prop :=
  ∃ pipelineId, store.pipelineOf toStageId = some pipelineId ∧
    ∀ source, fromStageId = some source → store.pipelineOf source = some pipelineId

theorem Known.grown {first second : Store} {toStageId : String} {fromStageId : Option String}
    (known : Known first toStageId fromStageId) (grown : Grown first second) : Known second toStageId fromStageId := by
  obtain ⟨pipelineId, target, sources⟩ := known
  exact ⟨pipelineId, grown _ _ target, fun source same => grown _ _ (sources source same)⟩

variable {objectId : String} {store after : Store}

theorem OnePath.still (path : OnePath objectId store) (same : after.transitions = store.transitions)
    (grown : Grown store after) : OnePath objectId after := by
  have history : after.history objectId = store.history objectId := by
    unfold Store.history
    rw [same]
  have current : ∀ tie, after.current objectId tie = store.current objectId tie := by
    intro tie
    unfold Store.current Store.latest
    rw [history]
  refine ⟨?_, ?_, ?_, fun tie => ?_⟩
  · rw [history]
    exact path.starts
  · rw [history]
    exact path.linked
  · rw [history]
    intro transition member fromStageId source
    obtain ⟨pipelineId, one, two⟩ := path.within transition member fromStageId source
    exact ⟨pipelineId, grown _ _ one, grown _ _ two⟩
  · rw [current, history]
    exact path.current tie

variable (objectId) in
theorem history_insert {transition : StageTransition} {transitions : Rows StageTransition.id}
    (inserted : store.transitions.insert transition = some transitions) :
    ({ store with transitions := transitions } : Store).history objectId =
      store.history objectId ++ if transition.objectId = objectId then [transition] else [] := by
  unfold Store.history
  rw [(Rows.insert_eq_some inserted).2, List.filter_append]
  by_cases same : transition.objectId = objectId <;> simp [same]

theorem latest_append {transition : StageTransition} (appended : after.history objectId = store.history objectId ++ [transition])
    (later : ∀ earlier ∈ store.history objectId, earlier.transitionedAt < transition.transitionedAt) :
    after.latest objectId = [transition] := by
  unfold Store.latest
  rw [appended, List.filter_append]
  have none_before : (store.history objectId).filter (fun candidate =>
      (store.history objectId ++ [transition]).all fun other => decide (other.transitionedAt ≤ candidate.transitionedAt)) = [] := by
    rw [List.filter_eq_nil_iff]
    intro candidate member every
    have bound := List.all_eq_true.mp every transition (by simp)
    exact absurd (later candidate member) (not_lt.mpr (of_decide_eq_true bound))
  have itself : (store.history objectId ++ [transition]).all
      (fun other => decide (other.transitionedAt ≤ transition.transitionedAt)) = true := by
    rw [List.all_eq_true]
    intro other member
    rcases List.mem_append.mp member with member | member
    · exact decide_eq_true (later other member).le
    · rw [List.mem_singleton.mp member]
      exact decide_eq_true le_rfl
  rw [none_before, List.nil_append]
  exact List.filter_cons_of_pos itself

/-- An insert that extends the path. -/
theorem OnePath.insert (path : OnePath objectId store) {transition : StageTransition} {transitions : Rows StageTransition.id}
    (inserted : store.transitions.insert transition = some transitions)
    (known : Known store transition.toStageId transition.fromStageId)
    (extending : transition.objectId = objectId →
      (∀ tie, (store.current objectId tie).map (·.toStageId) = transition.fromStageId) ∧
      ∀ earlier ∈ store.history objectId, earlier.transitionedAt < transition.transitionedAt) :
    OnePath objectId { store with transitions := transitions } := by
  have history := history_insert objectId inserted
  by_cases own : transition.objectId = objectId
  · rw [if_pos own] at history
    obtain ⟨stage, later⟩ := extending own
    have latest := latest_append history later
    have last := stage 0
    rw [path.current] at last
    refine ⟨?_, ?_, ?_, fun tie => ?_⟩
    · rw [history]
      intro first head
      cases before : store.history objectId with
      | nil =>
        rw [before] at head last
        cases head
        exact last.symm
      | cons earlier rest =>
        rw [before] at head
        exact path.starts first (by rw [before]; exact head)
    · rw [history, List.isChain_append]
      refine ⟨path.linked, .singleton _, ?_⟩
      intro earlier isLast next isNext
      rw [Option.mem_def] at isLast isNext
      cases isNext
      rw [isLast] at last
      exact last.symm
    · rw [history]
      intro other member fromStageId source
      rcases List.mem_append.mp member with member | member
      · exact path.within other member fromStageId source
      · rw [List.mem_singleton.mp member] at source ⊢
        obtain ⟨pipelineId, target, sources⟩ := known
        exact ⟨pipelineId, sources fromStageId source, target⟩
    · unfold Store.current
      rw [latest, history, List.getLast?_concat, List.length_singleton, Nat.mod_one]
      rfl
  · rw [if_neg own, List.append_nil] at history
    have current : ∀ tie, ({ store with transitions := transitions } : Store).current objectId tie = store.current objectId tie := by
      intro tie
      unfold Store.current Store.latest
      rw [history]
    refine ⟨?_, ?_, ?_, fun tie => ?_⟩
    · rw [history]
      exact path.starts
    · rw [history]
      exact path.linked
    · rw [history]
      exact path.within
    · rw [current, history]
      exact path.current tie

/-- All but the insert of a transition. -/
def Request.Calm : Request → Prop
  | .insertTransition _ _ => False
  | _ => True

variable {ι : Type} {client : ι}

/-- What the other statements keep. -/
theorem calm_kept (path : OnePath objectId store) {request : Request} {choice : Choice}
    {reply : Except Raised (Reply request)} (calm : request.Calm)
    (answered : serve client choice store request = some (reply, after)) : OnePath objectId after ∧ Grown store after := by
  have quiet : ∀ {after : Store}, after.transitions = store.transitions → after.stages = store.stages →
      OnePath objectId after ∧ Grown store after := by
    intro after transitions stages
    have grown : Grown store after := fun stageId pipelineId found => by
      unfold Store.pipelineOf at found ⊢
      rwa [stages]
    exact ⟨path.still transitions grown, grown⟩
  obtain ⟨failure, object, verdict, tie, clock, generated⟩ := choice
  cases failure with
  | some error =>
    cases answered
    exact quiet rfl rfl
  | none =>
    cases request with
    | insertTransition => exact absurd calm id
    | insertPipeline pipeline =>
      simp only [serve] at answered
      split at answered <;> cases answered <;> exact quiet rfl rfl
    | insertStage stage =>
      simp only [serve] at answered
      split at answered
      · cases answered
        exact quiet rfl rfl
      split at answered
      next stages inserted =>
        cases answered
        have grown : Grown store { store with stages := stages } := by
          intro stageId pipelineId found
          obtain ⟨old, present, same⟩ := Option.map_eq_some_iff.mp found
          have unlike : stageId ≠ stage.id := by
            rintro rfl
            rw [(Rows.insert_eq_some inserted).1] at present
            cases present
          unfold Store.pipelineOf
          rw [Rows.find_insert inserted, if_neg unlike, present]
          exact congrArg some same
        exact ⟨path.still rfl grown, grown⟩
      · cases answered
        exact quiet rfl rfl
    | _ =>
      cases answered
      exact quiet rfl rfl

theorem calm_safe {α : Type} {program : Program α} (only : program.Only Request.Calm) (state : Store) :
    (staging objectId ι).Safe serve client (fun _ final => Grown state final) program state := by
  have safe : (staging objectId ι).Safe serve client
      (fun result final => Grown state final ∧ ∀ value, result = .ok value → True) program state := by
    refine Contract.Safe.only Grown.refl (fun _ _ _ one two => one.trans two) ?_ only (.trivial _)
    intro request choice now reply after calm kept _ answered
    obtain ⟨kept', grown⟩ := calm_kept kept calm answered
    exact ⟨kept', fun _ => grown⟩
  exact safe.weaken fun _ _ reached => reached.1

theorem calm_then {α β : Type} {program : Program α} {next : α → Program β} (only : program.Only Request.Calm)
    {state : Store} (rest : ∀ value final, Grown state final →
      (staging objectId ι).Safe serve client (fun _ _ => True) (next value) final) :
    (staging objectId ι).Safe serve client (fun _ _ => True) (program.bind next) state := by
  refine Contract.Safe.bind ((calm_safe only state).weaken fun result final grown => ?_)
  cases result with
  | error error => trivial
  | ok value => exact rest value final grown

theorem selectStage_safe (stageId : String) (state : Store) :
    (staging objectId ι).Safe serve client (fun result final => Grown state final ∧
      ∀ stage : Stage, result = .ok (some stage) → final.pipelineOf stageId = some stage.pipelineId)
      (Prog.perform (Request.selectStage stageId)) state := by
  refine Contract.Safe.perform fun now kept moved _ choice reply after answered => ?_
  obtain ⟨kept', grown⟩ := calm_kept kept (show Request.Calm (.selectStage stageId) from trivial) answered
  refine ⟨kept', fun _ _ => grown, moved.trans grown, ?_⟩
  rintro stage rfl
  obtain ⟨failure, object, verdict, tie, clock, generated⟩ := choice
  cases failure with
  | some error => cases answered
  | none =>
    obtain ⟨read, rfl⟩ := Prod.mk.inj (Option.some.inj answered)
    exact congrArg (Option.map Stage.pipelineId) (Except.ok.inj read)

end Pipelines

namespace PipelineManager
open Foundation Pipelines

variable (manager : PipelineManager) {objectId : String} {ι : Type} {client : ι}

theorem trace_only (trace : Trace) : (manager.trace trace).Only Pipelines.Request.Calm := by
  obtain ⟨audit, ruleEngine⟩ := manager
  cases audit with
  | true => exact .perform (show Pipelines.Request.Calm (.record trace) from trivial)
  | false => trivial

theorem createPipeline_only (name ownerId description : String) :
    (manager.createPipeline name ownerId description).Only Pipelines.Request.Calm :=
  .bind (.perform trivial) fun _ => .bind (.perform trivial) fun _ => .bind (.perform trivial) fun _ =>
    .bind (trace_only manager _) fun _ => trivial

theorem archivePipeline_only (pipelineId archivedBy : String) :
    (manager.archivePipeline pipelineId archivedBy).Only Pipelines.Request.Calm :=
  .bind (.perform trivial) fun _ => trace_only manager _

theorem addStage_only (pipelineId name : String) (ordinal : Int) (metadata : Option Json) :
    (manager.addStage pipelineId name ordinal metadata).Only Pipelines.Request.Calm := by
  refine .bind (.perform trivial) fun sid => .bind (.perform trivial) fun _ => .bind (.perform trivial) fun pipeline => ?_
  cases pipeline with
  | none => trivial
  | some pipeline => exact .bind (trace_only manager _) fun _ => trivial

theorem requirePipeline_only (pipelineId : String) : (requirePipeline pipelineId).Only Pipelines.Request.Calm := by
  refine .bind (.perform trivial) fun row => ?_
  cases row with
  | none => trivial
  | some pipeline =>
    dsimp only
    split <;> trivial

theorem requireOwner_only (objectId transitionedBy : String) :
    (requireOwner objectId transitionedBy).Only Pipelines.Request.Calm := by
  refine .bind (.perform trivial) fun object => ?_
  cases object with
  | none => trivial
  | some object =>
    dsimp only
    split <;> trivial

theorem checkTransitionRules_only (objectId : String) (objectType : Option String)
    (principalId toStageId pipelineId : String) :
    (manager.checkTransitionRules objectId objectType principalId toStageId pipelineId).Only Pipelines.Request.Calm := by
  unfold checkTransitionRules
  split
  · refine .bind (.perform trivial) fun result => ?_
    dsimp only
    split <;> trivial
  · trivial

theorem requireSource_safe (toStage : Stage) (fromStageId : Option String) (state : Store) :
    (staging objectId ι).Safe serve client (fun result final => Grown state final ∧
      (result = .ok () → ∀ source, fromStageId = some source → final.pipelineOf source = some toStage.pipelineId))
      (requireSource toStage fromStageId) state := by
  cases fromStageId with
  | none => exact ⟨.refl state, nofun⟩
  | some source =>
    refine Contract.Safe.bind ((selectStage_safe source state).weaken fun result final read => ?_)
    obtain ⟨grown, found⟩ := read
    cases result with
    | error error => exact ⟨grown, nofun⟩
    | ok row =>
      cases row with
      | none => exact ⟨grown, nofun⟩
      | some fromStage =>
        dsimp only
        split
        · exact ⟨grown, nofun⟩
        next same =>
          rw [not_not] at same
          refine ⟨grown, ?_⟩
          rintro - _ ⟨⟩
          exact (found fromStage rfl).trans (congrArg some same)

theorem requireCurrent_ok {objectId : String} {currentStageId fromStageId : Option String}
    (checked : requireCurrent objectId currentStageId fromStageId = .ok ()) : currentStageId = fromStageId := by
  cases fromStageId with
  | none =>
    cases currentStageId with
    | none => rfl
    | some current => exact absurd checked nofun
  | some source =>
    change (if _ then _ else _) = _ at checked
    split at checked
    · cases checked
    next same => exact not_not.mp same

theorem insertTransition_safe (manager : PipelineManager) (objectId' toStageId transitionedBy reason : String)
    {currentStageId fromStageId : Option String} {state : Store} (leaves : currentStageId = fromStageId)
    (known : Known state toStageId fromStageId) : (staging objectId ι).Safe serve client (fun _ _ => True)
      (manager.insertTransition objectId' currentStageId fromStageId toStageId transitionedBy reason) state := by
  subst currentStageId
  refine calm_then (.perform (show Pipelines.Request.Calm .now from trivial)) fun ts one grown => ?_
  refine calm_then (.perform (show Pipelines.Request.Calm .generateId from trivial)) fun tid two grown' => ?_
  refine Contract.Safe.bind (Contract.Safe.perform fun now kept moved extending choice reply after answered => ?_)
  have still := known.grown ((grown.trans grown').trans moved)
  have steps : OnePath objectId after ∧ Grown now after := by
    obtain ⟨failure, object, verdict, tie, clock, generated⟩ := choice
    cases failure with
    | some error =>
      cases answered
      exact ⟨kept, .refl now⟩
    | none =>
      simp only [serve] at answered
      split at answered
      next transitions inserted =>
        cases answered
        exact ⟨kept.insert inserted still extending, .refl now⟩
      · cases answered
        exact ⟨kept, .refl now⟩
  refine ⟨steps.1, fun _ _ => steps.2, ?_⟩
  cases reply with
  | error error => trivial
  | ok inserted => exact calm_then (trace_only manager _) fun _ _ _ => trivial

/-- A transition inserts stages of one pipeline. -/
theorem transition_safe (objectId' toStageId transitionedBy : String) (fromStageId : Option String) (reason : String)
    (state : Store) : (staging objectId ι).Safe serve client (fun _ _ => True)
      (manager.transition objectId' toStageId transitionedBy fromStageId reason) state := by
  refine Contract.Safe.bind ((selectStage_safe toStageId state).weaken fun result one read => ?_)
  obtain ⟨-, found⟩ := read
  cases result with
  | error error => trivial
  | ok row =>
    cases row with
    | none => trivial
    | some toStage =>
      have target := found toStage rfl
      refine Contract.Safe.bind ((requireSource_safe toStage fromStageId one).weaken fun result two checked => ?_)
      obtain ⟨grown, sources⟩ := checked
      cases result with
      | error error => trivial
      | ok checked =>
        have known : Known two toStageId fromStageId := ⟨toStage.pipelineId, grown _ _ target, sources rfl⟩
        refine calm_then (requirePipeline_only _) fun _ three grown => ?_
        have known := known.grown grown
        refine calm_then (requireOwner_only _ _) fun _ four grown => ?_
        have known := known.grown grown
        refine calm_then (.perform (show Pipelines.Request.Calm (.selectObject objectId') from trivial))
          fun object five grown => ?_
        have known := known.grown grown
        refine calm_then (checkTransitionRules_only manager _ _ _ _ _) fun _ six grown => ?_
        have known := known.grown grown
        refine calm_then (.perform (show Pipelines.Request.Calm (.selectCurrent objectId') from trivial))
          fun current seven grown => ?_
        have known := known.grown grown
        refine Contract.Safe.bind (Contract.Safe.ofExcept ?_)
        cases checked : requireCurrent objectId' (current.map (·.toStageId)) fromStageId with
        | error error => trivial
        | ok _ =>
          exact insertTransition_safe manager objectId' toStageId transitionedBy reason (requireCurrent_ok checked) known

theorem invoke_safe (made : Call) (state : Store) :
    (staging objectId ι).Safe serve client (fun _ _ => True) (manager.invoke made) state := by
  cases made with
  | createPipeline name ownerId description =>
    exact calm_then (createPipeline_only manager name ownerId description) fun _ _ _ => trivial
  | archivePipeline pipelineId archivedBy =>
    exact calm_then (archivePipeline_only manager pipelineId archivedBy) fun _ _ _ => trivial
  | addStage pipelineId name ordinal metadata =>
    exact calm_then (addStage_only manager pipelineId name ordinal metadata) fun _ _ _ => trivial
  | transition objectId' toStageId transitionedBy fromStageId reason =>
    refine Contract.Safe.bind ((transition_safe manager objectId' toStageId transitionedBy fromStageId reason state).weaken
      fun result final _ => ?_)
    cases result <;> trivial

theorem Client.safe {program : Program Unit} (runs : Client program) (state : Store) :
    (staging objectId ι).Safe serve client (fun _ _ => True) program state := by
  induction runs generalizing state with
  | done => trivial
  | call manager made next each ih =>
    refine Contract.Safe.bind (Contract.Safe.attempt ((invoke_safe manager made state).weaken fun result final _ => ?_))
    exact ih result final

variable [DecidableEq ι]

/-- Where every transition of the object extends its path, the transitions form
one path in every interleaving. -/
theorem stages_one_path {first world : Interleaved Request Reply Raised Store ι} (path : OnePath objectId first.state)
    (clients : ∀ client, Client (first.programs client))
    (reached : Interleaved.Reaches serve (Extending objectId) first world) : OnePath objectId world.state :=
  (Interleaved.Reaches.safe (staging objectId ι) reached (fun _ state => .refl state) (fun _ _ _ _ one two => .trans one two)
    path fun client => (clients client).safe first.state).1

section Sample

private def stage (name : String) (ordinal : Int) : Stage := ⟨name, "review", name, ordinal, .obj []⟩

/-- Three stages, and a document that is at none. -/
def unplaced : Store where
  pipelines := ⟨[⟨"review", "review", "ann", "", "2024-01-01T00:00:00+00:00", .active⟩], by decide⟩
  stages := ⟨[stage "draft" 0, stage "checked" 1, stage "final" 2], by decide⟩
  transitions := .empty
  traces := []

theorem unplaced_path : OnePath "doc" unplaced := ⟨nofun, .nil, nofun, fun _ => rfl⟩

def plain : PipelineManager := ⟨false, false⟩

/-- One client places the document and moves it on. -/
def placeAndMove : Bool → Program Unit
  | false => (plain.invoke (.transition "doc" "draft" "ann" none "")).attempt.bind fun _ =>
      (plain.invoke (.transition "doc" "checked" "ann" (some "draft") "")).attempt.bind fun _ => .pure ()
  | true => .pure ()

/-- Two clients place the document. -/
def twoPlacements (client : Bool) : Program Unit :=
  (plain.invoke (.transition "doc" (if client then "checked" else "draft") "ann" none "")).attempt.bind fun _ => .pure ()

theorem placeAndMove_clients (client : Bool) : Client (placeAndMove client) := by
  cases client with
  | false => exact .call _ _ _ fun _ => .call _ _ _ fun _ => .done
  | true => exact .done

theorem twoPlacements_clients (client : Bool) : Client (twoPlacements client) := .call _ _ _ fun _ => .done

/-- On the day, with the generated identifier. -/
private def onDay (client : Bool) (day : Fin 10) : Bool × Choice :=
  (client, ⟨none, some ⟨"ann", "Document"⟩, ⟨true, [], [], []⟩, 0, ⟨2024, 1, day, 0, 0, 0, 0, by omega⟩, .repeated day⟩)

private def moves (world : Interleaved Request Reply Raised Store Bool) : List (Option String × String) × Option String :=
  ((world.state.history "doc").map fun transition => (transition.fromStageId, transition.toStageId),
    (world.state.current "doc" 0).map (·.toStageId))

private theorem race_runs :
    ((Interleaved.run serve (fun _ _ _ => True) ⟨unplaced, twoPlacements⟩ (
      List.replicate 5 (onDay false 1) ++ List.replicate 8 (onDay true 2) ++ List.replicate 3 (onDay false 3))).map moves) =
      some ([(none, "checked"), (none, "draft")], some "draft") := by
  decide +kernel

private theorem backwards_runs :
    ((Interleaved.run serve (fun _ _ _ => True) ⟨unplaced, placeAndMove⟩ (
      List.replicate 8 (onDay false 2) ++ List.replicate 9 (onDay false 1))).map moves) =
      some ([(none, "draft"), (some "draft", "checked")], some "draft") := by
  decide +kernel

/-- Two clients place one object twice, and a clock that runs backwards hides the last transition. -/
theorem stages_no_path :
    (∃ world, Interleaved.Reaches serve (fun _ _ _ => True) ⟨unplaced, twoPlacements⟩ world ∧
      (∀ client, Client (twoPlacements client)) ∧ OnePath "doc" unplaced ∧
      ¬ (world.state.history "doc").IsChain (fun earlier later => later.fromStageId = some earlier.toStageId)) ∧
    ∃ world, Interleaved.Reaches serve (fun _ _ _ => True) ⟨unplaced, placeAndMove⟩ world ∧
      (∀ client, Client (placeAndMove client)) ∧ world.state.current "doc" 0 ≠ (world.state.history "doc").getLast? := by
  constructor
  · obtain ⟨world, ran, ends⟩ := Option.map_eq_some_iff.mp race_runs
    obtain ⟨history, -⟩ := Prod.mk.inj ends
    refine ⟨world, Interleaved.run_reaches .start ran, twoPlacements_clients, unplaced_path, fun linked => ?_⟩
    have chain : ([(none, "checked"), (none, "draft")] : List (Option String × String)).IsChain
        fun earlier later => later.1 = some earlier.2 := by
      rw [← history, List.isChain_map]
      exact linked
    simp at chain
  · obtain ⟨world, ran, ends⟩ := Option.map_eq_some_iff.mp backwards_runs
    obtain ⟨history, current⟩ := Prod.mk.inj ends
    refine ⟨world, Interleaved.run_reaches .start ran, placeAndMove_clients, fun same => ?_⟩
    have last := congrArg List.getLast? history
    rw [List.getLast?_map, ← same] at last
    cases found : world.state.current "doc" 0 with
    | none =>
      rw [found] at last
      cases last
    | some transition =>
      rw [found] at last current
      have target : transition.toStageId = "checked" := congrArg Prod.snd (Option.some.inj last)
      rw [Option.map_some, target] at current
      exact absurd current (by decide)

/-- What `Extending` asks, for the one tie that a current stage of its own leaves. -/
private def Onward (_ : Bool) (store : Store) : Request → Prop
  | .insertTransition transition currentStageId => (store.latest "doc").length ≤ 1 ∧
    (store.current "doc" 0).map (·.toStageId) = currentStageId ∧
    ∀ earlier ∈ store.history "doc", earlier.transitionedAt < transition.transitionedAt
  | _ => True

private instance (client : Bool) (store : Store) (request : Request) : Decidable (Onward client store request) := by
  unfold Onward
  split <;> infer_instance

private theorem onward_extending (client : Bool) (store : Store) (request : Request) (onward : Onward client store request) :
    Extending "doc" client store request := by
  cases request with
  | insertTransition transition currentStageId =>
    obtain ⟨single, current, later⟩ := onward
    refine fun _ => ⟨fun tie => ?_, later⟩
    have same : store.current "doc" tie = store.current "doc" 0 := by
      unfold Store.current
      obtain none_yet | only : (store.latest "doc").length = 0 ∨ (store.latest "doc").length = 1 := by omega
      · rw [List.length_eq_zero_iff.mp none_yet]
        rfl
      · rw [only, Nat.mod_one, Nat.mod_one]
    rw [same, current]
  | _ => trivial

private theorem sequence_runs :
    ((Interleaved.run serve Onward ⟨unplaced, placeAndMove⟩ (
      List.replicate 8 (onDay false 1) ++ List.replicate 9 (onDay false 2))).map moves) =
      some ([(none, "draft"), (some "draft", "checked")], some "checked") := by
  decide +kernel

/-- A document is placed and moved on by a clock that goes forward. -/
theorem stages_one_path_forward :
    ∃ world, Interleaved.Reaches serve (Extending "doc") ⟨unplaced, placeAndMove⟩ world ∧ OnePath "doc" world.state ∧
      moves world = ([(none, "draft"), (some "draft", "checked")], some "checked") := by
  obtain ⟨world, ran, ends⟩ := Option.map_eq_some_iff.mp sequence_runs
  have reached := (Interleaved.run_reaches .start ran).weaken onward_extending
  exact ⟨world, reached, stages_one_path unplaced_path placeAndMove_clients reached, ends⟩

end Sample
end PyScoped.Legacy.PipelineManager
