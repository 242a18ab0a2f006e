import PyScoped.Legacy.EnvironmentLifecycle
import PyScoped.Proofs.Flow

/-! When discarding and promoting an environment is all or nothing. What fails
late has written before: the compensation of `discard` restores the state of the
environment alone, and `promote` looks at that state last. -/

namespace PyScoped.Legacy
open Foundation Environments

variable {after : World}

namespace PromotionManager

variable (manager : PromotionManager) (env : Environments.Env) (request : Request) (world : World)

/-- The promotion writes something: the projection, or else the record of the promotion. -/
def Touches : Prop :=
  Projecting manager env request world ∨ Admitted manager env request world ∧
    (manager.projections.isSome = true → ∃ existing, Projectable env request world existing ∧ isProjected existing = true) ∧
    fault env request .promote = none

/-- Nothing stops the promotion. -/
structure Completes : Prop where
  admitted : Admitted manager env request world
  projects : ∀ projections, manager.projections = some projections → ∃ existing, Projectable env request world existing ∧
    (isProjected existing = true ∨
      fault env request .project = none ∧ Recorded projections.audit (fault env request .traceProjection))
  promotes : fault env request .promote = none ∧ Recorded manager.audit (fault env request .tracePromotion)

/-- A promotion changes no more than projections, promotions and the audit trail. -/
structure Beside (before after : World) : Prop where
  environments : after.environments = before.environments
  tracked : after.tracked = before.tracked
  objects : after.objects = before.objects
  scopes : after.scopes = before.scopes
  memberships : after.memberships = before.memberships
  channels : after.channels = before.channels
  stages : after.stages = before.stages
  projections : ∀ scopeId objectId, (scopeId, objectId) ≠ (request.targetScopeId, request.objectId) →
    after.projections.find (scopeId, objectId) = before.projections.find (scopeId, objectId)
  promotions : ∃ more, after.promotions = before.promotions ++ more

variable {manager env request world}

theorem Beside.refl (world : World) : Beside request world world :=
  ⟨rfl, rfl, rfl, rfl, rfl, rfl, rfl, fun _ _ _ => rfl, [], (List.append_nil _).symm⟩

theorem Beside.trans {first second third : World} (one : Beside request first second) (two : Beside request second third) :
    Beside request first third where
  environments := two.environments.trans one.environments
  tracked := two.tracked.trans one.tracked
  objects := two.objects.trans one.objects
  scopes := two.scopes.trans one.scopes
  memberships := two.memberships.trans one.memberships
  channels := two.channels.trans one.channels
  stages := two.stages.trans one.stages
  projections scopeId objectId unlike := (two.projections scopeId objectId unlike).trans (one.projections scopeId objectId unlike)
  promotions := by
    obtain ⟨some_more, one⟩ := one.promotions
    obtain ⟨more, two⟩ := two.promotions
    exact ⟨some_more ++ more, by rw [two, one, List.append_assoc]⟩

theorem writeProjection_beside (existing : Option ScopeProjection) (traces : List Trace) (world : World) :
    Beside request world { writeProjection env request existing world with traces := traces } := by
  cases existing with
  | some row =>
    refine ⟨rfl, rfl, rfl, rfl, rfl, rfl, rfl, fun scopeId objectId unlike => ?_, [], (List.append_nil _).symm⟩
    have written := Rows.find_update world.projections
      (fun row => row.scopeId = request.targetScopeId && row.objectId = request.objectId)
      (reactivate request.accessLevel (isoText (env.now (.promotion request.objectId .project))) request.promotedBy)
      (fun _ => rfl) (scopeId, objectId)
    refine written.trans ?_
    cases found : world.projections.find (scopeId, objectId) with
    | none => rfl
    | some other =>
      have address := (Rows.find_eq_some.mp found).2
      rw [Option.map_some, if_neg]
      intro same
      simp only [Bool.and_eq_true, decide_eq_true_eq] at same
      exact unlike (address.symm.trans (Prod.ext same.1 same.2))
  | none =>
    refine ⟨rfl, rfl, rfl, rfl, rfl, rfl, rfl, fun scopeId objectId unlike => ?_, [], (List.append_nil _).symm⟩
    let proj : ScopeProjection := ⟨(env.ids (.promotion request.objectId .project)).text, request.targetScopeId,
      request.objectId, isoText (env.now (.promotion request.objectId .project)), request.promotedBy, request.accessLevel,
      .active⟩
    change ((world.projections.insert proj).getD world.projections).find (scopeId, objectId) = _
    cases inserted : world.projections.insert proj with
    | none => rfl
    | some projections => exact (Rows.find_insert inserted _).trans (if_neg unlike)

variable (manager env request) in
/-- What the wired projection does, in every case. -/
theorem projectWired_on (world : World) : ∃ result after, (projectWired manager env request).on world = (result, after) ∧
    Beside request world after ∧ (result = .ok () ↔ ∀ projections, manager.projections = some projections →
      ∃ existing, Projectable env request world existing ∧ (isProjected existing = true ∨
        fault env request .project = none ∧ Recorded projections.audit (fault env request .traceProjection))) := by
  cases wired : manager.projections with
  | none =>
    refine ⟨.ok (), world, ?_, .refl world, by simp⟩
    unfold projectWired
    rw [wired]
    rfl
  | some projections =>
    rw [projectWired_some wired]
    by_cases projectable : ∃ existing, Projectable env request world existing
    · obtain ⟨existing, projectable⟩ := projectable
      have unique : ∀ {other}, Projectable env request world other → other = existing :=
        fun possible => possible.lookup.2.symm.trans projectable.lookup.2
      cases projected : isProjected existing with
      | true =>
        refine ⟨.ok (), world, project_on_projected projections projectable projected, .refl world, ?_⟩
        simp only [true_iff]
        exact fun _ _ => ⟨existing, projectable, .inl projected⟩
      | false =>
        cases failure : fault env request .project with
        | some error =>
          refine ⟨.error error, world, project_on_fault projections projectable projected failure, .refl world, ?_⟩
          refine ⟨nofun, fun all => ?_⟩
          obtain ⟨other, possible, again | impossible⟩ := all projections rfl
          · rw [unique possible, projected] at again
            cases again
          · cases impossible.1
        | none =>
          obtain ⟨recorded, traces, ran, told⟩ := recordIf_on projections.audit (fault env request .traceProjection)
            ⟨request.promotedBy, .projection, "ScopeProjection", request.objectId, some request.targetScopeId⟩
            (writeProjection env request existing world)
          refine ⟨recorded, _, (project_on_write projections projectable projected failure).trans ran,
            writeProjection_beside existing traces world, ?_⟩
          rw [told]
          constructor
          · intro recorded other same
            cases same
            exact ⟨existing, projectable, .inr ⟨rfl, recorded⟩⟩
          · intro all
            obtain ⟨other, possible, again | possible'⟩ := all projections rfl
            · rw [unique possible, projected] at again
              cases again
            · exact possible'.2
    · obtain ⟨error, raised⟩ := project_refuses projections projectable
      refine ⟨.error error, world, raised, .refl world, nofun, fun all => ?_⟩
      obtain ⟨existing, possible, -⟩ := all projections rfl
      exact absurd ⟨existing, possible⟩ projectable

theorem recordPromotion_beside (world : World) (traces : List Trace) : Beside request world
    { world with promotions := world.promotions ++ [promotion env request], traces := traces } :=
  ⟨rfl, rfl, rfl, rfl, rfl, rfl, rfl, fun _ _ _ => rfl, [promotion env request], rfl⟩

variable (manager env request) in
/-- A promotion that returns has recorded itself, and one that nothing stops returns. -/
theorem promote_outcome (world : World) : ∃ result after, (promote manager env request).on world = (result, after) ∧
    Beside request world after ∧ ((∃ promo, result = .ok promo) ↔ Completes manager env request world) ∧
    (Completes manager env request world → ∃ promo more, after.promotions = world.promotions ++ promo :: more) := by
  by_cases admitted : Admitted manager env request world
  · obtain ⟨projected, middle, ran, beside, told⟩ := projectWired_on manager env request world
    rw [promote_on admitted, ran]
    cases projected with
    | error error =>
      have stuck : ¬ Completes manager env request world := fun completes => by cases told.mpr completes.projects
      exact ⟨.error error, middle, rfl, beside, ⟨by rintro ⟨_, ⟨⟩⟩, fun completes => absurd completes stuck⟩,
        fun completes => absurd completes stuck⟩
    | ok done =>
      dsimp only
      cases failure : fault env request .promote with
      | some error =>
        have stuck : ¬ Completes manager env request world := fun completes => by
          have fine := completes.promotes.1
          rw [failure] at fine
          cases fine
        exact ⟨.error error, middle, recordPromotion_on_fault failure, beside,
          ⟨by rintro ⟨_, ⟨⟩⟩, fun completes => absurd completes stuck⟩, fun completes => absurd completes stuck⟩
      | none =>
        obtain ⟨result, traces, recorded, told'⟩ := @recordPromotion_on manager env request middle failure
        obtain ⟨more, grown⟩ := beside.promotions
        refine ⟨result, _, recorded, beside.trans (recordPromotion_beside middle traces), ?_, fun _ => ?_⟩
        · rw [told']
          exact ⟨fun recorded => ⟨admitted, told.mp rfl, failure, recorded⟩, fun completes => completes.promotes.2⟩
        · change ∃ promo more, middle.promotions ++ [promotion env request] = world.promotions ++ promo :: more
          rw [grown]
          cases more with
          | nil => exact ⟨promotion env request, [], by simp⟩
          | cons promo more => exact ⟨promo, more ++ [promotion env request], by simp⟩
  · obtain ⟨error, raised⟩ := promote_refuses admitted
    have stuck : ¬ Completes manager env request world := fun completes => admitted completes.admitted
    exact ⟨.error error, world, raised, .refl world, ⟨by rintro ⟨_, ⟨⟩⟩, fun completes => absurd completes stuck⟩,
      fun completes => absurd completes stuck⟩

theorem projectWired_idle (admitted : manager.projections.isSome = true → ∃ existing,
    Projectable env request world existing ∧ isProjected existing = true) :
    (projectWired manager env request).on world = (.ok (), world) := by
  cases wired : manager.projections with
  | none =>
    unfold projectWired
    rw [wired]
    rfl
  | some projections =>
    obtain ⟨existing, projectable, projected⟩ := admitted (by rw [wired]; rfl)
    rw [projectWired_some wired]
    exact project_on_projected projections projectable projected

/-- A promotion that writes nothing raises and changes nothing. -/
theorem promote_untouched (untouched : ¬ Touches manager env request world) :
    ∃ error, (promote manager env request).on world = (.error error, world) := by
  by_cases admitted : Admitted manager env request world
  · rw [promote_on admitted]
    by_cases idle : manager.projections.isSome = true → ∃ existing,
        Projectable env request world existing ∧ isProjected existing = true
    · rw [projectWired_idle idle]
      cases failure : fault env request .promote with
      | some error => exact ⟨error, recordPromotion_on_fault failure⟩
      | none => exact absurd (.inr ⟨admitted, idle, failure⟩) untouched
    · obtain ⟨wired, other⟩ := Classical.not_imp.mp idle
      obtain ⟨projections, some_wired⟩ := Option.isSome_iff_exists.mp wired
      rw [projectWired_some some_wired]
      by_cases projectable : ∃ existing, Projectable env request world existing
      · obtain ⟨existing, projectable⟩ := projectable
        have missing : isProjected existing = false := by
          by_contra projected
          exact other ⟨existing, projectable, by simpa using projected⟩
        cases failure : fault env request .project with
        | some error =>
          rw [project_on_fault projections projectable missing failure]
          exact ⟨error, rfl⟩
        | none => exact absurd (.inl ⟨admitted, wired, existing, projectable, missing, failure⟩) untouched
      · obtain ⟨error, raised⟩ := project_refuses projections projectable
        rw [raised]
        exact ⟨error, rfl⟩
  · exact promote_refuses admitted

theorem promote_touched (touches : Touches manager env request world) :
    ((promote manager env request).on world).2.untraced ≠ world.untraced := by
  intro same
  rcases touches with projecting | ⟨admitted, idle, fine⟩
  · obtain ⟨scopeId, objectId, unlike⟩ := promote_projects_of projecting
    have projections := congrArg World.projections same
    exact unlike (congrArg (fun rows : Rows projectionAddress => rows.find (scopeId, objectId)) projections)
  · obtain ⟨result, traces, recorded, -⟩ := @recordPromotion_on manager env request world fine
    rw [promote_on admitted, projectWired_idle idle] at same
    dsimp only at same
    rw [recorded] at same
    have promotions := congrArg (fun world : World => world.promotions.length) same
    simp [World.untraced] at promotions

/-- What is read to promote an object is all that matters. -/
theorem Completes.of_same (completes : Completes manager env request world)
    (environments : after.environments = world.environments) (objects : after.objects = world.objects)
    (scopes : after.scopes = world.scopes) (stages : after.stages = world.stages)
    (channels : after.channels = world.channels)
    (projections : after.projections.find (request.targetScopeId, request.objectId) =
      world.projections.find (request.targetScopeId, request.objectId)) : Completes manager env request after := by
  obtain ⟨⟨environment, scope, object, stage, channel, rules⟩, projects, promotes⟩ := completes
  refine ⟨⟨?_, ?_, ?_, ?_, ?_, ?_⟩, ?_, promotes⟩
  · rwa [environments]
  · rwa [scopes]
  · rwa [objects]
  · rwa [stages]
  · rwa [channels]
  · obtain ⟨objectType, ruled, admitted⟩ := rules
    refine ⟨objectType, ?_, admitted⟩
    unfold ruledType at ruled ⊢
    split at ruled
    · rw [Stateful.Passes.ask_iff] at ruled ⊢
      rwa [objects]
    · rw [Stateful.Passes.ask_iff] at ruled ⊢
      rwa [objects]
    · exact ruled
  · intro wired same
    obtain ⟨existing, ⟨scope, owner, lookup⟩, written⟩ := projects wired same
    refine ⟨existing, ⟨?_, ?_, ?_⟩, written⟩
    · rwa [scopes]
    · rwa [objects]
    · rwa [projections]

theorem Completes.beside_iff {other : Request} (beside : Beside other world after)
    (unlike : request.objectId ≠ other.objectId) :
    Completes manager env request after ↔ Completes manager env request world := by
  have projections := beside.projections request.targetScopeId request.objectId fun same => unlike (congrArg Prod.snd same)
  constructor
  · intro completes
    exact completes.of_same beside.environments.symm beside.objects.symm beside.scopes.symm beside.stages.symm
      beside.channels.symm projections.symm
  · intro completes
    exact completes.of_same beside.environments beside.objects beside.scopes beside.stages beside.channels projections

end PromotionManager

namespace EnvironmentLifecycle
open PromotionManager

/-- A call that raises leaves everything but the audit trail as it was. -/
def AllOrNothing {α : Type} (program : Program α) (world : World) : Prop :=
  ∀ error after, program.on world = (.error error, after) → after.untraced = world.untraced

variable (lifecycle : EnvironmentLifecycle) (env : Environments.Env) (world : World) (envId actorId : String)

/-- The environment is there, the actor's, and may move to the state. -/
structure Movable (target : EnvironmentState) (environment : Environment) : Prop where
  found : env.fault .reloadEnvironment = none ∧ world.environments.find envId = some environment
  owner : environment.ownerId = actorId
  state : environment.canTransitionTo target = true

/-- The new state is written. -/
def Moves (target : EnvironmentState) (environment : Environment) : Prop :=
  Movable env world envId actorId target environment ∧ env.fault .updateState = none

/-- Nothing stops the archiving of the objects created in the environment. -/
def Swept : Prop :=
  env.fault .listCreated = none ∧ ∀ objectId ∈ world.createdObjectIds envId, env.fault (.tombstone objectId) = none

/-- The scope is there, not archived, and archived without a failure. -/
def Archivable (scopeId : String) : Prop :=
  (env.fault .getScope = none ∧ ∃ scope, world.scopes.find scopeId = some scope ∧ scope.isArchived = false) ∧
    env.fault .archiveScope = none

/-- The scope that is archived with an environment. -/
def ownScope (environment : Environment) : Option String :=
  match environment.scopeId with
  | none | some "" => none
  | some scopeId => some scopeId

/-- Nothing stops the rest of a discard. -/
def Dissolves (environment : Environment) : Prop :=
  Swept env world envId ∧ ∀ scopeId, ownScope environment = some scopeId →
    Archivable env world scopeId ∧ Recorded lifecycle.audit (env.fault .traceArchive) ∧ env.fault .reloadScope = none

/-- The objects whose archiving comes before the first that fails. -/
def reached : List String :=
  if env.fault .listCreated = none then
    (world.createdObjectIds envId).takeWhile fun objectId => (env.fault (.tombstone objectId)).isNone
  else []

def IsArchived (objectId : String) : Prop :=
  ∀ object, world.objects.find objectId = some object → object.lifecycle = .archived

/-- What a failed discard has done is undone: the state is written back, the
objects reached were archived before, and the scope was not. -/
structure Undone (environment : Environment) : Prop where
  restored : env.fault .restoreState = none
  objects : ∀ objectId ∈ reached env world envId, IsArchived world objectId
  scope : ¬ (Swept env world envId ∧ ∃ scopeId, ownScope environment = some scopeId ∧ Archivable env world scopeId)

/-- A discard that writes the new state records it, and then goes through or is undone. -/
def DiscardFine : Prop :=
  env.fault .getEnvironment = none → ∀ environment, Moves env world envId actorId .discarded environment →
    Recorded lifecycle.audit (env.fault .traceTransition) ∧
      (Dissolves lifecycle env world envId environment ∨ Undone env world envId environment)

variable {lifecycle env world envId actorId}

theorem getOrRaise_reads (step : Step) : (getOrRaise env step envId).Reads := by
  refine .bind (.ask _ _) fun row => ?_
  split
  · exact .pure _
  · exact .throw _

variable {environment : Environment}

theorem getOrRaise_passes {step : Step} : (getOrRaise env step envId).Passes world environment ↔
    env.fault step = none ∧ world.environments.find envId = some environment :=
  Stateful.Passes.found_iff (fun _ => rfl) rfl

theorem checkTransition_reads (target : EnvironmentState) : (checkTransition env envId target actorId).Reads :=
  .bind (getOrRaise_reads _) fun _ => .bind (.guard _ _ _) fun _ => .bind (.guard _ _ _) fun _ => .pure _

variable {target : EnvironmentState}

theorem checkTransition_passes :
    (checkTransition env envId target actorId).Passes world environment ↔
      Movable env world envId actorId target environment := by
  unfold checkTransition requireOwner requireTransition
  rw [Stateful.Passes.bind_iff (getOrRaise_reads _)]
  constructor
  · rintro ⟨read, found, rest⟩
    rw [Stateful.Passes.then_iff (.guard _ _ _), Stateful.Passes.then_iff (.guard _ _ _)] at rest
    obtain ⟨owner, state, same⟩ := rest
    cases Stateful.Passes.pure_iff.mp same
    exact ⟨getOrRaise_passes.mp found, not_not.mp (Stateful.Passes.guard_iff.mp owner).1,
      by simpa using (Stateful.Passes.guard_iff.mp state).1⟩
  · rintro ⟨found, owner, state⟩
    refine ⟨environment, getOrRaise_passes.mpr found, ?_⟩
    rw [Stateful.Passes.then_iff (.guard _ _ _), Stateful.Passes.then_iff (.guard _ _ _)]
    exact ⟨Stateful.Passes.guard_iff.mpr ⟨not_not.mpr owner, rfl⟩, Stateful.Passes.guard_iff.mpr ⟨by simpa using state, rfl⟩,
      Stateful.Passes.pure_iff.mpr rfl⟩

variable (lifecycle) in
theorem transition_refuses (refused : ¬ ∃ environment, Moves env world envId actorId target environment) :
    ∃ error, (lifecycle.transition env envId target actorId).on world = (.error error, world) := by
  unfold transition
  by_cases movable : ∃ environment, Movable env world envId actorId target environment
  · obtain ⟨environment, movable⟩ := movable
    rw [Stateful.on_bind, (checkTransition_passes.mpr movable).on_eq (checkTransition_reads target)]
    dsimp only
    cases failure : env.fault .updateState with
    | some error =>
      refine ⟨error, ?_⟩
      rw [Stateful.on_bind, Stateful.on_assign_some]
    | none => exact absurd ⟨environment, movable, failure⟩ refused
  · obtain ⟨error, raised⟩ := (checkTransition_reads target).raises fun ⟨environment, passed⟩ =>
      movable ⟨environment, checkTransition_passes.mp passed⟩
    refine ⟨error, ?_⟩
    rw [Stateful.on_bind, raised]

variable (lifecycle) in
theorem transition_on (moves : Moves env world envId actorId target environment) :
    ∃ result traces, (lifecycle.transition env envId target actorId).on world =
      (result, { world.setState envId target with traces := traces }) ∧
      (Recorded lifecycle.audit (env.fault .traceTransition) → result = .ok (inState target environment)) ∧
      (¬ Recorded lifecycle.audit (env.fault .traceTransition) → ∃ error, result = .error error) := by
  obtain ⟨movable, fine⟩ := moves
  obtain ⟨recorded, traces, ran, returns⟩ := recordIf_on lifecycle.audit (env.fault .traceTransition)
    ⟨actorId, target.action, "environment", environment.id, environment.scopeId⟩ (world.setState envId target)
  refine ⟨recorded.map fun _ => inState target environment, traces, ?_, ?_, ?_⟩
  · unfold transition
    rw [Stateful.on_bind, (checkTransition_passes.mpr movable).on_eq (checkTransition_reads target)]
    dsimp only
    rw [Stateful.on_bind, fine, Stateful.on_assign_none]
    dsimp only
    rw [Stateful.on_bind_pure, ran]
  · intro told
    rw [returns.mpr told]
    rfl
  · intro untold
    cases recorded with
    | ok done => exact absurd (returns.mp rfl) untold
    | error error => exact ⟨error, rfl⟩

/-- The objects of a list are archived, one after the other. -/
def sweep (world : World) (objectIds : List String) : World := objectIds.foldl World.tombstone world

theorem sweep_fields (world : World) (objectIds : List String) :
    (sweep world objectIds).environments = world.environments ∧ (sweep world objectIds).tracked = world.tracked ∧
    (sweep world objectIds).scopes = world.scopes ∧ (sweep world objectIds).memberships = world.memberships ∧
    (sweep world objectIds).projections = world.projections ∧ (sweep world objectIds).channels = world.channels ∧
    (sweep world objectIds).stages = world.stages ∧ (sweep world objectIds).promotions = world.promotions := by
  induction objectIds generalizing world with
  | nil => exact ⟨rfl, rfl, rfl, rfl, rfl, rfl, rfl, rfl⟩
  | cons objectId objectIds ih => exact ih (world.tombstone objectId)

theorem tombstone_find (world : World) (objectId other : String) : (world.tombstone objectId).objects.find other =
    (world.objects.find other).map fun object =>
      if object.id = objectId && object.lifecycle ≠ .archived then archivedObject object else object :=
  Rows.find_update world.objects _ archivedObject (fun _ => rfl) other

theorem tombstone_archived (archived : IsArchived world objectId) : world.tombstone objectId = world := by
  have same : (world.tombstone objectId).objects = world.objects := by
    refine @Rows.update_eq_self _ _ _ world.objects _ archivedObject (fun _ => rfl) fun object member chosen => ?_
    simp only [Bool.and_eq_true, decide_eq_true_eq] at chosen
    obtain ⟨rfl, unarchived⟩ := chosen
    exact absurd (archived object (Rows.find_mem member)) unarchived
  change { world with objects := (world.tombstone objectId).objects } = world
  rw [same]

theorem IsArchived.tombstone {objectId : String} (archived : IsArchived world objectId) (other : String) :
    IsArchived (world.tombstone other) objectId := by
  intro object found
  rw [tombstone_find] at found
  obtain ⟨before, present, rfl⟩ := Option.map_eq_some_iff.mp found
  split
  · rfl
  · exact archived before present

theorem isArchived_tombstone (world : World) (objectId : String) : IsArchived (world.tombstone objectId) objectId := by
  intro object found
  rw [tombstone_find] at found
  obtain ⟨before, present, rfl⟩ := Option.map_eq_some_iff.mp found
  have same := (Rows.find_eq_some.mp present).2
  by_cases archived : before.lifecycle = .archived <;> simp [same, archived, archivedObject]

variable {objectIds : List String}

theorem sweep_archived (archived : ∀ objectId ∈ objectIds, IsArchived world objectId) :
    sweep world objectIds = world := by
  induction objectIds with
  | nil => rfl
  | cons objectId objectIds ih =>
    obtain ⟨first, rest⟩ := List.forall_mem_cons.mp archived
    unfold sweep
    rw [List.foldl_cons, tombstone_archived first]
    exact ih rest

theorem isArchived_sweep {objectId : String} (swept : objectId ∈ objectIds) (world : World) :
    IsArchived (sweep world objectIds) objectId := by
  have stays : ∀ (others : List String) (world : World), IsArchived world objectId → IsArchived (sweep world others) objectId := by
    intro others
    induction others with
    | nil => exact fun _ archived => archived
    | cons other others ih => exact fun world archived => ih _ (archived.tombstone other)
  induction objectIds generalizing world with
  | nil => cases swept
  | cons first objectIds ih =>
    rcases List.mem_cons.mp swept with rfl | later
    · exact stays objectIds _ (isArchived_tombstone world objectId)
    · exact ih later (world.tombstone first)

variable (env envId) in
theorem tombstoneEach_on (objectIds : List String) (world : World) : ∃ result, (tombstoneEach env objectIds).on world =
    (result, sweep world (objectIds.takeWhile fun objectId => (env.fault (.tombstone objectId)).isNone)) ∧
    (result = .ok () ↔ ∀ objectId ∈ objectIds, env.fault (.tombstone objectId) = none) := by
  induction objectIds generalizing world with
  | nil => exact ⟨.ok (), rfl, by simp⟩
  | cons objectId objectIds ih =>
    unfold tombstoneEach
    cases failure : env.fault (.tombstone objectId) with
    | some error =>
      refine ⟨.error error, ?_, by simp [failure]⟩
      rw [Stateful.on_bind, Stateful.on_assign_some, List.takeWhile_cons_of_neg (by simp [failure])]
      rfl
    | none =>
      obtain ⟨result, ran, returns⟩ := ih (world.tombstone objectId)
      refine ⟨result, ?_, ?_⟩
      · rw [Stateful.on_bind, Stateful.on_assign_none, List.takeWhile_cons_of_pos (by simp [failure])]
        exact ran
      · rw [returns]
        simp [failure]

variable (env envId) in
theorem tombstoneCreated_on (world : World) : ∃ result, (tombstoneCreatedObjects env envId).on world =
    (result, sweep world (reached env world envId)) ∧ (result = .ok () ↔ Swept env world envId) := by
  unfold tombstoneCreatedObjects reached Swept
  cases failure : env.fault .listCreated with
  | some error =>
    refine ⟨.error error, ?_, by simp⟩
    rw [Stateful.on_bind, Stateful.on_ask_some, if_neg (by simp)]
    rfl
  | none =>
    obtain ⟨result, ran, returns⟩ := tombstoneEach_on env (world.createdObjectIds envId) world
    refine ⟨result, ?_, by simpa using returns⟩
    rw [Stateful.on_bind, Stateful.on_ask_none, if_pos rfl]
    exact ran

theorem getScopeOrRaise_reads (step : Step) (scopeId : String) : (getScopeOrRaise env step scopeId).Reads := by
  refine .bind (.ask _ _) fun row => ?_
  split
  · exact .pure _
  · exact .throw _

variable {scopeId : String}

theorem getScopeOrRaise_passes {step : Step} {scope : Scope} :
    (getScopeOrRaise env step scopeId).Passes world scope ↔
      env.fault step = none ∧ world.scopes.find scopeId = some scope :=
  Stateful.Passes.found_iff (fun _ => rfl) rfl

theorem archiveScope_find (world : World) (scopeId : String) : (world.archiveScope scopeId).scopes.find scopeId =
    (world.scopes.find scopeId).map archivedScope := by
  refine (Rows.find_update world.scopes _ archivedScope (fun _ => rfl) scopeId).trans ?_
  cases found : world.scopes.find scopeId with
  | none => rfl
  | some scope => simp [(Rows.find_eq_some.mp found).2]

variable (lifecycle actorId) in
theorem archiveScope_refuses (refused : ¬ Archivable env world scopeId) :
    ∃ error, (lifecycle.archiveScope env scopeId actorId).on world = (.error error, world) := by
  unfold archiveScope
  by_cases read : ∃ scope, (getScopeOrRaise env .getScope scopeId).Passes world scope
  · obtain ⟨scope, passed⟩ := read
    rw [Stateful.on_bind, passed.on_eq (getScopeOrRaise_reads _ _)]
    dsimp only
    cases archived : scope.isArchived with
    | true => exact ⟨_, rfl⟩
    | false =>
      cases failure : env.fault .archiveScope with
      | some error => exact ⟨error, rfl⟩
      | none =>
        obtain ⟨fine, found⟩ := getScopeOrRaise_passes.mp passed
        exact absurd ⟨⟨fine, scope, found, archived⟩, failure⟩ refused
  · obtain ⟨error, raised⟩ := (getScopeOrRaise_reads _ _).raises read
    refine ⟨error, ?_⟩
    rw [Stateful.on_bind, raised]

variable (lifecycle actorId) in
/-- A scope that can be archived is, and the call returns where it is recorded and read again. -/
theorem archiveScope_on (archivable : Archivable env world scopeId) :
    ∃ result traces, (lifecycle.archiveScope env scopeId actorId).on world =
      (result, { world.archiveScope scopeId with traces := traces }) ∧
      ((∃ scope, result = .ok scope) ↔
        Recorded lifecycle.audit (env.fault .traceArchive) ∧ env.fault .reloadScope = none) := by
  obtain ⟨⟨fine, scope, found, unarchived⟩, archives⟩ := archivable
  have passed : (getScopeOrRaise env .getScope scopeId).Passes world scope := getScopeOrRaise_passes.mpr ⟨fine, found⟩
  obtain ⟨recorded, traces, ran, returns⟩ := recordIf_on lifecycle.audit (env.fault .traceArchive)
    ⟨actorId, .scopeDissolve, "Scope", scopeId, some scopeId⟩ (world.archiveScope scopeId)
  have steps : (lifecycle.archiveScope env scopeId actorId).on world =
      (recordIf lifecycle.audit (env.fault .traceArchive) ⟨actorId, .scopeDissolve, "Scope", scopeId, some scopeId⟩ >>=
        fun _ => getScopeOrRaise env .reloadScope scopeId).on (world.archiveScope scopeId) := by
    unfold archiveScope
    rw [Stateful.on_bind, passed.on_eq (getScopeOrRaise_reads _ _)]
    dsimp only
    rw [unarchived, if_neg Bool.false_ne_true, Stateful.on_bind, archives, Stateful.on_assign_none]
  rw [steps, Stateful.on_bind, ran]
  cases recorded with
  | error error =>
    refine ⟨.error error, traces, rfl, by simp, fun told => ?_⟩
    cases returns.mpr told.1
  | ok done =>
    have told := returns.mp rfl
    have after : (world.archiveScope scopeId).scopes.find scopeId = some (archivedScope scope) := by
      rw [archiveScope_find, found]
      rfl
    cases failure : env.fault .reloadScope with
    | some error =>
      refine ⟨.error error, traces, ?_, by simp⟩
      dsimp only
      unfold getScopeOrRaise
      rw [Stateful.on_bind, failure, Stateful.on_ask_some]
    | none =>
      have read : (getScopeOrRaise env .reloadScope scopeId).Passes
          { world.archiveScope scopeId with traces := traces } (archivedScope scope) :=
        getScopeOrRaise_passes.mpr ⟨failure, after⟩
      exact ⟨.ok (archivedScope scope), traces, read.on_eq (getScopeOrRaise_reads _ _), by simpa using told⟩

variable (lifecycle env actorId) in
theorem archiveOwnScope_none (unheld : ownScope environment = none) (world : World) :
    (lifecycle.archiveOwnScope env environment actorId).on world = (.ok (), world) := by
  unfold archiveOwnScope
  cases given : environment.scopeId with
  | none => rfl
  | some scopeId =>
    by_cases empty : scopeId = ""
    · subst scopeId
      rfl
    · simp [ownScope, given] at unheld

variable (lifecycle env actorId) in
theorem archiveOwnScope_some (held : ownScope environment = some scopeId)
    (world : World) : (lifecycle.archiveOwnScope env environment actorId).on world =
      (((lifecycle.archiveScope env scopeId actorId).on world).1.map fun _ => (),
        ((lifecycle.archiveScope env scopeId actorId).on world).2) := by
  unfold archiveOwnScope
  cases given : environment.scopeId with
  | none => simp [ownScope, given] at held
  | some own =>
    by_cases empty : own = ""
    · simp [ownScope, given, empty] at held
    · have same : own = scopeId := by simpa [ownScope, given, empty] using held
      subst own
      simp only
      exact Stateful.on_bind_pure (fun _ => ()) _ world

theorem untraced_ext {first second : World} (environments : first.environments = second.environments)
    (tracked : first.tracked = second.tracked) (objects : first.objects = second.objects)
    (scopes : first.scopes = second.scopes) (memberships : first.memberships = second.memberships)
    (projections : first.projections = second.projections) (channels : first.channels = second.channels)
    (stages : first.stages = second.stages) (promotions : first.promotions = second.promotions) :
    first.untraced = second.untraced := by
  cases first
  cases second
  simp_all [World.untraced]

/-- What the rest of a discard leaves behind where it does not go through. -/
structure Broken (lifecycle : EnvironmentLifecycle) (env : Environments.Env) (world : World) (envId : String) (environment : Environment)
    (after : World) : Prop where
  environments : after.environments = world.environments
  objects : after.objects = (sweep world (reached env world envId)).objects
  unheld : ¬ (Swept env world envId ∧ ∃ scopeId, ownScope environment = some scopeId ∧ Archivable env world scopeId) →
    after = sweep world (reached env world envId)
  held : ∀ scopeId, Swept env world envId → ownScope environment = some scopeId → Archivable env world scopeId →
    after.scopes.find scopeId = (world.scopes.find scopeId).map archivedScope

theorem Archivable.congr {other : World} (archivable : Archivable env world scopeId)
    (same : other.scopes = world.scopes) : Archivable env other scopeId := by
  unfold Archivable at archivable ⊢
  rwa [same]

variable (lifecycle env envId actorId) in
/-- The rest of a discard goes through, or leaves the state broken. -/
theorem dissolve_on (environment : Environment) (world : World) :
    (Dissolves lifecycle env world envId environment →
      ∃ after, (lifecycle.dissolve env environment envId actorId).on world = (.ok (), after)) ∧
    (¬ Dissolves lifecycle env world envId environment →
      ∃ error after, (lifecycle.dissolve env environment envId actorId).on world = (.error error, after) ∧
        Broken lifecycle env world envId environment after) := by
  obtain ⟨swept, ran, returns⟩ := tombstoneCreated_on env envId world
  have fields := sweep_fields world (reached env world envId)
  unfold dissolve
  rw [Stateful.on_bind, ran]
  cases swept with
  | error error =>
    have unswept : ¬ Swept env world envId := fun all => by cases returns.mpr all
    refine ⟨fun dissolves => absurd dissolves.1 unswept, fun _ => ⟨error, _, rfl, fields.1, rfl, fun _ => rfl, ?_⟩⟩
    exact fun _ all => absurd all unswept
  | ok done =>
    have all := returns.mp rfl
    cases held : ownScope environment with
    | none =>
      have finished := archiveOwnScope_none lifecycle env actorId held (sweep world (reached env world envId))
      refine ⟨fun _ => ⟨_, finished⟩, fun stuck => absurd ⟨all, ?_⟩ stuck⟩
      intro scopeId own
      rw [held] at own
      cases own
    | some scopeId =>
      dsimp only
      rw [archiveOwnScope_some lifecycle env actorId held]
      by_cases archivable : Archivable env world scopeId
      · obtain ⟨result, traces, archived, told⟩ := archiveScope_on lifecycle actorId (archivable.congr fields.2.2.1)
        rw [archived]
        constructor
        · intro dissolves
          obtain ⟨-, recorded, read⟩ := dissolves.2 scopeId held
          obtain ⟨scope, rfl⟩ := told.mpr ⟨recorded, read⟩
          exact ⟨_, rfl⟩
        · intro stuck
          cases result with
          | ok scope =>
            refine absurd ⟨all, ?_⟩ stuck
            intro other own
            rw [held] at own
            cases own
            exact ⟨archivable, told.mp ⟨scope, rfl⟩⟩
          | error error =>
            refine ⟨error, _, rfl, fields.1, rfl, fun undone => absurd ⟨all, scopeId, held, archivable⟩ undone, ?_⟩
            intro other _ own _
            rw [held] at own
            cases own
            change ((sweep world (reached env world envId)).archiveScope scopeId).scopes.find scopeId = _
            rw [archiveScope_find, fields.2.2.1]
      · obtain ⟨error, refused⟩ := archiveScope_refuses lifecycle actorId
          fun possible : Archivable env (sweep world (reached env world envId)) scopeId =>
            archivable (possible.congr fields.2.2.1.symm)
        rw [refused]
        constructor
        · exact fun dissolves => absurd (dissolves.2 scopeId held).1 archivable
        · refine fun _ => ⟨error, _, rfl, fields.1, rfl, fun _ => rfl, ?_⟩
          intro other _ own possible
          rw [held] at own
          cases own
          exact absurd possible archivable

theorem setState_find (world : World) (target : EnvironmentState) (environment : Environment)
    (found : world.environments.find envId = some environment) :
    (world.setState envId target).environments.find envId = some (inState target environment) := by
  refine (Rows.find_update world.environments _ (inState target) (fun _ => rfl) envId).trans ?_
  rw [found]
  simp [(Rows.find_eq_some.mp found).2]

theorem setState_restore (world after : World) (target : EnvironmentState)
    (found : world.environments.find envId = some environment)
    (same : after.environments = (world.setState envId target).environments) :
    (after.setState envId environment.state).environments = world.environments := by
  unfold World.setState at same ⊢
  rw [same]
  refine @Rows.update_update_eq_self _ _ _ world.environments _ (inState target) (inState environment.state) (fun _ => rfl)
    (fun _ => rfl) (fun _ => rfl) fun row member chosen => ?_
  have one := Rows.find_mem member
  rw [of_decide_eq_true chosen, found] at one
  cases one
  rfl

theorem not_mem_validTransitions (state : EnvironmentState) : state ∉ state.validTransitions := by
  cases state <;> decide

theorem Movable.unlike
    (movable : Movable env world envId actorId target environment) : environment.state ≠ target := by
  rintro rfl
  exact not_mem_validTransitions _ (of_decide_eq_true movable.state)

theorem setState_unlike
    (found : world.environments.find envId = some environment) (unlike : environment.state ≠ target)
    (same : after.environments = (world.setState envId target).environments) : after.untraced ≠ world.untraced := by
  intro equal
  have environments := congrArg World.environments equal
  change after.environments = world.environments at environments
  have moved := setState_find world target environment found
  rw [← same, environments, found] at moved
  exact unlike (congrArg Environment.state (Option.some.inj moved))

variable (lifecycle) in
theorem discard_on (read : env.fault .getEnvironment = none)
    (moves : Moves env world envId actorId .discarded environment)
    (recorded : Recorded lifecycle.audit (env.fault .traceTransition)) :
    ∃ traces, (lifecycle.discard env envId actorId).on world =
      match (lifecycle.dissolve env (inState .discarded environment) envId actorId).on
        { world.setState envId .discarded with traces := traces } with
      | (.ok _, after) => (.ok (inState .discarded environment), after)
      | (.error error, after) =>
        match env.fault .restoreState with
        | none => (.error error, after.setState envId environment.state)
        | some failure => (.error failure, after) := by
  obtain ⟨result, traces, ran, told, -⟩ := transition_on lifecycle moves
  have passed : (getOrRaise env .getEnvironment envId).Passes world environment :=
    getOrRaise_passes.mpr ⟨read, moves.1.found.2⟩
  refine ⟨traces, ?_⟩
  unfold discard
  rw [Stateful.on_bind, passed.on_eq (getOrRaise_reads _)]
  dsimp only
  rw [Stateful.on_bind, ran, told recorded]
  dsimp only
  rw [Stateful.on_bind, Stateful.on_tryCatch]
  rcases (lifecycle.dissolve env (inState .discarded environment) envId actorId).on
    { world.setState envId .discarded with traces := traces } with ⟨error | done, after⟩
  · cases failure : env.fault .restoreState <;> rfl
  · rfl

variable (lifecycle) in
theorem discard_refuses (refused : ¬ (env.fault .getEnvironment = none ∧
    ∃ environment, Moves env world envId actorId .discarded environment)) :
    ∃ error, (lifecycle.discard env envId actorId).on world = (.error error, world) := by
  unfold discard
  by_cases read : ∃ previous, (getOrRaise env .getEnvironment envId).Passes world previous
  · obtain ⟨previous, passed⟩ := read
    obtain ⟨error, raised⟩ := transition_refuses lifecycle fun moves :
      ∃ environment, Moves env world envId actorId .discarded environment =>
      refused ⟨(getOrRaise_passes.mp passed).1, moves⟩
    refine ⟨error, ?_⟩
    rw [Stateful.on_bind, passed.on_eq (getOrRaise_reads _)]
    dsimp only
    rw [Stateful.on_bind, raised]
  · obtain ⟨error, raised⟩ := (getOrRaise_reads _).raises read
    refine ⟨error, ?_⟩
    rw [Stateful.on_bind, raised]

variable (lifecycle) in
theorem discard_untold (read : env.fault .getEnvironment = none)
    (moves : Moves env world envId actorId .discarded environment)
    (untold : ¬ Recorded lifecycle.audit (env.fault .traceTransition)) :
    ∃ error traces, (lifecycle.discard env envId actorId).on world =
      (.error error, { world.setState envId .discarded with traces := traces }) := by
  obtain ⟨result, traces, ran, -, told⟩ := transition_on lifecycle moves
  obtain ⟨error, rfl⟩ := told untold
  have passed : (getOrRaise env .getEnvironment envId).Passes world environment :=
    getOrRaise_passes.mpr ⟨read, moves.1.found.2⟩
  refine ⟨error, traces, ?_⟩
  unfold discard
  rw [Stateful.on_bind, passed.on_eq (getOrRaise_reads _)]
  dsimp only
  rw [Stateful.on_bind, ran]

theorem Broken.undone {traces : List Trace}
    (broken : Broken lifecycle env { world.setState envId .discarded with traces := traces } envId
      (inState .discarded environment) after)
    (restored : env.fault .restoreState = none)
    (unchanged : (after.setState envId environment.state).untraced = world.untraced) :
    Undone env world envId environment := by
  have objects := congrArg World.objects unchanged
  have scopes := congrArg World.scopes unchanged
  change after.objects = world.objects at objects
  change after.scopes = world.scopes at scopes
  refine ⟨restored, fun objectId member object found => ?_, ?_⟩
  · have archived := isArchived_sweep member { world.setState envId .discarded with traces := traces }
    have same := broken.objects
    rw [objects] at same
    refine archived object ?_
    have one := congrArg (fun rows : Rows ScopedObject.id => rows.find objectId) same
    exact one.symm.trans found
  · rintro ⟨swept, scopeId, own, archivable⟩
    have moved := broken.held scopeId swept own archivable
    obtain ⟨⟨-, scope, found, unarchived⟩, -⟩ := archivable
    change after.scopes.find scopeId = (world.scopes.find scopeId).map archivedScope at moved
    rw [scopes, found] at moved
    rw [Option.some.inj moved] at unarchived
    cases unarchived

theorem Undone.unchanged {traces : List Trace}
    (undone : Undone env world envId environment) (found : world.environments.find envId = some environment)
    (broken : Broken lifecycle env { world.setState envId .discarded with traces := traces } envId
      (inState .discarded environment) after) :
    (after.setState envId environment.state).untraced = world.untraced := by
  have swept := broken.unheld undone.scope
  have archived : ∀ objectId ∈ reached env world envId,
      IsArchived { world.setState envId .discarded with traces := traces } objectId := undone.objects
  have same : after = { world.setState envId .discarded with traces := traces } := swept.trans (sweep_archived archived)
  subst same
  exact untraced_ext (setState_restore world _ .discarded found rfl) rfl rfl rfl rfl rfl rfl rfl rfl

theorem discard_iff : AllOrNothing (lifecycle.discard env envId actorId) world ↔
    DiscardFine lifecycle env world envId actorId := by
  constructor
  · intro whole read environment moves
    have found := moves.1.found.2
    have recorded : Recorded lifecycle.audit (env.fault .traceTransition) := by
      by_contra untold
      obtain ⟨error, traces, raised⟩ := discard_untold lifecycle read moves untold
      have same := whole error _ raised
      exact setState_unlike found moves.1.unlike rfl same
    refine ⟨recorded, ?_⟩
    by_cases dissolves : Dissolves lifecycle env world envId environment
    · exact .inl dissolves
    right
    obtain ⟨traces, ran⟩ := discard_on lifecycle read moves recorded
    obtain ⟨error, after, failed, broken⟩ := (dissolve_on lifecycle env envId actorId
      (inState .discarded environment)
      { world.setState envId .discarded with traces := traces }).2 dissolves
    rw [failed] at ran
    cases restored : env.fault .restoreState with
    | some failure =>
      simp only [restored] at ran
      exact absurd (whole failure after ran) (setState_unlike found moves.1.unlike broken.environments)
    | none =>
      simp only [restored] at ran
      exact broken.undone restored (whole error _ ran)
  · intro fine error after raised
    by_cases begun : env.fault .getEnvironment = none ∧ ∃ environment, Moves env world envId actorId .discarded environment
    · obtain ⟨read, environment, moves⟩ := begun
      obtain ⟨recorded, ends⟩ := fine read environment moves
      obtain ⟨traces, ran⟩ := discard_on lifecycle read moves recorded
      obtain ⟨through, fails⟩ := dissolve_on lifecycle env envId actorId
        (inState .discarded environment) { world.setState envId .discarded with traces := traces }
      rw [raised] at ran
      by_cases dissolves : Dissolves lifecycle env world envId environment
      · obtain ⟨final, done⟩ := through dissolves
        rw [done] at ran
        cases ran
      · obtain ⟨failure, final, failed, broken⟩ := fails dissolves
        have undone := ends.resolve_left dissolves
        rw [failed, undone.restored] at ran
        cases ran
        exact undone.unchanged moves.1.found.2 broken
    · obtain ⟨refusal, refused⟩ := discard_refuses lifecycle begun
      rw [refused] at raised
      cases raised
      rfl

/-- What the promotions of a list leave alone. -/
structure Kept (before after : World) : Prop where
  environments : after.environments = before.environments
  promotions : ∃ more, after.promotions = before.promotions ++ more

variable (env) in
theorem promoteEach_kept (manager : PromotionManager) (requests : List Request) (world : World) :
    Kept world ((promoteEach env manager requests).on world).2 := by
  induction requests generalizing world with
  | nil => exact ⟨rfl, [], (List.append_nil _).symm⟩
  | cons request requests ih =>
    obtain ⟨result, after, ran, beside, -⟩ := promote_outcome manager env request world
    unfold promoteEach
    rw [Stateful.on_bind, ran]
    cases result with
    | error error => exact ⟨beside.environments, beside.promotions⟩
    | ok promo =>
      obtain ⟨environments, more, grown⟩ := ih after
      obtain ⟨first, grown'⟩ := beside.promotions
      exact ⟨environments.trans beside.environments, first ++ more, by rw [← List.append_assoc, ← grown', ← grown]⟩

variable (env) in
theorem promoteEach_returns (manager : PromotionManager) {requests : List Request}
    (distinct : (requests.map Request.objectId).Nodup) (world : World) :
    ((promoteEach env manager requests).on world).1 = .ok () ↔
      ∀ request ∈ requests, Completes manager env request world := by
  induction requests generalizing world with
  | nil => exact ⟨fun _ => nofun, fun _ => rfl⟩
  | cons request requests ih =>
    obtain ⟨fresh, distinct⟩ := List.nodup_cons.mp distinct
    obtain ⟨result, after, ran, beside, told, -⟩ := promote_outcome manager env request world
    have others : (∀ other ∈ requests, Completes manager env other after) ↔
        ∀ other ∈ requests, Completes manager env other world := by
      refine forall₂_congr fun other member => Completes.beside_iff beside fun same => ?_
      exact fresh (List.mem_map.mpr ⟨other, member, same⟩)
    unfold promoteEach
    rw [Stateful.on_bind, ran, List.forall_mem_cons, ← told]
    cases result with
    | error error => simp
    | ok promo =>
      rw [← others, ← ih distinct after]
      simp

theorem promoteEach_touched {manager : PromotionManager} {request : Request} (requests : List Request) {world : World}
    (touches : Touches manager env request world) :
    ((promoteEach env manager (request :: requests)).on world).2.untraced ≠ world.untraced ∧
      (((promoteEach env manager (request :: requests)).on world).1 = .ok () →
        ((promoteEach env manager (request :: requests)).on world).2.promotions ≠ world.promotions) := by
  obtain ⟨result, after, ran, beside, told, grown⟩ := promote_outcome manager env request world
  have changed := promote_touched touches
  rw [ran] at changed
  unfold promoteEach
  rw [Stateful.on_bind, ran]
  cases result with
  | error error => exact ⟨changed, nofun⟩
  | ok promo =>
    dsimp only
    obtain ⟨first, more, grown⟩ := grown (told.mp ⟨promo, rfl⟩)
    obtain ⟨-, rest, kept⟩ := promoteEach_kept env manager requests after
    have longer : ((promoteEach env manager requests).on after).2.promotions ≠ world.promotions := by
      rw [kept, grown]
      intro same
      have lengths := congrArg List.length same
      simp at lengths
    refine ⟨fun same => ?_, fun _ => longer⟩
    have promotions := congrArg World.promotions same
    exact longer promotions

theorem promoteEach_untouched {manager : PromotionManager} {request : Request} (requests : List Request)
    (untouched : ¬ Touches manager env request world) :
    ∃ error, (promoteEach env manager (request :: requests)).on world = (.error error, world) := by
  obtain ⟨error, raised⟩ := promote_untouched untouched
  refine ⟨error, ?_⟩
  unfold promoteEach
  rw [Stateful.on_bind, raised]

/-- The environment is there and the actor's, and its objects are listed. -/
def Promotable (env : Environments.Env) (world : World) (envId actorId : String) : Prop :=
  env.fault .getEnvironment = none ∧
    (∃ environment, world.environments.find envId = some environment ∧ environment.ownerId = actorId) ∧
    env.fault .listCreated = none

/-- The promotions of the objects created in an environment. -/
def requestsFor (world : World) (envId actorId targetScopeId : String) (targetStageId : Option String)
    (accessLevel : Option AccessLevel) : List Request :=
  (world.createdObjectIds envId).map (requestFor envId actorId targetScopeId targetStageId (accessLevel.getD .read))

/-- A transition to the promoted state that is written is recorded. -/
def TransitionFine (lifecycle : EnvironmentLifecycle) (env : Environments.Env) (world : World) (envId actorId : String) : Prop :=
  (∃ environment, Moves env world envId actorId .promoted environment) →
    Recorded lifecycle.audit (env.fault .traceTransition)

/-- Where an object is promoted at all, every object is and the environment with
them; otherwise a transition that is written is recorded. -/
def RequestsFine (lifecycle : EnvironmentLifecycle) (env : Environments.Env) (world : World) (envId actorId : String)
    (manager : PromotionManager) (requests : List Request) : Prop :=
  match requests with
  | [] => TransitionFine lifecycle env world envId actorId
  | first :: rest => ¬ Touches manager env first world ∨ (∀ request ∈ first :: rest, Completes manager env request world) ∧
    (∃ environment, Moves env world envId actorId .promoted environment) ∧
    Recorded lifecycle.audit (env.fault .traceTransition)

def PromoteFine (lifecycle : EnvironmentLifecycle) (env : Environments.Env) (world : World) (envId actorId : String)
    (targetScopeId targetStageId : Option String) (accessLevel : Option AccessLevel) : Prop :=
  match targetScopeId with
  | none => TransitionFine lifecycle env world envId actorId
  | some targetScopeId => ∀ manager, lifecycle.container = true → lifecycle.promotionManager = some manager →
    Promotable env world envId actorId → RequestsFine lifecycle env world envId actorId manager
      (requestsFor world envId actorId targetScopeId targetStageId accessLevel)

theorem checkPromotable_reads : (checkPromotable env envId actorId).Reads :=
  .bind (getOrRaise_reads _) fun _ => .bind (.guard _ _ _) fun _ => .ask _ _

theorem checkPromotable_passes : (checkPromotable env envId actorId).Passes world objectIds ↔
    Promotable env world envId actorId ∧ objectIds = world.createdObjectIds envId := by
  unfold checkPromotable requireOwner
  rw [Stateful.Passes.bind_iff (getOrRaise_reads _)]
  constructor
  · rintro ⟨environment, read, rest⟩
    rw [Stateful.Passes.then_iff (.guard _ _ _)] at rest
    obtain ⟨owner, listed⟩ := rest
    obtain ⟨fine, found⟩ := getOrRaise_passes.mp read
    obtain ⟨listing, same⟩ := Stateful.Passes.ask_iff.mp listed
    exact ⟨⟨fine, ⟨environment, found, not_not.mp (Stateful.Passes.guard_iff.mp owner).1⟩, listing⟩, same.symm⟩
  · rintro ⟨⟨fine, ⟨environment, found, owner⟩, listing⟩, rfl⟩
    refine ⟨environment, getOrRaise_passes.mpr ⟨fine, found⟩, ?_⟩
    rw [Stateful.Passes.then_iff (.guard _ _ _)]
    exact ⟨Stateful.Passes.guard_iff.mpr ⟨not_not.mpr owner, rfl⟩, Stateful.Passes.ask_iff.mpr ⟨listing, rfl⟩⟩

theorem requestsFor_distinct (targetScopeId : String) (targetStageId : Option String) (accessLevel : Option AccessLevel) :
    ((requestsFor world envId actorId targetScopeId targetStageId accessLevel).map Request.objectId).Nodup := by
  unfold requestsFor World.createdObjectIds
  rw [List.map_map, List.map_map]
  refine List.Nodup.map_on ?_ ((List.Nodup.of_map _ world.tracked.unique).filter _)
  intro one member two member' same
  obtain ⟨stored, chosen⟩ := List.mem_filter.mp member
  obtain ⟨stored', chosen'⟩ := List.mem_filter.mp member'
  simp only [Bool.and_eq_true, decide_eq_true_eq] at chosen chosen'
  refine List.inj_on_of_nodup_map world.tracked.unique stored stored' ?_
  exact Prod.ext (chosen.1.trans chosen'.1.symm) same

variable (lifecycle) in
theorem transition_iff : AllOrNothing (lifecycle.transition env envId .promoted actorId) world ↔
    TransitionFine lifecycle env world envId actorId := by
  constructor
  · rintro whole ⟨environment, moves⟩
    by_contra untold
    obtain ⟨result, traces, ran, -, told⟩ := transition_on lifecycle moves
    obtain ⟨error, rfl⟩ := told untold
    have same := whole error _ ran
    exact setState_unlike moves.1.found.2 moves.1.unlike rfl same
  · intro fine error after raised
    by_cases moves : ∃ environment, Moves env world envId actorId .promoted environment
    · obtain ⟨environment, moved⟩ := moves
      obtain ⟨result, traces, ran, told, -⟩ := transition_on lifecycle moved
      rw [told (fine ⟨environment, moved⟩), raised] at ran
      cases ran
    · obtain ⟨refusal, refused⟩ := transition_refuses lifecycle moves
      rw [refused] at raised
      cases raised
      rfl

theorem Moves.iff (same : after.environments = world.environments) :
    Moves env after envId actorId target environment ↔ Moves env world envId actorId target environment := by
  constructor
  · rintro ⟨⟨found, owner, state⟩, fine⟩
    exact ⟨⟨by rwa [← same], owner, state⟩, fine⟩
  · rintro ⟨⟨found, owner, state⟩, fine⟩
    exact ⟨⟨by rwa [same], owner, state⟩, fine⟩

variable (lifecycle) in
theorem promoteCreated_on {manager : PromotionManager} (container : lifecycle.container = true)
    (wired : lifecycle.promotionManager = some manager) (promotable : Promotable env world envId actorId)
    (targetScopeId : String) (targetStageId : Option String) (accessLevel : Option AccessLevel) :
    (lifecycle.promoteCreated env envId actorId targetScopeId targetStageId accessLevel).on world =
      (promoteEach env manager (requestsFor world envId actorId targetScopeId targetStageId accessLevel)).on world := by
  have passed : (checkPromotable env envId actorId).Passes world (world.createdObjectIds envId) :=
    checkPromotable_passes.mpr ⟨promotable, rfl⟩
  unfold promoteCreated
  rw [container, wired]
  dsimp only
  rw [Stateful.on_bind, passed.on_eq checkPromotable_reads]
  rfl

variable (lifecycle) in
theorem promoteCreated_refuses (refused : ¬ ∃ manager, lifecycle.container = true ∧
    lifecycle.promotionManager = some manager ∧ Promotable env world envId actorId)
    (targetScopeId : String) (targetStageId : Option String) (accessLevel : Option AccessLevel) :
    ∃ error, (lifecycle.promoteCreated env envId actorId targetScopeId targetStageId accessLevel).on world =
      (.error error, world) := by
  unfold promoteCreated
  split
  next manager container wired =>
    obtain ⟨error, raised⟩ := checkPromotable_reads.raises fun ⟨objectIds, passed⟩ =>
      refused ⟨manager, container, wired, (checkPromotable_passes.mp passed).1⟩
    refine ⟨error, ?_⟩
    rw [Stateful.on_bind, raised]
  · exact ⟨_, rfl⟩

variable (lifecycle env envId actorId) in
theorem transition_promotions (target : EnvironmentState) (world : World) :
    ((lifecycle.transition env envId target actorId).on world).2.promotions = world.promotions := by
  by_cases moves : ∃ environment, Moves env world envId actorId target environment
  · obtain ⟨environment, moved⟩ := moves
    obtain ⟨result, traces, ran, -⟩ := transition_on lifecycle moved
    rw [ran]
    rfl
  · obtain ⟨error, refused⟩ := transition_refuses lifecycle moves
    rw [refused]

variable (lifecycle env envId actorId) in
theorem transition_returns (target : EnvironmentState) (world : World) :
    (∃ environment, ((lifecycle.transition env envId target actorId).on world).1 = .ok environment) ↔
      (∃ environment, Moves env world envId actorId target environment) ∧
        Recorded lifecycle.audit (env.fault .traceTransition) := by
  by_cases moves : ∃ environment, Moves env world envId actorId target environment
  · obtain ⟨environment, moved⟩ := moves
    obtain ⟨result, traces, ran, told, untold⟩ := transition_on lifecycle moved
    rw [ran]
    constructor
    · rintro ⟨_, rfl⟩
      refine ⟨⟨environment, moved⟩, ?_⟩
      by_contra missing
      obtain ⟨error, failed⟩ := untold missing
      cases failed
    · exact fun fine => ⟨_, told fine.2⟩
  · obtain ⟨error, refused⟩ := transition_refuses lifecycle moves
    rw [refused]
    exact ⟨by rintro ⟨_, ⟨⟩⟩, fun fine => absurd fine.1 moves⟩

variable (lifecycle env world envId actorId)

/-- Promoting an environment is all or nothing, succeeds only from the completed
state, and projects nothing from any other. -/
structure PromotesWhole (targetScopeId targetStageId : Option String) (accessLevel : Option AccessLevel) : Prop where
  whole : AllOrNothing (lifecycle.promote env envId actorId targetScopeId targetStageId accessLevel) world
  completed : ∀ promoted after,
    (lifecycle.promote env envId actorId targetScopeId targetStageId accessLevel).on world = (.ok promoted, after) →
    ∃ environment, world.environments.find envId = some environment ∧ environment.state = .completed
  idle : (¬ ∃ environment, world.environments.find envId = some environment ∧ environment.state = .completed) →
    ¬ Projects world ((lifecycle.promote env envId actorId targetScopeId targetStageId accessLevel).on world).2

variable {lifecycle env world envId actorId} {targetScopeId targetStageId : Option String} {accessLevel : Option AccessLevel}

variable (lifecycle env envId actorId targetStageId accessLevel) in
theorem promoteCreated_environments (targetScopeId : String) (world : World) :
    ((lifecycle.promoteCreated env envId actorId targetScopeId targetStageId accessLevel).on world).2.environments =
      world.environments := by
  by_cases wired : ∃ manager, lifecycle.container = true ∧ lifecycle.promotionManager = some manager ∧
      Promotable env world envId actorId
  · obtain ⟨manager, container, wired, promotable⟩ := wired
    rw [promoteCreated_on lifecycle container wired promotable]
    exact (promoteEach_kept env manager _ world).environments
  · obtain ⟨error, refused⟩ := promoteCreated_refuses lifecycle wired targetScopeId targetStageId accessLevel
    rw [refused]

theorem promote_completed {promoted : Environment}
    (returned : (lifecycle.promote env envId actorId targetScopeId targetStageId accessLevel).on world = (.ok promoted, after)) :
    ∃ environment, world.environments.find envId = some environment ∧ environment.state = .completed := by
  have last : ∀ middle : World, middle.environments = world.environments →
      ((lifecycle.transition env envId .promoted actorId).on middle).1 = .ok promoted →
      ∃ environment, world.environments.find envId = some environment ∧ environment.state = .completed := by
    intro middle same passed
    obtain ⟨⟨environment, ⟨⟨-, found⟩, -, state⟩, -⟩, -⟩ := (transition_returns lifecycle env envId actorId .promoted middle).mp ⟨promoted, passed⟩
    rw [same] at found
    refine ⟨environment, found, ?_⟩
    unfold Environment.canTransitionTo at state
    cases current : environment.state <;> rw [current] at state <;> first | rfl | exact absurd state (by decide)
  unfold promote at returned
  cases targetScopeId with
  | none => exact last world rfl (congrArg Prod.fst returned)
  | some targetScopeId =>
    have environments := promoteCreated_environments lifecycle env envId actorId targetStageId accessLevel targetScopeId world
    dsimp only at returned
    rw [Stateful.on_bind] at returned
    cases ran : (lifecycle.promoteCreated env envId actorId targetScopeId targetStageId accessLevel).on world with
    | mk result middle =>
      rw [ran] at returned environments
      cases result with
      | error error => cases returned
      | ok done => exact last middle environments (congrArg Prod.fst returned)

theorem promote_steps (targetScopeId : String) (world : World) :
    (lifecycle.promote env envId actorId (some targetScopeId) targetStageId accessLevel).on world =
      match (lifecycle.promoteCreated env envId actorId targetScopeId targetStageId accessLevel).on world with
      | (.ok _, after) => (lifecycle.transition env envId .promoted actorId).on after
      | (.error error, after) => (.error error, after) := by
  unfold promote
  dsimp only
  rw [Stateful.on_bind]
  rcases (lifecycle.promoteCreated env envId actorId targetScopeId targetStageId accessLevel).on world with
    ⟨_ | _, after⟩ <;> rfl

/-- What follows a promotion that has written something is all or nothing where
every object goes through and the environment with them. -/
theorem promote_touched_iff {manager : PromotionManager} {first : Request} {rest : List Request}
    (distinct : ((first :: rest).map Request.objectId).Nodup) (touches : Touches manager env first world) :
    (∀ error after, (match (promoteEach env manager (first :: rest)).on world with
      | (.ok _, middle) => (lifecycle.transition env envId .promoted actorId).on middle
      | (.error error, middle) => (.error error, middle)) = (.error error, after) → after.untraced = world.untraced) ↔
    (∀ request ∈ first :: rest, Completes manager env request world) ∧
      (∃ environment, Moves env world envId actorId .promoted environment) ∧
      Recorded lifecycle.audit (env.fault .traceTransition) := by
  obtain ⟨changed, grown⟩ := promoteEach_touched rest touches
  have returns := promoteEach_returns env manager distinct world
  have kept := promoteEach_kept env manager (first :: rest) world
  cases ran : (promoteEach env manager (first :: rest)).on world with
  | mk result middle =>
    rw [ran] at changed grown returns kept
    dsimp only at changed grown returns kept ⊢
    rw [← returns]
    cases result with
    | error error =>
      refine ⟨fun whole => absurd (whole error middle rfl) changed, ?_⟩
      rintro ⟨⟨⟩, -⟩
    | ok done =>
      have moves : (∃ environment, Moves env middle envId actorId .promoted environment) ↔
          ∃ environment, Moves env world envId actorId .promoted environment :=
        exists_congr fun _ => Moves.iff kept.environments
      have told := transition_returns lifecycle env envId actorId .promoted middle
      rw [moves] at told
      rw [← told]
      constructor
      · intro whole
        refine ⟨rfl, ?_⟩
        cases raised : (lifecycle.transition env envId .promoted actorId).on middle with
        | mk result after =>
          cases result with
          | ok environment => exact ⟨environment, rfl⟩
          | error error =>
            have left := transition_promotions lifecycle env envId actorId .promoted middle
            have promotions := congrArg World.promotions (whole error after raised)
            rw [raised] at left
            exact absurd (left.symm.trans promotions) (grown rfl)
      · rintro ⟨-, environment, passed⟩ error after raised
        dsimp only at raised
        rw [raised] at passed
        cases passed

theorem promote_whole_iff : AllOrNothing (lifecycle.promote env envId actorId targetScopeId targetStageId accessLevel) world ↔
    PromoteFine lifecycle env world envId actorId targetScopeId targetStageId accessLevel := by
  cases targetScopeId with
  | none => exact transition_iff lifecycle
  | some targetScopeId =>
    unfold AllOrNothing PromoteFine
    rw [promote_steps]
    by_cases wired : ∃ manager, lifecycle.container = true ∧ lifecycle.promotionManager = some manager ∧
        Promotable env world envId actorId
    · obtain ⟨manager, container, wired, promotable⟩ := wired
      rw [promoteCreated_on lifecycle container wired promotable]
      have only : (∀ other, lifecycle.container = true → lifecycle.promotionManager = some other →
          Promotable env world envId actorId → RequestsFine lifecycle env world envId actorId other
            (requestsFor world envId actorId targetScopeId targetStageId accessLevel)) ↔
          RequestsFine lifecycle env world envId actorId manager
            (requestsFor world envId actorId targetScopeId targetStageId accessLevel) := by
        refine ⟨fun all => all manager container wired promotable, fun one other _ given _ => ?_⟩
        cases wired.symm.trans given
        exact one
      dsimp only
      rw [only]
      have distinct := @requestsFor_distinct world envId actorId targetScopeId targetStageId accessLevel
      revert distinct
      generalize requestsFor world envId actorId targetScopeId targetStageId accessLevel = requests
      intro distinct
      cases requests with
      | nil => exact transition_iff lifecycle
      | cons first rest =>
        by_cases touches : Touches manager env first world
        · refine (promote_touched_iff distinct touches).trans ⟨.inr, fun fine => ?_⟩
          exact fine.resolve_left fun untouched => untouched touches
        · obtain ⟨error, raised⟩ := promoteEach_untouched rest touches
          rw [raised]
          refine ⟨fun _ => .inl touches, ?_⟩
          rintro - _ _ ⟨⟩
          rfl
    · obtain ⟨error, refused⟩ := promoteCreated_refuses lifecycle wired targetScopeId targetStageId accessLevel
      rw [refused]
      refine ⟨fun _ manager container given promotable => absurd ⟨manager, container, given, promotable⟩ wired, ?_⟩
      rintro - _ _ ⟨⟩
      rfl

/-- Promoting is all or nothing where it is fine, and then projects nothing from
a state that is not the completed one. -/
theorem promotesWhole_iff : PromotesWhole lifecycle env world envId actorId targetScopeId targetStageId accessLevel ↔
    PromoteFine lifecycle env world envId actorId targetScopeId targetStageId accessLevel := by
  refine ⟨fun whole => promote_whole_iff.mp whole.whole, fun fine => ?_⟩
  have whole := promote_whole_iff.mpr fine
  refine ⟨whole, fun promoted after returned => promote_completed returned, fun incomplete => ?_⟩
  rintro ⟨scopeId, objectId, unlike⟩
  cases ran : (lifecycle.promote env envId actorId targetScopeId targetStageId accessLevel).on world with
  | mk result after =>
    rw [ran] at unlike
    cases result with
    | ok promoted => exact incomplete (promote_completed ran)
    | error error =>
      have projections := congrArg World.projections (whole error after ran)
      exact unlike (congrArg (fun rows : Rows projectionAddress => rows.find (scopeId, objectId)) projections)

/-- When the two ends of an environment are all or nothing. -/
theorem all_or_nothing_iff :
    (AllOrNothing (lifecycle.discard env envId actorId) world ↔ DiscardFine lifecycle env world envId actorId) ∧
    (PromotesWhole lifecycle env world envId actorId targetScopeId targetStageId accessLevel ↔
      PromoteFine lifecycle env world envId actorId targetScopeId targetStageId accessLevel) :=
  ⟨discard_iff, promotesWhole_iff⟩

section Sample

/-- Nothing gates a promotion but that the object can be projected. -/
def wired : EnvironmentLifecycle := ⟨false, true, some ⟨false, some ⟨false⟩, false, false⟩⟩

/-- A document created in an environment, whose scope is another one. -/
def workshop (state : EnvironmentState) (scope : Lifecycle) : World where
  environments := ⟨[⟨"lab", "lab", "ann", "", none, some "own", state, true, "2024-01-01T00:00:00+00:00", none, .obj []⟩],
    List.nodup_singleton _⟩
  tracked := ⟨[⟨"row", "lab", "doc", .created, "2024-01-01T00:00:00+00:00"⟩], by decide⟩
  objects := ⟨[⟨"doc", "Document", "ann", 1, ⟨2024, 1, 1, 0, 0, 0, 0, DateTime.newYear_bounded⟩, .active, none⟩],
    List.nodup_singleton "doc"⟩
  scopes := ⟨[⟨"own", "lab", "ann", none, scope⟩, ⟨"team", "team", "ann", none, .active⟩],
    show ["own", "team"].Nodup by decide⟩
  memberships := []
  projections := .empty
  channels := .empty
  stages := .empty
  promotions := []
  traces := []

/-- Discarding an environment whose scope is archived already raises after its
document has been archived, and promoting one that is not completed raises after
its document has been projected. -/
theorem halfway :
    ¬ AllOrNothing (wired.discard calm "lab" "ann") (workshop .completed .archived) ∧
    ¬ PromotesWhole wired calm (workshop .active .active) "lab" "ann" (some "team") none none := by
  refine ⟨fun whole => ?_, fun promotes => ?_⟩
  · have same := whole _ _ rfl
    have lifecycle := congrArg (fun world : World => (world.objects.find "doc").map ScopedObject.lifecycle) same
    exact absurd lifecycle (by decide)
  · have same := promotes.whole _ _ rfl
    have promotions := congrArg (fun world : World => world.promotions.length) same
    exact absurd promotions (by decide)

end Sample
end EnvironmentLifecycle
end PyScoped.Legacy
