import PyScoped.Legacy.Flow

/-! How far flow channels gate promotions. Only the hundred newest channels of a
route are looked at, and a type only where the caller gives it. -/

namespace PyScoped.Legacy
open Foundation Environments

namespace FlowEngine

theorem resolve_allowed (channels : List FlowChannel) (objectType : Option String) :
    (resolve channels objectType).allowed = true ↔ ∃ channel ∈ channels, permits objectType channel = true := by
  unfold resolve
  cases channels with
  | nil => simp
  | cons first rest =>
    simp only [List.isEmpty_cons, Bool.false_eq_true, if_false]
    cases found : (first :: rest).find? (permits objectType) with
    | some channel =>
      simp only [true_iff]
      exact ⟨channel, List.mem_of_find?_eq_some found, List.find?_some found⟩
    | none =>
      simp only [Bool.false_eq_true, false_iff, not_exists, not_and]
      intro channel member
      simpa using List.find?_eq_none.mp found channel member

theorem mem_listChannels {channels : List FlowChannel} {route : Route} {limit : Nat} {channel : FlowChannel}
    (member : channel ∈ listChannels channels route limit) : channel ∈ channels ∧ route.selects channel = true := by
  have sorted := List.mem_of_mem_take member
  rw [List.mem_insertionSort] at sorted
  exact List.mem_filter.mp sorted

end FlowEngine

namespace PromotionManager
open FlowEngine

/-- The active channels from an environment to a scope. -/
def route (sourceEnvId targetScopeId : String) : Route :=
  ⟨some .environment, some sourceEnvId, some .scope, some targetScopeId, true⟩

/-- Some active channel of the route permits the type. -/
def Permitted (world : World) (sourceEnvId targetScopeId objectType : String) : Prop :=
  ∃ channel ∈ world.channels.list, (route sourceEnvId targetScopeId).selects channel = true ∧
    channel.allowsType objectType = true

/-- So does one of the hundred newest. -/
def PermittedEarly (world : World) (sourceEnvId targetScopeId objectType : String) : Prop :=
  ∃ channel ∈ listChannels world.channels.list (route sourceEnvId targetScopeId) 100, channel.allowsType objectType = true

theorem PermittedEarly.permitted {world : World} {sourceEnvId targetScopeId objectType : String}
    (early : PermittedEarly world sourceEnvId targetScopeId objectType) :
    Permitted world sourceEnvId targetScopeId objectType := by
  obtain ⟨channel, member, allows⟩ := early
  obtain ⟨stored, selected⟩ := mem_listChannels member
  exact ⟨channel, stored, selected, allows⟩

theorem canFlow_on (sourceEnvId targetScopeId : String) (objectType : Option String) (world : World) :
    (canFlow none .environment sourceEnvId .scope targetScopeId objectType).on world =
      (.ok (resolve (listChannels world.channels.list (route sourceEnvId targetScopeId) 100) objectType), world) := rfl

variable (manager : PromotionManager) (env : Environments.Env) (request : Request) (world : World)

/-- A row is read and there. -/
def Found {α : Type} (fault : Option Raised) (row : Option α) : Prop := fault = none ∧ row.isSome = true

/-- The rule engine refuses. -/
def Denied (verdict : EvaluationResult) : Prop :=
  (!verdict.allowed && (!verdict.denyRules.isEmpty || !verdict.matchingRules.isEmpty)) = true

/-- Nothing stops the promotion before the object is projected. -/
structure Admitted : Prop where
  environment : Found (fault env request .environment) (world.environments.find request.sourceEnvId)
  scope : Found (fault env request .scope) (world.scopes.find request.targetScopeId)
  object : Found (fault env request .object) (world.objects.find request.objectId)
  stage : ∀ stageId, request.targetStageId = some stageId → Found (fault env request .stage) (world.stages.find stageId)
  channel : manager.flow = true → fault env request .channels = none ∧
    ∃ channel ∈ listChannels world.channels.list (route request.sourceEnvId request.targetScopeId) 100,
      permits request.objectType channel = true
  rules : ∃ objectType, (ruledType env request).Passes world objectType ∧ (manager.ruleEngine = true →
    fault env request .rules = none ∧ ¬ Denied (env.verdict request.objectId objectType))

/-- Nothing stops the projection before it is written. -/
structure Projectable (existing : Option ScopeProjection) : Prop where
  scope : fault env request .projectionScope = none ∧ ∃ scope, world.scopes.find request.targetScopeId = some scope ∧
    (scope.isFrozen || scope.isArchived) = false
  owner : fault env request .projectionObject = none ∧ ∃ object, world.objects.find request.objectId = some object ∧
    object.ownerId = request.promotedBy
  lookup : fault env request .projectionLookup = none ∧
    world.projections.find (request.targetScopeId, request.objectId) = existing

variable {manager env request world}

theorem found_reads {α : Type} (fault : Option Raised) (answer : World → Option α) (error : Raised) :
    Stateful.Reads (do
      let row ← Stateful.ask fault answer
      if row.isNone then throw error : Program Unit) := by
  exact .bind (.ask _ _) fun row => .guard _ _ _

theorem found_passes {α : Type} {fault : Option Raised} {answer : World → Option α} {error : Raised} :
    Stateful.Passes (do
      let row ← Stateful.ask fault answer
      if row.isNone then throw error : Program Unit) world () ↔ Found fault (answer world) := by
  rw [Stateful.Passes.bind_iff (.ask _ _)]
  constructor
  · rintro ⟨row, asked, rest⟩
    obtain ⟨fine, rfl⟩ := Stateful.Passes.ask_iff.mp asked
    refine ⟨fine, ?_⟩
    simpa [Option.isSome_iff_ne_none] using (Stateful.Passes.guard_iff.mp rest).1
  · rintro ⟨fine, present⟩
    refine ⟨answer world, Stateful.Passes.ask_iff.mpr ⟨fine, rfl⟩, Stateful.Passes.guard_iff.mpr ⟨?_, rfl⟩⟩
    simpa [Option.isSome_iff_ne_none] using present

theorem requireStageExists_reads : (requireStageExists env request).Reads := by
  unfold requireStageExists
  split
  · exact .pure _
  · exact found_reads _ _ _

theorem requireStageExists_passes : (requireStageExists env request).Passes world () ↔
    ∀ stageId, request.targetStageId = some stageId → Found (fault env request .stage) (world.stages.find stageId) := by
  unfold requireStageExists
  split
  next absent =>
    refine ⟨fun _ stageId same => ?_, fun _ => Stateful.Passes.pure_iff.mpr rfl⟩
    rw [absent] at same
    cases same
  next stageId given =>
    refine found_passes.trans ⟨?_, fun found => found stageId given⟩
    rintro found _ same
    rw [given] at same
    cases same
    exact found

theorem requireChannel_reads : (requireChannel manager env request).Reads := by
  unfold requireChannel
  split
  · exact .bind (.bind (.ask _ _) fun _ => .pure _) fun resolution => .guard _ _ _
  · exact .pure _

theorem requireChannel_passes : (requireChannel manager env request).Passes world () ↔
    (manager.flow = true → fault env request .channels = none ∧
      ∃ channel ∈ listChannels world.channels.list (route request.sourceEnvId request.targetScopeId) 100,
        permits request.objectType channel = true) := by
  unfold requireChannel
  cases manager.flow with
  | false => simpa using Stateful.Passes.pure_iff.mpr rfl
  | true =>
    simp only [if_true, true_implies]
    cases failure : fault env request .channels with
    | some error =>
      refine ⟨fun passed => ?_, nofun⟩
      cases passed
    | none =>
      rw [← resolve_allowed]
      simp only [true_and]
      have asked : (canFlow none .environment request.sourceEnvId .scope request.targetScopeId request.objectType).Reads :=
        .bind (.ask _ _) fun _ => .pure _
      rw [Stateful.Passes.bind_iff asked]
      constructor
      · rintro ⟨resolution, resolved, rest⟩
        cases resolved
        simpa [route] using (Stateful.Passes.guard_iff.mp rest).1
      · intro allowed
        exact ⟨_, rfl, Stateful.Passes.guard_iff.mpr ⟨by simpa [route] using allowed, rfl⟩⟩

theorem ruledType_reads : (ruledType env request).Reads := by
  unfold ruledType
  split
  · exact .ask _ _
  · exact .ask _ _
  · exact .pure _

theorem checkPromotionRules_reads (objectType : Option String) :
    (checkPromotionRules manager env request objectType).Reads := by
  unfold checkPromotionRules
  split
  · exact .bind (.ask _ _) fun result => .guard _ _ _
  · exact .pure _

theorem checkPromotionRules_passes {objectType : Option String} :
    (checkPromotionRules manager env request objectType).Passes world () ↔ (manager.ruleEngine = true →
      fault env request .rules = none ∧ ¬ Denied (env.verdict request.objectId objectType)) := by
  unfold checkPromotionRules
  cases manager.ruleEngine with
  | false => simpa using Stateful.Passes.pure_iff.mpr rfl
  | true =>
    simp only [if_true, true_implies]
    rw [Stateful.Passes.bind_iff (.ask _ _)]
    constructor
    · rintro ⟨result, asked, rest⟩
      obtain ⟨fine, rfl⟩ := Stateful.Passes.ask_iff.mp asked
      exact ⟨fine, (Stateful.Passes.guard_iff.mp rest).1⟩
    · rintro ⟨fine, admitted⟩
      exact ⟨_, Stateful.Passes.ask_iff.mpr ⟨fine, rfl⟩, Stateful.Passes.guard_iff.mpr ⟨admitted, rfl⟩⟩

theorem check_reads : (check manager env request).Reads :=
  .bind (found_reads _ _ _) fun _ => .bind (found_reads _ _ _) fun _ => .bind (found_reads _ _ _) fun _ =>
    .bind requireStageExists_reads fun _ => .bind requireChannel_reads fun _ => .bind ruledType_reads fun _ =>
      checkPromotionRules_reads _

theorem check_passes : (check manager env request).Passes world () ↔ Admitted manager env request world := by
  have environment : (requireEnvironmentExists env request).Reads := found_reads _ _ _
  have scope : (requireScopeExists env request).Reads := found_reads _ _ _
  have object : (requireObjectExists env request).Reads := found_reads _ _ _
  have steps : (check manager env request).Passes world () ↔
      (requireEnvironmentExists env request).Passes world () ∧ (requireScopeExists env request).Passes world () ∧
      (requireObjectExists env request).Passes world () ∧ (requireStageExists env request).Passes world () ∧
      (requireChannel manager env request).Passes world () ∧ ∃ objectType, (ruledType env request).Passes world objectType ∧
        (checkPromotionRules manager env request objectType).Passes world () := by
    unfold check
    rw [Stateful.Passes.then_iff environment, Stateful.Passes.then_iff scope, Stateful.Passes.then_iff object,
      Stateful.Passes.then_iff requireStageExists_reads, Stateful.Passes.then_iff requireChannel_reads,
      Stateful.Passes.bind_iff ruledType_reads]
  rw [steps, requireStageExists_passes, requireChannel_passes]
  constructor
  · rintro ⟨environment, scope, object, stage, channel, objectType, ruled, rules⟩
    exact ⟨found_passes.mp environment, found_passes.mp scope, found_passes.mp object, stage, channel,
      objectType, ruled, checkPromotionRules_passes.mp rules⟩
  · rintro ⟨environment, scope, object, stage, channel, objectType, ruled, rules⟩
    exact ⟨found_passes.mpr environment, found_passes.mpr scope, found_passes.mpr object, stage, channel,
      objectType, ruled, checkPromotionRules_passes.mpr rules⟩

theorem check_refuses (refused : ¬ Admitted manager env request world) :
    ∃ error, (check manager env request).on world = (.error error, world) :=
  check_reads.raises fun ⟨_, passed⟩ => refused (check_passes.mp passed)

theorem check_on (admitted : Admitted manager env request world) :
    (check manager env request).on world = (.ok (), world) := (check_passes.mpr admitted).on_eq check_reads

theorem checkProjection_reads : (checkProjection env request).Reads := by
  refine .bind (.ask _ _) fun scope => ?_
  split
  · exact .throw _
  · split
    · exact .throw _
    · refine .bind (.ask _ _) fun object => ?_
      split
      · exact .throw _
      · split
        · exact .throw _
        · exact .ask _ _

variable {existing : Option ScopeProjection}

theorem checkProjection_passes :
    (checkProjection env request).Passes world existing ↔ Projectable env request world existing := by
  constructor
  · intro passed
    unfold checkProjection at passed
    obtain ⟨row, asked, passed⟩ := (Stateful.Passes.bind_iff (.ask _ _)).mp passed
    obtain ⟨scopeRead, same⟩ := Stateful.Passes.ask_iff.mp asked
    split at passed
    · exact absurd passed Stateful.Passes.not_throw
    next row scope =>
      split at passed
      · exact absurd passed Stateful.Passes.not_throw
      next mutable =>
        obtain ⟨row, asked, passed⟩ := (Stateful.Passes.bind_iff (.ask _ _)).mp passed
        obtain ⟨objectRead, same'⟩ := Stateful.Passes.ask_iff.mp asked
        split at passed
        · exact absurd passed Stateful.Passes.not_throw
        next row object =>
          split at passed
          · exact absurd passed Stateful.Passes.not_throw
          next owner =>
            have last : (Stateful.ask (fault env request .projectionLookup) fun world =>
                world.projections.find (request.targetScopeId, request.objectId) : Program _).Passes world existing := passed
            have lookup := Stateful.Passes.ask_iff.mp last
            exact ⟨⟨scopeRead, scope, same, by simpa using mutable⟩, ⟨objectRead, object, same', not_not.mp owner⟩, lookup⟩
  · rintro ⟨⟨scopeRead, scope, same, mutable⟩, ⟨objectRead, object, same', owner⟩, lookup⟩
    unfold checkProjection
    refine (Stateful.Passes.bind_iff (.ask _ _)).mpr ⟨some scope, Stateful.Passes.ask_iff.mpr ⟨scopeRead, same⟩, ?_⟩
    dsimp only
    rw [mutable, if_neg Bool.false_ne_true]
    refine (Stateful.Passes.bind_iff (.ask _ _)).mpr ⟨some object, Stateful.Passes.ask_iff.mpr ⟨objectRead, same'⟩, ?_⟩
    dsimp only
    rw [if_neg (not_not.mpr owner)]
    exact Stateful.Passes.ask_iff.mpr lookup

theorem project_refuses (projections : ProjectionManager) (refused : ¬ ∃ existing, Projectable env request world existing) :
    ∃ error, (project env request projections).on world = (.error error, world) := by
  obtain ⟨error, raised⟩ := checkProjection_reads.raises fun ⟨existing, passed⟩ =>
    refused ⟨existing, checkProjection_passes.mp passed⟩
  refine ⟨error, ?_⟩
  unfold project
  rw [Stateful.on_bind, raised]

theorem project_on_projected (projections : ProjectionManager)
    (projectable : Projectable env request world existing) (projected : isProjected existing = true) :
    (project env request projections).on world = (.ok (), world) := by
  unfold project
  rw [Stateful.on_bind, (checkProjection_passes.mpr projectable).on_eq checkProjection_reads]
  dsimp only
  rw [if_pos projected]
  rfl

theorem project_on_fault (projections : ProjectionManager)
    (projectable : Projectable env request world existing) (missing : isProjected existing = false) {error : Raised}
    (failed : fault env request .project = some error) :
    (project env request projections).on world = (.error error, world) := by
  unfold project
  rw [Stateful.on_bind, (checkProjection_passes.mpr projectable).on_eq checkProjection_reads]
  dsimp only
  rw [if_neg (Bool.eq_false_iff.mp missing), Stateful.on_bind, failed, Stateful.on_assign_some]

theorem project_on_write (projections : ProjectionManager)
    (projectable : Projectable env request world existing) (missing : isProjected existing = false)
    (fine : fault env request .project = none) :
    (project env request projections).on world =
      (recordIf projections.audit (fault env request .traceProjection)
        ⟨request.promotedBy, .projection, "ScopeProjection", request.objectId, some request.targetScopeId⟩).on
        (writeProjection env request existing world) := by
  unfold project
  rw [Stateful.on_bind, (checkProjection_passes.mpr projectable).on_eq checkProjection_reads]
  dsimp only
  rw [if_neg (Bool.eq_false_iff.mp missing), Stateful.on_bind, fine, Stateful.on_assign_none]

/-- The audit writer, where one is wired, does not fail. -/
def Recorded (audit : Bool) (failure : Option Raised) : Prop := audit = true → failure = none

theorem recordIf_on (audit : Bool) (failure : Option Raised) (trace : Trace) (world : World) :
    ∃ result traces, (recordIf audit failure trace).on world = (result, { world with traces := traces }) ∧
      (result = .ok () ↔ Recorded audit failure) := by
  unfold Recorded
  cases audit with
  | false => exact ⟨.ok (), world.traces, rfl, by simp⟩
  | true =>
    cases failure with
    | some error => exact ⟨.error error, world.traces, rfl, by simp⟩
    | none => exact ⟨.ok (), trace :: world.traces, rfl, by simp⟩

theorem recordPromotion_on_fault {error : Raised} (failed : fault env request .promote = some error) :
    (recordPromotion manager env request).on world = (.error error, world) := by
  unfold recordPromotion
  dsimp only
  rw [Stateful.on_bind, failed, Stateful.on_assign_some]

theorem recordPromotion_on (fine : fault env request .promote = none) :
    ∃ result traces, (recordPromotion manager env request).on world =
      (result, { world with promotions := world.promotions ++ [promotion env request], traces := traces }) ∧
      ((∃ promo, result = .ok promo) ↔ Recorded manager.audit (fault env request .tracePromotion)) := by
  obtain ⟨recorded, traces, ran, returns⟩ := recordIf_on manager.audit (fault env request .tracePromotion)
    ⟨request.promotedBy, .promotion, "promotion", (promotion env request).id, some request.targetScopeId⟩
    { world with promotions := world.promotions ++ [promotion env request] }
  refine ⟨recorded.map fun _ => promotion env request, traces, ?_, ?_⟩
  · unfold recordPromotion
    dsimp only
    rw [Stateful.on_bind, fine, Stateful.on_assign_none]
    dsimp only
    rw [Stateful.on_bind_pure, ran]
  · rw [← returns]
    cases recorded <;> simp [Except.map]

/-- A projection of the call's own is written. -/
structure Projecting (manager : PromotionManager) (env : Environments.Env) (request : Request) (world : World) : Prop where
  admitted : Admitted manager env request world
  wired : manager.projections.isSome = true
  writes : ∃ existing, Projectable env request world existing ∧ isProjected existing = false ∧ fault env request .project = none

/-- Some projection is not what it was before. -/
def Projects (before after : World) : Prop :=
  ∃ scopeId objectId, after.projections.find (scopeId, objectId) ≠ before.projections.find (scopeId, objectId)

theorem find_reactivated {projections : Rows projectionAddress} {scopeId objectId : String} {row : ScopeProjection}
    (level : AccessLevel) (moment promotedBy : String) (lookup : projections.find (scopeId, objectId) = some row) :
    (projections.update (fun row => row.scopeId = scopeId && row.objectId = objectId) (reactivate level moment promotedBy)
      (fun _ => rfl)).find (scopeId, objectId) = some (reactivate level moment promotedBy row) := by
  have address := (Rows.find_eq_some.mp lookup).2
  simp only [projectionAddress, Prod.mk.injEq] at address
  have written := Rows.find_update projections (fun row => row.scopeId = scopeId && row.objectId = objectId)
    (reactivate level moment promotedBy) (fun _ => rfl) (scopeId, objectId)
  rw [lookup, Option.map_some, if_pos (by simp [address])] at written
  exact written

theorem writeProjection_find (lookup : world.projections.find (request.targetScopeId, request.objectId) = existing) :
    ∃ row, (writeProjection env request existing world).projections.find (request.targetScopeId, request.objectId) =
      some row ∧ row.lifecycle = .active := by
  cases existing with
  | some row => exact ⟨_, find_reactivated _ _ _ lookup, rfl⟩
  | none =>
    let proj : ScopeProjection := ⟨(env.ids (.promotion request.objectId .project)).text, request.targetScopeId,
      request.objectId, isoText (env.now (.promotion request.objectId .project)), request.promotedBy, request.accessLevel,
      .active⟩
    obtain ⟨projections, inserted⟩ : ∃ projections, world.projections.insert proj = some projections := by
      rw [← Option.isSome_iff_exists, ← Option.ne_none_iff_isSome, Ne, Rows.insert_eq_none]
      rw [show world.projections.find (projectionAddress proj) = none from lookup]
      exact Bool.false_ne_true
    refine ⟨proj, ?_, rfl⟩
    change ((world.projections.insert proj).getD world.projections).find (projectionAddress proj) = some proj
    rw [inserted, Option.getD_some, Rows.find_insert inserted, if_pos rfl]

theorem recordPromotion_projections (world : World) :
    ((recordPromotion manager env request).on world).2.projections = world.projections := by
  cases failure : fault env request .promote with
  | some error => rw [recordPromotion_on_fault failure]
  | none =>
    obtain ⟨result, traces, ran, -⟩ := @recordPromotion_on manager env request world failure
    rw [ran]

theorem promote_refuses (refused : ¬ Admitted manager env request world) :
    ∃ error, (promote manager env request).on world = (.error error, world) := by
  obtain ⟨error, raised⟩ := check_refuses refused
  refine ⟨error, ?_⟩
  unfold promote
  rw [Stateful.on_bind, raised]

theorem promote_on (admitted : Admitted manager env request world) : (promote manager env request).on world =
    match (projectWired manager env request).on world with
      | (.ok _, after) => (recordPromotion manager env request).on after
      | (.error error, after) => (.error error, after) := by
  unfold promote
  rw [Stateful.on_bind, check_on admitted]
  dsimp only
  rw [Stateful.on_bind]
  rcases (projectWired manager env request).on world with ⟨_ | _, after⟩ <;> rfl

theorem projectWired_some {projections : ProjectionManager} (wired : manager.projections = some projections) :
    projectWired manager env request = project env request projections := by
  unfold projectWired
  rw [wired]

/-- Nothing is projected but by what `Projecting` says. -/
theorem promote_projections (idle : ¬ Projecting manager env request world) :
    ((promote manager env request).on world).2.projections = world.projections := by
  by_cases admitted : Admitted manager env request world
  · have rest : ∀ {result : Except Raised Unit} {after : World}, (projectWired manager env request).on world = (result, after) →
        after = world → ((promote manager env request).on world).2.projections = world.projections := by
      rintro result after ran rfl
      rw [promote_on admitted, ran]
      cases result with
      | error error => rfl
      | ok done => exact recordPromotion_projections after
    cases wired : manager.projections with
    | none =>
      unfold projectWired at rest
      rw [wired] at rest
      exact rest rfl rfl
    | some projections =>
      rw [projectWired_some wired] at rest
      by_cases projectable : ∃ existing, Projectable env request world existing
      · obtain ⟨existing, projectable⟩ := projectable
        cases projected : isProjected existing with
        | true => exact rest (project_on_projected projections projectable projected) rfl
        | false =>
          cases failure : fault env request .project with
          | some error => exact rest (project_on_fault projections projectable projected failure) rfl
          | none => exact absurd ⟨admitted, by rw [wired]; rfl, existing, projectable, projected, failure⟩ idle
      · obtain ⟨error, raised⟩ := project_refuses projections projectable
        exact rest raised rfl
  · obtain ⟨error, raised⟩ := promote_refuses admitted
    rw [raised]

theorem promote_projects_of (projecting : Projecting manager env request world) :
    Projects world ((promote manager env request).on world).2 := by
  obtain ⟨admitted, wired, existing, projectable, projected, fine⟩ := projecting
  obtain ⟨projections, wired⟩ := Option.isSome_iff_exists.mp wired
  obtain ⟨recorded, traces, ran, -⟩ := recordIf_on projections.audit (fault env request .traceProjection)
    ⟨request.promotedBy, .projection, "ScopeProjection", request.objectId, some request.targetScopeId⟩
    (writeProjection env request existing world)
  have written : ((promote manager env request).on world).2.projections =
      (writeProjection env request existing world).projections := by
    rw [promote_on admitted, projectWired_some wired, project_on_write projections projectable projected fine, ran]
    cases recorded with
    | error error => rfl
    | ok done => exact recordPromotion_projections _
  obtain ⟨row, found, active⟩ := @writeProjection_find env request world existing projectable.lookup.2
  refine ⟨request.targetScopeId, request.objectId, ?_⟩
  rw [written, found, projectable.lookup.2]
  rintro rfl
  simp [isProjected, active] at projected

theorem promote_projects :
    Projects world ((promote manager env request).on world).2 ↔ Projecting manager env request world := by
  refine ⟨fun projects => ?_, promote_projects_of⟩
  by_contra idle
  obtain ⟨scopeId, objectId, unlike⟩ := projects
  exact unlike (by rw [promote_projections idle])

/-- The channels gate what is asked of them: `can_flow` says what the channels
permit, and a projection only comes of a permitted promotion. -/
structure Gated (manager : PromotionManager) (env : Environments.Env) (request : Request) (world : World) (objectType : String) : Prop where
  flows : ∃ resolution, (canFlow none .environment request.sourceEnvId .scope request.targetScopeId (some objectType)).on world =
    (.ok resolution, world) ∧
    (resolution.allowed = true ↔ Permitted world request.sourceEnvId request.targetScopeId objectType)
  promotes : Projects world ((promote manager env request).on world).2 →
    ∃ object, world.objects.find request.objectId = some object ∧
      Permitted world request.sourceEnvId request.targetScopeId object.objectType

/-- Channels gate a type and a promotion exactly where a channel that permits the
type is among the hundred newest of its route, if there is one, and where the
promotion is stopped before it projects, if no channel permits the stored type. -/
theorem gated_iff (objectType : String) : Gated manager env request world objectType ↔
    (Permitted world request.sourceEnvId request.targetScopeId objectType →
      PermittedEarly world request.sourceEnvId request.targetScopeId objectType) ∧
    (Projecting manager env request world → ∃ object, world.objects.find request.objectId = some object ∧
      Permitted world request.sourceEnvId request.targetScopeId object.objectType) := by
  have allowed : (resolve (listChannels world.channels.list (route request.sourceEnvId request.targetScopeId) 100)
      (some objectType)).allowed = true ↔ PermittedEarly world request.sourceEnvId request.targetScopeId objectType :=
    resolve_allowed _ _
  constructor
  · rintro ⟨⟨resolution, ran, told⟩, promotes⟩
    rw [canFlow_on] at ran
    cases ran
    exact ⟨fun permitted => allowed.mp (told.mpr permitted), fun projecting => promotes (promote_projects.mpr projecting)⟩
  · rintro ⟨early, promotes⟩
    exact ⟨⟨_, canFlow_on _ _ _ _, fun flows => (allowed.mp flows).permitted, fun permitted => allowed.mpr (early permitted)⟩,
      fun projects => promotes (promote_projects.mp projects)⟩

section Sample

/-- Every statement succeeds, and no rule matches. -/
def calm : Environments.Env where
  fault _ := none
  now _ := ⟨2024, 1, 2, 0, 0, 0, 0, by decide⟩
  ids _ := .repeated 1
  verdict _ _ := ⟨false, [], [], []⟩

def gating : PromotionManager := ⟨true, some ⟨false⟩, false, false⟩

def channel (name createdAt : String) (allowedTypes : List String) : FlowChannel :=
  ⟨name, name, .environment, "lab", .scope, "team", allowedTypes, "ann", createdAt, .active⟩

/-- An environment, a scope, a document, and the given channels. -/
def laboratory (channels : List FlowChannel) (unique : (channels.map FlowChannel.id).Nodup) : World where
  environments := ⟨[⟨"lab", "lab", "ann", "", none, none, .active, true, "2024-01-01T00:00:00+00:00", none, .obj []⟩], by decide⟩
  tracked := .empty
  objects := ⟨[⟨"doc", "Document", "ann", 1, ⟨2024, 1, 1, 0, 0, 0, 0, DateTime.newYear_bounded⟩, .active, none⟩], by decide⟩
  scopes := ⟨[⟨"team", "team", "ann", none, .active⟩], by decide⟩
  memberships := []
  projections := .empty
  channels := ⟨channels, unique⟩
  stages := .empty
  promotions := []
  traces := []

/-- The only channel lets reports through. -/
def reportsOnly : World := laboratory [channel "reports" "2024-01-01T00:00:00+00:00" ["Report"]] (by decide)

private theorem crowd_unique : (((List.range 100).map (fun n => channel (toString n) "2024-01-02T00:00:00+00:00" ["Report"]) ++
    [channel "documents" "2024-01-01T00:00:00+00:00" ["Document"]]).map FlowChannel.id).Nodup := by
  rw [List.map_append, List.map_map]
  refine List.nodup_append.mpr ⟨List.nodup_range.map fun first second same => Nat.repr_injective same, List.nodup_singleton _, ?_⟩
  rintro _ inside _ alone rfl
  obtain ⟨n, -, same⟩ := List.mem_map.mp inside
  have text : Nat.toDigits 10 n = "documents".toList :=
    Nat.toList_repr.symm.trans (congrArg String.toList (same.trans (List.mem_singleton.mp alone)))
  have digit : 'd'.isDigit = true :=
    Nat.isDigit_of_mem_toDigits (b := 10) (n := n) (by decide) (by decide) (text ▸ List.mem_cons_self)
  cases digit

/-- A hundred newer channels stand before the one that lets documents through. -/
def crowded : World :=
  laboratory ((List.range 100).map (fun n => channel (toString n) "2024-01-02T00:00:00+00:00" ["Report"]) ++
    [channel "documents" "2024-01-01T00:00:00+00:00" ["Document"]]) crowd_unique

/-- The document is promoted and no type is given. -/
def untyped : Request := ⟨"doc", "lab", "team", "ann", none, none, .read⟩

private theorem untyped_projects : Projecting gating calm untyped reportsOnly := by
  refine ⟨⟨⟨rfl, rfl⟩, ⟨rfl, rfl⟩, ⟨rfl, rfl⟩, nofun, fun _ => ⟨rfl, ?_⟩, ?_⟩, rfl, none, ?_, rfl, rfl⟩
  · exact ⟨channel "reports" "2024-01-01T00:00:00+00:00" ["Report"], by decide, rfl⟩
  · exact ⟨some "Document", rfl, nofun⟩
  · exact ⟨⟨rfl, _, rfl, rfl⟩, ⟨rfl, _, rfl, rfl⟩, rfl, rfl⟩

/-- The hundred newer channels fill the listing. -/
private theorem crowded_refuses :
    (resolve (listChannels crowded.channels.list (route "lab" "team") 100) (some "Document")).allowed = false := by
  have selected : crowded.channels.list.filter (route "lab" "team").selects = crowded.channels.list := by
    refine List.filter_eq_self.mpr fun each member => ?_
    obtain member | member := List.mem_append.mp member
    · obtain ⟨n, -, rfl⟩ := List.mem_map.mp member
      simp [route, Route.selects, channel, FlowChannel.isActive]
    · rw [List.mem_singleton.mp member]
      simp [route, Route.selects, channel, FlowChannel.isActive]
  have ordered : crowded.channels.list.Pairwise fun first second => second.createdAt ≤ first.createdAt := by
    refine List.pairwise_append.mpr ⟨List.pairwise_map.mpr (List.pairwise_of_forall fun _ _ => String.le_refl _),
      List.pairwise_singleton _ _, fun first inside last alone => ?_⟩
    obtain ⟨n, -, rfl⟩ := List.mem_map.mp inside
    rw [List.mem_singleton.mp alone]
    exact (by decide : "2024-01-01T00:00:00+00:00" ≤ "2024-01-02T00:00:00+00:00")
  have listed : listChannels crowded.channels.list (route "lab" "team") 100 =
      (List.range 100).map fun n => channel (toString n) "2024-01-02T00:00:00+00:00" ["Report"] := by
    unfold listChannels
    rw [selected, ordered.insertionSort_eq]
    exact List.take_left' (by simp)
  have nothing : ((List.range 100).map fun n => channel (toString n) "2024-01-02T00:00:00+00:00" ["Report"]).find?
      (permits (some "Document")) = none := by
    refine List.find?_eq_none.mpr fun each member => ?_
    obtain ⟨n, -, rfl⟩ := List.mem_map.mp member
    simp [permits, channel, FlowChannel.allowsType]
  rw [listed]
  unfold resolve
  rw [nothing]
  split <;> rfl

/-- A promotion without a type goes through a channel that does not permit the
stored one, and a permitted type is refused where a hundred newer channels stand
before its channel. -/
theorem channels_ungated :
    (¬ Gated gating calm untyped reportsOnly "Document" ∧ Projects reportsOnly ((promote gating calm untyped).on reportsOnly).2 ∧
      ¬ Permitted reportsOnly "lab" "team" "Document") ∧
    ¬ Gated gating calm untyped crowded "Document" ∧ Permitted crowded "lab" "team" "Document" := by
  have refused : ¬ Permitted reportsOnly "lab" "team" "Document" := by
    rintro ⟨channel, member, -, allows⟩
    rw [List.mem_singleton.mp member] at allows
    exact absurd allows (by decide)
  have projects := promote_projects_of untyped_projects
  have permitted : Permitted crowded "lab" "team" "Document" :=
    ⟨channel "documents" "2024-01-01T00:00:00+00:00" ["Document"], List.mem_append_right _ (List.mem_singleton_self _), rfl, rfl⟩
  refine ⟨⟨fun gated => ?_, projects, refused⟩, fun gated => ?_, permitted⟩
  · obtain ⟨object, found, permitted⟩ := gated.promotes projects
    have stored : object.objectType = "Document" := by
      cases found
      rfl
    rw [stored] at permitted
    exact refused permitted
  · obtain ⟨resolution, ran, told⟩ := gated.flows
    rw [canFlow_on] at ran
    -- Taking the equation apart by cases would sort the hundred channels.
    have resolved := Except.ok.inj (Prod.mk.inj ran).1
    have allowed := told.mpr permitted
    rw [← resolved] at allowed
    exact Bool.false_ne_true (crowded_refuses.symm.trans allowed)

end Sample
end PromotionManager
end PyScoped.Legacy
