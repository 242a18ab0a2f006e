import PyScoped.Legacy.Tiering

/-! When the tiers that retention policies lead to do not depend on the order of
the policies. Every candidate is colder than the tier it was found in; of several
for one version the last one stays. -/

namespace PyScoped.Legacy.Tiering
open Foundation

variable (env : Env) (world : World) (principalId : String)

/-- What the candidates write, tier by tier. -/
def writesOf (candidates : List TierTransitionCandidate) : List ((String × Nat) × Option StorageTier) :=
  candidates.map fun candidate => (candidate.address, some candidate.targetTier)

theorem assignTier_on (id : ScopedId) (objectId : String) (version : Nat) (tier : StorageTier) :
    ∃ assignment after, (assignTier env id objectId version tier principalId).on world = (.ok assignment, after) ∧
      after.tierOf = Function.update world.tierOf (objectId, version) (some tier) := by
  unfold assignTier getTier
  simp only [Stateful.on_bind, Stateful.on_get, Stateful.on_pure]
  cases found : world.assignments.find (objectId, version) with
  | some assignment =>
    refine ⟨_, _, rfl, ?_⟩
    funext address
    unfold World.tierOf
    rw [Rows.find_update]
    by_cases same : address = (objectId, version)
    · subst address
      have own : assignment.address = (objectId, version) := (Rows.find_eq_some.mp found).2
      simp [found, own, reassigned]
    · rw [Function.update_of_ne same]
      cases other : world.assignments.find address with
      | none => rfl
      | some row =>
        have own : row.address = address := (Rows.find_eq_some.mp other).2
        simp [own, same]
  | none =>
    cases inserted : world.assignments.insert ⟨id.text, objectId, version, tier, env.now, principalId, none⟩ with
    | none =>
      have taken := Rows.insert_eq_none.mp inserted
      rw [show TierAssignment.address ⟨id.text, objectId, version, tier, env.now, principalId, none⟩ = (objectId, version) from rfl,
        found] at taken
      cases taken
    | some assignments =>
      refine ⟨_, _, by simp only [Stateful.on_bind, Stateful.on_get, inserted]; rfl, ?_⟩
      funext address
      unfold World.tierOf
      rw [Rows.find_insert inserted, Function.update_apply]
      by_cases same : address = (objectId, version) <;> simp [same, TierAssignment.address]

theorem applyEach_on (candidates : List TierTransitionCandidate) (count : Nat) :
    ∃ after, (applyEach env principalId count candidates).on world = (.ok (count + candidates.length), after) ∧
      after.tierOf = overwrite (writesOf candidates) world.tierOf := by
  induction candidates generalizing world count with
  | nil => exact ⟨world, rfl, rfl⟩
  | cons candidate candidates ih =>
    obtain ⟨assignment, between, assigned, tiers⟩ :=
      assignTier_on env world principalId (env.ids count) candidate.objectId candidate.version candidate.targetTier
    obtain ⟨after, ran, rest⟩ := ih between (count + 1)
    refine ⟨after, ?_, ?_⟩
    · unfold applyEach
      rw [Stateful.on_bind, assigned]
      dsimp only
      rw [ran, List.length_cons, Nat.add_right_comm, Nat.add_assoc]
    · rw [rest, tiers]
      rfl

/-- The policy selects the version: it is in its source tier, of its object
type, and meets its condition. -/
def Selects (policy : RetentionPolicy) (assignment : TierAssignment) : Prop :=
  assignment ∈ world.inSource policy ∧ matchesCondition env world assignment policy = .ok true

/-- The condition of some policy cannot be evaluated for a version in its source tier. -/
def Unreadable : Prop :=
  ∃ policy ∈ world.livePolicies, ∃ assignment ∈ world.inSource policy, ∃ error,
    matchesCondition env world assignment policy = .error error

/-- Policies that select one version have one target. -/
def Unanimous : Prop :=
  ∀ policy ∈ world.livePolicies, ∀ other ∈ world.livePolicies, ∀ assignment,
    Selects env world policy assignment → Selects env world other assignment → policy.targetTier = other.targetTier

/-- The candidates of a policy whose condition can be evaluated. -/
def candidatesOf (policy : RetentionPolicy) : List TierTransitionCandidate :=
  ((world.inSource policy).filter fun assignment =>
    (matchesCondition env world assignment policy).toOption == some true).map (candidate policy)

variable {env world}
variable {policy : RetentionPolicy}

private theorem mem_writesOf {write : (String × Nat) × Option StorageTier} :
    write ∈ writesOf (candidatesOf env world policy) ↔
      ∃ assignment, Selects env world policy assignment ∧ write = (assignment.address, some policy.targetTier) := by
  unfold writesOf candidatesOf
  simp only [List.mem_map, List.mem_filter, exists_exists_and_eq_and, Selects]
  apply exists_congr
  intro assignment
  have holds : (matchesCondition env world assignment policy).toOption = some true ↔
      matchesCondition env world assignment policy = .ok true := by
    cases matchesCondition env world assignment policy <;> simp [Except.toOption]
  rw [beq_iff_eq, holds]
  constructor
  · intro ⟨selected, same⟩
    exact ⟨selected, same.symm⟩
  · intro ⟨selected, same⟩
    exact ⟨selected, same.symm⟩

theorem evaluatePolicy_ok (clean : ∀ assignment ∈ world.inSource policy, ∀ error,
    matchesCondition env world assignment policy ≠ .error error) :
    evaluatePolicy env world policy = .ok (candidatesOf env world policy) := by
  unfold evaluatePolicy
  rw [filterEach_ok clean]
  rfl

variable {listed : List RetentionPolicy}

theorem evaluateListed_ok (order : listed.Perm world.livePolicies) (readable : ¬ Unreadable env world) :
    evaluateListed env world listed = .ok (listed.flatMap (candidatesOf env world)) := by
  unfold evaluateListed
  rw [mapM_ok (candidatesOf env world) fun policy member => evaluatePolicy_ok fun assignment inside error raised =>
    readable ⟨policy, order.mem_iff.mp member, assignment, inside, error, raised⟩]
  rfl

theorem evaluateListed_error (order : listed.Perm world.livePolicies)
    (unreadable : Unreadable env world) : ∃ error, evaluateListed env world listed = .error error := by
  obtain ⟨policy, member, assignment, inside, error, raised⟩ := unreadable
  obtain ⟨first, stuck⟩ := filterEach_error (fun assignment => matchesCondition env world assignment policy) inside raised
  have raises : evaluatePolicy env world policy = .error first := by
    unfold evaluatePolicy
    rw [stuck]
    rfl
  obtain ⟨error, stuck⟩ := mapM_error (order.mem_iff.mpr member) raises
  refine ⟨error, ?_⟩
  unfold evaluateListed
  rw [stuck]
  rfl

variable (env world)

/-- The tiers once the transitions are applied. -/
def settled (listed : List RetentionPolicy) : String × Nat → Option StorageTier :=
  ((transitions env principalId listed).on world).2.tierOf

variable {env world}

private theorem settled_unreadable (order : listed.Perm world.livePolicies)
    (unreadable : Unreadable env world) : settled env world principalId listed = world.tierOf := by
  obtain ⟨error, stuck⟩ := evaluateListed_error order unreadable
  unfold settled transitions
  rw [Stateful.on_bind, Stateful.on_get]
  dsimp only
  rw [stuck]
  rfl

private theorem settled_readable (order : listed.Perm world.livePolicies)
    (readable : ¬ Unreadable env world) : settled env world principalId listed =
      overwrite (listed.flatMap fun policy => writesOf (candidatesOf env world policy)) world.tierOf := by
  obtain ⟨after, applied, tiers⟩ := applyEach_on env world principalId (listed.flatMap (candidatesOf env world)) 0
  have whole : (transitions env principalId listed).on world = (.ok (0 + (listed.flatMap (candidatesOf env world)).length), after) := by
    unfold transitions applyTransitions
    rw [Stateful.on_bind, Stateful.on_get]
    dsimp only
    rw [evaluateListed_ok order readable, Stateful.on_bind]
    exact applied
  unfold settled
  rw [whole]
  dsimp only
  rw [tiers]
  unfold writesOf
  rw [List.map_flatMap]

private theorem Selects.found {assignment : TierAssignment} (selects : Selects env world policy assignment) :
    world.assignments.find assignment.address = some assignment ∧ assignment.tier = policy.sourceTier := by
  have member := List.mem_filter.mp selects.1
  refine ⟨Rows.find_mem member.1, ?_⟩
  have chosen := member.2
  simp only [Bool.and_eq_true, decide_eq_true_eq] at chosen
  exact chosen.1

theorem settled_cools (order : listed.Perm world.livePolicies) {address : String × Nat}
    {tier : StorageTier} (was : world.tierOf address = some tier) :
    ∃ colder, settled env world principalId listed address = some colder ∧ tier.rank ≤ colder.rank := by
  by_cases readable : Unreadable env world
  · rw [settled_unreadable principalId order readable]
    exact ⟨tier, was, le_refl _⟩
  · rw [settled_readable principalId order readable]
    rcases Overwrite.kept_or_written (listed.flatMap fun policy => writesOf (candidatesOf env world policy)) world.tierOf address
      with kept | ⟨write, member, named, written⟩
    · exact ⟨tier, kept.trans was, le_refl _⟩
    · obtain ⟨policy, -, inside⟩ := List.mem_flatMap.mp member
      obtain ⟨assignment, selects, rfl⟩ := mem_writesOf.mp inside
      obtain ⟨found, source⟩ := selects.found
      have own : assignment.tier = tier := by
        rw [← named, World.tierOf, found] at was
        exact Option.some.inj was
      refine ⟨policy.targetTier, written, ?_⟩
      rw [← own, source]
      exact policy.colder.le

private theorem settled_confluent_iff (readable : ¬ Unreadable env world) :
    (∀ one two : List RetentionPolicy, one.Perm world.livePolicies → two.Perm world.livePolicies →
      settled env world principalId one = settled env world principalId two) ↔ Unanimous env world := by
  have each : ∀ address, ∀ policy ∈ world.livePolicies, ∀ value other,
      (address, value) ∈ writesOf (candidatesOf env world policy) →
      (address, other) ∈ writesOf (candidatesOf env world policy) → value = other := by
    intro address policy _ value other one two
    obtain ⟨_, -, same⟩ := mem_writesOf.mp one
    obtain ⟨_, -, same'⟩ := mem_writesOf.mp two
    rw [(Prod.mk.inj same).2, (Prod.mk.inj same').2]
  constructor
  · intro orderless policy member other member' assignment selects selects'
    have agree := (Overwrite.confluent_iff world.tierOf assignment.address (each assignment.address)).mp
      (fun one two first second => by
        rw [← settled_readable principalId first readable, ← settled_readable principalId second readable]
        rw [orderless one two first second])
    exact Option.some.inj (agree policy member other member' _ _ (mem_writesOf.mpr ⟨assignment, selects, rfl⟩)
      (mem_writesOf.mpr ⟨assignment, selects', rfl⟩))
  · intro unanimous one two first second
    funext address
    rw [settled_readable principalId first readable, settled_readable principalId second readable]
    refine (Overwrite.confluent_iff world.tierOf address (each address)).mpr ?_ one two first second
    intro policy member other member' value value' one two
    obtain ⟨assignment, selects, same⟩ := mem_writesOf.mp one
    obtain ⟨assignment', selects', same'⟩ := mem_writesOf.mp two
    obtain ⟨here, rfl⟩ := Prod.mk.inj same
    obtain ⟨there, rfl⟩ := Prod.mk.inj same'
    have found := selects.found.1
    rw [← here, there, selects'.found.1] at found
    obtain rfl := Option.some.inj found
    exact congrArg some (unanimous policy member other member' assignment' selects selects')

variable (env world)

/-- What transitions are for: versions only cool, and the order of the policies does not matter. -/
structure Settles : Prop where
  cools : ∀ listed : List RetentionPolicy, listed.Perm world.livePolicies → ∀ address tier, world.tierOf address = some tier →
    ∃ colder, settled env world principalId listed address = some colder ∧ tier.rank ≤ colder.rank
  orderless : ∀ one two : List RetentionPolicy, one.Perm world.livePolicies → two.Perm world.livePolicies →
    settled env world principalId one = settled env world principalId two

/-- The transitions settle if and only if the policies that select one version
have one target, or some condition cannot be evaluated and nothing is applied. -/
theorem settles_iff : Settles env world principalId ↔ Unreadable env world ∨ Unanimous env world := by
  by_cases readable : Unreadable env world
  · refine ⟨fun _ => .inl readable, fun _ => ⟨fun listed order address tier was => settled_cools principalId order was, ?_⟩⟩
    intro one two first second
    rw [settled_unreadable principalId first readable, settled_unreadable principalId second readable]
  · constructor
    · intro settles
      exact .inr ((settled_confluent_iff principalId readable).mp settles.orderless)
    · intro condition
      have unanimous := condition.resolve_left readable
      exact ⟨fun listed order address tier was => settled_cools principalId order was,
        (settled_confluent_iff principalId readable).mpr unanimous⟩

section Sample

private def january : Moment := .of 63840000000000000 (by decide)

private def cooling (id : String) (target : StorageTier) (colder : StorageTier.hot.rank < target.rank) : RetentionPolicy where
  id := id
  name := id
  description := ""
  sourceTier := .hot
  targetTier := target
  conditionType := .lifecycleState
  conditionValue := "ARCHIVED"
  objectType := none
  scopeId := none
  ownerId := "ann"
  createdAt := january
  lifecycle := .active
  colder := colder

private def toWarm : RetentionPolicy := cooling "warm" .warm (by decide)

private def toGlacial : RetentionPolicy := cooling "glacial" .glacial (by decide)

/-- An archived document in the hot tier, and two policies for archived objects there. -/
def archivedDocument : World where
  assignments := ⟨[⟨"a", "doc", 1, .hot, january, "ann", none⟩], by decide⟩
  objects := ⟨[⟨"doc", "Document", "ann", 1, ⟨2024, 1, 1, 0, 0, 0, 0, DateTime.newYear_bounded⟩, .archived, none⟩], by decide⟩
  policies := [toGlacial, toWarm]

def quiet : Env := ⟨january, fun _ => .repeated 1, fun _ => none⟩

private theorem glacial_then_warm :
    settled quiet archivedDocument "ann" [toGlacial, toWarm] ("doc", 1) = some .warm := by
  decide +kernel

private theorem warm_then_glacial :
    settled quiet archivedDocument "ann" [toWarm, toGlacial] ("doc", 1) = some .glacial := by
  decide +kernel

/-- Two policies for one version: the last one listed decides, and takes a
sealed version back to a warmer tier. -/
theorem archived_document_unsettled : ¬ Settles quiet archivedDocument "ann" := by
  intro settles
  have same := settles.orderless [toGlacial, toWarm] [toWarm, toGlacial] (.refl _) (.swap toGlacial toWarm [])
  have tier := congrFun same ("doc", 1)
  rw [glacial_then_warm, warm_then_glacial] at tier
  cases tier

end Sample
end PyScoped.Legacy.Tiering
