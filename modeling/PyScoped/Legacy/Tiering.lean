import PyScoped.Foundation.Instants
import PyScoped.Foundation.Overwrites
import PyScoped.Foundation.Rows
import PyScoped.Foundation.Stateful
import PyScoped.Legacy.Errors
import PyScoped.Legacy.Objects

/-! Storage tiers of version 1. Retention policies are evaluated against the
tiers that the object versions are in; their candidates are then assigned one
after the other. -/

namespace PyScoped.Legacy.Tiering
open Foundation

inductive StorageTier where
  | hot | warm | cold | glacial
  deriving DecidableEq, Repr

namespace StorageTier

def name : StorageTier → String
  | .hot => "HOT"
  | .warm => "WARM"
  | .cold => "COLD"
  | .glacial => "GLACIAL"

def rank : StorageTier → Nat
  | .hot => 0
  | .warm => 1
  | .cold => 2
  | .glacial => 3

end StorageTier

inductive ConditionType where
  | ageDays | lifecycleState
  deriving DecidableEq, Repr

def ConditionType.ofText (text : String) : Option ConditionType :=
  if text = "age_days" then some .ageDays else if text = "lifecycle_state" then some .lifecycleState else none

def ConditionType.text : ConditionType → String
  | .ageDays => "age_days"
  | .lifecycleState => "lifecycle_state"

structure TierAssignment where
  id : String
  objectId : String
  version : Nat
  tier : StorageTier
  assignedAt : Moment
  assignedBy : String
  previousTier : Option StorageTier

/-- The columns of the unique constraint. -/
def TierAssignment.address (assignment : TierAssignment) : String × Nat := (assignment.objectId, assignment.version)

/-- A row of `retention_policies`, as `create_policy` lets it in. -/
structure RetentionPolicy where
  id : String
  name : String
  description : String
  sourceTier : StorageTier
  targetTier : StorageTier
  conditionType : ConditionType
  conditionValue : String
  objectType : Option String
  scopeId : Option String
  ownerId : String
  createdAt : Moment
  lifecycle : Lifecycle
  colder : sourceTier.rank < targetTier.rank

structure TierTransitionCandidate where
  objectId : String
  version : Nat
  currentTier : StorageTier
  targetTier : StorageTier
  policyId : String
  reason : String

def TierTransitionCandidate.address (candidate : TierTransitionCandidate) : String × Nat :=
  (candidate.objectId, candidate.version)

structure World where
  assignments : Rows TierAssignment.address
  objects : Rows ScopedObject.id
  policies : List RetentionPolicy

/-- What the clock reads throughout, the identifiers that are generated, and
what `int` makes of a text. -/
structure Env where
  now : Moment
  ids : Nat → ScopedId
  int : String → Option Int

abbrev Program := Stateful World Raised

def World.tierOf (world : World) (address : String × Nat) : Option StorageTier :=
  (world.assignments.find address).map TierAssignment.tier

/-- What `create_policy` inserts, unless it refuses. -/
def createPolicy (env : Env) (name : String) (sourceTier targetTier : StorageTier) (conditionType conditionValue ownerId : String)
    (description : String) (objectType scopeId : Option String) : Except Raised RetentionPolicy :=
  if colder : sourceTier.rank < targetTier.rank then
    match ConditionType.ofText conditionType with
    | some condition => .ok {
        id := (env.ids 0).text
        name, description, sourceTier, targetTier
        conditionType := condition
        conditionValue, objectType, scopeId, ownerId
        createdAt := env.now
        lifecycle := .active
        colder }
    | none => .error (.other ("Unknown condition type: " ++ conditionType))
  else .error (.other
    ("Target tier (" ++ targetTier.name ++ ") must be colder than source tier (" ++ sourceTier.name ++ ")"))

/-- `WHERE lifecycle != 'ARCHIVED'` -/
def World.livePolicies (world : World) : List RetentionPolicy := world.policies.filter fun policy => policy.lifecycle ≠ .archived

/-- `ORDER BY created_at DESC`; policies of one time keep their order. -/
def World.listPolicies (world : World) : List RetentionPolicy :=
  world.livePolicies.insertionSort fun first second => second.createdAt.instant ≤ first.createdAt.instant

/-- `now_utc() - timedelta(days=age_days)`, in microseconds. -/
def cutoff (env : Env) (ageDays : Int) : Except Raised Int :=
  if 999999999 < ageDays.natAbs then
    .error (.other ("days=" ++ toString ageDays ++ "; must have magnitude <= 999999999"))
  else if 0 ≤ env.now.instant - ageDays * 86400000000 ∧ env.now.instant - ageDays * 86400000000 < 315537897600000000 then
    .ok (env.now.instant - ageDays * 86400000000)
  else .error (.other "date value out of range")

/-- `_matches_condition` -/
def matchesCondition (env : Env) (world : World) (assignment : TierAssignment) (policy : RetentionPolicy) :
    Except Raised Bool :=
  match policy.conditionType with
  | .ageDays =>
    match env.int policy.conditionValue with
    | none => .error (.other ("invalid literal for int() with base 10: '" ++ policy.conditionValue ++ "'"))
    | some ageDays => (cutoff env ageDays).map fun cutoff => assignment.assignedAt.instant < cutoff
  | .lifecycleState => .ok <|
    match world.objects.find assignment.objectId with
    | none => false
    | some object => object.lifecycle.name = policy.conditionValue

/-- The rows in the source tier; with an object type, those whose object has it. -/
def World.inSource (world : World) (policy : RetentionPolicy) : List TierAssignment :=
  world.assignments.list.filter fun assignment => assignment.tier = policy.sourceTier &&
    policy.objectType.all fun objectType =>
      (world.objects.find assignment.objectId).any fun object => object.objectType = objectType

def candidate (policy : RetentionPolicy) (assignment : TierAssignment) : TierTransitionCandidate where
  objectId := assignment.objectId
  version := assignment.version
  currentTier := assignment.tier
  targetTier := policy.targetTier
  policyId := policy.id
  reason := "Policy '" ++ policy.name ++ "': " ++ policy.conditionType.text ++ "=" ++ policy.conditionValue

/-- `_evaluate_policy` -/
def evaluatePolicy (env : Env) (world : World) (policy : RetentionPolicy) : Except Raised (List TierTransitionCandidate) := do
  let matching ← filterEach (fun assignment => matchesCondition env world assignment policy) (world.inSource policy)
  return matching.map (candidate policy)

/-- `evaluate_policies`, with the policies as they are listed. -/
def evaluateListed (env : Env) (world : World) (listed : List RetentionPolicy) :
    Except Raised (List TierTransitionCandidate) := do
  let found ← listed.mapM (evaluatePolicy env world)
  return found.flatten

def evaluatePolicies (env : Env) (world : World) : Except Raised (List TierTransitionCandidate) :=
  evaluateListed env world world.listPolicies

def getTier (objectId : String) (version : Nat) : Program (Option TierAssignment) := do
  return (← get).assignments.find (objectId, version)

/-- An assignment made anew. -/
def reassigned (env : Env) (tier : StorageTier) (principalId : String) (assignment : TierAssignment) : TierAssignment :=
  { assignment with
    tier := tier
    assignedAt := env.now
    assignedBy := principalId
    previousTier := some assignment.tier }

theorem reassigned_address (env : Env) (tier : StorageTier) (principalId : String) (assignment : TierAssignment) :
    (reassigned env tier principalId assignment).address = assignment.address := rfl

def assignTier (env : Env) (id : ScopedId) (objectId : String) (version : Nat) (tier : StorageTier) (principalId : String) :
    Program TierAssignment := do
  let existing ← getTier objectId version
  match existing with
  | some assignment =>
    modify fun world => { world with
      assignments := world.assignments.update (fun row => row.address = (objectId, version))
        (reassigned env tier principalId) (reassigned_address env tier principalId) }
    return reassigned env tier principalId assignment
  | none =>
    let assignment : TierAssignment := ⟨id.text, objectId, version, tier, env.now, principalId, none⟩
    match (← get).assignments.insert assignment with
    | some assignments =>
      modify fun world => { world with assignments := assignments }
      return assignment
    | none => throw (.unique "tier_assignments")

def applyEach (env : Env) (principalId : String) : Nat → List TierTransitionCandidate → Program Nat
  | count, [] => return count
  | count, candidate :: candidates => do
    let _ ← assignTier env (env.ids count) candidate.objectId candidate.version candidate.targetTier principalId
    applyEach env principalId (count + 1) candidates

/-- How many transitions were applied. -/
def applyTransitions (env : Env) (principalId : String) (candidates : List TierTransitionCandidate) : Program Nat :=
  applyEach env principalId 0 candidates

/-- `apply_transitions(evaluate_policies())`, with the policies as they are listed. -/
def transitions (env : Env) (principalId : String) (listed : List RetentionPolicy) : Program Nat := do
  let candidates ← evaluateListed env (← get) listed
  applyTransitions env principalId candidates

end PyScoped.Legacy.Tiering
