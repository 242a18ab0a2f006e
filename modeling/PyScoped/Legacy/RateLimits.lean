import PyScoped.Foundation.Instants
import PyScoped.Foundation.Stateful
import PyScoped.Legacy.Errors
import PyScoped.Legacy.Rules

/-! Rate limits of version 1: the checker counts rows of the audit trail, which
the manager writes for the objects that it creates. -/

namespace PyScoped.Legacy.RateLimits
open Foundation

structure RateLimitConfig where
  maxCount : Int
  windowSeconds : Int

/-- The `action` of a rule's conditions. -/
inductive ActionCondition where
  | absent
  | oneOf (allowed : List String)
  | only (allowed : String)

/-- A rule with what a checker reads of it. -/
structure RateLimitRule where
  id : String
  ruleType : RuleType
  lifecycle : Lifecycle
  action : ActionCondition
  rateLimit : Option RateLimitConfig

def RateLimitRule.isActive (rule : RateLimitRule) : Bool := rule.lifecycle == .active

/-- The columns of `audit_trail` that an entry's caller decides, and its timestamp. -/
structure TraceRow where
  actorId : String
  action : String
  targetType : String
  targetId : String
  scopeId : Option String
  timestamp : String

structure RateLimitResult where
  allowed : Bool
  currentCount : Nat
  maxCount : Int
  windowSeconds : Int
  ruleId : String
  retryAfterSeconds : Option Int

/-- The rules that a checker keeps. -/
def heldRules (given : List RateLimitRule) : List RateLimitRule :=
  given.filter fun rule => rule.ruleType == .rateLimit && rule.isActive

def actionMatches (rule : RateLimitRule) (action : String) : Bool :=
  match rule.action with
  | .absent => true
  | .oneOf allowed => action ∈ allowed
  | .only allowed => action = allowed

/-- `now_utc() - timedelta(seconds=window_seconds)` -/
def cutoff (now : Moment) (windowSeconds : Int) : Except Raised Moment :=
  if windowSeconds / 86400 < -999999999 ∨ 999999999 < windowSeconds / 86400 then
    .error (.other "timedelta must have magnitude <= 999999999 days")
  else if within : 0 ≤ now.instant - windowSeconds * 1000000 ∧
      now.instant - windowSeconds * 1000000 < 315537897600000000 then
    .ok (.of (now.instant - windowSeconds * 1000000).toNat (by omega))
  else .error (.other "date value out of range")

/-- The clauses of the count; texts are compared. -/
def counted (action : String) (principalId scopeId : Option String) (cutoffIso : String) (row : TraceRow) : Bool :=
  row.action = action && decide (cutoffIso ≤ row.timestamp) && principalId.all (fun principal => row.actorId = principal) &&
    scopeId.all fun scope => row.scopeId = some scope

def countActions (trail : List TraceRow) (now : Moment) (action : String) (principalId scopeId : Option String)
    (windowSeconds : Int) : Except Raised Nat := do
  let cutoff ← cutoff now windowSeconds
  return trail.countP (counted action principalId scopeId cutoff.isoformat)

/-- The first violation. Each rule reads the clock when it is its turn. -/
def check (trail : List TraceRow) (reads : Nat → Moment) (action : String) (principalId scopeId : Option String) :
    List (RateLimitRule × Nat) → Except Raised (Option RateLimitResult)
  | [] => .ok none
  | (rule, turn) :: rules =>
    if !actionMatches rule action then check trail reads action principalId scopeId rules
    else match rule.rateLimit with
      | none => check trail reads action principalId scopeId rules
      | some config => do
        let count ← countActions trail (reads turn) action principalId scopeId config.windowSeconds
        if config.maxCount ≤ count then
          return some ⟨false, count, config.maxCount, config.windowSeconds, rule.id, some config.windowSeconds⟩
        else check trail reads action principalId scopeId rules

/-- An error of something else than a rate limit. -/
structure Other where
  error : Raised
  other : ∀ message context, error ≠ .scoped .rateLimitExceeded message context

/-- A call of `create`: its arguments, the clock when each rule is counted and
when the entry is written, and what else stops it: the type of the data or a
rule before the rate limit, a quota or the storage behind it, and the trail. -/
structure Creation where
  objectType : String
  ownerId : String
  scopeId : Option String
  objectId : String
  reads : Nat → Moment
  recorded : Moment
  denied : Option Other
  failed : Option Other
  unrecorded : Option Other

abbrev Program := Stateful (List TraceRow) Raised

def stopAt (stop : Option Other) : Program Unit :=
  match stop with
  | some stop => throw stop.error
  | none => pure ()

/-- `AuditWriter.record` -/
def record (fault : Option Other) (actorId : String) (action : ActionType) (targetType targetId : String)
    (scopeId : Option String) (ts : Moment) : Program Unit := do
  stopAt fault
  modify fun trail => trail ++ [⟨actorId, action.value, targetType, targetId, scopeId, ts.isoformat⟩]

/-- What a `ScopedManager` is wired with. -/
structure Wiring where
  rateLimitChecker : Option (List RateLimitRule)
  audit : Bool

def exceeded (result : RateLimitResult) : Raised :=
  .scoped .rateLimitExceeded
    ("Rate limit exceeded for create: " ++ toString result.currentCount ++ "/" ++ toString result.maxCount)
    [("rule_id", .str result.ruleId), ("current_count", .int result.currentCount), ("max_count", .int result.maxCount),
      ("window_seconds", .int result.windowSeconds)]

/-- `if self._rate_limit_checker is not None: ...` -/
def checkRate (wiring : Wiring) (call : Creation) : Program Unit := do
  match wiring.rateLimitChecker with
  | none => pure ()
  | some given =>
    let result ← (check (← get) call.reads "create" (some call.ownerId) call.scopeId (heldRules given).zipIdx :
      Except Raised (Option RateLimitResult))
    match result with
    | some refused => if !refused.allowed then throw (exceeded refused)
    | none => pure ()

/-- The entry of the trail goes without the scope. -/
def create (wiring : Wiring) (call : Creation) : Program Unit := do
  stopAt call.denied
  checkRate wiring call
  stopAt call.failed
  if wiring.audit then record call.unrecorded call.ownerId .create call.objectType call.objectId none call.recorded

/-- Any other audited action. -/
structure Audited where
  actorId : String
  action : ActionType
  targetType : String
  targetId : String
  scopeId : Option String
  recorded : Moment

inductive Step where
  | create (call : Creation)
  | audited (action : Audited)

inductive Event where
  | succeeded (call : Creation)
  | refused (call : Creation)
  | audited (action : Audited)

/-- The trail, and as remarks what has happened, the latest first, and the
latest reading of the clock. -/
structure World where
  trail : List TraceRow
  log : List Event
  latest : Int

def World.new : World := ⟨[], [], 0⟩

/-- Whether the call was refused for a rate limit. -/
def rateLimited : Except Raised Unit → Bool
  | .error (.scoped .rateLimitExceeded _ _) => true
  | _ => false

/-- What a call of `create` leaves in the log. -/
def outcome (call : Creation) (result : Except Raised Unit) : List Event :=
  match result with
  | .ok _ => [.succeeded call]
  | result => if rateLimited result then [.refused call] else []

/-- One call after the other. -/
def after (wiring : Wiring) (world : World) : Step → World
  | .create call =>
    let (result, trail) := (create wiring call).on world.trail
    ⟨trail, outcome call result ++ world.log, call.recorded.instant⟩
  | .audited action =>
    let (_, trail) := (record none action.actorId action.action action.targetType action.targetId action.scopeId
      action.recorded).on world.trail
    ⟨trail, .audited action :: world.log, action.recorded.instant⟩

end PyScoped.Legacy.RateLimits
