import PyScoped.Foundation.Interleaving
import PyScoped.Legacy.Errors
import PyScoped.Legacy.Objects
import PyScoped.Legacy.Rules

/-! Quotas of version 1 and the calls that create objects. A transaction sees
the committed rows and its own. That an insert waits for the uncommitted row of
another transaction under the same key is left out, which admits more
interleavings. -/

namespace PyScoped.Legacy
open Foundation

namespace Quotas

def allowedTables : List String :=
  ["scoped_objects", "scopes", "environments", "secrets", "contracts", "rules", "integrations", "plugins"]

def allowedColumns : List String :=
  ["id", "object_type", "owner_id", "registry_entry_id", "current_version", "created_at", "lifecycle", "name",
    "description", "parent_scope_id", "scope_id", "classification", "state", "ephemeral", "kind",
    "integration_type", "role"]

structure QuotaConfig where
  maxCount : Int
  countTable : String
  countColumn : String
  countValue : Json
  scopeColumn : Option String

namespace QuotaConfig

/-- `value in allowed`, where a JSON value that is no text is in no set of texts. -/
def allowedText (allowed : List String) : Json → Option String
  | .str text => if text ∈ allowed then some text else none
  | _ => none

/-- The `object_type` condition, of a list its first item. -/
def objectTypeOf (conditions : List (String × Json)) : Json :=
  match conditions.lookup "object_type" with
  | some (.arr (first :: _)) => first
  | some (.arr []) => .null
  | some other => other
  | none => .null

/-- `object_type or ""` -/
def orEmpty : Json → Json
  | .null => .str ""
  | .str "" => .str ""
  | other => other

/-- Nothing where the rule is skipped. -/
def fromRule (rule : Rule) : Except Raised (Option QuotaConfig) :=
  match rule.conditions.lookup "quota" with
  | none => .ok none
  | some .null => .ok none
  | some (.obj cfg) =>
    let objectType := objectTypeOf rule.conditions
    match allowedText allowedTables ((cfg.lookup "count_table").getD (.str "scoped_objects")),
      allowedText allowedColumns ((cfg.lookup "count_column").getD (.str "object_type")),
      (cfg.lookup "scope_column").getD .null with
    | some countTable, some countColumn, .null => build cfg objectType countTable countColumn none
    | some countTable, some countColumn, scopeColumn =>
      match allowedText allowedColumns scopeColumn with
      | some column => build cfg objectType countTable countColumn (some column)
      | none => .ok none
    | _, _, _ => .ok none
  | some _ => .error (.other "'quota' condition has no attribute 'get'")
where
  build (cfg : List (String × Json)) (objectType : Json) (countTable countColumn : String)
      (scopeColumn : Option String) : Except Raised (Option QuotaConfig) :=
    match cfg.lookup "max_count" with
    | some (.int maxCount) =>
      .ok (some ⟨maxCount, countTable, countColumn, (cfg.lookup "count_value").getD (orEmpty objectType), scopeColumn⟩)
    | some _ => .error (.other "'>=' not supported between instances")
    | none => .error (.other "'max_count'")

end QuotaConfig

/-- `SELECT COUNT(*) FROM table WHERE column = value AND ...` -/
structure CountQuery where
  table : String
  clauses : List (String × Json)

structure QuotaResult where
  allowed : Bool
  currentCount : Int
  maxCount : Int
  ruleId : String
  objectType : String

/-- The query, or nothing where table or columns are refused. -/
def buildCountQuery (config : QuotaConfig) (scopeId : Option String) : Option CountQuery :=
  if config.countTable ∉ allowedTables then none
  else if config.countColumn ∉ allowedColumns then none
  else
    let first := [(config.countColumn, config.countValue)]
    let last := [("lifecycle", Json.str "ACTIVE")]
    match scopeId, config.scopeColumn with
    | some scope, some column =>
      if column = "" then
        if config.countTable = "scoped_objects" then
          some ⟨config.countTable, first ++ [("scope_id", .str scope)] ++ last⟩
        else some ⟨config.countTable, first ++ last⟩
      else if column ∉ allowedColumns then none
      else some ⟨config.countTable, first ++ [(column, .str scope)] ++ last⟩
    | some scope, none =>
      if config.countTable = "scoped_objects" then
        some ⟨config.countTable, first ++ [("scope_id", .str scope)] ++ last⟩
      else some ⟨config.countTable, first ++ last⟩
    | none, _ => some ⟨config.countTable, first ++ last⟩

/-- SQL equality of texts and of integers; a null equals nothing. -/
def sqlEquals : Json → Json → Bool
  | .str first, .str second => first == second
  | .int first, .int second => first == second
  | _, _ => false

def CountQuery.selects (query : CountQuery) (object : ScopedObject) : Bool :=
  query.clauses.all fun (column, value) => ((object.column column).map (sqlEquals · value)).getD false

/-- Every column of the clauses is one of `scoped_objects`. -/
def CountQuery.known (query : CountQuery) : Bool :=
  query.clauses.all fun (column, _) => decide (column ∈
    ["id", "object_type", "owner_id", "registry_entry_id", "current_version", "created_at", "lifecycle"])

inductive Row where
  | object (row : ScopedObject)
  | version (row : ObjectVersion)

namespace Row

/-- The table of a row and its primary key. -/
def key : Row → String × String
  | .object row => ("scoped_objects", row.id)
  | .version row => ("object_versions", row.id)

def object? : Row → Option ScopedObject
  | .object row => some row
  | .version _ => none

end Row

/-- The number of active objects of a type among some rows. -/
def active (objectType : String) (rows : List Row) : Nat :=
  (rows.filterMap Row.object?).countP fun object =>
    decide (object.objectType = objectType ∧ object.lifecycle = .active)

inductive Request where
  | evaluate (action principalId objectType : String)
  | checkRate (action principalId : String) (scopeId : Option String)
  | now
  | generate
  | enter
  | count (query : CountQuery)
  | insert (row : Row)
  | commit
  | rollback
  | record (actorId : String) (action : ActionType) (targets : List (String × String))
  | began
  | finished (result : Except Raised (List (ScopedObject × ObjectVersion)))

/-- What a rate limit check answers where it refuses. -/
structure RateLimitResult where
  ruleId : String
  currentCount : Nat
  maxCount : Nat
  windowSeconds : Nat

def Reply : Request → Type
  | .evaluate _ _ _ => EvaluationResult
  | .checkRate _ _ _ => Option RateLimitResult
  | .now => DateTime
  | .generate => String
  | .count _ => Nat
  | _ => Unit

abbrev Program (α : Type) := Prog Request Reply Raised α

/-- How a call ended and the rows it left in the committed state. -/
structure Outcome where
  result : Except Raised (List (ScopedObject × ObjectVersion))
  left : List Row

/-- Committed rows and those of each open transaction. Remarks: what was
committed when an open transaction first counted, what a running call has
committed, and how the calls have ended. -/
structure Store (ι : Type) where
  committed : List Row
  pending : ι → Option (List Row)
  counted : ι → Option (List Row)
  saved : ι → List Row
  outcomes : List Outcome

/-- A database error, what other parts answer, a count of another table, and
where time and identifiers come from. -/
structure Choice where
  failure : Option String
  verdict : EvaluationResult
  rate : Option RateLimitResult
  count : Nat
  now : DateTime
  generated : String

variable {ι : Type}

def Store.view (store : Store ι) (client : ι) : List Row := store.committed ++ (store.pending client).getD []

def Request.fallible : Request → Bool
  | .now => false
  | .generate => false
  | .began => false
  | .finished _ => false
  | _ => true

/-- A statement outside of a transaction is not among those of these calls. -/
def answer [DecidableEq ι] (choice : Choice) (client : ι) (store : Store ι) :
    (request : Request) → Except Raised (Reply request) × Store ι
  | .evaluate _ _ _ => (.ok choice.verdict, store)
  | .checkRate _ _ _ => (.ok choice.rate, store)
  | .now => (.ok choice.now, store)
  | .generate => (.ok choice.generated, store)
  | .enter => (.ok (), { store with
      pending := Function.update store.pending client (some [])
      counted := Function.update store.counted client none })
  | .count query =>
    let store := { store with
      counted := Function.update store.counted client ((store.counted client).or (some store.committed)) }
    if query.table ≠ "scoped_objects" then (.ok choice.count, store)
    else if !query.known then (.error (.other "no such column"), store)
    else (.ok (((store.view client).filterMap Row.object?).countP query.selects), store)
  | .insert row =>
    if (store.view client).any fun other => other.key == row.key then (.error (.unique row.key.1), store)
    else (.ok (), { store with
      pending := Function.update store.pending client ((store.pending client).map (· ++ [row])) })
  | .commit => (.ok (), { store with
      committed := store.view client
      pending := Function.update store.pending client none
      saved := Function.update store.saved client (store.saved client ++ (store.pending client).getD []) })
  | .rollback => (.ok (), { store with pending := Function.update store.pending client none })
  | .record _ _ _ => (.ok (), store)
  | .began => (.ok (), { store with saved := Function.update store.saved client [] })
  | .finished result => (.ok (), { store with outcomes := ⟨result, store.saved client⟩ :: store.outcomes })

/-- A rollback ends the transaction even where it fails. -/
def serve [DecidableEq ι] : Service Request Reply Raised (Store ι) ι Choice :=
  fun client choice store request =>
    match choice.failure, request.fallible with
    | some error, true =>
      match request with
      | .rollback => some (.error (.other error), (answer choice client store .rollback).2)
      | _ => some (.error (.other error), store)
    | _, _ => some (answer choice client store request)

end Quotas

/-- What a manager is wired with. A checker holds all rules it was given. -/
structure ScopedManager where
  audit : Bool
  ruleEngine : Bool
  rateLimitChecker : Bool
  quotaChecker : Option (List Rule)

namespace QuotaChecker
open Quotas

/-- The rules that a checker keeps. -/
def rules (given : List Rule) : List Rule := given.filter fun rule => rule.ruleType == .quota && rule.isActive

def typeMatches (rule : Rule) (objectType : String) : Bool :=
  match rule.conditions.lookup "object_type" with
  | none => true
  | some (.arr allowed) => allowed.any (equalsText objectType)
  | some allowed => equalsText objectType allowed

def countResourcesInTxn (config : QuotaConfig) (scopeId : Option String) : Program Nat :=
  match buildCountQuery config scopeId with
  | some query => Prog.perform (Quotas.Request.count query)
  | none => pure 0

/-- The first violation among the rules, counted inside the transaction. -/
def checkInTxn (objectType : String) (scopeId : Option String) : List Rule → Program (Option QuotaResult)
  | [] => return none
  | rule :: rules =>
    if !typeMatches rule objectType then checkInTxn objectType scopeId rules
    else do
      match ← (QuotaConfig.fromRule rule : Except Raised (Option QuotaConfig)) with
      | none => checkInTxn objectType scopeId rules
      | some config =>
        let count ← countResourcesInTxn config scopeId
        if config.maxCount ≤ count then
          return some ⟨false, count, config.maxCount, rule.id, objectType⟩
        else checkInTxn objectType scopeId rules

end QuotaChecker

namespace ScopedManager
open Quotas

variable (manager : ScopedManager)

def checkRules (action principalId objectType : String) : Program Unit := do
  if manager.ruleEngine then
    let result : EvaluationResult ← Prog.perform (Quotas.Request.evaluate action principalId objectType)
    if !result.allowed && (!result.denyRules.isEmpty || !result.matchingRules.isEmpty) then
      let names := result.denyRules.map (·.name)
      throw (.scoped .accessDenied ("Action '" ++ action ++ "' denied by rule(s): " ++ listText names)
        [("action", .str action), ("principal_id", .str principalId), ("object_type", .str objectType),
          ("deny_rules", .arr (names.map .str))])

def checkRate (principalId : String) (scopeId : Option String) : Program Unit := do
  if manager.rateLimitChecker then
    let result : Option RateLimitResult ← Prog.perform (Quotas.Request.checkRate "create" principalId scopeId)
    match result with
    | some refused =>
      throw (.scoped .rateLimitExceeded
        ("Rate limit exceeded for create: " ++ toString refused.currentCount ++ "/" ++ toString refused.maxCount)
        [("rule_id", .str refused.ruleId), ("current_count", .int refused.currentCount),
          ("max_count", .int refused.maxCount), ("window_seconds", .int refused.windowSeconds)])
    | none => pure ()

/-- `with self._backend.transaction() as txn: ...` -/
def transaction {α : Type} (body : Program α) : Program α := do
  let _ : Unit ← Prog.perform Quotas.Request.enter
  try body
  catch error =>
    let _ : Unit ← Prog.perform Quotas.Request.rollback
    throw error

/-- The quota check of `create`, with the rollback before it raises. -/
def checkQuota (objectType : String) (scopeId : Option String) : Program Unit :=
  match manager.quotaChecker with
  | none => pure ()
  | some given => do
    match ← QuotaChecker.checkInTxn objectType scopeId (QuotaChecker.rules given) with
    | some result =>
      if !result.allowed then
        let _ : Unit ← Prog.perform Quotas.Request.rollback
        throw (.scoped .quotaExceeded
          ("Quota exceeded for " ++ objectType ++ ": " ++ toString result.currentCount ++ "/" ++ toString result.maxCount)
          [("rule_id", .str result.ruleId), ("current_count", .int result.currentCount),
            ("max_count", .int result.maxCount), ("object_type", .str objectType)])
      else pure ()
    | none => pure ()

def recordIf (actorId : String) (targets : List (String × String)) : Program Unit :=
  if manager.audit then Prog.perform (Quotas.Request.record actorId .create targets) else pure ()

def create (objectType ownerId : String) (data : Json) (registryEntryId : Option String) (changeReason : String)
    (scopeId : Option String) : Program (ScopedObject × ObjectVersion) := do
  manager.checkRules "create" ownerId objectType
  manager.checkRate ownerId scopeId
  let ts : DateTime ← Prog.perform Quotas.Request.now
  let objId : String ← Prog.perform Quotas.Request.generate
  let verId : String ← Prog.perform Quotas.Request.generate
  let obj : ScopedObject :=
    { id := objId, objectType, ownerId, currentVersion := 1, createdAt := ts, lifecycle := .active, registryEntryId }
  let ver : ObjectVersion :=
    { id := verId, objectId := objId, version := 1, data, createdAt := ts, createdBy := ownerId, changeReason }
  transaction do
    manager.checkQuota objectType scopeId
    let _ : Unit ← Prog.perform (Quotas.Request.insert (.object obj))
    let _ : Unit ← Prog.perform (Quotas.Request.insert (.version ver))
    Prog.perform Quotas.Request.commit
  manager.recordIf ownerId [(objectType, objId)]
  return (obj, ver)

/-- One item of a batch. -/
structure Item where
  objectType : String
  data : Json
  changeReason : Option String

/-- The loop of `create_many`, which checks no quota. -/
def insertEach (ownerId : String) (ts : DateTime) : List Item → Program (List (ScopedObject × ObjectVersion))
  | [] => return []
  | item :: items => do
    let objId : String ← Prog.perform Quotas.Request.generate
    let verId : String ← Prog.perform Quotas.Request.generate
    let obj : ScopedObject :=
      { id := objId, objectType := item.objectType, ownerId, currentVersion := 1, createdAt := ts
        lifecycle := .active, registryEntryId := none }
    let ver : ObjectVersion :=
      { id := verId, objectId := objId, version := 1, data := item.data, createdAt := ts, createdBy := ownerId
        changeReason := item.changeReason.getD "created" }
    let _ : Unit ← Prog.perform (Quotas.Request.insert (.object obj))
    let _ : Unit ← Prog.perform (Quotas.Request.insert (.version ver))
    let rest ← insertEach ownerId ts items
    return (obj, ver) :: rest

def createMany (items : List Item) (ownerId : String) : Program (List (ScopedObject × ObjectVersion)) := do
  let ts : DateTime ← Prog.perform Quotas.Request.now
  let results ← transaction do
    let results ← insertEach ownerId ts items
    let _ : Unit ← Prog.perform Quotas.Request.commit
    return results
  manager.recordIf ownerId (results.map fun (obj, _) => (obj.objectType, obj.id))
  return results

/-- The calls of the clients. A `create` names no scope. -/
inductive Call where
  | create (objectType ownerId : String) (data : Json) (registryEntryId : Option String) (changeReason : String)
  | createMany (items : List Item) (ownerId : String)

def invoke : Call → Program (List (ScopedObject × ObjectVersion))
  | .create objectType ownerId data registryEntryId changeReason => do
    let pair ← manager.create objectType ownerId data registryEntryId changeReason none
    return [pair]
  | .createMany items ownerId => manager.createMany items ownerId

/-- A call from its beginning to the moment its caller has the result. -/
def call (made : Call) : Program (Except Raised (List (ScopedObject × ObjectVersion))) := do
  let _ : Unit ← Prog.perform Quotas.Request.began
  let result ← (manager.invoke made).attempt
  let _ : Unit ← Prog.perform (Quotas.Request.finished result)
  return result

inductive Client : Program Unit → Prop where
  | done : Client (.pure ())
  | call (made : Call) (next : Except Raised (List (ScopedObject × ObjectVersion)) → Program Unit)
      (each : ∀ result, Client (next result)) : Client ((manager.call made).bind next)

end ScopedManager
end PyScoped.Legacy
