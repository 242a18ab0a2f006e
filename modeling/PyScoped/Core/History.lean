import PyScoped.Core.Query

/-! Reading and verifying histories, truthful baselines, and the restoration of
registered fields on a live row. -/

namespace PyScoped
open Foundation

variable {app : App} {label : String}

/-- The resource of a row, if its scope denotes the one of the context. -/
def findResource (env : Env) (config : Registration (app.model label)) (pk : Value) : Db app (Option Resource) := do
  let ctx ← env.current
  let objectPk ← identity pk
  let found : Option Resource ← Tx.get (V := Val app) (.resource label objectPk)
  match found with
  | none => return none
  | some resource =>
    let own ← config.scopeField.expected (.str resource.scope)
    let wanted ← config.scopeField.expected (.str ctx.scope)
    if own.same wanted then return some resource
    else throw (.scopeViolation "History belongs to another scope.")

def isEvent (label objectPk : String) : Sigma (Val app) → Bool
  | ⟨.event other pk _, _⟩ => other = label && pk = objectPk
  | _ => false

/-- The events of one resource by revision. -/
def retained (label objectPk : String) (entries : List (Sigma (Val app))) : List AuditEvent :=
  (entries.filterMap fun
    | ⟨.event other pk _, event⟩ => if other = label ∧ pk = objectPk then some event else none
    | _ => none).mergeSort fun first second => first.revision ≤ second.revision

theorem picked_iff {objectPk : String} {entry : Sigma (Val app)} {event : AuditEvent} : (match entry with
      | ⟨.event other pk _, event⟩ => if other = label ∧ pk = objectPk then some event else none
      | _ => none) = some event ↔ ∃ revision, entry = ⟨.event label objectPk revision, event⟩ := by
  obtain ⟨key, value⟩ := entry
  cases key with
  | row => simp
  | resource => simp
  | event other pk revision =>
    constructor
    · intro found
      simp only at found
      split at found
      next same =>
        obtain ⟨rfl, rfl⟩ := same
        cases found
        exact ⟨revision, rfl⟩
      · cases found
    · intro named
      obtain ⟨revision', same⟩ := named
      cases same
      simp

/-- What the scan for a history returns was stored under the history's keys. -/
theorem mem_retained {objectPk : String} {entries : List (Sigma (Val app))} {event : AuditEvent} :
    event ∈ retained label objectPk entries ↔ ∃ revision, ⟨.event label objectPk revision, event⟩ ∈ entries := by
  unfold retained
  rw [List.mem_mergeSort, List.mem_filterMap]
  constructor
  · intro picked
    obtain ⟨entry, member, found⟩ := picked
    obtain ⟨revision, rfl⟩ := picked_iff.mp found
    exact ⟨revision, member⟩
  · intro written
    obtain ⟨revision, member⟩ := written
    exact ⟨_, member, by simp⟩

def readEvents (label objectPk : String) : Db app (List AuditEvent) := do
  let entries ← Tx.scan (fun _ => isEvent label objectPk) false
  return retained label objectPk entries

def history (env : Env) (config : Registration (app.model label)) (pk : Value) : Db app (List AuditEvent) := do
  let resource ← findResource env config pk
  match resource with
  | none => return []
  | some resource => readEvents label resource.objectPk

def verifyHistory (env : Env) (config : Registration (app.model label)) (pk : Value) : Db app Verification :=
  Tx.atomic do
    let resource ← findResource env config pk
    match resource with
    | none => return ⟨false, 0, "No history exists."⟩
    | some resource =>
      let found : Option Resource ← Tx.lock (V := Val app) (.resource label resource.objectPk)
      match found with
      | none => throw .doesNotExist
      | some resource =>
        let events ← readEvents label resource.objectPk
        let verification ← verifyRetained app.sha256 resource events
        return verification

structure BackfillResult where
  examined : Nat
  pending : Nat
  created : Nat
  skipped : Nat
  dryRun : Bool
  deriving DecidableEq, Repr

def backfillOne (env : Env) (config : Registration (app.model label)) (ctx : ScopeContext) (dryRun : Bool)
    (result : BackfillResult) (pk : Value) : Db app BackfillResult := Tx.atomic do
  let result := { result with examined := result.examined + 1 }
  let found ← loadRow label pk (!dryRun)
  match found with
  | none => return { result with skipped := result.skipped + 1 }
  | some row =>
    let _ ← checkScope config (row.get config.scopeField.attname) ctx
    let objectPk ← identity pk
    let resource : Option Resource ← Tx.get (V := Val app) (.resource label objectPk)
    if resource.any fun resource => 0 < resource.revision then
      return { result with skipped := result.skipped + 1 }
    else
      let result := { result with pending := result.pending + 1 }
      if dryRun then return result
      else
        let after ← snapshot config row.2.column
        appendEvent config row "baseline" .null after ctx env.held
        return { result with created := result.created + 1 }

/-- The listing runs outside any transaction, and each row in one of its own. -/
def backfill (env : Env) (config : Registration (app.model label)) (dryRun : Bool) (batchSize : Int) :
    Db app BackfillResult := do
  let ctx ← env.current
  if batchSize < 1 then throw (.valueError "batch_size must be positive.")
  let scope ← config.scopeField.store (.str ctx.scope)
  let entries ← Tx.scan (fun _ => isRow label fun row =>
    scope.same (row.2.column config.scopeField.attname)) false
  (tableRows label entries).foldlM
    (fun result row => backfillOne env config ctx.toScopeContext dryRun result row.pk) ⟨0, 0, 0, 0, dryRun⟩

def member (value : Json) (name : String) : Json :=
  match value with
  | .obj members => (members.lookup name).getD .null
  | _ => .null

def memberNames : Json → List String
  | .obj members => members.map (·.1)
  | _ => []

/-- Sets one field back, or checks that a scope or relation stays as it is. -/
def restoreField (config : Registration (app.model label)) (current target : Json)
    (progress : (String → Attr) × List String) (field : Field) : Except Err ((String → Attr) × List String) :=
  if field.name = config.scopeField.name ∨ field.relation.isSome then
    if (member target field.name).Same (member current field.name) then .ok progress
    else .error (.unsupportedOperation "Restoration cannot change scope or relationships.")
  else do
    let value ← field.toPython (member target field.name)
    return (Function.update progress.1 field.attname (.value value), progress.2 ++ [field.name])

def restoredFields (config : Registration (app.model label)) (current target : Json) (attr : String → Attr) :
    Except Err ((String → Attr) × List String) :=
  config.fields.foldlM (restoreField config current target) (attr, [])

def restore (env : Env) (handlers : Handlers app) (config : Registration (app.model label)) (pk : Value)
    (revision expectedRevision : Int) : Db app Unit := do
  let ctx ← env.current
  Tx.atomic do
    let found ← loadRow label pk true
    match found with
    | none => throw (.historyConflict "Deleted/missing rows cannot be resurrected by restore().")
    | some row =>
      let _ ← checkScope config (row.get config.scopeField.attname) ctx.toScopeContext
      let resource ← findResource env config pk
      if ¬ resource.any fun resource => (resource.revision : Int) = expectedRevision then
        throw (.historyConflict "Expected revision does not match current history.")
      let verification ← verifyHistory env config pk
      if ¬ verification.valid then throw (.historyConflict "History verification failed.")
      let events ← history env config pk
      let current ← snapshot config row.2.column
      if ¬ events.getLast?.any fun event => current.Same event.after then
        throw (.historyConflict "Current data differs from the history head; reconcile first.")
      match (events.find? fun event => (event.revision : Int) = revision).filter fun event => event.after ≠ .null with
      | none => throw (.historyConflict "Target revision has no restorable state.")
      | some target =>
        let names := config.fields.map (·.name)
        if ¬ (memberNames target.after ⊆ names ∧ names ⊆ memberNames target.after) then
          throw (.historyConflict "Registered fields changed; migrate history explicitly.")
        let (attr, updates) ← restoredFields config current target.after row.get
        if updates.isEmpty then throw (.unsupportedOperation "No scalar fields are registered for restoration.")
        save { env with override := some ⟨label, row.pk, "restore"⟩ } handlers config
          { pk := row.pk, attr := attr, adding := false }
          { raw := false, forceInsert := false, forceUpdate := false, updateFields := some updates }

end PyScoped
