import PyScoped.Core.Audit

/-! Saving and deleting instances: Django's own steps, the signal handlers an
application connects, and the guards the registry wraps around both. -/

namespace PyScoped
open Foundation

variable {app : App}

/-- Signal handlers. Each is told which rows are in flight while it runs. A
`pre_save` handler may change attributes of the instance; `pre_delete` handlers
may be connected before the one of the registry or after it. -/
structure Handlers (app : App) where
  preSave : List Key → Instance → Db app (String → Attr)
  postSave : List Key → Instance → Db app Unit
  preDelete : (early : Bool) → List Key → String → Value → Db app Unit
  postDelete : List Key → String → Value → Db app Unit

def Handlers.none : Handlers app :=
  ⟨fun _ inst => pure inst.attr, fun _ _ => pure (), fun _ _ _ _ => pure (), fun _ _ _ => pure ()⟩

structure SaveOptions where
  raw : Bool
  forceInsert : Bool
  forceUpdate : Bool
  updateFields : Option (List String)

/-- The key under which the store holds a row; a missing primary key names none. -/
def rowKey (app : App) (label : String) (pk : Value) : Option Key :=
  match pk with
  | .none => none
  | pk =>
    match (app.model label).keyText pk with
    | .ok text => some (.row label text)
    | .error _ => none

/-- The rows in flight while the handlers of an operation on one row run. -/
def inFlight (app : App) (label : String) (pk : Value) (held : List Key) : List Key :=
  (rowKey app label pk).toList ++ held

/-- Columns to write. Expressions see the columns as they were. -/
abbrev Assignments := List (Field × Attr)

def assign (old : Option Columns) (column : Columns) (assignment : Field × Attr) : Except Err Columns := do
  let value ← assignment.2.eval old
  let stored ← assignment.1.store value
  return Function.update column assignment.1.attname stored

/-- An UPDATE of one row. -/
def assignAll {model : Model} {pk : String} (assignments : Assignments) (row : Row model pk) :
    Except Err (Row model pk) := do
  let column ← assignments.foldlM (assign (some row.column)) row.column
  Row.make column

def Instance.assignments (model : Model) (inst : Instance) (fields : List Field) : Assignments :=
  fields.map fun field => (field, inst.get model field.attname)

/-- The row of an INSERT. -/
def newRow (model : Model) (pk : String) (inst : Instance) : Except Err (Row model pk) := do
  let column ← (inst.assignments model model.fields).foldlM (assign none) (fun _ => .none)
  Row.make column

/-- A missing key comes from a default or a sequence. -/
def withKey (inst : Instance) : Db app Instance :=
  match inst.pk with
  | .none => do
    let oracle ← Tx.ask
    return { inst with pk := oracle.fresh }
  | _ => pure inst

def insertRow (label : String) (inst : Instance) (held : List Key) : Db app Instance := do
  let inst ← withKey inst
  let text ← (app.model label).keyText inst.pk
  let row ← newRow (app.model label) text inst
  Tx.insert (V := Val app) (.row label text) row held
  return inst

/-- `_do_update`: whether a row was there. -/
def updateRow (label : String) (inst : Instance) (fields : List Field) (held : List Key) (seen : Bool) :
    Db app Bool := do
  let text ← (app.model label).keyText inst.pk
  Tx.update (V := Val app) (.row label text) (assignAll (inst.assignments (app.model label) fields)) held seen

def writtenFields (model : Model) (updateFields : Option (List String)) : List Field :=
  let nonKeys := model.fields.filter fun field => field.attname ≠ model.pk.attname
  match updateFields with
  | none => nonKeys
  | some names => nonKeys.filter fun field => names.contains field.name || names.contains field.attname

/-- `_save_table`: an UPDATE where the key is set, and an INSERT where that matched
nothing. A key that a default or a sequence produces is new, so it is inserted. -/
def saveTable (label : String) (inst : Instance) (options : SaveOptions) (held : List Key) (seen : Bool) :
    Db app Instance :=
  let model := app.model label
  let forced := options.forceUpdate || options.updateFields.isSome
  if inst.pk = .none then
    if forced then throw (.valueError "Cannot force an update in save() with no primary key.")
    else insertRow label inst held
  else if options.forceInsert || (!options.forceUpdate && inst.adding && model.pkDefault) then
    insertRow label inst held
  else do
    let updated ← updateRow label inst (writtenFields model options.updateFields) held seen
    if updated then return inst
    else if forced then throw (.databaseError "Save did not affect any rows.")
    else insertRow label inst held

/-- Django's `save_base`: the handlers run around the write. -/
def djangoSave (handlers : Handlers app) (label : String) (inst : Instance) (options : SaveOptions)
    (held : List Key) (seen : Bool) : Db app Instance := do
  let attr ← handlers.preSave (inFlight app label inst.pk held) inst
  let saved ← saveTable label { inst with attr := attr } options held seen
  handlers.postSave (inFlight app label saved.pk held) saved
  return saved

def saveAction (env : Env) (label : String) (pk : Value) (created : Bool) : String :=
  match env.override with
  | some override =>
    if override.label = label ∧ override.pk.same pk then override.action else if created then "create" else "update"
  | none => if created then "create" else "update"

def checkBefore {label : String} (config : Registration (app.model label)) (before : Option (Loaded app label))
    (ctx : ScopeContext) : Except Err Unit :=
  match before with
  | none => .ok ()
  | some row => (checkScope config (row.get config.scopeField.attname) ctx).map fun _ => ()

def checkUnmoved {label : String} (config : Registration (app.model label)) (before : Option (Loaded app label))
    (attr : Attr) : Except Err Unit :=
  match before with
  | none => .ok ()
  | some row =>
    if attr.same (row.2.column config.scopeField.attname) then .ok ()
    else .error (.unsupportedOperation "Scope changes require an explicit application migration.")

def checkSaved {label : String} (config : Registration (app.model label)) (before : Option (Loaded app label))
    (inst : Instance) (ctx : ScopeContext) : Db app Unit := do
  let get := inst.get (app.model label)
  let _ ← checkBefore config before ctx
  let _ ← checkScope config (get config.scopeField.attname) ctx
  checkRelations config get ctx
  checkUnmoved config before (get config.scopeField.attname)

/-- The event of a save, from the row as it is read back. -/
def recordSaved (env : Env) {label : String} (config : Registration (app.model label)) (created : Bool)
    (before : Json) (pk : Value) (ctx : ScopeContext) : Db app Unit := do
  let afterRow ← loadRow label pk false
  match afterRow with
  | none => throw (.unsupportedOperation "The save did not leave a persisted row.")
  | some row =>
    let _ ← checkScope config (row.get config.scopeField.attname) ctx
    checkRelations config row.get ctx
    let after ← snapshot config row.2.column
    appendEvent config row (saveAction env label pk created) before after ctx env.held

/-- The registered `save_base`. -/
def saveBase (env : Env) (handlers : Handlers app) {label : String} (config : Registration (app.model label))
    (inst : Instance) (options : SaveOptions) : Db app Unit := do
  let ctx ← env.current
  if options.raw then
    throw (.unsupportedOperation "Raw fixture saves bypass guarantees; use a data migration.")
  Tx.atomic do
    let beforeRow ← loadRow label inst.pk true
    checkSaved config beforeRow inst ctx.toScopeContext
    let before ← snapshotOf config beforeRow
    let saved ← djangoSave handlers label inst options env.held beforeRow.isSome
    recordSaved env config beforeRow.isNone before saved.pk ctx.toScopeContext

/-- Whether every name stands for a column that an UPDATE can write. -/
def updatable (model : Model) (names : List String) : Bool :=
  names.all fun name => (writtenFields model none).any fun field => field.name = name || field.attname = name

/-- The registered `save`. An empty list of fields saves nothing. -/
def save (env : Env) (handlers : Handlers app) {label : String} (config : Registration (app.model label))
    (inst : Instance) (options : SaveOptions) : Db app Unit := do
  let _ ← env.current
  Tx.atomic do
    if options.updateFields = some [] then return ()
    else if options.updateFields.any fun names => !(updatable (app.model label) names) then
      throw (.valueError "The following fields do not exist in this model, are m2m fields, primary keys, or are non-concrete fields")
    else saveBase env handlers config inst options

/-- The registry's `pre_delete` handler. It tells whether there was a row. -/
def beforeDelete (env : Env) {label : String} (config : Registration (app.model label)) (pk : Value)
    (held : List Key) : Db app Bool := do
  let ctx ← env.current
  let found ← loadRow label pk true
  match found with
  | none => return false
  | some row =>
    let _ ← checkScope config (row.get config.scopeField.attname) ctx.toScopeContext
    let before ← snapshot config row.2.column
    appendEvent config row "delete" before .null ctx.toScopeContext held
    return true

/-- What the collector found to delete, in the order of deletion. It holds no row twice. -/
structure Collected (app : App) where
  rows : List (String × Value)
  once : (rows.filterMap fun row => rowKey app row.1 row.2).Nodup

/-- Sends `pre_delete` for every collected instance. From then on its row is in
flight; what is kept for the deletion is whether the row was there. -/
def sendPreDelete (env : Env) (handlers : Handlers app) :
    List (String × Value) → List Key → Db app (List ((String × Value) × Bool))
  | [], _ => pure []
  | (label, pk) :: rows, flying => do
    handlers.preDelete true flying label pk
    let seen ← match app.registration label with
      | some config => beforeDelete env config pk flying
      | none => pure true
    handlers.preDelete false (inFlight app label pk flying) label pk
    let others ← sendPreDelete env handlers rows (inFlight app label pk flying)
    return ((label, pk), seen) :: others

def deleteRow (label : String) (pk : Value) (held : List Key) (seen : Bool) : Db app Bool :=
  match pk with
  | .none => pure false
  | pk => do
    let text ← (app.model label).keyText pk
    Tx.delete (V := Val app) (.row label text) held seen

/-- The rows of later groups are still in flight. -/
def stillFlying (app : App) (groups : List (List ((String × Value) × Bool))) (held : List Key) : List Key :=
  groups.flatten.foldr (fun row held => inFlight app row.1.1 row.1.2 held) held

/-- Deletes model by model; each model's `post_delete` follows its own rows. -/
def deleteGroups (env : Env) (handlers : Handlers app) : List (List ((String × Value) × Bool)) → Db app Unit
  | [] => pure ()
  | group :: groups => do
    group.forM fun ((label, pk), seen) => do
      let _ ← deleteRow label pk env.held seen
      pure ()
    group.forM fun ((label, pk), _) => handlers.postDelete (stillFlying app groups env.held) label pk
    deleteGroups env handlers groups

/-- Consecutive instances of one model are deleted together. -/
def byModel : List ((String × Value) × Bool) → List (List ((String × Value) × Bool)) :=
  List.splitBy fun first second => first.1.1 = second.1.1

/-- `Collector.delete`, inside the block of the operation that called it. -/
def deleteCollected (env : Env) (handlers : Handlers app) (collected : Collected app) : Db app Unit := do
  let rows ← sendPreDelete env handlers collected.rows env.held
  deleteGroups env handlers (byModel rows)

/-- The registered `delete` of an instance. `collect` reads what the deletion reaches. -/
def delete (env : Env) (handlers : Handlers app) (pk : Value) (collect : Db app (Collected app)) : Db app Unit := do
  let _ ← env.current
  Tx.atomic do
    if pk = .none then
      throw (.valueError "The object can't be deleted because its pk attribute is set to None.")
    let collected ← collect
    deleteCollected env handlers collected

end PyScoped
