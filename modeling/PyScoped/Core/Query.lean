import PyScoped.Core.Save

/-! Mutations through scoped querysets. Each takes before images, writes by
primary key, and records one event for each row it wrote. -/

namespace PyScoped
open Foundation

variable {app : App}

/-- A queryset: the context it was built in, the marks that mutations refuse, and
its filters over the rows of the store a statement sees. -/
structure Queryset (app : App) where
  label : String
  context : Option Active
  sliced : Bool
  combined : Bool
  projected : Bool
  filters : List (Sigma (Val app)) → Loaded app label → Bool

namespace Queryset

/-- The manager's predicate: rows of the scope of the context, in enforce mode. -/
def inScope {label : String} (config : Registration (app.model label)) (context : Option Active)
    (row : Loaded app label) : Bool :=
  match config.enforce, context with
  | true, some ctx =>
    match config.scopeField.store (.str ctx.scope) with
    | .ok scope => scope.same (row.2.column config.scopeField.attname)
    | .error _ => false
  | _, _ => true

def selects (queryset : Queryset app) (config : Registration (app.model queryset.label))
    (entries : List (Sigma (Val app))) (row : Loaded app queryset.label) : Bool :=
  inScope config queryset.context row && queryset.filters entries row

def checkContext (queryset : Queryset app) {model : Model} (config : Registration model) (env : Env) :
    Except Err Unit :=
  if config.enforce then do
    let ctx ← env.current
    if queryset.context.map (·.token) = some ctx.token then return ()
    else throw (.scopeViolation "Evaluate a scoped queryset within the context that created it.")
  else return ()

def mutationConfig (queryset : Queryset app) (config : Registration (app.model queryset.label)) (env : Env)
    (names : List String) : Except Err Unit := do
  let model := app.model queryset.label
  queryset.checkContext config env
  let _ ← env.current
  if names.any fun name => [config.scopeField.name, config.scopeField.attname, "pk", model.pk.name].contains name then
    throw (.unsupportedOperation "Queryset mutations cannot change primary keys or scope.")
  if queryset.sliced || queryset.combined || queryset.projected then
    throw (.unsupportedOperation "Mutation requires an unsliced, uncombined model queryset.")

end Queryset

def resolveField (model : Model) (name : String) : Except Err Field :=
  match model.fields.find? fun field => field.name = name || field.attname = name with
  | some field => .ok field
  | none => .error (.fieldError (model.label ++ " has no field named '" ++ name ++ "'"))

def resolveFields (model : Model) (names : List String) : Except Err (List Field) := names.mapM (resolveField model)

def resolveAll (model : Model) (assignments : List (String × Attr)) : Except Err Assignments :=
  assignments.mapM fun (name, attr) => do
    let field ← resolveField model name
    return (field, attr)

def keyTexts (model : Model) (objs : List Instance) : Except Err (List String) :=
  objs.mapM fun obj => model.keyText obj.pk

/-- Locks the listed rows one after the other and keeps those that still match. -/
def lockAll (label : String) (wanted : Loaded app label → Bool) : List String → Db app (List (Loaded app label))
  | [] => pure []
  | text :: texts => do
    let row : Option (Row (app.model label) text) ← Tx.lock (V := Val app) (.row label text)
    let rows ← lockAll label wanted texts
    match row with
    | some row => return if wanted ⟨text, row⟩ then ⟨text, row⟩ :: rows else rows
    | none => return rows

/-- The rows a mutation is about to write, with their before images. -/
structure Image (app : App) (label : String) where
  row : Loaded app label
  before : Json

def imagesOf {label : String} (config : Registration (app.model label)) (rows : List (Loaded app label)) :
    Except Err (List (Image app label)) :=
  rows.mapM fun row => do
    let before ← snapshot config row.2.column
    return ⟨row, before⟩

def imageKeys {label : String} (images : List (Image app label)) : List (Value × Json) :=
  images.map fun image => (image.row.pk, image.before)

/-- UPDATE of the listed rows; counts those that were there. -/
def updateRows (label : String) (assigned : String → Assignments) (held : List Key) : List String → Db app Nat
  | [] => pure 0
  | text :: texts => do
    let matched ← Tx.update (V := Val app) (.row label text) (assignAll (assigned text)) held true
    let count ← updateRows label assigned held texts
    return if matched then count + 1 else count

def recordOne (env : Env) {label : String} (config : Registration (app.model label)) (ctx : ScopeContext)
    (action : String) (pk : Value) (before : Json) : Db app Unit := do
  let found ← loadRow label pk false
  match found with
  | none => throw (.unsupportedOperation "A bulk mutation did not leave the expected persisted row.")
  | some row =>
    let _ ← checkScope config (row.get config.scopeField.attname) ctx
    checkRelations config row.get ctx
    let after ← snapshot config row.2.column
    appendEvent config row action before after ctx env.held

/-- `_record_bulk` -/
def recordBulk (env : Env) {label : String} (config : Registration (app.model label)) (action : String)
    (keys : List (Value × Json)) : Db app Unit := do
  let ctx ← env.current
  keys.forM fun (pk, before) => recordOne env config ctx.toScopeContext action pk before

namespace Queryset

def update (queryset : Queryset app) (config : Registration (app.model queryset.label)) (env : Env)
    (assignments : List (String × Attr)) : Db app Nat := do
  queryset.mutationConfig config env (assignments.map (·.1))
  if assignments.isEmpty then return 0
  else Tx.atomic do
    let entries ← Tx.scan (fun _ => isRow queryset.label fun _ => true) false
    let candidates := (tableRows queryset.label entries).filter (queryset.selects config entries)
    let rows ← lockAll queryset.label (queryset.selects config entries) (candidates.map (·.1))
    let images ← imagesOf config rows
    let assigned ← resolveAll (app.model queryset.label) assignments
    let count ← updateRows queryset.label (fun _ => assigned) env.held (images.map (·.row.1))
    recordBulk env config "update" (imageKeys images)
    return count

def insertAll (label : String) (held : List Key) : List Instance → Db app (List Instance)
  | [] => pure []
  | obj :: objs => do
    let created ← insertRow label obj held
    let others ← insertAll label held objs
    return created :: others

def bulkCreate (queryset : Queryset app) (config : Registration (app.model queryset.label)) (env : Env)
    (objs : List Instance) (conflicts : Bool) : Db app (List Instance) := do
  queryset.mutationConfig config env []
  if conflicts then
    throw (.unsupportedOperation "Conflict-handling bulk inserts need an explicit app workflow.")
  let ctx ← env.current
  Tx.atomic do
    objs.forM fun obj => do
      let get := obj.get (app.model queryset.label)
      let _ ← checkScope config (get config.scopeField.attname) ctx.toScopeContext
      checkRelations config get ctx.toScopeContext
    let created ← insertAll queryset.label env.held objs
    if created.any fun obj => obj.pk = .none then
      throw (.unsupportedOperation "This backend cannot return bulk-inserted identities.")
    recordBulk env config "create" (created.map fun obj => (obj.pk, .null))
    return created

/-- What `bulk_update` assigns to one row: the fields of the object with its key. -/
def objectAssignments (model : Model) (objs : List Instance) (fields : List Field) (text : String) : Assignments :=
  match objs.find? fun obj => model.keyText obj.pk = .ok text with
  | some obj => obj.assignments model fields
  | none => []

def bulkUpdate (queryset : Queryset app) (config : Registration (app.model queryset.label)) (env : Env)
    (objs : List Instance) (names : List String) : Db app Nat := do
  let model := app.model queryset.label
  queryset.mutationConfig config env names
  if names.isEmpty then throw (.valueError "Field names must be supplied to bulk_update().")
  if objs.any fun obj => obj.pk = .none then
    throw (.valueError "Every bulk_update object must have a primary key.")
  if ¬ objs.Pairwise fun first second => first.pk.same second.pk = false then
    throw (.unsupportedOperation "Duplicate bulk_update identities are ambiguous; deduplicate first.")
  let ctx ← env.current
  Tx.atomic do
    let keys ← keyTexts model objs
    let listed (row : Loaded app queryset.label) : Bool := keys.contains row.1
    let entries ← Tx.scan (fun _ => isRow queryset.label listed) false
    let rows ← lockAll queryset.label listed ((tableRows queryset.label entries).map (·.1))
    rows.forM fun row => do
      let _ ← checkScope config (row.get config.scopeField.attname) ctx.toScopeContext
      pure ()
    let selected ← Tx.scan (fun entries => isRow queryset.label fun row =>
      queryset.selects config entries row && listed row) true
    let images ← imagesOf config (tableRows queryset.label selected)
    let fields ← resolveFields model names
    if fields.any fun field => field.attname = model.pk.attname then
      throw (.valueError "bulk_update() cannot be used with primary key fields.")
    let count ← updateRows queryset.label (objectAssignments model objs fields) env.held (images.map (·.row.1))
    recordBulk env config "update" (imageKeys images)
    return count

/-- `collect` reads what the deletion of the selected rows reaches. -/
def delete (queryset : Queryset app) (config : Registration (app.model queryset.label)) (env : Env)
    (handlers : Handlers app) (collect : Db app (Collected app)) : Db app Unit := do
  queryset.checkContext config env
  let _ ← env.current
  Tx.atomic do
    if queryset.sliced || queryset.projected then
      throw (.unsupportedOperation "Cannot use limits or values with delete().")
    let collected ← collect
    deleteCollected env handlers collected

end Queryset
end PyScoped
