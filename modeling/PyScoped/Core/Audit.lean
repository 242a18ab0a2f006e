import PyScoped.Core.Registry

/-! Snapshots, the scope checks, and the append of one event to a history. -/

namespace PyScoped
open Foundation

variable {app : App}

def plain (value : Json) : Except Err Json :=
  if value.finite then .ok value.sortKeys
  else .error (.valueError "Out of range float values are not JSON compliant")

/-- A dictionary keeps one member for each key. -/
def dict (members : List (String × Json)) : Json :=
  .obj (members.pwFilter fun first second => first.1 ≠ second.1)

def snapshot {model : Model} (config : Registration model) (column : Columns) : Except Err Json :=
  plain (dict (config.fields.map fun field => (field.name, (column field.attname).json)))

/-- The snapshot of a row that may be missing. -/
def snapshotOf {label : String} (config : Registration (app.model label)) :
    Option (Loaded app label) → Except Err Json
  | none => .ok .null
  | some row => snapshot config row.2.column

def selectRow (label text : String) (lock : Bool) : Db app (Option (Row (app.model label) text)) :=
  if lock then Tx.lock (V := Val app) (.row label text) else Tx.get (V := Val app) (.row label text)

def loadRow (label : String) (pk : Value) (lock : Bool) : Db app (Option (Loaded app label)) :=
  match pk with
  | .none => pure none
  | pk => do
    let text ← (app.model label).keyText pk
    let row ← selectRow label text lock
    return row.map (Sigma.mk text)

def checkScope {model : Model} (config : Registration model) (attr : Attr) (ctx : ScopeContext) :
    Except Err String := do
  let actual ← attr.identity
  if config.enforce then
    let own ← config.scopeField.expected (.str actual)
    let wanted ← config.scopeField.expected (.str ctx.scope)
    if own.same wanted then return actual
    else throw (.scopeViolation (model.label ++ " belongs to a different scope."))
  else return actual

/-- The first row that still matches once it is locked. -/
def lockFirst (label : String) (wanted : Loaded app label → Bool) : List String → Db app (Option (Loaded app label))
  | [] => pure none
  | text :: texts => do
    let row : Option (Row (app.model label) text) ← Tx.lock (V := Val app) (.row label text)
    match row with
    | some row => if wanted ⟨text, row⟩ then return some ⟨text, row⟩ else lockFirst label wanted texts
    | none => lockFirst label wanted texts

/-- The rows of one table among the entries of the store, by primary key. -/
def tableRows (label : String) (entries : List (Sigma (Val app))) : List (Loaded app label) :=
  (entries.filterMap fun
    | ⟨.row other text, row⟩ => if same : other = label then some ⟨text, same ▸ row⟩ else none
    | _ => none).mergeSort fun first second => (app.model label).pkOrder first.1 second.1

def isRow (label : String) (wanted : Loaded app label → Bool) : Sigma (Val app) → Bool
  | ⟨.row other text, row⟩ => if same : other = label then wanted ⟨text, same ▸ row⟩ else false
  | _ => false

/-- `filter(...).select_for_update().first()` -/
def lockFiltered (label : String) (wanted : Loaded app label → Bool) : Db app (Option (Loaded app label)) := do
  let entries ← Tx.scan (fun _ => isRow label wanted) false
  lockFirst label wanted ((tableRows label entries).map (·.1))

/-- Whether a row holds the referenced value. An expression is evaluated over the
columns of the row it is compared with. -/
def references (field : Field) (toField : String) (attr : Attr) (columns : Columns) : Bool :=
  match attr.eval (some columns) with
  | .error _ => false
  | .ok value =>
    match field.store value with
    | .error _ => false
    | .ok stored => stored.same (columns toField)

def checkRelation (field : Field) (attr : Attr) (ctx : ScopeContext) : Db app Unit :=
  match field.relation, attr with
  | none, _ => pure ()
  | some _, .value .none => pure ()
  | some relation, attr =>
    match app.registration relation.target with
    | none => pure ()
    | some target =>
      if target.enforce then do
        let related ← lockFiltered relation.target fun row => references field relation.toField attr row.2.column
        match related with
        | none => pure ()
        | some row =>
          let _ ← checkScope target (row.get target.scopeField.attname) ctx
          pure ()
      else pure ()

def checkRelations {model : Model} (config : Registration model) (get : String → Attr) (ctx : ScopeContext) :
    Db app Unit :=
  if config.enforce then model.fields.forM fun field => checkRelation field (get field.attname) ctx
  else pure ()

/-- `Resource.objects.get_or_create`: a creation that loses a race reads what won it. -/
def getOrCreateResource (label objectPk scope : String) (held : List Key) : Db app Unit := do
  let found ← Tx.get (V := Val app) (.resource label objectPk)
  match found with
  | some _ => pure ()
  | none =>
    tryCatch
      (Tx.atomic (Tx.insert (V := Val app) (.resource label objectPk) (⟨label, objectPk, scope, 0, ""⟩ : Resource) held))
      fun error =>
        if error = .integrityError then do
          let found ← Tx.get (V := Val app) (.resource label objectPk)
          match found with
          | some _ => pure ()
          | none => throw error
        else throw error

def appendEvent {label : String} (config : Registration (app.model label)) (row : Loaded app label)
    (action : String) (before after : Json) (ctx : ScopeContext) (held : List Key) : Db app Unit := Tx.atomic do
  let objectPk ← identity row.pk
  let scope ← identity (row.2.column config.scopeField.attname)
  getOrCreateResource label objectPk scope held
  let found : Option Resource ← Tx.lock (V := Val app) (.resource label objectPk)
  match found with
  | none => throw .doesNotExist
  | some resource =>
    if resource.scope ≠ scope then
      throw (.scopeViolation "An existing history identity cannot be reassigned to another scope.")
    let oracle ← Tx.ask
    let event : AuditEvent :=
      { revision := resource.revision + 1
        scope := scope
        actor := ctx.actor
        action := action
        before := before
        after := after
        occurredAt := oracle.now
        reason := ctx.reason
        requestId := ctx.requestId
        previousDigest := resource.digest
        digest := "" }
    let digest ← eventDigest app.sha256 resource event
    let event := { event with digest := digest }
    Tx.insert (V := Val app) (.event label objectPk event.revision) event held
    let matched ← Tx.update (V := Val app) (.resource label objectPk)
      (fun head => .ok { (head : Resource) with revision := event.revision, digest := event.digest }) held true
    if matched then pure ()
    else throw (.databaseError "Save with update_fields did not affect any rows.")

end PyScoped
