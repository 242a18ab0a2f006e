import PyScoped.Foundation.Stateful
import PyScoped.Legacy.Tenancy

/-! Settings of version 1 scopes: the store that writes them, and the resolver
that looks for them up the scope hierarchy. Times and JSON stand in the rows as
the values their texts denote. -/

namespace PyScoped.Legacy.Config
open Foundation

structure ScopedSetting where
  id : String
  scopeId : String
  key : String
  value : Json
  createdAt : DateTime
  createdBy : String
  updatedAt : Option DateTime
  updatedBy : Option String
  description : String
  lifecycle : Lifecycle

/-- A row of `scope_settings`. An empty text in place of the JSON is nothing. -/
structure SettingRow where
  id : String
  scopeId : String
  key : String
  valueJson : Option Json
  description : String
  createdAt : DateTime
  createdBy : String
  updatedAt : Option DateTime
  updatedBy : Option String
  lifecycle : Lifecycle

def settingFromRow (row : SettingRow) : ScopedSetting where
  id := row.id
  scopeId := row.scopeId
  key := row.key
  value := row.valueJson.getD .null
  createdAt := row.createdAt
  createdBy := row.createdBy
  updatedAt := row.updatedAt
  updatedBy := row.updatedBy
  description := row.description
  lifecycle := row.lifecycle

namespace SettingRow

/-- The columns of the unique constraint, which leaves the lifecycle out. -/
def address (row : SettingRow) : String × String := (row.scopeId, row.key)

def isActive (row : SettingRow) : Bool := row.lifecycle = .active

/-- An `UPDATE` that assigns no column of a constraint. -/
structure Assignment where
  change : SettingRow → SettingRow
  id : ∀ row, (change row).id = row.id
  address : ∀ row, (change row).address = row.address

end SettingRow

/-- What an audit writer is given. -/
structure Record where
  actorId : String
  action : ActionType
  targetId : String
  scopeId : String
  before : Option ScopedSetting
  after : Option ScopedSetting

structure Database where
  scopes : List Scope
  settings : List SettingRow
  records : List Record
  primaryKey : (settings.map (·.id)).Nodup
  unique : (settings.map (·.address)).Nodup

abbrev Program := Stateful Database Raised

/-- `SELECT * FROM scope_settings WHERE scope_id = ? AND key = ? AND lifecycle = 'ACTIVE'` -/
def Database.fetchOne (database : Database) (scopeId key : String) : Option SettingRow :=
  database.settings.find? fun row => row.address = (scopeId, key) ∧ row.isActive

def insertRow (row : SettingRow) : Program Unit := do
  let database ← get
  if free : row.id ∉ database.settings.map (·.id) ∧ row.address ∉ database.settings.map (·.address) then
    set { database with
      settings := database.settings ++ [row]
      primaryKey := by simpa [List.nodup_append, database.primaryKey] using free.1
      unique := by simpa [List.nodup_append, database.unique] using free.2 }
  else throw (.unique "scope_settings")

/-- `UPDATE scope_settings SET ... WHERE id = ?` -/
def updateRow (id : String) (assignment : SettingRow.Assignment) : Program Unit :=
  modify fun database => { database with
    settings := database.settings.map fun row => if row.id = id then assignment.change row else row
    primaryKey := by
      have same : ∀ row : SettingRow, (if row.id = id then assignment.change row else row).id = row.id := by
        intro row
        split
        · exact assignment.id row
        · rfl
      simpa [Function.comp_def, same] using database.primaryKey
    unique := by
      have same : ∀ row : SettingRow, (if row.id = id then assignment.change row else row).address = row.address := by
        intro row
        split
        · exact assignment.address row
        · rfl
      simpa [Function.comp_def, same] using database.unique }

def recordIf (audit : Bool) (record : Record) : Program Unit :=
  if audit then modify fun database => { database with records := database.records ++ [record] } else pure ()

def getScopeOrRaise (scopeId : String) : Program Scope := do
  match (← get).scopes.find? (·.id = scopeId) with
  | some scope => return scope
  | none => throw (.scoped .scopeNotFound ("Scope " ++ scopeId ++ " not found") [("scope_id", .str scopeId)])

def requireMutable (scope : Scope) : Program Unit :=
  if scope.isFrozen then
    throw (.scoped .scopeFrozen ("Scope " ++ scope.id ++ " is frozen") [("scope_id", .str scope.id)])
  else if scope.isArchived then
    throw (.scoped .scopeFrozen ("Scope " ++ scope.id ++ " is archived") [("scope_id", .str scope.id)])
  else pure ()

def requireOwner (scope : Scope) (principalId : String) : Program Unit :=
  if scope.ownerId ≠ principalId then
    throw (.scoped .accessDenied ("Principal " ++ principalId ++ " is not the owner of scope " ++ scope.id)
      [("scope_id", .str scope.id), ("principal_id", .str principalId)])
  else pure ()

namespace ConfigStore

def overwrite (value : Json) (ts : DateTime) (principalId description : String) : SettingRow.Assignment where
  change row := { row with
    valueJson := some value, updatedAt := some ts, updatedBy := some principalId, description := description }
  id _ := rfl
  address _ := rfl

def archive : SettingRow.Assignment where
  change row := { row with lifecycle := .archived }
  id _ := rfl
  address _ := rfl

/-- `ts` is the clock's time, `settingId` the identifier that is generated for a new row. -/
def set (audit : Bool) (ts : DateTime) (settingId : ScopedId) (scopeId key : String) (value : Json)
    (principalId description : String) : Program ScopedSetting := do
  let scope ← getScopeOrRaise scopeId
  requireMutable scope
  requireOwner scope principalId
  match (← get).fetchOne scopeId key with
  | some existing =>
    let before := settingFromRow existing
    updateRow existing.id (overwrite value ts principalId description)
    let setting : ScopedSetting :=
      { id := existing.id, scopeId, key, value, createdAt := before.createdAt, createdBy := before.createdBy
        updatedAt := some ts, updatedBy := some principalId, description, lifecycle := .active }
    recordIf audit ⟨principalId, .configSet, setting.id, scopeId, some before, some setting⟩
    return setting
  | none =>
    let setting : ScopedSetting :=
      { id := settingId.text, scopeId, key, value, createdAt := ts, createdBy := principalId
        updatedAt := none, updatedBy := none, description, lifecycle := .active }
    insertRow
      { id := settingId.text, scopeId, key, valueJson := some value, description, createdAt := ts
        createdBy := principalId, updatedAt := none, updatedBy := none, lifecycle := .active }
    recordIf audit ⟨principalId, .configSet, settingId.text, scopeId, none, some setting⟩
    return setting

/-- Reads the scope itself, without inheritance. -/
def get (database : Database) (scopeId key : String) : Option ScopedSetting :=
  (database.fetchOne scopeId key).map settingFromRow

def delete (audit : Bool) (scopeId key principalId : String) : Program Bool := do
  let scope ← getScopeOrRaise scopeId
  requireMutable scope
  requireOwner scope principalId
  match (← MonadState.get).fetchOne scopeId key with
  | none => return false
  | some existing =>
    updateRow existing.id archive
    recordIf audit ⟨principalId, .configDelete, existing.id, scopeId, some (settingFromRow existing), none⟩
    return true

def listSettings (database : Database) (scopeId : String) (includeArchived : Bool) : List ScopedSetting :=
  let rows := database.settings.filter fun row => row.scopeId = scopeId ∧ (includeArchived ∨ row.isActive)
  (rows.insertionSort fun first second => first.key ≤ second.key).map settingFromRow

end ConfigStore

structure ResolvedSetting where
  key : String
  value : Json
  sourceScopeId : String
  inherited : Bool
  resolutionChain : List (String × Json)

/-- Nothing also where there is no such scope. -/
def Database.parentScopeId (database : Database) (scopeId : String) : Option String :=
  (database.scopes.find? (·.id = scopeId)).bind (·.parentScopeId)

namespace ConfigResolver

/-- The scope and those above it, one for each turn of the loop. -/
def chain (database : Database) : Nat → String → List String
  | 0, _ => []
  | turns + 1, current =>
    current :: match database.parentScopeId current with
      | none => []
      | some parent => chain database turns parent

/-- How often `for _ in range(max_depth + 1)` turns. -/
def turns (maxDepth : Int) : Nat := (maxDepth + 1).toNat

def resolve (database : Database) (maxDepth : Int) (scopeId key : String) : Option ResolvedSetting :=
  let chainIds := chain database (turns maxDepth) scopeId
  let resolutionChain := chainIds.reverse.filterMap fun sid =>
    (ConfigStore.get database sid key).map fun setting => (sid, setting.value)
  resolutionChain.getLast?.map fun (winnerScope, winnerValue) =>
    { key, value := winnerValue, sourceScopeId := winnerScope, inherited := winnerScope ≠ scopeId, resolutionChain }

/-- The two dictionaries that the walk over all keys fills. -/
structure Collected where
  chains : String → Option (List (String × Json))
  result : String → Option ResolvedSetting

/-- One turn of the inner loop. -/
def collect (scopeId sid : String) (collected : Collected) (s : ScopedSetting) : Collected :=
  let values := (collected.chains s.key).getD [] ++ [(sid, s.value)]
  { chains := Function.update collected.chains s.key (some values)
    result := Function.update collected.result s.key (some
      { key := s.key, value := s.value, sourceScopeId := sid, inherited := sid ≠ scopeId, resolutionChain := values }) }

def resolveAll (database : Database) (maxDepth : Int) (scopeId : String) : String → Option ResolvedSetting :=
  let chainIds := chain database (turns maxDepth) scopeId
  let collected := chainIds.reverse.foldl
    (fun collected sid => (ConfigStore.listSettings database sid false).foldl (collect scopeId sid) collected)
    ⟨fun _ => none, fun _ => none⟩
  collected.result

/-- The value without where it comes from, or the default. -/
def effectiveValue (database : Database) (maxDepth : Int) (scopeId key : String) (default : Json) : Json :=
  match resolve database maxDepth scopeId key with
  | none => default
  | some resolved => resolved.value

end ConfigResolver
end PyScoped.Legacy.Config
