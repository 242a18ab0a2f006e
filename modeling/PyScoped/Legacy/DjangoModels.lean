import PyScoped.Foundation.Rows
import PyScoped.Foundation.Stateful
import PyScoped.Legacy.Errors
import PyScoped.Legacy.Objects

/-! The models of version 1 that Django stores and that are synced with scoped
objects: `save` writes the row and then a version of the object, `delete`
tombstones the object and then deletes the row, each in one transaction. -/

namespace PyScoped.Legacy.DjangoModels
open Foundation

/-- The value of an attribute, told apart as the serialization does. What JSON
does not have is kept as the text that the encoder falls back to. -/
inductive Value where
  | none
  | datetime (isoformat : String)
  | date (isoformat : String)
  | decimal (text : String)
  | uuid (text : String)
  | plain (value : Json)
  | other (text : String)

structure Field where
  name : String
  attname : String
  isForeignKey : Bool
  deriving DecidableEq

variable {K : Type} [DecidableEq K]

/-- A subclass of `ScopedModel`: its concrete fields besides those of the link, what
`ScopedMeta` says, what a column gives back of a value that was written to it, and
Python's `str`. A save of one whose `object_type` is empty syncs nothing, and is left out. -/
structure ModelClass (K : Type) where
  name : String
  fields : List Field
  columns : (fields.map Field.attname).Nodup
  primaryKey : Field
  keyValue : K → Value
  keyHasDefault : Bool
  scopedFields : Option (List String)
  objectType : String
  typed : objectType ≠ ""
  stored : Field → Value → Value
  str : Value → String

/-- An instance in memory. It may be changed at any time, and keeps what a save has
assigned even where the transaction is rolled back. -/
structure Instance (K : Type) where
  key : Option K
  adding : Bool
  values : String → Value
  scopedObjectId : String
  scopedOwnerId : String

structure Row (K : Type) where
  key : K
  values : String → Value
  scopedObjectId : String
  scopedOwnerId : String

structure Tombstone where
  id : String
  objectId : String
  tombstonedAt : DateTime
  tombstonedBy : String
  reason : String

structure Tables (K : Type) where
  rows : Rows (Row.key (K := K))
  objects : Rows ScopedObject.id
  versions : Rows ObjectVersion.id
  tombstones : Rows Tombstone.id

/-- What a call works on: the tables, and the instance that it was called on. -/
structure Work (K : Type) where
  tables : Tables K
  record : Instance K

abbrev Program (K : Type) (α : Type) := Stateful (Work K) Raised α

/-- Where something may raise that the call does not decide itself: a constraint, a
signal handler, a rule, a quota, the audit trail, the commit. -/
inductive Point where
  | writing
  | written
  | serializing
  | syncing
  | inserting
  | recording
  | linking
  | committing
  deriving DecidableEq

/-- What one call meets: where something raises, if it does, the key that the
database gives a new row, the identifiers that are generated, and the clock. -/
structure Attempt (K : Type) where
  fault : Option Point
  key : K
  objectId : ScopedId
  versionId : ScopedId
  tombstoneId : ScopedId
  now : DateTime

/-- What a visibility engine says to the principal of the objects of others. -/
structure VisibilityEngine where
  canSee : String → Bool
  getAccessLevel : String → Option AccessLevel

/-- The manager behind the client, for the one principal that acts. -/
structure Manager where
  principalId : String
  visibility : Option VisibilityEngine

section Serialization

/-- `_EXCLUDED_FIELDS` -/
def excludedFields : List String := ["pk", "id", "scoped_object_id", "scoped_owner_id"]

/-- `_serialize_value`, and the encoder for what it leaves as it is. -/
def serializeValue : Value → Json
  | .none => .null
  | .datetime isoformat => .str isoformat
  | .date isoformat => .str isoformat
  | .decimal text => .str text
  | .uuid text => .str text
  | .plain value => value
  | .other text => .str text

namespace ModelClass

variable (model : ModelClass K)

/-- Whether the field is serialized. -/
def isScoped (field : Field) : Bool :=
  field.name ∉ excludedFields && model.scopedFields.all fun allowed => field.name ∈ allowed

def serialize (field : Field) (value : Value) : Json :=
  if field.isForeignKey then
    match value with
    | .none => .null
    | value => .str (model.str value)
  else serializeValue value

def valueOf (key : Option K) (values : String → Value) (field : Field) : Value :=
  if field = model.primaryKey then (key.map model.keyValue).getD .none else values field.attname

/-- `_to_scoped_dict` -/
def toScopedDict (key : Option K) (values : String → Value) : Json :=
  .obj ((model.fields.filter model.isScoped).map fun field =>
    (field.name, model.serialize field (model.valueOf key values field)))

end ModelClass
end Serialization

variable (model : ModelClass K) (manager : Manager) (attempt : Attempt K)

def faultAt (point : Point) : Program K Unit :=
  if attempt.fault = some point then throw (.other "raised") else pure ()

/-- `transaction.atomic`: what raises takes the tables back, not the instance. -/
def atomic {α : Type} (body : Program K α) : Program K α := do
  let begun ← get
  try
    let result ← body
    faultAt attempt .committing
    pure result
  catch error =>
    modify fun work => { work with tables := begun.tables }
    throw error

section DjangoSave

/-- Whether `save` writes the column. -/
def writes (updateFields : Option (List String)) (name attname : String) : Bool :=
  updateFields.all fun names => name ∈ names || attname ∈ names

/-- What the statement writes of the instance into a row. -/
def Row.write (updateFields : Option (List String)) (record : Instance K) (row : Row K) : Row K where
  key := row.key
  values attname :=
    match model.fields.find? fun field => field.attname = attname with
    | some field =>
      if writes updateFields field.name attname then model.stored field (record.values attname) else row.values attname
    | none => row.values attname
  scopedObjectId :=
    if writes updateFields "scoped_object_id" "scoped_object_id" then record.scopedObjectId else row.scopedObjectId
  scopedOwnerId :=
    if writes updateFields "scoped_owner_id" "scoped_owner_id" then record.scopedOwnerId else row.scopedOwnerId

def updateRow (updateFields : Option (List String)) (key : K) : Program K Unit :=
  modify fun work => { work with tables := { work.tables with
    rows := work.tables.rows.update (fun row => row.key = key) (Row.write model updateFields work.record) fun _ => rfl } }

def insertRow (key : K) : Program K Unit := do
  let work ← get
  let row : Row K := Row.write model none work.record ⟨key, fun _ => .none, "", ""⟩
  match work.tables.rows.insert row with
  | some rows => set { work with tables := { work.tables with rows := rows } }
  | none => throw (.unique model.name)

/-- Names that are no fields of the model. -/
def unknownField (names : List String) : Bool :=
  names.any fun name => !(name ∈ ["scoped_object_id", "scoped_owner_id"] ||
    model.fields.any fun field => field ≠ model.primaryKey && (field.name = name || field.attname = name))

/-- The write of Django's `save`. A key that a default has given a new instance is
inserted; else the row is updated if there is one, and inserted if it may be. -/
def saveTable (updateFields : Option (List String)) : Program K Unit := do
  let work ← get
  match work.record.key, updateFields with
  | none, some _ => throw (.other "Cannot force an update in save() with no primary key.")
  | none, none =>
    insertRow model attempt.key
    modify fun work => { work with record := { work.record with key := some attempt.key } }
  | some key, some names =>
    if (work.tables.rows.find key).isSome then updateRow model (some names) key
    else throw (.other "Save with update_fields did not affect any rows.")
  | some key, none =>
    if (work.tables.rows.find key).isSome && !(work.record.adding && model.keyHasDefault) then updateRow model none key
    else insertRow model key

/-- `Model.save` of Django. With nothing to update it returns at once. -/
def djangoSave (updateFields : Option (List String)) : Program K Unit := do
  if updateFields = some [] then return
  else if updateFields.any (unknownField model) then throw (.other "The following fields do not exist in this model")
  else
    faultAt attempt .writing
    saveTable model attempt updateFields
    modify fun work => { work with record := { work.record with adding := false } }
    faultAt attempt .written

end DjangoSave

section Manager

def insertVersion (objectId : String) (version : Nat) (data : Json) (changeReason : String) : Program K Unit := do
  let work ← get
  let row : ObjectVersion :=
    { id := attempt.versionId.text, objectId := objectId, version := version, data := data, createdAt := attempt.now
      createdBy := manager.principalId, changeReason := changeReason }
  if work.tables.versions.list.any fun other => other.objectId = objectId && other.version = version then
    throw (.unique "object_versions")
  match work.tables.versions.insert row with
  | some versions => set { work with tables := { work.tables with versions := versions } }
  | none => throw (.unique "object_versions")

def insertObject (object : ScopedObject) : Program K Unit := do
  let work ← get
  match work.tables.objects.insert object with
  | some objects => set { work with tables := { work.tables with objects := objects } }
  | none => throw (.unique "scoped_objects")

/-- `ScopedManager.create` -/
def create (data : Json) : Program K ScopedObject := do
  faultAt attempt .syncing
  let object : ScopedObject :=
    { id := attempt.objectId.text, objectType := model.objectType, ownerId := manager.principalId, currentVersion := 1
      createdAt := attempt.now, lifecycle := .active, registryEntryId := none }
  insertObject object
  faultAt attempt .inserting
  insertVersion manager attempt object.id 1 data "created"
  faultAt attempt .recording
  return object

def getOrRaise (objectId : String) : Program K ScopedObject := do
  match (← get).tables.objects.find objectId with
  | none => throw (.scoped .accessDenied ("Object " ++ objectId ++ " not found or access denied")
      [("object_id", .str objectId), ("principal_id", .str manager.principalId)])
  | some object =>
    if object.ownerId = manager.principalId then return object
    else if manager.visibility.any fun engine => engine.canSee objectId then return object
    else throw (.scoped .accessDenied ("Principal " ++ manager.principalId ++ " cannot access object " ++ objectId)
      [("object_id", .str objectId), ("principal_id", .str manager.principalId)])

/-- The levels that grant the one that is required. -/
def granting : AccessLevel → List AccessLevel
  | .read => [.read, .write, .admin]
  | .write => [.write, .admin]
  | .admin => [.admin]

/-- `_check_access_level`, of an object that is there. -/
def checkAccessLevel (object : ScopedObject) (required : AccessLevel) : Program K Unit :=
  match manager.visibility with
  | none => pure ()
  | some engine =>
    if object.ownerId = manager.principalId then pure ()
    else
      let level := engine.getAccessLevel object.id
      if level.any fun level => level ∈ granting required then pure ()
      else throw (.scoped .accessDenied
        ("Principal " ++ manager.principalId ++ " has " ++ level.elim "no" AccessLevel.value ++ " access on object " ++ object.id ++
          ", but " ++ required.value ++ " is required")
        [("object_id", .str object.id), ("principal_id", .str manager.principalId), ("required_level", .str required.value),
          ("actual_level", level.elim .null fun level => .str level.value)])

def refuseTombstoned (object : ScopedObject) (message : String) : Program K Unit :=
  if object.lifecycle = .archived then throw (.scoped .isolationViolation message [("object_id", .str object.id)]) else pure ()

/-- An UPDATE of one object. -/
def assignObject (objectId : String) (change : ScopedObject → ScopedObject) (keeps : ∀ object, (change object).id = object.id) :
    Program K Unit :=
  modify fun work => { work with tables := { work.tables with
    objects := work.tables.objects.update (fun other => other.id = objectId) change keeps } }

/-- `ScopedManager.update` -/
def update (objectId : String) (data : Json) : Program K Unit := do
  let object ← getOrRaise manager objectId
  checkAccessLevel manager object .write
  faultAt attempt .syncing
  refuseTombstoned object ("Cannot update tombstoned object " ++ objectId)
  insertVersion manager attempt objectId (object.currentVersion + 1) data ""
  faultAt attempt .inserting
  assignObject objectId (fun other => { other with currentVersion := object.currentVersion + 1 }) fun _ => rfl
  faultAt attempt .recording

def insertTombstone (row : Tombstone) : Program K Unit := do
  let work ← get
  if work.tables.tombstones.list.any fun other => other.objectId = row.objectId then
    throw (.unique "tombstones")
  match work.tables.tombstones.insert row with
  | some tombstones => set { work with tables := { work.tables with tombstones := tombstones } }
  | none => throw (.unique "tombstones")

/-- `ScopedManager.tombstone` -/
def tombstone (objectId reason : String) : Program K Unit := do
  let object ← getOrRaise manager objectId
  checkAccessLevel manager object .admin
  faultAt attempt .syncing
  refuseTombstoned object ("Object " ++ objectId ++ " is already tombstoned")
  assignObject objectId (fun other => { other with lifecycle := .archived }) fun _ => rfl
  faultAt attempt .inserting
  insertTombstone
    { id := attempt.tombstoneId.text, objectId := objectId, tombstonedAt := attempt.now
      tombstonedBy := manager.principalId, reason := reason }
  faultAt attempt .recording

end Manager

/-- The UPDATE of the row that stores the identifiers. -/
def linkRow (object : ScopedObject) : Program K Unit :=
  modify fun work => { work with tables := { work.tables with
    rows := work.tables.rows.update (fun row => work.record.key = some row.key)
      (fun row => { row with scopedObjectId := object.id, scopedOwnerId := object.ownerId }) fun _ => rfl } }

/-- The second half of `save`: the first version of a new object, whose identifier
the instance and the row are given, or the next version. -/
def sync (isNew : Bool) (data : Json) : Program K Unit := do
  if isNew then
    let object ← create model manager attempt data
    modify fun work => { work with record := { work.record with
      scopedObjectId := object.id, scopedOwnerId := object.ownerId } }
    faultAt attempt .linking
    linkRow object
  else
    update manager attempt (← get).record.scopedObjectId data

/-- What `save` does in its transaction. -/
def saveAndSync (updateFields : Option (List String)) : Program K Unit := do
  let isNew := (← get).record.scopedObjectId = ""
  djangoSave model attempt updateFields
  faultAt attempt .serializing
  let record := (← get).record
  sync model manager attempt isNew (model.toScopedDict record.key record.values)

/-- `ScopedModel.save`, with a client and a principal. -/
def save (updateFields : Option (List String)) : Program K Unit :=
  atomic attempt (saveAndSync model manager attempt updateFields)

def deleteRow (key : K) : Program K Unit :=
  modify fun work => { work with tables := { work.tables with rows := work.tables.rows.delete fun row => row.key = key } }

/-- `Model.delete` of Django, which takes the key from the instance. -/
def djangoDelete : Program K Unit := do
  faultAt attempt .writing
  match (← get).record.key with
  | none => throw (.other (model.name ++ " object can't be deleted because its id attribute is set to None."))
  | some key =>
    deleteRow key
    faultAt attempt .written
    modify fun work => { work with record := { work.record with key := none } }

/-- The object of an instance that has one. -/
def tombstoneLinked (objectId : String) : Program K Unit :=
  if objectId ≠ "" then tombstone manager attempt objectId ("Deleted via Django ORM (" ++ model.name ++ ")") else pure ()

/-- `ScopedModel.delete` -/
def delete : Program K Unit :=
  atomic attempt do
    tombstoneLinked model manager attempt (← get).record.scopedObjectId
    djangoDelete model attempt

end PyScoped.Legacy.DjangoModels
