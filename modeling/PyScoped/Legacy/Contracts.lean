import PyScoped.Foundation.Values
import PyScoped.Legacy.Errors

/-! Contracts of version 1: the check of a data dictionary against a version of
a contract, and the difference between two versions. -/

namespace PyScoped.Legacy.Contracts
open Foundation

inductive FieldType where
  | string | integer | float | boolean | datetime | json | list | ref | blob | any
  deriving DecidableEq, Repr

def FieldType.value : FieldType → String
  | .string => "string"
  | .integer => "integer"
  | .float => "float"
  | .boolean => "boolean"
  | .datetime => "datetime"
  | .json => "json"
  | .list => "list"
  | .ref => "ref"
  | .blob => "blob"
  | .any => "any"

structure ContractField where
  name : String
  fieldType : FieldType
  required : Bool
  default : PyValue
  description : String
  constraints : List (String × PyValue)

def ContractField.snapshot (field : ContractField) : PyValue := .dict
  [("name", .str field.name), ("field_type", .str field.fieldType.value), ("required", .bool field.required),
    ("default", field.default), ("description", .str field.description), ("constraints", .dict field.constraints)]

structure ContractConstraint where
  name : String
  constraintType : String
  config : List (String × PyValue)
  description : String

/-- A version with what the check and the difference read of it. -/
structure ContractVersion where
  version : Nat
  fields : List ContractField
  constraints : List ContractConstraint

abbrev Data := List (String × PyValue)

def Data.has (data : Data) (key : String) : Bool := (data.lookup key).isSome

/-- The errors of a check, each with what its message shows. -/
inductive Complaint where
  | missing (name : String)
  | wrongType (name expected : String) (value : PyValue)
  | constraint (name key : String) (value bound : PyValue)
  | unknown (key : String)
  | atLeastOne (name : String) (fields : PyValue)
  | dependsOn (name : String) (field needed : PyValue)
  | mutuallyExclusive (name : String) (present : List PyValue)

/-- What Python's `str`, `repr` and `type(...).__name__` write. -/
structure Texts where
  str : PyValue → String
  repr : PyValue → String
  typeName : PyValue → String

def Complaint.text (texts : Texts) : Complaint → String
  | .missing name => "Missing required field: " ++ name
  | .wrongType name expected value =>
    "Field '" ++ name ++ "': expected " ++ expected ++ ", got " ++ texts.typeName value
  | .constraint name "min_length" value bound =>
    "Field '" ++ name ++ "': length " ++ texts.str value ++ " < min_length " ++ texts.str bound
  | .constraint name "max_length" value bound =>
    "Field '" ++ name ++ "': length " ++ texts.str value ++ " > max_length " ++ texts.str bound
  | .constraint name "min_value" value bound =>
    "Field '" ++ name ++ "': " ++ texts.str value ++ " < min_value " ++ texts.str bound
  | .constraint name "max_value" value bound =>
    "Field '" ++ name ++ "': " ++ texts.str value ++ " > max_value " ++ texts.str bound
  | .constraint name "pattern" _ bound => "Field '" ++ name ++ "': does not match pattern '" ++ texts.str bound ++ "'"
  | .constraint name _ value bound =>
    "Field '" ++ name ++ "': " ++ texts.repr value ++ " not in allowed choices " ++ texts.str bound
  | .unknown key => "Unknown field: " ++ key
  | .atLeastOne name fields => "Constraint '" ++ name ++ "': at least one of " ++ texts.str fields ++ " must be provided"
  | .dependsOn name field needed =>
    "Constraint '" ++ name ++ "': field '" ++ texts.str field ++ "' requires '" ++ texts.str needed ++ "' to be present"
  | .mutuallyExclusive name present =>
    "Constraint '" ++ name ++ "': fields " ++ texts.str (.list present) ++ " are mutually exclusive"

structure ValidationResult where
  valid : Bool
  errors : List Complaint

def typeError (message : String) : Raised := .other message

/-- `isinstance(value, _TYPE_VALIDATORS[field_type])`; a boolean is an integer. -/
def FieldType.admits : FieldType → PyValue → Bool
  | .string, .str _ | .datetime, .str _ | .ref, .str _ | .blob, .str _ => true
  | .integer, .bool _ | .integer, .int _ => true
  | .float, .bool _ | .float, .int _ | .float, .float _ | .float, .inf _ | .float, .nan _ => true
  | .boolean, .bool _ => true
  | .json, .dict _ | .json, .list _ => true
  | .list, .list _ => true
  | .any, _ => true
  | _, _ => false

/-- `first < second`, where one of the two is a number. -/
def lessThan (first second : PyValue) : Except Raised Bool :=
  match first.number, second.number with
  | some first, some second => .ok (first.less second)
  | _, _ => .error (typeError "'<' not supported between these instances")

/-- `value in container` -/
def contains (container value : PyValue) : Except Raised Bool :=
  match container, value with
  | .list items, value => .ok (value.among items)
  | .str text, .str part => .ok (decide (part.toList <:+: text.toList))
  | .str _, _ => .error (typeError "'in <string>' requires string as left operand")
  | .dict members, .str key => .ok (members.lookup key).isSome
  | .dict _, value => if value.hashable then .ok false else .error (typeError "unhashable type")
  | _, _ => .error (typeError "argument is not iterable")

/-- `re.match(pattern, text)`, given that of two strings. -/
def reMatch (regex : String → String → Except Raised Bool) (pattern : PyValue) (text : String) : Except Raised Bool :=
  match pattern with
  | .str pattern => regex pattern text
  | _ => .error (typeError "first argument must be string or compiled pattern")

def lengthOf : PyValue → Option PyValue
  | .str text => some (.int text.length)
  | _ => none

def textOf : PyValue → Option PyValue
  | .str text => some (.str text)
  | _ => none

def numberOf (value : PyValue) : Option PyValue := if value.number.isSome then some value else none

variable (regex : String → String → Except Raised Bool)

/-- A check of a field against one key of its constraints: what it measures,
and when the measure violates the bound. -/
structure FieldCheck where
  key : String
  measure : PyValue → Option PyValue
  violates : PyValue → PyValue → Except Raised Bool

def minLength : FieldCheck := ⟨"min_length", lengthOf, fun length bound => lessThan length bound⟩

def maxLength : FieldCheck := ⟨"max_length", lengthOf, fun length bound => lessThan bound length⟩

def minValue : FieldCheck := ⟨"min_value", numberOf, fun value bound => lessThan value bound⟩

def maxValue : FieldCheck := ⟨"max_value", numberOf, fun value bound => lessThan bound value⟩

def matchesPattern (text bound : PyValue) : Except Raised Bool :=
  match text with
  | .str text => (reMatch regex bound text).map not
  | _ => .ok false

def pattern : FieldCheck := ⟨"pattern", textOf, matchesPattern regex⟩

def choices : FieldCheck := ⟨"choices", some, fun value bound => (contains bound value).map not⟩

def fieldChecks : List FieldCheck := [minLength, maxLength, minValue, maxValue, pattern regex, choices]

def FieldCheck.run (check : FieldCheck) (field : ContractField) (value : PyValue) : Except Raised (List Complaint) :=
  match field.constraints.lookup check.key, check.measure value with
  | some bound, some measured => (check.violates measured bound).map fun violated =>
    if violated then [.constraint field.name check.key measured bound] else []
  | _, _ => .ok []

/-- The type and the constraints of a field that the data has. -/
def checkField (data : Data) (field : ContractField) : Except Raised (List Complaint) :=
  match data.lookup field.name with
  | none => .ok []
  | some value =>
    if !field.fieldType.admits value then .ok [.wrongType field.name field.fieldType.value value]
    else do
      let found ← (fieldChecks regex).mapM fun check => check.run field value
      return found.flatten

def missingFields (data : Data) (fields : List ContractField) : List Complaint :=
  (fields.filter fun field => field.required && !data.has field.name && decide (field.default = .none)).map fun field =>
    .missing field.name

def ContractVersion.fieldNames (version : ContractVersion) : List String := version.fields.map ContractField.name

def unknownFields (data : Data) (version : ContractVersion) : List Complaint :=
  ((data.map Prod.fst).filter fun key => !version.fieldNames.contains key).map .unknown

/-- `iter(value)` -/
def iterate : PyValue → Except Raised (List PyValue)
  | .list items => .ok items
  | .str text => .ok (text.toList.map fun char => .str (String.singleton char))
  | .dict members => .ok (members.map fun member => .str member.1)
  | _ => .error (typeError "object is not iterable")

/-- `data.get(key)`, and `key in data` where there is one. -/
def get (data : Data) (key : PyValue) : Except Raised (Option PyValue) :=
  match key with
  | .str key => .ok (data.lookup key)
  | key => if key.hashable then .ok none else .error (typeError "unhashable type")

/-- `any(data.get(f) for f in fields)` stops at the first that is true. -/
def anyTruth (data : Data) : List PyValue → Except Raised Bool
  | [] => return false
  | field :: fields => do
    let value ← get data field
    if value.any PyValue.truth then return true else anyTruth data fields

/-- `[f for f in fields if f in data]` -/
def presentFields (data : Data) : List PyValue → Except Raised (List PyValue)
  | [] => return []
  | field :: fields => do
    let value ← get data field
    let rest ← presentFields data fields
    return if value.isSome then field :: rest else rest

def validateConstraint (data : Data) (constraint : ContractConstraint) : Except Raised (List Complaint) :=
  if constraint.constraintType = "at_least_one" then do
    let fields := (constraint.config.lookup "fields").getD (.list [])
    let provided ← anyTruth data (← iterate fields)
    return if provided then [] else [.atLeastOne constraint.name fields]
  else if constraint.constraintType = "depends_on" then do
    let field := (constraint.config.lookup "field").getD (.str "")
    let dependsOn := (constraint.config.lookup "depends_on").getD (.str "")
    if !(← get data field).isSome then return []
    else return if (← get data dependsOn).isSome then [] else [.dependsOn constraint.name field dependsOn]
  else if constraint.constraintType = "mutually_exclusive" then do
    let fields := (constraint.config.lookup "fields").getD (.list [])
    let present ← presentFields data (← iterate fields)
    return if 1 < present.length then [.mutuallyExclusive constraint.name present] else []
  else return []

def validateAgainstVersion (data : Data) (version : ContractVersion) : Except Raised ValidationResult := do
  let fieldErrors ← version.fields.mapM (checkField regex data)
  let constraintErrors ← version.constraints.mapM (validateConstraint data)
  let errors := missingFields data version.fields ++ fieldErrors.flatten ++ unknownFields data version
    ++ constraintErrors.flatten
  return ⟨errors.isEmpty, errors⟩

/-- `{f.name: f for f in fields}[name]`: of fields with one name the last counts. -/
def named (fields : List ContractField) (name : String) : Option ContractField :=
  fields.reverse.find? fun field => field.name = name

/-- The keys of `{f.name: f for f in fields}`, each where it stood first. -/
def names : List ContractField → List String
  | [] => []
  | field :: fields => field.name :: (names fields).filter fun name => name ≠ field.name

structure ContractDiff where
  addedFields : List String
  removedFields : List String
  modifiedFields : List String
  oldVersion : Nat
  newVersion : Nat

/-- The fields of a version that another has no field of the name for. -/
def fieldsBeyond (fields others : List ContractField) : List ContractField :=
  fields.filter fun field => (named others field.name).isNone

/-- A field of both versions whose snapshots differ. -/
def isModified (old new : List ContractField) (name : String) : Bool :=
  match named old name, named new name with
  | some field, some field' => !decide (field.snapshot.Equals field'.snapshot)
  | _, _ => false

def diffContracts (old new : ContractVersion) : ContractDiff where
  addedFields := (fieldsBeyond new.fields old.fields).map ContractField.name
  removedFields := (fieldsBeyond old.fields new.fields).map ContractField.name
  modifiedFields := (names old.fields).filter (isModified old.fields new.fields)
  oldVersion := old.version
  newVersion := new.version

end PyScoped.Legacy.Contracts
