import PyScoped.Core.Models
import PyScoped.Foundation.Blocks

/-! Models as the registry sees them, the rows of their tables, and the store of
rows, resources and events. A row can only be built where every column holds
what its type stores. -/

namespace PyScoped
open Foundation

/-- A foreign key: the model it points to, the column there, and that column's `to_python`. -/
structure Relation where
  target : String
  toField : String
  toPython : Json → Except Err Value

structure Field where
  name : String
  attname : String
  relation : Option Relation
  toPython : Json → Except Err Value
  /-- What the column reads back after a value was written to it. -/
  store : Value → Except Err Value
  stable : ∀ {value stored}, store value = .ok stored → store stored = .ok stored

/-- `target_field` of a relation, the field itself otherwise. -/
def Field.expected (field : Field) : Json → Except Err Value :=
  match field.relation with
  | some relation => relation.toPython
  | none => field.toPython

structure Model where
  label : String
  fields : List Field
  pk : Field
  /-- Whether a new instance gets its key from a default of the field. -/
  pkDefault : Bool
  pkOrder : String → String → Bool
  pkMember : pk ∈ fields
  distinct : (fields.map (·.attname)).Nodup

/-- The stored key as it names the row, its history and its lock. -/
def Model.keyText (model : Model) (pk : Value) : Except Err String := (model.pk.store pk).map Value.text

structure Registration (model : Model) where
  scopeField : Field
  fields : List Field
  enforce : Bool
  scopeMember : scopeField ∈ model.fields
  scopeNotKey : scopeField.attname ≠ model.pk.attname
  fieldsMember : ∀ field ∈ fields, field ∈ model.fields
  nonempty : fields ≠ []

/-- An installed application. Models go by their lower-case label. -/
structure App where
  model : String → Model
  registration : (label : String) → Option (Registration (model label))
  sha256 : String → String

abbrev Columns := String → Value

structure Row (model : Model) (pk : String) where
  column : Columns
  keyed : (column model.pk.attname).text = pk
  stored : ∀ field ∈ model.fields, field.store (column field.attname) = .ok (column field.attname)

/-- Columns that do not fit the table are refused, and so is a changed primary
key: the operation that changed it no longer finds its row. -/
def Row.make {model : Model} {pk : String} (column : Columns) : Except Err (Row model pk) :=
  if fits : (column model.pk.attname).text = pk ∧
      ∀ field ∈ model.fields, field.store (column field.attname) = .ok (column field.attname) then
    .ok ⟨column, fits.1, fits.2⟩
  else .error (.databaseError "The row does not fit its table.")

theorem Row.make_column {model : Model} {pk : String} {column : Columns} {row : Row model pk}
    (made : Row.make column = .ok row) : row.column = column := by
  unfold Row.make at made
  split at made <;> cases made
  rfl

inductive Key where
  | row (label pk : String)
  | resource (label pk : String)
  | event (label pk : String) (revision : Nat)
  deriving DecidableEq

abbrev Val (app : App) : Key → Type
  | .row label pk => Row (app.model label) pk
  | .resource _ _ => Resource
  | .event _ _ _ => AuditEvent

/-- The clock, and the keys that defaults and sequences produce. -/
structure Oracle where
  now : DateTime
  fresh : Value
  set : fresh ≠ .none

abbrev Db (app : App) (α : Type) := Tx (Val app) Oracle Err α

/-- A row that was loaded, with the text of its key. -/
abbrev Loaded (app : App) (label : String) := Σ pk : String, Row (app.model label) pk

def Loaded.pk {app : App} {label : String} (row : Loaded app label) : Value :=
  row.2.column (app.model label).pk.attname

theorem Loaded.keyText {app : App} {label : String} (row : Loaded app label) :
    (app.model label).keyText row.pk = .ok row.1 := by
  unfold Model.keyText Loaded.pk
  rw [row.2.stored _ (app.model label).pkMember]
  exact congrArg Except.ok row.2.keyed

/-- An attribute of an instance: a value, or an expression for the database,
evaluated over the old columns of its row if there is one. -/
inductive Attr where
  | value (value : Value)
  | expression (text : String) (eval : Option Columns → Except Err Value)

namespace Attr

def identity : Attr → Except Err String
  | .value own => PyScoped.identity own
  | .expression text _ => PyScoped.identity (.str text)

def eval (columns : Option Columns) : Attr → Except Err Value
  | .value own => .ok own
  | .expression _ eval => eval columns

def same (attr : Attr) (value : Value) : Bool :=
  match attr with
  | .value own => own.same value
  | .expression _ _ => false

end Attr

/-- An instance in memory. -/
structure Instance where
  pk : Value
  attr : String → Attr
  adding : Bool

def Instance.get (model : Model) (inst : Instance) (attname : String) : Attr :=
  if attname = model.pk.attname then .value inst.pk else inst.attr attname

def Loaded.get {app : App} {label : String} (row : Loaded app label) (attname : String) : Attr :=
  .value (row.2.column attname)

structure Override where
  label : String
  pk : Value
  action : String

/-- What an operation finds in its surroundings: the entered context, the action
that a restoration sets, and the rows that enclosing operations have in flight. -/
structure Env where
  context : Option Active
  override : Option Override
  held : List Key

def Env.current (env : Env) : Except Err Active := currentContext env.context

end PyScoped
