import PyScoped.Foundation.Stateful

/-! Registration of models, and the guards on the relations between them. Classes
are created one after the other. A relation that is given by a name, and the
accessor it leaves on its target, are there once both classes are. -/

namespace PyScoped.Guards
open Foundation

inductive Mode where
  | audit
  | enforce
  deriving DecidableEq

inductive Error where
  | improperlyConfigured (message : String)
  | attributeError (name : String)
  deriving DecidableEq

/-- What a relation field was given as its target. -/
inductive Reference (M : Type) where
  | model (model : M)
  | label (label : String)

structure Relation (M : Type) where
  reference : Reference M
  oneToOne : Bool
  /-- The name of the reverse accessor, unless it is hidden. -/
  accessor : Option String

structure Field (M : Type) where
  name : String
  relation : Option (Relation M)
  concrete : Bool
  manyToMany : Bool
  primaryKey : Bool
  null : Bool

structure Manager where
  name : String
  /-- A `ScopedManager` whose querysets are `ScopedQuerySet`s. -/
  isScoped : Bool

/-- `_meta` of a class. -/
structure Options (M : Type) where
  label : String
  isAbstract : Bool
  isProxy : Bool
  parents : List M
  isCompositePk : Bool
  managers : List Manager
  fields : List (Field M)
  /-- What else `get_field` finds. -/
  others : List (Field M)

def Reference.Names {M : Type} (options : M → Options M) (reference : Reference M) (target : M) : Prop :=
  reference = .model target ∨ reference = .label (options target).label

/-- The classes of a project. Labels are unique, and so are the attributes that
relations and their accessors get on one class, as Django's checks demand. -/
structure Schema (M : Type) where
  options : M → Options M
  labels : Function.Injective fun model => (options model).label
  names : ∀ model, ((options model).fields.map (·.name)).Nodup
  apart : ∀ source, ∀ field ∈ (options source).fields, ∀ relation ∈ field.relation, ∀ target,
    relation.reference.Names options target → ∀ name ∈ relation.accessor,
      ∀ other ∈ (options target).fields, other.name ≠ name
  accessors : ∀ source, ∀ field ∈ (options source).fields, ∀ relation ∈ field.relation,
    ∀ source', ∀ field' ∈ (options source').fields, ∀ relation' ∈ field'.relation, ∀ target,
      relation.reference.Names options target → relation'.reference.Names options target →
        ∀ name ∈ relation.accessor, name ∈ relation'.accessor → source = source' ∧ field.name = field'.name

structure Registration (M : Type) where
  model : M
  scopeField : String
  fields : List String
  mode : Mode
  deriving DecidableEq

/-- A relation descriptor. Each wrapping class adds the registration it is bound to. -/
structure Descriptor (M : Type) where
  guards : List (Registration M)
  deriving DecidableEq

/-- `_registry`, the application registry, and the descriptors of the classes that exist. -/
structure State (M : Type) where
  defined : List M
  modelsReady : Bool
  readied : Bool
  registry : List (Registration M)
  attributes : M → String → Option (Descriptor M)

def State.start {M : Type} : State M := ⟨[], false, false, [], fun _ _ => none⟩

abbrev Program (M : Type) := Stateful (State M) Error

variable {M : Type} [DecidableEq M] (schema : Schema M)

/-- The class that `remote_field.model` is, as long as it is not just a name. -/
def resolve (state : State M) : Reference M → Option M
  | .model model => some model
  | .label label => state.defined.find? fun model => (schema.options model).label = label

def getattr (model : M) (name : String) : Program M (Descriptor M) := do
  match (← get).attributes model name with
  | some descriptor => return descriptor
  | none => throw (.attributeError name)

def setattr (model : M) (name : String) (descriptor : Descriptor M) : Program M Unit :=
  modify fun state =>
    let own := Function.update (state.attributes model) name (some descriptor)
    { state with attributes := Function.update state.attributes model own }

/-- Wraps the descriptor, unless it is wrapped. -/
def wrap (model : M) (name : String) (target : Registration M) : Program M Unit := do
  let descriptor ← getattr model name
  if descriptor.guards.isEmpty then setattr model name ⟨target :: descriptor.guards⟩
  else pure ()

def find (registrations : List (Registration M)) (model : M) : Option (Registration M) :=
  registrations.find? (·.model = model)

def guardForward (protectedModels : List (Registration M)) (model : M) (field : Field M) : Program M Unit := do
  match field.relation with
  | none => pure ()
  | some relation =>
    match (resolve schema (← get) relation.reference).bind (find protectedModels) with
    | none => pure ()
    | some target => wrap model field.name target

/-- `_meta.related_objects`: the relations to the class that are not hidden, with the classes they are on. -/
def relatedObjects (state : State M) (model : M) : List (M × Relation M × String) :=
  state.defined.flatMap fun source => (schema.options source).fields.filterMap fun field =>
    match field.relation with
    | none => none
    | some relation =>
      if resolve schema state relation.reference = some model then relation.accessor.map (source, relation, ·) else none

def guardReverse (protectedModels : List (Registration M)) (model : M) (related : M × Relation M × String) :
    Program M Unit := do
  match find protectedModels related.1 with
  | none => pure ()
  | some target => if related.2.1.oneToOne then wrap model related.2.2 target else pure ()

/-- One turn of the scan. Accessors can be listed only when all models are loaded. -/
def guardModel (state : State M) (protectedModels : List (Registration M)) (model : M) : Program M Unit := do
  (schema.options model).fields.forM (guardForward schema protectedModels model)
  if state.modelsReady then (relatedObjects schema state model).forM (guardReverse protectedModels model)
  else pure ()

def installRelationGuards : Program M Unit := do
  let state ← get
  let protectedModels := state.registry.filter (·.mode = .enforce)
  protectedModels.forM fun config => guardModel schema state protectedModels config.model

def getField (model : M) (name : String) : Option (Field M) :=
  ((schema.options model).fields ++ (schema.options model).others).find? (·.name = name)

def checkField (model : M) (name : String) : Except Error Unit :=
  match getField schema model name with
  | none => .error (.improperlyConfigured ("Unknown field '" ++ name ++ "' on " ++ (schema.options model).label ++ "."))
  | some field =>
    if !field.concrete || field.manyToMany || field.primaryKey then
      .error (.improperlyConfigured "Scope/audit fields must be concrete, non-PK columns.")
    else .ok ()

/-- What `register` asks of a class and of its options. A missing list of fields is one that is no tuple or list. -/
def validate (model : M) (scopeField : String) (fields : Option (List String)) (mode : String) :
    Except Error (Registration M) := do
  let options := schema.options model
  if options.isAbstract || options.isProxy || !options.parents.isEmpty then
    throw (.improperlyConfigured "Register a concrete model without multi-table inheritance.")
  if options.isCompositePk then
    throw (.improperlyConfigured "Composite primary keys are outside initial 2.0 support.")
  options.managers.forM fun manager =>
    if manager.isScoped then .ok ()
    else .error (.improperlyConfigured
      (options.label ++ "." ++ manager.name ++ " needs ScopedManager and ScopedQuerySet."))
  let mode ← match mode with
    | "audit" => .ok Mode.audit
    | "enforce" => .ok Mode.enforce
    | _ => .error (.improperlyConfigured "mode must be 'audit' or 'enforce'.")
  match fields with
  | none | some [] => throw (.improperlyConfigured "Supply a nonempty explicit audit field allowlist.")
  | some names =>
    (scopeField :: names).forM (checkField schema model)
    if (getField schema model scopeField).any (·.null) then
      throw (.improperlyConfigured "The scope field must be non-nullable.")
    return ⟨model, scopeField, names, mode⟩

def register (model : M) (scopeField : String) (fields : Option (List String)) (mode : String) : Program M Unit := do
  let config ← MonadExcept.ofExcept (validate schema model scopeField fields mode)
  let state ← get
  match find state.registry model with
  | some existing =>
    if existing = config then pure ()
    else throw (.improperlyConfigured "A model cannot be registered twice with different options.")
  | none =>
    set { state with registry := state.registry ++ [config] }
    installRelationGuards schema

/-- A class statement. Its relations get their descriptors, and those between it
and the classes that exist get their accessors. -/
def define (model : M) : Program M Unit := modify fun state =>
  let state := { state with defined := state.defined ++ [model] }
  let forward (name : String) := (schema.options model).fields.any fun field => field.relation.isSome && field.name = name
  let reverse (target : M) (name : String) := (relatedObjects schema state target).any fun related =>
    related.2.2 = name && (related.1 = model || target = model)
  { state with attributes := fun target name =>
      if (target = model && forward name) || reverse target name then some ⟨[]⟩ else state.attributes target name }

/-- `PyScopedConfig.ready` -/
def ready : Program M Unit := do
  installRelationGuards schema
  modify fun state => { state with readied := true }

/-- What happens while a project is loaded and afterwards. -/
inductive Event (M : Type) where
  | define (model : M)
  | register (model : M) (scopeField : String) (fields : Option (List String)) (mode : String)
  | modelsReady
  | ready

def Event.program : Event M → Program M Unit
  | .define model => Guards.define schema model
  | .register model scopeField fields mode => Guards.register schema model scopeField fields mode
  | .modelsReady => modify fun state => { state with modelsReady := true }
  | .ready => Guards.ready schema

/-- A class is created once, from classes that exist, and registered when it is
there. Applications get ready when all models are loaded. -/
def Event.Allowed (state : State M) : Event M → Prop
  | .define model => model ∉ state.defined ∧ (schema.options model).isAbstract = false ∧
      ∀ field ∈ (schema.options model).fields, ∀ relation ∈ field.relation, ∀ target,
        relation.reference = .model target → target = model ∨ target ∈ state.defined
  | .register model _ _ _ => model ∈ state.defined ∨ (schema.options model).isAbstract = true
  | .modelsReady => True
  | .ready => state.modelsReady = true

/-- Events one after the other, whether or not what they call raises. -/
def run (state : State M) (events : List (Event M)) : State M :=
  events.foldl (fun state event => ((event.program schema).on state).2) state

def AllAllowed (state : State M) : List (Event M) → Prop
  | [] => True
  | event :: events => event.Allowed schema state ∧ AllAllowed ((event.program schema).on state).2 events

end PyScoped.Guards
