import PyScoped.Core.History

/-! Clients. A supported program is put together from the supported mutations,
reads, atomic blocks and the control flow of its application, and so is every
signal handler that runs inside a mutation. -/

namespace PyScoped
open Foundation

variable {app : App}

/-- The surroundings in which a client may issue an operation: an entered context
it is entitled to, the rows in flight around it, and no foreign action. -/
structure Env.Within (env : Env) (entered : Option Active → Prop) (held : List Key) : Prop where
  context : entered env.context
  held : env.held = held
  restoring : ∀ override ∈ env.override, override.action = "restore"

inductive Supported (app : App) (entered : Option Active → Prop) : List Key → {α : Type} → Db app α → Prop where
  | pure {held : List Key} {α : Type} (value : α) : Supported app entered held (.pure value)
  | raise {held : List Key} {α : Type} (error : Err) : Supported app entered held (.raise error : Db app α)
  | bind {held : List Key} {α β : Type} {program : Db app α} {next : α → Db app β}
      (first : Supported app entered held program) (second : ∀ value, Supported app entered held (next value)) :
      Supported app entered held (program.bind next)
  | tryCatch {held : List Key} {α : Type} {body : Db app α} {handler : Err → Db app α}
      (first : Supported app entered held body) (second : ∀ error, Supported app entered held (handler error)) :
      Supported app entered held (MonadExcept.tryCatch body handler)
  | atomic {held : List Key} {α : Type} {body : Db app α} (inner : Supported app entered held body) :
      Supported app entered held (Tx.atomic body)
  | reads {held : List Key} {α : Type} {program : Db app α} (only : program.Only Discipline.Reads) :
      Supported app entered held program
  | save {held : List Key} {env : Env} {handlers : Handlers app} {label : String}
      {config : Registration (app.model label)} (inst : Instance) (options : SaveOptions)
      (within : env.Within entered held) (registered : app.registration label = some config)
      (preSave : ∀ held inst, Supported app entered held (handlers.preSave held inst))
      (postSave : ∀ held inst, Supported app entered held (handlers.postSave held inst)) :
      Supported app entered held (PyScoped.save env handlers config inst options)
  | delete {held : List Key} {env : Env} {handlers : Handlers app} {collect : Db app (Collected app)} (pk : Value)
      (within : env.Within entered held) (collects : collect.Only Discipline.Reads)
      (preDelete : ∀ early held label pk, Supported app entered held (handlers.preDelete early held label pk))
      (postDelete : ∀ held label pk, Supported app entered held (handlers.postDelete held label pk)) :
      Supported app entered held (PyScoped.delete env handlers pk collect)
  | update {held : List Key} {env : Env} {queryset : Queryset app}
      {config : Registration (app.model queryset.label)} (assignments : List (String × Attr))
      (within : env.Within entered held) (registered : app.registration queryset.label = some config) :
      Supported app entered held (queryset.update config env assignments)
  | bulkCreate {held : List Key} {env : Env} {queryset : Queryset app}
      {config : Registration (app.model queryset.label)} (objs : List Instance) (conflicts : Bool)
      (within : env.Within entered held) (registered : app.registration queryset.label = some config) :
      Supported app entered held (queryset.bulkCreate config env objs conflicts)
  | bulkUpdate {held : List Key} {env : Env} {queryset : Queryset app}
      {config : Registration (app.model queryset.label)} (objs : List Instance) (names : List String)
      (within : env.Within entered held) (registered : app.registration queryset.label = some config) :
      Supported app entered held (queryset.bulkUpdate config env objs names)
  | deleteQuery {held : List Key} {env : Env} {handlers : Handlers app} {queryset : Queryset app}
      {config : Registration (app.model queryset.label)} {collect : Db app (Collected app)}
      (within : env.Within entered held) (registered : app.registration queryset.label = some config)
      (collects : collect.Only Discipline.Reads)
      (preDelete : ∀ early held label pk, Supported app entered held (handlers.preDelete early held label pk))
      (postDelete : ∀ held label pk, Supported app entered held (handlers.postDelete held label pk)) :
      Supported app entered held (queryset.delete config env handlers collect)
  | restore {held : List Key} {env : Env} {handlers : Handlers app} {label : String}
      {config : Registration (app.model label)} (pk : Value) (revision expectedRevision : Int)
      (within : env.Within entered held) (registered : app.registration label = some config)
      (preSave : ∀ held inst, Supported app entered held (handlers.preSave held inst))
      (postSave : ∀ held inst, Supported app entered held (handlers.postSave held inst)) :
      Supported app entered held (PyScoped.restore env handlers config pk revision expectedRevision)
  | backfill {held : List Key} {env : Env} {label : String} {config : Registration (app.model label)}
      (dryRun : Bool) (batchSize : Int) (within : env.Within entered held)
      (registered : app.registration label = some config) :
      Supported app entered held (PyScoped.backfill env config dryRun batchSize)

/-! A small application for examples: folders, and documents that may lie in one. -/

namespace Sample

theorem alice_valid : ValidIdentity "alice" := by decide

theorem s_valid : ValidIdentity "s" := by decide

theorem empty_short : "".length ≤ 255 := by decide

theorem scope_ne_id : "scope" ≠ "id" := by decide

theorem morning_bounded : 2026 < 10000 ∧ 1 < 100 ∧ 2 < 100 ∧ 3 < 100 ∧ 4 < 100 ∧ 5 < 100 ∧ 6789 < 1000000 := by decide

def textField (name : String) (relation : Option Relation) : Field where
  name := name
  attname := name
  relation := relation
  toPython
    | .str text => .ok (.str text)
    | _ => .error (.valueError "Not a text.")
  store := .ok
  stable := fun _ => rfl

def intoFolder : Relation := ⟨"app.folder", "id", (textField "id" none).toPython⟩

def model (isDocument : Bool) : Model where
  label := if isDocument then "app.document" else "app.folder"
  fields := [textField "id" none, textField "scope" none, textField "title" none] ++
    if isDocument then [textField "folder" (some intoFolder)] else []
  pk := textField "id" none
  pkDefault := false
  pkOrder := fun first second => first ≤ second
  pkMember := by simp
  distinct := by cases isDocument <;> decide

def registration (isDocument : Bool) : Registration (model isDocument) where
  scopeField := textField "scope" none
  fields := (model isDocument).fields
  enforce := true
  scopeMember := by simp [model]
  scopeNotKey := scope_ne_id
  fieldsMember := fun _ member => member
  nonempty := by simp [model]

def filing : App where
  model label := model (label == "app.document")
  registration label := some (registration (label == "app.document"))
  sha256 := id

def config (label : String) : Registration (filing.model label) := registration (label == "app.document")

def server : Server (Val filing) Err := ⟨.integrityError, fun _ => .ok ()⟩

/-- A statement that goes through. -/
def through : Choice Oracle Err := ⟨none, false, ⟨2026, 1, 2, 3, 4, 5, 6789, morning_bounded⟩, .str "fresh", by decide⟩

def scope (name : String) (valid : ValidIdentity name) : Env :=
  ⟨some ⟨⟨"alice", name, "", "", alice_valid, valid, empty_short⟩, 0⟩, none, []⟩

/-- A new object whose other columns are set by name. -/
def object (pk : String) (columns : List (String × String)) : Instance where
  pk := .str pk
  attr name := .value (match columns.lookup name with
    | some text => .str text
    | none => .none)
  adding := true

def saving (env : Env) (handlers : Handlers filing) (label : String) (inst : Instance) : Db filing Unit :=
  save env handlers (config label) inst ⟨false, false, false, none⟩

theorem saving_supported {entered : Option Active → Prop} {held : List Key} {env : Env} (within : env.Within entered held)
    (label : String) (inst : Instance) : Supported filing entered held (saving env Handlers.none label inst) :=
  .save inst _ within rfl (fun _ _ => .pure _) (fun _ _ => .pure _)

end Sample
end PyScoped
