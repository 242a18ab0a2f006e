import PyScoped.Foundation.NestedDicts
import PyScoped.Legacy.Tenancy

/-! Templates of version 1: the merge of a blueprint with overrides, and the
instantiation that goes through it. -/

namespace PyScoped.Legacy.Templates
open Foundation Nested

variable {κ α : Type} [DecidableEq κ]

section DeepMerge

mutual

/-- `_deep_merge`: the items of `overrides` are assigned to a copy of `base`, one after the other. -/
def deepMerge (base : List (κ × Nested κ α)) : List (κ × Nested κ α) → List (κ × Nested κ α)
  | [] => base
  | (key, value) :: overrides => deepMerge (assignItem key (merged (get? base key) value) base) overrides

/-- What a key is assigned: two dictionaries are merged, anything else is replaced. -/
def merged (old : Option (Nested κ α)) : Nested κ α → Nested κ α
  | .leaf value => .leaf value
  | .dict overrides => match old with
    | some (.dict base) => .dict (deepMerge base overrides)
    | _ => .dict overrides

end

end DeepMerge

structure Template (α : Type) where
  id : String
  name : String
  templateType : String
  schema : Dict String α
  currentVersion : Nat
  lifecycle : Lifecycle

structure TemplateVersion (α : Type) where
  templateId : String
  version : Nat
  schema : Dict String α

structure InstantiationResult (α : Type) where
  templateId : String
  templateName : String
  templateType : String
  templateVersion : Nat
  data : List (String × Nested String α)
  overridesApplied : List (String × Nested String α)

inductive TemplateError where
  | notFound (templateId : String)
  | versionNotFound (templateId : String) (version : Int)
  | archived (templateId : String) (lifecycle : Lifecycle)

namespace TemplateError

def message : TemplateError → String
  | .notFound templateId => "Template not found: " ++ templateId
  | .versionNotFound templateId version => "Template version not found: " ++ templateId ++ " v" ++ toString version
  | .archived templateId _ => "Cannot instantiate archived template: " ++ templateId

def context : TemplateError → List (String × String)
  | .notFound templateId => [("template_id", templateId)]
  | .versionNotFound templateId version => [("template_id", templateId), ("version", toString version)]
  | .archived templateId lifecycle => [("template_id", templateId), ("lifecycle", lifecycle.name)]

end TemplateError

structure TemplateStore (α : Type) where
  templates : List (Template α)
  versions : List (TemplateVersion α)

namespace TemplateStore

variable (store : TemplateStore α)

def getTemplate (templateId : String) : Except TemplateError (Template α) :=
  match store.templates.find? fun template => template.id = templateId with
  | none => .error (.notFound templateId)
  | some template => .ok template

def getVersion (templateId : String) (version : Int) : Except TemplateError (TemplateVersion α) :=
  match store.versions.find? fun row => row.templateId = templateId && row.version = version with
  | none => .error (.versionNotFound templateId version)
  | some row => .ok row

/-- The schema that is instantiated, with its version: that of the version that is
named, or the current one. -/
def chosen (templateId : String) (template : Template α) : Option Int → Except TemplateError (Dict String α × Nat)
  | some version => (store.getVersion templateId version).map fun row => (row.schema, row.version)
  | none => .ok (template.schema, template.currentVersion)

/-- Without overrides, the empty ones are merged. -/
def instantiate (templateId : String) (overrides : Option (Dict String α)) (version : Option Int) :
    Except TemplateError (InstantiationResult α) := do
  let template ← store.getTemplate templateId
  if template.lifecycle = .active then
    let (schema, usedVersion) ← store.chosen templateId template version
    let overrides := overrides.elim [] Dict.items
    return {
      templateId := template.id, templateName := template.name, templateType := template.templateType
      templateVersion := usedVersion, data := deepMerge schema.items overrides, overridesApplied := overrides }
  else throw (.archived templateId template.lifecycle)

end TemplateStore
end PyScoped.Legacy.Templates
