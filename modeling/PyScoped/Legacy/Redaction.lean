import PyScoped.Legacy.Errors
import PyScoped.Legacy.Rules

/-! The redaction engine of version 1. Every rule that matches the viewer masks,
replaces or leaves out fields of what the rules before it have left. -/

namespace PyScoped.Legacy.Redaction
open Foundation

inductive RedactionStrategy where
  | mask | replace | omit
  deriving DecidableEq, Repr

/-- A value of a data dictionary: a string, or an object of another kind. -/
inductive Value (Ω : Type) where
  | text (content : String)
  | object (content : Ω)
  deriving DecidableEq

variable {Ω : Type}

/-- The dictionary of one field under `redactions`, where any key may be missing. -/
structure RedactionConfig (Ω : Type) where
  strategy : Option String
  maskChar : Option String
  visibleChars : Option Int
  replacement : Option (Value Ω)

structure FieldRedaction (Ω : Type) where
  fieldName : String
  strategy : RedactionStrategy
  maskChar : String
  visibleChars : Int
  replacement : Value Ω

def RedactionStrategy.ofValue (value : String) : Except Raised RedactionStrategy :=
  if value = "mask" then .ok .mask
  else if value = "replace" then .ok .replace
  else if value = "omit" then .ok .omit
  else .error (.other ("'" ++ value ++ "' is not a valid RedactionStrategy"))

def FieldRedaction.fromDict (fieldName : String) (config : RedactionConfig Ω) : Except Raised (FieldRedaction Ω) := do
  let strategy ← RedactionStrategy.ofValue (config.strategy.getD "replace")
  return {
    fieldName
    strategy
    maskChar := config.maskChar.getD "*"
    visibleChars := config.visibleChars.getD 0
    replacement := config.replacement.getD (.text "[REDACTED]") }

/-- A rule and what its conditions hold under `redactions`, empty where they do not name it. -/
structure RedactionRule (Ω : Type) where
  rule : Rule
  redactions : List (String × RedactionConfig Ω)

/-- What a viewer is known by; every part may be left out. -/
structure Viewer where
  objectType : Option String
  principalKind : Option String
  scopeId : Option String

abbrev Data (Ω : Type) := List (String × Value Ω)

structure RedactionResult (Ω : Type) where
  data : Data Ω
  redactedFields : List String
  rulesApplied : List String

/-- Python's `text * count`. -/
def repeated (count : Nat) (text : List Char) : List Char := (List.replicate count text).flatten

/-- Python's `text[-count:]` for a positive count. -/
def lastChars (count : Nat) (text : List Char) : List Char := text.drop (text.length - count)

def maskText (maskChar : List Char) (visibleChars : Int) (text : List Char) : List Char :=
  if 0 < visibleChars ∧ visibleChars < text.length then
    repeated (text.length - visibleChars).toNat maskChar ++ lastChars visibleChars.toNat text
  else repeated text.length maskChar

/-- Python's `str(value)`, given that of the objects that are no strings. -/
def Value.str (text : Ω → String) : Value Ω → String
  | .text content => content
  | .object content => text content

def redactValue (text : Ω → String) (value : Value Ω) (field : FieldRedaction Ω) : Value Ω :=
  match field.strategy with
  | .replace => field.replacement
  | .mask => .text (String.ofList (maskText field.maskChar.toList field.visibleChars (value.str text).toList))
  | .omit => value

def Data.has (data : Data Ω) (field : String) : Bool := (data.lookup field).isSome

/-- `del data[field]` -/
def Data.without (data : Data Ω) (field : String) : Data Ω := data.filter fun entry => entry.1 ≠ field

/-- `data[field] = change(data[field])` -/
def Data.changed (data : Data Ω) (field : String) (change : Value Ω → Value Ω) : Data Ω :=
  data.map fun entry => if entry.1 = field then (entry.1, change entry.2) else entry

/-- Each field is noted once. -/
def noted (field : String) (redacted : List String) : List String :=
  if field ∈ redacted then redacted else redacted ++ [field]

def applyField (text : Ω → String) (result : RedactionResult Ω) (entry : String × RedactionConfig Ω) :
    Except Raised (RedactionResult Ω) := do
  let field ← FieldRedaction.fromDict entry.1 entry.2
  if result.data.has entry.1 then
    return { result with
      data :=
        if field.strategy = .omit then Data.without result.data entry.1
        else Data.changed result.data entry.1 (redactValue text · field)
      redactedFields := noted entry.1 result.redactedFields }
  else return result

/-- A condition binds only where the viewer has a value for it. -/
def matchesViewer (rule : Rule) (viewer : Viewer) : Bool :=
  RuleEngine.conditionHolds rule.conditions "object_type" viewer.objectType &&
    RuleEngine.conditionHolds rule.conditions "principal_kind" viewer.principalKind &&
    RuleEngine.conditionHolds rule.conditions "scope_id" viewer.scopeId

def applyRule (text : Ω → String) (viewer : Viewer) (result : RedactionResult Ω) (rule : RedactionRule Ω) :
    Except Raised (RedactionResult Ω) :=
  if !matchesViewer rule.rule viewer then .ok result
  else if rule.redactions.isEmpty then .ok result
  else rule.redactions.foldlM (applyField text) { result with rulesApplied := result.rulesApplied ++ [rule.rule.id] }

end Redaction

open Redaction

structure RedactionEngine (Ω : Type) where
  rules : List (RedactionRule Ω)

namespace RedactionEngine

variable {Ω : Type}

/-- `__init__` keeps the active redaction rules. -/
def ofRules (rules : List (RedactionRule Ω)) : RedactionEngine Ω :=
  ⟨rules.filter fun rule => rule.rule.ruleType == .redaction && rule.rule.isActive⟩

def apply (text : Ω → String) (engine : RedactionEngine Ω) (viewer : Viewer) (data : Data Ω) :
    Except Raised (RedactionResult Ω) :=
  engine.rules.foldlM (applyRule text viewer) ⟨data, [], []⟩

end RedactionEngine
end PyScoped.Legacy
