import PyScoped.Foundation.Json
import PyScoped.Foundation.DateTime

/-! Values, errors and the application context. A context can only be built from
identities that pass `identity`, so every context carries valid ones. -/

namespace PyScoped
open Foundation

inductive Err where
  | missingContext (message : String)
  | scopeViolation (message : String)
  | unsupportedOperation (message : String)
  | historyConflict (message : String)
  | valueError (message : String)
  | fieldError (message : String)
  | integrityError
  | doesNotExist
  | databaseError (message : String)
  /-- Whatever an application's own code raises. -/
  | application (message : String)
  deriving DecidableEq, Repr

/-- Python values of columns and attributes. Decimals, UUIDs, dates and the like
keep the text `str` gives them and what the JSON encoder makes of them. -/
inductive Value where
  | none
  | bool (value : Bool)
  | int (value : Int)
  | str (value : String)
  | other (text : String) (json : Json)
  deriving DecidableEq

namespace Value

def text : Value → String
  | .none => "None"
  | .bool true => "True"
  | .bool false => "False"
  | .int value => value.repr
  | .str value => value
  | .other text _ => text

def json : Value → Json
  | .none => .null
  | .bool value => .bool value
  | .int value => .int value
  | .str value => .str value
  | .other _ json => json

/-- Equality of values. Values of one column have one type, and `str` tells values
of one type apart. A number of another type equals the integer whose text it has. -/
def same : Value → Value → Bool
  | .none, .none => true
  | .bool first, .bool second => first == second
  | .int first, .int second => first == second
  | .str first, .str second => first == second
  | .other first _, .other second _ => first == second
  | .int first, .other second _ => first.repr == second
  | .other first _, .int second => first == second.repr
  | _, _ => false

end Value

/-- The characters `str.strip` removes. -/
def isSpace (c : Char) : Bool :=
  let n := c.toNat
  (9 ≤ n && n ≤ 13) || (28 ≤ n && n ≤ 32) || n == 0x85 || n == 0xA0 || n == 0x1680 ||
    (0x2000 ≤ n && n ≤ 0x200A) || n == 0x2028 || n == 0x2029 || n == 0x202F || n == 0x205F || n == 0x3000

def ValidIdentity (text : String) : Prop := text.toList.all isSpace = false ∧ text.length ≤ 255

instance (text : String) : Decidable (ValidIdentity text) := inferInstanceAs (Decidable (_ ∧ _))

def identity (value : Value) : Except Err String :=
  match value with
  | .none | .bool _ => .error (.valueError "An explicit, nonempty identity is required.")
  | value =>
    if ValidIdentity value.text then .ok value.text
    else .error (.valueError "Identity must contain 1–255 characters.")

theorem identity_ok {value : Value} {text : String} (accepted : identity value = .ok text) :
    text = value.text ∧ ValidIdentity text := by
  unfold identity at accepted
  split at accepted
  · cases accepted
  · cases accepted
  · split at accepted <;> cases accepted
    exact ⟨rfl, by assumption⟩

structure ScopeContext where
  actor : String
  scope : String
  reason : String
  requestId : String
  actorValid : ValidIdentity actor
  scopeValid : ValidIdentity scope
  requestIdShort : requestId.length ≤ 255

def ScopeContext.create (actor scope : Value) (reason requestId : String) : Except Err ScopeContext :=
  match identity actor, identity scope with
  | .error error, _ => .error error
  | _, .error error => .error error
  | .ok actorText, .ok scopeText =>
    if short : requestId.length ≤ 255 then
      if valid : ValidIdentity actorText ∧ ValidIdentity scopeText then
        .ok ⟨actorText, scopeText, reason, requestId, valid.1, valid.2, short⟩
      else .error (.valueError "Identity must contain 1–255 characters.")
    else .error (.valueError "request_id must be at most 255 characters.")

/-- A context that was entered. The token tells two objects with equal fields apart. -/
structure Active extends ScopeContext where
  token : Nat

/-- The context variable is read at the start of every operation. -/
def currentContext (current : Option Active) : Except Err Active :=
  match current with
  | some context => .ok context
  | none => .error (.missingContext "Use pyscoped.scope(actor=..., scope=...) after authorizing membership.")

end PyScoped
