import PyScoped.Core.Client
import PyScoped.Foundation.Databases
import PyScoped.Foundation.Signatures

/-! `save` and `delete` methods that an application overrides, on several
databases, and the block that the registry puts around each of their calls. -/

namespace PyScoped
open Foundation

variable {app : App} {α : Type}

abbrev Dbs (app : App) (α : Type) := Routed String (Val app) Oracle Err α

/-- What a call passes, as far as a database is looked for in it. -/
inductive Argument where
  | none
  | bool (value : Bool)
  | text (text : String)
  | object
  deriving DecidableEq

/-- Python's truth value of what a parameter is bound to. -/
def truthy : Bound Argument → Bool
  | .one .none => false
  | .one (.bool value) => value
  | .one (.text text) => text ≠ ""
  | .one .object => true
  | .many values => !values.isEmpty
  | .named entries => !entries.isEmpty

/-- Arguments after the instance. -/
structure Call where
  args : List Argument
  kwargs : List (String × Argument)

structure Method (app : App) (α : Type) where
  signature : Signature
  body : Call → Dbs app α

def Method.bind (method : Method app α) (call : Call) : Option (List (String × Bound Argument)) :=
  method.signature.bind (.object :: call.args) call.kwargs

/-- The configured databases, and the router's answer for the instance. -/
structure Connections where
  aliases : List String
  dbForWrite : String

/-- `bound.arguments.get("using") or router.db_for_write(...)`. -/
def Connections.using_ (connections : Connections) (passed : Option (Bound Argument)) : Bound Argument :=
  match passed with
  | some value => if truthy value then value else .one (.text connections.dbForWrite)
  | none => .one (.text connections.dbForWrite)

/-- `get_connection`. Whatever is not the alias of a configured database is refused. -/
def Connections.get (connections : Connections) : Bound Argument → Option String
  | .one (.text name) => if connections.aliases.contains name then some name else none
  | _ => none

/-- The registered `save` and `delete`. -/
def wrapMethod (env : Env) (connections : Connections) (method : Method app α) (call : Call) : Dbs app α := do
  let _ ← env.current
  match method.bind call with
  | none => throw (.application "TypeError")
  | some arguments =>
    match connections.get (connections.using_ (arguments.lookup "using")) with
    | none => throw (.application "ConnectionDoesNotExist")
    | some name => Routed.atomic name (method.body call)

end PyScoped
