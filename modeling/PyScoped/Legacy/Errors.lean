import PyScoped.Foundation.Json

/-! What the version 1 layers raise: their own exceptions, with message and
context, and the errors of the database underneath. -/

namespace PyScoped.Legacy
open Foundation

inductive ErrorKind where
  | accessDenied
  | isolationViolation
  | connector
  | federation
  | scopeNotFound
  | scopeFrozen
  | quotaExceeded
  | rateLimitExceeded
  | plugin
  | pluginSandbox
  | environmentNotFound
  | environmentState
  | flow
  | flowBlocked
  | stageTransitionDenied
  | promotionDenied
  | secretNotFound
  | secretAccessDenied
  | secretRefExpired
  | deployment
  | deploymentGateFailed
  | deploymentRollback
  | marketplace
  | listingNotFound
  deriving DecidableEq, Repr

inductive Raised where
  | scoped (kind : ErrorKind) (message : String) (context : List (String × Json))
  /-- A unique constraint or primary key refused a row. -/
  | unique (table : String)
  | other (message : String)

/-- A list of names as an f-string writes it. -/
def listText (names : List String) : String := "[" ++ ", ".intercalate (names.map fun name => "'" ++ name ++ "'") ++ "]"

def optionalText (text : Option String) : Json := text.elim .null .str

/-- `str` of the exception. -/
def Raised.text : Raised → String
  | .scoped _ message _ => message
  | .unique table => "UNIQUE constraint failed: " ++ table
  | .other message => message

end PyScoped.Legacy
