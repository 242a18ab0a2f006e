import PyScoped.Foundation.DateTime
import PyScoped.Legacy.Errors
import PyScoped.Legacy.Types

/-! Scopes, memberships and projections of version 1, and what they grant. -/

namespace PyScoped.Legacy
open Foundation

inductive ScopeRole where
  | viewer | editor | admin | owner
  deriving DecidableEq, Repr

namespace ScopeRole

def value : ScopeRole → String
  | .viewer => "viewer"
  | .editor => "editor"
  | .admin => "admin"
  | .owner => "owner"

def all : List ScopeRole := [.viewer, .editor, .admin, .owner]

theorem mem_all (role : ScopeRole) : role ∈ all := by cases role <;> decide

/-- `ScopeRole(value)` -/
def ofValue (value : String) : Option ScopeRole := all.find? (·.value = value)

end ScopeRole

inductive AccessLevel where
  | read | write | admin
  deriving DecidableEq, Repr

def AccessLevel.value : AccessLevel → String
  | .read => "read"
  | .write => "write"
  | .admin => "admin"

namespace Lifecycle

def name : Lifecycle → String
  | .draft => "DRAFT"
  | .active => "ACTIVE"
  | .deprecated => "DEPRECATED"
  | .archived => "ARCHIVED"

/-- Frozen scopes are stored under a name of their own. -/
def toDb : Lifecycle → String
  | .deprecated => "FROZEN"
  | lifecycle => lifecycle.name

end Lifecycle

structure Scope where
  id : String
  name : String
  ownerId : String
  parentScopeId : Option String
  lifecycle : Lifecycle
  deriving DecidableEq

namespace Scope

def isActive (scope : Scope) : Bool := scope.lifecycle = .active

/-- Frozen is stored as deprecated. -/
def isFrozen (scope : Scope) : Bool := scope.lifecycle = .deprecated

def isArchived (scope : Scope) : Bool := scope.lifecycle = .archived

end Scope

/-- Times are kept as the stored text. -/
structure ScopeMembership where
  id : String
  scopeId : String
  principalId : String
  role : ScopeRole
  grantedAt : String
  grantedBy : String
  expiresAt : Option String
  lifecycle : Lifecycle
  deriving DecidableEq

/-- `active_membership_condition` -/
def ScopeMembership.holds (membership : ScopeMembership) (now : String) : Bool :=
  membership.lifecycle = .active && membership.expiresAt.all (fun expires => decide (now < expires))

structure ScopeProjection where
  id : String
  scopeId : String
  objectId : String
  projectedAt : String
  projectedBy : String
  accessLevel : AccessLevel
  lifecycle : Lifecycle
  deriving DecidableEq

end PyScoped.Legacy
