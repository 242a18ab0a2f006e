import Mathlib.Data.List.MinMax
import PyScoped.Legacy.ScopeLifecycle

/-! The visibility engine of version 1 on single objects, and projections that are
made and revoked one after another. -/

namespace PyScoped.Legacy
open Foundation

/-- The `priority` of a level. -/
def AccessLevel.priority : AccessLevel → Nat
  | .read => 0
  | .write => 1
  | .admin => 2

namespace VisibilityEngine

/-- The levels that the join of projections and memberships gives, over the ids of the scopes. -/
def projectedLevels (scopeIds : List String) (rows : Overlay TenancyRow) (now principalId objectId : String) :
    List AccessLevel :=
  scopeIds.flatMap fun scopeId =>
    match rows (.projection scopeId objectId) with
    | some (projection : ScopeProjection) =>
      if projection.lifecycle = .active then
        ScopeRole.all.filterMap fun role =>
          match rows (.membership scopeId principalId role) with
          | some (membership : ScopeMembership) => if membership.holds now then some projection.accessLevel else none
          | none => none
      else []
    | none => []

def owns (rows : Overlay TenancyRow) (principalId objectId : String) : Bool :=
  match rows (.object objectId) with
  | some (owner : String) => owner = principalId
  | none => false

/-- `get_access_level` -/
def getAccessLevel (scopeIds : List String) (rows : Overlay TenancyRow) (now principalId objectId : String) :
    Option AccessLevel :=
  if owns rows principalId objectId then some .admin
  else (projectedLevels scopeIds rows now principalId objectId).argmax AccessLevel.priority

end VisibilityEngine

namespace ProjectionManager
open Tenancy

inductive Call where
  | project (scopeId objectId projectedBy : String) (accessLevel : AccessLevel)
  | revokeProjection (scopeId objectId revokedBy : String)
  deriving DecidableEq

inductive Outcome where
  | projection (projection : ScopeProjection)
  | revoked (found : Bool)
  deriving DecidableEq

/-- A call, with the time and the id that it gets. -/
structure Turn where
  call : Call
  now : DateTime
  id : ScopedId

def invoke (manager : ProjectionManager) : Call → Tenancy.Program Outcome
  | .project scopeId objectId projectedBy accessLevel =>
    Outcome.projection <$> manager.project scopeId objectId projectedBy accessLevel
  | .revokeProjection scopeId objectId revokedBy => Outcome.revoked <$> manager.revokeProjection scopeId objectId revokedBy

/-- The storage serves every statement of the one client. -/
def answer (turn : Turn) (store : Store Unit) (request : Tenancy.Request) : Except Raised (Reply request) × Store Unit :=
  (serve () ⟨none, turn.now, turn.id⟩ store request).getD (.error (.other ""), store)

def run (manager : ProjectionManager) (turn : Turn) (store : Store Unit) : Except Raised Outcome × Store Unit :=
  (manager.invoke turn.call).alone (answer turn) store

end ProjectionManager
end PyScoped.Legacy
