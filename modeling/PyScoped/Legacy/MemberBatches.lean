import PyScoped.Foundation.Rows
import PyScoped.Legacy.Memberships

/-! The members that one call adds to a scope. Each is granted its role in a
transaction of its own, and any statement may fail. -/

namespace PyScoped.Legacy.MemberBatches
open Foundation Memberships

/-- A dictionary of `members`, where a key may be missing. -/
structure Member where
  principalId : Option String
  role : Option String

/-- `principals` are the identifiers that the foreign key refers to. -/
structure World where
  scopes : Rows Scope.id
  principals : List String
  memberships : Rows Membership.address
  records : List Memberships.Record

/-- The statements of a call, for each member by its place in the list. -/
inductive Step where
  | getScope
  | lookup (place : Nat)
  | write (place : Nat)
  | record (place : Nat)
  deriving DecidableEq

/-- Which statements fail, and what the clock and the generator answer. -/
structure Env where
  fault : Step → Option Raised
  now : Nat → Moment
  ids : Nat → ScopedId

abbrev Program := Stateful World Raised

/-- Whether an audit writer is wired. -/
structure ScopeLifecycle where
  audit : Bool

variable (lifecycle : ScopeLifecycle) (env : Env)

def getScopeOrRaise (scopeId : String) : Program Scope := do
  let row ← Stateful.ask (env.fault .getScope) fun world => world.scopes.find scopeId
  match row with
  | some scope => return scope
  | none => throw (.scoped .scopeNotFound ("Scope " ++ scopeId ++ " not found") [("scope_id", .str scopeId)])

def requireMutable (scope : Scope) : Program Unit :=
  if scope.isFrozen then
    throw (.scoped .scopeFrozen ("Scope " ++ scope.id ++ " is frozen") [("scope_id", .str scope.id)])
  else if scope.isArchived then
    throw (.scoped .scopeFrozen ("Scope " ++ scope.id ++ " is archived") [("scope_id", .str scope.id)])
  else pure ()

def recordIf (place : Nat) (record : Memberships.Record) : Program Unit :=
  if lifecycle.audit then
    Stateful.assign (env.fault (.record place)) fun world => { world with records := world.records ++ [record] }
  else pure ()

/-- `INSERT INTO scope_memberships`, under the foreign key and the unique constraint. -/
def insertMembership (place : Nat) (mem : Membership) : Program Unit := do
  let _ ← Stateful.ask (env.fault (.write place)) fun _ => ()
  let world ← get
  if mem.principalId ∉ world.principals then
    throw (.other "FOREIGN KEY constraint failed")
  match world.memberships.insert mem with
  | some memberships => set { world with memberships := memberships }
  | none => throw (.unique "scope_memberships")

def granted (ts : Moment) (grantedBy : String) (expiresAt : Option Aware) (row : Membership) : Membership :=
  { row with lifecycle := .active, grantedAt := ts.toAware, grantedBy := grantedBy, expiresAt := expiresAt }

def World.reactivate (world : World) (scopeId principalId : String) (role : ScopeRole) (ts : Moment) (grantedBy : String)
    (expiresAt : Option Aware) : World :=
  { world with
    memberships := world.memberships.update (·.address = (scopeId, principalId, role)) (granted ts grantedBy expiresAt)
      fun _ => rfl }

/-- `_add_membership`. The record is written after the transaction has been committed. -/
def addMembership (place : Nat) (scopeId principalId : String) (role : ScopeRole) (grantedBy : String)
    (expiresAt : Option Aware) : Program Membership := do
  let ts := env.now place
  let existing ← Stateful.ask (env.fault (.lookup place)) fun world => world.memberships.find (scopeId, principalId, role)
  match existing with
  | some existing =>
    if existing.lifecycle = .active then
      return existing
    Stateful.assign (env.fault (.write place)) fun world => world.reactivate scopeId principalId role ts grantedBy expiresAt
    let mem : Membership := ⟨existing.id, scopeId, principalId, role, ts.toAware, grantedBy, expiresAt, .active⟩
    recordIf lifecycle env place ⟨grantedBy, .membershipChange, scopeId, none, some mem⟩
    return mem
  | none =>
    let mem : Membership := ⟨(env.ids place).text, scopeId, principalId, role, ts.toAware, grantedBy, expiresAt, .active⟩
    insertMembership env place mem
    recordIf lifecycle env place ⟨grantedBy, .membershipChange, scopeId, none, some mem⟩
    return mem

/-- The loop of `add_members`. The role of a member is read before its principal. -/
def addEach (scopeId grantedBy : String) : Nat → List Member → Program (List Membership)
  | _, [] => return []
  | place, member :: members => do
    match ScopeRole.ofValue (member.role.getD "viewer") with
    | none => throw (.other ("'" ++ member.role.getD "viewer" ++ "' is not a valid ScopeRole"))
    | some role =>
      match member.principalId with
      | none => throw (.other "'principal_id'")
      | some principalId =>
        let mem ← addMembership lifecycle env place scopeId principalId role grantedBy none
        let rest ← addEach scopeId grantedBy (place + 1) members
        return mem :: rest

def addMembers (scopeId : String) (members : List Member) (grantedBy : String) : Program (List Membership) := do
  let scope ← getScopeOrRaise env scopeId
  requireMutable scope
  addEach lifecycle env scopeId grantedBy 0 members

end PyScoped.Legacy.MemberBatches
