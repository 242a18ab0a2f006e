import PyScoped.Foundation.Instants
import PyScoped.Foundation.Stateful
import PyScoped.Legacy.Tenancy

/-! Who is a member of a version 1 scope, while grants expire by the clock. The
rows hold times as the values their texts denote; the database compares texts. -/

namespace PyScoped.Legacy.Memberships
open Foundation

/-- A row of `scope_memberships`. -/
structure Membership where
  id : String
  scopeId : String
  principalId : String
  role : ScopeRole
  grantedAt : Aware
  grantedBy : String
  expiresAt : Option Aware
  lifecycle : Lifecycle

namespace Membership

/-- The columns of the unique constraint. -/
def address (row : Membership) : String × String × ScopeRole := (row.scopeId, row.principalId, row.role)

def isActive (row : Membership) : Bool := row.lifecycle = .active

/-- `active_membership_condition` -/
def holds (row : Membership) (now : Aware) : Bool :=
  row.isActive && row.expiresAt.all fun expires => decide (now.isoformat < expires.isoformat)

/-- `lifecycle = 'ACTIVE' AND expires_at IS NOT NULL AND expires_at <= ?` -/
def lapsed (row : Membership) (now : Aware) : Bool :=
  row.isActive && row.expiresAt.any fun expires => decide (expires.isoformat ≤ now.isoformat)

end Membership

/-- What an audit writer is given. -/
structure Record where
  actorId : String
  action : ActionType
  targetId : String
  before : Option Membership
  after : Option Membership

/-- The tables, and how often the clock was read and an identifier generated. -/
structure World where
  scopes : List Scope
  memberships : List Membership
  records : List Record
  unique : (memberships.map Membership.address).Nodup
  reads : Nat
  made : Nat

/-- What the clock reads and what is generated, one after the other. -/
structure Env where
  now : Nat → Moment
  ids : Nat → ScopedId

abbrev Program := Stateful World Raised

def nowUtc (env : Env) : Program Moment := do
  let world ← get
  set { world with reads := world.reads + 1 }
  return env.now world.reads

def generateId (env : Env) : Program ScopedId := do
  let world ← get
  set { world with made := world.made + 1 }
  return env.ids world.made

def insertRow (row : Membership) : Program Unit := do
  let world ← get
  if free : row.address ∉ world.memberships.map Membership.address then
    set { world with
      memberships := world.memberships ++ [row]
      unique := by simpa [List.nodup_append, world.unique] using free }
  else throw (.unique "scope_memberships")

/-- An `UPDATE` that assigns no column of the constraint. -/
structure Assignment where
  change : Membership → Membership
  address : ∀ row, (change row).address = row.address

def updateRows (chosen : Membership → Bool) (assignment : Assignment) : Program Unit :=
  modify fun world => { world with
    memberships := world.memberships.map fun row => if chosen row then assignment.change row else row
    unique := by
      have same : ∀ row, (if chosen row then assignment.change row else row).address = row.address := by
        intro row
        split
        · exact assignment.address row
        · rfl
      simpa [Function.comp_def, same] using world.unique }

def reactivate (grantedAt : Moment) (grantedBy : String) (expiresAt : Option Aware) : Assignment where
  change row := { row with
    lifecycle := .active, grantedAt := grantedAt.toAware, grantedBy := grantedBy, expiresAt := expiresAt }
  address _ := rfl

def archive : Assignment where
  change row := { row with lifecycle := .archived }
  address _ := rfl

def recordIf (audit : Bool) (record : Record) : Program Unit :=
  if audit then modify fun world => { world with records := world.records ++ [record] } else pure ()

def getScopeOrRaise (scopeId : String) : Program Scope := do
  match (← get).scopes.find? (·.id = scopeId) with
  | some scope => return scope
  | none => throw (.scoped .scopeNotFound ("Scope " ++ scopeId ++ " not found") [("scope_id", .str scopeId)])

def requireMutable (scope : Scope) : Program Unit :=
  if scope.isFrozen then
    throw (.scoped .scopeFrozen ("Scope " ++ scope.id ++ " is frozen") [("scope_id", .str scope.id)])
  else if scope.isArchived then
    throw (.scoped .scopeFrozen ("Scope " ++ scope.id ++ " is archived") [("scope_id", .str scope.id)])
  else pure ()

variable (env : Env) (audit : Bool)

def addMembership (scopeId principalId : String) (role : ScopeRole) (grantedBy : String) (expiresAt : Option Aware) :
    Program Membership := do
  let ts ← nowUtc env
  match (← get).memberships.find? (·.address = (scopeId, principalId, role)) with
  | some existing =>
    if existing.lifecycle = .active then
      return existing
    updateRows (·.address = (scopeId, principalId, role)) (reactivate ts grantedBy expiresAt)
    let mem : Membership := ⟨existing.id, scopeId, principalId, role, ts.toAware, grantedBy, expiresAt, .active⟩
    recordIf audit ⟨grantedBy, .membershipChange, scopeId, none, some mem⟩
    return mem
  | none =>
    let memId ← generateId env
    let mem : Membership := ⟨memId.text, scopeId, principalId, role, ts.toAware, grantedBy, expiresAt, .active⟩
    insertRow mem
    recordIf audit ⟨grantedBy, .membershipChange, scopeId, none, some mem⟩
    return mem

def addMember (scopeId principalId : String) (role : ScopeRole) (grantedBy : String) (expiresAt : Option Aware) :
    Program Membership := do
  let scope ← getScopeOrRaise scopeId
  requireMutable scope
  addMembership env audit scopeId principalId role grantedBy expiresAt

/-- The loop of `add_members`, which passes no expiry on. -/
def addEach (scopeId grantedBy : String) : List (String × Option String) → Program (List Membership)
  | [] => return []
  | (principalId, role) :: members => do
    match ScopeRole.ofValue (role.getD "viewer") with
    | none => throw (.other ("'" ++ role.getD "viewer" ++ "' is not a valid ScopeRole"))
    | some role =>
      let mem ← addMembership env audit scopeId principalId role grantedBy none
      let rest ← addEach scopeId grantedBy members
      return mem :: rest

def addMembers (scopeId : String) (members : List (String × Option String)) (grantedBy : String) :
    Program (List Membership) := do
  let scope ← getScopeOrRaise scopeId
  requireMutable scope
  addEach env audit scopeId grantedBy members

/-- The active memberships of a principal, in one role or in all. -/
def ofPrincipal (scopeId principalId : String) (role : Option ScopeRole) (row : Membership) : Bool :=
  row.scopeId = scopeId && row.principalId = principalId && row.isActive && role.all fun wanted => row.role = wanted

def recordEach (revokedBy scopeId : String) : List Membership → Program Unit
  | [] => return
  | row :: rows => do
    recordIf audit ⟨revokedBy, .revoke, scopeId, some row, none⟩
    recordEach revokedBy scopeId rows

def revokeMember (scopeId principalId revokedBy : String) (role : Option ScopeRole) : Program Nat := do
  let scope ← getScopeOrRaise scopeId
  requireMutable scope
  let rows := (← get).memberships.filter (ofPrincipal scopeId principalId role)
  if rows.isEmpty then
    return 0
  updateRows (ofPrincipal scopeId principalId role) archive
  recordEach audit revokedBy scopeId rows
  return rows.length

def getMemberships (scopeId : String) (activeOnly : Bool) (limit : Option Nat) (offset : Nat) :
    Program (List Membership) := do
  let rows ← if activeOnly then do
      let now ← nowUtc env
      let world ← get
      pure (world.memberships.filter fun row => row.scopeId = scopeId && row.holds now.toAware)
    else do
      let world ← get
      pure (world.memberships.filter fun row => row.scopeId = scopeId)
  let ordered := rows.insertionSort fun first second => first.grantedAt.isoformat ≤ second.grantedAt.isoformat
  match limit with
  | none => return ordered
  | some limit => return (ordered.drop offset).take limit

/-- Each of the three conditions on the expiry has its own reading of the clock. -/
def isMember (scopeId principalId : String) : Program Bool := do
  let now ← nowUtc env
  if (← get).memberships.any fun row => row.scopeId = scopeId && row.principalId = principalId && row.holds now.toAware then
    return true
  let checked ← nowUtc env
  if (← get).memberships.any fun row =>
      row.scopeId = scopeId && row.principalId = principalId && row.lapsed checked.toAware then
    let archived ← nowUtc env
    updateRows (fun row => row.scopeId = scopeId && row.principalId = principalId && row.lapsed archived.toAware) archive
  return false

/-- `VisibilityEngine.scope_member_ids` -/
def scopeMemberIds (scopeId : String) : Program (List String) := do
  let now ← nowUtc env
  let world ← get
  return ((world.memberships.filter fun row => row.scopeId = scopeId && row.holds now.toAware).map (·.principalId)).dedup

/-- `ScopeMembership.is_expired`, which compares instants. -/
def Membership.isExpired (row : Membership) (now : Moment) : Bool :=
  row.expiresAt.any fun expires => decide (expires.instant < now.instant)

end PyScoped.Legacy.Memberships
