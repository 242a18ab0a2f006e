import PyScoped.Foundation.Interleaving
import PyScoped.Foundation.Overlays
import PyScoped.Legacy.Tenancy

/-! Membership, projection and lifecycle of scopes as version 1 writes them. A
granting call looks at the scope first and writes later; archiving sweeps the
grants of a scope and then archives it, in one transaction. -/

namespace PyScoped.Legacy
open Foundation

/-- Rows by their unique keys. -/
inductive TenancyKey where
  | scope (id : String)
  | membership (scopeId principalId : String) (role : ScopeRole)
  | projection (scopeId objectId : String)
  | object (id : String)
  deriving DecidableEq

def TenancyKey.table : TenancyKey → String
  | .scope _ => "scopes"
  | .membership _ _ _ => "scope_memberships"
  | .projection _ _ => "scope_projections"
  | .object _ => "scoped_objects"

/-- Of an object, only the owner is read here. -/
def TenancyRow : TenancyKey → Type
  | .scope _ => Scope
  | .membership _ _ _ => ScopeMembership
  | .projection _ _ => ScopeProjection
  | .object _ => String

namespace Tenancy

/-- `UPDATE ... SET ... WHERE ...`: the new version of a row that matches. -/
abbrev Change := (key : TenancyKey) → TenancyRow key → Option (TenancyRow key)

def reactivateMembership (scopeId principalId : String) (role : ScopeRole) (grantedAt grantedBy : String)
    (expiresAt : Option String) : Change
  | .membership scope principal role', row =>
    if scope = scopeId ∧ principal = principalId ∧ role' = role then some { row with
      lifecycle := .active, grantedAt := grantedAt, grantedBy := grantedBy, expiresAt := expiresAt }
    else none
  | _, _ => none

def revokeMemberships (scopeId principalId : String) (role : Option ScopeRole) : Change
  | .membership scope principal role', (row : ScopeMembership) =>
    if scope = scopeId ∧ principal = principalId ∧ row.lifecycle = .active ∧ role.all (fun wanted => decide (role' = wanted)) then
      some { row with lifecycle := .archived }
    else none
  | _, _ => none

def reactivateProjection (scopeId objectId : String) (accessLevel : AccessLevel) (projectedAt projectedBy : String) : Change
  | .projection scope object, row =>
    if scope = scopeId ∧ object = objectId then some { row with
      lifecycle := .active, accessLevel := accessLevel, projectedAt := projectedAt, projectedBy := projectedBy }
    else none
  | _, _ => none

def revokeProjections (scopeId objectId : String) : Change
  | .projection scope object, (row : ScopeProjection) =>
    if scope = scopeId ∧ object = objectId ∧ row.lifecycle = .active then some { row with lifecycle := .archived } else none
  | _, _ => none

def sweepMemberships (scopeId : String) : Change
  | .membership scope _ _, (row : ScopeMembership) =>
    if scope = scopeId ∧ row.lifecycle = .active then some { row with lifecycle := .archived } else none
  | _, _ => none

def sweepProjections (scopeId : String) : Change
  | .projection scope _, (row : ScopeProjection) =>
    if scope = scopeId ∧ row.lifecycle = .active then some { row with lifecycle := .archived } else none
  | _, _ => none

def setLifecycle (scopeId : String) (lifecycle : Lifecycle) : Change
  | .scope id, row => if id = scopeId then some { row with lifecycle := lifecycle } else none
  | _, _ => none

/-- What is handed to the audit writer, as far as it names the call. -/
structure Trace where
  actorId : String
  action : ActionType
  targetType : String
  targetId : String
  scopeId : String

/-- The tables, and the scopes that some earlier committed state has shown as archived. -/
structure Store (ι : Type) where
  tables : Tables TenancyRow ι
  dissolved : String → Bool
  traces : List Trace

inductive Request where
  | enter
  | commit
  | rollback
  | select (key : TenancyKey)
  | selectRoles (scopeId principalId : String) (role : Option ScopeRole)
  | insert (key : TenancyKey) (row : TenancyRow key)
  | update (change : Change)
  | now
  | generateId
  | record (trace : Trace)

def Reply : Request → Type
  | .enter => Unit
  | .commit => Unit
  | .rollback => Unit
  | .select key => Option (TenancyRow key)
  | .selectRoles _ _ _ => List ScopeMembership
  | .insert _ _ => Unit
  | .update _ => Unit
  | .now => DateTime
  | .generateId => ScopedId
  | .record _ => Unit

abbrev Program (α : Type) := Prog Request Reply Raised α

structure Choice where
  failure : Option Raised
  now : DateTime
  id : ScopedId

def archived (rows : Overlay TenancyRow) (scopeId : String) : Bool :=
  match rows (.scope scopeId) with
  | some (row : Scope) => row.isArchived
  | none => false

/-- The active memberships of a principal in a scope, one for each role. -/
def activeRoles (rows : Overlay TenancyRow) (scopeId principalId : String) (role : Option ScopeRole) : List ScopeMembership :=
  ScopeRole.all.filterMap fun role' =>
    match rows (.membership scopeId principalId role') with
    | some (row : ScopeMembership) =>
      if row.lifecycle = .active ∧ role.all (fun wanted => decide (role' = wanted)) then some row else none
    | none => none

variable {ι : Type} [DecidableEq ι]

/-- The rows that a statement of a client puts into the committed state. -/
def published (store : Store ι) (client : ι) : Request → Overlay TenancyRow
  | .commit => (store.tables.pending client).getD fun _ => none
  | .insert key row =>
    if (store.tables.pending client).isNone ∧ (store.tables.view client key).isNone then .single key row else fun _ => none
  | .update change =>
    if (store.tables.pending client).isNone then fun key => (store.tables.view client key).bind (change key) else fun _ => none
  | _ => fun _ => none

/-- The store with other tables. What the old ones showed as archived is remembered. -/
def Store.put (store : Store ι) (tables : Tables TenancyRow ι) : Store ι :=
  { store with tables := tables, dissolved := fun scopeId => store.dissolved scopeId || archived store.tables.committed scopeId }

/-- Any statement may fail. A rollback ends the transaction all the same. -/
def serve : Service Request Reply Raised (Store ι) ι Choice := fun client choice store request =>
  match choice.failure, request with
  | some error, .rollback => some (.error error, store.put (store.tables.leave client))
  | some error, _ => some (.error error, store)
  | none, .enter => some (.ok (), store.put (store.tables.enter client))
  | none, .commit => some (.ok (), store.put (store.tables.commit client))
  | none, .rollback => some (.ok (), store.put (store.tables.leave client))
  | none, .select key => some (.ok (store.tables.view client key), store)
  | none, .selectRoles scopeId principalId role =>
    some (.ok (activeRoles (store.tables.view client) scopeId principalId role), store)
  | none, .insert key row =>
    if (store.tables.view client key).isSome then some (.error (.unique key.table), store)
    else some (.ok (), store.put (store.tables.write client (.single key row)))
  | none, .update change =>
    some (.ok (), store.put (store.tables.write client fun key => (store.tables.view client key).bind (change key)))
  | none, .now => some (.ok choice.now, store)
  | none, .generateId => some (.ok choice.id, store)
  | none, .record trace => some (.ok (), { store with traces := trace :: store.traces })

/-- `with self._backend.transaction() as txn: ...` -/
def transaction {α : Type} (body : Program α) : Program α := do
  let _ : Unit ← Prog.perform Request.enter
  try body
  catch error =>
    let _ : Unit ← Prog.perform Request.rollback
    throw error

def getScopeOrRaise (scopeId : String) : Program Scope := do
  let row : Option Scope ← Prog.perform (Request.select (.scope scopeId))
  match row with
  | some scope => return scope
  | none => throw (.scoped .scopeNotFound ("Scope " ++ scopeId ++ " not found") [("scope_id", .str scopeId)])

def requireMutable (scope : Scope) : Except Raised Unit :=
  if scope.isFrozen then .error (.scoped .scopeFrozen ("Scope " ++ scope.id ++ " is frozen") [("scope_id", .str scope.id)])
  else if scope.isArchived then
    .error (.scoped .scopeFrozen ("Scope " ++ scope.id ++ " is archived") [("scope_id", .str scope.id)])
  else .ok ()

def isoText (moment : DateTime) : String := String.ofList moment.isoformat

end Tenancy

/-- Whether an audit writer is wired. -/
structure ScopeLifecycle where
  audit : Bool

namespace ScopeLifecycle
open Tenancy

variable (lifecycle : ScopeLifecycle)

def record (trace : Trace) : Program Unit :=
  if lifecycle.audit then Prog.perform (Request.record trace) else pure ()

/-- The write of a grant: nothing where it is active, else a new version or a new row. -/
def writeMembership (ts : DateTime) (scopeId principalId : String) (role : ScopeRole) (grantedBy : String)
    (expiresAt : Option String) : Program (ScopeMembership × Bool) := do
  let existing : Option ScopeMembership ← Prog.perform (Request.select (.membership scopeId principalId role))
  match existing with
  | some existing =>
    if existing.lifecycle = .active then
      let _ : Unit ← Prog.perform Request.commit
      return (existing, false)
    let _ : Unit ← Prog.perform
      (Tenancy.Request.update (reactivateMembership scopeId principalId role (isoText ts) grantedBy expiresAt))
    let _ : Unit ← Prog.perform Request.commit
    return (⟨existing.id, scopeId, principalId, role, isoText ts, grantedBy, expiresAt, .active⟩, true)
  | none =>
    let memId : ScopedId ← Prog.perform Request.generateId
    let mem : ScopeMembership := ⟨memId.text, scopeId, principalId, role, isoText ts, grantedBy, expiresAt, .active⟩
    let _ : Unit ← Prog.perform (Request.insert (.membership scopeId principalId role) mem)
    let _ : Unit ← Prog.perform Request.commit
    return (mem, true)

def addMembership (scopeId principalId : String) (role : ScopeRole) (grantedBy : String) (expiresAt : Option String) :
    Program ScopeMembership := do
  let ts : DateTime ← Prog.perform Request.now
  let (mem, changed) ← transaction (writeMembership ts scopeId principalId role grantedBy expiresAt)
  if changed then
    lifecycle.record ⟨grantedBy, .membershipChange, "Scope", scopeId, scopeId⟩
  return mem

def addMember (scopeId principalId : String) (role : ScopeRole) (grantedBy : String) (expiresAt : Option String) :
    Program ScopeMembership := do
  let scope ← getScopeOrRaise scopeId
  requireMutable scope
  lifecycle.addMembership scopeId principalId role grantedBy expiresAt

/-- The loop of `add_members`: one transaction for each member. -/
def addEach (scopeId grantedBy : String) : List (String × Option String) → Program (List ScopeMembership)
  | [] => return []
  | (principalId, role) :: members => do
    match ScopeRole.ofValue (role.getD "viewer") with
    | none => throw (.other ("'" ++ role.getD "viewer" ++ "' is not a valid ScopeRole"))
    | some role =>
      let mem ← lifecycle.addMembership scopeId principalId role grantedBy none
      let rest ← addEach scopeId grantedBy members
      return mem :: rest

def addMembers (scopeId : String) (members : List (String × Option String)) (grantedBy : String) :
    Program (List ScopeMembership) := do
  let scope ← getScopeOrRaise scopeId
  requireMutable scope
  lifecycle.addEach scopeId grantedBy members

def revokeMember (scopeId principalId revokedBy : String) (role : Option ScopeRole) : Program Nat := do
  let scope ← getScopeOrRaise scopeId
  requireMutable scope
  let rows : List ScopeMembership ← Prog.perform (Request.selectRoles scopeId principalId role)
  if rows.isEmpty then
    return 0
  let _ : Unit ← Prog.perform (Tenancy.Request.update (revokeMemberships scopeId principalId role))
  rows.forM fun _ => lifecycle.record ⟨revokedBy, .revoke, "Scope", scopeId, scopeId⟩
  return rows.length

def freezeScope (scopeId frozenBy : String) : Program Scope := do
  let scope ← getScopeOrRaise scopeId
  if !scope.isActive then
    throw (.scoped .scopeFrozen ("Scope " ++ scopeId ++ " is not active (current: " ++ scope.lifecycle.name ++ ")")
      [("scope_id", .str scopeId), ("lifecycle", .str scope.lifecycle.name)])
  transaction do
    let _ : Unit ← Prog.perform (Tenancy.Request.update (setLifecycle scopeId .deprecated))
    let _ : Unit ← Prog.perform Request.commit
  lifecycle.record ⟨frozenBy, .lifecycleChange, "Scope", scopeId, scopeId⟩
  getScopeOrRaise scopeId

def archiveScope (scopeId archivedBy : String) : Program Scope := do
  let scope ← getScopeOrRaise scopeId
  if scope.isArchived then
    throw (.scoped .scopeFrozen ("Scope " ++ scopeId ++ " is already archived") [("scope_id", .str scopeId)])
  transaction do
    let _ : Unit ← Prog.perform (Tenancy.Request.update (sweepMemberships scopeId))
    let _ : Unit ← Prog.perform (Tenancy.Request.update (sweepProjections scopeId))
    let _ : Unit ← Prog.perform (Tenancy.Request.update (setLifecycle scopeId .archived))
    let _ : Unit ← Prog.perform Request.commit
  lifecycle.record ⟨archivedBy, .scopeDissolve, "Scope", scopeId, scopeId⟩
  getScopeOrRaise scopeId

end ScopeLifecycle

/-- Whether an audit writer is wired. -/
structure ProjectionManager where
  audit : Bool

namespace ProjectionManager
open Tenancy

variable (manager : ProjectionManager)

def record (trace : Trace) : Program Unit :=
  if manager.audit then Prog.perform (Request.record trace) else pure ()

/-- The write of a projection, one autocommitted statement. -/
def writeProjection (scopeId objectId projectedBy : String) (accessLevel : AccessLevel) : Program (ScopeProjection × Bool) := do
  let ts : DateTime ← Prog.perform Request.now
  let existing : Option ScopeProjection ← Prog.perform (Request.select (.projection scopeId objectId))
  match existing with
  | some existing =>
    if existing.lifecycle = .active then
      return (existing, false)
    let _ : Unit ← Prog.perform
      (Tenancy.Request.update (reactivateProjection scopeId objectId accessLevel (isoText ts) projectedBy))
    return (⟨existing.id, scopeId, objectId, isoText ts, projectedBy, accessLevel, .active⟩, true)
  | none =>
    let projId : ScopedId ← Prog.perform Request.generateId
    let proj : ScopeProjection := ⟨projId.text, scopeId, objectId, isoText ts, projectedBy, accessLevel, .active⟩
    let _ : Unit ← Prog.perform (Request.insert (.projection scopeId objectId) proj)
    return (proj, true)

def requireOwner (objectId projectedBy : String) (owner : Option String) : Except Raised Unit :=
  match owner with
  | none => .error (.scoped .accessDenied ("Object " ++ objectId ++ " not found") [("object_id", .str objectId)])
  | some owner =>
    if owner ≠ projectedBy then
      .error (.scoped .accessDenied "Only the object owner can project objects into scopes"
        [("object_id", .str objectId), ("owner_id", .str owner), ("projected_by", .str projectedBy)])
    else .ok ()

def project (scopeId objectId projectedBy : String) (accessLevel : AccessLevel) : Program ScopeProjection := do
  let scope ← getScopeOrRaise scopeId
  if scope.isFrozen || scope.isArchived then
    throw (.scoped .scopeFrozen ("Scope " ++ scopeId ++ " is not mutable")
      [("scope_id", .str scopeId), ("lifecycle", .str scope.lifecycle.name)])
  let owner : Option String ← Prog.perform (Request.select (.object objectId))
  requireOwner objectId projectedBy owner
  let (proj, changed) ← writeProjection scopeId objectId projectedBy accessLevel
  if changed then
    manager.record ⟨projectedBy, .projection, "ScopeProjection", objectId, scopeId⟩
  return proj

def revokeProjection (scopeId objectId revokedBy : String) : Program Bool := do
  let row : Option ScopeProjection ← Prog.perform (Request.select (.projection scopeId objectId))
  match row with
  | none => return false
  | some row =>
    if row.lifecycle ≠ .active then
      return false
    let _ : Unit ← Prog.perform (Tenancy.Request.update (revokeProjections scopeId objectId))
    manager.record ⟨revokedBy, .revoke, "ScopeProjection", objectId, scopeId⟩
    return true

end ProjectionManager

namespace Tenancy

/-- Clients that make calls, each chosen after the last one returned or raised. -/
inductive Client : Program Unit → Prop where
  | done : Client (.pure ())
  | addMember (lifecycle : ScopeLifecycle) (scopeId principalId : String) (role : ScopeRole) (grantedBy : String)
      (expiresAt : Option String) (next : Except Raised ScopeMembership → Program Unit) (each : ∀ result, Client (next result)) :
      Client ((lifecycle.addMember scopeId principalId role grantedBy expiresAt).attempt.bind next)
  | addMembers (lifecycle : ScopeLifecycle) (scopeId : String) (members : List (String × Option String)) (grantedBy : String)
      (next : Except Raised (List ScopeMembership) → Program Unit) (each : ∀ result, Client (next result)) :
      Client ((lifecycle.addMembers scopeId members grantedBy).attempt.bind next)
  | revokeMember (lifecycle : ScopeLifecycle) (scopeId principalId revokedBy : String) (role : Option ScopeRole)
      (next : Except Raised Nat → Program Unit) (each : ∀ result, Client (next result)) :
      Client ((lifecycle.revokeMember scopeId principalId revokedBy role).attempt.bind next)
  | freezeScope (lifecycle : ScopeLifecycle) (scopeId frozenBy : String) (next : Except Raised Scope → Program Unit)
      (each : ∀ result, Client (next result)) : Client ((lifecycle.freezeScope scopeId frozenBy).attempt.bind next)
  | archiveScope (lifecycle : ScopeLifecycle) (scopeId archivedBy : String) (next : Except Raised Scope → Program Unit)
      (each : ∀ result, Client (next result)) : Client ((lifecycle.archiveScope scopeId archivedBy).attempt.bind next)
  | project (manager : ProjectionManager) (scopeId objectId projectedBy : String) (accessLevel : AccessLevel)
      (next : Except Raised ScopeProjection → Program Unit) (each : ∀ result, Client (next result)) :
      Client ((manager.project scopeId objectId projectedBy accessLevel).attempt.bind next)
  | revokeProjection (manager : ProjectionManager) (scopeId objectId revokedBy : String)
      (next : Except Raised Bool → Program Unit) (each : ∀ result, Client (next result)) :
      Client ((manager.revokeProjection scopeId objectId revokedBy).attempt.bind next)

/-- `can_see` through a membership and a projection of one scope. -/
def grants (rows : Overlay TenancyRow) (now scopeId principalId objectId : String) : Bool :=
  (match rows (.projection scopeId objectId) with
    | some (row : ScopeProjection) => decide (row.lifecycle = .active)
    | none => false) &&
  ScopeRole.all.any fun role =>
    match rows (.membership scopeId principalId role) with
    | some (row : ScopeMembership) => row.holds now
    | none => false

end Tenancy
end PyScoped.Legacy
