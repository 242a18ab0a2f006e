import Mathlib.Data.List.Dedup
import Mathlib.Data.List.Sort
import PyScoped.Foundation.RecursiveQuery
import PyScoped.Legacy.Objects
import PyScoped.Legacy.ScopeTree
import PyScoped.Legacy.Visibility

/-! The queries of the visibility engine of version 1, over whole tables, and the
reads of the object manager that rest on them. -/

namespace PyScoped.Legacy
open Foundation

/-- The unique columns of `scope_memberships`. -/
def ScopeMembership.seat (membership : ScopeMembership) : String × String × ScopeRole :=
  (membership.scopeId, membership.principalId, membership.role)

/-- The unique columns of `scope_projections`. -/
def ScopeProjection.pair (projection : ScopeProjection) : String × String := (projection.scopeId, projection.objectId)

/-- The tables, in the order in which the storage gives their rows. -/
structure VisibilityTables where
  objects : Rows ScopedObject.id
  scopes : ScopeTree.Scopes
  memberships : Rows ScopeMembership.seat
  projections : Rows ScopeProjection.pair

namespace VisibilityEngine

variable (tables : VisibilityTables) (now principalId objectId scopeId : String)

/-- The merge of `visible_object_ids`. -/
def merge (limit : Int) (seen result : List String) : List String → List String
  | [] => result
  | oid :: oids =>
    let known := decide (oid ∈ seen)
    let seen := if known then seen else oid :: seen
    let result := if known then result else result ++ [oid]
    if limit ≤ result.length then result else merge limit seen result oids

def ownedObjectIds (objectType : Option String) : List String :=
  (tables.objects.list.filter fun object =>
    object.ownerId = principalId && object.lifecycle ≠ .archived &&
      objectType.all fun wanted => wanted = "" || object.objectType = wanted).map ScopedObject.id

/-- The scopes of the memberships that hold. -/
def memberScopes : List String :=
  (tables.memberships.list.filter fun membership => membership.principalId = principalId && membership.holds now).map
    ScopeMembership.scopeId

/-- The parents that the join with `scopes` gives for an id. -/
def parentIds : List String :=
  (tables.scopes.list.filter fun scope => scope.id = scopeId).filterMap Scope.parentScopeId

/-- The recursive query of the scopes of a principal and their ancestors. The recursion
ends by its depth. -/
def visibleScopes : List (String × Nat) :=
  RecursiveQuery.unionAll (RecursiveQuery.deepen 20 (parentIds tables)) 20
    ((memberScopes tables now principalId).map fun scopeId => (scopeId, 0))

/-- Each object once, in no order that the query asks for. -/
def projectedObjectIds (objectType : Option String) : List String :=
  let ofType (projection : ScopeProjection) : Bool := objectType.all fun wanted =>
    wanted = "" || (tables.objects.find projection.objectId).any fun object => object.objectType = wanted
  ((tables.projections.list.filter fun projection =>
    projection.lifecycle = .active && ofType projection &&
      projection.scopeId ∈ (visibleScopes tables now principalId).map Prod.fst).map ScopeProjection.objectId).dedup

def visibleObjectIds (objectType : Option String) (limit : Int) : List String :=
  merge limit [] [] (ownedObjectIds tables principalId objectType ++ projectedObjectIds tables now principalId objectType)

/-- The join of the projections of an object with the memberships of a principal. -/
def projectedTo : List ScopeProjection :=
  tables.projections.list.flatMap fun projection =>
    (tables.memberships.list.filter fun membership =>
      projection.scopeId = membership.scopeId && projection.objectId = objectId && membership.principalId = principalId &&
        projection.lifecycle = .active && membership.holds now).map fun _ => projection

/-- `_visible_via_hierarchy` -/
def visibleViaHierarchy : Bool :=
  let ancestorIds := ((visibleScopes tables now principalId).filter fun row => 0 < row.2).map Prod.fst
  tables.projections.list.any fun projection =>
    projection.objectId = objectId && projection.lifecycle = .active && projection.scopeId ∈ ancestorIds

def canSee : Bool :=
  if tables.objects.list.any fun object =>
    object.id = objectId && object.ownerId = principalId && object.lifecycle ≠ .archived then true
  else if !(projectedTo tables now principalId objectId).isEmpty then true
  else visibleViaHierarchy tables now principalId objectId

/-- `get_access_level` over the tables. -/
def accessLevel : Option AccessLevel :=
  if tables.objects.list.any fun object => object.id = objectId && object.ownerId = principalId then some .admin
  else ((projectedTo tables now principalId objectId).map ScopeProjection.accessLevel).argmax AccessLevel.priority

end VisibilityEngine

/-- `can_access` -/
def canAccess (objectOwnerId principalId : String) : Bool := objectOwnerId = principalId

/-- Whether a visibility engine is wired. -/
structure ObjectReads where
  visibility : Bool

namespace ObjectReads

variable (manager : ObjectReads) (tables : VisibilityTables) (now principalId objectId : String)

def get : Option ScopedObject :=
  match tables.objects.find objectId with
  | none => none
  | some object =>
    if canAccess object.ownerId principalId then some object
    else if manager.visibility && VisibilityEngine.canSee tables now principalId objectId then some object
    else none

def getOrRaise : Except Raised ScopedObject :=
  match tables.objects.find objectId with
  | none =>
    .error (.scoped .accessDenied ("Object " ++ objectId ++ " not found or access denied")
      [("object_id", .str objectId), ("principal_id", .str principalId)])
  | some object =>
    if canAccess object.ownerId principalId then .ok object
    else if manager.visibility && VisibilityEngine.canSee tables now principalId objectId then .ok object
    else
      .error (.scoped .accessDenied ("Principal " ++ principalId ++ " cannot access object " ++ objectId)
        [("object_id", .str objectId), ("principal_id", .str principalId)])

/-- The levels that are enough for what is required. -/
def requiredLevels : String → List AccessLevel
  | "read" => [.read, .write, .admin]
  | "write" => [.write, .admin]
  | "admin" => [.admin]
  | _ => []

/-- `_check_access_level` -/
def checkAccessLevel (required : String) : Except Raised Unit :=
  if !manager.visibility then .ok ()
  else match tables.objects.find objectId with
    | none => .ok ()
    | some object =>
      if canAccess object.ownerId principalId then .ok ()
      else
        let level := VisibilityEngine.accessLevel tables now principalId objectId
        if level.any fun level => level ∈ requiredLevels required then .ok ()
        else
          .error (.scoped .accessDenied ("Principal " ++ principalId ++ " has " ++ level.elim "no" AccessLevel.value ++
              " access on object " ++ objectId ++ ", but " ++ required ++ " is required")
            [("object_id", .str objectId), ("principal_id", .str principalId), ("required_level", .str required),
              ("actual_level", optionalText (level.map AccessLevel.value))])

/-- `_visibility_filtered_select` -/
def visibilityFilteredSelect (objectType : Option String) : List ScopedObject :=
  let ofType (object : ScopedObject) : Bool := objectType.all fun wanted => object.objectType = wanted
  if !manager.visibility then tables.objects.list.filter fun object => object.ownerId = principalId && ofType object
  else
    let visibleIds := VisibilityEngine.visibleObjectIds tables now principalId objectType 10000
    if visibleIds.isEmpty then []
    else tables.objects.list.filter fun object => object.id ∈ visibleIds && ofType object

def selected (objectType : Option String) (includeTombstoned : Bool) : List ScopedObject :=
  (manager.visibilityFilteredSelect tables now principalId objectType).filter fun object =>
    includeTombstoned || object.lifecycle ≠ .archived

/-- The text of the column that is ordered by. -/
def orderText (orderBy : String) (object : ScopedObject) : String :=
  let col := String.ofList (orderBy.toList.dropWhile fun c => c = '-')
  if col = "object_type" then object.objectType else String.ofList object.createdAt.isoformat

/-- The order that a query gives its rows: those of the same text as the storage has
them in this query. -/
def precedes (orderBy : String) (ties : ScopedObject → Nat) (first second : ScopedObject) : Bool :=
  let text := orderText orderBy
  let before := if orderBy.toList.head? = some '-' then text second < text first else text first < text second
  before || (text first = text second && ties first ≤ ties second)

def listObjects (objectType : Option String) (includeTombstoned : Bool) (orderBy : String) (limit offset : Nat)
    (ties : ScopedObject → Nat) : List ScopedObject :=
  let rows := manager.selected tables now principalId objectType includeTombstoned
  ((rows.insertionSort fun first second => precedes orderBy ties first second).drop offset).take limit

def count (objectType : Option String) (includeTombstoned : Bool) : Nat :=
  (manager.selected tables now principalId objectType includeTombstoned).length

end ObjectReads
end PyScoped.Legacy
