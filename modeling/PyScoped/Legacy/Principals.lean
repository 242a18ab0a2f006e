import PyScoped.Foundation.Json
import PyScoped.Foundation.Search
import PyScoped.Legacy.Types

/-! Principals of version 1, the relationships between them, and the walks of
the resolver over these. -/

namespace PyScoped.Legacy.Principals
open Foundation

structure Principal where
  id : String
  kind : String
  displayName : String
  registryEntryId : String
  createdAt : String
  createdBy : String
  lifecycle : Lifecycle
  metadata : Json

structure PrincipalRelationship where
  id : String
  parentId : String
  childId : String
  relationship : String
  createdAt : String
  createdBy : String
  metadata : Json

/-- The tables of the store, each in the order in which the database lists its
rows. The ends of a relationship are foreign keys. -/
structure PrincipalStore where
  principals : List Principal
  relationships : List PrincipalRelationship
  distinct : (principals.map Principal.id).Nodup
  parents : ∀ rel ∈ relationships, rel.parentId ∈ principals.map Principal.id
  children : ∀ rel ∈ relationships, rel.childId ∈ principals.map Principal.id

namespace PrincipalStore

def findPrincipal (store : PrincipalStore) (principalId : String) : Option Principal :=
  store.principals.find? fun principal => principal.id = principalId

inductive Direction where
  | parent | child | both
  deriving DecidableEq, Repr

/-- `if relationship:`, so that the empty label is no filter. -/
def labelled (relationship : Option String) (rel : PrincipalRelationship) : Bool :=
  match relationship with
  | some label => label = "" || rel.relationship = label
  | none => true

def getRelationships (store : PrincipalStore) (principalId : String) (direction : Direction)
    (relationship : Option String) : List PrincipalRelationship :=
  (if direction ≠ .child then
    store.relationships.filter fun rel => rel.childId = principalId && labelled relationship rel else []) ++
  (if direction ≠ .parent then
    store.relationships.filter fun rel => rel.parentId = principalId && labelled relationship rel else [])

/-- The ends of the relationships: no walk leads to another principal. -/
def ends (store : PrincipalStore) : List String := store.relationships.flatMap fun rel => [rel.parentId, rel.childId]

end PrincipalStore

structure ResolutionPath where
  principals : List String
  relationships : List String
  deriving DecidableEq, Repr

def ResolutionPath.length (path : ResolutionPath) : Nat := path.relationships.length

def defaultMaxDepth : Nat := 20

/-- `max_depth or self.DEFAULT_MAX_DEPTH` -/
def depthOf (maxDepth : Option Nat) : Nat :=
  match maxDepth with
  | some (depth + 1) => depth + 1
  | _ => defaultMaxDepth

variable (store : PrincipalStore)

/-- What a queue of `ancestors` and `descendants` holds. -/
structure Visit where
  pid : String
  depth : Nat

/-- Walks edges in one direction. A principal that is not found is passed over. -/
def relativeSearch (direction : PrincipalStore.Direction) (far : PrincipalRelationship → String) (relationship : Option String)
    (depth : Nat) : Search Visit String where
  key := Visit.pid
  next visit :=
    if depth ≤ visit.depth then []
    else ((store.getRelationships visit.pid direction relationship).filter fun rel =>
      (store.findPrincipal (far rel)).isSome).map fun rel => ⟨far rel, visit.depth + 1⟩
  goal _ := false

/-- The principals that the walk finds. No key is queued twice, and there are at
most as many keys as there are ends. -/
def relatives (direction : PrincipalStore.Direction) (far : PrincipalRelationship → String) (principalId : String)
    (relationship : Option String) (maxDepth : Option Nat) : List Principal :=
  match (relativeSearch store direction far relationship (depthOf maxDepth)).drain (1 + store.ends.length) []
      [⟨principalId, 0⟩] with
  | some (.inr found) => found.filterMap fun visit => store.findPrincipal visit.pid
  | _ => []

def ancestors (principalId : String) (relationship : Option String) (maxDepth : Option Nat) : List Principal :=
  relatives store .parent PrincipalRelationship.parentId principalId relationship maxDepth

def descendants (principalId : String) (relationship : Option String) (maxDepth : Option Nat) : List Principal :=
  relatives store .child PrincipalRelationship.childId principalId relationship maxDepth

def parents (principalId : String) (relationship : Option String) : List Principal :=
  ancestors store principalId relationship (some 1)

def children (principalId : String) (relationship : Option String) : List Principal :=
  descendants store principalId relationship (some 1)

/-- What the queue of `find_path` holds. -/
structure Route where
  current : String
  pathIds : List String
  pathRels : List String
  deriving DecidableEq

def Route.start (fromId : String) : Route := ⟨fromId, [fromId], []⟩

/-- `rel.parent_id if rel.child_id == current else rel.child_id` -/
def neighbor (current : String) (rel : PrincipalRelationship) : String :=
  if rel.childId = current then rel.parentId else rel.childId

def Route.extend (route : Route) (rel : PrincipalRelationship) : Route where
  current := neighbor route.current rel
  pathIds := route.pathIds ++ [neighbor route.current rel]
  pathRels := route.pathRels ++ [rel.relationship]

/-- The routes that go one relationship further, whichever way it points. -/
def Route.longer (relationship : Option String) (route : Route) : List Route :=
  (store.getRelationships route.current .both relationship).map route.extend

def pathSearch (toId : String) (relationship : Option String) (depth : Nat) : Search Route String where
  key := Route.current
  next route := if depth < route.pathRels.length then [] else route.longer store relationship
  goal route := route.current = toId

def findPath (fromId toId : String) (relationship : Option String) (maxDepth : Option Nat) : Option ResolutionPath :=
  match (pathSearch store toId relationship (depthOf maxDepth)).drain (1 + store.ends.length) [fromId] [.start fromId] with
  | some (.inl route) => some ⟨route.pathIds, route.pathRels⟩
  | _ => none

def isRelated (principalId targetId : String) (relationship : Option String) (maxDepth : Option Nat) : Bool :=
  (findPath store principalId targetId relationship maxDepth).isSome

end PyScoped.Legacy.Principals
