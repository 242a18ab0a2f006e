import PyScoped.Foundation.Json
import PyScoped.Foundation.Stateful
import PyScoped.Legacy.Types

/-! The registry of constructs of version 1: its entries, the indexes over them,
and the operations that keep each index for itself. -/

namespace PyScoped.Legacy
open Foundation

namespace Registry

/-- A member of `RegistryKind` or a custom kind; the indexes know both by name. -/
inductive Kind where
  | registry (name : String)
  | custom (name : String)
  deriving DecidableEq, Repr

def Kind.name : Kind → String
  | .registry name | .custom name => name

/-- `str(kind)` -/
def Kind.str : Kind → String
  | .registry name => "RegistryKind." ++ name
  | .custom name => "CustomKind('" ++ name ++ "')"

inductive RegistryError where
  | frozen (kind : Kind) (entryNamespace name : String)
  | alreadyRegistered (urn : String)
  | unknownId (id : String)
  | unknownUrn (urn : String)
  | invalidUrn (message : String)
  | keyError (key : String)
  deriving DecidableEq, Repr

namespace RegistryError

def message : RegistryError → String
  | .frozen _ _ _ => "Registry is frozen — cannot register new constructs"
  | .alreadyRegistered urn => "Construct already registered: " ++ urn
  | .unknownId id => "No registry entry with id: " ++ id
  | .unknownUrn urn => "No registry entry with URN: " ++ urn
  | .invalidUrn message => message
  | .keyError key => key

def context : RegistryError → List (String × String)
  | .frozen kind entryNamespace name => [("kind", kind.str), ("namespace", entryNamespace), ("name", name)]
  | .alreadyRegistered urn | .unknownUrn urn => [("urn", urn)]
  | .unknownId id => [("id", id)]
  | .invalidUrn _ | .keyError _ => []

end RegistryError

structure URN where
  kind : String
  entryNamespace : String
  name : String
  version : Int
  valid : kind ≠ "" ∧ entryNamespace ≠ "" ∧ name ≠ "" ∧ 1 ≤ version
  deriving DecidableEq

namespace URN

/-- `__post_init__` -/
def make (kind entryNamespace name : String) (version : Int) : Except RegistryError URN :=
  if noKind : kind = "" then .error (.invalidUrn "URN kind must be non-empty")
  else if noNamespace : entryNamespace = "" then .error (.invalidUrn "URN namespace must be non-empty")
  else if noName : name = "" then .error (.invalidUrn "URN name must be non-empty")
  else if early : version < 1 then .error (.invalidUrn ("URN version must be >= 1, got " ++ toString version))
  else .ok ⟨kind, entryNamespace, name, version, noKind, noNamespace, noName, Int.not_lt.mp early⟩

def text (urn : URN) : String :=
  "scoped:" ++ urn.kind ++ ":" ++ urn.entryNamespace ++ ":" ++ urn.name ++ ":" ++ toString urn.version

end URN

/-- The target is known by its identity. -/
structure RegistryEntry where
  id : String
  urn : URN
  kind : Kind
  lifecycle : Lifecycle
  registeredAt : String
  registeredBy : String
  target : Option Nat
  metadata : Json
  entryNamespace : String
  tags : List String
  entryVersion : Nat
  previousEntryId : Option String
  deriving DecidableEq

def RegistryEntry.live (entry : RegistryEntry) : Bool := entry.lifecycle ≠ .archived

end Registry

open Registry

/-- The entries in the order of their registration, and the indexes. `byUrn`
holds entries, which here are their ids: an id is never given to another entry. -/
structure Registry where
  entries : List RegistryEntry
  byUrn : String → Option String
  byKind : String → List String
  byNamespace : String → List String
  byTarget : Nat → Option String
  frozen : Bool

namespace Registry

/-- `__init__` -/
def new : Registry := ⟨[], fun _ => none, fun _ => [], fun _ => [], fun _ => none, false⟩

abbrev Program := Stateful Registry RegistryError

/-- The arguments of `register`. -/
structure Registration where
  kind : Kind
  entryNamespace : String
  name : String
  registeredBy : String
  target : Option Nat
  metadata : Json
  tags : List String
  version : Int
  lifecycle : Lifecycle

def find (registry : Registry) (entryId : String) : Option RegistryEntry := registry.entries.find? fun entry => entry.id = entryId

/-- `index.setdefault(name, [])`, and the id appended unless it is there. -/
def addTo (index : String → List String) (name entryId : String) : String → List String :=
  Function.update index name (if entryId ∈ index name then index name else index name ++ [entryId])

def removeFrom (index : String → List String) (name entryId : String) : String → List String :=
  Function.update index name ((index name).filter fun other => other ≠ entryId)

/-- `_entries[entry.id] = entry` -/
def putEntry (entries : List RegistryEntry) (entry : RegistryEntry) : List RegistryEntry :=
  if entries.any fun other => other.id = entry.id then entries.map fun other => if other.id = entry.id then entry else other
  else entries ++ [entry]

/-- `_index_entry` -/
def indexEntry (registry : Registry) (entry : RegistryEntry) : Registry :=
  { registry with
    entries := putEntry registry.entries entry
    byUrn := Function.update registry.byUrn entry.urn.text (some entry.id)
    byKind := addTo registry.byKind entry.kind.name entry.id
    byNamespace := addTo registry.byNamespace entry.entryNamespace entry.id
    byTarget := match entry.target with
      | some target => Function.update registry.byTarget target (some entry.id)
      | none => registry.byTarget }

/-- The entry that `register` makes of its arguments. -/
def entryFor (args : Registration) (urn : URN) (generated : ScopedId) (now : String) : RegistryEntry where
  id := generated.text
  urn := urn
  kind := args.kind
  lifecycle := args.lifecycle
  registeredAt := now
  registeredBy := args.registeredBy
  target := args.target
  metadata := args.metadata
  entryNamespace := args.entryNamespace
  tags := args.tags
  entryVersion := 1
  previousEntryId := none

def register (args : Registration) (generated : ScopedId) (now : String) : Program RegistryEntry := do
  if (← get).frozen then throw (.frozen args.kind args.entryNamespace args.name)
  let urn ← (URN.make args.kind.name args.entryNamespace args.name args.version : Except RegistryError URN)
  if ((← get).byUrn urn.text).isSome then throw (.alreadyRegistered urn.text)
  let entry := entryFor args urn generated now
  modify fun registry => registry.indexEntry entry
  return entry

def getByUrn (registry : Registry) (urn : String) : Except RegistryError RegistryEntry :=
  match (registry.byUrn urn).bind registry.find with
  | some entry => .ok entry
  | none => .error (.unknownUrn urn)

/-- `[self._entries[eid] for eid in entry_ids]` -/
def resolve (registry : Registry) (entryIds : List String) : Except RegistryError (List RegistryEntry) :=
  entryIds.mapM fun entryId =>
    match registry.find entryId with
    | some entry => .ok entry
    | none => .error (.keyError entryId)

/-- `_paginate` -/
def paginate (items : List RegistryEntry) (limit : Option Nat) (offset : Nat) : List RegistryEntry :=
  match limit with
  | some limit => (items.drop offset).take limit
  | none => items.drop offset

def listByKind (registry : Registry) (kind : Kind) (limit : Option Nat) (offset : Nat) :
    Except RegistryError (List RegistryEntry) :=
  (registry.resolve (registry.byKind kind.name)).map fun entries => paginate entries limit offset

def listByNamespace (registry : Registry) (entryNamespace : String) (limit : Option Nat) (offset : Nat) :
    Except RegistryError (List RegistryEntry) :=
  (registry.resolve (registry.byNamespace entryNamespace)).map fun entries => paginate entries limit offset

/-- The filters of `query`; one that is left out lets every entry pass. -/
structure Filters where
  kind : Option Kind
  entryNamespace : Option String
  tag : Option String
  lifecycle : Option Lifecycle
  predicate : Option (RegistryEntry → Bool)

def Filters.pass (filters : Filters) (entry : RegistryEntry) : Bool :=
  filters.kind.all (fun kind => entry.kind.name = kind.name) &&
    filters.entryNamespace.all (fun wanted => entry.entryNamespace = wanted) &&
    filters.tag.all (fun tag => tag ∈ entry.tags) &&
    filters.lifecycle.all (fun lifecycle => entry.lifecycle = lifecycle) &&
    filters.predicate.all fun predicate => predicate entry

def query (registry : Registry) (filters : Filters) (limit : Option Nat) (offset : Nat) : List RegistryEntry :=
  paginate (registry.entries.filter filters.pass) limit offset

def ofKind (kind : Kind) : Filters := ⟨some kind, none, none, none, none⟩

def inNamespace (entryNamespace : String) : Filters := ⟨none, some entryNamespace, none, none, none⟩

/-- An entry under another lifecycle, as one version more of itself. -/
def moved (lifecycle : Lifecycle) (entry : RegistryEntry) : RegistryEntry :=
  { entry with lifecycle := lifecycle, entryVersion := entry.entryVersion + 1, previousEntryId := none }

/-- The entry object is changed in place. -/
def movedAt (entryId : String) (lifecycle : Lifecycle) (entry : RegistryEntry) : RegistryEntry :=
  if entry.id = entryId then moved lifecycle entry else entry

def change (registry : Registry) (entryId : String) (lifecycle : Lifecycle) : Registry :=
  { registry with entries := registry.entries.map (movedAt entryId lifecycle) }

def transition (entryId : String) (newLifecycle : Lifecycle) : Program RegistryEntry := do
  match (← get).find entryId with
  | none => throw (.unknownId entryId)
  | some entry =>
    modify fun registry => registry.change entryId newLifecycle
    return moved newLifecycle entry

/-- Frees the URN and takes the entry out of the lists of its kind and namespace. -/
def unindex (registry : Registry) (entry : RegistryEntry) : Registry :=
  { registry with
    byUrn := Function.update registry.byUrn entry.urn.text none
    byKind := removeFrom registry.byKind entry.kind.name entry.id
    byNamespace := removeFrom registry.byNamespace entry.entryNamespace entry.id }

def archive (entryId : String) : Program RegistryEntry := do
  match (← get).find entryId with
  | none => throw (.unknownId entryId)
  | some entry =>
    modify fun registry => (registry.change entryId .archived).unindex entry
    return moved .archived entry

/-- The calls of a run, with the id and the time that a registration generates. -/
inductive Call where
  | register (args : Registration) (generated : ScopedId) (now : String)
  | transition (entryId : String) (newLifecycle : Lifecycle)
  | archive (entryId : String)

def invoke : Call → Program RegistryEntry
  | .register args generated now => register args generated now
  | .transition entryId newLifecycle => transition entryId newLifecycle
  | .archive entryId => archive entryId

/-- The registry after a call, which may have raised. -/
def after (registry : Registry) (call : Call) : Registry := ((invoke call).on registry).2

end Registry
end PyScoped.Legacy
