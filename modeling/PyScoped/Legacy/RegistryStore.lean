import PyScoped.Legacy.Tenancy
import PyScoped.Legacy.Urns

/-! The table that the registry of version 1 is persisted in: how its entries become
rows, and how a registry is hydrated from rows. -/

namespace PyScoped.Legacy.Registry
open Foundation

/-- The members of `RegistryKind`. -/
def registryKinds : List String :=
  ["MODEL", "FIELD", "RELATIONSHIP", "INSTANCE", "FUNCTION", "CLASS", "METHOD", "SIGNAL", "TASK", "VIEW", "SERIALIZER",
    "MIDDLEWARE", "PRINCIPAL", "SCOPE", "RULE", "ENVIRONMENT", "PIPELINE", "STAGE", "FLOW_CHANNEL", "DEPLOYMENT", "SECRET",
    "SECRET_REF", "INTEGRATION", "PLUGIN", "PLUGIN_HOOK", "CONNECTOR", "MARKETPLACE_LISTING", "EVENT_SUBSCRIPTION",
    "WEBHOOK_ENDPOINT", "NOTIFICATION_RULE", "SCHEDULE", "SCHEDULED_ACTION", "TEMPLATE", "APP_CONFIG", "MANIFEST", "CUSTOM"]

/-- A row of `registry_entries`. The JSON columns are known by what they hold, and a
timestamp by its text. -/
structure Row where
  id : String
  urn : String
  kind : String
  entryNamespace : String
  name : String
  lifecycle : String
  registeredAt : String
  registeredBy : String
  entryVersion : Nat
  previousEntryId : Option String
  metadata : Json
  tags : List String
  deriving DecidableEq

inductive StoreError where
  | unique (column : String)
  | keyError (key : String)
  | registry (error : RegistryError)

section Saving

variable (numerals : Numerals)

/-- `sorted` of a set -/
def sortedTags (tags : List String) : List String := tags.dedup.mergeSort fun first second => decide (first ≤ second)

/-- What `save_all` writes of an entry, with its URN as text. -/
def RegistryEntry.row (entry : RegistryEntry) (urn : String) : Row where
  id := entry.id
  urn := urn
  kind := entry.kind.name
  entryNamespace := entry.entryNamespace
  name := entry.urn.name
  lifecycle := entry.lifecycle.name
  registeredAt := entry.registeredAt
  registeredBy := entry.registeredBy
  entryVersion := entry.entryVersion
  previousEntryId := entry.previousEntryId
  metadata := entry.metadata
  tags := sortedTags entry.tags

def rowOf (entry : RegistryEntry) : Except StoreError Row :=
  match entry.urn.str numerals with
  | .error error => .error (.registry error)
  | .ok urn => .ok (entry.row urn)

/-- The row is inserted, or put in the place of the one with its id. Of one URN
there is at most one row. -/
def upsert (rows : List Row) (row : Row) : Except StoreError (List Row) :=
  if rows.any fun other => other.urn = row.urn && other.id ≠ row.id then .error (.unique "registry_entries.urn")
  else if rows.any fun other => other.id = row.id then .ok (rows.map fun other => if other.id = row.id then row else other)
  else .ok (rows ++ [row])

def saveEntry (rows : List Row) (entry : RegistryEntry) : Except StoreError (List Row) :=
  (rowOf numerals entry).bind (upsert rows)

/-- `save_all`, in one transaction. What raises leaves the table as it was. -/
def saveAll (rows : List Row) (entries : List RegistryEntry) : Except StoreError (List Row) :=
  entries.foldlM (saveEntry numerals) rows

def persistRegistry (registry : Registry) (rows : List Row) : Except StoreError (List Row) :=
  saveAll numerals rows registry.entries

end Saving

section Loading

variable (numerals : Numerals)

/-- `_resolve_kind`. A custom kind is known by its name, defined or not. -/
def resolveKind (name : String) : Kind := if name ∈ registryKinds then .registry name else .custom name

/-- `Lifecycle[name]` -/
def lifecycleNamed (name : String) : Except StoreError Lifecycle :=
  match [Lifecycle.draft, .active, .deprecated, .archived].find? fun lifecycle => lifecycle.name = name with
  | some lifecycle => .ok lifecycle
  | none => .error (.keyError name)

/-- `_hydrate_entry` -/
def hydrateEntry (registry : Registry) (row : Row) : Except StoreError Registry :=
  match URN.parse numerals row.urn with
  | .error error => .error (.registry error)
  | .ok urn => (lifecycleNamed row.lifecycle).map fun lifecycle => registry.indexEntry
    { id := row.id, urn := urn, kind := resolveKind row.kind, lifecycle := lifecycle, registeredAt := row.registeredAt
      registeredBy := row.registeredBy, target := none, metadata := row.metadata, entryNamespace := row.entryNamespace
      tags := row.tags, entryVersion := row.entryVersion, previousEntryId := row.previousEntryId }

/-- `hydrate_registry`, of the rows in the order in which they are selected. -/
def hydrateRegistry (rows : List Row) (registry : Registry) : Except StoreError Registry :=
  rows.foldlM (hydrateEntry numerals) registry

end Loading

/-- The registry after a call. A URN whose version cannot be written raises before it
is looked up. -/
def called (numerals : Numerals) (registry : Registry) : Call → Registry
  | .register args generated now =>
    match (URN.make args.kind.name args.entryNamespace args.name args.version).bind (URN.str numerals) with
    | .error _ => registry
    | .ok _ => registry.after (.register args generated now)
  | .transition entryId newLifecycle => registry.after (.transition entryId newLifecycle)
  | .archive entryId => registry.after (.archive entryId)

end PyScoped.Legacy.Registry
