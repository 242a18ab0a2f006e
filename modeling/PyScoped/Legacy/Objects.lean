import PyScoped.Foundation.DateTime
import PyScoped.Foundation.Json
import PyScoped.Legacy.Tenancy

/-! Objects of version 1 and the versions of their data. -/

namespace PyScoped.Legacy
open Foundation

structure ScopedObject where
  id : String
  objectType : String
  ownerId : String
  currentVersion : Nat
  createdAt : DateTime
  lifecycle : Lifecycle
  registryEntryId : Option String
  deriving DecidableEq

namespace ScopedObject

/-- The columns of `scoped_objects` as SQL values. -/
def column (object : ScopedObject) : String → Option Json
  | "id" => some (.str object.id)
  | "object_type" => some (.str object.objectType)
  | "owner_id" => some (.str object.ownerId)
  | "registry_entry_id" => some ((object.registryEntryId.map .str).getD .null)
  | "current_version" => some (.int object.currentVersion)
  | "created_at" => some (.str (String.ofList object.createdAt.isoformat))
  | "lifecycle" => some (.str object.lifecycle.name)
  | _ => none

end ScopedObject

/-- A version without the checksum of its data, which nothing here reads. -/
structure ObjectVersion where
  id : String
  objectId : String
  version : Nat
  data : Json
  createdAt : DateTime
  createdBy : String
  changeReason : String

end PyScoped.Legacy
