import PyScoped.Core.Models
import PyScoped.Foundation.Instants
import PyScoped.Foundation.JsonNumbers

/-! Events as the process holds them, with aware times, and as the database gives
them back: JSON columns and timestamps pass through its own notations. -/

namespace PyScoped
open Foundation

/-- `DjangoJSONEncoder`: milliseconds, and `Z` for UTC. -/
def encodeDateTime (moment : Timestamp) : List Char :=
  let text := moment.isoformat
  let text := if moment.clock.microsecond = 0 then text else text.take 23 ++ text.drop 26
  if ['+', '0', '0', ':', '0', '0'].isSuffixOf text then text.take (text.length - 6) ++ ['Z'] else text

structure EventRecord where
  revision : Nat
  scope : String
  actor : String
  action : String
  before : Json
  after : Json
  occurredAt : Aware
  reason : String
  requestId : String
  previousDigest : String
  digest : String

namespace EventRecord

def payload (resource : Resource) (event : EventRecord) : Json :=
  .obj [("revision", .int event.revision), ("scope", .str event.scope), ("actor", .str event.actor),
    ("action", .str event.action), ("before", event.before), ("after", event.after),
    ("occurred_at", .str (String.ofList (encodeDateTime event.occurredAt.timestamp))), ("reason", .str event.reason),
    ("request_id", .str event.requestId), ("previous_digest", .str event.previousDigest),
    ("model_label", .str resource.modelLabel), ("object_pk", .str resource.objectPk)]

def encode (resource : Resource) (event : EventRecord) : Except Err String :=
  match (event.payload resource).dumps with
  | some text => .ok (String.ofList text)
  | none => .error (.valueError "Out of range float values are not JSON compliant")

/-- `event_digest` -/
def eventDigest (sha256 : String → String) (resource : Resource) (event : EventRecord) : Except Err String :=
  (event.encode resource).map sha256

end EventRecord

/-- How a connection gives columns back: whether JSON is kept as PostgreSQL's
`jsonb`, and the offset of its time zone at an instant. -/
structure Database where
  jsonb : Bool
  zone : Int → Offset

def Database.json (database : Database) (value : Json) : Json := if database.jsonb then value.decimals else value

/-- The event as it is read back. Objects may come back with their keys in another order. -/
structure Database.ReadsBack (database : Database) (written read : EventRecord) : Prop where
  revision : read.revision = written.revision
  scope : read.scope = written.scope
  actor : read.actor = written.actor
  action : read.action = written.action
  before : read.before.Same (database.json written.before)
  after : read.after.Same (database.json written.after)
  instant : read.occurredAt.instant = written.occurredAt.instant
  offset : read.occurredAt.offset = database.zone written.occurredAt.instant
  reason : read.reason = written.reason
  requestId : read.requestId = written.requestId
  previousDigest : read.previousDigest = written.previousDigest
  digest : read.digest = written.digest

/-- The digest that `append_event` stores with the event. -/
def EventRecord.Sealed (sha256 : String → String) (resource : Resource) (event : EventRecord) : Prop :=
  event.eventDigest sha256 resource = .ok event.digest

end PyScoped
