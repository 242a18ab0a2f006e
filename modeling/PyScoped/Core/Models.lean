import PyScoped.Core.Context

/-! The two tables of the history, the digest of an event, and the check of
retained events against their head. -/

namespace PyScoped
open Foundation

/-- Serializes history appends per application model and primary key. -/
structure Resource where
  modelLabel : String
  objectPk : String
  scope : String
  revision : Nat
  digest : String

/-- A missing `before` or `after` is JSON null, as the columns read it back. -/
structure AuditEvent where
  revision : Nat
  scope : String
  actor : String
  action : String
  before : Json
  after : Json
  occurredAt : DateTime
  reason : String
  requestId : String
  previousDigest : String
  digest : String

/-- ISO text as DjangoJSONEncoder cuts it: milliseconds, and `Z` for UTC. -/
def renderTime (moment : DateTime) : List Char :=
  let text := moment.isoformat
  let text := if moment.microsecond = 0 then text else text.take 23 ++ text.drop 26
  if ['+', '0', '0', ':', '0', '0'].isSuffixOf text then text.take (text.length - 6) ++ ['Z'] else text

def eventPayload (resource : Resource) (event : AuditEvent) : Json :=
  .obj [("revision", .int event.revision), ("scope", .str event.scope), ("actor", .str event.actor),
    ("action", .str event.action), ("before", event.before), ("after", event.after),
    ("occurred_at", .str (String.ofList (renderTime event.occurredAt))), ("reason", .str event.reason),
    ("request_id", .str event.requestId), ("previous_digest", .str event.previousDigest),
    ("model_label", .str resource.modelLabel), ("object_pk", .str resource.objectPk)]

/-- The text that is hashed. The encoder refuses numbers that are not finite. -/
def encodeEvent (resource : Resource) (event : AuditEvent) : Except Err String :=
  match (eventPayload resource event).dumps with
  | some text => .ok (String.ofList text)
  | none => .error (.valueError "Out of range float values are not JSON compliant")

def eventDigest (sha256 : String → String) (resource : Resource) (event : AuditEvent) : Except Err String :=
  (encodeEvent resource event).map sha256

structure Verification where
  valid : Bool
  events : Nat
  detail : String
  deriving DecidableEq, Repr

/-- The loop of `verify_history`: the digest to continue with, or the revision
at which an event does not fit. -/
def verifyEvents (sha256 : String → String) (resource : Resource) :
    Nat → String → List AuditEvent → Except Err (Except Nat String)
  | _, previous, [] => .ok (.ok previous)
  | revision, previous, event :: events =>
    if event.revision ≠ revision ∨ event.previousDigest ≠ previous ∨ event.scope ≠ resource.scope then
      .ok (.error revision)
    else do
      let digest ← eventDigest sha256 resource event
      if event.digest ≠ digest then .ok (.error revision)
      else verifyEvents sha256 resource (revision + 1) event.digest events

/-- Verification of the retained events, in revision order, against the head. -/
def verifyRetained (sha256 : String → String) (resource : Resource) (events : List AuditEvent) :
    Except Err Verification := do
  match ← verifyEvents sha256 resource 1 "" events with
  | .error revision => .ok ⟨false, events.length, "Invalid event at revision " ++ revision.repr ++ "."⟩
  | .ok previous =>
    if resource.revision ≠ events.length ∨ resource.digest ≠ previous then
      .ok ⟨false, events.length, "Head does not match retained events."⟩
    else .ok ⟨true, events.length, ""⟩

end PyScoped
