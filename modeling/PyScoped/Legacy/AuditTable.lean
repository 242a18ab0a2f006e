import PyScoped.Foundation.Instants
import PyScoped.Foundation.Paging
import PyScoped.Foundation.Rows
import PyScoped.Foundation.Stateful
import PyScoped.Legacy.Errors

/-! The table of the audit trail as the database holds it, whatever was written
into it: its verification over a range, and its retention. -/

namespace PyScoped.Legacy
open Foundation

/-- A row of `audit_trail`. -/
structure AuditRow where
  id : String
  sequence : Int
  actorId : String
  action : String
  targetType : String
  targetId : String
  scopeId : Option String
  timestamp : String
  beforeState : Option String
  afterState : Option String
  metadataJson : String
  parentTraceId : Option String
  hash : String
  previousHash : String
  deriving DecidableEq

/-- `sequence` is unique. -/
abbrev AuditTable := Rows AuditRow.sequence

/-- `hashlib.new(algorithm)`: a hexadecimal digest of a text. -/
structure Digest where
  hash : String → String
  ascii : ∀ text, (hash text).toList.all Char.isAlphanum = true

namespace AuditRow

def payload (row : AuditRow) : String :=
  row.id ++ "|" ++ toString row.sequence ++ "|" ++ row.actorId ++ "|" ++ row.action ++ "|" ++ row.targetType ++ "|" ++
    row.targetId ++ "|" ++ row.timestamp ++ "|" ++ row.previousHash

def computeHash (digest : Digest) (row : AuditRow) : String := digest.hash row.payload

end AuditRow

namespace AuditTable

/-- `hmac.compare_digest`, which takes ASCII only. -/
def compareDigest (first second : String) : Except Raised Bool :=
  if first.toList.all Char.isAscii && second.toList.all Char.isAscii then .ok (first = second)
  else .error (.other "comparing strings with non-ASCII characters is not supported")

structure ChainVerification where
  valid : Bool
  entriesChecked : Nat
  firstSequence : Int
  lastSequence : Int
  brokenAtSequence : Option Int
  deriving DecidableEq

/-- What the loop carries from one entry to the next. -/
structure Progress where
  checked : Nat
  first : Option Int
  last : Int
  previous : Option String

/-- How the loop is left early. -/
inductive Stop where
  | broken (verification : ChainVerification)
  | raised (error : Raised)

variable (digest : Digest)

/-- `not hmac.compare_digest(...)` ends the walk with a report. -/
def require (report : ChainVerification) (first second : String) : Except Stop Unit :=
  match compareDigest first second with
  | .error error => .error (.raised error)
  | .ok true => .ok ()
  | .ok false => .error (.broken report)

def verifyEntry (progress : Progress) (entry : AuditRow) : Except Stop Progress := do
  let first := progress.first.getD entry.sequence
  let report : ChainVerification := ⟨false, progress.checked + 1, first, entry.sequence, some entry.sequence⟩
  require report entry.hash (entry.computeHash digest)
  match progress.previous with
  | none => pure ()
  | some previous => require report entry.previousHash previous
  return ⟨progress.checked + 1, some first, entry.sequence, some entry.hash⟩

/-- `ORDER BY sequence` -/
def inOrder (table : AuditTable) : List AuditRow :=
  table.list.mergeSort fun first second => decide (first.sequence ≤ second.sequence)

def upTo (table : AuditTable) (toSequence : Option Int) : List AuditRow :=
  (inOrder table).filter fun row => toSequence.all fun last => decide (row.sequence ≤ last)

/-- Each round but the last takes a row, so as many rounds as rows and one more suffice. -/
def verifyChain (table : AuditTable) (fromSequence : Int) (toSequence : Option Int) (chunkSize : Nat) :
    Except Raised ChainVerification :=
  match Paging.walk AuditRow.sequence (verifyEntry digest) (upTo table toSequence) chunkSize (table.list.length + 1)
      fromSequence ⟨0, none, 0, none⟩ with
  | .error (.raised error) => .error error
  | .error (.broken report) => .ok report
  | .ok progress =>
    match progress.first with
    | none => .ok ⟨true, 0, 0, 0, none⟩
    | some first => .ok ⟨true, progress.checked, first, progress.last, none⟩

end AuditTable

structure RetentionPolicy where
  maxAgeDays : Option Int
  maxEntries : Option Int
  compactBeforeState : Bool
  compactAfterState : Bool

structure RetentionResult where
  deleted : Nat
  compacted : Nat

namespace AuditRetention
open AuditTable

abbrev Program := Stateful AuditTable Raised

/-- A row that stays names a row that goes as its parent. -/
def orphans (table : AuditTable) (chosen : AuditRow → Bool) : Bool :=
  table.list.any fun row => !chosen row && table.list.any fun parent => chosen parent && row.parentTraceId = some parent.id

/-- `DELETE FROM audit_trail WHERE ...`, under the foreign key of `parent_trace_id`. -/
def deleteWhere (chosen : AuditRow → Bool) : Program Unit := do
  let table ← get
  if orphans table chosen then
    throw (.other "FOREIGN KEY constraint failed")
  set (table.delete chosen)

/-- `_age_cutoff`, as the text it is compared by. -/
def ageCutoff (now : Moment) (policy : RetentionPolicy) : Except Raised (Option String) :=
  match policy.maxAgeDays with
  | none => .ok none
  | some days =>
    let instant := now.instant - days * 86400000000
    if inside : 0 ≤ instant ∧ instant < 315537897600000000 then
      .ok (some (Moment.of instant.toNat (by omega)).isoformat)
    else .error (.other "date value out of range")

/-- The row behind the newest so many. A negative offset counts as none. -/
def cutoffRow (table : AuditTable) (maxEntries : Int) : Option AuditRow := (inOrder table).reverse[maxEntries.toNat]?

def compacted (before after : Bool) (row : AuditRow) : AuditRow :=
  { row with
    beforeState := if before then none else row.beforeState
    afterState := if after then none else row.afterState }

/-- Some state that is to be nulled is there. -/
def holdsState (before after : Bool) (row : AuditRow) : Bool :=
  before && row.beforeState.isSome || after && row.afterState.isSome

def compact (beforeSequence : Option Int) (compactBefore compactAfter : Bool) : Program Nat := do
  if !compactBefore && !compactAfter then
    return 0
  let chosen := fun row : AuditRow => holdsState compactBefore compactAfter row &&
    beforeSequence.all fun sequence => decide (row.sequence < sequence)
  let affected := ((← get).list.filter chosen).length
  if affected = 0 then
    return 0
  modify fun table => table.update chosen (compacted compactBefore compactAfter) fun _ => rfl
  return affected

/-- The rows before a moment of the clock are deleted, then all but the newest. -/
def prune (now : Moment) (policy : RetentionPolicy) : Program Unit := do
  match ageCutoff now policy with
  | .error error => throw error
  | .ok none => pure ()
  | .ok (some cutoff) => deleteWhere fun row => row.timestamp < cutoff
  match policy.maxEntries with
  | none => pure ()
  | some maxEntries =>
    match cutoffRow (← get) maxEntries with
    | none => pure ()
    | some last => deleteWhere fun row => row.sequence ≤ last.sequence

def apply (now : Moment) (policy : RetentionPolicy) : Program RetentionResult := do
  let before ← get
  prune now policy
  let compacted ← if policy.compactBeforeState || policy.compactAfterState then
      compact none policy.compactBeforeState policy.compactAfterState
    else pure 0
  let after ← get
  return ⟨before.list.length - after.list.length, compacted⟩

end AuditRetention
end PyScoped.Legacy
