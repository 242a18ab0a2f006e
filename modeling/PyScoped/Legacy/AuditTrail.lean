import PyScoped.Foundation.Json
import PyScoped.Foundation.HashChain
import PyScoped.Foundation.Fields
import PyScoped.Legacy.Types

/-! The audit trail of version 1 and its verification by pages. Verification
reads only the columns the hash covers, so states and metadata are not here. -/

namespace PyScoped.Legacy
open Foundation

/-- The columns of `audit_trail` that verification selects. -/
structure VerificationEntry where
  id : ScopedId
  sequence : Nat
  actorId : String
  action : ActionType
  targetType : String
  targetId : String
  timestamp : DateTime
  hash : String
  previousHash : String

namespace VerificationEntry

/-- The text that is hashed: eight fields with a bar between them. -/
def payload (entry : VerificationEntry) : String :=
  entry.id.text ++ "|" ++ entry.sequence.repr ++ "|" ++ entry.actorId ++ "|" ++ entry.action.value ++ "|" ++
    entry.targetType ++ "|" ++ entry.targetId ++ "|" ++ String.ofList entry.timestamp.isoformat ++ "|" ++
    entry.previousHash

def computeHash (hash : String → String) (entry : VerificationEntry) : String := hash entry.payload

end VerificationEntry

structure ChainVerification where
  valid : Bool
  entriesChecked : Nat
  firstSequence : Nat
  lastSequence : Nat
  brokenAtSequence : Option Nat
  deriving DecidableEq, Repr

/-- What the verification loop carries from one entry to the next. -/
structure Progress where
  checked : Nat
  first : Option Nat
  last : Nat
  previous : Option String

namespace AuditQuery

variable (hash : String → String)

/-- One entry: first its own hash, then the link to the entry before it. The
first entry of the walk has no predecessor to compare with. -/
def verifyEntry (progress : Progress) (entry : VerificationEntry) : Except ChainVerification Progress :=
  let first := progress.first.getD entry.sequence
  let broken : ChainVerification := ⟨false, progress.checked + 1, first, entry.sequence, some entry.sequence⟩
  if entry.hash ≠ entry.computeHash hash then .error broken
  else if progress.previous.any (fun previous => entry.previousHash != previous) then .error broken
  else .ok ⟨progress.checked + 1, some first, entry.sequence, some entry.hash⟩

/-- The table in sequence order, as every page of the walk selects it. -/
def inOrder (trail : List VerificationEntry) : List VerificationEntry :=
  trail.mergeSort (fun first second => decide (first.sequence ≤ second.sequence))

def page (trail : List VerificationEntry) (currentFrom : Nat) (toSequence : Option Nat) (chunkSize : Nat) :
    List VerificationEntry :=
  ((inOrder trail).filter (fun entry =>
    decide (currentFrom ≤ entry.sequence) && toSequence.all (fun last => decide (entry.sequence ≤ last)))).take chunkSize

/-- The loop over pages. Each full page moves `currentFrom` past its entries,
so one round for each entry and one more always suffice. -/
def verifyPages (trail : List VerificationEntry) (toSequence : Option Nat) (chunkSize : Nat) :
    Nat → Nat → Progress → Except ChainVerification Progress
  | 0, _, progress => .ok progress
  | rounds + 1, currentFrom, progress =>
    match page trail currentFrom toSequence chunkSize with
    | [] => .ok progress
    | entry :: entries => do
      let progress ← (entry :: entries).foldlM (verifyEntry hash) progress
      if (entry :: entries).length < chunkSize then .ok progress
      else verifyPages trail toSequence chunkSize rounds (progress.last + 1) progress

def verifyChain (trail : List VerificationEntry) (fromSequence : Nat := 1) (toSequence : Option Nat := none)
    (chunkSize : Nat := 5000) : ChainVerification :=
  match verifyPages hash trail toSequence chunkSize (trail.length + 1) fromSequence ⟨0, none, 0, none⟩ with
  | .error broken => broken
  | .ok progress => ⟨true, progress.checked, progress.first.getD 0, progress.last, none⟩

/-- The table's sequence numbers are 1, 2, ... with no gap and no repetition. -/
def Contiguous (trail : List VerificationEntry) : Prop :=
  (inOrder trail).map (·.sequence) = List.range' 1 trail.length

/-- The first entry has no predecessor. -/
def Rooted (trail : List VerificationEntry) : Prop :=
  ∀ entry ∈ (inOrder trail).head?, entry.previousHash = ""

/-- The hash of the last entry. -/
def tip (trail : List VerificationEntry) : Option String := (inOrder trail).getLast?.map (·.hash)

end AuditQuery
end PyScoped.Legacy
