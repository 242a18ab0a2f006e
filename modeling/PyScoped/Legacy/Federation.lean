import PyScoped.Foundation.Interleaving
import PyScoped.Foundation.JsonText
import PyScoped.Foundation.Timestamp
import PyScoped.Legacy.Errors
import PyScoped.Legacy.Types

/-! Federation messages of version 1: signing, the sender's counter and the
receiver's ledger, for protocols that are wired to a backend. -/

namespace PyScoped.Legacy
open Foundation

structure FederationMessage where
  id : String
  senderOrgId : String
  receiverOrgId : String
  connectorId : String
  messageType : String
  payload : Json
  timestamp : Timestamp
  sequence : Int
  signature : String
  wellFormed : payload.finite = true
  deriving DecidableEq

namespace FederationMessage

/-- Equal in every field. The order of keys is no part of a payload. -/
structure Same (message other : FederationMessage) : Prop where
  id : message.id = other.id
  senderOrgId : message.senderOrgId = other.senderOrgId
  receiverOrgId : message.receiverOrgId = other.receiverOrgId
  connectorId : message.connectorId = other.connectorId
  messageType : message.messageType = other.messageType
  payload : Json.Same message.payload other.payload
  timestamp : message.timestamp = other.timestamp
  sequence : message.sequence = other.sequence
  signature : message.signature = other.signature

/-- The text that is signed: eight fields with a bar between them. -/
def signingPayload (message : FederationMessage) : String :=
  message.id ++ "|" ++ message.senderOrgId ++ "|" ++ message.receiverOrgId ++ "|" ++ message.connectorId ++ "|" ++
    message.messageType ++ "|" ++ String.ofList message.payload.dumpsSpaced ++ "|" ++
    String.ofList message.timestamp.isoformat ++ "|" ++ message.sequence.repr

/-- The primary key of the receiver's ledger. -/
def triple (message : FederationMessage) : String × String × Int :=
  (message.connectorId, message.senderOrgId, message.sequence)

end FederationMessage

/-- A row of `federation_seen_messages`. -/
structure SeenMessage where
  connectorId : String
  senderOrgId : String
  sequence : Int
  seenAt : Timestamp
  messageId : String

def SeenMessage.triple (row : SeenMessage) : String × String × Int := (row.connectorId, row.senderOrgId, row.sequence)

/-- The arguments of `create_message`. -/
structure Draft where
  senderOrgId : String
  receiverOrgId : String
  connectorId : String
  messageType : String
  payload : Json
  wellFormed : payload.finite = true

/-- One instance: the pre-shared key, and which lock it made for itself. -/
structure FederationProtocol where
  key : String
  lock : Nat

namespace FederationProtocol

/-- The two tables, the locks that are held, and what has happened: messages
that were returned or are on their way, with their keys, and how calls ended.
What a client has in hand is listed with it: a counter value it wrote for a
message not yet returned, a message that arrived and is not in the ledger yet,
a ledger row of a message not yet reported. -/
structure Store (ι : Type) where
  sequences : String → Option Int
  seen : List SeenMessage
  locks : List Nat
  created : List (String × FederationMessage)
  inFlight : List (String × FederationMessage)
  failed : List Raised
  accepted : List FederationMessage
  rejected : List (FederationMessage × Raised)
  numbered : List (ι × String × Int)
  arrived : List (ι × FederationMessage)
  marked : List (ι × SeenMessage)

/-- Statements, and the moments at which a message arrives or a call has ended.
What the call of an UPDATE had selected is a remark. -/
inductive Request where
  | acquire (lock : Nat)
  | release (lock : Nat)
  | selectSequence (connectorId : String)
  | insertSequence (connectorId : String) (lastSequence : Int) (updatedAt : Timestamp)
  | updateSequence (connectorId : String) (lastSequence : Int) (updatedAt : Timestamp) (loaded : Int)
  | now
  | generateId
  | insertSeen (row : SeenMessage)
  | receive (key : String)
  | created (key : String) (message : FederationMessage)
  | failed (error : Raised)
  | accepted (message : FederationMessage)
  | rejected (message : FederationMessage) (error : Raised)

def Reply : Request → Type
  | .acquire _ => Unit
  | .release _ => Unit
  | .selectSequence _ => Option Int
  | .insertSequence _ _ _ => Unit
  | .updateSequence _ _ _ _ => Unit
  | .now => Timestamp
  | .generateId => ScopedId
  | .insertSeen _ => Unit
  | .receive _ => FederationMessage
  | .created _ _ => Unit
  | .failed _ => Unit
  | .accepted _ => Unit
  | .rejected _ _ => Unit

abbrev Program (α : Type) := Prog Request Reply Raised α

/-- What the world decides at a statement. -/
structure Choice where
  failure : Option Raised
  now : DateTime
  id : ScopedId
  message : FederationMessage

/-- What may arrive where a message is awaited, and what that leaves. -/
abbrev Network (ι : Type) := Store ι → String → FederationMessage → Option (Store ι)

/-- Each statement commits by itself. Where `faulty`, a statement may also fail. -/
def serve {ι : Type} [DecidableEq ι] (network : Network ι) (faulty : Bool) :
    Service Request Reply Raised (Store ι) ι Choice := fun client choice store request =>
  match if faulty then choice.failure else none with
  | some error => some (.error error, store)
  | none =>
    match request with
    | .acquire lock => if lock ∈ store.locks then none else some (.ok (), { store with locks := lock :: store.locks })
    | .release lock => some (.ok (), { store with locks := store.locks.erase lock })
    | .selectSequence connectorId => some (.ok (store.sequences connectorId), store)
    | .insertSequence connectorId lastSequence _ =>
      if (store.sequences connectorId).isSome then some (.error (.unique "federation_sequences"), store)
      else some (.ok (), { store with
        sequences := Function.update store.sequences connectorId (some lastSequence)
        numbered := (client, connectorId, lastSequence) :: store.numbered })
    | .updateSequence connectorId lastSequence _ _ =>
      if (store.sequences connectorId).isSome then some (.ok (), { store with
        sequences := Function.update store.sequences connectorId (some lastSequence)
        numbered := (client, connectorId, lastSequence) :: store.numbered })
      else some (.ok (), store)
    | .now => some (.ok (.utc choice.now), store)
    | .generateId => some (.ok choice.id, store)
    | .insertSeen row =>
      if row.triple ∈ store.seen.map SeenMessage.triple then some (.error (.unique "federation_seen_messages"), store)
      else some (.ok (), { store with
        seen := row :: store.seen
        arrived := store.arrived.filter (fun entry => entry.1 ≠ client)
        marked := (client, row) :: store.marked })
    | .receive key => (network store key choice.message).map fun store =>
      (.ok choice.message, { store with arrived := (client, choice.message) :: store.arrived })
    | .created key message => some (.ok (), { store with
        created := (key, message) :: store.created
        inFlight := (key, message) :: store.inFlight
        numbered := store.numbered.erase (client, message.connectorId, message.sequence) })
    | .failed error => some (.ok (), { store with failed := error :: store.failed })
    | .accepted message => some (.ok (), { store with
        accepted := message :: store.accepted
        marked := store.marked.filter (fun entry => entry.1 ≠ client) })
    | .rejected message error => some (.ok (), { store with
        rejected := (message, error) :: store.rejected
        arrived := store.arrived.filter (fun entry => entry.1 ≠ client) })

section

variable (hmac : String → String → String) (protocol : FederationProtocol)

def sign (data : String) : String := hmac protocol.key data

/-- `with self._lock: ...` -/
def locked {α : Type} (body : Program α) : Program α := do
  let _ : Unit ← Prog.perform (Request.acquire protocol.lock)
  let result ← body.attempt
  let _ : Unit ← Prog.perform (Request.release protocol.lock)
  Prog.ofExcept result

def advance (connectorId : String) : Program Int := do
  let row : Option Int ← Prog.perform (Request.selectSequence connectorId)
  let ts : Timestamp ← Prog.perform Request.now
  match row with
  | none =>
    let _ : Unit ← Prog.perform (Request.insertSequence connectorId 1 ts)
    return 1
  | some lastSequence =>
    let _ : Unit ← Prog.perform (Request.updateSequence connectorId (lastSequence + 1) ts lastSequence)
    return lastSequence + 1

def nextSequence (connectorId : String) : Program Int := protocol.locked (advance connectorId)

/-- Which errors of the database are taken for a replay. -/
def isReplay (error : Raised) : Bool :=
  ["unique", "primary", "integrity", "duplicate"].any fun word => decide (word.toList <:+: error.text.toLower.toList)

def replayError (message : FederationMessage) : Raised :=
  .scoped .federation "Message replay detected"
    [("connector_id", .str message.connectorId), ("sender_org_id", .str message.senderOrgId),
      ("sequence", .int message.sequence), ("message_id", .str message.id)]

def recordSeen (message : FederationMessage) : Program Unit := do
  let seenAt : Timestamp ← Prog.perform Request.now
  try
    let _ : Unit ← Prog.perform
      (Request.insertSeen ⟨message.connectorId, message.senderOrgId, message.sequence, seenAt, message.id⟩)
  catch error =>
    throw (if isReplay error then replayError message else error)

def createMessage (draft : Draft) : Program FederationMessage := do
  let seq ← protocol.nextSequence draft.connectorId
  let ts : Timestamp ← Prog.perform Request.now
  let mid : ScopedId ← Prog.perform Request.generateId
  let unsigned : FederationMessage :=
    { id := mid.text
      senderOrgId := draft.senderOrgId
      receiverOrgId := draft.receiverOrgId
      connectorId := draft.connectorId
      messageType := draft.messageType
      payload := draft.payload
      timestamp := ts
      sequence := seq
      signature := ""
      wellFormed := draft.wellFormed }
  return { unsigned with signature := protocol.sign hmac unsigned.signingPayload }

def verifyMessage (message : FederationMessage) : Bool := protocol.sign hmac message.signingPayload == message.signature

def verifyOrRaise (message : FederationMessage) : Except Raised Unit :=
  if !protocol.verifyMessage hmac message then
    .error (.scoped .federation "Message signature verification failed" [("message_id", .str message.id)])
  else .ok ()

def markSeen (message : FederationMessage) : Program Unit := recordSeen message

def acceptMessage (message : FederationMessage) : Program Unit := do
  protocol.verifyOrRaise hmac message
  markSeen message

/-- A call of `create_message`, and the moment its caller has the message or the error. -/
def send (draft : Draft) : Program Unit :=
  (protocol.createMessage hmac draft).attempt.bind fun
    | .ok message => Prog.perform (Request.created protocol.key message)
    | .error error => Prog.perform (Request.failed error)

/-- A message that arrives and is handed to `accept_message`. -/
def deliver : Program Unit := do
  let message : FederationMessage ← Prog.perform (Request.receive protocol.key)
  (protocol.acceptMessage hmac message).attempt.bind fun
    | .ok _ => Prog.perform (Request.accepted message)
    | .error error => Prog.perform (Request.rejected message error)

/-- Threads and processes that create messages and accept what arrives, on any instances. -/
inductive Client : Program Unit → Prop where
  | done : Client (.pure ())
  | send (protocol : FederationProtocol) (draft : Draft) (next : Except Raised Unit → Program Unit)
      (each : ∀ result, Client (next result)) : Client ((protocol.send hmac draft).attempt.bind next)
  | deliver (protocol : FederationProtocol) (next : Except Raised Unit → Program Unit)
      (each : ∀ result, Client (next result)) : Client ((protocol.deliver hmac).attempt.bind next)

end

/-- A network that delivers each message once, to a holder of its key. -/
def courier {ι : Type} : Network ι := fun store key message =>
  if (key, message) ∈ store.inFlight then some { store with inFlight := store.inFlight.erase (key, message) } else none

/-- A network in the hands of an adversary who cannot forge signatures: what
arrives is arbitrary, but its signature verifies only for a text that was signed. -/
def adversary {ι : Type} (hmac : String → String → String) : Network ι := fun store key message =>
  if hmac key message.signingPayload = message.signature →
      ∃ entry ∈ store.created, entry.1 = key ∧ entry.2.signingPayload = message.signingPayload
  then some store else none

section Sample

def channel : FederationProtocol := ⟨"key", 0⟩

/-- A signature that shows the key and the text; any injective one would do. -/
def labelled (key data : String) : String := key ++ ":" ++ data

theorem emptyPayload_finite : (Json.obj []).finite = true := rfl

def heartbeat (senderOrgId receiverOrgId : String) : Draft :=
  ⟨senderOrgId, receiverOrgId, "partner", "heartbeat", .obj [], emptyPayload_finite⟩

def firstId : ScopedId := .repeated 1

def noon : DateTime := ⟨2024, 1, 1, 12, 0, 0, 0, by decide⟩

def empty : Store Bool := ⟨fun _ => none, [], [], [], [], [], [], [], [], [], []⟩

end Sample

end FederationProtocol
end PyScoped.Legacy
