import PyScoped.Foundation.Instants
import PyScoped.Foundation.Interleaving
import PyScoped.Foundation.Rows
import PyScoped.Legacy.Errors
import PyScoped.Legacy.Types

/-! Blobs of version 1. Their bytes are kept by a backend, under paths that are
made of the blob and a version number, their metadata in two tables. A call makes
one backend call or statement after the other, none of them in a transaction. -/

namespace PyScoped.Legacy.Blobs
open Foundation

abbrev Bytes := List UInt8

/-- A row of `blobs`, and the reference that is made of it. -/
structure BlobRef where
  id : ScopedId
  filename : String
  contentType : String
  sizeBytes : Nat
  contentHash : String
  ownerId : String
  createdAt : Moment
  storagePath : String
  currentVersion : Nat
  lifecycle : Lifecycle
  objectId : Option String
  metadata : Option Json

/-- A row of `blob_versions`. -/
structure BlobVersion where
  id : String
  blobId : String
  version : Nat
  contentHash : String
  sizeBytes : Nat
  storagePath : String
  createdAt : Moment
  createdBy : String
  changeReason : String

def BlobRef.key (ref : BlobRef) : String := ref.id.text

def BlobVersion.key (version : BlobVersion) : String × Nat := (version.blobId, version.version)

abbrev BlobTable := Rows BlobRef.key

/-- `UNIQUE (blob_id, version)`; the primary key is checked where a row is inserted. -/
abbrev VersionTable := Rows BlobVersion.key

/-- What the bytes of a version are stored under: `blob_id` for the first, and
`f"{blob_id}_v{n}"` for those to come. -/
inductive BlobKey where
  | original (blobId : ScopedId)
  | version (blobId : ScopedId) (n : Nat)
  deriving DecidableEq

def BlobKey.text : BlobKey → String
  | .original blobId => blobId.text
  | .version blobId n => blobId.text ++ "_v" ++ toString n

/-- `InMemoryBlobBackend` and `LocalBlobBackend`, as far as the path goes that
they make of a key. Both keep the bytes under it until it is stored to again. -/
inductive BlobBackend where
  | inMemory
  | local

/-- `mem://{blob_id}`, and `_blob_path`, relative to the root. -/
def BlobBackend.path : BlobBackend → String → String
  | .inMemory, blobId => "mem://" ++ blobId
  | .local, blobId =>
    String.ofList (blobId.toList.take 2 ++ '/' :: (blobId.toList.drop 2).take 2 ++ '/' :: blobId.toList)

/-- What a row says of the bytes at its path. -/
@[ext]
structure Content where
  contentHash : String
  sizeBytes : Nat
  storagePath : String
  deriving DecidableEq

def BlobRef.content (ref : BlobRef) : Content := ⟨ref.contentHash, ref.sizeBytes, ref.storagePath⟩

def BlobVersion.content (version : BlobVersion) : Content := ⟨version.contentHash, version.sizeBytes, version.storagePath⟩

/-- What a call reads the row of a blob for. -/
inductive Purpose where
  | read | update | delete

/-- How far an update has come: it has read the row, has written it, or has returned. -/
inductive Progress where
  | begun
  | written
  | returned (data : Bytes)
  deriving DecidableEq

/-- An update of a blob, and the version that it has found. -/
structure Update (ι : Type) where
  client : ι
  found : Nat
  progress : Progress

/-- What a read has returned, and what it had to: the data of the last update
that had begun, if that had returned when the read began and none has begun since. -/
structure Reading where
  expected : Option Bytes
  got : Option Bytes
  deriving DecidableEq

/-- The tables and the backend. Remembered are who has written a blob whose version
is not there yet, the last update of each blob, what each read under way has to
return, and what the reads have returned. -/
structure Store (ι : Type) where
  blobs : BlobTable
  versions : VersionTable
  files : String → Option Bytes
  owed : String → Nat → Option (ι × Content)
  latest : String → Option (Update ι)
  awaited : ι → Option (String × Bytes)
  readings : List Reading

inductive Request where
  | fetch (blobId : String) (purpose : Purpose)
  /-- `store` of the backend. -/
  | put (key : BlobKey) (data : Bytes)
  /-- `retrieve` of the backend, of a path that it has returned. -/
  | retrieve (storagePath : String)
  /-- The row of a new blob, and the bytes that it is about. -/
  | insertBlob (ref : BlobRef) (data : Bytes)
  /-- `UPDATE blobs SET current_version, content_hash, size_bytes, storage_path`,
  and the bytes that it is about. -/
  | updateBlob (blobId : String) (currentVersion : Nat) (content : Content) (data : Bytes)
  | archive (blobId : String)
  /-- The row of a version, and the bytes of the update that returns with it. -/
  | insertVersion (version : BlobVersion) (returns : Option Bytes)
  | now
  | generateId

def Reply : Request → Type
  | .fetch _ _ => Option BlobRef
  | .put _ _ => String
  | .retrieve _ => Bytes
  | .now => Moment
  | .generateId => ScopedId
  | _ => Unit

abbrev Program (α : Type) := Prog Request Reply Raised α

structure Choice where
  failure : Option Raised
  now : Moment
  id : ScopedId

variable {ι : Type} [DecidableEq ι]

/-- The store before anything was stored. -/
def Store.empty : Store ι := ⟨.empty, .empty, fun _ => none, fun _ _ => none, fun _ => none, fun _ => none, []⟩

namespace Store

/-- The data of the last update of the blob, if that has returned. -/
def returned (store : Store ι) (blobId : String) : Option (String × Bytes) :=
  match store.latest blobId with
  | some ⟨_, _, .returned data⟩ => some (blobId, data)
  | _ => none

/-- What is remembered of a statement that reads the row of a blob. -/
def fetched (store : Store ι) (client : ι) (blobId : String) : Purpose → Store ι
  | .read => { store with awaited := Function.update store.awaited client (store.returned blobId) }
  | .update =>
    { store with
      latest := Function.update store.latest blobId
        (some ⟨client, (store.blobs.find blobId).elim 0 BlobRef.currentVersion, .begun⟩)
      awaited := fun reader => (store.awaited reader).filter fun awaited => awaited.1 ≠ blobId }
  | .delete => store

/-- What is remembered of a read that returns. -/
def read (store : Store ι) (client : ι) (got : Option Bytes) : Store ι :=
  { store with
    awaited := Function.update store.awaited client none
    readings := ⟨(store.awaited client).map Prod.snd, got⟩ :: store.readings }

/-- The last update of a blob comes further, if it is the client's. -/
def proceed (store : Store ι) (client : ι) (blobId : String) (progress : Progress) : String → Option (Update ι) :=
  Function.update store.latest blobId ((store.latest blobId).map fun update =>
    if update.client = client then { update with progress := progress } else update)

/-- The last updates after a version was added, with which an update may return. -/
def concluded (store : Store ι) (client : ι) (blobId : String) (returns : Option Bytes) : String → Option (Update ι) :=
  match returns with
  | some data => store.proceed client blobId (.returned data)
  | none => store.latest

def owe (store : Store ι) (blobId : String) (version : Nat) (owed : Option (ι × Content)) :
    String → Nat → Option (ι × Content) :=
  Function.update store.owed blobId (Function.update (store.owed blobId) version owed)

end Store

/-- `UPDATE blobs SET ... WHERE id = ...` -/
def BlobTable.write (blobs : BlobTable) (blobId : String) (currentVersion : Nat) (content : Content) : BlobTable :=
  blobs.update (·.key = blobId) (fun ref =>
    { ref with
      currentVersion := currentVersion, contentHash := content.contentHash, sizeBytes := content.sizeBytes
      storagePath := content.storagePath }) fun _ => rfl

def BlobTable.archive (blobs : BlobTable) (blobId : String) : BlobTable :=
  blobs.update (·.key = blobId) (fun ref => { ref with lifecycle := .archived }) fun _ => rfl

/-- Both keys of `blob_versions` are checked. -/
def VersionTable.add (versions : VersionTable) (version : BlobVersion) : Option VersionTable :=
  if versions.list.any fun other => other.id = version.id then none else versions.insert version

/-- Any statement and any call of the backend may fail, and so cut off the call that it belongs to. -/
def serve (backend : BlobBackend) : Service Request Reply Raised (Store ι) ι Choice := fun client choice store request =>
  match request, choice.failure with
  | .now, _ => some (.ok choice.now, store)
  | .generateId, _ => some (.ok choice.id, store)
  | _, some error => some (.error error, store)
  | .fetch blobId purpose, none => some (.ok (store.blobs.find blobId), store.fetched client blobId purpose)
  | .put key data, none =>
    some (.ok (backend.path key.text), { store with files := Function.update store.files (backend.path key.text) (some data) })
  | .retrieve storagePath, none =>
    match store.files storagePath with
    | some data => some (.ok data, store.read client (some data))
    | none => some (.error (.other ("Blob not found: " ++ storagePath)), store.read client none)
  | .insertBlob ref _, none =>
    match store.blobs.insert ref with
    | some blobs => some (.ok (), { store with blobs := blobs, owed := store.owe ref.key 1 (some (client, ref.content)) })
    | none => some (.error (.unique "blobs"), store)
  | .updateBlob blobId currentVersion content _, none =>
    some (.ok (), { store with
      blobs := store.blobs.write blobId currentVersion content
      owed := store.owe blobId currentVersion (some (client, content))
      latest := store.proceed client blobId .written })
  | .archive blobId, none => some (.ok (), { store with blobs := store.blobs.archive blobId })
  | .insertVersion version returns, none =>
    match store.versions.add version with
    | some versions => some (.ok (), { store with
        versions := versions
        owed := store.owe version.blobId version.version none
        latest := store.concluded client version.blobId returns })
    | none => some (.error (.unique "blob_versions"), store)

end Blobs

/-- `compute_content_hash` is SHA-256, in hexadecimal. -/
structure BlobManager where
  backend : Blobs.BlobBackend
  computeContentHash : Blobs.Bytes → String

namespace Blobs
open Foundation

variable (manager : BlobManager)

def accessContext (blobId principalId : String) : List (String × Json) :=
  [("blob_id", .str blobId), ("principal_id", .str principalId)]

def getOrRaise (purpose : Purpose) (blobId principalId : String) : Program BlobRef := do
  let row : Option BlobRef ← Prog.perform (Request.fetch blobId purpose)
  match row with
  | none => throw (.scoped .accessDenied s!"Blob {blobId} not found" (accessContext blobId principalId))
  | some ref =>
    if ref.ownerId = principalId then return ref
    else throw (.scoped .accessDenied s!"Access denied to blob {blobId}" (accessContext blobId principalId))

/-- `_create_version`; what an update returns with is a remark. -/
def createVersion (ref : BlobRef) (createdBy changeReason : String) (returns : Option Bytes) : Program BlobVersion := do
  let ts : Moment ← Prog.perform Request.now
  let versionId : ScopedId ← Prog.perform Request.generateId
  let version : BlobVersion :=
    { id := versionId.text, blobId := ref.key, version := ref.currentVersion, contentHash := ref.contentHash
      sizeBytes := ref.sizeBytes, storagePath := ref.storagePath, createdAt := ts, createdBy := createdBy
      changeReason := changeReason }
  let _ : Unit ← Prog.perform (Request.insertVersion version returns)
  return version

def store (data : Bytes) (filename contentType ownerId : String) (objectId : Option String) (metadata : Option Json)
    (changeReason : String) : Program BlobRef := do
  let ts : Moment ← Prog.perform Request.now
  let blobId : ScopedId ← Prog.perform Request.generateId
  let storagePath : String ← Prog.perform (Request.put (.original blobId) data)
  let ref : BlobRef :=
    { id := blobId, filename := filename, contentType := contentType, sizeBytes := data.length
      contentHash := manager.computeContentHash data, ownerId := ownerId, createdAt := ts, storagePath := storagePath
      currentVersion := 1, lifecycle := .active, objectId := objectId, metadata := metadata }
  let _ : Unit ← Prog.perform (Request.insertBlob { ref with metadata := some (metadata.getD (.obj [])) } data)
  let _ ← createVersion ref ownerId changeReason none
  return ref

/-- The chunks that a stream yields, up to the first empty one. -/
def drain (chunks : List Bytes) : Bytes := (chunks.takeWhile (· ≠ [])).flatten

/-- `store_stream`: what the stream yields is gathered, hashed and stored as one. -/
def storeStream (chunks : List Bytes) (filename contentType ownerId : String) (objectId : Option String)
    (metadata : Option Json) (changeReason : String) : Program BlobRef :=
  store manager (drain chunks) filename contentType ownerId objectId metadata changeReason

def read (blobId principalId : String) : Program Bytes := do
  let ref ← getOrRaise .read blobId principalId
  Prog.perform (Request.retrieve ref.storagePath)

def update (blobId : String) (data : Bytes) (principalId changeReason : String) : Program BlobRef := do
  let ref ← getOrRaise .update blobId principalId
  let newPath : String ← Prog.perform (Request.put (.version ref.id (ref.currentVersion + 1)) data)
  let content : Content := ⟨manager.computeContentHash data, data.length, newPath⟩
  let ref : BlobRef :=
    { ref with
      currentVersion := ref.currentVersion + 1, contentHash := content.contentHash, sizeBytes := content.sizeBytes
      storagePath := content.storagePath }
  let _ : Unit ← Prog.perform (Request.updateBlob blobId ref.currentVersion content data)
  let _ ← createVersion ref principalId changeReason (some data)
  return ref

def delete (blobId principalId : String) : Program BlobRef := do
  let ref ← getOrRaise .delete blobId principalId
  let _ : Unit ← Prog.perform (Request.archive blobId)
  return { ref with lifecycle := .archived }

inductive Call where
  | store (data : Bytes) (filename contentType ownerId : String) (objectId : Option String) (metadata : Option Json)
      (changeReason : String)
  | storeStream (chunks : List Bytes) (filename contentType ownerId : String) (objectId : Option String)
      (metadata : Option Json) (changeReason : String)
  | read (blobId principalId : String)
  | update (blobId : String) (data : Bytes) (principalId changeReason : String)
  | delete (blobId principalId : String)

inductive Returned where
  | ref (ref : BlobRef)
  | bytes (data : Bytes)

def invoke : Call → Program Returned
  | .store data filename contentType ownerId objectId metadata changeReason =>
    .ref <$> store manager data filename contentType ownerId objectId metadata changeReason
  | .storeStream chunks filename contentType ownerId objectId metadata changeReason =>
    .ref <$> storeStream manager chunks filename contentType ownerId objectId metadata changeReason
  | .read blobId principalId => .bytes <$> read blobId principalId
  | .update blobId data principalId changeReason => .ref <$> update manager blobId data principalId changeReason
  | .delete blobId principalId => .ref <$> delete blobId principalId

/-- Clients that make one call after the other, and may depend on what the calls
before have returned or raised. -/
inductive Client : Program Unit → Prop where
  | done : Client (.pure ())
  | call (made : Call) (next : Except Raised Returned → Program Unit) (each : ∀ result, Client (next result)) :
      Client ((invoke manager made).attempt.bind next)

end PyScoped.Legacy.Blobs
