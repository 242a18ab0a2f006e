import PyScoped.Foundation.Interleaving
import PyScoped.Legacy.Rotation

/-! The vault of secrets of version 1. Every call is a row of autocommitted
statements, so the calls of several clients overlap statement by statement. -/

namespace PyScoped.Legacy.Vault
open Foundation
open Rotation (SecretClassification)

def classificationValue : SecretClassification → String
  | .standard => "standard"
  | .sensitive => "sensitive"
  | .critical => "critical"

def classifications : List SecretClassification := [.standard, .sensitive, .critical]

def coerceClassification (value : String) : Except Raised SecretClassification :=
  match classifications.find? fun item => classificationValue item = value with
  | some item => .ok item
  | none => .error (.other ("classification must be one of: " ++ ", ".intercalate (classifications.map classificationValue)))

inductive AccessResult where
  | success | denied | expired
  deriving DecidableEq, Repr

structure Secret where
  id : String
  name : String
  description : String
  ownerId : String
  objectId : String
  currentVersion : Nat
  classification : SecretClassification
  createdAt : Moment
  expiresAt : Option Aware
  lastRotatedAt : Option Moment
  lifecycle : Lifecycle

structure SecretVersion where
  id : String
  secretId : String
  version : Nat
  encryptedValue : String
  encryptionAlgo : String
  keyId : String
  createdAt : Moment
  createdBy : String
  reason : String

/-- A row of `secret_refs`. What is stored as revoked is archived. -/
structure SecretRef where
  id : String
  secretId : String
  refToken : String
  grantedTo : String
  scopeId : Option String
  environmentId : Option String
  grantedAt : Moment
  grantedBy : String
  expiresAt : Option Aware
  lifecycle : Lifecycle

structure SecretPolicy where
  id : String
  secretId : Option String
  classification : Option SecretClassification
  maxAgeSeconds : Option Int
  autoRotate : Bool
  allowedScopes : List String
  allowedEnvs : List String
  createdAt : Moment
  createdBy : String

structure SecretAccessEntry where
  id : String
  secretId : String
  refId : Option String
  accessorId : String
  accessType : String
  accessedAt : Moment
  environmentId : Option String
  scopeId : Option String
  result : AccessResult

section Snapshots

def expiryText (expiresAt : Option Aware) : Json := expiresAt.elim .null fun moment => .str moment.isoformat

def Secret.snapshot (secret : Secret) : Json := .obj [
  ("id", .str secret.id), ("name", .str secret.name), ("owner_id", .str secret.ownerId), ("object_id", .str secret.objectId),
  ("current_version", .int secret.currentVersion), ("classification", .str (classificationValue secret.classification)),
  ("description", .str secret.description), ("expires_at", expiryText secret.expiresAt),
  ("last_rotated_at", expiryText (secret.lastRotatedAt.map Moment.toAware)), ("lifecycle", .str secret.lifecycle.name),
  ("created_at", .str secret.createdAt.isoformat)]

def SecretVersion.snapshot (version : SecretVersion) : Json := .obj [
  ("id", .str version.id), ("secret_id", .str version.secretId), ("version", .int version.version),
  ("encryption_algo", .str version.encryptionAlgo), ("key_id", .str version.keyId),
  ("created_at", .str version.createdAt.isoformat), ("created_by", .str version.createdBy), ("reason", .str version.reason)]

def SecretRef.snapshot (ref : SecretRef) : Json := .obj [
  ("id", .str ref.id), ("secret_id", .str ref.secretId), ("ref_token", .str ref.refToken), ("granted_to", .str ref.grantedTo),
  ("scope_id", optionalText ref.scopeId), ("environment_id", optionalText ref.environmentId),
  ("granted_at", .str ref.grantedAt.isoformat), ("granted_by", .str ref.grantedBy), ("expires_at", expiryText ref.expiresAt),
  ("lifecycle", .str ref.lifecycle.name)]

end Snapshots

/-- Who asks for a value, and from where. -/
structure Access where
  accessorId : String
  scopeId : Option String
  environmentId : Option String
  deriving DecidableEq

/-- What clients ask for. Time passes as one of them makes it pass. -/
inductive Call where
  | createSecret (name plaintextValue ownerId description classification : String) (expiresAt : Option Aware)
      (keyId : Option String)
  | archiveSecret (secretId actorId : String)
  | rotate (secretId newValue rotatedBy reason : String) (keyId : Option String)
  | grantRef (secretId grantedTo grantedBy : String) (scopeId environmentId : Option String) (expiresAt : Option Aware)
  | revokeRef (refId revokedBy : String)
  | resolve (refToken : String) (access : Access)
  | createPolicy (createdBy : String) (secretId classification : Option String) (maxAgeSeconds : Option Int) (autoRotate : Bool)
      (allowedScopes allowedEnvs : Option (List String))
  | pass (now : Moment)

inductive Outcome where
  | created (secret : Secret) (version : SecretVersion)
  | rotated (version : SecretVersion)
  | granted (ref : SecretRef)
  | value (plaintext : String)
  | policy (policy : SecretPolicy)
  | done

/-- What is handed to the audit writer. -/
structure AuditCall where
  actorId : String
  action : ActionType
  targetType : String
  targetId : String
  beforeState : Option Json
  afterState : Option Json

inductive Request where
  | now
  | generateId
  | createObject (objectType ownerId : String) (data : Json)
  | encrypt (plaintext keyId : String)
  | decrypt (ciphertext keyId : String)
  | insertSecret (secret : Secret)
  /-- The plaintext is not stored. -/
  | insertVersion (version : SecretVersion) (plaintext : String)
  | secret (secretId : String)
  | archiveSecret (secretId : String)
  | setVersion (secretId : String) (version : Nat) (ts : Moment)
  | revokeRefsOf (secretId : String)
  | version (secretId : String) (version : Nat)
  | insertRef (ref : SecretRef)
  | revokeRef (refId : String)
  | refByToken (refToken : String)
  | classification (secretId : String)
  | policies (secretId : String) (classification : SecretClassification)
  | insertPolicy (policy : SecretPolicy)
  | insertAccess (entry : SecretAccessEntry)
  | record (call : AuditCall)
  | pass (now : Moment)
  /-- The caller gets what its call returned or raised. -/
  | deliver (call : Call) (result : Except Raised Outcome)

def Reply : Request → Type
  | .now => Moment
  | .generateId | .createObject _ _ _ | .encrypt _ _ | .decrypt _ _ => String
  | .secret _ => Option Secret
  | .version _ _ => Option SecretVersion
  | .refByToken _ => Option SecretRef
  | .classification _ => Option SecretClassification
  | .policies _ _ => List SecretPolicy
  | _ => Unit

abbrev Program (α : Type) := Prog Request Reply Raised α

/-- The encryption of the vault. What it encrypts under a key, it decrypts under that key. -/
structure SecretBackend where
  encrypt : (nonce : Nat) → (plaintext keyId : String) → Except Raised String
  decrypt : (ciphertext keyId : String) → Except Raised String
  decrypts : ∀ nonce plaintext keyId ciphertext, encrypt nonce plaintext keyId = .ok ciphertext →
    decrypt ciphertext keyId = .ok plaintext

/-- `InMemoryBackend`, with the keys that it holds. -/
def inMemoryEncrypt (keys : List String) (plaintext keyId : String) : Except Raised String :=
  if keyId ∈ keys then .ok ("ENC:" ++ keyId ++ ":" ++ plaintext) else .error (.other ("Unknown key_id: " ++ keyId))

def inMemoryDecrypt (keys : List String) (ciphertext keyId : String) : Except Raised String :=
  let mark := "ENC:" ++ keyId ++ ":"
  if keyId ∈ keys then
    if mark.toList.isPrefixOf ciphertext.toList then .ok (String.ofList (ciphertext.toList.drop mark.toList.length))
    else .error (.other "Invalid ciphertext for this key")
  else .error (.other ("Unknown key_id: " ++ keyId))

theorem inMemory_decrypts (keys : List String) (plaintext keyId ciphertext : String)
    (encrypted : inMemoryEncrypt keys plaintext keyId = .ok ciphertext) :
    inMemoryDecrypt keys ciphertext keyId = .ok plaintext := by
  unfold inMemoryEncrypt at encrypted
  unfold inMemoryDecrypt
  split at encrypted
  next known =>
    cases encrypted
    have text : ("ENC:" ++ keyId ++ ":" ++ plaintext).toList = ("ENC:" ++ keyId ++ ":").toList ++ plaintext.toList :=
      String.toList_append
    rw [if_pos known, text, if_pos, List.drop_left, String.ofList_toList]
    exact List.isPrefixOf_iff_prefix.mpr (List.prefix_append _ _)
  · cases encrypted

def inMemory (keys : List String) : SecretBackend where
  encrypt _ plaintext keyId := inMemoryEncrypt keys plaintext keyId
  decrypt ciphertext keyId := inMemoryDecrypt keys ciphertext keyId
  decrypts _ plaintext keyId ciphertext := inMemory_decrypts keys plaintext keyId ciphertext

/-- A version, and beside the row what it was encrypted from, and by whom. -/
structure Written (ι : Type) where
  row : SecretVersion
  plaintext : String
  writer : ι

structure Answer (ι : Type) where
  client : ι
  call : Call
  result : Except Raised Outcome

/-- The tables and the clock, and what the callers have got, the latest first. -/
structure Store (ι : Type) where
  secrets : Rows Secret.id
  versions : Rows fun written : Written ι => written.row.id
  refs : Rows SecretRef.id
  policies : Rows SecretPolicy.id
  accessLog : Rows SecretAccessEntry.id
  clock : Moment
  answers : List (Answer ι)

/-- What a statement leaves open. -/
structure Choice where
  failure : Option Raised
  id : String
  nonce : Nat

section Tables

variable {ι : Type}

def Store.version (store : Store ι) (secretId : String) (version : Nat) : Option (Written ι) :=
  store.versions.list.find? fun written => written.row.secretId = secretId && written.row.version = version

def Store.refByToken (store : Store ι) (refToken : String) : Option SecretRef :=
  store.refs.list.find? fun ref => ref.refToken = refToken

def SecretPolicy.targets (policy : SecretPolicy) (secretId : String) (classification : SecretClassification) : Bool :=
  policy.secretId = some secretId || policy.classification = some classification

def Store.policiesFor (store : Store ι) (secretId : String) (classification : SecretClassification) : List SecretPolicy :=
  (store.policies.list.filter fun policy => policy.targets secretId classification).insertionSort
    fun first second => first.createdAt.isoformat ≤ second.createdAt.isoformat

/-- `UNIQUE (secret_id, version)` stands beside the primary key. -/
def Store.insertVersion (store : Store ι) (written : Written ι) : Option (Store ι) :=
  if (store.version written.row.secretId written.row.version).isSome then none
  else (store.versions.insert written).map fun versions => { store with versions := versions }

/-- So does `UNIQUE (ref_token)`. -/
def Store.insertRef (store : Store ι) (ref : SecretRef) : Option (Store ι) :=
  if (store.refByToken ref.refToken).isSome then none
  else (store.refs.insert ref).map fun refs => { store with refs := refs }

def Store.updateSecret (store : Store ι) (secretId : String) (change : Secret → Secret) (keeps : ∀ row, (change row).id = row.id) :
    Store ι :=
  { store with secrets := store.secrets.update (fun row => row.id = secretId) change keeps }

def Secret.archive (secret : Secret) : Secret := { secret with lifecycle := .archived }

def Secret.setVersion (version : Nat) (ts : Moment) (secret : Secret) : Secret :=
  { secret with currentVersion := version, lastRotatedAt := some ts }

def SecretRef.revoke (ref : SecretRef) : SecretRef := { ref with lifecycle := .archived }

theorem Secret.archive_id (secret : Secret) : secret.archive.id = secret.id := rfl

theorem Secret.setVersion_id (version : Nat) (ts : Moment) (secret : Secret) : (secret.setVersion version ts).id = secret.id := rfl

theorem SecretRef.revoke_id (ref : SecretRef) : ref.revoke.id = ref.id := rfl

def Store.revoke (store : Store ι) (chosen : SecretRef → Bool) : Store ι :=
  { store with refs := store.refs.update chosen SecretRef.revoke SecretRef.revoke_id }

def Store.advance (store : Store ι) (now : Moment) : Store ι :=
  if store.clock.instant ≤ now.instant then { store with clock := now } else store

/-- A statement that inserts. -/
def inserted (table : String) (store : Store ι) : Option (Store ι) → Except Raised Unit × Store ι
  | some after => (.ok (), after)
  | none => (.error (.unique table), store)

/-- Any statement may fail, and so may the writing of the audit trail and the encryption. -/
def serve (backend : SecretBackend) : Service Request Reply Raised (Store ι) ι Choice := fun client choice store request =>
  match request, choice.failure with
  | .now, _ => some (.ok store.clock, store)
  | .generateId, _ => some (.ok choice.id, store)
  | .pass now, _ => some (.ok (), store.advance now)
  | .deliver call result, _ => some (.ok (), { store with answers := ⟨client, call, result⟩ :: store.answers })
  | _, some error => some (.error error, store)
  | .createObject _ _ _, none => some (.ok choice.id, store)
  | .encrypt plaintext keyId, none => some (backend.encrypt choice.nonce plaintext keyId, store)
  | .decrypt ciphertext keyId, none => some (backend.decrypt ciphertext keyId, store)
  | .insertSecret secret, none =>
    some (inserted "secrets" store ((store.secrets.insert secret).map fun secrets => { store with secrets := secrets }))
  | .insertVersion version plaintext, none =>
    some (inserted "secret_versions" store (store.insertVersion ⟨version, plaintext, client⟩))
  | .secret secretId, none => some (.ok (store.secrets.find secretId), store)
  | .archiveSecret secretId, none => some (.ok (), store.updateSecret secretId Secret.archive Secret.archive_id)
  | .setVersion secretId version ts, none =>
    some (.ok (), store.updateSecret secretId (Secret.setVersion version ts) (Secret.setVersion_id version ts))
  | .revokeRefsOf secretId, none => some (.ok (), store.revoke fun ref => ref.secretId = secretId)
  | .version secretId version, none => some (.ok ((store.version secretId version).map Written.row), store)
  | .insertRef ref, none => some (inserted "secret_refs" store (store.insertRef ref))
  | .revokeRef refId, none => some (.ok (), store.revoke fun ref => ref.id = refId)
  | .refByToken refToken, none => some (.ok (store.refByToken refToken), store)
  | .classification secretId, none => some (.ok ((store.secrets.find secretId).map Secret.classification), store)
  | .policies secretId classification, none => some (.ok (store.policiesFor secretId classification), store)
  | .insertPolicy policy, none =>
    some (inserted "secret_policies" store ((store.policies.insert policy).map fun policies => { store with policies := policies }))
  | .insertAccess entry, none =>
    some (inserted "secret_access_log" store ((store.accessLog.insert entry).map fun log => { store with accessLog := log }))
  | .record _, none => some (.ok (), store)

end Tables

section Policies

def getPoliciesForSecret (secretId : String) : Program (List SecretPolicy) := do
  let row : Option SecretClassification ← Prog.perform (Request.classification secretId)
  match row with
  | none => return []
  | some classification => Prog.perform (Request.policies secretId classification)

/-- A policy that restricts nothing allows everything. -/
def SecretPolicy.allows (field : SecretPolicy → List String) (wanted : String) (policy : SecretPolicy) : Bool :=
  (field policy).isEmpty || wanted ∈ field policy

def checkAllowed (field : SecretPolicy → List String) (secretId wanted : String) : Program Bool := do
  let policies ← getPoliciesForSecret secretId
  return policies.all (SecretPolicy.allows field wanted)

def checkScopeAllowed (secretId scopeId : String) : Program Bool := checkAllowed SecretPolicy.allowedScopes secretId scopeId

def checkEnvAllowed (secretId environmentId : String) : Program Bool :=
  checkAllowed SecretPolicy.allowedEnvs secretId environmentId

def validateIdList (values : Option (List String)) (fieldName : String) : Except Raised (List String) :=
  match values with
  | none => .ok []
  | some values =>
    if values.any (·.isEmpty) then .error (.other (fieldName ++ " entries must be non-empty strings")) else .ok values

/-- What `create_policy` checks of its arguments, and what it makes of them. -/
def policyRestrictions (secretId classification : Option String) (maxAgeSeconds : Option Int)
    (allowedScopes allowedEnvs : Option (List String)) :
    Except Raised (Option SecretClassification × List String × List String) := do
  if secretId = none ∧ classification = none then
    throw (.other "policy must target a secret_id or classification")
  if maxAgeSeconds.any (· < 0) then
    throw (.other "max_age_seconds must be >= 0")
  let normalized ← classification.mapM coerceClassification
  let scopes ← validateIdList allowedScopes "allowed_scopes"
  let envs ← validateIdList allowedEnvs "allowed_envs"
  return (normalized, scopes, envs)

def checkTarget : Option String → Program Unit
  | none => return ()
  | some secretId => do
    let row : Option Secret ← Prog.perform (Request.secret secretId)
    if row.isNone then throw (.other ("secret_id does not exist: " ++ secretId))
    else return ()

def createPolicy (createdBy : String) (secretId classification : Option String) (maxAgeSeconds : Option Int) (autoRotate : Bool)
    (allowedScopes allowedEnvs : Option (List String)) : Program SecretPolicy := do
  let restrictions ← (policyRestrictions secretId classification maxAgeSeconds allowedScopes allowedEnvs :
    Except Raised (Option SecretClassification × List String × List String))
  checkTarget secretId
  let ts : Moment ← Prog.perform Request.now
  let id : String ← Prog.perform Request.generateId
  let policy : SecretPolicy :=
    ⟨id, secretId, restrictions.1, maxAgeSeconds, autoRotate, restrictions.2.1, restrictions.2.2, ts, createdBy⟩
  let _ : Unit ← Prog.perform (Request.insertPolicy policy)
  return policy

end Policies

def getSecretOrRaise (secretId : String) : Program Secret := do
  let row : Option Secret ← Prog.perform (Request.secret secretId)
  match row with
  | none => throw (.scoped .secretNotFound ("Secret " ++ secretId ++ " not found") [("secret_id", .str secretId)])
  | some secret => return secret

def requireActiveSecret (secretId : String) (allowExpired : Bool) : Program Secret := do
  let secret ← getSecretOrRaise secretId
  if secret.lifecycle ≠ .active then
    throw (.scoped .secretAccessDenied "Secret is archived"
      [("secret_id", .str secretId), ("lifecycle", .str secret.lifecycle.name)])
  else if allowExpired then return secret
  else match secret.expiresAt with
    | none => return secret
    | some expiresAt =>
      let now : Moment ← Prog.perform Request.now
      if expiresAt.instant ≤ now.instant then
        throw (.scoped .secretAccessDenied "Secret has expired"
          [("secret_id", .str secretId), ("expires_at", .str expiresAt.isoformat)])
      else return secret

def logAccess (secretId : String) (refId : Option String) (access : Access) (accessType : String) (result : AccessResult) :
    Program Unit := do
  let ts : Moment ← Prog.perform Request.now
  let id : String ← Prog.perform Request.generateId
  Prog.perform (Request.insertAccess
    ⟨id, secretId, refId, access.accessorId, accessType, ts, access.environmentId, access.scopeId, result⟩)

/-- Why the ref itself refuses an access, if it does. -/
def SecretRef.refusal (ref : SecretRef) (now : Moment) (access : Access) : Option (AccessResult × Raised) :=
  if ref.expiresAt.any fun expiresAt => expiresAt.instant ≤ now.instant then
    some (.expired, .scoped .secretRefExpired "Ref has expired"
      [("ref_id", .str ref.id), ("expires_at", expiryText ref.expiresAt)])
  else if ref.grantedTo ≠ access.accessorId then
    some (.denied, .scoped .secretAccessDenied "Accessor does not match ref grant"
      [("ref_id", .str ref.id), ("accessor_id", .str access.accessorId)])
  else if ref.scopeId ≠ none ∧ access.scopeId ≠ ref.scopeId then
    some (.denied, .scoped .secretAccessDenied "Ref is restricted to a different scope"
      [("ref_id", .str ref.id), ("required_scope", optionalText ref.scopeId)])
  else if ref.environmentId ≠ none ∧ access.environmentId ≠ ref.environmentId then
    some (.denied, .scoped .secretAccessDenied "Ref is restricted to a different environment"
      [("ref_id", .str ref.id), ("required_env", optionalText ref.environmentId)])
  else none

end Vault

/-- How a vault is set up. -/
structure SecretVault where
  algorithm : String
  defaultKeyId : String
  objectManager : Bool
  policyManager : Bool
  audited : Bool

namespace SecretVault
open Foundation Vault
open Rotation (SecretClassification)

variable (vault : SecretVault)

def record (call : AuditCall) : Program Unit := do
  if vault.audited then
    let _ : Unit ← Prog.perform (Request.record call)

/-- `key_id or self._default_key_id` -/
def keyOr (keyId : Option String) : String := (keyId.filter (· ≠ "")).getD vault.defaultKeyId

def createSecret (name plaintextValue ownerId description classification : String) (expiresAt : Option Aware)
    (keyId : Option String) : Program (Secret × SecretVersion) := do
  if !vault.objectManager then
    throw (.other ("SecretVault requires object_manager for create_secret() so "
      ++ "secrets.object_id can reference a real scoped object"))
  else
    let ts : Moment ← Prog.perform Request.now
    let sid : String ← Prog.perform Request.generateId
    let secretClassification ← (coerceClassification classification : Except Raised SecretClassification)
    let objectId : String ← Prog.perform
      (Request.createObject "secret" ownerId (.obj [("name", .str name), ("classification", .str classification)]))
    let encrypted : String ← Prog.perform (Request.encrypt plaintextValue (vault.keyOr keyId))
    let secret : Secret := ⟨sid, name, description, ownerId, objectId, 1, secretClassification, ts, expiresAt, none, .active⟩
    let _ : Unit ← Prog.perform (Request.insertSecret secret)
    let vid : String ← Prog.perform Request.generateId
    let version : SecretVersion := ⟨vid, sid, 1, encrypted, vault.algorithm, vault.keyOr keyId, ts, ownerId, "initial"⟩
    let _ : Unit ← Prog.perform (Request.insertVersion version plaintextValue)
    vault.record ⟨ownerId, .secretCreate, "secret", sid, none, some secret.snapshot⟩
    return (secret, version)

def archiveSecret (secretId actorId : String) : Program Unit := do
  let secret ← getSecretOrRaise secretId
  let _ : Unit ← Prog.perform (Request.archiveSecret secretId)
  let _ : Unit ← Prog.perform (Request.revokeRefsOf secretId)
  vault.record ⟨actorId, .secretRevoke, "secret", secretId, some secret.snapshot, none⟩

def rotate (secretId newValue rotatedBy reason : String) (keyId : Option String) : Program SecretVersion := do
  let secret ← requireActiveSecret secretId false
  let ts : Moment ← Prog.perform Request.now
  let encrypted : String ← Prog.perform (Request.encrypt newValue (vault.keyOr keyId))
  let vid : String ← Prog.perform Request.generateId
  let version : SecretVersion :=
    ⟨vid, secretId, secret.currentVersion + 1, encrypted, vault.algorithm, vault.keyOr keyId, ts, rotatedBy, reason⟩
  let _ : Unit ← Prog.perform (Request.insertVersion version newValue)
  let _ : Unit ← Prog.perform (Request.setVersion secretId version.version ts)
  vault.record ⟨rotatedBy, .secretRotate, "secret", secretId, none, some version.snapshot⟩
  return version

/-- One kind of restriction, where a ref is granted. -/
def enforceOnGrant (field : SecretPolicy → List String) (unspecified refused key : String) (secretId : String)
    (policies : List SecretPolicy) (given : Option String) : Program Unit := do
  if policies.any fun policy => !(field policy).isEmpty then
    match given with
    | none => throw (.scoped .secretAccessDenied unspecified [("secret_id", .str secretId)])
    | some wanted =>
      let allowed ← checkAllowed field secretId wanted
      if allowed then return ()
      else throw (.scoped .secretAccessDenied refused [("secret_id", .str secretId), (key, .str wanted)])

def enforcePolicyRestrictionsOnGrant (secretId : String) (scopeId environmentId : Option String) : Program Unit := do
  if vault.policyManager then
    let policies ← getPoliciesForSecret secretId
    if !policies.isEmpty then
      enforceOnGrant SecretPolicy.allowedScopes "Policy-restricted secret refs must specify scope_id"
        "Secret policy denies the requested scope" "scope_id" secretId policies scopeId
      enforceOnGrant SecretPolicy.allowedEnvs "Policy-restricted secret refs must specify environment_id"
        "Secret policy denies the requested environment" "environment_id" secretId policies environmentId

def grantRef (secretId grantedTo grantedBy : String) (scopeId environmentId : Option String) (expiresAt : Option Aware) :
    Program SecretRef := do
  let _ ← requireActiveSecret secretId false
  vault.enforcePolicyRestrictionsOnGrant secretId scopeId environmentId
  let ts : Moment ← Prog.perform Request.now
  let rid : String ← Prog.perform Request.generateId
  let refToken : String ← Prog.perform Request.generateId
  let ref : SecretRef := ⟨rid, secretId, refToken, grantedTo, scopeId, environmentId, ts, grantedBy, expiresAt, .active⟩
  let _ : Unit ← Prog.perform (Request.insertRef ref)
  vault.record ⟨grantedBy, .secretRefGrant, "secret_ref", rid, none, some ref.snapshot⟩
  return ref

def revokeRef (refId revokedBy : String) : Program Unit := do
  let _ : Unit ← Prog.perform (Request.revokeRef refId)
  vault.record ⟨revokedBy, .secretRevoke, "secret_ref", refId, none, none⟩

/-- One kind of restriction, where a ref is resolved. -/
def enforceOnResolve (field : SecretPolicy → List String) (refused key : String) (secretId : String)
    (policies : List SecretPolicy) (given : Option String) : Program Unit := do
  if policies.any fun policy => !(field policy).isEmpty then
    let refusal : Raised := .scoped .secretAccessDenied refused [("secret_id", .str secretId), (key, optionalText given)]
    match given with
    | none => throw refusal
    | some wanted =>
      let allowed ← checkAllowed field secretId wanted
      if allowed then return () else throw refusal

def enforcePolicyRestrictionsOnResolve (secretId : String) (access : Access) : Program Unit := do
  if vault.policyManager then
    let policies ← getPoliciesForSecret secretId
    if !policies.isEmpty then
      enforceOnResolve SecretPolicy.allowedScopes "Secret policy denies access from this scope" "scope_id" secretId policies
        access.scopeId
      enforceOnResolve SecretPolicy.allowedEnvs "Secret policy denies access from this environment" "environment_id" secretId
        policies access.environmentId

/-- What `resolve` does once the ref itself admits the access. -/
def reveal (ref : SecretRef) (access : Access) : Program String := do
  let secret ← requireActiveSecret ref.secretId false
  vault.enforcePolicyRestrictionsOnResolve ref.secretId access
  let row : Option SecretVersion ← Prog.perform (Request.version ref.secretId secret.currentVersion)
  match row with
  | none =>
    throw (.scoped .secretNotFound
      ("Version " ++ toString secret.currentVersion ++ " not found for secret " ++ ref.secretId) [])
  | some version =>
    let plaintext : String ← Prog.perform (Request.decrypt version.encryptedValue version.keyId)
    logAccess ref.secretId (some ref.id) access "resolve" .success
    vault.record ⟨access.accessorId, .secretRefResolve, "secret", ref.secretId, none, none⟩
    return plaintext

def deny (ref : SecretRef) (access : Access) (result : AccessResult) (error : Raised) : Program String := do
  logAccess ref.secretId (some ref.id) access "resolve" result
  throw error

def resolve (refToken : String) (access : Access) : Program String := do
  let row : Option SecretRef ← Prog.perform (Request.refByToken refToken)
  match row with
  | none => throw (.scoped .secretAccessDenied "Invalid ref token" [("accessor_id", .str access.accessorId)])
  | some ref =>
    if ref.lifecycle ≠ .active then
      deny ref access .denied (.scoped .secretAccessDenied "Ref has been revoked"
        [("ref_id", .str ref.id), ("accessor_id", .str access.accessorId)])
    else
      let now : Moment ← Prog.perform Request.now
      match ref.refusal now access with
      | some (result, error) => deny ref access result error
      | none => vault.reveal ref access

def program : Vault.Call → Program Outcome
  | .createSecret name plaintextValue ownerId description classification expiresAt keyId => do
    let created ← vault.createSecret name plaintextValue ownerId description classification expiresAt keyId
    return .created created.1 created.2
  | .archiveSecret secretId actorId => do
    vault.archiveSecret secretId actorId
    return .done
  | .rotate secretId newValue rotatedBy reason keyId =>
    Outcome.rotated <$> vault.rotate secretId newValue rotatedBy reason keyId
  | .grantRef secretId grantedTo grantedBy scopeId environmentId expiresAt =>
    Outcome.granted <$> vault.grantRef secretId grantedTo grantedBy scopeId environmentId expiresAt
  | .revokeRef refId revokedBy => do
    vault.revokeRef refId revokedBy
    return .done
  | .resolve refToken access => Outcome.value <$> vault.resolve refToken access
  | .createPolicy createdBy secretId classification maxAgeSeconds autoRotate allowedScopes allowedEnvs =>
    Outcome.policy <$> createPolicy createdBy secretId classification maxAgeSeconds autoRotate allowedScopes allowedEnvs
  | .pass now => do
    let _ : Unit ← Prog.perform (Request.pass now)
    return .done

/-- A call whose caller gets what it returns or raises. -/
def call (call : Vault.Call) : Program (Except Raised Outcome) := do
  let result ← (vault.program call).attempt
  let _ : Unit ← Prog.perform (Request.deliver call result)
  return result

/-- A client makes calls, each chosen after it has got the answer of the last. -/
inductive Client : Program Unit → Prop where
  | done : Client (.pure ())
  | call (call : Vault.Call) (next : Except Raised Outcome → Program Unit) (each : ∀ result, Client (next result)) :
      Client ((vault.call call).bind next)

end SecretVault
end PyScoped.Legacy
