import PyScoped.Legacy.Blobs

/-! When the versions of blobs keep their bytes. An update stores its bytes under
the number after the one that it has read, then writes the blob, then adds the
version: all is well as long as the blob is still as it was read, the bytes are
still there, and no call is cut off before it adds its version. -/

namespace PyScoped.Legacy.Blobs
open Foundation

/-- The key of the m-th version. -/
def keyOf (blobId : ScopedId) (m : Nat) : BlobKey := if m = 1 then .original blobId else .version blobId m

private def suffix (m : Nat) : List Char := if m = 1 then [] else '_' :: 'v' :: (toString m).toList

private theorem keyOf_text (blobId : ScopedId) (m : Nat) :
    (keyOf blobId m).text.toList = blobId.text.toList ++ suffix m := by
  unfold keyOf suffix
  split <;> simp [BlobKey.text]

variable {m : Nat}

private theorem suffix_inj {n : Nat} (same : suffix m = suffix n) : m = n := by
  unfold suffix at same
  split at same <;> split at same
  · omega
  · cases same
  · cases same
  · simp only [List.cons.injEq, true_and, String.toList_inj] at same
    exact Nat.repr_injective same

theorem keyOf_inj {first second : ScopedId} {n : Nat} (same : (keyOf first m).text = (keyOf second n).text) :
    first = second ∧ m = n := by
  have texts := congrArg String.toList same
  rw [keyOf_text, keyOf_text] at texts
  have length : first.text.toList.length = second.text.toList.length := by
    rw [String.length_toList, String.length_toList, first.length, second.length]
  obtain ⟨ids, suffixes⟩ := List.append_inj texts length
  exact ⟨ScopedId.ext (String.toList_inj.mp ids), suffix_inj suffixes⟩

theorem path_inj (backend : BlobBackend) {first second : String} (long : 4 ≤ first.toList.length)
    (long' : 4 ≤ second.toList.length) (same : backend.path first = backend.path second) : first = second := by
  apply String.toList_inj.mp
  cases backend with
  | inMemory =>
    have texts := congrArg String.toList same
    simpa [BlobBackend.path] using texts
  | «local» =>
    have texts := String.ofList_injective same
    refine (List.cons.inj (List.append_inj texts ?_).2).2
    simp only [List.length_append, List.length_cons, List.length_take, List.length_drop]
    omega

theorem path_keyOf_inj (backend : BlobBackend) {first second : ScopedId} {n : Nat}
    (same : backend.path (keyOf first m).text = backend.path (keyOf second n).text) : first = second ∧ m = n := by
  have long : ∀ (blobId : ScopedId) k, 4 ≤ (keyOf blobId k).text.toList.length := by
    intro blobId k
    rw [keyOf_text, List.length_append, String.length_toList, blobId.length]
    omega
  exact keyOf_inj (path_inj backend (long first m) (long second n) same)

variable {ι : Type}

/-- The bytes at a path are those that a row tells of. -/
def Describes (manager : BlobManager) (files : String → Option Bytes) (content : Content) : Prop :=
  ∃ data, files content.storagePath = some data ∧ manager.computeContentHash data = content.contentHash ∧
    data.length = content.sizeBytes

/-- The versions have their bytes and are numbered without a gap up to the current
one of their blob, whose row tells what that version tells. -/
structure Consistent (manager : BlobManager) (store : Store ι) : Prop where
  bytes : ∀ version ∈ store.versions.list, Describes manager store.files version.content
  numbered : ∀ ref ∈ store.blobs.list, ∀ m,
    (∃ version ∈ store.versions.list, version.blobId = ref.key ∧ version.version = m) ↔ 1 ≤ m ∧ m ≤ ref.currentVersion
  head : ∀ ref ∈ store.blobs.list, ∃ version ∈ store.versions.list,
    version.blobId = ref.key ∧ version.version = ref.currentVersion ∧ version.content = ref.content

/-- Every read has returned what it had to. -/
def Store.Faithful (store : Store ι) : Prop :=
  ∀ reading ∈ store.readings, ∀ data, reading.expected = some data → reading.got = some data

/-- The path that bytes are stored to is not in use, and a blob is written as long
as it is the one that was read and its bytes are there; identifiers are new. -/
def Unspoilt (_ : ι) (store : Store ι) : Request → Prop
  | .put (.original blobId) _ => store.blobs.find blobId.text = none
  | .put (.version blobId n) _ => ∃ ref ∈ store.blobs.find blobId.text, ref.currentVersion + 1 = n
  | .insertBlob ref data => store.files ref.storagePath = some data
  | .updateBlob blobId currentVersion content data =>
    (∃ ref ∈ store.blobs.find blobId, ref.currentVersion + 1 = currentVersion) ∧ store.files content.storagePath = some data
  | .insertVersion version _ => ∀ other ∈ store.versions.list, other.id ≠ version.id
  | _ => True

/-- No statement that adds a version fails. -/
def steady (_ : ι) (choice : Choice) (_ : Store ι) : Request → Bool
  | .insertVersion _ _ => choice.failure.isNone
  | _ => true

/-- What a version tells of its bytes, or will tell. -/
def account (versions : VersionTable) (owed : String → Nat → Option (ι × Content)) (blobId : String) (m : Nat) :
    Option Content :=
  ((owed blobId m).map Prod.snd).or ((versions.find (blobId, m)).map BlobVersion.content)

/-- The versions that are there and those that are still to come. -/
structure Accounted (manager : BlobManager) (store : Store ι) : Prop where
  absent : ∀ blobId, store.blobs.find blobId = none → ∀ m, account store.versions store.owed blobId m = none
  numbered : ∀ blobId ref, store.blobs.find blobId = some ref →
    ∀ m, (account store.versions store.owed blobId m).isSome = true ↔ 1 ≤ m ∧ m ≤ ref.currentVersion
  head : ∀ blobId ref, store.blobs.find blobId = some ref →
    account store.versions store.owed blobId ref.currentVersion = some ref.content
  stored : ∀ blobId m content, account store.versions store.owed blobId m = some content →
    (∃ id : ScopedId, id.text = blobId ∧ content.storagePath = manager.backend.path (keyOf id m).text) ∧
      Describes manager store.files content
  exclusive : ∀ blobId m owed, store.owed blobId m = some owed → store.versions.find (blobId, m) = none

/-- What the last update of a blob leaves it as. -/
def Tells (ref : Option BlobRef) (files : String → Option Bytes) (update : Update ι) : Prop :=
  match update.progress with
  | .begun => update.found ≤ ref.elim 0 BlobRef.currentVersion
  | .written => ∃ found ∈ ref, found.currentVersion = update.found + 1
  | .returned data => ∃ found ∈ ref, found.currentVersion = update.found + 1 ∧ files found.storagePath = some data

structure Kept (manager : BlobManager) (store : Store ι) : Prop where
  accounted : Accounted manager store
  latest : ∀ blobId update, store.latest blobId = some update → Tells (store.blobs.find blobId) store.files update
  awaits : ∀ reader blobId data, store.awaited reader = some (blobId, data) → store.returned blobId = some (blobId, data)
  faithful : store.Faithful

/-- The client has read the version of a blob for an update. -/
structure Seen (client : ι) (blobId : String) (n : Nat) (store : Store ι) : Prop where
  present : ∃ ref ∈ store.blobs.find blobId, n ≤ ref.currentVersion
  latest : ∃ update ∈ store.latest blobId, n ≤ update.found ∧
    (update.client = client → update.found = n ∧ update.progress = .begun)

/-- The client has written these bytes for an update, and is to add the version. -/
structure Carries (client : ι) (blobId : String) (m : Nat) (content : Content) (data : Bytes) (store : Store ι) : Prop where
  owed : store.owed blobId m = some (client, content)
  file : store.files content.storagePath = some data
  latest : ∃ update ∈ store.latest blobId, update.client = client → update.found + 1 = m ∧ update.progress = .written

/-- The client has read the row of a blob to read its bytes. -/
structure Opened (client : ι) (blobId : String) (m : Nat) (content : Content) (store : Store ι) : Prop where
  accounted : account store.versions store.owed blobId m = some content
  awaited : ∀ blobId' data, store.awaited client = some (blobId', data) → store.files content.storagePath = some data

/-- What others leave of what a client knows. -/
structure Undisturbed (client : ι) (first second : Store ι) : Prop where
  seen : ∀ {blobId n}, Seen client blobId n first → Seen client blobId n second
  owed : ∀ blobId m content, second.owed blobId m = some (client, content) ↔ first.owed blobId m = some (client, content)
  carries : ∀ {blobId m content data}, Carries client blobId m content data first → Carries client blobId m content data second
  opened : ∀ {blobId m content}, Opened client blobId m content first → Opened client blobId m content second

theorem Undisturbed.refl (client : ι) (store : Store ι) : Undisturbed client store store := ⟨id, fun _ _ _ => Iff.rfl, id, id⟩

theorem Undisturbed.trans {client : ι} {first second third : Store ι} (one : Undisturbed client first second)
    (two : Undisturbed client second third) : Undisturbed client first third where
  seen known := two.seen (one.seen known)
  owed blobId m content := (two.owed blobId m content).trans (one.owed blobId m content)
  carries known := two.carries (one.carries known)
  opened known := two.opened (one.opened known)

def keeping (ι : Type) (manager : BlobManager) : Contract Request (Store ι) ι := ⟨Kept manager, Undisturbed, Unspoilt⟩

variable {manager : BlobManager} {store : Store ι}
variable {blobId : String}

theorem Store.returned_eq_some {awaited : String × Bytes} :
    store.returned blobId = some awaited ↔
      ∃ update, store.latest blobId = some update ∧ update.progress = .returned awaited.2 ∧ blobId = awaited.1 := by
  unfold Store.returned
  obtain ⟨another, data⟩ := awaited
  split
  · next client found bytes same => simp [same, eq_comm, and_comm]
  · next other =>
    constructor
    · intro none
      cases none
    · intro answered
      obtain ⟨⟨client, found, progress⟩, same, rfl, -⟩ := answered
      exact absurd same (other client found data)

theorem Store.owe_apply (blobId : String) (m : Nat) (owed : Option (ι × Content)) (blobId' : String) (m' : Nat) :
    store.owe blobId m owed blobId' m' = if blobId' = blobId ∧ m' = m then owed else store.owed blobId' m' := by
  unfold Store.owe
  by_cases same : blobId' = blobId
  · subst same
    by_cases same : m' = m
    · subst same
      simp
    · simp [same]
  · simp [same]

theorem find_write (blobs : BlobTable) (blobId : String) (currentVersion : Nat) (content : Content) (another : String) :
    (blobs.write blobId currentVersion content).find another = (blobs.find another).map fun ref =>
      if another = blobId then
        { ref with
          currentVersion := currentVersion, contentHash := content.contentHash, sizeBytes := content.sizeBytes
          storagePath := content.storagePath }
      else ref := by
  refine (Rows.find_update _ _ _ _ _).trans ?_
  cases found : blobs.find another with
  | none => rfl
  | some ref =>
    obtain ⟨-, rfl⟩ := Rows.find_eq_some.mp found
    simp

theorem find_archive (blobs : BlobTable) (blobId another : String) :
    (blobs.archive blobId).find another = (blobs.find another).map fun ref =>
      if another = blobId then { ref with lifecycle := .archived } else ref := by
  refine (Rows.find_update _ _ _ _ _).trans ?_
  cases found : blobs.find another with
  | none => rfl
  | some ref =>
    obtain ⟨-, rfl⟩ := Rows.find_eq_some.mp found
    simp

variable {ref : BlobRef}

namespace Accounted

variable (accounted : Accounted manager store)
include accounted

theorem positive (found : store.blobs.find blobId = some ref) : 1 ≤ ref.currentVersion := by
  have numbered := (accounted.numbered blobId ref found ref.currentVersion).mp
  rw [accounted.head blobId ref found] at numbered
  exact (numbered rfl).1

theorem next (found : store.blobs.find blobId = some ref) (later : ref.currentVersion < m) :
    account store.versions store.owed blobId m = none := by
  by_contra some
  have numbered := (accounted.numbered blobId ref found m).mp (Option.isSome_iff_ne_none.mpr some)
  omega

theorem fresh_version {blobId : ScopedId} (found : store.blobs.find blobId.text = some ref) :
    ∀ another m content, account store.versions store.owed another m = some content →
      content.storagePath ≠ manager.backend.path (BlobKey.version blobId (ref.currentVersion + 1)).text := by
  intro another m content told same
  have positive := accounted.positive found
  obtain ⟨⟨id, rfl, path⟩, -⟩ := accounted.stored another m content told
  have key : BlobKey.version blobId (ref.currentVersion + 1) = keyOf blobId (ref.currentVersion + 1) := by
    rw [keyOf, if_neg (by omega)]
  rw [path, key] at same
  obtain ⟨rfl, rfl⟩ := path_keyOf_inj manager.backend same
  rw [accounted.next found (Nat.lt_succ_self _)] at told
  cases told

theorem fresh_original {blobId : ScopedId} (absent : store.blobs.find blobId.text = none) :
    ∀ another m content, account store.versions store.owed another m = some content →
      content.storagePath ≠ manager.backend.path (BlobKey.original blobId).text := by
  intro another m content told same
  obtain ⟨⟨id, rfl, path⟩, -⟩ := accounted.stored another m content told
  have key : BlobKey.original blobId = keyOf blobId 1 := by
    rw [keyOf, if_pos rfl]
  rw [path, key] at same
  obtain ⟨rfl, rfl⟩ := path_keyOf_inj manager.backend same
  rw [accounted.absent _ absent] at told
  cases told

end Accounted

theorem Tells.map {ref : Option BlobRef} {files : String → Option Bytes} {update : Update ι} (tells : Tells ref files update)
    {change : BlobRef → BlobRef} (current : ∀ ref, (change ref).currentVersion = ref.currentVersion)
    (path : ∀ ref, (change ref).storagePath = ref.storagePath) : Tells (ref.map change) files update := by
  cases ref with
  | none => exact tells
  | some ref =>
    unfold Tells at tells ⊢
    split
    next begun =>
      simp only [begun] at tells
      exact tells.trans (current ref).ge
    next written =>
      simp only [written] at tells
      obtain ⟨_, present, number⟩ := tells
      cases present
      exact ⟨_, rfl, (current ref).trans number⟩
    next data returned =>
      simp only [returned] at tells
      obtain ⟨_, present, number, file⟩ := tells
      cases present
      exact ⟨_, rfl, (current ref).trans number, by rw [path]; exact file⟩

variable {data : Bytes} {content : Content}

theorem Carries.account {client : ι}
    (carries : Carries client blobId m content data store) : account store.versions store.owed blobId m = some content := by
  rw [Blobs.account, carries.owed]
  rfl

theorem Describes.put {files : String → Option Bytes} {path : String} (data : Bytes)
    (describes : Describes manager files content) (other : content.storagePath ≠ path) :
    Describes manager (Function.update files path (some data)) content := by
  obtain ⟨bytes, file, told⟩ := describes
  exact ⟨bytes, by rw [Function.update_of_ne other, file], told⟩

theorem Kept.put (kept : Kept manager store) {path : String} (data : Bytes)
    (fresh : ∀ blobId m content, account store.versions store.owed blobId m = some content → content.storagePath ≠ path) :
    Kept manager { store with files := Function.update store.files path (some data) } ∧
      ∀ other, Undisturbed other store { store with files := Function.update store.files path (some data) } := by
  constructor
  · refine ⟨⟨kept.accounted.absent, kept.accounted.numbered, kept.accounted.head, ?_, kept.accounted.exclusive⟩,
      ?_, kept.awaits, kept.faithful⟩
    · intro blobId m content told
      obtain ⟨path, describes⟩ := kept.accounted.stored blobId m content told
      exact ⟨path, describes.put data (fresh blobId m content told)⟩
    · intro blobId update same
      have tells := kept.latest blobId update same
      unfold Tells at tells ⊢
      split
      next begun => simpa only [begun] using tells
      next written => simpa only [written] using tells
      next bytes returned =>
        simp only [returned] at tells
        obtain ⟨ref, found, current, file⟩ := tells
        have unlike : ref.storagePath ≠ path := fresh blobId _ _ (kept.accounted.head blobId ref found)
        exact ⟨ref, found, current, (Function.update_of_ne unlike ..).trans file⟩
  · intro other
    refine ⟨fun seen => ⟨seen.present, seen.latest⟩, fun _ _ _ => Iff.rfl, fun carries => ⟨carries.owed, ?_, carries.latest⟩,
      fun opened => ⟨opened.accounted, fun blobId' data' awaited => ?_⟩⟩
    · exact (Function.update_of_ne (fresh _ _ _ carries.account) ..).trans carries.file
    · simpa only [Function.update_of_ne (fresh _ _ _ opened.accounted)] using opened.awaited blobId' data' awaited

theorem account_owe (versions : VersionTable) (blobId : String) (m : Nat) (owed : Option (ι × Content)) (blobId' : String)
    (m' : Nat) : account versions (store.owe blobId m owed) blobId' m' =
      if blobId' = blobId ∧ m' = m then (owed.map Prod.snd).or ((versions.find (blobId, m)).map BlobVersion.content)
      else account versions store.owed blobId' m' := by
  unfold account
  rw [Store.owe_apply]
  split
  · next same => rw [same.1, same.2]
  · rfl

theorem owed_none (none : account store.versions store.owed blobId m = none) :
    store.owed blobId m = Option.none ∧ store.versions.find (blobId, m) = Option.none := by
  rw [account, Option.or_eq_none_iff] at none
  simpa using none

theorem owe_foreign {client other : ι} (foreign : other ≠ client)
    (none : account store.versions store.owed blobId m = none) (content : Content) (blobId' : String) (m' : Nat)
    (content' : Content) : store.owe blobId m (some (client, content)) blobId' m' = some (other, content') ↔
      store.owed blobId' m' = some (other, content') := by
  rw [Store.owe_apply]
  split
  · next same =>
    rw [same.1, same.2, (owed_none none).1]
    simp [Ne.symm foreign]
  · rfl

theorem account_owe_told {blobId' : String} {m' : Nat} {owed : Option (ι × Content)}
    (none : account store.versions store.owed blobId m = none)
    (told : account store.versions store.owed blobId' m' = some content) :
    account store.versions (store.owe blobId m owed) blobId' m' = some content := by
  rw [account_owe, if_neg]
  · exact told
  · rintro ⟨rfl, rfl⟩
    rw [none] at told
    cases told

theorem Accounted.owing (accounted : Accounted manager store) (none : account store.versions store.owed blobId m = none)
    (path : ∃ id : ScopedId, id.text = blobId ∧ content.storagePath = manager.backend.path (keyOf id m).text)
    (described : Describes manager store.files content) (client : ι) :
    (∀ another n told, account store.versions (store.owe blobId m (some (client, content))) another n = some told →
      (∃ id : ScopedId, id.text = another ∧ told.storagePath = manager.backend.path (keyOf id n).text) ∧
        Describes manager store.files told) ∧
    ∀ another n owed, store.owe blobId m (some (client, content)) another n = some owed →
      store.versions.find (another, n) = Option.none := by
  constructor
  · intro another n told isTold
    rw [account_owe] at isTold
    split at isTold
    · next same =>
      cases isTold
      rw [same.1, same.2]
      exact ⟨path, described⟩
    · exact accounted.stored another n told isTold
  · intro another n owed owes
    rw [Store.owe_apply] at owes
    split at owes
    · next same =>
      rw [same.1, same.2]
      exact (owed_none none).2
    · exact accounted.exclusive another n owed owes

theorem Accounted.insert (accounted : Accounted manager store) {client : ι} {blobs : BlobTable}
    (inserted : store.blobs.insert ref = some blobs) (first : ref.currentVersion = 1)
    (path : ref.storagePath = manager.backend.path (BlobKey.original ref.id).text)
    (described : Describes manager store.files ref.content) :
    Accounted manager { store with blobs := blobs, owed := store.owe ref.key 1 (some (client, ref.content)) } := by
  have find := Rows.find_insert inserted
  have before := accounted.absent _ (Rows.insert_eq_some inserted).1
  obtain ⟨stored, exclusive⟩ := accounted.owing (before 1) ⟨ref.id, rfl, path⟩ described client
  refine ⟨?_, ?_, ?_, stored, exclusive⟩
  · intro blobId missing m
    rw [find] at missing
    split at missing
    · cases missing
    · next other =>
      rw [account_owe, if_neg fun same => other same.1]
      exact accounted.absent blobId missing m
  · intro blobId found present m
    rw [find] at present
    split at present
    · next same =>
      cases present
      rw [account_owe, same]
      by_cases one : m = 1
      · simp [one, first]
      · rw [if_neg fun same => one same.2, before m, first]
        simp
        omega
    · next other =>
      rw [account_owe, if_neg fun same => other same.1]
      exact accounted.numbered blobId found present m
  · intro blobId found present
    rw [find] at present
    split at present
    · next same =>
      cases present
      rw [account_owe, if_pos ⟨same, first⟩]
      rfl
    · next other =>
      rw [account_owe, if_neg fun same => other same.1]
      exact accounted.head blobId found present

/-- What the statement that adds a new blob leaves to its client. -/
theorem Kept.insertBlob (kept : Kept manager store) {client : ι} {blobs : BlobTable}
    (inserted : store.blobs.insert ref = some blobs) (first : ref.currentVersion = 1)
    (path : ref.storagePath = manager.backend.path (BlobKey.original ref.id).text) (file : store.files ref.storagePath = some data)
    (hash : manager.computeContentHash data = ref.contentHash) (size : data.length = ref.sizeBytes) :
    Kept manager { store with blobs := blobs, owed := store.owe ref.key 1 (some (client, ref.content)) } ∧
      ∀ other, other ≠ client → Undisturbed other store
        { store with blobs := blobs, owed := store.owe ref.key 1 (some (client, ref.content)) } := by
  have absent := (Rows.insert_eq_some inserted).1
  have find := Rows.find_insert inserted
  have before := kept.accounted.absent _ absent
  have unlike : ∀ {blobId found}, store.blobs.find blobId = some found → blobId ≠ ref.key := by
    rintro blobId found present rfl
    rw [absent] at present
    cases present
  refine ⟨⟨kept.accounted.insert inserted first path ⟨data, file, hash, size⟩, ?_, kept.awaits, kept.faithful⟩, ?_⟩
  · intro blobId update same
    have tells := kept.latest blobId update same
    unfold Tells at tells ⊢
    by_cases this : blobId = ref.key
    · subst this
      rw [absent] at tells
      split
      next begun =>
        simp only [begun, Option.elim_none] at tells
        rw [find, if_pos rfl, Option.elim_some]
        omega
      next written =>
        simp only [written] at tells
        obtain ⟨_, present, -⟩ := tells
        cases present
      next bytes returned =>
        simp only [returned] at tells
        obtain ⟨_, present, -⟩ := tells
        cases present
    · rw [find, if_neg this]
      exact tells
  · intro other foreign
    refine ⟨?_, ?_, ?_, ?_⟩
    · rintro blobId n ⟨⟨found, present, le⟩, latest⟩
      refine ⟨⟨found, ?_, le⟩, latest⟩
      rw [Option.mem_def, find, if_neg (unlike present)]
      exact present
    · exact owe_foreign foreign (before 1) ref.content
    · rintro blobId m content data ⟨owed, file, latest⟩
      exact ⟨(owe_foreign foreign (before 1) ref.content blobId m content).mpr owed, file, latest⟩
    · rintro blobId m content ⟨told, awaited⟩
      exact ⟨account_owe_told (before 1) told, awaited⟩

theorem Seen.begun {client : ι} (kept : Kept manager store)
    (seen : Seen client blobId ref.currentVersion store) (found : store.blobs.find blobId = some ref) :
    ∃ update, store.latest blobId = some update ∧ update.progress = .begun ∧ update.found = ref.currentVersion := by
  obtain ⟨update, same, le, -⟩ := seen.latest
  have tells := kept.latest blobId update same
  rw [found] at tells
  unfold Tells at tells
  split at tells
  next begun => exact ⟨update, same, begun, le_antisymm tells le⟩
  next written =>
    obtain ⟨_, present, current⟩ := tells
    cases present
    omega
  next returned =>
    obtain ⟨_, present, current, -⟩ := tells
    cases present
    omega

variable {version : BlobVersion}

theorem add_isSome (kept : Kept manager store) {owed : ι × Content}
    (owes : store.owed version.blobId version.version = some owed) (new : ∀ other ∈ store.versions.list, other.id ≠ version.id) :
    ∃ versions, store.versions.add version = some versions := by
  have missing := kept.accounted.exclusive _ _ _ owes
  unfold VersionTable.add
  rw [if_neg (by simpa using new)]
  apply Option.ne_none_iff_exists'.mp
  intro taken
  rw [Rows.insert_eq_none, BlobVersion.key, missing] at taken
  cases taken

theorem find_add {versions after : VersionTable} (added : versions.add version = some after)
    (key : String × Nat) : after.find key = if key = version.key then some version else versions.find key := by
  unfold VersionTable.add at added
  split at added
  · cases added
  · exact Rows.find_insert added key

theorem account_add {versions : VersionTable} {client : ι} (added : store.versions.add version = some versions)
    (owes : store.owed version.blobId version.version = some (client, version.content)) :
    account versions (store.owe version.blobId version.version none) = account store.versions store.owed := by
  funext blobId m
  rw [account_owe, find_add added]
  split
  · next same => rw [same.1, same.2, account, owes, BlobVersion.key, if_pos rfl, Option.map_none, Option.none_or, Option.map_some,
      Option.map_some, Option.some_or]
  · next other =>
    rw [account, account, find_add added, if_neg]
    rintro same
    exact other (Prod.mk.inj same)

/-- The lifecycle of a blob has nothing to do with its bytes. -/
theorem Kept.archive (kept : Kept manager store) (blobId : String) :
    Kept manager { store with blobs := store.blobs.archive blobId } ∧
    ∀ other, Undisturbed other store { store with blobs := store.blobs.archive blobId } := by
  have find := find_archive store.blobs blobId
  have same : ∀ {another after}, (store.blobs.archive blobId).find another = some after →
      ∃ before, store.blobs.find another = some before ∧ after.currentVersion = before.currentVersion ∧
        after.content = before.content := by
    intro another after present
    rw [find] at present
    obtain ⟨before, isBefore, rfl⟩ := Option.map_eq_some_iff.mp present
    exact ⟨before, isBefore, by split <;> rfl, by split <;> rfl⟩
  refine ⟨⟨⟨?_, ?_, ?_, kept.accounted.stored, kept.accounted.exclusive⟩, ?_, kept.awaits, kept.faithful⟩, ?_⟩
  · intro another missing
    rw [find, Option.map_eq_none_iff] at missing
    exact kept.accounted.absent another missing
  · intro another after present
    obtain ⟨before, isBefore, current, -⟩ := same present
    rw [current]
    exact kept.accounted.numbered another before isBefore
  · intro another after present
    obtain ⟨before, isBefore, current, content⟩ := same present
    rw [current, content]
    exact kept.accounted.head another before isBefore
  · intro another update isUpdate
    rw [find]
    apply (kept.latest another update isUpdate).map
    · intro ref
      split <;> rfl
    · intro ref
      split <;> rfl
  · intro other
    refine ⟨?_, fun _ _ _ => Iff.rfl, fun carries => ⟨carries.owed, carries.file, carries.latest⟩,
      fun opened => ⟨opened.accounted, opened.awaited⟩⟩
    rintro another n ⟨⟨ref, found, le⟩, latest⟩
    refine ⟨?_, latest⟩
    rw [find, Option.mem_def.mp found]
    exact ⟨_, rfl, by split <;> exact le⟩

/-- The client has added every version that it was to add. -/
def Clear (client : ι) (store : Store ι) : Prop := ∀ blobId m content, store.owed blobId m ≠ some (client, content)

theorem Clear.moved {client : ι} {first second : Store ι} (clear : Clear client first)
    (moved : Undisturbed client first second) : Clear client second := by
  intro blobId m content owes
  exact clear blobId m content ((moved.owed blobId m content).mp owes)

/-- The client has this version to add, and no other. -/
structure Owes (client : ι) (blobId : String) (m : Nat) (content : Content) (store : Store ι) : Prop where
  owed : store.owed blobId m = some (client, content)
  only : ∀ another n content', store.owed another n = some (client, content') → another = blobId ∧ n = m

theorem Owes.moved {client : ι} {first second : Store ι}
    (owes : Owes client blobId m content first) (moved : Undisturbed client first second) : Owes client blobId m content second where
  owed := (moved.owed blobId m content).mpr owes.owed
  only another n content' owed := owes.only another n content' ((moved.owed another n content').mp owed)

theorem Clear.owe {client : ι} (clear : Clear client store) (blobId : String) (m : Nat) (content : Content) {after : Store ι}
    (same : after.owed = store.owe blobId m (some (client, content))) : Owes client blobId m content after where
  owed := by rw [same, Store.owe_apply, if_pos ⟨rfl, rfl⟩]
  only another n content' owed := by
    rw [same, Store.owe_apply] at owed
    split at owed
    · assumption
    · exact absurd owed (clear another n content')

theorem Owes.settle {client : ι} (owes : Owes client blobId m content store)
    {after : Store ι} (same : after.owed = store.owe blobId m none) : Clear client after := by
  intro another n content' owed
  rw [same, Store.owe_apply] at owed
  split at owed
  · cases owed
  · next other => exact other (owes.only another n content' owed)

/-- Where nothing is owed, what is told is in the table. -/
theorem Kept.consistent (kept : Kept manager store) (settled : ∀ blobId m, store.owed blobId m = none) :
    Consistent manager store := by
  have told : ∀ blobId m, account store.versions store.owed blobId m =
      (store.versions.find (blobId, m)).map BlobVersion.content := by
    intro blobId m
    rw [account, settled, Option.map_none, Option.none_or]
  refine ⟨?_, ?_, ?_⟩
  · intro version member
    apply (kept.accounted.stored version.blobId version.version version.content ?_).2
    have found : store.versions.find (version.blobId, version.version) = some version := Rows.find_mem member
    rw [told, found]
    rfl
  · intro ref member m
    rw [← kept.accounted.numbered ref.key ref (Rows.find_mem member) m, told, Option.isSome_map, Option.isSome_iff_exists]
    constructor
    · rintro ⟨version, present, blobId, number⟩
      exact ⟨version, Rows.find_eq_some.mpr ⟨present, Prod.ext blobId number⟩⟩
    · rintro ⟨version, found⟩
      obtain ⟨present, same⟩ := Rows.find_eq_some.mp found
      exact ⟨version, present, Prod.mk.inj same⟩
  · intro ref member
    have head := kept.accounted.head ref.key ref (Rows.find_mem member)
    rw [told] at head
    obtain ⟨version, found, content⟩ := Option.map_eq_some_iff.mp head
    obtain ⟨present, same⟩ := Rows.find_eq_some.mp found
    obtain ⟨blobId, number⟩ := Prod.mk.inj same
    exact ⟨version, present, blobId, number, content⟩

theorem Kept.empty : Kept manager (Store.empty : Store ι) := by
  have none : ∀ blobId m, account (Store.empty : Store ι).versions (Store.empty : Store ι).owed blobId m = none :=
    fun _ _ => rfl
  refine ⟨⟨fun blobId _ m => none blobId m, ?_, ?_, ?_, ?_⟩, ?_, ?_, ?_⟩
  · intro blobId ref found
    cases found
  · intro blobId ref found
    cases found
  · intro blobId m content told
    rw [none] at told
    cases told
  · intro blobId m owed owes
    cases owes
  · intro blobId update isUpdate
    cases isUpdate
  · intro reader blobId data isAwaited
    cases isAwaited
  · intro reading member
    cases member

variable [DecidableEq ι]

theorem Store.proceed_apply (client : ι) (blobId : String) (progress : Progress) (another : String) :
    store.proceed client blobId progress another = if another = blobId then (store.latest blobId).map fun update =>
      if update.client = client then { update with progress := progress } else update else store.latest another := by
  unfold Store.proceed
  by_cases same : another = blobId
  · subst same
    rw [Function.update_self, if_pos rfl]
  · rw [Function.update_of_ne same, if_neg same]

theorem proceed_foreign {client other : ι} (foreign : other ≠ client) {another : String} {progress : Progress}
    {property : Update ι → Prop} (known : ∃ update ∈ store.latest another, property update)
    (indifferent : ∀ update : Update ι, update.client ≠ other → property update →
      property { update with progress := progress }) :
    ∃ update ∈ store.proceed client blobId progress another, property update := by
  obtain ⟨update, same, held⟩ := known
  rw [Store.proceed_apply]
  split
  · next this =>
    subst this
    by_cases mine : update.client = client
    · refine ⟨{ update with progress := progress }, ?_, indifferent update (mine ▸ Ne.symm foreign) held⟩
      rw [Option.mem_def.mp same, Option.map_some, if_pos mine]
      rfl
    · refine ⟨update, ?_, held⟩
      rw [Option.mem_def.mp same, Option.map_some, if_neg mine]
      rfl
  · exact ⟨update, same, held⟩

section Write

variable {client : ι}

/-- The store behind the statement that writes a version of a blob. -/
def Store.written (store : Store ι) (client : ι) (blobId : String) (version : Nat) (content : Content) : Store ι :=
  { store with
    blobs := store.blobs.write blobId version content
    owed := store.owe blobId version (some (client, content))
    latest := store.proceed client blobId .written }

theorem Accounted.write (accounted : Accounted manager store) (found : store.blobs.find blobId = some ref)
    (path : content.storagePath = manager.backend.path (BlobKey.version ref.id (ref.currentVersion + 1)).text)
    (described : Describes manager store.files content) :
    Accounted manager (store.written client blobId (ref.currentVersion + 1) content) := by
  have none := accounted.next found (Nat.lt_succ_self _)
  have positive := accounted.positive found
  obtain ⟨-, rfl⟩ := Rows.find_eq_some.mp found
  have find := find_write store.blobs ref.key (ref.currentVersion + 1) content
  have versioned : keyOf ref.id (ref.currentVersion + 1) = .version ref.id (ref.currentVersion + 1) := if_neg (by omega)
  obtain ⟨stored, exclusive⟩ := accounted.owing none ⟨ref.id, rfl, versioned.symm ▸ path⟩ described client
  unfold Store.written
  refine ⟨?_, ?_, ?_, stored, exclusive⟩
  · intro another missing m
    rw [find, Option.map_eq_none_iff] at missing
    rw [account_owe, if_neg]
    · exact accounted.absent another missing m
    · rintro ⟨rfl, rfl⟩
      rw [found] at missing
      cases missing
  · intro another ref' present m
    rw [find] at present
    obtain ⟨before, isBefore, rfl⟩ := Option.map_eq_some_iff.mp present
    rw [account_owe]
    have numbered := accounted.numbered another before isBefore m
    by_cases this : another = ref.key
    · subst this
      cases found.symm.trans isBefore
      rw [if_pos rfl]
      by_cases last : m = ref.currentVersion + 1
      · simp [last]
      · rw [if_neg fun same => last same.2, numbered]
        simp only
        omega
    · rw [if_neg fun same => this same.1, if_neg this]
      exact numbered
  · intro another ref' present
    rw [find] at present
    obtain ⟨before, isBefore, rfl⟩ := Option.map_eq_some_iff.mp present
    by_cases this : another = ref.key
    · rw [if_pos this, account_owe, if_pos ⟨this, rfl⟩]
      rfl
    · rw [if_neg this, account_owe, if_neg fun same => this same.1]
      exact accounted.head another before isBefore

theorem Store.written_undisturbed (found : store.blobs.find blobId = some ref)
    (none : account store.versions store.owed blobId (ref.currentVersion + 1) = none) (other : ι) (foreign : other ≠ client) :
    Undisturbed other store (store.written client blobId (ref.currentVersion + 1) content) := by
  refine ⟨?_, owe_foreign foreign none content, ?_, ?_⟩
  · rintro another n ⟨⟨before, present, le⟩, known⟩
    refine ⟨?_, proceed_foreign foreign known fun update foreign' held => ⟨held.1, fun own => absurd own foreign'⟩⟩
    change ∃ ref' ∈ (store.blobs.write blobId (ref.currentVersion + 1) content).find another, _
    rw [find_write, Option.mem_def.mp present]
    refine ⟨_, rfl, ?_⟩
    split
    · next this =>
      subst this
      cases found.symm.trans present
      exact Nat.le_succ_of_le le
    · exact le
  · rintro another m told data' ⟨owed, file', known⟩
    exact ⟨(owe_foreign foreign none content another m told).mpr owed, file',
      proceed_foreign foreign known fun update foreign' _ own => absurd own foreign'⟩
  · rintro another m told ⟨isTold, awaited⟩
    exact ⟨account_owe_told none isTold, awaited⟩

/-- What the statement that writes a blob leaves to its client. -/
theorem Kept.write (kept : Kept manager store) (found : store.blobs.find blobId = some ref)
    (seen : Seen client blobId ref.currentVersion store)
    (path : content.storagePath = manager.backend.path (BlobKey.version ref.id (ref.currentVersion + 1)).text)
    (file : store.files content.storagePath = some data) (hash : manager.computeContentHash data = content.contentHash)
    (size : data.length = content.sizeBytes) :
    Kept manager (store.written client blobId (ref.currentVersion + 1) content) ∧
    (∀ other, other ≠ client → Undisturbed other store (store.written client blobId (ref.currentVersion + 1) content)) ∧
    Carries client blobId (ref.currentVersion + 1) content data
      (store.written client blobId (ref.currentVersion + 1) content) := by
  obtain ⟨update, latest, begun, same⟩ := seen.begun kept found
  have none := kept.accounted.next found (Nat.lt_succ_self _)
  refine ⟨⟨kept.accounted.write found path ⟨data, file, hash, size⟩, ?_, ?_, kept.faithful⟩,
    Store.written_undisturbed found none, ?_⟩
  · intro another update' isUpdate
    change store.proceed client blobId .written another = some update' at isUpdate
    change Tells ((store.blobs.write blobId (ref.currentVersion + 1) content).find another) store.files update'
    rw [Store.proceed_apply] at isUpdate
    rw [find_write]
    by_cases this : another = blobId
    · subst this
      rw [if_pos rfl, latest, Option.map_some] at isUpdate
      rw [found, Option.map_some, if_pos rfl]
      cases isUpdate
      unfold Tells
      by_cases mine : update.client = client
      · simp only [if_pos mine]
        exact ⟨_, rfl, by rw [same]⟩
      · simp only [if_neg mine, begun, Option.elim_some]
        omega
    · rw [if_neg this] at isUpdate
      have tells := kept.latest another update' isUpdate
      simpa only [if_neg this, Option.map_id'] using tells
  · intro reader another awaited isAwaited
    have returned := kept.awaits reader another awaited isAwaited
    rw [Store.returned_eq_some] at returned ⊢
    obtain ⟨update', isUpdate, progress, -⟩ := returned
    refine ⟨update', ?_, progress, rfl⟩
    change store.proceed client blobId .written another = some update'
    rw [Store.proceed_apply, if_neg]
    · exact isUpdate
    · rintro rfl
      cases latest.symm.trans isUpdate
      rw [begun] at progress
      cases progress
  · refine ⟨?_, file, if update.client = client then { update with progress := .written } else update, ?_, ?_⟩
    · change store.owe _ _ _ _ _ = _
      rw [Store.owe_apply, if_pos ⟨rfl, rfl⟩]
    · change store.proceed client blobId .written blobId = _
      rw [Store.proceed_apply, if_pos rfl, latest, Option.map_some]
    · split
      · exact fun _ => ⟨by rw [same], rfl⟩
      · next foreign => exact fun own => absurd own foreign

end Write

/-- The update that returns its bytes has written them under the number of its version. -/
theorem Kept.tells_concluded (kept : Kept manager store) {returns : Option Bytes}
    (owes : store.owed version.blobId version.version = some (client, version.content))
    (carries : ∀ data, returns = some data → Carries client version.blobId version.version version.content data store)
    {update : Update ι} (isUpdate : store.concluded client version.blobId returns blobId = some update) :
    Tells (store.blobs.find blobId) store.files update := by
  cases returns with
  | none => exact kept.latest blobId update isUpdate
  | some data =>
    rw [Store.concluded, Store.proceed_apply] at isUpdate
    split at isUpdate
    · next this =>
      obtain ⟨update', isUpdate', rfl⟩ := Option.map_eq_some_iff.mp isUpdate
      have tells := kept.latest _ update' isUpdate'
      subst this
      split
      · next mine =>
        obtain ⟨_, file, update'', isUpdate'', written⟩ := carries data rfl
        cases isUpdate'.symm.trans isUpdate''
        obtain ⟨number, written⟩ := written mine
        unfold Tells at tells ⊢
        simp only [written] at tells
        obtain ⟨ref, found, current⟩ := tells
        refine ⟨ref, found, current, ?_⟩
        have head := kept.accounted.head _ ref found
        rw [current, number, account, owes] at head
        have path : version.content.storagePath = ref.storagePath := congrArg Content.storagePath (Option.some.inj head)
        rw [← path]
        exact file
      · exact tells
    · exact kept.latest blobId update isUpdate

theorem Kept.awaits_concluded (kept : Kept manager store) {returns : Option Bytes}
    (carries : ∀ data, returns = some data → Carries client version.blobId version.version version.content data store)
    {reader : ι} {data : Bytes} (isAwaited : store.awaited reader = some (blobId, data)) :
    ∃ update, store.concluded client version.blobId returns blobId = some update ∧ update.progress = .returned data := by
  have returned := kept.awaits reader blobId data isAwaited
  rw [Store.returned_eq_some] at returned
  obtain ⟨update, isUpdate, progress, -⟩ := returned
  refine ⟨update, ?_, progress⟩
  cases returns with
  | none => exact isUpdate
  | some data =>
    rw [Store.concluded, Store.proceed_apply]
    split
    · next this =>
      subst this
      rw [isUpdate, Option.map_some, if_neg]
      intro mine
      obtain ⟨_, -, update', isUpdate', written⟩ := carries data rfl
      cases isUpdate.symm.trans isUpdate'
      rw [(written mine).2] at progress
      cases progress
    · exact isUpdate

/-- What the statement that adds a version leaves to its client. -/
theorem Kept.insertVersion (kept : Kept manager store) {client : ι} {returns : Option Bytes}
    {versions : VersionTable} (added : store.versions.add version = some versions)
    (owes : store.owed version.blobId version.version = some (client, version.content))
    (carries : ∀ data, returns = some data → Carries client version.blobId version.version version.content data store) :
    Kept manager { store with
      versions := versions
      owed := store.owe version.blobId version.version none
      latest := store.concluded client version.blobId returns } ∧
    ∀ other, other ≠ client → Undisturbed other store { store with
      versions := versions
      owed := store.owe version.blobId version.version none
      latest := store.concluded client version.blobId returns } := by
  have same := account_add added owes
  have accounted := kept.accounted
  have foreign : ∀ {other : ι}, other ≠ client → ∀ blobId m content,
      store.owe version.blobId version.version none blobId m = some (other, content) ↔
        store.owed blobId m = some (other, content) := by
    intro other unlike blobId m content
    rw [Store.owe_apply]
    split
    · next this =>
      rw [this.1, this.2, owes]
      simp [Ne.symm unlike]
    · rfl
  have known : ∀ {other : ι} {blobId : String} {property : Update ι → Prop}, other ≠ client →
      (∃ update ∈ store.latest blobId, property update) →
      (∀ (update : Update ι) progress, update.client ≠ other → property update → property { update with progress := progress }) →
      ∃ update ∈ store.concluded client version.blobId returns blobId, property update := by
    intro other blobId property unlike known indifferent
    cases returns with
    | none => exact known
    | some data => exact proceed_foreign unlike known fun update => indifferent update _
  refine ⟨⟨⟨?_, ?_, ?_, ?_, ?_⟩, ?_, ?_, kept.faithful⟩, ?_⟩
  · simpa only [same] using accounted.absent
  · simpa only [same] using accounted.numbered
  · simpa only [same] using accounted.head
  · simpa only [same] using accounted.stored
  · intro blobId m owed isOwed
    change store.owe _ _ _ blobId m = some owed at isOwed
    rw [Store.owe_apply] at isOwed
    split at isOwed
    · cases isOwed
    · next other =>
      rw [find_add added, if_neg]
      · exact accounted.exclusive blobId m owed isOwed
      · exact fun this => other (Prod.mk.inj this)
  · exact fun blobId update isUpdate => kept.tells_concluded owes carries isUpdate
  · intro reader blobId data isAwaited
    obtain ⟨update, isUpdate, progress⟩ := kept.awaits_concluded carries isAwaited
    exact Store.returned_eq_some.mpr ⟨update, isUpdate, progress, rfl⟩
  · intro other unlike
    refine ⟨?_, foreign unlike, ?_, ?_⟩
    · rintro blobId n ⟨present, latest⟩
      exact ⟨present, known unlike latest fun update _ theirs held => ⟨held.1, fun own => absurd own theirs⟩⟩
    · rintro blobId m content data ⟨owed, file, latest⟩
      exact ⟨(foreign unlike blobId m content).mpr owed, file,
        known unlike latest fun update _ theirs _ own => absurd own theirs⟩
    · rintro blobId m content ⟨told, awaited⟩
      exact ⟨by rw [same]; exact told, awaited⟩

/-- What the statement that begins an update leaves to its client. -/
theorem Kept.beginUpdate (kept : Kept manager store) (client : ι) (blobId : String) :
    Kept manager (store.fetched client blobId .update) ∧
    (∀ other, other ≠ client → Undisturbed other store (store.fetched client blobId .update)) ∧
    ∀ ref, store.blobs.find blobId = some ref → Seen client blobId ref.currentVersion (store.fetched client blobId .update) := by
  have awaited : ∀ {reader blobId' data}, (store.fetched client blobId .update).awaited reader = some (blobId', data) →
      store.awaited reader = some (blobId', data) ∧ blobId' ≠ blobId := by
    intro reader blobId' data isAwaited
    change (store.awaited reader).filter _ = some _ at isAwaited
    rw [Option.filter_eq_some_iff] at isAwaited
    simpa using isAwaited
  refine ⟨⟨⟨kept.accounted.absent, kept.accounted.numbered, kept.accounted.head, kept.accounted.stored,
    kept.accounted.exclusive⟩, ?_, ?_, kept.faithful⟩, ?_, ?_⟩
  · intro another update isUpdate
    change Function.update store.latest blobId _ another = some update at isUpdate
    by_cases this : another = blobId
    · subst this
      rw [Function.update_self] at isUpdate
      cases isUpdate
      exact le_refl _
    · rw [Function.update_of_ne this] at isUpdate
      exact kept.latest another update isUpdate
  · intro reader another data isAwaited
    obtain ⟨was, other⟩ := awaited isAwaited
    have returned := kept.awaits reader another data was
    rw [Store.returned_eq_some] at returned ⊢
    obtain ⟨update, isUpdate, progress⟩ := returned
    exact ⟨update, (Function.update_of_ne other ..).trans isUpdate, progress⟩
  · intro other foreign
    refine ⟨?_, fun _ _ _ => Iff.rfl, ?_, ?_⟩
    · rintro another n ⟨⟨ref, found, le⟩, latest⟩
      refine ⟨⟨ref, found, le⟩, ?_⟩
      by_cases this : another = blobId
      · subst this
        refine ⟨_, Function.update_self .., ?_, fun own => absurd own (Ne.symm foreign)⟩
        rw [Option.mem_def.mp found]
        exact le
      · obtain ⟨update, isUpdate, held⟩ := latest
        exact ⟨update, (Function.update_of_ne this ..).trans isUpdate, held⟩
    · rintro another m content data ⟨owed, file, latest⟩
      refine ⟨owed, file, ?_⟩
      by_cases this : another = blobId
      · subst this
        exact ⟨_, Function.update_self .., fun own => absurd own (Ne.symm foreign)⟩
      · obtain ⟨update, isUpdate, held⟩ := latest
        exact ⟨update, (Function.update_of_ne this ..).trans isUpdate, held⟩
    · rintro another m content ⟨told, held⟩
      exact ⟨told, fun blobId' data isAwaited => held blobId' data (awaited isAwaited).1⟩
  · intro ref found
    refine ⟨⟨ref, found, le_refl _⟩, _, Function.update_self .., ?_⟩
    rw [found]
    exact ⟨le_refl _, fun _ => ⟨rfl, rfl⟩⟩

/-- What the statement that begins a read leaves to its client. -/
theorem Kept.beginRead (kept : Kept manager store) (client : ι) (blobId : String) :
    Kept manager (store.fetched client blobId .read) ∧
    (∀ other, other ≠ client → Undisturbed other store (store.fetched client blobId .read)) ∧
    ∀ ref, store.blobs.find blobId = some ref →
      Opened client blobId ref.currentVersion ref.content (store.fetched client blobId .read) := by
  refine ⟨⟨⟨kept.accounted.absent, kept.accounted.numbered, kept.accounted.head, kept.accounted.stored,
    kept.accounted.exclusive⟩, kept.latest, ?_, kept.faithful⟩, ?_, ?_⟩
  · intro reader another data isAwaited
    change Function.update store.awaited client (store.returned blobId) reader = some (another, data) at isAwaited
    by_cases this : reader = client
    · subst this
      rw [Function.update_self] at isAwaited
      obtain ⟨_, -, -, same⟩ := Store.returned_eq_some.mp isAwaited
      subst same
      exact isAwaited
    · rw [Function.update_of_ne this] at isAwaited
      exact kept.awaits reader another data isAwaited
  · intro other foreign
    refine ⟨fun seen => ⟨seen.present, seen.latest⟩, fun _ _ _ => Iff.rfl,
      fun carries => ⟨carries.owed, carries.file, carries.latest⟩, ?_⟩
    rintro another m content ⟨told, held⟩
    refine ⟨told, fun blobId' data isAwaited => held blobId' data ?_⟩
    exact (Function.update_of_ne foreign ..).symm.trans isAwaited
  · intro ref found
    refine ⟨kept.accounted.head blobId ref found, fun another data isAwaited => ?_⟩
    change Function.update store.awaited client (store.returned blobId) client = some (another, data) at isAwaited
    rw [Function.update_self, Store.returned_eq_some] at isAwaited
    obtain ⟨update, isUpdate, progress, -⟩ := isAwaited
    have tells := kept.latest blobId update isUpdate
    unfold Tells at tells
    simp only [progress] at tells
    obtain ⟨_, present, -, file⟩ := tells
    cases found.symm.trans present
    exact file

theorem Kept.endRead (kept : Kept manager store) {client : ι} (opened : Opened client blobId m content store) :
    Kept manager (store.read client (store.files content.storagePath)) ∧
    ∀ other, other ≠ client → Undisturbed other store (store.read client (store.files content.storagePath)) := by
  refine ⟨⟨⟨kept.accounted.absent, kept.accounted.numbered, kept.accounted.head, kept.accounted.stored,
    kept.accounted.exclusive⟩, kept.latest, ?_, ?_⟩, ?_⟩
  · intro reader another data isAwaited
    change Function.update store.awaited client none reader = some (another, data) at isAwaited
    by_cases this : reader = client
    · subst this
      rw [Function.update_self] at isAwaited
      cases isAwaited
    · rw [Function.update_of_ne this] at isAwaited
      exact kept.awaits reader another data isAwaited
  · refine List.forall_mem_cons.mpr ⟨fun data expected => ?_, kept.faithful⟩
    obtain ⟨⟨another, _⟩, isAwaited, rfl⟩ := Option.map_eq_some_iff.mp expected
    exact opened.awaited another _ isAwaited
  · intro other foreign
    refine ⟨fun seen => ⟨seen.present, seen.latest⟩, fun _ _ _ => Iff.rfl,
      fun carries => ⟨carries.owed, carries.file, carries.latest⟩, ?_⟩
    rintro another m content ⟨told, held⟩
    refine ⟨told, fun blobId' data isAwaited => held blobId' data ?_⟩
    exact (Function.update_of_ne foreign ..).symm.trans isAwaited

variable {client : ι} {state : Store ι}

/-- A statement whatever it is: it moves nothing where it fails, and otherwise
what the service says. -/
theorem statement_safe {request : Request} {post : Except Raised (Reply request) → Store ι → Prop}
    (fails : ∀ now error, Undisturbed client state now → post (.error error) now)
    (steps : ∀ choice now reply after, Kept manager now → Undisturbed client state now → Unspoilt client now request →
      choice.failure = none → serve manager.backend client choice now request = some (reply, after) →
        Kept manager after ∧ (∀ other, other ≠ client → Undisturbed other now after) ∧ post reply after)
    (pure : request ≠ .now ∧ request ≠ .generateId) :
    (keeping ι manager).Safe ((serve manager.backend).restrict steady) client post (Prog.perform request) state := by
  apply Contract.Safe.perform
  intro now kept moved allowed choice reply after answered
  obtain ⟨-, answered⟩ := Service.restrict_some answered
  cases failed : choice.failure with
  | none => exact steps choice now reply after kept moved allowed failed answered
  | some error =>
    have same : reply = .error error ∧ after = now := by
      unfold serve at answered
      rw [failed] at answered
      cases request with
      | now => exact absurd rfl pure.1
      | generateId => exact absurd rfl pure.2
      | _ =>
        cases answered
        exact ⟨rfl, rfl⟩
    obtain ⟨rfl, rfl⟩ := same
    exact ⟨kept, fun other _ => .refl other after, fails after error moved⟩

theorem drawing_safe {request : Request} {post : Except Raised (Reply request) → Store ι → Prop}
    (draws : request = .now ∨ request = .generateId)
    (reached : ∀ now value, Undisturbed client state now → post (.ok value) now) :
    (keeping ι manager).Safe ((serve manager.backend).restrict steady) client post (Prog.perform request) state := by
  apply Contract.Safe.perform
  intro now kept moved allowed choice reply after answered
  obtain ⟨-, answered⟩ := Service.restrict_some answered
  rcases draws with rfl | rfl <;> cases answered <;>
    exact ⟨kept, fun other _ => .refl other now, reached now _ moved⟩

theorem createVersion_safe {createdBy changeReason : String} {returns : Option Bytes}
    (owes : Owes client ref.key ref.currentVersion ref.content state)
    (carries : ∀ data, returns = some data → Carries client ref.key ref.currentVersion ref.content data state) :
    (keeping ι manager).Safe ((serve manager.backend).restrict steady) client (fun _ final => Clear client final)
      (createVersion ref createdBy changeReason returns) state := by
  apply Contract.Safe.bind
  refine drawing_safe (.inl rfl) fun now ts moved => ?_
  apply Contract.Safe.bind
  refine drawing_safe (.inr rfl) fun later versionId moved' => ?_
  have moved := moved.trans moved'
  apply Contract.Safe.bind
  apply Contract.Safe.perform
  intro now kept onward new choice reply after answered
  obtain ⟨steadily, answered⟩ := Service.restrict_some answered
  have moved := moved.trans onward
  replace owes := owes.moved moved
  replace carries := fun data same => moved.carries (carries data same)
  obtain ⟨failure, clock, id⟩ := choice
  cases failure with
  | some error => cases steadily
  | none =>
    obtain ⟨versions, added⟩ := add_isSome (kept : Kept manager now) owes.owed new
    simp only [serve, added] at answered
    cases answered
    obtain ⟨kept, others⟩ := Kept.insertVersion (kept : Kept manager now) added owes.owed carries
    exact ⟨kept, others, owes.settle rfl⟩

theorem store_safe {filename contentType ownerId : String} {objectId : Option String} {metadata : Option Json}
    {changeReason : String} (clear : Clear client state) :
    (keeping ι manager).Safe ((serve manager.backend).restrict steady) client (fun _ final => Clear client final)
      (Blobs.store manager data filename contentType ownerId objectId metadata changeReason) state := by
  apply Contract.Safe.bind
  refine drawing_safe (.inl rfl) fun now ts moved => ?_
  replace clear := clear.moved moved
  apply Contract.Safe.bind
  refine drawing_safe (.inr rfl) fun now blobId moved => ?_
  replace clear := clear.moved moved
  apply Contract.Safe.bind
  -- The bytes, under a path that no version has.
  have put : (keeping ι manager).Safe ((serve manager.backend).restrict steady) client
      (fun result final => Clear client final ∧ ∀ path, result = .ok path →
        path = manager.backend.path (BlobKey.original blobId).text) (Prog.perform (Request.put (.original blobId) data)) now := by
    refine statement_safe (fun now error moved => ⟨clear.moved moved, nofun⟩) ?_ ⟨nofun, nofun⟩
    intro choice now reply after kept moved absent plain answered
    simp only [serve, plain] at answered
    cases answered
    obtain ⟨kept, others⟩ := kept.put data (kept.accounted.fresh_original absent)
    refine ⟨kept, fun other _ => others other, clear.moved (moved.trans (others client)), fun path same => ?_⟩
    cases same
    rfl
  refine put.weaken fun result final reached => ?_
  obtain ⟨clear, stored⟩ := reached
  cases result with
  | error error => exact clear
  | ok storagePath =>
    cases stored storagePath rfl
    apply Contract.Safe.bind
    refine statement_safe (fun now error moved => clear.moved moved) ?_ ⟨nofun, nofun⟩
    intro choice now reply after kept moved file plain answered
    replace clear := clear.moved moved
    simp only [serve, plain] at answered
    split at answered
    · next blobs inserted =>
      cases answered
      obtain ⟨kept, others⟩ := kept.insertBlob inserted rfl rfl file rfl rfl
      refine ⟨kept, others, ?_⟩
      apply Contract.Safe.bind
      refine (createVersion_safe (clear.owe _ _ _ rfl) fun _ same => by cases same).weaken fun result final reached => ?_
      cases result <;> exact reached
    · cases answered
      exact ⟨kept, fun other _ => .refl other now, clear⟩

variable {principalId : String}

/-- What the row of a blob is read for, and what is known of it then. -/
theorem getOrRaise_safe (purpose : Purpose) (known : BlobRef → Store ι → Prop) (clear : Clear client state)
    (steps : ∀ now : Store ι, Kept manager now → Kept manager (now.fetched client blobId purpose) ∧
      (∀ other, other ≠ client → Undisturbed other now (now.fetched client blobId purpose)) ∧
      (now.fetched client blobId purpose).owed = now.owed ∧
      ∀ ref, now.blobs.find blobId = some ref → known ref (now.fetched client blobId purpose)) :
    (keeping ι manager).Safe ((serve manager.backend).restrict steady) client
      (fun result final => Clear client final ∧ ∀ ref, result = .ok ref → ref.key = blobId ∧ known ref final)
      (getOrRaise purpose blobId principalId) state := by
  apply Contract.Safe.bind
  refine statement_safe (fun now error moved => ⟨clear.moved moved, fun _ same => by cases same⟩) ?_ ⟨nofun, nofun⟩
  intro choice now reply after kept moved _ plain answered
  simp only [serve, plain] at answered
  cases answered
  obtain ⟨kept, others, same, found⟩ := steps now kept
  refine ⟨kept, others, ?_⟩
  have clear : Clear client (now.fetched client blobId purpose) := by
    intro another m content owed
    rw [same] at owed
    exact clear.moved moved another m content owed
  cases row : now.blobs.find blobId with
  | none => exact ⟨clear, fun _ same => by cases same⟩
  | some ref =>
    simp only
    split
    · refine ⟨clear, fun another same => ?_⟩
      cases same
      exact ⟨(Rows.find_eq_some.mp row).2, found ref row⟩
    · exact ⟨clear, fun _ same => by cases same⟩

theorem read_safe (clear : Clear client state) :
    (keeping ι manager).Safe ((serve manager.backend).restrict steady) client (fun _ final => Clear client final)
      (read blobId principalId) state := by
  apply Contract.Safe.bind
  refine (getOrRaise_safe .read (fun ref final => Opened client blobId ref.currentVersion ref.content final) clear ?_).weaken ?_
  · intro now kept
    obtain ⟨kept, others, opened⟩ := kept.beginRead client blobId
    exact ⟨kept, others, rfl, opened⟩
  · intro result final reached
    obtain ⟨clear, found⟩ := reached
    cases result with
    | error error => exact clear
    | ok ref =>
      obtain ⟨-, opened⟩ := found ref rfl
      refine statement_safe (fun now error moved => clear.moved moved) ?_ ⟨nofun, nofun⟩
      intro choice now reply after kept moved _ plain answered
      replace clear := clear.moved moved
      obtain ⟨kept, others⟩ := kept.endRead (moved.opened opened)
      simp only [serve, plain] at answered
      change Kept manager (now.read client (now.files ref.storagePath)) at kept
      change ∀ other, other ≠ client → Undisturbed other now (now.read client (now.files ref.storagePath)) at others
      split at answered
      · next data file =>
        cases answered
        rw [file] at kept others
        exact ⟨kept, others, clear⟩
      · next missing =>
        cases answered
        rw [missing] at kept others
        exact ⟨kept, others, clear⟩

theorem delete_safe (clear : Clear client state) :
    (keeping ι manager).Safe ((serve manager.backend).restrict steady) client (fun _ final => Clear client final)
      (delete blobId principalId) state := by
  apply Contract.Safe.bind
  refine (getOrRaise_safe .delete (fun _ _ => True) clear ?_).weaken ?_
  · intro now kept
    exact ⟨kept, fun other _ => .refl other now, rfl, fun _ _ => trivial⟩
  · intro result final reached
    obtain ⟨clear, -⟩ := reached
    cases result with
    | error error => exact clear
    | ok ref =>
      apply Contract.Safe.bind
      refine statement_safe (fun now error moved => clear.moved moved) ?_ ⟨nofun, nofun⟩
      intro choice now reply after kept moved _ plain answered
      simp only [serve, plain] at answered
      cases answered
      obtain ⟨kept, others⟩ := kept.archive blobId
      exact ⟨kept, fun other _ => others other, clear.moved (moved.trans (others client))⟩

theorem update_safe {changeReason : String} (clear : Clear client state) :
    (keeping ι manager).Safe ((serve manager.backend).restrict steady) client (fun _ final => Clear client final)
      (update manager blobId data principalId changeReason) state := by
  apply Contract.Safe.bind
  refine (getOrRaise_safe .update (fun ref final => Seen client blobId ref.currentVersion final) clear ?_).weaken ?_
  · intro now kept
    obtain ⟨kept, others, seen⟩ := kept.beginUpdate client blobId
    exact ⟨kept, others, rfl, seen⟩
  intro result final reached
  obtain ⟨clear, found⟩ := reached
  cases result with
  | error error => exact clear
  | ok ref =>
    obtain ⟨rfl, seen⟩ := found ref rfl
    -- The row that a condition speaks of is that of the blob that was read.
    have same : ∀ {now : Store ι} {row : BlobRef}, row ∈ now.blobs.find ref.key → row.id = ref.id :=
      fun found => ScopedId.ext (Rows.find_eq_some.mp found).2
    apply Contract.Safe.bind
    have put : (keeping ι manager).Safe ((serve manager.backend).restrict steady) client
        (fun result final => Clear client final ∧ Seen client ref.key ref.currentVersion final ∧ ∀ path, result = .ok path →
          path = manager.backend.path (BlobKey.version ref.id (ref.currentVersion + 1)).text)
        (Prog.perform (Request.put (.version ref.id (ref.currentVersion + 1)) data)) final := by
      refine statement_safe (fun now error moved => ⟨clear.moved moved, moved.seen seen, nofun⟩) ?_ ⟨nofun, nofun⟩
      intro choice now reply after kept moved current plain answered
      simp only [serve, plain] at answered
      cases answered
      obtain ⟨row, found, number⟩ := current
      have number : row.currentVersion = ref.currentVersion := Nat.succ.inj number
      obtain ⟨kept, others⟩ := kept.put data (number ▸ kept.accounted.fresh_version found)
      have moved := moved.trans (others client)
      refine ⟨kept, fun other _ => others other, clear.moved moved, moved.seen seen, fun path same => ?_⟩
      cases same
      rfl
    refine put.weaken fun result final reached => ?_
    obtain ⟨clear, seen, stored⟩ := reached
    cases result with
    | error error => exact clear
    | ok newPath =>
      cases stored newPath rfl
      apply Contract.Safe.bind
      refine statement_safe (fun now error moved => clear.moved moved) ?_ ⟨nofun, nofun⟩
      intro choice now reply after kept moved unspoilt plain answered
      replace clear := clear.moved moved
      replace seen := moved.seen seen
      obtain ⟨⟨row, found, number⟩, file⟩ := unspoilt
      have number : row.currentVersion = ref.currentVersion := Nat.succ.inj number
      simp only [serve, plain] at answered
      cases answered
      rw [← number] at seen
      obtain ⟨kept, others, carries⟩ := kept.write found seen (by rw [same found, number]) file rfl rfl
      rw [number] at kept others carries
      refine ⟨kept, others, ?_⟩
      apply Contract.Safe.bind
      refine (createVersion_safe (clear.owe _ _ _ rfl) fun data' same => ?_).weaken fun result final reached => ?_
      · cases same
        exact carries
      · cases result <;> exact reached

theorem Client.safe {program : Program Unit} (runs : Client manager program) (clear : Clear client state) :
    (keeping ι manager).Safe ((serve manager.backend).restrict steady) client (fun _ final => Clear client final)
      program state := by
  induction runs generalizing state with
  | done => exact clear
  | call made next each ih =>
    apply Contract.Safe.bind
    apply Contract.Safe.attempt
    refine Contract.Safe.weaken ?_ fun result final clear => ih result clear
    cases made with
    | store data filename contentType ownerId objectId metadata changeReason =>
      refine Contract.Safe.bind ((store_safe clear).weaken fun result final clear => ?_)
      cases result <;> exact clear
    | storeStream chunks filename contentType ownerId objectId metadata changeReason =>
      refine Contract.Safe.bind ((store_safe clear).weaken fun result final clear => ?_)
      cases result <;> exact clear
    | read blobId principalId =>
      refine Contract.Safe.bind ((read_safe clear).weaken fun result final clear => ?_)
      cases result <;> exact clear
    | update blobId data principalId changeReason =>
      refine Contract.Safe.bind ((update_safe clear).weaken fun result final clear => ?_)
      cases result <;> exact clear
    | delete blobId principalId =>
      refine Contract.Safe.bind ((delete_safe clear).weaken fun result final clear => ?_)
      cases result <;> exact clear

section Sample

/-- SHA-256, of the bytes that the calls below store. -/
private def digest (data : Bytes) : String :=
  if data = [] then "e3b0c44298fc1c149afbf4c8996fb92427ae41e4649b934ca495991b7852b855"
  else if data = [97] then "ca978112ca1bbdcafac231b39a23dc4da786eff8147c4e72b9807785afee48bb"
  else "3e23e8160039594a33894f6564e1b1348bbd7a0088d42c4acb73eeaed59c009d"

private def onDisk : BlobManager := ⟨.local, digest⟩

private def photo : String := (ScopedId.repeated 0).text

/-- One client stores a blob and updates it, the other updates and reads it. -/
private def twoOwners : Bool → Program Unit
  | false => (invoke onDisk (.store [] "photo.jpg" "image/jpeg" "alice" none none "created")).attempt.bind fun _ =>
    (invoke onDisk (.update photo [97] "alice" "cropped")).attempt.bind fun _ => .pure ()
  | true => (invoke onDisk (.update photo [98] "alice" "rotated")).attempt.bind fun _ =>
    (invoke onDisk (.read photo "alice")).attempt.bind fun _ => .pure ()

private def plainly (turn : Bool × Fin 10) : Bool × Choice :=
  (turn.1, ⟨none, .of 0 Moment.start_within, .repeated turn.2⟩)

/-- What the versions tell, what the file of the second has, and whether all calls are over. -/
private def outcome (world : Interleaved Request Reply Raised (Store Bool) Bool) :
    List (Nat × Content) × Option Bytes × List Reading × Bool :=
  (world.state.versions.list.map fun version => (version.version, version.content),
    world.state.files "00/00/00000000000000000000000000000000_v2", world.state.readings,
    [false, true].all fun client => match world.programs client with
      | .pure _ => true
      | _ => false)

private theorem race_runs :
    ((Interleaved.run (serve onDisk.backend) (fun _ _ _ => True) ⟨.empty, twoOwners⟩
      ((List.replicate 4 (false, (0 : Fin 10)) ++ List.replicate 3 (false, 1) ++ [(false, 0), (true, 0), (false, 0),
        (true, 0), (false, 0), (true, 0)] ++ List.replicate 3 (false, 2) ++ List.replicate 5 (true, 3)).map plainly)).map
        outcome) =
      some ([(1, ⟨digest [], 0, "00/00/00000000000000000000000000000000"⟩),
        (2, ⟨digest [97], 1, "00/00/00000000000000000000000000000000_v2"⟩)], some [98], [⟨none, some [98]⟩], true) := by
  decide +kernel

private theorem ended {world : Interleaved Request Reply Raised (Store Bool) Bool}
    (through : ([false, true].all fun client => match world.programs client with
      | .pure _ => true
      | _ => false) = true) (client : Bool) : world.programs client = .pure () := by
  have held := List.all_eq_true.mp through client (by cases client <;> simp)
  split at held
  next value same => rw [same]
  · cases held

private instance (client : Bool) (store : Store Bool) (request : Request) : Decidable (Unspoilt client store request) := by
  unfold Unspoilt
  split <;> infer_instance

private theorem sequence_runs :
    ((Interleaved.run ((serve onDisk.backend).restrict steady) Unspoilt ⟨.empty, twoOwners⟩
      ((List.replicate 4 (false, (0 : Fin 10)) ++ List.replicate 3 (false, 1) ++ List.replicate 6 (false, 2) ++
        List.replicate 8 (true, 3)).map plainly)).map outcome) =
      some ([(1, ⟨digest [], 0, "00/00/00000000000000000000000000000000"⟩),
        (2, ⟨digest [97], 1, "00/00/00000000000000000000000000000000_v2"⟩),
        (3, ⟨digest [98], 1, "00/00/00000000000000000000000000000000_v3"⟩)],
        some [97], [⟨some [98], some [98]⟩], true) := by
  decide +kernel

end Sample

end PyScoped.Legacy.Blobs
