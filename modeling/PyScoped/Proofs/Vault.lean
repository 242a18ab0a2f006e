import PyScoped.Foundation.Sessions
import PyScoped.Legacy.Vault

/-! What the vault keeps, whichever calls overlap and whatever fails: no version is
lost or written twice, and a value only goes to whom it is meant for when its call
begins. -/

namespace PyScoped.Legacy.Vault
open Foundation
open Rotation (SecretClassification)

variable {ι : Type} {backend : SecretBackend} {store before after : Store ι}

def Unexpired (expiresAt : Option Aware) (now : Moment) : Prop := ∀ moment, expiresAt = some moment → now.instant < moment.instant

/-- What can become of a secret. -/
structure Secret.Became (old new : Secret) : Prop where
  expiresAt : new.expiresAt = old.expiresAt
  classification : new.classification = old.classification
  version : old.currentVersion ≤ new.currentVersion
  active : new.lifecycle = .active → old.lifecycle = .active

def SecretRef.Became (old new : SecretRef) : Prop := new = old ∨ new = old.revoke

/-- Nothing is taken away, and what has ended does not begin again. -/
structure Grown (before after : Store ι) : Prop where
  secrets : ∀ secretId old, before.secrets.find secretId = some old → ∃ new, after.secrets.find secretId = some new ∧ old.Became new
  refs : ∀ refToken old, before.refByToken refToken = some old → ∃ new, after.refByToken refToken = some new ∧ old.Became new
  versions : before.versions.list ⊆ after.versions.list
  policies : before.policies.list ⊆ after.policies.list
  clock : before.clock.instant ≤ after.clock.instant

/-- A version that is not the current one yet is left to the client that wrote it. -/
def Mine (client : ι) (before after : Store ι) : Prop :=
  ∀ written ∈ before.versions.list, written.writer = client → ∀ old, before.secrets.find written.row.secretId = some old →
    old.currentVersion < written.row.version →
    ∀ new, after.secrets.find written.row.secretId = some new → new.currentVersion < written.row.version

/-- The version is there with its value, and was the current one. -/
def Stands (store : Store ι) (version : SecretVersion) (plaintext : String) : Prop :=
  ∃ written ∈ store.versions.list, written.row = version ∧ written.plaintext = plaintext ∧
    ∃ secret, store.secrets.find version.secretId = some secret ∧ version.version ≤ secret.currentVersion

/-- What a caller can count on once its call has returned. -/
def Answer.Holds (answer : Answer ι) (store : Store ι) : Prop :=
  match answer.call, answer.result with
  | .createSecret _ plaintextValue _ _ _ _ _, .ok (.created _ version) => Stands store version plaintextValue
  | .rotate _ newValue _ _ _, .ok (.rotated version) => Stands store version newValue
  | .archiveSecret secretId _, .ok _ => ∃ secret, store.secrets.find secretId = some secret ∧ secret.lifecycle ≠ .active
  | _, _ => True

structure Kept (backend : SecretBackend) (store : Store ι) : Prop where
  positive : ∀ secretId secret, store.secrets.find secretId = some secret → 1 ≤ secret.currentVersion
  decrypts : ∀ written ∈ store.versions.list, backend.decrypt written.row.encryptedValue written.row.keyId = .ok written.plaintext
  distinct : (store.versions.list.map fun written => (written.row.secretId, written.row.version)).Nodup
  numbered : ∀ written ∈ store.versions.list, ∃ secret, store.secrets.find written.row.secretId = some secret ∧
    1 ≤ written.row.version ∧ written.row.version ≤ secret.currentVersion + 1
  filled : ∀ secretId secret, store.secrets.find secretId = some secret → ∀ n, 2 ≤ n → n ≤ secret.currentVersion →
    ∃ written ∈ store.versions.list, written.row.secretId = secretId ∧ written.row.version = n
  answered : ∀ answer ∈ store.answers, answer.Holds store

def Rely (client : ι) (before after : Store ι) : Prop := Grown before after ∧ Mine client before after

/-- The observer relies on the growth alone. -/
def guarding (backend : SecretBackend) : Contract Request (Store ι) (Option ι) where
  kept := Kept backend
  rely client before after := client.elim (Grown before after) fun client => Rely client before after
  allowed _ _ _ := True

theorem Secret.Became.refl (secret : Secret) : secret.Became secret := ⟨rfl, rfl, Nat.le_refl _, fun active => active⟩

theorem Secret.Became.trans {first second third : Secret} (one : first.Became second) (two : second.Became third) :
    first.Became third where
  expiresAt := two.expiresAt.trans one.expiresAt
  classification := two.classification.trans one.classification
  version := Nat.le_trans one.version two.version
  active held := one.active (two.active held)

theorem SecretRef.Became.trans {first second third : SecretRef} (one : first.Became second) (two : second.Became third) :
    first.Became third := by
  rcases one with rfl | rfl
  · exact two
  · rcases two with rfl | rfl
    · exact .inr rfl
    · exact .inr rfl

theorem SecretRef.Became.active {old new : SecretRef} (became : old.Became new) (active : new.lifecycle = .active) : new = old := by
  apply became.resolve_right
  intro revoked
  rw [revoked] at active
  cases active

theorem Grown.refl (store : Store ι) : Grown store store where
  secrets _ old found := ⟨old, found, .refl old⟩
  refs _ old found := ⟨old, found, .inl rfl⟩
  versions := List.Subset.refl _
  policies := List.Subset.refl _
  clock := Int.le_refl _

theorem Grown.trans {first second third : Store ι} (one : Grown first second) (two : Grown second third) : Grown first third where
  secrets := by
    intro secretId old found
    obtain ⟨mid, found, became⟩ := one.secrets secretId old found
    obtain ⟨new, found, became'⟩ := two.secrets secretId mid found
    exact ⟨new, found, became.trans became'⟩
  refs := by
    intro refToken old found
    obtain ⟨mid, found, became⟩ := one.refs refToken old found
    obtain ⟨new, found, became'⟩ := two.refs refToken mid found
    exact ⟨new, found, became.trans became'⟩
  versions := List.Subset.trans one.versions two.versions
  policies := List.Subset.trans one.policies two.policies
  clock := Int.le_trans one.clock two.clock

theorem Mine.refl (client : ι) (store : Store ι) : Mine client store store := by
  intro written member own old found above new found'
  cases found.symm.trans found'
  exact above

theorem Mine.trans {client : ι} {first second third : Store ι} (grown : Grown first second) (one : Mine client first second)
    (two : Mine client second third) : Mine client first third := by
  intro written member own old found above new found'
  obtain ⟨mid, between, -⟩ := grown.secrets _ old found
  exact two written (grown.versions member) own mid between (one written member own old found above mid between) new found'

theorem Kept.same (kept : Kept backend store) {first second : Written ι} (one : first ∈ store.versions.list)
    (two : second ∈ store.versions.list) (secret : first.row.secretId = second.row.secretId)
    (version : first.row.version = second.row.version) : first = second :=
  List.inj_on_of_nodup_map kept.distinct one two (Prod.ext secret version)

theorem Rely.refl (client : ι) (store : Store ι) : Rely client store store := ⟨.refl store, .refl client store⟩

theorem Rely.trans {client : ι} {first second third : Store ι} (one : Rely client first second) (two : Rely client second third) :
    Rely client first third := ⟨one.1.trans two.1, one.2.trans one.1 two.2⟩

theorem guarding_refl (backend : SecretBackend) (client : Option ι) (store : Store ι) : (guarding backend).rely client store store := by
  cases client with
  | none => exact .refl store
  | some client => exact Rely.refl client store

theorem guarding_trans (backend : SecretBackend) (client : Option ι) (first second third : Store ι) (one : (guarding backend).rely client first second)
    (two : (guarding backend).rely client second third) : (guarding backend).rely client first third := by
  cases client with
  | none => exact Grown.trans one two
  | some client => exact Rely.trans one two

theorem guarding_rely (backend : SecretBackend) (grown : Grown before after) (client : Option ι) (mine : ∀ own, client = some own → Mine own before after) :
    (guarding backend).rely client before after := by
  cases client with
  | none => exact grown
  | some client => exact ⟨grown, mine client rfl⟩

theorem Stands.grown {version : SecretVersion} {plaintext : String} (stands : Stands before version plaintext)
    (grown : Grown before after) : Stands after version plaintext := by
  obtain ⟨written, member, row, value, secret, found, reached⟩ := stands
  obtain ⟨new, found, became⟩ := grown.secrets _ secret found
  exact ⟨written, grown.versions member, row, value, new, found, Nat.le_trans reached became.version⟩

variable {secretId : String}

theorem inactive_grown
    (inactive : ∃ secret, before.secrets.find secretId = some secret ∧ secret.lifecycle ≠ .active) (grown : Grown before after) :
    ∃ secret, after.secrets.find secretId = some secret ∧ secret.lifecycle ≠ .active := by
  obtain ⟨secret, found, inactive⟩ := inactive
  obtain ⟨new, found, became⟩ := grown.secrets secretId secret found
  exact ⟨new, found, fun active => inactive (became.active active)⟩

theorem Answer.Holds.grown {answer : Answer ι} (holds : answer.Holds before) (grown : Grown before after) : answer.Holds after := by
  obtain ⟨client, call, result⟩ := answer
  cases call with
  | createSecret _ plaintextValue _ _ _ _ _ =>
    rcases result with error | outcome
    · trivial
    · cases outcome with
      | created secret version => exact Stands.grown holds grown
      | _ => trivial
  | rotate _ newValue _ _ _ =>
    rcases result with error | outcome
    · trivial
    · cases outcome with
      | rotated version => exact Stands.grown holds grown
      | _ => trivial
  | archiveSecret secretId _ =>
    rcases result with error | outcome
    · trivial
    · exact inactive_grown holds grown
  | _ => trivial

variable {request : Request} {secret : Secret} {written : Written ι}

section Statements

theorem Kept.beside (kept : Kept backend before) (secrets : after.secrets = before.secrets) (versions : after.versions = before.versions)
    (answers : after.answers = before.answers) (grown : Grown before after) : Kept backend after := by
  refine ⟨?_, ?_, ?_, ?_, ?_, ?_⟩
  · rw [secrets]
    exact kept.positive
  · rw [versions]
    exact kept.decrypts
  · rw [versions]
    exact kept.distinct
  · rw [versions, secrets]
    exact kept.numbered
  · rw [versions, secrets]
    exact kept.filled
  · rw [answers]
    exact fun answer member => (kept.answered answer member).grown grown

theorem Mine.beside {client : ι} (secrets : after.secrets = before.secrets) : Mine client before after := by
  intro written member own old found above new found'
  rw [secrets] at found'
  cases found.symm.trans found'
  exact above

/-- What a statement leaves behind. -/
structure Moved (backend : SecretBackend) (before after : Store ι) : Prop where
  kept : Kept backend after
  grown : Grown before after
  mine : ∀ own, Mine own before after

theorem find_updateSecret (secretId wanted : String) (change : Secret → Secret) (keeps : ∀ row, (change row).id = row.id) :
    (store.updateSecret secretId change keeps).secrets.find wanted =
      (store.secrets.find wanted).map fun row => if row.id = secretId then change row else row := by
  simp only [Store.updateSecret, Rows.find_update, decide_eq_true_eq]

theorem updateSecret_grown {change : Secret → Secret} {keeps : ∀ row, (change row).id = row.id}
    (became : ∀ secret, store.secrets.find secretId = some secret → secret.Became (change secret)) :
    Grown store (store.updateSecret secretId change keeps) where
  secrets := by
    intro wanted old found
    rw [find_updateSecret, found, Option.map_some]
    refine ⟨_, rfl, ?_⟩
    split
    next same =>
      have key := (Rows.find_eq_some.mp found).2
      exact became old (by rw [← same, key]; exact found)
    · exact .refl old
  __ := Grown.refl store

theorem refByToken_revoke (chosen : SecretRef → Bool) (refToken : String) :
    (store.revoke chosen).refByToken refToken =
      (store.refByToken refToken).map fun ref => if chosen ref then ref.revoke else ref := by
  have same : ∀ ref : SecretRef, (if chosen ref then ref.revoke else ref).refToken = ref.refToken := by
    intro ref
    split <;> rfl
  simp only [Store.refByToken, Store.revoke, Rows.update, List.find?_map, Function.comp_def, same]

theorem revoke_grown (chosen : SecretRef → Bool) : Grown store (store.revoke chosen) where
  __ := Grown.refl store
  refs := by
    intro refToken old found
    rw [refByToken_revoke, found, Option.map_some]
    refine ⟨_, rfl, ?_⟩
    split
    · exact .inr rfl
    · exact .inl rfl

theorem advance_grown (now : Moment) : Grown store (store.advance now) := by
  unfold Store.advance
  split
  next later => exact { Grown.refl store with clock := later }
  · exact .refl store

theorem logged_grown (log : Rows SecretAccessEntry.id) : Grown store { store with accessLog := log } where
  __ := Grown.refl store

theorem insertPolicy_grown {policy : SecretPolicy} {policies : Rows SecretPolicy.id}
    (done : store.policies.insert policy = some policies) : Grown store { store with policies := policies } where
  __ := Grown.refl store
  policies := by
    rw [(Rows.insert_eq_some done).2]
    exact List.subset_append_left _ _

theorem insertRef_grown {ref : SecretRef} (done : store.insertRef ref = some after) :
    (∃ refs, after = { store with refs := refs }) ∧ Grown store after := by
  unfold Store.insertRef at done
  split at done
  · cases done
  · obtain ⟨refs, inserted, rfl⟩ := Option.map_eq_some_iff.mp done
    refine ⟨⟨refs, rfl⟩, { Grown.refl store with refs := ?_ }⟩
    intro refToken old found
    refine ⟨old, ?_, .inl rfl⟩
    unfold Store.refByToken at found ⊢
    rw [(Rows.insert_eq_some inserted).2, List.find?_append, found]
    rfl

variable {secrets : Rows Secret.id}

theorem find_of_insert {new : Secret} {wanted : String}
    (inserted : store.secrets.insert secret = some secrets) (found : secrets.find wanted = some new) :
    store.secrets.find wanted = some new ∨ new = secret := by
  rw [Rows.find_insert inserted] at found
  split at found
  · exact .inr (Option.some.inj found).symm
  · exact .inl found

theorem find_insert_old {old : Secret} {wanted : String}
    (inserted : store.secrets.insert secret = some secrets) (found : store.secrets.find wanted = some old) :
    secrets.find wanted = some old := by
  rw [Rows.find_insert inserted, if_neg, found]
  rintro rfl
  cases (Rows.insert_eq_some inserted).1.symm.trans found

theorem insertSecret_kept (kept : Kept backend store) (first : secret.currentVersion = 1)
    (inserted : store.secrets.insert secret = some secrets) :
    Moved backend store { store with secrets := secrets } := by
  have grown : Grown store { store with secrets := secrets } :=
    { Grown.refl store with secrets := fun _ old found => ⟨old, find_insert_old inserted found, .refl old⟩ }
  refine ⟨⟨?_, kept.decrypts, kept.distinct, ?_, ?_, fun answer member => (kept.answered answer member).grown grown⟩, grown, ?_⟩
  · intro secretId new found
    rcases find_of_insert inserted found with old | rfl
    · exact kept.positive secretId new old
    · exact first.ge
  · intro written member
    obtain ⟨old, found, bounds⟩ := kept.numbered written member
    exact ⟨old, find_insert_old inserted found, bounds⟩
  · intro secretId new found n low high
    rcases find_of_insert inserted found with old | rfl
    · exact kept.filled secretId new old n low high
    · omega
  · intro own written member writer old found above new found'
    cases (find_insert_old inserted found).symm.trans found'
    exact above

theorem version_isSome {version : Nat} (member : written ∈ store.versions.list)
    (secret : written.row.secretId = secretId) (number : written.row.version = version) :
    (store.version secretId version).isSome = true := by
  apply List.find?_isSome.mpr
  refine ⟨written, member, ?_⟩
  simp only [secret, number, decide_true, Bool.and_self]

theorem version_some {version : Nat} (found : store.version secretId version = some written) :
    written ∈ store.versions.list ∧ written.row.secretId = secretId ∧ written.row.version = version := by
  have held := List.find?_some found
  simp only [Bool.and_eq_true, decide_eq_true_eq] at held
  exact ⟨List.mem_of_find?_eq_some found, held⟩

theorem insertVersion_list (done : store.insertVersion written = some after) :
    store.version written.row.secretId written.row.version = none ∧ after.versions.list = store.versions.list ++ [written] ∧
      ∃ versions, after = { store with versions := versions } := by
  unfold Store.insertVersion at done
  split at done
  · cases done
  next free =>
    obtain ⟨versions, inserted, rfl⟩ := Option.map_eq_some_iff.mp done
    exact ⟨Option.not_isSome_iff_eq_none.mp free, (Rows.insert_eq_some inserted).2, versions, rfl⟩

/-- All statements but those on the versions; a secret that is inserted is at its first version. -/
def Request.Quiet : Request → Prop
  | .insertSecret row => row.currentVersion = 1
  | .insertVersion _ _ | .setVersion _ _ _ | .deliver _ _ => False
  | _ => True

theorem archive_kept (kept : Kept backend store) (secretId : String) :
    Moved backend store (store.updateSecret secretId Secret.archive Secret.archive_id) := by
  have grown : Grown store (store.updateSecret secretId Secret.archive Secret.archive_id) :=
    updateSecret_grown fun secret _ => ⟨rfl, rfl, Nat.le_refl _, fun active => by cases active⟩
  -- the row that is found has the version that it had
  have back {wanted : String} {new : Secret}
      (found : (store.updateSecret secretId Secret.archive Secret.archive_id).secrets.find wanted = some new) :
      ∃ old, store.secrets.find wanted = some old ∧ new.currentVersion = old.currentVersion := by
    rw [find_updateSecret] at found
    obtain ⟨old, stored, rfl⟩ := Option.map_eq_some_iff.mp found
    refine ⟨old, stored, ?_⟩
    split <;> rfl
  refine ⟨⟨?_, kept.decrypts, kept.distinct, ?_, ?_, fun answer member => (kept.answered answer member).grown grown⟩, grown, ?_⟩
  · intro wanted new found
    obtain ⟨old, stored, same⟩ := back found
    exact same ▸ kept.positive wanted old stored
  · intro written member
    obtain ⟨old, stored, low, high⟩ := kept.numbered written member
    obtain ⟨new, found, became⟩ := grown.secrets _ old stored
    exact ⟨new, found, low, Nat.le_trans high (Nat.succ_le_succ became.version)⟩
  · intro wanted new found n low high
    obtain ⟨old, stored, same⟩ := back found
    exact kept.filled wanted old stored n low (same ▸ high)
  · intro own written member writer old stored above new found
    obtain ⟨old', stored', same⟩ := back found
    cases stored.symm.trans stored'
    exact same ▸ above

/-- All but the answers to the callers. -/
def Request.Silent : Request → Prop
  | .deliver _ _ => False
  | _ => True

theorem Request.Quiet.silent (quiet : request.Quiet) : request.Silent := by
  cases request <;> first | exact quiet.elim | trivial

theorem serve_failed {client : ι} {choice : Choice} {reply : Except Raised (Reply request)} {error : Raised}
    (silent : request.Silent) (failure : choice.failure = some error)
    (answered : serve backend client choice before request = some (reply, after)) :
    after = before ∨ ∃ now, after = before.advance now := by
  cases request with
  | deliver _ _ => exact silent.elim
  | pass now =>
    cases answered
    exact .inr ⟨now, rfl⟩
  | _ =>
    simp only [serve, failure, Option.some.injEq, Prod.mk.injEq] at answered
    exact .inl answered.2.symm

theorem inserted_leaves (property : Store ι → Prop) {table : String} {result : Option (Store ι)} {reply : Except Raised Unit}
    (answered : some (inserted table before result) = some (reply, after)) (refused : property before)
    (each : ∀ next, result = some next → property next) : property after := by
  cases result with
  | none =>
    cases answered
    exact refused
  | some next =>
    cases answered
    exact each _ rfl

theorem quiet_serve {client : ι} {choice : Choice} {reply : Except Raised (Reply request)}
    (quiet : request.Quiet) (kept : Kept backend before)
    (answered : serve backend client choice before request = some (reply, after)) :
    Moved backend before after := by
  have same : Moved backend before before := ⟨kept, .refl before, fun own => .refl own before⟩
  have beside {next : Store ι} (secrets : next.secrets = before.secrets) (versions : next.versions = before.versions)
      (answers : next.answers = before.answers) (grown : Grown before next) : Moved backend before next :=
    ⟨kept.beside secrets versions answers grown, grown, fun _ => .beside secrets⟩
  have advanced (now : Moment) : Moved backend before (before.advance now) := by
    apply beside _ _ _ (advance_grown now)
    all_goals
      unfold Store.advance
      split <;> rfl
  cases failure : choice.failure with
  | some error =>
    rcases serve_failed quiet.silent failure answered with rfl | ⟨now, rfl⟩
    · exact same
    · exact advanced now
  | none =>
    cases request with
    | insertVersion _ _ | setVersion _ _ _ | deliver _ _ => exact quiet.elim
    | pass now =>
      cases answered
      exact advanced now
    | archiveSecret secretId =>
      simp only [serve, failure, Option.some.injEq, Prod.mk.injEq] at answered
      exact answered.2 ▸ archive_kept kept secretId
    | revokeRefsOf _ | revokeRef _ =>
      simp only [serve, failure, Option.some.injEq, Prod.mk.injEq] at answered
      exact answered.2 ▸ beside rfl rfl rfl (revoke_grown _)
    | insertSecret secret =>
      simp only [serve, failure] at answered
      apply inserted_leaves (Moved backend before) answered same
      intro next done
      obtain ⟨secrets, stored, rfl⟩ := Option.map_eq_some_iff.mp done
      exact insertSecret_kept kept quiet stored
    | insertRef ref =>
      simp only [serve, failure] at answered
      apply inserted_leaves (Moved backend before) answered same
      intro next done
      obtain ⟨⟨refs, rfl⟩, grown⟩ := insertRef_grown done
      exact beside rfl rfl rfl grown
    | insertPolicy policy =>
      simp only [serve, failure] at answered
      apply inserted_leaves (Moved backend before) answered same
      intro next done
      obtain ⟨policies, stored, rfl⟩ := Option.map_eq_some_iff.mp done
      exact beside rfl rfl rfl (insertPolicy_grown stored)
    | insertAccess entry =>
      simp only [serve, failure] at answered
      apply inserted_leaves (Moved backend before) answered same
      intro next done
      obtain ⟨log, -, rfl⟩ := Option.map_eq_some_iff.mp done
      exact beside rfl rfl rfl (logged_grown log)
    | _ =>
      simp only [serve, failure] at answered
      cases answered
      exact same

theorem insertVersion_kept (kept : Kept backend store) (done : store.insertVersion written = some after)
    (decrypts : backend.decrypt written.row.encryptedValue written.row.keyId = .ok written.plaintext)
    (found : store.secrets.find written.row.secretId = some secret) (low : 1 ≤ written.row.version)
    (high : written.row.version ≤ secret.currentVersion + 1) :
    Moved backend store after ∧ written ∈ after.versions.list := by
  obtain ⟨free, list, versions, rfl⟩ := insertVersion_list done
  have list : versions.list = store.versions.list ++ [written] := list
  have member : written ∈ versions.list := by
    rw [list]
    exact List.mem_append_right _ List.mem_cons_self
  have grown : Grown store { store with versions := versions } := by
    refine { Grown.refl store with versions := ?_ }
    rw [list]
    exact List.subset_append_left _ _
  refine ⟨⟨⟨kept.positive, ?_, ?_, ?_, ?_, fun answer inside => (kept.answered answer inside).grown grown⟩, grown,
    fun _ => .beside rfl⟩, member⟩
  · intro other inside
    rw [list] at inside
    rcases List.mem_append.mp inside with old | new
    · exact kept.decrypts other old
    · exact List.mem_singleton.mp new ▸ decrypts
  · rw [list, List.map_append]
    refine List.nodup_append.mpr ⟨kept.distinct, List.nodup_singleton _, ?_⟩
    intro first old second new same
    obtain ⟨other, inside, rfl⟩ := List.mem_map.mp old
    rw [List.mem_singleton.mp new, Prod.mk.injEq] at same
    have taken := version_isSome inside same.1 same.2
    rw [free] at taken
    cases taken
  · intro other inside
    rw [list] at inside
    rcases List.mem_append.mp inside with old | new
    · exact kept.numbered other old
    · rw [List.mem_singleton.mp new]
      exact ⟨secret, found, low, high⟩
  · intro secretId other stored n above below
    obtain ⟨filling, inside, same⟩ := kept.filled secretId other stored n above below
    exact ⟨filling, grown.versions inside, same⟩

/-- A version that was written becomes the current one, and none in between. -/
theorem setVersion_kept (kept : Kept backend store)
    (member : written ∈ store.versions.list) (found : store.secrets.find written.row.secretId = some secret)
    (above : secret.currentVersion < written.row.version) (ts : Moment)
    (set : store.updateSecret written.row.secretId (Secret.setVersion written.row.version ts)
      (Secret.setVersion_id written.row.version ts) = after) :
    Kept backend after ∧ Grown store after ∧ (∀ own, own ≠ written.writer → Mine own store after) ∧
      Stands after written.row written.plaintext := by
  subst set
  have next : written.row.version = secret.currentVersion + 1 := by
    obtain ⟨other, stored, -, high⟩ := kept.numbered written member
    cases found.symm.trans stored
    omega
  have grown : Grown store (store.updateSecret written.row.secretId (Secret.setVersion written.row.version ts)
      (Secret.setVersion_id written.row.version ts)) := by
    apply updateSecret_grown
    intro other stored
    cases found.symm.trans stored
    exact ⟨rfl, rfl, above.le, fun active => active⟩
  have versions : (store.updateSecret written.row.secretId (Secret.setVersion written.row.version ts)
      (Secret.setVersion_id written.row.version ts)).versions = store.versions := rfl
  -- the secret is at the version, and the others are where they were
  have back {wanted : String} {new : Secret}
      (stored : (store.updateSecret written.row.secretId (Secret.setVersion written.row.version ts)
        (Secret.setVersion_id written.row.version ts)).secrets.find wanted = some new) :
      wanted = written.row.secretId ∧ new.currentVersion = written.row.version ∨
        wanted ≠ written.row.secretId ∧ store.secrets.find wanted = some new := by
    rw [find_updateSecret] at stored
    obtain ⟨old, before, rfl⟩ := Option.map_eq_some_iff.mp stored
    have key := (Rows.find_eq_some.mp before).2
    split
    next same => exact .inl ⟨key.symm.trans same, rfl⟩
    next other => exact .inr ⟨fun same => other (key.trans same), before⟩
  refine ⟨⟨?_, kept.decrypts, kept.distinct, ?_, ?_, fun answer inside => (kept.answered answer inside).grown grown⟩, grown, ?_, ?_⟩
  · intro wanted new stored
    rcases back stored with changed | unchanged
    · have low := kept.positive _ secret found
      omega
    · exact kept.positive wanted new unchanged.2
  · intro other inside
    obtain ⟨old, stored, low, high⟩ := kept.numbered other inside
    obtain ⟨new, stored, became⟩ := grown.secrets _ old stored
    exact ⟨new, stored, low, Nat.le_trans high (Nat.succ_le_succ became.version)⟩
  · intro wanted new stored n low high
    rcases back stored with changed | unchanged
    · obtain ⟨rfl, current⟩ := changed
      by_cases last : n = written.row.version
      · exact ⟨written, member, rfl, last.symm⟩
      · exact kept.filled _ secret found n low (by omega)
    · exact kept.filled wanted new unchanged.2 n low high
  · intro own foreign other pending writer old stored behind new stored'
    rcases back stored' with changed | unchanged
    · obtain ⟨same, current⟩ := changed
      rw [same] at stored
      cases found.symm.trans stored
      -- a pending version of this secret is the one that is set
      have number : other.row.version = written.row.version := by
        obtain ⟨row, stored, -, high⟩ := kept.numbered other pending
        rw [same] at stored
        cases found.symm.trans stored
        omega
      have same := kept.same pending member same number
      exact absurd (writer.symm.trans (congrArg Written.writer same)) foreign
    · cases stored.symm.trans unchanged.2
      exact behind
  · obtain ⟨new, stored, became⟩ := grown.secrets _ secret found
    refine ⟨written, member, rfl, rfl, new, stored, ?_⟩
    rcases back stored with changed | unchanged
    · exact changed.2.ge
    · exact absurd rfl unchanged.1

end Statements

variable {start : Store ι} {α : Type}

section Reading

variable {client : ι} {state : Store ι}

/-- Safe calls of one client, among the others and the observer. -/
abbrev Safe (backend : SecretBackend) (client : ι) {α : Type} (post : Except Raised α → Store ι → Prop) (program : Program α)
    (state : Store ι) : Prop :=
  (guarding backend).Safe (serve backend).observed (some client) post program state

theorem Moved.rely (moved : Moved backend before after) (client : Option ι) : (guarding backend).rely client before after :=
  guarding_rely backend moved.grown client fun own _ => moved.mine own

/-- What is known behind a call that began at `start`, of what it has returned if it has. -/
def Ends {α : Type} (start : Store ι) (property : α → Store ι → Prop) (result : Except Raised α) (final : Store ι) : Prop :=
  Grown start final ∧ ∀ value, result = .ok value → property value final

theorem Ends.error {final : Store ι} {property : α → Store ι → Prop} (grown : Grown start final) (error : Raised) :
    Ends start property (.error error) final := ⟨grown, fun _ raised => by cases raised⟩

theorem Ends.ok {final : Store ι} {property : α → Store ι → Prop} {value : α} (grown : Grown start final)
    (held : property value final) : Ends start property (.ok value) final := by
  refine ⟨grown, fun returned same => ?_⟩
  cases same
  exact held

theorem Ends.bind {β : Type} {program : Program α} {next : α → Program β} {held : α → Store ι → Prop}
    {property : β → Store ι → Prop} (grown : Grown start state) (safe : Safe backend client (Ends state held) program state)
    (returns : ∀ value mid, Grown state mid → Grown start mid → held value mid →
      Safe backend client (Ends start property) (next value) mid) :
    Safe backend client (Ends start property) (program.bind next) state := by
  apply Contract.Safe.andThen safe
  · exact fun error final ended => .error (grown.trans ended.1) error
  · exact fun value final ended => returns value final ended.1 (grown.trans ended.1) (ended.2 value rfl)

theorem quiet_safe {program : Program α} (only : program.Only Request.Quiet) (state : Store ι) :
    Safe backend client (Ends state fun _ _ => True) program state := by
  refine (Contract.Safe.only (guarding_refl backend (some client)) (guarding_trans backend (some client)) ?_ only (.trivial program)).weaken
    fun result final reached => ⟨reached.1.1, reached.2⟩
  intro request choice now reply after quiet kept _ answered
  have moved := quiet_serve quiet kept answered
  exact ⟨moved.kept, moved.rely⟩

/-- What the answer to a statement tells about the store. -/
def Tells (backend : SecretBackend) (store : Store ι) : (request : Request) → Reply request → Prop
  | .now, now => now = store.clock
  | .encrypt plaintext keyId, ciphertext => backend.decrypt ciphertext keyId = .ok plaintext
  | .decrypt ciphertext keyId, plaintext => backend.decrypt ciphertext keyId = .ok plaintext
  | .secret secretId, row => row = store.secrets.find secretId
  | .version secretId version, row => row = (store.version secretId version).map Written.row
  | .refByToken refToken, row => row = store.refByToken refToken
  | .classification secretId, row => row = (store.secrets.find secretId).map Secret.classification
  | .policies secretId classification, rows => rows = store.policiesFor secretId classification
  | _, _ => True

def Request.Reading : Request → Prop
  | .now | .encrypt _ _ | .decrypt _ _ | .secret _ | .version _ _ | .refByToken _ | .classification _ | .policies _ _ => True
  | _ => False

theorem reading_serve {choice : Choice} {reply : Except Raised (Reply request)} (reading : request.Reading)
    (answered : serve backend client choice before request = some (reply, after)) :
    after = before ∧ ∀ value, reply = .ok value → Tells backend before request value := by
  have told {value told : Reply request} (same : (Except.ok told : Except Raised _) = .ok value)
      (tells : Tells backend before request told) : Tells backend before request value := by
    cases same
    exact tells
  cases failure : choice.failure with
  | some error =>
    cases request with
    | now =>
      cases answered
      exact ⟨rfl, fun value same => told same rfl⟩
    | encrypt _ _ | decrypt _ _ | secret _ | version _ _ | refByToken _ | classification _ | policies _ _ =>
      simp only [serve, failure, Option.some.injEq, Prod.mk.injEq] at answered
      obtain ⟨rfl, rfl⟩ := answered
      exact ⟨rfl, fun value raised => by cases raised⟩
    | _ => exact reading.elim
  | none =>
    cases request with
    | encrypt plaintext keyId =>
      simp only [serve, failure] at answered
      cases answered
      exact ⟨rfl, fun value same => backend.decrypts _ _ _ _ same⟩
    | decrypt ciphertext keyId =>
      simp only [serve, failure] at answered
      cases answered
      exact ⟨rfl, fun value same => same⟩
    | now | secret _ | version _ _ | refByToken _ | classification _ | policies _ _ =>
      simp only [serve, failure, Option.some.injEq, Prod.mk.injEq] at answered
      obtain ⟨rfl, rfl⟩ := answered
      exact ⟨rfl, fun value same => told same rfl⟩
    | _ => exact reading.elim

theorem read_safe (reading : request.Reading) (state : Store ι) :
    Safe backend client (Ends state fun value final => Kept backend final ∧ Tells backend final request value)
      (Prog.perform request) state := by
  apply Contract.Safe.perform
  intro now kept moved _ choice reply after answered
  obtain ⟨rfl, tells⟩ := reading_serve reading answered
  exact ⟨kept, fun other _ => guarding_refl backend other _, moved.1, fun value same => ⟨kept, tells value same⟩⟩

/-- The secret as a call has read it, whose state was `start` before. -/
structure Available (start final : Store ι) (secretId : String) (secret : Secret) : Prop where
  positive : 1 ≤ secret.currentVersion
  stored : ∃ new, final.secrets.find secretId = some new ∧ secret.Became new
  seen : ∀ old, start.secrets.find secretId = some old →
    old.Became secret ∧ old.lifecycle = .active ∧ Unexpired old.expiresAt start.clock

theorem Available.grown (available : Available start before secretId secret)
    (grown : Grown before after) : Available start after secretId secret where
  positive := available.positive
  stored := by
    obtain ⟨new, found, became⟩ := available.stored
    obtain ⟨newer, found, became'⟩ := grown.secrets secretId new found
    exact ⟨newer, found, became.trans became'⟩
  seen := available.seen

theorem Unexpired.earlier {expiresAt : Option Aware} {now earlier : Moment} (unexpired : Unexpired expiresAt now)
    (before : earlier.instant ≤ now.instant) : Unexpired expiresAt earlier := by
  intro moment expires
  have after := unexpired moment expires
  omega

theorem Available.sooner {final : Store ι} (available : Available before final secretId secret)
    (grown : Grown start before) : Available start final secretId secret where
  positive := available.positive
  stored := available.stored
  seen := by
    intro old found
    obtain ⟨new, found, became⟩ := grown.secrets secretId old found
    obtain ⟨became', active, unexpired⟩ := available.seen new found
    exact ⟨became.trans became', became.active active, became.expiresAt ▸ unexpired.earlier grown.clock⟩

theorem getSecretOrRaise_safe (secretId : String) (state : Store ι) :
    Safe backend client (Ends state fun secret mid => Kept backend mid ∧ mid.secrets.find secretId = some secret)
      (getSecretOrRaise secretId) state := by
  apply Ends.bind (.refl state) (read_safe (show Request.Reading (.secret secretId) from trivial) state)
  intro row mid grown _ told
  have stored : row = mid.secrets.find secretId := told.2
  cases row with
  | none => exact .error grown _
  | some secret => exact .ok grown ⟨told.1, stored.symm⟩

theorem requireActiveSecret_safe (secretId : String) (state : Store ι) :
    Safe backend client (Ends state fun secret final => Available state final secretId secret)
      (requireActiveSecret secretId false) state := by
  apply Ends.bind (.refl state) (getSecretOrRaise_safe secretId state)
  intro secret mid grown _ stored
  obtain ⟨kept, stored⟩ := stored
  -- the row is what became of any that was there before
  have seen (old : Secret) (found : state.secrets.find secretId = some old) : old.Became secret := by
    obtain ⟨new, found', became⟩ := grown.secrets secretId old found
    cases stored.symm.trans found'
    exact became
  show Safe backend client _ (if secret.lifecycle ≠ .active then _ else _) mid
  by_cases active : secret.lifecycle = .active
  · rw [if_neg (not_not.mpr active), if_neg Bool.false_ne_true]
    have available {final : Store ι} (later : Grown mid final) (unexpired : Unexpired secret.expiresAt state.clock) :
        Available state final secretId secret := by
      refine ⟨kept.positive secretId secret stored, later.secrets secretId secret stored, fun old found => ⟨seen old found, ?_⟩⟩
      exact ⟨(seen old found).active active, (seen old found).expiresAt ▸ unexpired⟩
    cases expiry : secret.expiresAt with
    | none =>
      refine .ok grown (available (.refl mid) ?_)
      intro moment expires
      cases expiry.symm.trans expires
    | some expiresAt =>
      apply Ends.bind grown (read_safe (show Request.Reading .now from trivial) mid)
      intro now final later grown told
      have clock : now = final.clock := told.2
      split
      · exact .error grown _
      next unexpired =>
        refine .ok grown (available later ?_)
        intro moment expires
        cases expiry.symm.trans expires
        have before := grown.clock
        rw [clock] at unexpired
        omega
  · rw [if_pos active]
    exact .error grown _

end Reading

section Writing

variable {client : ι} {state : Store ι}

/-- The version is there, written by the client, and nothing else has changed since it was missing. -/
def Inserted (backend : SecretBackend) (client : ι) (start : Store ι) (version : SecretVersion) (plaintext : String) (final : Store ι) :
    Prop :=
  ∃ now, Kept backend now ∧ Grown start now ∧ now.version version.secretId version.version = none ∧ final.secrets = now.secrets ∧
    ∃ written ∈ final.versions.list, written.row = version ∧ written.plaintext = plaintext ∧ written.writer = client

theorem insertVersion_safe (version : SecretVersion) (plaintext : String)
    (decrypts : backend.decrypt version.encryptedValue version.keyId = .ok plaintext)
    (ready : ∀ now, Kept backend now → Grown state now → now.version version.secretId version.version = none →
      ∃ secret, now.secrets.find version.secretId = some secret ∧ 1 ≤ version.version ∧ version.version ≤ secret.currentVersion + 1) :
    Safe backend client (Ends state fun _ => Inserted backend client state version plaintext)
      (Prog.perform (Request.insertVersion version plaintext)) state := by
  apply Contract.Safe.perform
  intro now kept moved _ choice reply after answered
  have failed (error : Raised) : Kept backend now ∧ (∀ other, other ≠ some client → (guarding backend).rely other now now) ∧
      Ends state (fun _ => Inserted backend client state version plaintext) (.error error : Except Raised Unit) now :=
    ⟨kept, fun other _ => guarding_refl backend other _, .error moved.1 error⟩
  cases failure : choice.failure with
  | some error =>
    simp only [Service.observed, Option.elim_some, serve, failure] at answered
    cases answered
    exact failed error
  | none =>
    simp only [Service.observed, Option.elim_some, serve, failure] at answered
    cases done : now.insertVersion ⟨version, plaintext, client⟩ with
    | none =>
      rw [done] at answered
      cases answered
      exact failed _
    | some next =>
      rw [done] at answered
      cases answered
      obtain ⟨free, -, versions, same⟩ := insertVersion_list done
      obtain ⟨secret, found, low, high⟩ := ready now kept moved.1 free
      obtain ⟨stepped, member⟩ := insertVersion_kept kept done decrypts found low high
      refine ⟨stepped.kept, fun other _ => stepped.rely other, .ok (moved.1.trans stepped.grown) ?_⟩
      exact ⟨now, kept, moved.1, free, by rw [same], _, member, rfl, rfl, rfl⟩

theorem setVersion_safe (own : written.writer = client) (member : written ∈ state.versions.list)
    (found : state.secrets.find written.row.secretId = some secret) (above : secret.currentVersion < written.row.version) (ts : Moment) :
    Safe backend client (Ends state fun _ final => Stands final written.row written.plaintext)
      (Prog.perform (Request.setVersion written.row.secretId written.row.version ts)) state := by
  apply Contract.Safe.perform
  intro now kept moved _ choice reply after answered
  obtain ⟨current, stored, -⟩ := moved.1.secrets _ secret found
  have pending := moved.2 written member own secret found above current stored
  cases failure : choice.failure with
  | some error =>
    simp only [Service.observed, Option.elim_some, serve, failure] at answered
    cases answered
    exact ⟨kept, fun other _ => guarding_refl backend other _, .error moved.1 error⟩
  | none =>
    simp only [Service.observed, Option.elim_some, serve, failure, Option.some.injEq, Prod.mk.injEq] at answered
    obtain ⟨rfl, set⟩ := answered
    obtain ⟨kept', grown, mine, stands⟩ := setVersion_kept kept (moved.1.versions member) stored pending ts set
    refine ⟨kept', fun other different => ?_, .ok (moved.1.trans grown) stands⟩
    apply guarding_rely backend grown
    rintro foreign rfl
    apply mine
    rintro rfl
    exact different (congrArg some own)

theorem record_only (vault : SecretVault) (call : AuditCall) : (vault.record call).Only Request.Quiet := by
  unfold SecretVault.record
  split
  · exact .bind (.perform trivial) fun _ => trivial
  · trivial

theorem record_safe (vault : SecretVault) (call : AuditCall) (value : α) {property : α → Store ι → Prop}
    (stable : ∀ before after, property value before → Grown before after → property value after) (grown : Grown start state)
    (held : property value state) : Safe backend client (Ends start property) (vault.record call >>= fun _ => pure value) state := by
  apply Ends.bind grown (quiet_safe (record_only vault call) state)
  exact fun _ final later grown _ => .ok grown (stable _ _ held later)

theorem rotate_safe (vault : SecretVault) (secretId newValue rotatedBy reason : String) (keyId : Option String) (state : Store ι) :
    Safe backend client (Ends state fun version final => Stands final version newValue)
      (vault.rotate secretId newValue rotatedBy reason keyId) state := by
  apply Ends.bind (.refl state) (requireActiveSecret_safe secretId state)
  intro secret first _ grown available
  apply Ends.bind grown (quiet_safe (.perform (show Request.Quiet .now from trivial)) first)
  intro ts second later grown _
  have available := available.grown later
  apply Ends.bind grown (read_safe (show Request.Reading (.encrypt newValue (vault.keyOr keyId)) from trivial) second)
  intro ciphertext third later grown decrypts
  have available := available.grown later
  apply Ends.bind grown (quiet_safe (.perform (show Request.Quiet .generateId from trivial)) third)
  intro vid fourth later grown _
  have available := available.grown later
  -- the number behind the one that was read is free only as long as that is the current one
  have next {now : Store ι} (kept : Kept backend now) (moved : Grown fourth now)
      (free : now.version secretId (secret.currentVersion + 1) = none) :
      ∃ row, now.secrets.find secretId = some row ∧ row.currentVersion = secret.currentVersion := by
    obtain ⟨row, found, became⟩ := (available.grown moved).stored
    refine ⟨row, found, Nat.le_antisymm ?_ became.version⟩
    by_contra further
    have low := kept.positive secretId row found
    have positive := available.positive
    obtain ⟨written, member, same, number⟩ := kept.filled secretId row found (secret.currentVersion + 1) (by omega) (by omega)
    have taken := version_isSome member same number
    rw [free] at taken
    cases taken
  refine Ends.bind grown (insertVersion_safe _ newValue decrypts.2 ?_) ?_
  · intro now kept moved free
    obtain ⟨current, found, number⟩ := next kept moved free
    exact ⟨current, found, Nat.succ_pos _, by rw [number]⟩
  · intro _ fifth _ grown inserted
    obtain ⟨now, kept, moved, free, same, written, member, row, rfl, own⟩ := inserted
    obtain ⟨current, found, number⟩ := next kept moved free
    have found : fifth.secrets.find written.row.secretId = some current := by
      rw [row, same]
      exact found
    have above : current.currentVersion < written.row.version := by
      rw [row, number]
      exact Nat.lt_succ_self _
    have set : Safe backend client _ _ fifth := setVersion_safe own member found above ts
    rw [row] at set
    apply Ends.bind grown set
    intro _ sixth _ grown stands
    exact record_safe vault _ _ (fun before after held grown => held.grown grown) grown stands

theorem insertSecret_safe (first : secret.currentVersion = 1) (state : Store ι) :
    Safe backend client (Ends state fun _ final => final.secrets.find secret.id = some secret)
      (Prog.perform (Request.insertSecret secret)) state := by
  apply Contract.Safe.perform
  intro now kept rely _ choice reply after answered
  have moved := quiet_serve (show Request.Quiet (.insertSecret secret) from first) kept answered
  refine ⟨moved.kept, fun other _ => moved.rely other, rely.1.trans moved.grown, fun value same => ?_⟩
  subst same
  cases failure : choice.failure with
  | some error =>
    simp only [Service.observed, Option.elim_some, serve, failure] at answered
    cases answered
  | none =>
    simp only [Service.observed, Option.elim_some, serve, failure] at answered
    cases stored : now.secrets.insert secret with
    | none =>
      rw [stored] at answered
      cases answered
    | some secrets =>
      rw [stored] at answered
      cases answered
      exact (Rows.find_insert stored secret.id).trans (if_pos rfl)

theorem archive_safe (found : state.secrets.find secretId = some secret) :
    Safe backend client (Ends state fun _ final => ∃ secret, final.secrets.find secretId = some secret ∧ secret.lifecycle ≠ .active)
      (Prog.perform (Request.archiveSecret secretId)) state := by
  apply Contract.Safe.perform
  intro now kept rely _ choice reply after answered
  have moved := quiet_serve (show Request.Quiet (.archiveSecret secretId) from trivial) kept answered
  refine ⟨moved.kept, fun other _ => moved.rely other, rely.1.trans moved.grown, fun value same => ?_⟩
  subst same
  cases failure : choice.failure with
  | some error =>
    simp only [Service.observed, Option.elim_some, serve, failure] at answered
    cases answered
  | none =>
    simp only [Service.observed, Option.elim_some, serve, failure, Option.some.injEq, Prod.mk.injEq] at answered
    obtain ⟨-, rfl⟩ := answered
    obtain ⟨row, stored, -⟩ := rely.1.secrets secretId secret found
    rw [find_updateSecret, stored, Option.map_some, if_pos (Rows.find_eq_some.mp stored).2]
    exact ⟨_, rfl, nofun⟩

theorem createSecret_safe (vault : SecretVault) (name plaintextValue ownerId description classification : String)
    (expiresAt : Option Aware) (keyId : Option String) (state : Store ι) :
    Safe backend client (Ends state fun created final => Stands final created.2 plaintextValue)
      (vault.createSecret name plaintextValue ownerId description classification expiresAt keyId) state := by
  unfold SecretVault.createSecret
  split
  · exact .error (.refl state) _
  apply Ends.bind (.refl state) (quiet_safe (.perform (by trivial)) state)
  intro ts now _ grown _
  apply Ends.bind grown (quiet_safe (.perform (by trivial)) now)
  intro sid now _ grown _
  apply Ends.bind grown (quiet_safe (.ofExcept (coerceClassification classification)) now)
  intro secretClassification now _ grown _
  apply Ends.bind grown (quiet_safe (.perform (by trivial)) now)
  intro objectId now _ grown _
  apply Ends.bind grown (read_safe (show Request.Reading (.encrypt plaintextValue (vault.keyOr keyId)) from trivial) now)
  intro ciphertext second _ grown decrypts
  apply Ends.bind grown (insertSecret_safe rfl second)
  intro _ third _ grown stored
  apply Ends.bind grown (quiet_safe (.perform (show Request.Quiet .generateId from trivial)) third)
  intro vid fourth later grown _
  obtain ⟨secret, stored, -⟩ := later.secrets _ _ stored
  refine Ends.bind grown (insertVersion_safe _ plaintextValue decrypts.2 ?_) ?_
  · intro now kept moved free
    obtain ⟨row, found, -⟩ := moved.secrets _ _ stored
    exact ⟨row, found, Nat.le_refl 1, Nat.le_add_left 1 _⟩
  · intro _ fifth _ grown inserted
    obtain ⟨now, kept, moved, free, same, written, member, row, value, own⟩ := inserted
    obtain ⟨current, found, -⟩ := moved.secrets _ _ stored
    apply record_safe vault _ _ (fun before after held grown => held.grown grown) grown
    refine ⟨written, member, row, value, current, ?_, kept.positive _ current found⟩
    rw [same]
    exact found

theorem archiveSecret_safe (vault : SecretVault) (secretId actorId : String) (state : Store ι) :
    Safe backend client (Ends state fun _ final => ∃ secret, final.secrets.find secretId = some secret ∧ secret.lifecycle ≠ .active)
      (vault.archiveSecret secretId actorId) state := by
  apply Ends.bind (.refl state) (getSecretOrRaise_safe secretId state)
  intro secret first _ grown stored
  apply Ends.bind grown (archive_safe stored.2)
  intro _ second _ grown inactive
  apply Ends.bind grown (quiet_safe (.perform (show Request.Quiet (.revokeRefsOf secretId) from trivial)) second)
  intro _ third later grown _
  apply (quiet_safe (record_only vault _) third).weaken
  intro result final recorded
  exact ⟨grown.trans recorded.1, fun _ _ => inactive_grown inactive (later.trans recorded.1)⟩

end Writing

section Quiet

variable (vault : SecretVault)

theorem Request.Reading.quiet (reading : request.Reading) : request.Quiet := by
  cases request <;> first | exact reading.elim | trivial

theorem reads_only {program : Program α} (only : program.Only Request.Reading) : program.Only Request.Quiet :=
  only.weaken fun _ reading => reading.quiet

theorem getPoliciesForSecret_only (secretId : String) : (getPoliciesForSecret secretId).Only Request.Reading := by
  apply Prog.Only.bind (.perform trivial)
  intro row
  cases row with
  | none => trivial
  | some classification => exact .perform trivial

theorem checkAllowed_only (field : SecretPolicy → List String) (secretId wanted : String) :
    (checkAllowed field secretId wanted).Only Request.Reading :=
  .bind (getPoliciesForSecret_only secretId) fun _ => trivial

theorem requireActiveSecret_only (secretId : String) (allowExpired : Bool) :
    (requireActiveSecret secretId allowExpired).Only Request.Reading := by
  apply Prog.Only.bind
  · apply Prog.Only.bind (.perform trivial)
    intro row
    cases row <;> trivial
  · intro secret
    split
    · trivial
    split
    · trivial
    split
    · trivial
    · apply Prog.Only.bind (.perform trivial)
      intro now
      split <;> trivial

theorem enforceOnGrant_only (field : SecretPolicy → List String) (unspecified refused key secretId : String)
    (policies : List SecretPolicy) (given : Option String) :
    (SecretVault.enforceOnGrant field unspecified refused key secretId policies given).Only Request.Reading := by
  unfold SecretVault.enforceOnGrant
  split
  · split
    · trivial
    · apply Prog.Only.bind (checkAllowed_only _ _ _)
      intro allowed
      split <;> trivial
  · trivial

theorem grantRef_only (secretId grantedTo grantedBy : String) (scopeId environmentId : Option String) (expiresAt : Option Aware) :
    (vault.grantRef secretId grantedTo grantedBy scopeId environmentId expiresAt).Only Request.Quiet := by
  apply Prog.Only.bind (reads_only (requireActiveSecret_only _ _))
  intro _
  apply Prog.Only.bind
  · apply reads_only
    unfold SecretVault.enforcePolicyRestrictionsOnGrant
    split
    · apply Prog.Only.bind (getPoliciesForSecret_only _)
      intro policies
      split
      · exact .bind (enforceOnGrant_only _ _ _ _ _ _ _) fun _ => enforceOnGrant_only _ _ _ _ _ _ _
      · trivial
    · trivial
  · intro _
    exact .bind (.perform trivial) fun _ => .bind (.perform trivial) fun _ => .bind (.perform trivial) fun _ =>
      .bind (.perform trivial) fun _ => .bind (record_only vault _) fun _ => trivial

theorem createPolicy_only (createdBy : String) (secretId classification : Option String) (maxAgeSeconds : Option Int)
    (autoRotate : Bool) (allowedScopes allowedEnvs : Option (List String)) :
    (createPolicy createdBy secretId classification maxAgeSeconds autoRotate allowedScopes allowedEnvs).Only Request.Quiet := by
  apply Prog.Only.bind (.ofExcept _)
  intro restrictions
  apply Prog.Only.bind
  · cases secretId with
    | none => trivial
    | some secretId =>
      apply Prog.Only.bind (.perform trivial)
      intro row
      split <;> trivial
  · intro _
    exact .bind (.perform trivial) fun _ => .bind (.perform trivial) fun _ => .bind (.perform trivial) fun _ => trivial

theorem logAccess_only (secretId : String) (refId : Option String) (access : Access) (accessType : String) (result : AccessResult) :
    (logAccess secretId refId access accessType result).Only Request.Quiet :=
  .bind (.perform trivial) fun _ => .bind (.perform trivial) fun _ => .perform trivial

theorem enforceOnResolve_only (field : SecretPolicy → List String) (refused key secretId : String) (policies : List SecretPolicy)
    (given : Option String) : (SecretVault.enforceOnResolve field refused key secretId policies given).Only Request.Reading := by
  unfold SecretVault.enforceOnResolve
  split
  · dsimp only
    split
    · trivial
    · apply Prog.Only.bind (checkAllowed_only _ _ _)
      intro allowed
      split <;> trivial
  · trivial

theorem enforcePolicies_only (secretId : String) (access : Access) :
    (vault.enforcePolicyRestrictionsOnResolve secretId access).Only Request.Reading := by
  unfold SecretVault.enforcePolicyRestrictionsOnResolve
  split
  · apply Prog.Only.bind (getPoliciesForSecret_only _)
    intro policies
    split
    · exact .bind (enforceOnResolve_only _ _ _ _ _ _) fun _ => enforceOnResolve_only _ _ _ _ _ _
    · trivial
  · trivial

theorem reveal_only (ref : SecretRef) (access : Access) : (vault.reveal ref access).Only Request.Quiet := by
  apply Prog.Only.bind (reads_only (requireActiveSecret_only _ _))
  intro secret
  apply Prog.Only.bind (reads_only (enforcePolicies_only vault _ _))
  intro _
  apply Prog.Only.bind (.perform trivial)
  intro row
  cases row with
  | none => trivial
  | some version =>
    exact .bind (.perform trivial) fun _ => .bind (logAccess_only _ _ _ _ _) fun _ => .bind (record_only vault _) fun _ => trivial

theorem resolve_only (refToken : String) (access : Access) : (vault.resolve refToken access).Only Request.Quiet := by
  have denied (ref : SecretRef) (result : AccessResult) (error : Raised) :
      (SecretVault.deny ref access result error).Only Request.Quiet := .bind (logAccess_only _ _ _ _ _) fun _ => trivial
  apply Prog.Only.bind (.perform trivial)
  intro row
  cases row with
  | none => trivial
  | some ref =>
    show Prog.Only _ (if ref.lifecycle ≠ .active then _ else _)
    split
    · exact denied _ _ _
    · apply Prog.Only.bind (.perform trivial)
      intro now
      split
      · exact denied _ _ _
      · exact reveal_only vault ref access

theorem archiveSecret_only (secretId actorId : String) : (vault.archiveSecret secretId actorId).Only Request.Quiet := by
  apply Prog.Only.bind
  · apply Prog.Only.bind (.perform trivial)
    intro row
    cases row <;> trivial
  · exact fun _ => .bind (.perform trivial) fun _ => .bind (.perform trivial) fun _ => record_only vault _

theorem revokeRef_only (refId revokedBy : String) : (vault.revokeRef refId revokedBy).Only Request.Quiet :=
  .bind (.perform trivial) fun _ => record_only vault _

end Quiet

end PyScoped.Legacy.Vault
