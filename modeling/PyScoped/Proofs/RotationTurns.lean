import PyScoped.Foundation.StableOrder
import PyScoped.Foundation.TimeOrder
import PyScoped.Legacy.Rotation

/-! What one call of the automatic rotation of version 1 brings about. It has as
many turns as actions are due, and the jobs that were queued before take theirs
first; each turn rotates the secrets that it names and that are overdue. -/

namespace PyScoped.Legacy.Rotation
open Foundation

/-- What a turn of the queue asks of the executor. -/
structure Ticket where
  actionType : String
  actionConfig : Json

def Ticket.names (ticket : Ticket) (secret : Secret) : Bool :=
  ticket.actionType = rotationActionType &&
    match ticket.actionConfig with
    | .obj members => match members.lookup "secret_id" with
      | some (.str secretId) => secretId = secret.id.text
      | _ => false
    | _ => false

def ticketOf (job : JobQueue.Job) : Ticket := ⟨job.actionType, job.actionConfig.getD (.obj [])⟩

/-- Active and not expired. -/
def Secret.usable (secret : Secret) (now : Moment) : Bool :=
  secret.lifecycle = .active && secret.expiresAt.all fun expiresAt => now.instant < expiresAt.instant

/-- A secret that a rotation may replace and that is older than one of its policies allows. -/
def Store.overdue (store : Store) (now : Moment) (secret : Secret) : Bool := secret.usable now && store.isExceeded now secret

namespace Store

/-- What the tables and the generated identifiers owe to the calls that have written them. -/
structure Sound (store : Store) : Prop where
  fresh : Function.Injective store.ids
  versionIds : ∀ version ∈ store.versions.list, ∀ n, version.id ≠ store.ids n
  actionIds : ∀ action ∈ store.actions.list, ∀ n, action.id ≠ store.ids n
  jobIds : ∀ job ∈ store.jobs.list, ∀ n, job.id ≠ store.ids n
  numbered : ∀ version ∈ store.versions.list, ∀ secret ∈ store.secrets.list, version.secretId = secret.id →
    version.version ≤ secret.currentVersion
  ages : ∀ policy ∈ store.policies.list, ∀ maxAge, policy.maxAgeSeconds = some maxAge → 0 ≤ maxAge

end Store

theorem totalSeconds_zero : totalSeconds 0 = 0 := by
  decide +kernel

variable {now : Moment} {store after : Store}

theorem isExceeded_rotated (sound : store.Sound) (secret : Secret) (newVersion : Nat) :
    store.isExceeded now (secret.rotated now newVersion) = false := by
  rw [Store.isExceeded, List.any_eq_false]
  intro policy member
  have listed : policy ∈ store.policies.list := by
    rw [Store.policiesForSecret, List.mem_insertionSort] at member
    exact (List.mem_filter.mp member).1
  unfold SecretPolicy.exceeded
  cases given : policy.maxAgeSeconds with
  | none => simp
  | some maxAge =>
    have bound := sound.ages policy listed maxAge given
    simp [Secret.rotated, Secret.lastRotated, totalSeconds_zero, bound]

/-- What the tickets make of a secret. -/
def Store.serve (store : Store) (now : Moment) (tickets : List Ticket) (secret : Secret) : Secret :=
  if tickets.any (·.names secret) && store.overdue now secret then secret.rotated now (secret.currentVersion + 1) else secret

/-- What calls have brought about that had these tickets their turn, one after the other. -/
structure Served (now : Moment) (tickets : List Ticket) (store after : Store) : Prop where
  secrets : after.secrets.list = store.secrets.list.map (store.serve now tickets)
  policies : after.policies = store.policies
  versions : ∀ version ∈ after.versions.list, version ∈ store.versions.list ∨
    ∃ secret ∈ store.secrets.list, secret.id = version.secretId ∧ store.overdue now secret = true
  sound : after.Sound

theorem Store.serve_id (tickets : List Ticket) (secret : Secret) : (store.serve now tickets secret).id = secret.id := by
  unfold Store.serve
  split <;> rfl

theorem overdue_congr (same : after.policies = store.policies) : after.overdue now = store.overdue now := by
  funext secret
  simp only [Store.overdue, Store.isExceeded, Store.policiesForSecret, same]

theorem Store.serve_congr (same : after.policies = store.policies) (tickets : List Ticket) :
    after.serve now tickets = store.serve now tickets := by
  funext secret
  simp only [Store.serve, overdue_congr same]

theorem Store.serve_nil : store.serve now [] = id := by
  funext secret
  simp [Store.serve]

theorem Store.serve_append (sound : store.Sound) (first second : List Ticket) (secret : Secret) :
    store.serve now second (store.serve now first secret) = store.serve now (first ++ second) secret := by
  unfold Store.serve
  by_cases named : (first.any (·.names secret) && store.overdue now secret) = true
  · have rotated : store.overdue now (secret.rotated now (secret.currentVersion + 1)) = false := by
      rw [Store.overdue, isExceeded_rotated sound, Bool.and_false]
    obtain ⟨turn, due⟩ := Bool.and_eq_true_iff.mp named
    rw [if_pos named, rotated, Bool.and_false, if_neg Bool.false_ne_true, List.any_append, turn, due]
    rfl
  · rw [if_neg named, List.any_append]
    cases due : store.overdue now secret with
    | false => simp
    | true =>
      have turn : first.any (·.names secret) = false := by simpa [due] using named
      rw [turn, Bool.false_or]

namespace Served

theorem refl (sound : store.Sound) : Served now [] store store where
  secrets := by rw [Store.serve_nil, List.map_id]
  policies := rfl
  versions _ member := .inl member
  sound := sound

theorem trans {middle : Store} {first second : List Ticket} (sound : store.Sound) (served : Served now first store middle)
    (served' : Served now second middle after) : Served now (first ++ second) store after where
  secrets := by
    rw [served'.secrets, served.secrets, List.map_map, Store.serve_congr served.policies]
    exact List.map_congr_left fun secret _ => Store.serve_append sound first second secret
  policies := served'.policies.trans served.policies
  versions := by
    intro version member
    rcases served'.versions version member with inside | ⟨secret, present, same, due⟩
    · exact served.versions version inside
    · right
      rw [served.secrets] at present
      obtain ⟨original, listed, rfl⟩ := List.mem_map.mp present
      rw [overdue_congr served.policies] at due
      refine ⟨original, listed, (Store.serve_id first original).symm.trans same, ?_⟩
      unfold Store.serve at due
      split at due
      · rw [Store.overdue, isExceeded_rotated sound, Bool.and_false] at due
        cases due
      · exact due
  sound := served'.sound

end Served
variable {secret : Secret}

section Executor

variable (worker : Worker)

theorem generateId_on (store : Store) :
    generateId.on store = (.ok (store.ids 0), { store with ids := fun n => store.ids (n + 1) }) := rfl

theorem Store.Sound.drawn (sound : store.Sound) : ({ store with ids := fun n => store.ids (n + 1) } : Store).Sound where
  fresh _ _ same := Nat.succ_injective (sound.fresh same)
  versionIds version member n := sound.versionIds version member (n + 1)
  actionIds action member n := sound.actionIds action member (n + 1)
  jobIds job member n := sound.jobIds job member (n + 1)
  numbered := sound.numbered
  ages := sound.ages

theorem requireActiveSecret_usable {secretId : String} (usable : secret.usable now = true) :
    requireActiveSecret now secretId (some secret) = .ok secret := by
  obtain ⟨active, unexpired⟩ := Bool.and_eq_true_iff.mp usable
  dsimp only [requireActiveSecret]
  rw [if_neg (not_not.mpr (of_decide_eq_true active))]
  cases given : secret.expiresAt with
  | none => rfl
  | some expiresAt =>
    have later : now.instant < expiresAt.instant := by simpa [given] using unexpired
    exact if_neg (Int.not_le.mpr later)

theorem requireActiveSecret_unusable (secretId : String) (unusable : secret.usable now = false) :
    ∃ error, requireActiveSecret now secretId (some secret) = .error error := by
  dsimp only [requireActiveSecret]
  split
  · exact ⟨_, rfl⟩
  next active =>
    have active : secret.lifecycle = .active := not_not.mp active
    cases given : secret.expiresAt with
    | none => simp [Secret.usable, active, given] at unusable
    | some expiresAt =>
      have passed : expiresAt.instant ≤ now.instant := by simpa [Secret.usable, active, given] using unusable
      exact ⟨_, if_pos passed⟩

theorem secretRow_some {secretId : Json} (found : store.secretRow secretId = .ok (some secret)) :
    secret ∈ store.secrets.list ∧ secretId = .str secret.id.text := by
  unfold Store.secretRow at found
  split at found
  · next text =>
    have found : store.secrets.list.find? (fun secret => secret.id.text = text) = some secret := Except.ok.inj found
    have same : secret.id.text = text := by simpa using List.find?_some found
    exact ⟨List.mem_of_find?_eq_some found, by rw [same]⟩
  · split at found <;> cases found
  all_goals cases found

theorem secretRow_member (member : secret ∈ store.secrets.list) :
    store.secretRow (.str secret.id.text) = .ok (some secret) := by
  have present : (store.secrets.list.find? fun other => other.id.text = secret.id.text).isSome :=
    List.find?_isSome.mpr ⟨secret, member, by simp⟩
  obtain ⟨other, found⟩ := Option.isSome_iff_exists.mp present
  have same : other.id.text = secret.id.text := by simpa using List.find?_some found
  have equal : other = secret :=
    List.inj_on_of_nodup_map store.secrets.unique (List.mem_of_find?_eq_some found) member (ScopedId.ext same)
  rw [Store.secretRow, found, equal]

/-- The row of the new version of a secret, behind those of the store. -/
structure Recorded (store : Store) (secret : Secret) (version : SecretVersion) (versions : Rows SecretVersion.id) : Prop where
  list : versions.list = store.versions.list ++ [version]
  id : version.id = store.ids 0
  secretId : version.secretId = secret.id
  number : version.version = secret.currentVersion + 1

/-- The store behind a rotation. -/
def Store.rotated (store : Store) (now : Moment) (secret : Secret) (versions : Rows SecretVersion.id) : Store :=
  ({ store with ids := fun n => store.ids (n + 1), versions := versions } : Store).setRotated now secret.id
    (secret.currentVersion + 1)

/-- A rotation of a secret that may be used goes through. -/
theorem rotate_on (sound : store.Sound) (member : secret ∈ store.secrets.list)
    (usable : secret.usable now = true) (newValue rotatedBy reason : String) :
    ∃ version versions, (rotate worker now secret.id.text newValue rotatedBy reason).on store =
      (.ok version, store.rotated now secret versions) ∧ Recorded store secret version versions := by
  have numbered : (store.versions.list.any fun other =>
      other.secretId = secret.id && other.version = secret.currentVersion + 1) = false := by
    rw [List.any_eq_false]
    intro other inside
    have bound := sound.numbered other inside secret member
    simp only [Bool.and_eq_true, decide_eq_true_eq, not_and]
    intro same next
    have bound := bound same
    omega
  let version : SecretVersion :=
    { id := store.ids 0, secretId := secret.id, version := secret.currentVersion + 1, encryptedValue := worker.encrypt newValue
      encryptionAlgo := worker.algorithm, keyId := worker.defaultKeyId, createdAt := now, createdBy := rotatedBy
      reason := reason }
  cases inserted : store.versions.insert version with
  | none =>
    obtain ⟨other, found⟩ := Option.isSome_iff_exists.mp (Rows.insert_eq_none.mp inserted)
    obtain ⟨inside, same⟩ := Rows.find_eq_some.mp found
    exact absurd same (sound.versionIds other inside 0)
  | some versions =>
    refine ⟨version, versions, ?_, (Rows.insert_eq_some inserted).2, rfl, rfl, rfl⟩
    simp only [rotate, Stateful.on_bind, Stateful.on_get, Stateful.on_lift, secretRow_member member,
      requireActiveSecret_usable usable, generateId_on, insertVersion, numbered, Bool.false_eq_true, ↓reduceIte]
    simp only [version] at inserted
    simp only [inserted, Stateful.on_set, Stateful.on_modify, Stateful.on_pure]
    rfl

theorem Served.idle (sound : store.Sound) {ticket : Ticket}
    (idle : ∀ secret ∈ store.secrets.list, ticket.names secret = true → store.overdue now secret = false) :
    Served now [ticket] store store where
  secrets := by
    have same : ∀ secret ∈ store.secrets.list, store.serve now [ticket] secret = secret := by
      intro secret member
      refine if_neg ?_
      intro named
      obtain ⟨turn, due⟩ := Bool.and_eq_true_iff.mp named
      have turn : ticket.names secret = true := by simpa using turn
      rw [idle secret member turn] at due
      cases due
    exact ((List.map_congr_left same).trans (List.map_id _)).symm
  policies := rfl
  versions _ member := .inl member
  sound := sound

theorem names_str {members : List (String × Json)} {secretId : String}
    (given : members.lookup "secret_id" = some (.str secretId)) (secret : Secret) :
    Ticket.names ⟨rotationActionType, .obj members⟩ secret = decide (secretId = secret.id.text) := by
  simp [Ticket.names, given]

/-- A turn that names an overdue secret rotates it. -/
theorem Served.rotated (sound : store.Sound) {ticket : Ticket} (member : secret ∈ store.secrets.list)
    (named : ∀ other, ticket.names other = decide (secret.id.text = other.id.text)) (due : store.overdue now secret = true)
    {version : SecretVersion} {versions : Rows SecretVersion.id} (recorded : Recorded store secret version versions) :
    Served now [ticket] store (store.rotated now secret versions) := by
  have secrets : (store.rotated now secret versions).secrets.list = store.secrets.list.map (store.serve now [ticket]) := by
    refine List.map_congr_left fun other inside => ?_
    by_cases same : other.id = secret.id
    · have equal : other = secret := List.inj_on_of_nodup_map store.secrets.unique inside member same
      subst equal
      rw [Store.serve, due, if_pos (decide_eq_true rfl), if_pos (by simp [named])]
    · have foreign : ticket.names other = false := by
        rw [named, decide_eq_false_iff_not]
        exact fun texts => same (ScopedId.ext texts.symm)
      rw [Store.serve, if_neg (by simpa using same), if_neg (by simp [foreign])]
  refine ⟨secrets, rfl, ?_, ?_⟩
  · intro written inside
    have inside : written ∈ versions.list := inside
    rw [recorded.list, List.mem_append, List.mem_singleton] at inside
    rcases inside with before | rfl
    · exact .inl before
    · exact .inr ⟨secret, member, recorded.secretId.symm, due⟩
  · have drawn := sound.drawn
    refine ⟨drawn.fresh, ?_, drawn.actionIds, drawn.jobIds, ?_, drawn.ages⟩
    · intro written inside n
      have inside : written ∈ versions.list := inside
      rw [recorded.list, List.mem_append, List.mem_singleton] at inside
      rcases inside with before | rfl
      · exact drawn.versionIds written before n
      · rw [recorded.id]
        exact fun same => absurd (sound.fresh same) (by omega)
    · intro written inside row present same
      have inside : written ∈ versions.list := inside
      rw [secrets] at present
      obtain ⟨original, listed, rfl⟩ := List.mem_map.mp present
      rw [recorded.list, List.mem_append, List.mem_singleton] at inside
      rw [Store.serve_id] at same
      have grown : original.currentVersion ≤ (store.serve now [ticket] original).currentVersion := by
        unfold Store.serve
        split
        · exact Nat.le_succ _
        · exact Nat.le_refl _
      rcases inside with before | rfl
      · exact (sound.numbered written before original listed same).trans grown
      · have equal : original = secret :=
          List.inj_on_of_nodup_map store.secrets.unique listed member (same.symm.trans recorded.secretId)
        subst equal
        have step : store.serve now [ticket] original = original.rotated now (original.currentVersion + 1) := by
          rw [Store.serve, due, if_pos (by simp [named])]
        rw [step, recorded.number]
        exact Nat.le_refl _

theorem needsRotation_on (secretId : Json) : (needsRotation now secretId).on store =
    ((store.secretRow secretId).map fun row => row.any (store.isExceeded now), store) := by
  unfold needsRotation
  rw [Stateful.on_bind, Stateful.on_get]
  dsimp only
  rw [Stateful.on_bind, Stateful.on_lift]
  cases store.secretRow secretId with
  | error error => rfl
  | ok row => cases row <;> rfl

theorem names_iff {ticket : Ticket} : ticket.names secret = true ↔ ticket.actionType = rotationActionType ∧
    ∃ members, ticket.actionConfig = .obj members ∧ members.lookup "secret_id" = some (.str secret.id.text) := by
  constructor
  · intro named
    obtain ⟨actionType, rest⟩ := Bool.and_eq_true_iff.mp named
    refine ⟨of_decide_eq_true actionType, ?_⟩
    split at rest
    next members config =>
      split at rest
      next secretId given => exact ⟨members, config, by rw [given, of_decide_eq_true rest]⟩
      · cases rest
    · cases rest
  · rintro ⟨actionType, members, config, given⟩
    simp [Ticket.names, actionType, config, given]

theorem truthy_id (secret : Secret) : truthy (.str secret.id.text) = true := by
  have full := secret.id.length
  apply decide_eq_true
  intro empty
  rw [empty] at full
  cases full

theorem execute_rotates (sound : store.Sound) {members : List (String × Json)}
    (given : members.lookup "secret_id" = some (.str secret.id.text)) (inside : secret ∈ store.secrets.list)
    (due : store.overdue now secret = true) :
    ∃ result version versions, (execute worker now rotationActionType (.obj members)).on store =
      (.ok result, store.rotated now secret versions) ∧ Recorded store secret version versions := by
  obtain ⟨usable, exceeded⟩ := Bool.and_eq_true_iff.mp due
  obtain ⟨version, versions, ran, recorded⟩ := rotate_on worker sound inside usable (worker.generate secret.id.text)
    "system:auto-rotation" "auto-rotation policy"
  refine ⟨.obj [("rotated", .bool true), ("secret_id", .str secret.id.text), ("new_version", .int version.version)], version,
    versions, ?_, recorded⟩
  unfold execute
  rw [if_neg (not_not.mpr rfl), Stateful.on_bind, Stateful.on_lift, member]
  dsimp only
  rw [given, Option.getD_some, if_pos (truthy_id secret), Stateful.on_bind, needsRotation_on, secretRow_member inside]
  simp only [Except.map, Option.any_some, exceeded]
  rw [Stateful.on_bind, ran]
  rfl

/-- Where nothing is overdue that it names, the executor leaves the tables alone. -/
theorem execute_idle {actionType : String} {actionConfig : Json}
    (idle : ∀ secret ∈ store.secrets.list, Ticket.names ⟨actionType, actionConfig⟩ secret = true →
      store.overdue now secret = false) : ((execute worker now actionType actionConfig).on store).2 = store := by
  unfold execute
  split
  · rfl
  next same =>
    rw [Stateful.on_bind, Stateful.on_lift]
    cases given : member actionConfig "secret_id" with
    | error error => rfl
    | ok secretId =>
      dsimp only
      split
      · rw [Stateful.on_bind, needsRotation_on]
        cases found : store.secretRow (secretId.getD .null) with
        | error error => rfl
        | ok row =>
          cases row with
          | none => cases secretId.getD .null <;> rfl
          | some secret =>
            obtain ⟨inside, spoken⟩ := secretRow_some found
            rw [spoken]
            cases exceeded : store.isExceeded now secret with
            | false => simp [Except.map, exceeded]
            | true =>
              have named : Ticket.names ⟨actionType, actionConfig⟩ secret = true := by
                refine names_iff.mpr ⟨not_not.mp same, ?_⟩
                cases actionConfig with
                | obj members =>
                  refine ⟨members, rfl, ?_⟩
                  have given : members.lookup "secret_id" = secretId := Except.ok.inj given
                  rw [given]
                  cases secretId with
                  | none => cases spoken
                  | some value => exact congrArg some spoken
                | _ => cases given
              have unusable : secret.usable now = false := by
                have spared := idle secret inside named
                rwa [Store.overdue, exceeded, Bool.and_true] at spared
              -- A secret that may not be used is refused before anything is written.
              obtain ⟨error, refused⟩ := requireActiveSecret_unusable secret.id.text unusable
              simp [Except.map, exceeded, rotate, Stateful.on_bind, secretRow_member inside, refused]
      · rfl

theorem execute_serves (now : Moment) (sound : store.Sound) (actionType : String) (actionConfig : Json) :
    Served now [⟨actionType, actionConfig⟩] store ((execute worker now actionType actionConfig).on store).2 ∧
      ((execute worker now actionType actionConfig).on store).2.jobs = store.jobs ∧
      ((execute worker now actionType actionConfig).on store).2.actions = store.actions := by
  by_cases idle : ∀ secret ∈ store.secrets.list, Ticket.names ⟨actionType, actionConfig⟩ secret = true →
      store.overdue now secret = false
  · rw [execute_idle worker idle]
    exact ⟨.idle sound idle, rfl, rfl⟩
  · push Not at idle
    obtain ⟨secret, inside, named, due⟩ := idle
    have due : store.overdue now secret = true := by simpa using due
    obtain ⟨actionType', members, config, given⟩ := names_iff.mp named
    dsimp only at actionType' config
    subst actionType' config
    obtain ⟨result, version, versions, ran, recorded⟩ := execute_rotates worker sound given inside due
    rw [ran]
    exact ⟨.rotated sound inside (names_str given) due recorded, rfl, rfl⟩

end Executor

section Queue
open JobQueue

variable (worker : Worker)

instance earlier_trans : IsTrans Job fun first second => first.createdAt ≤ second.createdAt := ⟨fun _ _ _ => le_trans⟩

instance earlier_total : Std.Total fun first second : Job => first.createdAt ≤ second.createdAt :=
  ⟨fun first second => le_total first.createdAt second.createdAt⟩

theorem queued_assign (jobs : Jobs) (jobId : String) (assignment : Assignment)
    (leaves : ∀ job, (assignment.change job).state ≠ .queued) :
    (jobs.assign (·.id = jobId) assignment).queued = jobs.queued.filter fun job => job.id ≠ jobId := by
  unfold Jobs.queued
  rw [StableOrder.filter_insertionSort]
  congr 1
  simp only [Jobs.assign, Rows.update, List.filter_map, List.filter_filter]
  have chosen : ∀ job ∈ jobs.list, ((fun job : Job => decide (job.state = .queued)) ∘ fun job =>
      if decide (job.id = jobId) = true then assignment.change job else job) job =
      (decide (job.id ≠ jobId) && decide (job.state = .queued)) := by
    intro job _
    by_cases same : job.id = jobId
    · simp [same, leaves]
    · simp [same]
  rw [List.filter_congr chosen]
  refine (List.map_congr_left fun job inside => ?_).trans (List.map_id _)
  have other : ¬ job.id = jobId := by
    have kept := (List.mem_filter.mp inside).2
    simp only [Bool.and_eq_true, decide_eq_true_eq] at kept
    exact kept.1
  rw [if_neg (by simpa using other), id]

theorem queued_mem {jobs : Jobs} {job : Job} (waiting : job ∈ jobs.queued) : job ∈ jobs.list := by
  rw [Jobs.queued, List.mem_insertionSort] at waiting
  exact (List.mem_filter.mp waiting).1

theorem queued_insert {jobs after : Jobs} {job : Job} (inserted : jobs.insert job = some after) (queued : job.state = .queued) :
    after.queued = (jobs.queued.filter fun other => other.createdAt ≤ job.createdAt) ++
      job :: jobs.queued.filter fun other => !decide (other.createdAt ≤ job.createdAt) := by
  have own : ([job].filter fun job => decide (job.state = .queued)) = [job] := by simp [queued]
  rw [Jobs.queued, (Rows.insert_eq_some inserted).2, List.filter_append, own, StableOrder.insertionSort_snoc]
  rfl

theorem find_assign (jobs : Jobs) (chosen : Job → Bool) (assignment : Assignment) (jobId : String)
    (present : (jobs.find jobId).isSome = true) : ((jobs.assign chosen assignment).find jobId).isSome = true := by
  rw [Jobs.assign, Rows.find_update, Option.isSome_map]
  exact present

theorem Served.quiet (secrets : after.secrets = store.secrets) (policies : after.policies = store.policies)
    (versions : after.versions = store.versions) (sound : after.Sound) : Served now [] store after where
  secrets := by rw [Store.serve_nil, List.map_id, secrets]
  policies := policies
  versions _ member := .inl (versions ▸ member)
  sound := sound

theorem Store.Sound.assigned (sound : store.Sound) (chosen : Job → Bool) (assignment : Assignment) :
    ({ store with jobs := store.jobs.assign chosen assignment } : Store).Sound where
  fresh := sound.fresh
  versionIds := sound.versionIds
  actionIds := sound.actionIds
  jobIds job member n := by
    obtain ⟨row, inside, rfl⟩ := List.mem_map.mp member
    split
    · exact (assignment.id row).trans_ne (sound.jobIds row inside n)
    · exact sound.jobIds row inside n
  numbered := sound.numbered
  ages := sound.ages

/-- What a statement about one job brings about, which takes the job out of the queue. -/
structure Left (tickets : List Ticket) (now : Moment) (jobId : String) (store after : Store) : Prop where
  served : Served now tickets store after
  actions : after.actions = store.actions
  queued : after.jobs.queued = store.jobs.queued.filter fun job => job.id ≠ jobId
  present : (after.jobs.find jobId).isSome = true

variable {jobId : String}

theorem assignJob_left (now : Moment) (sound : store.Sound) (assignment : Assignment)
    (leaves : ∀ job, (assignment.change job).state ≠ .queued) (present : (store.jobs.find jobId).isSome = true) :
    Left [] now jobId store ((assignJob jobId assignment).on store).2 where
  served := .quiet rfl rfl rfl (sound.assigned _ _)
  actions := rfl
  queued := queued_assign _ _ _ leaves
  present := find_assign _ _ _ _ present

theorem Left.trans {middle : Store} {first second : List Ticket} (sound : store.Sound)
    (left : Left first now jobId store middle) (left' : Left second now jobId middle after) :
    Left (first ++ second) now jobId store after where
  served := left.served.trans sound left'.served
  actions := left'.actions.trans left.actions
  queued := by
    rw [left'.queued, left.queued, List.filter_filter]
    simp
  present := left'.present

theorem execute_left (now : Moment) (sound : store.Sound) (gone : ∀ job ∈ store.jobs.queued, job.id ≠ jobId)
    (present : (store.jobs.find jobId).isSome = true) (actionType : String) (actionConfig : Json) :
    Left [⟨actionType, actionConfig⟩] now jobId store ((execute worker now actionType actionConfig).on store).2 := by
  obtain ⟨served, jobs, actions⟩ := execute_serves worker now sound actionType actionConfig
  refine ⟨served, actions, ?_, ?_⟩
  · rw [jobs]
    exact (List.filter_eq_self.mpr fun job inside => decide_eq_true (gone job inside)).symm
  · rw [jobs]
    exact present

theorem fetchJob_on (present : (store.jobs.find jobId).isSome = true) :
    ∃ job, (fetchJob jobId).on store = (.ok job, store) := by
  obtain ⟨job, found⟩ := Option.isSome_iff_exists.mp present
  refine ⟨job, ?_⟩
  unfold fetchJob
  rw [Stateful.on_bind, Stateful.on_get]
  dsimp only
  rw [found, jobFromRow, Stateful.on_lift]

/-- A job runs to its end, whether the executor returns or raises, and has its turn. -/
theorem runJob_left (now : Moment) (sound : store.Sound) {job : Job} (present : (store.jobs.find job.id).isSome = true) :
    ∃ done after, (runJob worker now job).on store = (.ok done, after) ∧ Left [ticketOf job] now job.id store after := by
  have started := assignJob_left now sound (.start now.isoformat) (fun _ => nofun) present
  have sound' := started.served.sound
  have gone : ∀ other ∈ ((assignJob job.id (.start now.isoformat)).on store).2.jobs.queued, other.id ≠ job.id := by
    intro other inside
    rw [started.queued] at inside
    exact of_decide_eq_true (List.mem_filter.mp inside).2
  have executed := execute_left worker now sound' gone started.present job.actionType (job.actionConfig.getD (.obj []))
  have both := started.trans sound executed
  rw [List.nil_append] at both
  unfold runJob
  rw [Stateful.on_bind]
  change ∃ done after, (tryCatch _ _ : Program Job).on ((assignJob job.id (.start now.isoformat)).on store).2 = _ ∧ _
  rw [Stateful.on_tryCatch, Stateful.on_bind]
  cases ran : (execute worker now job.actionType (job.actionConfig.getD (.obj []))).on
      ((assignJob job.id (.start now.isoformat)).on store).2 with
  | mk result middle =>
    rw [ran] at both
    cases result with
    | error error =>
      have failed := assignJob_left now both.served.sound (.fail now.isoformat error.text) (fun _ => nofun)
        both.present
      have all := both.trans sound failed
      rw [List.append_nil] at all
      obtain ⟨done, fetched⟩ := fetchJob_on all.present
      exact ⟨done, _, fetched, all⟩
    | ok result =>
      have completed := assignJob_left now both.served.sound (.complete now.isoformat result)
        (fun _ => nofun) both.present
      have all := both.trans sound completed
      rw [List.append_nil] at all
      obtain ⟨done, fetched⟩ := fetchJob_on all.present
      have finished : (do assignJob job.id (.complete now.isoformat result); fetchJob job.id : Program Job).on middle =
          (.ok done, ((assignJob job.id (.complete now.isoformat result)).on middle).2) := by
        rw [Stateful.on_bind]
        exact fetched
      refine ⟨done, _, ?_, all⟩
      dsimp only
      rw [finished]

/-- The queue as a call finds it: what is not younger than the jobs of the call, and what is. -/
structure Waiting (now : Moment) (store : Store) (front late : List Job) : Prop where
  queued : store.jobs.queued = front ++ late
  early : ∀ job ∈ front, job.createdAt ≤ now.isoformat
  younger : ∀ job ∈ late, ¬ job.createdAt ≤ now.isoformat

theorem waiting_split (store : Store) (now : Moment) : Waiting now store
    (store.jobs.queued.filter fun job => job.createdAt ≤ now.isoformat)
    (store.jobs.queued.filter fun job => !decide (job.createdAt ≤ now.isoformat)) where
  queued := (StableOrder.filter_append_rest _ (fun _ _ before inside => decide_eq_true (le_trans before (of_decide_eq_true inside)))
    (List.pairwise_insertionSort _ _)).symm
  early job inside := of_decide_eq_true (List.mem_filter.mp inside).2
  younger job inside := by simpa using (List.mem_filter.mp inside).2

def actionTicket (action : Scheduler.ScheduledAction) : Ticket :=
  ⟨action.actionType, if truthy action.actionConfig then action.actionConfig else .obj []⟩

theorem queued_nodup (jobs : Jobs) : (jobs.queued.map Job.id).Nodup := by
  rw [Jobs.queued, ((List.perm_insertionSort _ _).map Job.id).nodup_iff]
  exact jobs.unique.sublist (List.filter_sublist.map Job.id)

/-- What a call enqueues goes behind what waits, and in front of what is younger than the call. -/
theorem enqueue_waits (sound : store.Sound) {front late : List Job} (waiting : Waiting now store front late)
    (name ownerId : String) (action : Scheduler.ScheduledAction) :
    ∃ job after, (enqueue now name action.actionType action.actionConfig ownerId (some action.id)).on store = (.ok job, after) ∧
      ticketOf job = actionTicket action ∧ Waiting now after (front ++ [job]) late ∧ Served now [] store after ∧
      after.actions = store.actions := by
  let job : Job :=
    { id := store.ids 0, name := name, actionType := action.actionType
      actionConfig := some (if truthy action.actionConfig then action.actionConfig else .obj []), ownerId := ownerId
      state := .queued, createdAt := now.isoformat, startedAt := none, completedAt := none, result := .obj []
      errorMessage := none, scheduledActionId := some action.id, scopeId := none, lifecycle := .active }
  cases inserted : store.jobs.insert job with
  | none =>
    obtain ⟨other, found⟩ := Option.isSome_iff_exists.mp (Rows.insert_eq_none.mp inserted)
    obtain ⟨inside, same⟩ := Rows.find_eq_some.mp found
    exact absurd same (sound.jobIds other inside 0)
  | some jobs =>
    refine ⟨job, { store with ids := fun n => store.ids (n + 1), jobs := jobs }, ?_, rfl, ⟨?_, ?_, waiting.younger⟩,
      .quiet rfl rfl rfl ?_, rfl⟩
    · rw [enqueue, Stateful.on_bind, generateId_on]
      dsimp only
      rw [Stateful.on_bind, insertJob, Stateful.on_bind, Stateful.on_get]
      dsimp only
      rw [show Rows.insert store.jobs _ = some jobs from inserted]
      rfl
    · rw [queued_insert inserted rfl, waiting.queued, List.filter_append, List.filter_append]
      have early : ∀ other ∈ front, decide (other.createdAt ≤ job.createdAt) = true :=
        fun other inside => decide_eq_true (waiting.early other inside)
      have younger : ∀ other ∈ late, decide (other.createdAt ≤ job.createdAt) = false :=
        fun other inside => decide_eq_false (waiting.younger other inside)
      rw [List.filter_eq_self.mpr early, List.filter_eq_nil_iff.mpr fun other inside => by simp [younger other inside],
        List.filter_eq_nil_iff.mpr fun other inside => by simp [early other inside],
        List.filter_eq_self.mpr fun other inside => by simp [younger other inside]]
      simp
    · intro other inside
      rcases List.mem_append.mp inside with before | own
      · exact waiting.early other before
      · rw [List.mem_singleton.mp own]
    · have drawn := sound.drawn
      refine ⟨drawn.fresh, drawn.versionIds, drawn.actionIds, ?_, drawn.numbered, drawn.ages⟩
      intro other inside n
      have inside : other ∈ jobs.list := inside
      rw [(Rows.insert_eq_some inserted).2, List.mem_append, List.mem_singleton] at inside
      rcases inside with before | rfl
      · exact drawn.jobIds other before n
      · intro same
        exact absurd (sound.fresh same) (by omega)

theorem runNext_serves (sound : store.Sound) {job : Job} {front late : List Job}
    (waiting : Waiting now store (job :: front) late) :
    ∃ done after, (runNext worker now).on store = (.ok (some done), after) ∧ Served now [ticketOf job] store after ∧
      Waiting now after front late ∧ after.actions = store.actions := by
  have head : store.jobs.queued.head? = some job := by rw [waiting.queued]; rfl
  have inside : job ∈ store.jobs.list := queued_mem (List.mem_of_mem_head? head)
  obtain ⟨done, after, ran, left⟩ := runJob_left worker now sound (by rw [Rows.find_mem inside]; rfl)
  refine ⟨done, after, ?_, left.served, ⟨?_, fun other member => waiting.early other (List.mem_cons_of_mem job member),
    waiting.younger⟩, left.actions⟩
  · rw [runNext, Stateful.on_bind, Stateful.on_get]
    dsimp only
    rw [head]
    dsimp only
    rw [Stateful.on_bind, ran]
    rfl
  · have nodup := queued_nodup store.jobs
    rw [waiting.queued, List.cons_append, List.map_cons, List.nodup_cons] at nodup
    rw [left.queued, waiting.queued, List.cons_append, List.filter_cons_of_neg (by simp), List.filter_eq_self]
    intro other member
    refine decide_eq_true fun same => nodup.1 ?_
    exact List.mem_map.mpr ⟨other, member, same⟩

theorem advanceAction_quiet (now : Moment) (sound : store.Sound) (actionId : String) (nextRunAt : Aware) :
    Served now [] store { store with actions := store.actions.advance actionId nextRunAt } := by
  refine .quiet rfl rfl rfl ⟨sound.fresh, sound.versionIds, ?_, sound.jobIds, sound.numbered, sound.ages⟩
  intro action inside n
  obtain ⟨row, present, rfl⟩ := List.mem_map.mp inside
  split
  · exact sound.actionIds row present n
  · exact sound.actionIds row present n

/-- A call gives as many turns as actions are due: first to what waits, then to
the actions themselves. Where it raises, some of them have had theirs. -/
theorem runEach_serves (actions : List Scheduler.ScheduledAction) : ∀ {store : Store} {front late : List Job}, store.Sound →
    Waiting now store front late → ∃ done, Served now done store ((runEach worker now actions).on store).2 ∧
      ∀ jobs, ((runEach worker now actions).on store).1 = .ok jobs →
        done = (front.map ticketOf ++ actions.map actionTicket).take actions.length := by
  induction actions with
  | nil =>
    intro store front late sound _
    exact ⟨[], .refl sound, fun _ _ => by simp⟩
  | cons action actions ih =>
    intro store front late sound waiting
    unfold runEach
    rw [Stateful.on_bind, Stateful.on_lift]
    cases jobLabel worker action.actionConfig with
    | error error => exact ⟨[], .refl sound, nofun⟩
    | ok label =>
      obtain ⟨job, queued, ran, ticket, waiting, entered, -⟩ := enqueue_waits sound waiting ("rotate-" ++ label) action.ownerId action
      obtain ⟨first, rest, split⟩ : ∃ first rest, front ++ [job] = first :: rest := List.exists_cons_of_ne_nil (by simp)
      rw [split] at waiting
      obtain ⟨result, middle, ran', served, waiting, -⟩ := runNext_serves worker entered.sound waiting
      have served := entered.trans sound served
      dsimp only
      rw [Stateful.on_bind, ran]
      dsimp only
      rw [Stateful.on_bind, ran']
      dsimp only
      rw [Stateful.on_bind, Stateful.on_lift]
      cases nextTurn worker now action.actionConfig with
      | error error => exact ⟨_, served, nofun⟩
      | ok nextRun =>
        dsimp only
        rw [advanceAction, Stateful.on_bind, Stateful.on_modify]
        dsimp only
        have advanced := advanceAction_quiet now served.sound action.id nextRun
        obtain ⟨done, served', all⟩ := ih advanced.sound ⟨waiting.queued, waiting.early, waiting.younger⟩
        have served' := (served.trans sound advanced).trans sound served'
        rw [Stateful.on_bind_pure (fun jobs => (some result).toList ++ jobs)]
        refine ⟨_, served', ?_⟩
        intro jobs returned
        cases ended : ((runEach worker now actions).on { middle with actions := middle.actions.advance action.id nextRun }).1 with
        | error error =>
          rw [ended] at returned
          cases returned
        | ok jobs =>
          -- The first of what waits has had its turn, and the new job waits at the end.
          have shape : front.map ticketOf ++ actionTicket action :: actions.map actionTicket =
              ticketOf first :: (rest.map ticketOf ++ actions.map actionTicket) := by
            have mapped := congrArg (List.map ticketOf) split
            rw [List.map_append, List.map_cons, List.map_nil, List.map_cons, ticket] at mapped
            rw [List.append_cons, mapped, List.cons_append]
          rw [all jobs ended, List.map_cons, shape]
          rfl

end Queue

section Scan
open Scheduler

variable (worker : Worker)

/-- A policy of the scan that has an action opened, with its secret and the age that it allows. -/
structure Opening where
  policy : SecretPolicy
  secret : Secret
  maxAge : Int

/-- What the scan opens: for each secret that is not scheduled, the first policy that has an age. -/
def Store.openings (store : Store) (alreadyScheduled : List String) : List SecretPolicy → List Opening
  | [] => []
  | policy :: policies =>
    match store.asksFor alreadyScheduled policy with
    | none => store.openings alreadyScheduled policies
    | some (secret, maxAge) => ⟨policy, secret, maxAge⟩ :: store.openings (secret.id.text :: alreadyScheduled) policies

/-- Whether the secret has reached the age. -/
def Opening.reached (opening : Opening) (now : Moment) : Bool :=
  opening.secret.lastRotated.instant + opening.maxAge * 1000000 ≤ now.instant

def Opening.ticket (opening : Opening) : Ticket := ⟨rotationActionType, rotationConfig opening.secret.id opening.policy.id⟩

/-- An action that the scan has written for an opening. -/
structure Opens (now : Moment) (opening : Opening) (action : ScheduledAction) : Prop where
  actionType : action.actionType = rotationActionType
  actionConfig : action.actionConfig = rotationConfig opening.secret.id opening.policy.id
  lifecycle : action.lifecycle = .active
  nextRunAt : Rotation.nextRunAt now opening.secret opening.maxAge = .ok action.nextRunAt

theorem Opens.ticket {opening : Opening} {action : ScheduledAction} (opens : Opens now opening action) :
    actionTicket action = opening.ticket := by
  rw [actionTicket, opens.actionType, opens.actionConfig]
  rfl

theorem createAction_on (now : Moment) (sound : store.Sound) (name ownerId actionType : String) (actionConfig : Json) (nextRunAt : Aware) :
    ∃ action after, (createAction now name ownerId actionType actionConfig nextRunAt).on store = (.ok action, after) ∧
      after.actions.list = store.actions.list ++ [action] ∧ action.actionType = actionType ∧
      action.actionConfig = actionConfig ∧ action.nextRunAt = nextRunAt ∧ action.lifecycle = .active ∧
      Served now [] store after ∧ after.jobs = store.jobs ∧ after.secrets = store.secrets := by
  let action : ScheduledAction :=
    { id := store.ids 0, name := name, ownerId := ownerId, actionType := actionType, actionConfig := actionConfig
      nextRunAt := nextRunAt, scheduleId := none, scopeId := none, createdAt := now, lifecycle := .active }
  cases inserted : store.actions.insert action with
  | none =>
    obtain ⟨other, found⟩ := Option.isSome_iff_exists.mp (Rows.insert_eq_none.mp inserted)
    obtain ⟨inside, same⟩ := Rows.find_eq_some.mp found
    exact absurd same (sound.actionIds other inside 0)
  | some actions =>
    refine ⟨action, { store with ids := fun n => store.ids (n + 1), actions := actions }, ?_,
      (Rows.insert_eq_some inserted).2, rfl, rfl, rfl, rfl, .quiet rfl rfl rfl ?_, rfl, rfl⟩
    · rw [createAction, Stateful.on_bind, generateId_on]
      dsimp only
      rw [Stateful.on_bind, insertAction, Stateful.on_bind, Stateful.on_get]
      dsimp only
      rw [show Rows.insert store.actions _ = some actions from inserted]
      rfl
    · have drawn := sound.drawn
      refine ⟨drawn.fresh, drawn.versionIds, ?_, drawn.jobIds, drawn.numbered, drawn.ages⟩
      intro other inside n
      have inside : other ∈ actions.list := inside
      rw [(Rows.insert_eq_some inserted).2, List.mem_append, List.mem_singleton] at inside
      rcases inside with before | rfl
      · exact drawn.actionIds other before n
      · intro same
        exact absurd (sound.fresh same) (by omega)

theorem openings_congr (same : after.secrets = store.secrets) (alreadyScheduled : List String) (policies : List SecretPolicy) :
    after.openings alreadyScheduled policies = store.openings alreadyScheduled policies := by
  induction policies generalizing alreadyScheduled with
  | nil => rfl
  | cons policy policies ih => simp only [Store.openings, Store.asksFor, same, ih]

/-- What the scan has written, where it returns; where it raises, it has only added actions. -/
structure Scanned (now : Moment) (openings : List Opening) (store after : Store) (result : Except Raised (List ScheduledAction)) :
    Prop where
  served : Served now [] store after
  jobs : after.jobs = store.jobs
  opened : ∀ created, result = .ok created → after.actions.list = store.actions.list ++ created ∧
    List.Forall₂ (Opens now) openings created

theorem scheduleEach_scanned (policies : List SecretPolicy) : ∀ {store : Store}, store.Sound → ∀ alreadyScheduled : List String,
    Scanned now (store.openings alreadyScheduled policies) store ((scheduleEach worker now alreadyScheduled policies).on store).2
      ((scheduleEach worker now alreadyScheduled policies).on store).1 := by
  induction policies with
  | nil =>
    intro store sound alreadyScheduled
    refine ⟨.refl sound, rfl, ?_⟩
    intro created returned
    cases Except.ok.inj returned
    exact ⟨(List.append_nil _).symm, .nil⟩
  | cons policy policies ih =>
    intro store sound alreadyScheduled
    unfold scheduleEach Store.openings
    rw [Stateful.on_bind, Stateful.on_get]
    dsimp only
    cases asked : store.asksFor alreadyScheduled policy with
    | none => exact ih sound alreadyScheduled
    | some found =>
      obtain ⟨secret, maxAge⟩ := found
      dsimp only
      rw [Stateful.on_bind, Stateful.on_lift]
      cases planned : nextRunAt now secret maxAge with
      | error error => exact ⟨.refl sound, rfl, nofun⟩
      | ok nextRun =>
        obtain ⟨action, middle, ran, listed, actionType, actionConfig, runs, lifecycle, served, jobs, secrets⟩ :=
          createAction_on now sound ("auto-rotate-" ++ prefix8 secret.id.text) worker.ownerId rotationActionType
            (rotationConfig secret.id policy.id) nextRun
        have rest := ih served.sound (secret.id.text :: alreadyScheduled)
        rw [openings_congr secrets] at rest
        dsimp only
        rw [Stateful.on_bind, ran]
        dsimp only
        rw [Stateful.on_bind_pure (fun actions => action :: actions)]
        refine ⟨served.trans sound rest.served, rest.jobs.trans jobs, ?_⟩
        intro created returned
        cases ended : ((scheduleEach worker now (secret.id.text :: alreadyScheduled) policies).on middle).1 with
        | error error =>
          rw [ended] at returned
          cases returned
        | ok others =>
          rw [ended] at returned
          cases Except.ok.inj returned
          obtain ⟨written, opens⟩ := rest.opened others ended
          refine ⟨by rw [written, listed, List.append_assoc]; rfl, .cons ?_ opens⟩
          exact ⟨actionType, actionConfig, lifecycle, planned.trans (congrArg Except.ok runs.symm)⟩

theorem plus_ok {moment later : Aware} {seconds : Int} (added : plus moment seconds = .ok later) :
    later.instant = moment.instant + seconds * 1000000 ∧ later.offset = moment.offset := by
  unfold plus at added
  split at added
  · cases added
  · split at added
    · cases Except.ok.inj added
      exact ⟨rfl, rfl⟩
    · cases added

/-- An action that is opened is due at once exactly if its secret has reached the age, and then it runs now. -/
theorem nextRunAt_due {maxAge : Int} {nextRun : Aware} (planned : nextRunAt now secret maxAge = .ok nextRun) :
    (nextRun.isoformat ≤ now.isoformat ↔ secret.lastRotated.instant + maxAge * 1000000 ≤ now.instant) ∧
      (nextRun.isoformat ≤ now.isoformat → nextRun.isoformat = now.isoformat) := by
  unfold nextRunAt at planned
  cases added : plus secret.lastRotated.toAware maxAge with
  | error error =>
    rw [added] at planned
    cases planned
  | ok reached =>
    rw [added] at planned
    obtain ⟨instant, offset⟩ := plus_ok added
    have utc : reached.offset = .utc := offset.trans secret.lastRotated.utc
    have planned := Except.ok.inj planned
    split at planned
    next past =>
      subst planned
      refine ⟨iff_of_true le_rfl (by omega), fun _ => rfl⟩
    next ahead =>
      subst planned
      have order : now.isoformat < reached.isoformat ↔ now.instant < reached.instant := Aware.isoformat_lt_iff now.utc utc
      constructor
      · rw [← not_lt, order, instant]
        omega
      · intro due
        have same : reached.instant = now.instant := by
          rw [← not_lt, order] at due
          omega
        rw [Aware.ext same (utc.trans now.utc.symm)]

/-- `get_due_actions` of one action. -/
def isDue (now : Moment) (action : ScheduledAction) : Bool :=
  action.lifecycle = .active && decide (action.nextRunAt.isoformat ≤ now.isoformat)

theorem Opens.due {opening : Opening} {action : ScheduledAction} (opens : Opens now opening action) :
    isDue now action = opening.reached now := by
  rw [isDue, opens.lifecycle, decide_eq_true rfl, Bool.true_and]
  exact decide_eq_decide.mpr (nextRunAt_due opens.nextRunAt).1

theorem opened_due {openings : List Opening} {created : List ScheduledAction} (opens : List.Forall₂ (Opens now) openings created) :
    (created.filter (isDue now)).map actionTicket = (openings.filter (·.reached now)).map Opening.ticket ∧
      ∀ action ∈ created.filter (isDue now), action.actionType = rotationActionType ∧
        action.nextRunAt.isoformat = now.isoformat := by
  induction opens with
  | nil => simp
  | @cons opening action openings created first opens ih =>
    rw [List.filter_cons, List.filter_cons, first.due]
    split
    next reached =>
      refine ⟨by rw [List.map_cons, List.map_cons, first.ticket, ih.1], ?_⟩
      intro other member
      rcases List.mem_cons.mp member with rfl | later
      · have due : isDue now other = true := first.due.trans reached
        exact ⟨first.actionType, (nextRunAt_due first.nextRunAt).2 (of_decide_eq_true (Bool.and_eq_true_iff.mp due).2)⟩
      · exact ih.2 other later
    · exact ih

instance sooner_trans : IsTrans ScheduledAction fun first second => first.nextRunAt.isoformat ≤ second.nextRunAt.isoformat :=
  ⟨fun _ _ _ => le_trans⟩

theorem due_append {actions : Actions} {created : List ScheduledAction} (listed : actions.list = store.actions.list ++ created)
    (now' : ∀ action ∈ created.filter (isDue now), action.nextRunAt.isoformat = now.isoformat) :
    actions.due now.isoformat = store.actions.due now.isoformat ++ created.filter (isDue now) := by
  have split : actions.list.filter (isDue now) = store.actions.list.filter (isDue now) ++ created.filter (isDue now) := by
    rw [listed, List.filter_append]
  refine (congrArg (List.insertionSort _) split).trans (StableOrder.insertionSort_append _ ?_ ?_)
  · intro action inside other member
    rw [now' other member]
    exact of_decide_eq_true (Bool.and_eq_true_iff.mp (List.mem_filter.mp inside).2).2
  · apply List.pairwise_of_forall_mem_list
    intro first inside second inside'
    exact (now' first inside).trans_le (now' second inside').ge

/-- The actions that are due in a call that begins now: those in the table, and those that the scan opens. -/
def Store.dueTickets (store : Store) (now : Moment) : List Ticket :=
  ((store.actions.due now.isoformat).filter (·.actionType = rotationActionType)).map actionTicket ++
    ((store.openings (store.alreadyScheduled.toOption.getD []) (store.policies.list.filter (·.autoRotate))).filter
      (·.reached now)).map Opening.ticket

/-- Who has a turn in a call that begins now: as many as are due, of those that
wait already and of those that are due, in this order. -/
def Store.turns (store : Store) (now : Moment) : List Ticket :=
  ((store.jobs.queued.filter fun job => job.createdAt ≤ now.isoformat).map ticketOf ++ store.dueTickets now).take
    (store.dueTickets now).length

theorem scheduleAutoRotations_scanned (now : Moment) (sound : store.Sound) :
    Scanned now (store.openings (store.alreadyScheduled.toOption.getD []) (store.policies.list.filter (·.autoRotate))) store
      ((scheduleAutoRotations worker now).on store).2 ((scheduleAutoRotations worker now).on store).1 := by
  unfold scheduleAutoRotations
  rw [Stateful.on_bind, Stateful.on_get]
  dsimp only
  split
  next empty =>
    rw [List.isEmpty_iff.mp empty]
    refine ⟨.refl sound, rfl, ?_⟩
    intro created returned
    cases Except.ok.inj returned
    exact ⟨(List.append_nil _).symm, .nil⟩
  · rw [Stateful.on_bind, Stateful.on_lift]
    cases store.alreadyScheduled with
    | error error => exact ⟨.refl sound, rfl, nofun⟩
    | ok alreadyScheduled => exact scheduleEach_scanned worker _ sound alreadyScheduled

/-- A call serves those who have a turn; where it raises, some of them. -/
theorem turn_serves (now : Moment) (sound : store.Sound) : ∃ done, Served now done store ((turn worker now).on store).2 ∧
    ∀ jobs, ((turn worker now).on store).1 = .ok jobs → done = store.turns now := by
  have scanned := scheduleAutoRotations_scanned worker now sound
  unfold turn
  rw [Stateful.on_bind]
  cases ran : (scheduleAutoRotations worker now).on store with
  | mk result middle =>
    rw [ran] at scanned
    cases result with
    | error error => exact ⟨[], scanned.served, nofun⟩
    | ok created =>
      obtain ⟨listed, opens⟩ := scanned.opened created rfl
      obtain ⟨tickets, times⟩ := opened_due opens
      have due := due_append listed fun action inside => (times action inside).2
      dsimp only
      rw [runPendingRotations, getDueActions, Stateful.on_bind, Stateful.on_bind, Stateful.on_get]
      dsimp only
      rw [Stateful.on_pure]
      dsimp only
      obtain ⟨done, served, all⟩ := runEach_serves worker
        ((middle.actions.due now.isoformat).filter fun action => action.actionType = rotationActionType) scanned.served.sound
        (waiting_split middle now)
      refine ⟨[] ++ done, scanned.served.trans sound served, ?_⟩
      intro jobs returned
      have rotations : (created.filter (isDue now)).filter (fun action => action.actionType = rotationActionType) =
          created.filter (isDue now) :=
        List.filter_eq_self.mpr fun action inside => decide_eq_true (times action inside).1
      have shape : ((middle.actions.due now.isoformat).filter fun action => action.actionType = rotationActionType).map
          actionTicket = store.dueTickets now := by
        rw [due, List.filter_append, rotations, List.map_append, tickets]
        rfl
      have count := congrArg List.length shape
      rw [List.length_map] at count
      rw [List.nil_append, all jobs returned, shape, count, scanned.jobs]
      rfl

end Scan

end PyScoped.Legacy.Rotation
