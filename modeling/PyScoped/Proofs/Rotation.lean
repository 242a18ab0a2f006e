import PyScoped.Proofs.RotationTurns

/-! When the automatic rotation of version 1 leaves no secret too old: a secret
that is overdue is rotated exactly if one of the turns of the call names it. An
action goes on by a day after its turn, whatever the policy allows. -/

namespace PyScoped.Legacy.Rotation
open Foundation

variable {now : Moment} {store after : Store}

section Runs

variable (worker : Worker)

/-- The secret has a policy of its own that rotates it, with an age of at least a second. -/
def Store.targeted (store : Store) (secret : Secret) : Bool :=
  store.policies.list.any fun policy =>
    policy.secretId = some secret.id && policy.autoRotate && policy.maxAgeSeconds.any fun maxAge => 1 ≤ maxAge

/-- No secret that is to be rotated is older than its policies allow. -/
def Fresh (store : Store) (now : Moment) : Prop :=
  ∀ secret ∈ store.secrets.list, store.targeted secret = true → secret.usable now = true →
    ((needsRotation now (.str secret.id.text)).on store).1 = .ok false

/-- Nothing was rotated that was not older than one of its policies allows. -/
def Warranted (now : Moment) (store after : Store) : Prop :=
  ∀ version ∈ after.versions.list, version ∈ store.versions.list ∨
    ∃ secret ∈ store.secrets.list, secret.id = version.secretId ∧ store.isExceeded now secret = true

/-- Every secret that is to be rotated and is overdue is named by someone who has a turn. -/
def Attended (store : Store) (now : Moment) : Prop :=
  ∀ secret ∈ store.secrets.list, store.targeted secret = true → store.overdue now secret = true →
    ∃ ticket ∈ store.turns now, ticket.names secret = true

/-- A call of a run: when it is made, and what it finds. -/
structure Call where
  now : Moment
  before : Store

def Call.leaves (call : Call) : Store := ((turn worker call.now).on call.before).2

def Call.Returns (call : Call) : Prop := ∃ jobs, ((turn worker call.now).on call.before).1 = .ok jobs

theorem returns_of_isSome {call : Call} (returned : ((turn worker call.now).on call.before).1.toOption.isSome = true) :
    call.Returns worker := by
  cases ran : ((turn worker call.now).on call.before).1 with
  | error error =>
    rw [ran] at returned
    cases returned
  | ok jobs => exact ⟨jobs, ran⟩

/-- The calls that the worker makes at these times, one after the other. -/
def calls : List Moment → Store → List Call
  | [], _ => []
  | now :: times, store => ⟨now, store⟩ :: calls times (Call.leaves worker ⟨now, store⟩)

theorem targeted_serve (now : Moment) (tickets : List Ticket) (policies : after.policies = store.policies) (secret : Secret) :
    after.targeted (store.serve now tickets secret) = store.targeted secret := by
  simp only [Store.targeted, policies, Store.serve_id]

theorem usable_serve (tickets : List Ticket) (secret : Secret) :
    (store.serve now tickets secret).usable now = secret.usable now := by
  unfold Store.serve
  split <;> rfl

theorem isExceeded_congr (policies : after.policies = store.policies) (secret : Secret) :
    after.isExceeded now secret = store.isExceeded now secret := by
  simp only [Store.isExceeded, Store.policiesForSecret, policies]

theorem needsRotation_member {secret : Secret} (inside : secret ∈ store.secrets.list) :
    ((needsRotation now (.str secret.id.text)).on store).1 = .ok (store.isExceeded now secret) := by
  rw [needsRotation_on, secretRow_member inside]
  rfl

/-- One call: what it leaves behind is fresh exactly if everything overdue has a turn. -/
theorem served_fresh_iff (sound : store.Sound) (served : Served now (store.turns now) store after) :
    Fresh after now ↔ Attended store now := by
  constructor
  · intro fresh secret inside targeted due
    obtain ⟨usable, exceeded⟩ := Bool.and_eq_true_iff.mp due
    by_contra unnamed
    have kept : store.serve now (store.turns now) secret = secret := by
      refine if_neg fun named => unnamed ?_
      exact List.any_eq_true.mp (Bool.and_eq_true_iff.mp named).1
    have inside' : secret ∈ after.secrets.list := by
      rw [served.secrets]
      exact List.mem_map.mpr ⟨secret, inside, kept⟩
    have targeted' : after.targeted secret = true := by
      have same := targeted_serve now (store.turns now) served.policies secret
      rw [kept] at same
      rw [same, targeted]
    have judged := fresh secret inside' targeted' usable
    rw [needsRotation_member inside', isExceeded_congr served.policies, exceeded] at judged
    cases judged
  · intro attended secret inside targeted usable
    rw [needsRotation_member inside, isExceeded_congr served.policies]
    rw [served.secrets] at inside
    obtain ⟨original, listed, rfl⟩ := List.mem_map.mp inside
    rw [targeted_serve now (store.turns now) served.policies] at targeted
    rw [usable_serve] at usable
    congr 1
    cases exceeded : store.isExceeded now original with
    | false =>
      have spared : store.overdue now original = false := by rw [Store.overdue, exceeded, Bool.and_false]
      rw [Store.serve, spared, Bool.and_false, if_neg Bool.false_ne_true, exceeded]
    | true =>
      have due : store.overdue now original = true := by rw [Store.overdue, usable, exceeded]; rfl
      have named : (store.turns now).any (·.names original) = true := List.any_eq_true.mpr (attended original listed targeted due)
      rw [Store.serve, if_pos (by rw [named, due]; rfl)]
      exact isExceeded_rotated sound original _

theorem call_fresh_iff (call : Call) (sound : call.before.Sound) :
    (call.leaves worker).Sound ∧ Warranted call.now call.before (call.leaves worker) ∧
      (call.Returns worker → (Fresh (call.leaves worker) call.now ↔ Attended call.before call.now)) := by
  obtain ⟨done, served, all⟩ := turn_serves worker call.now sound
  refine ⟨served.sound, ?_, ?_⟩
  · intro version inside
    rcases served.versions version inside with before | ⟨secret, listed, same, due⟩
    · exact .inl before
    · exact .inr ⟨secret, listed, same, (Bool.and_eq_true_iff.mp due).2⟩
  · rintro ⟨jobs, returned⟩
    rw [all jobs returned] at served
    exact served_fresh_iff sound served

theorem calls_sound (times : List Moment) : ∀ {store : Store}, store.Sound → ∀ call ∈ calls worker times store,
    call.before.Sound := by
  induction times with
  | nil => exact fun _ _ => nofun
  | cons now times ih =>
    intro store sound call inside
    rcases List.mem_cons.mp inside with rfl | later
    · exact sound
    · exact ih (call_fresh_iff worker ⟨now, store⟩ sound).1 call later

/-- In every run, nothing is rotated without a warrant, and the calls that return
leave every secret fresh exactly if each of them gives a turn to all that is overdue. -/
theorem rotations_fresh_iff (times : List Moment) (store : Store) (sound : store.Sound) :
    (∀ call ∈ calls worker times store, Warranted call.now call.before (call.leaves worker)) ∧
      ((∀ call ∈ calls worker times store, call.Returns worker → Fresh (call.leaves worker) call.now) ↔
        ∀ call ∈ calls worker times store, call.Returns worker → Attended call.before call.now) := by
  have each := fun call inside => call_fresh_iff worker call (calls_sound worker times sound call inside)
  refine ⟨fun call inside => (each call inside).2.1, ?_⟩
  constructor
  · intro fresh call inside returns
    exact ((each call inside).2.2 returns).mp (fresh call inside returns)
  · intro attended call inside returns
    exact ((each call inside).2.2 returns).mpr (attended call inside returns)

end Runs

section Daily

/-- A moment so many seconds into the calendar. -/
def atSecond (seconds : Nat) (small : seconds < 315537897600) : Moment := .of (seconds * 1000000) (by omega)

def apiKey : Secret :=
  { id := .repeated 1, currentVersion := 1, classification := .standard, createdAt := atSecond 0 (by decide), expiresAt := none
    lastRotatedAt := none, lifecycle := .active }

/-- The key may be ten seconds old. -/
def tenSeconds : SecretPolicy :=
  { id := .repeated 2, secretId := some (.repeated 1), classification := none, maxAgeSeconds := some 10, autoRotate := true
    createdAt := atSecond 0 (by decide) }

/-- One secret with its policy, nothing scheduled and nothing queued. -/
def keyed : Store :=
  { secrets := ⟨[apiKey], by decide⟩, versions := .empty, policies := ⟨[tenSeconds], by decide⟩, actions := .empty
    jobs := .empty, ids := fun n => String.ofList (List.replicate n 'x') }

def plainWorker : Worker :=
  { ownerId := "system", generate := fun secretId => "new " ++ secretId, encrypt := id, algorithm := "plaintext-test"
    defaultKeyId := "test-key-1", listText := fun _ => "[]", duration := fun _ => .error (.other "cannot convert float") }

theorem keyed_sound : keyed.Sound where
  fresh first second same := by simpa [keyed] using congrArg String.length same
  versionIds _ inside := absurd inside List.not_mem_nil
  actionIds _ inside := absurd inside List.not_mem_nil
  jobIds _ inside := absurd inside List.not_mem_nil
  numbered _ inside := absurd inside List.not_mem_nil
  ages policy inside maxAge given := by
    cases List.mem_singleton.mp inside
    cases given
    decide

/-- What the call at 22 seconds finds, of a run whose first call is at 11 seconds. -/
def secondCall : Call := ⟨atSecond 22 (by decide), Call.leaves plainWorker ⟨atSecond 11 (by decide), keyed⟩⟩

/-- The first call rotates the key and puts its action off by a day. At the second
call the key is older than its policy allows, and no action is due. -/
theorem day_long_gap : ¬ ∀ (worker : Worker) (times : List Moment) (store : Store), store.Sound →
    times.Pairwise (fun first second => first.instant < second.instant) →
    (∀ call ∈ calls worker times store, call.Returns worker → Fresh (call.leaves worker) call.now) ∧
      ∀ call ∈ calls worker times store, Warranted call.now call.before (call.leaves worker) := by
  intro always
  have fresh := (always plainWorker [atSecond 11 (by decide), atSecond 22 (by decide)] keyed keyed_sound (by decide)).1
    secondCall (List.mem_cons_of_mem _ List.mem_cons_self)
  have returns : secondCall.Returns plainWorker := returns_of_isSome plainWorker (by decide +kernel)
  have present : ∃ secret ∈ (secondCall.leaves plainWorker).secrets.list,
      (secondCall.leaves plainWorker).targeted secret = true ∧ secret.usable secondCall.now = true ∧
      ((needsRotation secondCall.now (.str secret.id.text)).on (secondCall.leaves plainWorker)).1.toOption = some true := by
    decide +kernel
  obtain ⟨secret, inside, targeted, usable, stale⟩ := present
  rw [fresh returns secret inside targeted usable] at stale
  cases stale

theorem rotations_fresh_iff_overdue : Fresh (Call.leaves plainWorker ⟨atSecond 11 (by decide), keyed⟩) (atSecond 11 (by decide)) := by
  refine (rotations_fresh_iff plainWorker [atSecond 11 (by decide)] keyed keyed_sound).2.mpr ?_ _ List.mem_cons_self ?_
  · intro call inside _
    cases List.mem_singleton.mp inside
    unfold Attended
    decide +kernel
  · exact returns_of_isSome plainWorker (by decide +kernel)

end Daily

end PyScoped.Legacy.Rotation
