import PyScoped.Foundation.Runs
import PyScoped.Legacy.Webhooks

/-! When retries back off. The delay is measured from `attempted_at`, which no
attempt writes: it stays the time at which the delivery was queued. -/

namespace PyScoped.Legacy.Webhooks
open Foundation Foundation.Runs

/-- The attempts of a delivery, the latest first. -/
def attemptsOf (deliveryId : String) (made : List Made) : List Made := made.filter fun attempt => attempt.deliveryId = deliveryId

/-- Between attempt n and the next one lie at least `backoff_base * 2^(n - 1)` seconds. -/
def Spaced (backoffBase : Nat) : List Made → Prop
  | later :: earlier :: rest =>
    earlier.madeAt + delay backoffBase (rest.length + 1) ≤ later.madeAt ∧ Spaced backoffBase (earlier :: rest)
  | _ => True

/-- What retries promise of every delivery. -/
structure Backed (maxRetries : Int) (backoffBase : Nat) (world : World) : Prop where
  spaced : ∀ row ∈ world.deliveries, Spaced backoffBase (attemptsOf row.id world.made)
  retries : ∀ row ∈ world.deliveries, (attemptsOf row.id world.made).countP Made.retry ≤ maxRetries.toNat
  once : ∀ row ∈ world.deliveries, ∀ attempt ∈ (attemptsOf row.id world.made).tail, attempt.succeeded = false
  numbered : ∀ row ∈ world.deliveries, row.attemptNumber = (attemptsOf row.id world.made).length

/-- What the handler of an attempt is given. -/
def Visit.caught (visit : Visit) : Option Failure := match visit.answer with
  | .raises failure => some failure
  | .response _ _ => visit.refused .ok

/-- What the handler is given is an `Exception` with a text that the database stores,
and no success has come before it. -/
def Visit.Calm (visit : Visit) : Prop := visit.known = true → visit.unreadable = none → ∀ failure ∈ visit.caught,
  (∃ message, failure = .exception message) ∧ visit.refused .err = none ∧ visit.answer.succeeded = false

/-- A retry that is due by the time at which the delivery was queued is due by
its latest attempt as well, and every attempt that is made can be recorded. -/
def Patient (maxRetries : Int) (backoffBase : Nat) (world : World) : Call → Prop
  | .queue _ _ _ _ _ => True
  | .deliverPending visits => ∀ row ∈ world.deliveries, row.status = .pending → (visits row.id).Calm
  | .retryFailed now visits => ∀ row ∈ world.deliveries, retriable maxRetries row = true → isEarly backoffBase now row = false →
    (visits row.id).Calm ∧ ∀ latest ∈ (attemptsOf row.id world.made).head?,
      delay backoffBase row.attemptNumber ≤ now.instant - latest.madeAt

/-- Deliveries get ids of their own, and attempts are made after the call has begun. -/
def Given (world : World) : Call → Prop
  | .queue id _ _ _ _ => (∀ row ∈ world.deliveries, row.id ≠ id) ∧ ∀ attempt ∈ world.made, attempt.deliveryId ≠ id
  | .deliverPending _ => True
  | .retryFailed now visits => ∀ id, now.instant ≤ (visits id).madeAt.instant

/-- How a row stands to the attempts that were made. -/
structure Tidy (maxRetries : Int) (backoffBase : Nat) (row : DeliveryRow) (attempts : List Made) : Prop where
  numbered : row.attemptNumber = attempts.length
  untried : row.status = .pending → attempts = []
  tried : row.status ≠ .pending → attempts ≠ []
  bounded : attempts.length ≤ max 1 maxRetries.toNat
  spaced : Spaced backoffBase attempts
  retries : attempts ≠ [] → attempts.countP Made.retry < attempts.length
  once : ∀ attempt ∈ attempts.tail, attempt.succeeded = false
  latest : ∀ attempt ∈ attempts.head?, attempt.succeeded = true → row.status = .delivered

structure Sound (maxRetries : Int) (backoffBase : Nat) (world : World) : Prop where
  ids : (world.deliveries.map DeliveryRow.id).Nodup
  tidy : ∀ row ∈ world.deliveries, Tidy maxRetries backoffBase row (attemptsOf row.id world.made)

variable {maxRetries : Int} {backoffBase : Nat} {world : World} {row : DeliveryRow} {attempts : List Made}

theorem Tidy.succeeded (tidy : Tidy maxRetries backoffBase row attempts) (undelivered : row.status ≠ .delivered) :
    ∀ attempt ∈ attempts, attempt.succeeded = false := by
  intro attempt member
  cases attempts with
  | nil => cases member
  | cons latest earlier =>
    rcases List.mem_cons.mp member with rfl | member
    · cases success : attempt.succeeded with
      | false => rfl
      | true => exact absurd (tidy.latest attempt rfl success) undelivered
    · exact tidy.once attempt member

theorem Sound.backed (sound : Sound maxRetries backoffBase world) : Backed maxRetries backoffBase world := by
  constructor
  · exact fun row member => (sound.tidy row member).spaced
  · intro row member
    have tidy := sound.tidy row member
    by_cases untried : attemptsOf row.id world.made = []
    · rw [untried]
      exact Nat.zero_le _
    · have fewer := tidy.retries untried
      have bounded := tidy.bounded
      omega
  · exact fun row member => (sound.tidy row member).once
  · exact fun row member => (sound.tidy row member).numbered

/-- One row changes, with an attempt of it or without. -/
theorem Sound.amend (sound : Sound maxRetries backoffBase world) (member : row ∈ world.deliveries)
    {change : DeliveryRow → DeliveryRow} (same : (change row).id = row.id) {entries : List Made}
    (own : ∀ attempt ∈ entries, attempt.deliveryId = row.id)
    (tidy : Tidy maxRetries backoffBase (change row) (entries ++ attemptsOf row.id world.made)) :
    Sound maxRetries backoffBase ⟨amend row.id change world.deliveries, entries ++ world.made⟩ := by
  have only : ∀ other ∈ world.deliveries, other.id = row.id → other = row :=
    fun other member' same => List.inj_on_of_nodup_map sound.ids member' member same
  have kept : ∀ other ∈ world.deliveries, (if other.id = row.id then change other else other).id = other.id := by
    intro other member'
    split
    next here => rw [only other member' here, same]
    · rfl
  constructor
  · have ids : (Webhooks.amend row.id change world.deliveries).map DeliveryRow.id = world.deliveries.map DeliveryRow.id := by
      unfold Webhooks.amend
      rw [List.map_map]
      exact List.map_congr_left kept
    rw [ids]
    exact sound.ids
  · intro changed member'
    obtain ⟨other, stands, rfl⟩ := List.mem_map.mp member'
    rw [kept other stands]
    by_cases here : other.id = row.id
    · obtain rfl := only other stands here
      rw [if_pos rfl]
      have all : attemptsOf other.id entries = entries := List.filter_eq_self.mpr fun attempt listed => by simp [own attempt listed]
      unfold attemptsOf at all ⊢
      rw [List.filter_append, all]
      exact tidy
    · rw [if_neg here]
      have none : attemptsOf other.id entries = [] := by
        apply List.filter_eq_nil_iff.mpr
        intro attempt listed
        simp [own attempt listed, Ne.symm here]
      unfold attemptsOf at none ⊢
      rw [List.filter_append, none]
      exact sound.tidy other stands

/-- The status that an attempt leaves. -/
def outcomeOf (succeeded : Bool) : DeliveryStatus := if succeeded then .delivered else .failed

/-- An attempt fails before it is made, or is counted with its outcome. -/
theorem attempt_outcome {visit : Visit} (calm : visit.Calm) (retry : Bool) (row : DeliveryRow) (world : World) :
    (∃ failure, (attemptDelivery visit retry row).on world = (.error failure, world)) ∨
      ∃ attempt succeeded change, (attemptDelivery visit retry row).on world = (.ok attempt,
          ⟨amend row.id change world.deliveries, [⟨row.id, visit.madeAt.instant, retry, succeeded⟩] ++ world.made⟩) ∧
        ∀ stored, (change stored).id = stored.id ∧ (change stored).attemptNumber = row.attemptNumber + 1 ∧
          (change stored).status = outcomeOf succeeded := by
  unfold attemptDelivery
  cases known : visit.known with
  | false =>
    unfold update remark
    cases visit.refused .fail with
    | some failure => exact .inl ⟨failure, rfl⟩
    | none => exact .inr ⟨_, false, _, rfl, fun stored => ⟨rfl, rfl, rfl⟩⟩
  | true =>
    cases unreadable : visit.unreadable with
    | some failure => exact .inl ⟨failure, rfl⟩
    | none =>
      right
      have calm := calm known unreadable
      rw [if_neg (by simp)]
      dsimp only
      rw [Stateful.on_tryCatch]
      unfold transport update remark Visit.caught at *
      cases answer : visit.answer with
      | raises failure =>
        rw [answer] at calm
        obtain ⟨⟨message, rfl⟩, stored, -⟩ := calm failure rfl
        rw [stored]
        exact ⟨_, false, _, rfl, fun stored => ⟨rfl, rfl, rfl⟩⟩
      | response statusCode responseBody =>
        rw [answer] at calm
        cases refused : visit.refused .ok with
        | none => exact ⟨_, isSuccess statusCode, _, rfl, fun stored => ⟨rfl, rfl, rfl⟩⟩
        | some failure =>
          obtain ⟨⟨message, rfl⟩, stored, failed⟩ := calm failure refused
          rw [stored, failed]
          exact ⟨_, false, _, rfl, fun stored => ⟨rfl, rfl, rfl⟩⟩

/-- The row after one more attempt. -/
theorem Tidy.attempted (tidy : Tidy maxRetries backoffBase row attempts) (undelivered : row.status ≠ .delivered)
    {made : Made} {changed : DeliveryRow} (number : changed.attemptNumber = row.attemptNumber + 1)
    (outcome : changed.status = outcomeOf made.succeeded) (room : attempts ≠ [] → row.attemptNumber < maxRetries)
    (first : attempts = [] → made.retry = false)
    (waited : ∀ latest ∈ attempts.head?, latest.madeAt + delay backoffBase row.attemptNumber ≤ made.madeAt) :
    Tidy maxRetries backoffBase changed (made :: attempts) := by
  have failed := tidy.succeeded undelivered
  have numbered := tidy.numbered
  constructor
  · rw [number, numbered, List.length_cons]
  · intro pending
    rw [outcome] at pending
    unfold outcomeOf at pending
    split at pending <;> cases pending
  · exact fun _ => List.cons_ne_nil _ _
  · rw [List.length_cons]
    cases attempts with
    | nil => simp
    | cons latest earlier =>
      have below := room (List.cons_ne_nil _ _)
      rw [numbered] at below
      omega
  · cases attempts with
    | nil => trivial
    | cons latest earlier =>
      refine ⟨?_, tidy.spaced⟩
      have gap := waited latest rfl
      rwa [numbered] at gap
  · intro _
    rw [List.countP_cons, List.length_cons]
    cases attempts with
    | nil => simp [first rfl]
    | cons latest earlier =>
      have fewer := tidy.retries (List.cons_ne_nil _ _)
      split <;> omega
  · exact failed
  · intro attempt latest success
    cases latest
    rw [outcome, success]
    rfl

variable {rows : List DeliveryRow}

theorem mem_amend {other : DeliveryRow} {change : DeliveryRow → DeliveryRow} (member : other ∈ rows)
    (elsewhere : other.id ≠ row.id) : other ∈ amend row.id change rows :=
  List.mem_map.mpr ⟨other, member, if_neg elsewhere⟩

theorem Sound.deliverAll {visits : String → Visit} (sound : Sound maxRetries backoffBase world)
    (distinct : (rows.map DeliveryRow.id).Nodup)
    (ready : ∀ row ∈ rows, row ∈ world.deliveries ∧ row.status = .pending ∧ (visits row.id).Calm) :
    Sound maxRetries backoffBase ((deliverAll visits rows).on world).2 := by
  induction rows generalizing world with
  | nil => exact sound
  | cons row rows ih =>
    obtain ⟨member, pending, calm⟩ := ready row List.mem_cons_self
    rw [List.map_cons, List.nodup_cons] at distinct
    unfold Webhooks.deliverAll
    rw [Stateful.on_bind]
    rcases attempt_outcome calm false row world with ⟨error, raised⟩ | ⟨attempt, succeeded, change, answered, changed⟩
    · rw [raised]
      exact sound
    · rw [answered]
      dsimp only
      rw [Stateful.on_bind_pure]
      have tidy := sound.tidy row member
      have untried := tidy.untried pending
      apply ih
      · apply sound.amend member (changed row).1
        · intro attempt listed
          rw [List.mem_singleton.mp listed]
        · apply tidy.attempted (by simp [pending]) (changed row).2.1 (changed row).2.2
          · exact fun tried => absurd untried tried
          · exact fun _ => rfl
          · rw [untried]
            exact nofun
      · exact distinct.2
      · intro other listed
        obtain ⟨member', rest⟩ := ready other (List.mem_cons_of_mem _ listed)
        refine ⟨mem_amend member' ?_, rest⟩
        intro same
        exact distinct.1 (List.mem_map.mpr ⟨other, listed, same⟩)

theorem attemptsOf_other {id other : String} {madeAt : Int} {retry succeeded : Bool} (elsewhere : other ≠ id) (made : List Made) :
    attemptsOf other ([⟨id, madeAt, retry, succeeded⟩] ++ made) = attemptsOf other made := by
  simp [attemptsOf, Ne.symm elsewhere]

theorem Tidy.retrying (tidy : Tidy maxRetries backoffBase row attempts) (failed : row.status = .failed) :
    Tidy maxRetries backoffBase { row with status := .retrying } attempts := by
  have unsuccessful := tidy.succeeded (by simp [failed])
  refine { tidy with untried := nofun, tried := fun _ => tidy.tried (by simp [failed]), latest := ?_ }
  intro attempt latest success
  rw [unsuccessful attempt (List.mem_of_mem_head? latest)] at success
  cases success

/-- A delivery that is tried again is marked, and is still the only one with its id. -/
def World.retrying (world : World) (id : String) : World :=
  ⟨amend id (fun stored => { stored with status := .retrying }) world.deliveries, world.made⟩

theorem Sound.retrying (sound : Sound maxRetries backoffBase world) (member : row ∈ world.deliveries)
    (tidy : Tidy maxRetries backoffBase { row with status := .retrying } (attemptsOf row.id world.made)) :
    Sound maxRetries backoffBase (world.retrying row.id) ∧
      { row with status := .retrying } ∈ (world.retrying row.id).deliveries := by
  have unmade : ∀ attempt ∈ ([] : List Made), attempt.deliveryId = row.id := nofun
  exact ⟨sound.amend member rfl unmade tidy, List.mem_map.mpr ⟨row, member, if_pos rfl⟩⟩

theorem Sound.retryAll {now : Moment} {visits : String → Visit}
    (sound : Sound maxRetries backoffBase world) (forward : ∀ id, now.instant ≤ (visits id).madeAt.instant)
    (distinct : (rows.map DeliveryRow.id).Nodup)
    (ready : ∀ row ∈ rows, row ∈ world.deliveries ∧ retriable maxRetries row = true ∧ (isEarly backoffBase now row = false →
      (visits row.id).Calm ∧ ∀ latest ∈ (attemptsOf row.id world.made).head?,
        delay backoffBase row.attemptNumber ≤ now.instant - latest.madeAt)) :
    Sound maxRetries backoffBase ((retryAll visits backoffBase now rows).on world).2 := by
  induction rows generalizing world with
  | nil => exact sound
  | cons row rows ih =>
    obtain ⟨member, retriable, due⟩ := ready row List.mem_cons_self
    have later := fun other listed => ready other (List.mem_cons_of_mem _ listed)
    rw [List.map_cons, List.nodup_cons] at distinct
    unfold Webhooks.retryAll
    cases early : isEarly backoffBase now row with
    | true =>
      rw [if_pos rfl]
      exact ih sound distinct.2 later
    | false =>
      rw [if_neg Bool.false_ne_true]
      obtain ⟨calm, waited⟩ := due early
      simp only [Webhooks.retriable, Bool.and_eq_true, decide_eq_true_eq] at retriable
      obtain ⟨failed, below⟩ := retriable
      have tidy := (sound.tidy row member).retrying failed
      obtain ⟨marked, member'⟩ := sound.retrying member tidy
      have elsewhere : ∀ other ∈ rows, other.id ≠ row.id := by
        intro other listed same
        exact distinct.1 (List.mem_map.mpr ⟨other, listed, same⟩)
      rw [Stateful.on_bind]
      cases (visits row.id).refused .retrying with
      | some failure => exact sound
      | none =>
        change Sound maxRetries backoffBase (Stateful.on (attemptDelivery (visits row.id) true { row with status := .retrying } >>=
          fun attempt => Webhooks.retryAll visits backoffBase now rows >>= fun attempts => pure (attempt :: attempts))
          (world.retrying row.id)).2
        rw [Stateful.on_bind]
        rcases attempt_outcome calm true { row with status := .retrying } (world.retrying row.id) with
          ⟨error, raised⟩ | ⟨attempt, succeeded, change, answered, changed⟩
        · rw [raised]
          exact marked
        · rw [answered]
          dsimp only
          rw [Stateful.on_bind_pure]
          apply ih
          · apply marked.amend member' (changed _).1
            · intro attempt listed
              rw [List.mem_singleton.mp listed]
            · apply tidy.attempted nofun (changed _).2.1 (changed _).2.2
              · exact fun _ => below
              · exact fun untried => absurd untried (tidy.tried nofun)
              · intro latest head
                have gap := waited latest head
                have begun := forward row.id
                change latest.madeAt + delay backoffBase row.attemptNumber ≤ (visits row.id).madeAt.instant
                omega
          · exact distinct.2
          · intro other listed
            obtain ⟨stands, retriable', due'⟩ := later other listed
            refine ⟨mem_amend (mem_amend stands (elsewhere other listed)) (elsewhere other listed), retriable', ?_⟩
            rw [attemptsOf_other (elsewhere other listed)]
            exact due'

theorem sound_new (maxRetries : Int) (backoffBase : Nat) : Sound maxRetries backoffBase World.new := by
  constructor
  · exact List.nodup_nil
  · intro row member
    cases member

theorem oldestFirst_ids (sound : Sound maxRetries backoffBase world) (test : DeliveryRow → Bool) :
    ((oldestFirst (world.deliveries.filter test)).map DeliveryRow.id).Nodup := by
  have sorted : (oldestFirst (world.deliveries.filter test)).Perm (world.deliveries.filter test) := List.perm_insertionSort _ _
  exact ((sorted.map _).nodup_iff).mpr (sound.ids.sublist (List.filter_sublist.map _))

theorem mem_oldestFirst : row ∈ oldestFirst rows ↔ row ∈ rows :=
  (List.perm_insertionSort _ _).mem_iff

theorem Sound.queue {id eventId webhookEndpointId subscriptionId : String} {now : Moment}
    (sound : Sound maxRetries backoffBase world) (fresh : ∀ row ∈ world.deliveries, row.id ≠ id)
    (unmade : ∀ attempt ∈ world.made, attempt.deliveryId ≠ id) : Sound maxRetries backoffBase
      { world with deliveries := world.deliveries ++ [queued id eventId webhookEndpointId subscriptionId now] } := by
  constructor
  · rw [List.map_append, List.nodup_append]
    refine ⟨sound.ids, List.nodup_singleton _, ?_⟩
    intro known listed other single
    obtain ⟨row, member, rfl⟩ := List.mem_map.mp listed
    rw [List.mem_singleton.mp single]
    exact fresh row member
  · intro row member
    rcases List.mem_append.mp member with old | new
    · exact sound.tidy row old
    · rw [List.mem_singleton.mp new]
      have none : attemptsOf id world.made = [] := List.filter_eq_nil_iff.mpr fun attempt listed => by simp [unmade attempt listed]
      change Tidy maxRetries backoffBase _ (attemptsOf id world.made)
      rw [none]
      exact ⟨rfl, fun _ => rfl, fun tried => absurd rfl tried, Nat.zero_le _, trivial, fun tried => absurd rfl tried, nofun, nofun⟩

theorem Sound.after (sound : Sound maxRetries backoffBase world) {call : Call} (given : Given world call)
    (patient : Patient maxRetries backoffBase world call) : Sound maxRetries backoffBase (after maxRetries backoffBase world call) := by
  cases call with
  | queue id eventId webhookEndpointId subscriptionId now => exact sound.queue given.1 given.2
  | deliverPending visits =>
    apply sound.deliverAll (oldestFirst_ids sound _)
    intro row listed
    obtain ⟨member, pending⟩ := List.mem_filter.mp (mem_oldestFirst.mp listed)
    have pending := of_decide_eq_true pending
    exact ⟨member, pending, patient row member pending⟩
  | retryFailed now visits =>
    apply sound.retryAll given (oldestFirst_ids sound _)
    intro row listed
    obtain ⟨member, retriable⟩ := List.mem_filter.mp (mem_oldestFirst.mp listed)
    exact ⟨member, retriable, patient row member retriable⟩

/-- Retries back off and stop in every run in which a delivery that is due by
the time it was queued at is due by its latest attempt as well. -/
theorem backed_of_patient (maxRetries : Int) (backoffBase : Nat) (run : List Call)
    (given : Meets (after maxRetries backoffBase) Given World.new run)
    (patient : Meets (after maxRetries backoffBase) (Patient maxRetries backoffBase) World.new run) :
    Always (after maxRetries backoffBase) (Backed maxRetries backoffBase) World.new run := by
  refine always_of_meets ?_ ?_ (sound_new maxRetries backoffBase) (given.and patient)
  · exact fun _ => Sound.backed
  · exact fun _ _ sound both => sound.after both.1 both.2

section Sample

private def noonAnd (seconds : Nat) (small : seconds < 86400) : Moment := .of (63840043200000000 + seconds * 1000000) (by omega)

private def queuedAtNoon : Call := .queue "d" "e" "w" "s" (noonAnd 0 (by decide))

/-- The endpoint answers 503. -/
private def unavailable (madeAt : Moment) (_ : String) : Visit := ⟨true, none, madeAt, .response 503 "", fun _ => none, "a", madeAt⟩

private theorem calm_unavailable (madeAt : Moment) (id : String) : (unavailable madeAt id).Calm := by
  intro _ _ failure caught
  cases caught

private theorem given_queued : Given World.new queuedAtNoon := by
  constructor <;> intro _ member <;> cases member

private def tried : World := after 3 60 (after 3 60 World.new queuedAtNoon) (.deliverPending (unavailable (noonAnd 0 (by decide))))

private def retried : World := after 3 60 tried (.retryFailed (noonAnd 60 (by decide)) (unavailable (noonAnd 60 (by decide))))

/-- Attempts at noon, after a minute and after four. -/
def steady : List Call :=
  [queuedAtNoon, .deliverPending (unavailable (noonAnd 0 (by decide))),
    .retryFailed (noonAnd 60 (by decide)) (unavailable (noonAnd 60 (by decide))),
    .retryFailed (noonAnd 240 (by decide)) (unavailable (noonAnd 240 (by decide)))]

/-- A first attempt after an hour, and a retry at once. -/
def rushed : List Call :=
  [queuedAtNoon, .deliverPending (unavailable (noonAnd 3600 (by decide))),
    .retryFailed (noonAnd 3600 (by decide)) (unavailable (noonAnd 3600 (by decide)))]

private theorem patient_single {number : Nat} {latest : Made} {earlier : List Made} {now : Moment}
    (rows : world.deliveries.map (fun row => (row.id, row.attemptNumber)) = [("d", number)])
    (made : attemptsOf "d" world.made = latest :: earlier) (waited : delay 60 number ≤ now.instant - latest.madeAt) :
    Patient 3 60 world (.retryFailed now (unavailable now)) := by
  intro row member _ _
  refine ⟨calm_unavailable _ _, ?_⟩
  have known : (row.id, row.attemptNumber) ∈ [("d", number)] := rows ▸ List.mem_map.mpr ⟨row, member, rfl⟩
  obtain ⟨id, same⟩ := Prod.mk.inj (List.mem_singleton.mp known)
  rw [id, same, made]
  intro head shown
  cases shown
  exact waited

theorem backed_steady : Always (after 3 60) (Backed 3 60) World.new steady := by
  apply backed_of_patient 3 60 steady
  · exact ⟨given_queued, trivial, fun _ => le_rfl, fun _ => le_rfl, trivial⟩
  · have first : Patient 3 60 tried (.retryFailed (noonAnd 60 (by decide)) (unavailable (noonAnd 60 (by decide)))) := by
      have rows : tried.deliveries.map (fun row => (row.id, row.attemptNumber)) = [("d", 1)] := by decide +kernel
      have made : attemptsOf "d" tried.made = [⟨"d", 63840043200000000, false, false⟩] := by decide +kernel
      exact patient_single rows made (by decide)
    have second : Patient 3 60 retried (.retryFailed (noonAnd 240 (by decide)) (unavailable (noonAnd 240 (by decide)))) := by
      have rows : retried.deliveries.map (fun row => (row.id, row.attemptNumber)) = [("d", 2)] := by decide +kernel
      have made : attemptsOf "d" retried.made =
          [⟨"d", 63840043260000000, true, false⟩, ⟨"d", 63840043200000000, false, false⟩] := by
        decide +kernel
      exact patient_single rows made (by decide)
    exact ⟨trivial, fun _ _ _ => calm_unavailable _ _, first, second, trivial⟩

private def hasty : World := after 3 60 (after 3 60 (after 3 60 World.new queuedAtNoon)
  (.deliverPending (unavailable (noonAnd 3600 (by decide)))))
  (.retryFailed (noonAnd 3600 (by decide)) (unavailable (noonAnd 3600 (by decide))))

/-- The second attempt is made without a delay. -/
theorem rushed_unbacked : Meets (after 3 60) Given World.new rushed ∧ ¬ Always (after 3 60) (Backed 3 60) World.new rushed := by
  constructor
  · exact ⟨given_queued, trivial, fun _ => le_rfl, trivial⟩
  · intro ⟨_, _, _, (backed : Backed 3 60 hasty)⟩
    have made : attemptsOf "d" hasty.made =
        [⟨"d", 63840046800000000, true, false⟩, ⟨"d", 63840046800000000, false, false⟩] := by
      decide +kernel
    have listed : "d" ∈ hasty.deliveries.map DeliveryRow.id := by decide +kernel
    obtain ⟨row, member, same⟩ := List.mem_map.mp listed
    have spaced := backed.spaced row member
    rw [same, made] at spaced
    exact absurd spaced.1 (by decide)

end Sample
end PyScoped.Legacy.Webhooks
