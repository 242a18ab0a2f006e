import PyScoped.Legacy.DjangoModels

/-! What the calls on a model that Django stores leave behind. A save that raises is
taken back in the tables; what it leaves in the instance decides what the next
save does. -/

namespace PyScoped.Legacy.DjangoModels
open Foundation

variable {K : Type} {model : ModelClass K} {manager : Manager} {attempt : Attempt K} {work after : Work K}

/-- The same call where nothing else raises. -/
def Attempt.calm (attempt : Attempt K) : Attempt K := { attempt with fault := none }

theorem faultAt_ok {point : Point} {result : Unit} : (faultAt attempt point).on work = (.ok result, after) ↔
    attempt.fault ≠ some point ∧ after = work := by
  unfold faultAt
  split
  next struck => simp [struck]
  next spared =>
    rw [Stateful.on_pure, Prod.mk.injEq]
    simp [spared, eq_comm]

variable {α : Type}

theorem faultAt_past {point : Point} {next : Unit → Program K α} {result : α}
    (returned : (faultAt attempt point >>= next).on work = (.ok result, after)) :
    attempt.fault ≠ some point ∧ (next ()).on work = (.ok result, after) := by
  obtain ⟨_, middle, passed, rest⟩ := Stateful.on_bind_ok.mp returned
  obtain ⟨spared, rfl⟩ := faultAt_ok.mp passed
  exact ⟨spared, rest⟩

/-- Nothing raises at these points. -/
def Attempt.Spares (attempt : Attempt K) (points : List Point) : Prop := ∀ point ∈ points, attempt.fault ≠ some point

theorem spares_nil : attempt.Spares [] := fun _ inside => absurd inside List.not_mem_nil

theorem spares_cons {point : Point} {points : List Point} (spared : attempt.fault ≠ some point)
    (others : attempt.Spares points) :
    attempt.Spares (point :: points) := by
  intro other inside
  obtain rfl | later := List.mem_cons.mp inside
  · exact spared
  · exact others other later

theorem atomic_on (body : Program K α) (work : Work K) : (atomic attempt body).on work =
    match (do let result ← body; faultAt attempt .committing; pure result : Program K α).on work with
    | (.ok result, after) => (.ok result, after)
    | (.error error, after) => (.error error, ⟨work.tables, after.record⟩) := by
  unfold atomic
  rw [Stateful.on_bind, Stateful.on_get]
  dsimp only
  rw [Stateful.on_tryCatch]
  cases (do let result ← body; faultAt attempt .committing; pure result : Program K α).on work with
  | mk result after => cases result <;> rfl

theorem atomic_ok {body : Program K α} {result : α} (returned : (atomic attempt body).on work = (.ok result, after)) :
    body.on work = (.ok result, after) ∧ attempt.fault ≠ some .committing := by
  rw [atomic_on] at returned
  split at returned
  next value middle ran =>
    obtain ⟨value', middle', ran, rest⟩ := Stateful.on_bind_ok.mp ran
    obtain ⟨_, last, passed, ended⟩ := Stateful.on_bind_ok.mp rest
    obtain ⟨spared, rfl⟩ := faultAt_ok.mp passed
    cases ended
    cases returned
    exact ⟨ran, spared⟩
  · cases returned

theorem atomic_error {body : Program K α} {error : Raised}
    (raised : (atomic attempt body).on work = (.error error, after)) :
    after.tables = work.tables ∧ ((∃ middle, body.on work = (.error error, middle) ∧ after.record = middle.record) ∨
      (attempt.fault = some .committing ∧ ∃ result middle, body.on work = (.ok result, middle) ∧ after.record = middle.record)) := by
  rw [atomic_on, Stateful.on_bind] at raised
  cases ran : body.on work with
  | mk result middle =>
    rw [ran] at raised
    cases result with
    | error error' =>
      cases raised
      exact ⟨rfl, .inl ⟨middle, rfl, rfl⟩⟩
    | ok value =>
      dsimp only at raised
      rw [Stateful.on_bind] at raised
      by_cases struck : attempt.fault = some .committing
      · rw [faultAt, if_pos struck] at raised
        cases raised
        exact ⟨rfl, .inr ⟨struck, value, middle, rfl, rfl⟩⟩
      · rw [faultAt, if_neg struck] at raised
        cases raised

variable {updateFields : Option (List String)}

section Django

variable [DecidableEq K]

theorem insertRow_ok {key : K} : (insertRow model key).on work = (.ok (), after) ↔ ∃ rows,
    work.tables.rows.insert (Row.write model none work.record ⟨key, fun _ => .none, "", ""⟩) = some rows ∧
      after = ⟨{ work.tables with rows := rows }, work.record⟩ := by
  unfold insertRow
  rw [Stateful.on_bind, Stateful.on_get]
  dsimp only
  cases work.tables.rows.insert (Row.write model none work.record ⟨key, fun _ => .none, "", ""⟩) with
  | none => exact ⟨nofun, fun ⟨_, same, _⟩ => by cases same⟩
  | some rows =>
    constructor
    · intro ran
      cases ran
      exact ⟨rows, rfl, rfl⟩
    · rintro ⟨_, same, rfl⟩
      cases same
      rfl

/-- The tables behind an UPDATE. -/
def Work.updated (work : Work K) (model : ModelClass K) (updateFields : Option (List String)) (key : K) : Tables K :=
  { work.tables with
    rows := work.tables.rows.update (fun row => row.key = key) (Row.write model updateFields work.record) fun _ => rfl }

/-- The write of Django: the row that is there is updated, or one that was not is inserted. -/
theorem saveTable_ok (returned : (saveTable model attempt updateFields).on work = (.ok (), after)) :
    (∃ key, work.record.key = some key ∧ (work.tables.rows.find key).isSome = true ∧
      (updateFields = none → (work.record.adding && model.keyHasDefault) = false) ∧
      after = ⟨work.updated model updateFields key, work.record⟩) ∨
    (updateFields = none ∧ ∃ key rows, (work.record.key = some key ∨ work.record.key = none ∧ key = attempt.key) ∧
      work.tables.rows.insert (Row.write model none work.record ⟨key, fun _ => .none, "", ""⟩) = some rows ∧
      after = ⟨{ work.tables with rows := rows }, { work.record with key := some key }⟩) := by
  unfold saveTable at returned
  rw [Stateful.on_bind, Stateful.on_get] at returned
  dsimp only at returned
  split at returned
  next => cases returned
  next missing =>
    obtain ⟨_, middle, inserted, ended⟩ := Stateful.on_bind_ok.mp returned
    obtain ⟨rows, written, rfl⟩ := insertRow_ok.mp inserted
    cases ended
    exact .inr ⟨rfl, attempt.key, rows, .inr ⟨missing, rfl⟩, written, rfl⟩
  next key names given =>
    split at returned
    next present =>
      cases returned
      refine .inl ⟨key, given, present, ?_, rfl⟩
      intro unlimited
      cases unlimited
    · cases returned
  next key given =>
    split at returned
    next present =>
      cases returned
      obtain ⟨stored, updating⟩ := Bool.and_eq_true_iff.mp present
      exact .inl ⟨key, given, stored, fun _ => (Bool.not_eq_true' _).mp updating, rfl⟩
    · obtain ⟨rows, written, rfl⟩ := insertRow_ok.mp returned
      have same : work.record = { work.record with key := some key } := by rw [← given]
      exact .inr ⟨rfl, key, rows, .inl given, written, by rw [← same]⟩

/-- The instance is no longer a new one. -/
def Work.kept (work : Work K) : Work K := ⟨work.tables, { work.record with adding := false }⟩

/-- Django's `save`, from its write. -/
theorem djangoSave_on (updateFields : Option (List String)) (work : Work K) : (djangoSave model attempt updateFields).on work =
    if updateFields = some [] then (.ok (), work)
    else if updateFields.any (unknownField model) then
      (.error (.other "The following fields do not exist in this model"), work)
    else if attempt.fault = some .writing then (.error (.other "raised"), work)
    else match (saveTable model attempt updateFields).on work with
      | (.error error, middle) => (.error error, middle)
      | (.ok (), middle) => (if attempt.fault = some .written then .error (.other "raised") else .ok (), middle.kept) := by
  unfold djangoSave
  split
  · rfl
  · split
    · rfl
    · rw [Stateful.on_bind]
      by_cases struck : attempt.fault = some .writing
      · rw [faultAt, if_pos struck, if_pos struck]
        rfl
      · rw [faultAt, if_neg struck, if_neg struck, Stateful.on_pure]
        dsimp only
        rw [Stateful.on_bind]
        cases (saveTable model attempt updateFields).on work with
        | mk result middle =>
          cases result with
          | error error => rfl
          | ok result =>
            dsimp only
            rw [Stateful.on_bind, Stateful.on_modify]
            by_cases struck : attempt.fault = some .written
            · rw [faultAt, if_pos struck, if_pos struck]
              rfl
            · rw [faultAt, if_neg struck, if_neg struck]
              rfl

/-- What Django's `save` leaves behind where it returns. -/
theorem djangoSave_ok (returned : (djangoSave model attempt updateFields).on work = (.ok (), after)) :
    (updateFields = some [] ∧ after = work) ∨
      ∃ middle, updateFields ≠ some [] ∧ updateFields.any (unknownField model) = false ∧
        attempt.Spares [.writing, .written] ∧ (saveTable model attempt updateFields).on work = (.ok (), middle) ∧
        after = middle.kept := by
  rw [djangoSave_on] at returned
  split at returned
  next empty =>
    cases returned
    exact .inl ⟨empty, rfl⟩
  next nonempty =>
    split at returned
    · cases returned
    next known =>
      split at returned
      · cases returned
      next writing =>
        cases ran : (saveTable model attempt updateFields).on work with
        | mk result middle =>
          rw [ran] at returned
          cases result with
          | error error => cases returned
          | ok result =>
            dsimp only at returned
            split at returned
            · cases returned
            next written =>
              cases returned
              exact .inr ⟨middle, nonempty, Bool.eq_false_iff.mpr known,
                spares_cons writing (spares_cons written spares_nil), rfl, rfl⟩

theorem insertRow_record (model : ModelClass K) (work : Work K) (key : K) : ((insertRow model key).on work).2.record = work.record := by
  unfold insertRow
  rw [Stateful.on_bind, Stateful.on_get]
  dsimp only
  split <;> rfl

/-- A write that raises leaves the instance alone. -/
theorem saveTable_error {error : Raised}
    (raised : (saveTable model attempt updateFields).on work = (.error error, after)) : after.record = work.record := by
  unfold saveTable at raised
  rw [Stateful.on_bind, Stateful.on_get] at raised
  dsimp only at raised
  split at raised
  next =>
    cases raised
    rfl
  next =>
    have kept := insertRow_record model work attempt.key
    rw [Stateful.on_bind] at raised
    cases ran : (insertRow model attempt.key).on work with
    | mk result middle =>
      rw [ran] at raised kept
      cases result with
      | error error =>
        cases raised
        exact kept
      | ok result => cases raised
  next =>
    split at raised
    · cases raised
    · cases raised
      rfl
  next key _ =>
    split at raised
    · cases raised
    · rw [← insertRow_record model work key, raised]

theorem djangoSave_record (model : ModelClass K) (attempt : Attempt K) (work : Work K) (updateFields : Option (List String)) :
    ((djangoSave model attempt updateFields).on work).2.record = work.record ∨ ∃ tables,
      (djangoSave model attempt.calm updateFields).on work =
        (.ok (), ⟨tables, ((djangoSave model attempt updateFields).on work).2.record⟩) := by
  rw [djangoSave_on, djangoSave_on]
  split
  · exact .inl rfl
  · split
    · exact .inl rfl
    · split
      · exact .inl rfl
      · have same : saveTable model attempt.calm updateFields = saveTable model attempt updateFields := rfl
        rw [same]
        cases ran : (saveTable model attempt updateFields).on work with
        | mk result middle =>
          cases result with
          | error error => exact .inl (saveTable_error ran)
          | ok result => exact .inr ⟨middle.tables, rfl⟩

theorem saveTable_again (returned : (saveTable model attempt updateFields).on work = (.ok (), after)) :
    (saveTable model attempt updateFields).on ⟨work.tables, after.kept.record⟩ = (.ok (), after.kept) := by
  obtain ⟨key, given, present, -, rfl⟩ | ⟨rfl, key, rows, given, inserted, rfl⟩ := saveTable_ok returned
  · unfold saveTable
    rw [Stateful.on_bind, Stateful.on_get]
    simp only [Work.kept, given, Bool.false_and, Bool.not_false, Bool.and_true]
    cases updateFields with
    | none =>
      dsimp only
      rw [if_pos present]
      rfl
    | some names =>
      dsimp only
      rw [if_pos present]
      rfl
  · have absent : work.tables.rows.find key = none := (Rows.insert_eq_some inserted).1
    unfold saveTable
    rw [Stateful.on_bind, Stateful.on_get]
    simp only [Work.kept, absent, Option.isSome_none, Bool.false_and, Bool.false_eq_true, ↓reduceIte]
    exact insertRow_ok.mpr ⟨rows, inserted, rfl⟩

theorem djangoSave_again (returned : (djangoSave model attempt.calm updateFields).on work = (.ok (), after)) :
    (djangoSave model attempt.calm updateFields).on ⟨work.tables, after.record⟩ = (.ok (), after) := by
  obtain ⟨empty, rfl⟩ | ⟨middle, nonempty, -, -, wrote, rfl⟩ := djangoSave_ok returned
  · exact returned
  · have again := saveTable_again wrote
    rw [djangoSave_on, if_neg nonempty] at returned ⊢
    split at returned
    · cases returned
    next known =>
      rw [if_neg known, if_neg nofun, again]
      rfl

end Django

variable {object : ScopedObject}

section Manager

variable (model) (manager) (attempt) (work)

/-- What leaves the instance alone, whether it returns or raises. -/
abbrev Silent {α : Type} (program : Program K α) : Prop := program.Goes fun before after => after.record = before.record

theorem Silent.andThen {β : Type} {program : Program K α} {next : α → Program K β} (first : Silent program)
    (second : ∀ value, Silent (next value)) : Silent (program >>= next) :=
  .bind (fun _ _ _ one two => two.trans one) first second

theorem faultAt_silent (point : Point) : Silent (faultAt attempt point : Program K Unit) := by
  intro work
  unfold faultAt
  split <;> rfl

theorem insertVersion_silent (objectId : String) (version : Nat) (data : Json) (changeReason : String) :
    Silent (insertVersion manager attempt objectId version data changeReason : Program K Unit) := by
  refine .get_bind fun work => ?_
  dsimp only
  split
  · rfl
  · cases work.tables.versions.insert _ <;> rfl

theorem insertObject_silent (object : ScopedObject) : Silent (insertObject object : Program K Unit) := by
  refine .get_bind fun work => ?_
  dsimp only
  split <;> rfl

theorem create_silent (data : Json) : Silent (create model manager attempt data) := by
  refine (faultAt_silent attempt .syncing).andThen fun _ => ?_
  refine (insertObject_silent _).andThen fun _ => ?_
  refine (faultAt_silent attempt .inserting).andThen fun _ => ?_
  refine (insertVersion_silent manager attempt _ 1 data "created").andThen fun _ => ?_
  exact (faultAt_silent attempt .recording).andThen fun _ _ => rfl

theorem getOrRaise_on (objectId : String) : ∃ result, (getOrRaise manager objectId).on work = (result, work) ∧
    ∀ object, result = .ok object → work.tables.objects.find objectId = some object := by
  unfold getOrRaise
  rw [Stateful.on_bind, Stateful.on_get]
  dsimp only
  cases found : work.tables.objects.find objectId with
  | none => exact ⟨_, rfl, nofun⟩
  | some object =>
    have own : ∀ other, (.ok object : Except Raised ScopedObject) = .ok other → some object = some other := by
      intro other same
      rw [Except.ok.inj same]
    dsimp only
    split
    · exact ⟨_, rfl, own⟩
    · split
      · exact ⟨_, rfl, own⟩
      · exact ⟨_, rfl, nofun⟩

theorem getOrRaise_silent (objectId : String) : Silent (getOrRaise manager objectId : Program K ScopedObject) := by
  intro work
  obtain ⟨result, ran, -⟩ := getOrRaise_on manager work objectId
  rw [ran]

theorem checkAccessLevel_on (object : ScopedObject) (required : AccessLevel) : ∃ result,
    (checkAccessLevel manager object required).on work = (result, work) := by
  unfold checkAccessLevel
  split
  · exact ⟨_, rfl⟩
  · split
    · exact ⟨_, rfl⟩
    · dsimp only
      split
      · exact ⟨_, rfl⟩
      · exact ⟨_, rfl⟩

theorem refuseTombstoned_ok {work : Work K} {message : String}
    (passed : (refuseTombstoned object message).on work = (.ok (), after)) : object.lifecycle ≠ .archived ∧ after = work := by
  unfold refuseTombstoned at passed
  split at passed
  · cases passed
  next live =>
    cases passed
    exact ⟨live, rfl⟩

theorem refuseTombstoned_silent (object : ScopedObject) (message : String) :
    Silent (refuseTombstoned object message : Program K Unit) := by
  intro work
  unfold refuseTombstoned
  split <;> rfl

theorem update_silent (objectId : String) (data : Json) : Silent (update manager attempt objectId data : Program K Unit) := by
  refine (getOrRaise_silent manager objectId).andThen fun object => ?_
  refine Silent.andThen (fun work => ?_) fun _ => ?_
  · obtain ⟨result, ran⟩ := checkAccessLevel_on manager work object .write
    rw [ran]
  refine (faultAt_silent attempt .syncing).andThen fun _ => ?_
  refine (refuseTombstoned_silent object _).andThen fun _ => ?_
  refine (insertVersion_silent manager attempt _ _ data "").andThen fun _ => ?_
  refine (faultAt_silent attempt .inserting).andThen fun _ => ?_
  exact Silent.andThen (fun _ => rfl) fun _ => faultAt_silent attempt .recording

theorem sync_record [DecidableEq K] (isNew : Bool) (data : Json) :
    ((sync model manager attempt isNew data).on work).2.record = work.record ∨
    (isNew = true ∧ (attempt.fault ≠ some .linking →
      ∃ result, ((sync model manager attempt isNew data).on work).1 = .ok result)) := by
  cases isNew with
  | false =>
    unfold sync
    rw [if_neg nofun, Stateful.on_bind, Stateful.on_get]
    exact .inl (update_silent manager attempt work.record.scopedObjectId data work)
  | true =>
    have silent := create_silent model manager attempt data work
    unfold sync
    rw [if_pos rfl, Stateful.on_bind]
    cases ran : (create model manager attempt data).on work with
    | mk result middle =>
      rw [ran] at silent
      cases result with
      | error error => exact .inl silent
      | ok object =>
        refine .inr ⟨rfl, fun spared => ⟨(), ?_⟩⟩
        dsimp only
        rw [Stateful.on_bind, Stateful.on_modify]
        dsimp only
        rw [Stateful.on_bind, faultAt, if_neg spared]
        rfl

end Manager

section Retry

variable [DecidableEq K]

theorem djangoSave_link (returned : (djangoSave model attempt updateFields).on work = (.ok (), after)) :
    after.record.scopedObjectId = work.record.scopedObjectId := by
  obtain ⟨-, rfl⟩ | ⟨middle, -, -, -, wrote, rfl⟩ := djangoSave_ok returned
  · rfl
  · obtain ⟨key, -, -, -, rfl⟩ | ⟨-, key, rows, -, -, rfl⟩ := saveTable_ok wrote
    · rfl
    · rfl

/-- What the transaction of a save leaves in the instance: nothing, or what Django's
save leaves where nothing raises, or else the identifier of a new object. -/
theorem saveAndSync_record (model : ModelClass K) (manager : Manager) (attempt : Attempt K) (work : Work K)
    (updateFields : Option (List String)) :
    ((saveAndSync model manager attempt updateFields).on work).2.record = work.record ∨
    (∃ tables, (djangoSave model attempt.calm updateFields).on work =
      (.ok (), ⟨tables, ((saveAndSync model manager attempt updateFields).on work).2.record⟩)) ∨
    (work.record.scopedObjectId = "" ∧ (attempt.fault ≠ some .linking →
      ∃ result, ((saveAndSync model manager attempt updateFields).on work).1 = .ok result)) := by
  have settles := djangoSave_record model attempt work updateFields
  unfold saveAndSync
  rw [Stateful.on_bind, Stateful.on_get]
  dsimp only
  rw [Stateful.on_bind]
  cases ran : (djangoSave model attempt updateFields).on work with
  | mk result middle =>
    rw [ran] at settles
    cases result with
    | error error =>
      rcases settles with same | done
      · exact .inl same
      · exact .inr (.inl done)
    | ok result =>
      dsimp only
      rw [Stateful.on_bind]
      by_cases struck : attempt.fault = some .serializing
      · rw [faultAt, if_pos struck]
        rcases settles with same | done
        · exact .inl same
        · exact .inr (.inl done)
      · rw [faultAt, if_neg struck, Stateful.on_pure]
        dsimp only
        rw [Stateful.on_bind, Stateful.on_get]
        dsimp only
        obtain kept | ⟨isNew, returns⟩ := sync_record model manager attempt middle (decide (work.record.scopedObjectId = ""))
          (model.toScopedDict middle.record.key middle.record.values)
        · rw [kept]
          rcases settles with same | done
          · exact .inl same
          · exact .inr (.inl done)
        · exact .inr (.inr ⟨of_decide_eq_true isNew, returns⟩)

/-- A save that raises changes no table, and a second attempt does what the first
would have done, unless a first save raises after it has given the instance an identifier. -/
theorem save_retried {error : Raised}
    (raised : (save model manager attempt updateFields).on work = (.error error, after))
    (early : work.record.scopedObjectId = "" → attempt.fault ≠ some .linking ∧ attempt.fault ≠ some .committing) :
    after.tables = work.tables ∧
      (save model manager attempt.calm updateFields).on after = (save model manager attempt.calm updateFields).on work := by
  obtain ⟨tables, from'⟩ := atomic_error raised
  refine ⟨tables, ?_⟩
  have left := saveAndSync_record model manager attempt work updateFields
  have record : after.record = ((saveAndSync model manager attempt updateFields).on work).2.record := by
    obtain ⟨middle, ran, record⟩ | ⟨-, result, middle, ran, record⟩ := from'
    · rw [record, ran]
    · rw [record, ran]
  rw [← record] at left
  obtain same | ⟨settled, done⟩ | ⟨isNew, returns⟩ := left
  · have equal : after = work := by
      cases after
      cases work
      simp_all
    rw [equal]
  · have again := djangoSave_again done
    have link := djangoSave_link done
    dsimp only at link
    have whole : after = ⟨work.tables, after.record⟩ := by rw [← tables]
    have body : (saveAndSync model manager attempt.calm updateFields).on after =
        (saveAndSync model manager attempt.calm updateFields).on work := by
      unfold saveAndSync
      rw [Stateful.on_bind, Stateful.on_get, Stateful.on_bind, Stateful.on_get]
      dsimp only
      rw [Stateful.on_bind, Stateful.on_bind, link, done]
      rw [whole] at *
      rw [again]
    unfold save
    rw [atomic_on, atomic_on, Stateful.on_bind, Stateful.on_bind, body, tables]
  · obtain ⟨unlinked, uncommitted⟩ := early isNew
    obtain ⟨result, ran⟩ := returns unlinked
    obtain ⟨middle, failed, -⟩ | ⟨committing, -⟩ := from'
    · rw [failed] at ran
      cases ran
    · exact absurd committing uncommitted

end Retry

section Versions

/-- The data of a version of an object. -/
def dataOf (versions : Rows ObjectVersion.id) (objectId : String) (version : Nat) : Option Json :=
  (versions.list.find? fun row => row.objectId = objectId && row.version = version).map ObjectVersion.data

/-- A version that was added behind the others, and is the first of its number. -/
structure Added (before : Rows ObjectVersion.id) (objectId : String) (version : Nat) (data : Json)
    (after : Rows ObjectVersion.id) : Prop where
  current : dataOf after objectId version = some data
  others : ∀ otherId n, ¬ (otherId = objectId ∧ n = version) → dataOf after otherId n = dataOf before otherId n

variable {objectId : String}

theorem insertVersion_ok {changeReason : String} {version : Nat} {data : Json}
    (returned : (insertVersion manager attempt objectId version data changeReason).on work = (.ok (), after)) :
    ∃ versions, Added work.tables.versions objectId version data versions ∧
      after = ⟨{ work.tables with versions := versions }, work.record⟩ := by
  unfold insertVersion at returned
  rw [Stateful.on_bind, Stateful.on_get] at returned
  dsimp only at returned
  split at returned
  · cases returned
  next free =>
    split at returned
    next versions inserted =>
      cases returned
      refine ⟨versions, ⟨?_, ?_⟩, rfl⟩
      · have none : work.tables.versions.list.find? (fun row => row.objectId = objectId && row.version = version) = none := by
          rw [List.find?_eq_none]
          intro row inside same
          exact free (List.any_eq_true.mpr ⟨row, inside, same⟩)
        rw [dataOf, (Rows.insert_eq_some inserted).2, List.find?_append, none]
        simp
      · intro otherId n different
        rw [dataOf, (Rows.insert_eq_some inserted).2, List.find?_append, List.find?_cons_of_neg, List.find?_nil, Option.or_none]
        · rfl
        · intro same
          obtain ⟨one, other⟩ := Bool.and_eq_true_iff.mp same
          exact different ⟨(of_decide_eq_true one).symm, (of_decide_eq_true other).symm⟩
    · cases returned

theorem insertObject_ok (returned : (insertObject object).on work = (.ok (), after)) :
    ∃ objects, work.tables.objects.insert object = some objects ∧
      after = ⟨{ work.tables with objects := objects }, work.record⟩ := by
  unfold insertObject at returned
  rw [Stateful.on_bind, Stateful.on_get] at returned
  dsimp only at returned
  split at returned
  next objects inserted =>
    cases returned
    exact ⟨objects, inserted, rfl⟩
  · cases returned

theorem insertTombstone_ok {row : Tombstone} (returned : (insertTombstone row).on work = (.ok (), after)) :
    ∃ tombstones, after = ⟨{ work.tables with tombstones := tombstones }, work.record⟩ := by
  unfold insertTombstone at returned
  rw [Stateful.on_bind, Stateful.on_get] at returned
  dsimp only at returned
  split at returned
  · cases returned
  · split at returned
    next tombstones _ =>
      cases returned
      exact ⟨tombstones, rfl⟩
    · cases returned

theorem create_ok {data : Json} (returned : (create model manager attempt data).on work = (.ok object, after)) :
    attempt.Spares [.syncing, .inserting, .recording] ∧
    ∃ objects versions, work.tables.objects.insert object = some objects ∧ object.lifecycle ≠ .archived ∧
      Added work.tables.versions object.id object.currentVersion data versions ∧
      after = ⟨{ work.tables with objects := objects, versions := versions }, work.record⟩ := by
  unfold create at returned
  obtain ⟨syncing, returned⟩ := faultAt_past returned
  obtain ⟨_, first, inserted, versioned⟩ := Stateful.on_bind_ok.mp returned
  obtain ⟨objects, listed, rfl⟩ := insertObject_ok inserted
  obtain ⟨inserting, versioned⟩ := faultAt_past versioned
  obtain ⟨_, second, numbered, ended⟩ := Stateful.on_bind_ok.mp versioned
  obtain ⟨versions, added, rfl⟩ := insertVersion_ok numbered
  obtain ⟨recording, ended⟩ := faultAt_past ended
  cases ended
  exact ⟨spares_cons syncing (spares_cons inserting (spares_cons recording spares_nil)), objects, versions, listed, nofun,
    added, rfl⟩

theorem getOrRaise_ok (returned : (getOrRaise manager objectId).on work = (.ok object, after)) :
    work.tables.objects.find objectId = some object ∧ after = work := by
  obtain ⟨result, ran, found⟩ := getOrRaise_on manager work objectId
  rw [ran] at returned
  cases returned
  exact ⟨found object rfl, rfl⟩

theorem checkAccessLevel_past {required : AccessLevel} {next : Unit → Program K α} {result : α}
    (returned : (checkAccessLevel manager object required >>= next).on work = (.ok result, after)) :
    (next ()).on work = (.ok result, after) := by
  obtain ⟨_, middle, passed, rest⟩ := Stateful.on_bind_ok.mp returned
  obtain ⟨outcome, ran⟩ := checkAccessLevel_on manager work object required
  rw [ran] at passed
  cases passed
  exact rest

theorem update_ok {data : Json} (returned : (update manager attempt objectId data).on work = (.ok (), after)) :
    attempt.Spares [.syncing, .inserting, .recording] ∧
    ∃ object versions, work.tables.objects.find objectId = some object ∧ object.lifecycle ≠ .archived ∧
      Added work.tables.versions objectId (object.currentVersion + 1) data versions ∧
      after = ⟨{ work.tables with
        objects := work.tables.objects.update (fun other => other.id = objectId)
          (fun other => { other with currentVersion := object.currentVersion + 1 }) fun _ => rfl
        versions := versions }, work.record⟩ := by
  unfold update at returned
  obtain ⟨object, first, got, checked⟩ := Stateful.on_bind_ok.mp returned
  obtain ⟨found, rfl⟩ := getOrRaise_ok got
  obtain ⟨syncing, checked⟩ := faultAt_past (checkAccessLevel_past checked)
  obtain ⟨_, second, refused, versioned⟩ := Stateful.on_bind_ok.mp checked
  obtain ⟨live, rfl⟩ := refuseTombstoned_ok refused
  obtain ⟨_, third, numbered, assigned⟩ := Stateful.on_bind_ok.mp versioned
  obtain ⟨versions, added, rfl⟩ := insertVersion_ok numbered
  obtain ⟨inserting, assigned⟩ := faultAt_past assigned
  obtain ⟨_, fourth, changed, ended⟩ := Stateful.on_bind_ok.mp assigned
  cases changed
  obtain ⟨recording, rfl⟩ := faultAt_ok.mp ended
  exact ⟨spares_cons syncing (spares_cons inserting (spares_cons recording spares_nil)), object, versions, found, live, added,
    rfl⟩

theorem tombstone_ok {reason : String}
    (returned : (tombstone manager attempt objectId reason).on work = (.ok (), after)) :
    attempt.Spares [.syncing, .inserting, .recording] ∧
    (∃ object, work.tables.objects.find objectId = some object ∧ object.lifecycle ≠ .archived) ∧ ∃ tombstones, after = ⟨{ work.tables with
      objects := work.tables.objects.update (fun other => other.id = objectId)
        (fun other => { other with lifecycle := .archived }) fun _ => rfl
      tombstones := tombstones }, work.record⟩ := by
  unfold tombstone at returned
  obtain ⟨object, first, got, checked⟩ := Stateful.on_bind_ok.mp returned
  obtain ⟨found, rfl⟩ := getOrRaise_ok got
  obtain ⟨syncing, checked⟩ := faultAt_past (checkAccessLevel_past checked)
  obtain ⟨_, second, refused, withdrawn⟩ := Stateful.on_bind_ok.mp checked
  obtain ⟨live, rfl⟩ := refuseTombstoned_ok refused
  obtain ⟨_, third, changed, marked⟩ := Stateful.on_bind_ok.mp withdrawn
  cases changed
  obtain ⟨inserting, marked⟩ := faultAt_past marked
  obtain ⟨_, fourth, inserted, ended⟩ := Stateful.on_bind_ok.mp marked
  obtain ⟨tombstones, rfl⟩ := insertTombstone_ok inserted
  obtain ⟨recording, rfl⟩ := faultAt_ok.mp ended
  exact ⟨spares_cons syncing (spares_cons inserting (spares_cons recording spares_nil)), ⟨object, found, live⟩, tombstones,
    rfl⟩

end Versions

end PyScoped.Legacy.DjangoModels
