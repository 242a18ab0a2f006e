import PyScoped.Foundation.Runs
import PyScoped.Proofs.DjangoCalls

/-! When the rows of version 1 that Django stores and their scoped objects stay
equal, in every run of saves and deletes. -/

namespace PyScoped.Legacy.DjangoModels
open Foundation Runs

variable {K : Type} {model : ModelClass K} {manager : Manager} {attempt : Attempt K} {work after : Work K}
variable {updateFields : Option (List String)} {row : Row K}

section Synced

/-- Rows and objects belong together: every row has a live object of its own, whose
current version holds the row, and every live object has its row. -/
structure Synced [DecidableEq K] (model : ModelClass K) (tables : Tables K) : Prop where
  linked : ∀ row ∈ tables.rows.list, ∃ object, tables.objects.find row.scopedObjectId = some object ∧
    object.lifecycle ≠ .archived ∧
    dataOf tables.versions object.id object.currentVersion = some (model.toScopedDict (some row.key) row.values)
  alone : ∀ row ∈ tables.rows.list, ∀ other ∈ tables.rows.list, row.scopedObjectId = other.scopedObjectId → row = other
  covered : ∀ object ∈ tables.objects.list, object.lifecycle ≠ .archived →
    ∃ row ∈ tables.rows.list, row.scopedObjectId = object.id

/-- What the row has of every serialized field behind the save serializes as what the instance has. -/
def Faithful (model : ModelClass K) (updateFields : Option (List String)) (record : Instance K) (old : String → Value) : Prop :=
  ∀ field ∈ model.fields, model.isScoped field = true → field ≠ model.primaryKey →
    model.serialize field (record.values field.attname) = model.serialize field
      (if writes updateFields field.name field.attname then model.stored field (record.values field.attname)
        else old field.attname)

theorem column_found {field : Field} (member : field ∈ model.fields) :
    (model.fields.find? fun other => other.attname = field.attname) = some field := by
  have present : (model.fields.find? fun other => other.attname = field.attname).isSome :=
    List.find?_isSome.mpr ⟨field, member, by simp⟩
  obtain ⟨other, found⟩ := Option.isSome_iff_exists.mp present
  have same : other.attname = field.attname := by simpa using List.find?_some found
  rw [found, List.inj_on_of_nodup_map model.columns (List.mem_of_find?_eq_some found) member same]

theorem Faithful.dict {record : Instance K}
    (faithful : Faithful model updateFields record row.values) (key : Option K) :
    model.toScopedDict key (Row.write model updateFields record row).values = model.toScopedDict key record.values := by
  unfold ModelClass.toScopedDict
  congr 1
  refine List.map_congr_left fun field inside => ?_
  obtain ⟨member, kept⟩ := List.mem_filter.mp inside
  congr 1
  unfold ModelClass.valueOf
  split
  · rfl
  next plain =>
    rw [faithful field member kept plain]
    unfold Row.write
    dsimp only
    rw [column_found member]

variable [DecidableEq K] {tables : Tables K}

/-- A new version of the object of one row, which holds what the row is now. -/
theorem Synced.revised (synced : Synced model tables) (member : row ∈ tables.rows.list) {object : ScopedObject}
    (found : tables.objects.find row.scopedObjectId = some object) {data : Json} {versions : Rows ObjectVersion.id}
    (added : Added tables.versions row.scopedObjectId (object.currentVersion + 1) data versions) (change : Row K → Row K)
    (keeps : ∀ other, (change other).key = other.key) (link : (change row).scopedObjectId = row.scopedObjectId)
    (holds : data = model.toScopedDict (some row.key) (change row).values) :
    Synced model { tables with
      rows := tables.rows.update (fun other => other.key = row.key) change keeps
      objects := tables.objects.update (fun other => other.id = row.scopedObjectId)
        (fun other => { other with currentVersion := object.currentVersion + 1 }) fun _ => rfl
      versions := versions } := by
  obtain ⟨-, id⟩ := Rows.find_eq_some.mp found
  have own : ∀ other ∈ tables.rows.list, decide (other.key = row.key) = true → other = row := fun other inside same =>
    List.inj_on_of_nodup_map tables.rows.unique inside member (of_decide_eq_true same)
  have links : ∀ other ∈ tables.rows.list,
      (if decide (other.key = row.key) = true then change other else other).scopedObjectId = other.scopedObjectId := by
    intro other inside
    split
    next same => rw [own other inside same, link]
    · rfl
  constructor
  · intro after inside
    obtain ⟨other, present, rfl⟩ := List.mem_map.mp inside
    rw [links other present, Rows.find_update]
    obtain ⟨target, foundTarget, live, current⟩ := synced.linked other present
    obtain ⟨-, id'⟩ := Rows.find_eq_some.mp foundTarget
    rw [foundTarget, Option.map_some]
    refine ⟨_, rfl, ?_, ?_⟩
    · split
      · exact live
      · exact live
    · by_cases same : other.key = row.key
      · have equal := own other present (decide_eq_true same)
        subst equal
        have chosen : decide (target.id = other.scopedObjectId) = true := decide_eq_true id'
        rw [if_pos chosen, if_pos (decide_eq_true rfl)]
        dsimp only
        rw [keeps, id', added.current, holds]
      · have foreign : ¬ target.id = row.scopedObjectId := by
          intro shared
          have joined := synced.alone other present row member (id'.symm.trans shared)
          exact same (congrArg Row.key joined)
        rw [if_neg (by simpa using foreign), if_neg (by simpa using same), added.others _ _ fun both => foreign both.1]
        exact current
  · intro first inside second inside' same
    obtain ⟨one, present, rfl⟩ := List.mem_map.mp inside
    obtain ⟨two, present', rfl⟩ := List.mem_map.mp inside'
    rw [links one present, links two present'] at same
    rw [synced.alone one present two present' same]
  · intro target inside live
    obtain ⟨original, present, rfl⟩ := List.mem_map.mp inside
    have live : original.lifecycle ≠ .archived := by
      split at live
      · exact live
      · exact live
    obtain ⟨other, listed, linked⟩ := synced.covered original present live
    refine ⟨_, List.mem_map.mpr ⟨other, listed, rfl⟩, ?_⟩
    rw [links other listed, linked]
    split <;> rfl

/-- A row that is new, with an object that is new and that its link names. -/
theorem Synced.opened (synced : Synced model tables) {rows : Rows (Row.key (K := K))}
    (inserted : tables.rows.insert row = some rows) {object : ScopedObject} {objects : Rows ScopedObject.id}
    (listed : tables.objects.insert object = some objects) (live : object.lifecycle ≠ .archived) {data : Json}
    {versions : Rows ObjectVersion.id} (added : Added tables.versions object.id object.currentVersion data versions)
    (holds : data = model.toScopedDict (some row.key) row.values) :
    Synced model { tables with
      rows := rows.update (fun other => some row.key = some other.key)
        (fun other => { other with scopedObjectId := object.id, scopedOwnerId := object.ownerId }) fun _ => rfl
      objects := objects, versions := versions } := by
  obtain ⟨freeKey, appended⟩ := Rows.insert_eq_some inserted
  obtain ⟨freeId, appended'⟩ := Rows.insert_eq_some listed
  let linked : Row K := { row with scopedObjectId := object.id, scopedOwnerId := object.ownerId }
  have shape : (rows.update (fun other => some row.key = some other.key)
      (fun other => { other with scopedObjectId := object.id, scopedOwnerId := object.ownerId }) fun _ => rfl).list =
      tables.rows.list ++ [linked] := by
    have others : ∀ other ∈ tables.rows.list, (if decide (some row.key = some other.key) = true then
        { other with scopedObjectId := object.id, scopedOwnerId := object.ownerId } else other) = other := by
      intro other inside
      refine if_neg fun same => ?_
      exact Rows.find_eq_none.mp freeKey other inside (Option.some.inj (of_decide_eq_true same)).symm
    change List.map _ rows.list = _
    rw [appended, List.map_append, List.map_congr_left others, List.map_id', List.map_singleton,
      if_pos (decide_eq_true rfl)]
  have foreign : ∀ other ∈ tables.rows.list, other.scopedObjectId ≠ object.id := by
    intro other inside same
    obtain ⟨target, found, -⟩ := synced.linked other inside
    rw [same, freeId] at found
    cases found
  constructor
  · intro after inside
    have inside : after ∈ tables.rows.list ++ [linked] := shape ▸ inside
    rw [Rows.find_insert listed]
    rcases List.mem_append.mp inside with before | own
    · obtain ⟨target, found, alive, current⟩ := synced.linked after before
      obtain ⟨-, id⟩ := Rows.find_eq_some.mp found
      have other : target.id ≠ object.id := id ▸ foreign after before
      refine ⟨target, by rw [if_neg (foreign after before), found], alive, ?_⟩
      rw [added.others _ _ fun both => other both.1, current]
    · cases List.mem_singleton.mp own
      exact ⟨object, if_pos rfl, live, added.current.trans (congrArg some holds)⟩
  · intro first inside second inside' same
    have inside : first ∈ tables.rows.list ++ [linked] := shape ▸ inside
    have inside' : second ∈ tables.rows.list ++ [linked] := shape ▸ inside'
    rcases List.mem_append.mp inside with before | own <;> rcases List.mem_append.mp inside' with before' | own'
    · exact synced.alone first before second before' same
    · cases List.mem_singleton.mp own'
      exact absurd same (foreign first before)
    · cases List.mem_singleton.mp own
      exact absurd same.symm (foreign second before')
    · rw [List.mem_singleton.mp own, List.mem_singleton.mp own']
  · intro target inside alive
    have inside : target ∈ tables.objects.list ++ [object] := appended' ▸ inside
    rcases List.mem_append.mp inside with before | own
    · obtain ⟨other, present, link⟩ := synced.covered target before alive
      exact ⟨other, shape ▸ List.mem_append_left _ present, link⟩
    · cases List.mem_singleton.mp own
      exact ⟨linked, shape ▸ List.mem_append_right _ List.mem_cons_self, rfl⟩

/-- The row is deleted, and its object is archived. -/
theorem Synced.withdrawn (synced : Synced model tables) (member : row ∈ tables.rows.list)
    (tombstones : Rows Tombstone.id) :
    Synced model { tables with
      rows := tables.rows.delete fun other => other.key = row.key
      objects := tables.objects.update (fun other => other.id = row.scopedObjectId)
        (fun other => { other with lifecycle := .archived }) fun _ => rfl
      tombstones := tombstones } := by
  have remains : ∀ other ∈ (tables.rows.delete fun other => other.key = row.key).list,
      other ∈ tables.rows.list ∧ other.scopedObjectId ≠ row.scopedObjectId := by
    intro other inside
    obtain ⟨present, spared⟩ := List.mem_filter.mp inside
    refine ⟨present, fun same => ?_⟩
    rw [synced.alone other present row member same] at spared
    simp at spared
  constructor
  · intro other inside
    obtain ⟨present, foreign⟩ := remains other inside
    obtain ⟨target, found, live, current⟩ := synced.linked other present
    obtain ⟨-, id⟩ := Rows.find_eq_some.mp found
    have spared : ¬ decide (target.id = row.scopedObjectId) = true := by
      rw [id]
      simpa using foreign
    rw [Rows.find_update, found, Option.map_some, if_neg spared]
    exact ⟨target, rfl, live, current⟩
  · intro first inside second inside' same
    exact synced.alone first (remains first inside).1 second (remains second inside').1 same
  · intro target inside live
    obtain ⟨original, present, rfl⟩ := List.mem_map.mp inside
    split at live
    · exact absurd rfl live
    next spared =>
      rw [if_neg spared]
      obtain ⟨other, listed, link⟩ := synced.covered original present live
      refine ⟨other, List.mem_filter.mpr ⟨listed, ?_⟩, link⟩
      have different : other.key ≠ row.key := by
        intro same
        have joined := List.inj_on_of_nodup_map tables.rows.unique listed member same
        rw [joined] at link
        exact spared (decide_eq_true link.symm)
      simpa using different

end Synced

section Calls

variable [DecidableEq K]

/-- The row that is stored under the key of the instance. -/
def Work.stored (work : Work K) : Option (Row K) := work.record.key.bind work.tables.rows.find

/-- The object of the instance can still be written. -/
def Work.Live (work : Work K) : Prop :=
  ∃ object, work.tables.objects.find work.record.scopedObjectId = some object ∧ object.lifecycle ≠ .archived

/-- Where a save may raise besides what it decides itself. -/
def savePoints (record : Instance K) (updateFields : Option (List String)) : List Point :=
  let django : List Point := if updateFields = some [] then [] else [.writing, .written]
  let link : List Point := if record.scopedObjectId = "" then [.linking] else []
  django ++ link ++ ([.serializing, .syncing, .inserting, .recording, .committing] : List Point)

/-- The saves that do not return. -/
inductive Refused (model : ModelClass K) (attempt : Attempt K) (work : Work K) (updateFields : Option (List String)) : Prop
  | struck (point : Point) (passed : point ∈ savePoints work.record updateFields) (raises : attempt.fault = some point)
  | unknown (named : updateFields.any (unknownField model) = true)
  | missing (names : List String) (given : updateFields = some names) (nonempty : names ≠ []) (absent : work.stored = none)
  | taken (whole : updateFields = none) (inserting : (work.record.adding && model.keyHasDefault) = true)
      (present : work.stored.isSome = true)
  | gone (linked : work.record.scopedObjectId ≠ "") (gone : ¬ work.Live)

/-- The saves that leave the row and its object equal: of an instance that has the
link of its row, or of one that has neither link nor row. What they write comes back
as the instance has it, and what they leave out is in the row as in the instance. -/
inductive Fits (model : ModelClass K) (work : Work K) : Option (List String) → Prop
  | linked (updateFields : Option (List String)) (row : Row K) (stored : work.stored = some row)
      (link : work.record.scopedObjectId ≠ "") (same : work.record.scopedObjectId = row.scopedObjectId)
      (faithful : Faithful model updateFields work.record row.values) : Fits model work updateFields
  | fresh (unlinked : work.record.scopedObjectId = "") (absent : work.stored = none)
      (faithful : Faithful model none work.record fun _ => .none) : Fits model work none

/-- The row of the instance has its link, and the current version of the object that
it names holds the row. -/
def Current (model : ModelClass K) (work : Work K) : Prop :=
  ∃ row object, work.stored = some row ∧ row.scopedObjectId = work.record.scopedObjectId ∧
    work.tables.objects.find row.scopedObjectId = some object ∧
    dataOf work.tables.versions object.id object.currentVersion = some (model.toScopedDict (some row.key) row.values)

theorem Synced.current (synced : Synced model work.tables) (row : Row K) (stored : work.stored = some row)
    (link : row.scopedObjectId = work.record.scopedObjectId) : Current model work := by
  obtain ⟨key, -, found⟩ := Option.bind_eq_some_iff.mp stored
  obtain ⟨member, -⟩ := Rows.find_eq_some.mp found
  obtain ⟨object, present, -, current⟩ := synced.linked row member
  exact ⟨row, object, stored, link, present, current⟩

theorem save_begun (returned : (save model manager attempt updateFields).on work = (.ok (), after)) :
    attempt.Spares [.serializing, .committing] ∧ ∃ middle,
      (djangoSave model attempt updateFields).on work = (.ok (), middle) ∧
      (sync model manager attempt (decide (work.record.scopedObjectId = ""))
        (model.toScopedDict middle.record.key middle.record.values)).on middle = (.ok (), after) := by
  obtain ⟨ran, committing⟩ := atomic_ok returned
  unfold saveAndSync at ran
  rw [Stateful.on_bind, Stateful.on_get] at ran
  dsimp only at ran
  obtain ⟨_, middle, wrote, rest⟩ := Stateful.on_bind_ok.mp ran
  obtain ⟨serializing, rest⟩ := faultAt_past rest
  rw [Stateful.on_bind, Stateful.on_get] at rest
  exact ⟨spares_cons serializing (spares_cons committing spares_nil), middle, wrote, rest⟩

theorem sync_new_ok {data : Json} (returned : (sync model manager attempt true data).on work = (.ok (), after)) :
    attempt.Spares [.syncing, .inserting, .recording] ∧ attempt.fault ≠ some .linking ∧ ∃ object objects versions,
      work.tables.objects.insert object = some objects ∧ object.lifecycle ≠ .archived ∧
      Added work.tables.versions object.id object.currentVersion data versions ∧
      after = ⟨{ work.tables with
        rows := work.tables.rows.update (fun row => work.record.key = some row.key)
          (fun row => { row with scopedObjectId := object.id, scopedOwnerId := object.ownerId }) fun _ => rfl
        objects := objects, versions := versions },
        { work.record with scopedObjectId := object.id, scopedOwnerId := object.ownerId }⟩ := by
  unfold sync at returned
  rw [if_pos rfl] at returned
  obtain ⟨object, middle, created, rest⟩ := Stateful.on_bind_ok.mp returned
  obtain ⟨spared, objects, versions, listed, live, added, rfl⟩ := create_ok created
  rw [Stateful.on_bind, Stateful.on_modify] at rest
  obtain ⟨linking, rest⟩ := faultAt_past rest
  cases rest
  exact ⟨spared, linking, object, objects, versions, listed, live, added, rfl⟩

theorem sync_linked_ok {data : Json} (returned : (sync model manager attempt false data).on work = (.ok (), after)) :
    (update manager attempt work.record.scopedObjectId data).on work = (.ok (), after) := by
  unfold sync at returned
  rw [if_neg nofun, Stateful.on_bind, Stateful.on_get] at returned
  exact returned

/-- A save that returns has met nothing that raises. -/
theorem save_spared (returned : (save model manager attempt updateFields).on work = (.ok (), after)) :
    attempt.Spares (savePoints work.record updateFields) := by
  obtain ⟨spared, middle, wrote, synced⟩ := save_begun returned
  have django : attempt.Spares (if updateFields = some [] then [] else [.writing, .written]) := by
    obtain ⟨empty, -⟩ | ⟨_, nonempty, -, spared, -, -⟩ := djangoSave_ok wrote
    · rw [if_pos empty]
      exact spares_nil
    · rw [if_neg nonempty]
      exact spared
  have inner : attempt.Spares [.syncing, .inserting, .recording] ∧
      attempt.Spares (if work.record.scopedObjectId = "" then [.linking] else []) := by
    by_cases isNew : work.record.scopedObjectId = ""
    · rw [decide_eq_true isNew] at synced
      obtain ⟨spared, linking, -⟩ := sync_new_ok synced
      rw [if_pos isNew]
      exact ⟨spared, spares_cons linking spares_nil⟩
    · rw [decide_eq_false isNew] at synced
      rw [if_neg isNew]
      exact ⟨(update_ok (sync_linked_ok synced)).1, spares_nil⟩
  have always : attempt.Spares [.serializing, .syncing, .inserting, .recording, .committing] :=
    spares_cons (spared _ (by simp)) (spares_cons (inner.1 _ (by simp)) (spares_cons (inner.1 _ (by simp))
      (spares_cons (inner.1 _ (by simp)) (spares_cons (spared _ (by simp)) spares_nil))))
  intro point passed
  rcases List.mem_append.mp passed with early | late
  · rcases List.mem_append.mp early with first | link
    · exact django point first
    · exact inner.2 point link
  · exact always point late

theorem djangoSave_object (returned : (djangoSave model attempt updateFields).on work = (.ok (), after)) :
    after.tables.objects = work.tables.objects := by
  obtain ⟨-, rfl⟩ | ⟨middle, -, -, -, wrote, rfl⟩ := djangoSave_ok returned
  · rfl
  · obtain ⟨key, -, -, -, rfl⟩ | ⟨-, key, rows, -, -, rfl⟩ := saveTable_ok wrote
    · rfl
    · rfl

theorem Refused.raises (refused : Refused model attempt work updateFields) :
    (save model manager attempt updateFields).on work ≠ (.ok (), after) := by
  intro returned
  obtain ⟨-, middle, wrote, synced⟩ := save_begun returned
  cases refused with
  | struck point passed raises => exact save_spared returned point passed raises
  | unknown named =>
    obtain ⟨rfl, -⟩ | ⟨_, -, known, -⟩ := djangoSave_ok wrote
    · cases named
    · rw [known] at named
      cases named
  | missing names given nonempty absent =>
    obtain ⟨rfl, -⟩ | ⟨_, -, -, -, wrote, -⟩ := djangoSave_ok wrote
    · exact nonempty (Option.some.inj given).symm
    · obtain ⟨key, named, present, -⟩ | ⟨whole, -⟩ := saveTable_ok wrote
      · rw [Work.stored, named, Option.bind_some] at absent
        rw [absent] at present
        cases present
      · rw [whole] at given
        cases given
  | taken whole inserting present =>
    obtain ⟨rfl, -⟩ | ⟨_, -, -, -, wrote, -⟩ := djangoSave_ok wrote
    · cases whole
    · obtain ⟨key, named, -, updating, -⟩ | ⟨-, key, rows, named, inserted, -⟩ := saveTable_ok wrote
      · rw [updating whole] at inserting
        cases inserting
      · have absent : work.tables.rows.find key = none := (Rows.insert_eq_some inserted).1
        obtain given | ⟨keyless, -⟩ := named
        · rw [Work.stored, given, Option.bind_some, absent] at present
          cases present
        · rw [Work.stored, keyless] at present
          cases present
  | gone linked gone =>
    rw [decide_eq_false linked] at synced
    obtain ⟨-, object, versions, found, live, -⟩ := update_ok (sync_linked_ok synced)
    rw [djangoSave_object wrote, djangoSave_link wrote] at found
    exact gone ⟨object, found, live⟩

/-- What the write of Django leaves of the row of a linked instance. -/
theorem djangoSave_linked {key : K} (given : work.record.key = some key)
    (found : work.tables.rows.find key = some row)
    (returned : (djangoSave model attempt updateFields).on work = (.ok (), after)) :
    after.tables = work.updated model updateFields key ∧ after.record.key = some key ∧
      after.record.values = work.record.values := by
  obtain ⟨rfl, rfl⟩ | ⟨middle, -, -, -, wrote, rfl⟩ := djangoSave_ok returned
  · have nothing : ∀ row : Row K, Row.write model (some []) after.record row = row := by
      intro row
      unfold Row.write writes
      congr 1
      funext attname
      split <;> rfl
    have same : after.tables.rows.update (fun row => row.key = key) (Row.write model (some []) after.record) (fun _ => rfl) =
        after.tables.rows := Rows.update_eq_self _ fun row _ _ => nothing row
    refine ⟨?_, given, rfl⟩
    unfold Work.updated
    rw [same]
  · obtain ⟨key', given', -, -, rfl⟩ | ⟨-, key', rows, given', inserted, -⟩ := saveTable_ok wrote
    · cases given.symm.trans given'
      exact ⟨rfl, given, rfl⟩
    · have absent : work.tables.rows.find key' = none := (Rows.insert_eq_some inserted).1
      rw [given] at given'
      obtain same | ⟨keyless, -⟩ := given'
      · cases same
        rw [found] at absent
        cases absent
      · cases keyless

theorem Work.updated_find (model : ModelClass K) (updateFields : Option (List String)) {key : K}
    (found : work.tables.rows.find key = some row) :
    (work.updated model updateFields key).rows.find key = some (Row.write model updateFields work.record row) := by
  obtain ⟨-, own⟩ := Rows.find_eq_some.mp found
  refine (Rows.find_update work.tables.rows (fun row => row.key = key) (Row.write model updateFields work.record)
    (fun _ => rfl) key).trans ?_
  rw [found, Option.map_some, if_pos (decide_eq_true own)]

theorem Synced.saved_linked (synced : Synced model work.tables)
    (stored : work.stored = some row) (link : work.record.scopedObjectId ≠ "")
    (same : work.record.scopedObjectId = row.scopedObjectId) (faithful : Faithful model updateFields work.record row.values)
    (returned : (save model manager attempt updateFields).on work = (.ok (), after)) :
    Synced model after.tables ∧ Current model after := by
  obtain ⟨key, given, found⟩ := Option.bind_eq_some_iff.mp stored
  obtain ⟨member, own⟩ := Rows.find_eq_some.mp found
  obtain ⟨-, middle, wrote, rest⟩ := save_begun returned
  obtain ⟨tables, keyed, values⟩ := djangoSave_linked given found wrote
  rw [decide_eq_false link] at rest
  have updated := sync_linked_ok rest
  rw [djangoSave_link wrote, same, keyed, values] at updated
  obtain ⟨-, object, versions, present, -, added, rfl⟩ := update_ok updated
  rw [tables] at present added
  have written : (Row.write model updateFields work.record row).scopedObjectId = row.scopedObjectId := by
    change (if _ then work.record.scopedObjectId else row.scopedObjectId) = _
    split
    · exact same
    · rfl
  rw [← own] at tables added
  have revised := synced.revised member present added (Row.write model updateFields work.record) (fun _ => rfl) written
    (by rw [faithful.dict])
  have after' : Synced model { middle.tables with
      objects := middle.tables.objects.update (fun other => other.id = row.scopedObjectId)
        (fun other => { other with currentVersion := object.currentVersion + 1 }) fun _ => rfl
      versions := versions } := by
    rw [tables]
    exact revised
  refine ⟨after', after'.current (Row.write model updateFields work.record row) ?_ ?_⟩
  · change middle.record.key.bind middle.tables.rows.find = _
    rw [keyed, tables, Option.bind_some, own]
    exact Work.updated_find model updateFields found
  · change _ = middle.record.scopedObjectId
    rw [written, djangoSave_link wrote, same]

theorem Synced.saved_fresh (synced : Synced model work.tables) (unlinked : work.record.scopedObjectId = "")
    (absent : work.stored = none) (faithful : Faithful model none work.record fun _ => .none)
    (returned : (save model manager attempt none).on work = (.ok (), after)) :
    Synced model after.tables ∧ Current model after := by
  obtain ⟨-, middle, wrote, rest⟩ := save_begun returned
  obtain ⟨empty, -⟩ | ⟨first, -, -, -, inserting, rfl⟩ := djangoSave_ok wrote
  · cases empty
  obtain ⟨key, given, present, -⟩ | ⟨-, key, rows, -, inserted, rfl⟩ := saveTable_ok inserting
  · rw [Work.stored, given, Option.bind_some] at absent
    rw [absent] at present
    cases present
  rw [decide_eq_true unlinked] at rest
  obtain ⟨-, -, object, objects, versions, listed, live, added, rfl⟩ := sync_new_ok rest
  let row : Row K := Row.write model none work.record ⟨key, fun _ => .none, "", ""⟩
  have holds : model.toScopedDict (some key) work.record.values = model.toScopedDict (some row.key) row.values :=
    (faithful.dict (some key)).symm
  have opened := synced.opened inserted listed live added holds
  refine ⟨opened, opened.current { row with scopedObjectId := object.id, scopedOwnerId := object.ownerId } ?_ rfl⟩
  refine (Rows.find_update rows (fun row => some key = some row.key)
    (fun row => { row with scopedObjectId := object.id, scopedOwnerId := object.ownerId }) (fun _ => rfl) key).trans ?_
  have found : rows.find key = some row := (Rows.find_insert inserted key).trans (if_pos rfl)
  have own : some key = some row.key := rfl
  rw [found, Option.map_some, if_pos (decide_eq_true own)]

theorem Synced.saved (synced : Synced model work.tables)
    (fits : Fits model work updateFields) (returned : (save model manager attempt updateFields).on work = (.ok (), after)) :
    Synced model after.tables ∧ Current model after := by
  cases fits with
  | linked updateFields row stored link same faithful => exact synced.saved_linked stored link same faithful returned
  | fresh unlinked absent faithful => exact synced.saved_fresh unlinked absent faithful returned

/-- Where a delete may raise besides what it decides itself. -/
def deletePoints (record : Instance K) : List Point :=
  let withdrawn : List Point := if record.scopedObjectId = "" then [] else [.syncing, .inserting, .recording]
  withdrawn ++ ([.writing, .written, .committing] : List Point)

/-- The deletes that do not return. -/
inductive DeleteRefused (attempt : Attempt K) (work : Work K) : Prop
  | struck (point : Point) (passed : point ∈ deletePoints work.record) (raises : attempt.fault = some point)
  | keyless (keyless : work.record.key = none)
  | gone (linked : work.record.scopedObjectId ≠ "") (gone : ¬ work.Live)

/-- The deletes that take a row and its object: of an instance that has the link of its
row, or of one that has neither link nor row. -/
inductive DeleteFits (work : Work K) : Prop
  | linked (row : Row K) (stored : work.stored = some row) (link : work.record.scopedObjectId ≠ "")
      (same : work.record.scopedObjectId = row.scopedObjectId)
  | absent (unlinked : work.record.scopedObjectId = "") (absent : work.stored = none)

theorem djangoDelete_ok (returned : (djangoDelete model attempt).on work = (.ok (), after)) :
    attempt.Spares [.writing, .written] ∧ ∃ key, work.record.key = some key ∧
      after = ⟨{ work.tables with rows := work.tables.rows.delete fun row => row.key = key },
        { work.record with key := none }⟩ := by
  obtain ⟨writing, returned⟩ := faultAt_past returned
  rw [Stateful.on_bind, Stateful.on_get] at returned
  dsimp only at returned
  split at returned
  · cases returned
  next key given =>
    rw [Stateful.on_bind, deleteRow, Stateful.on_modify] at returned
    obtain ⟨written, returned⟩ := faultAt_past returned
    cases returned
    exact ⟨spares_cons writing (spares_cons written spares_nil), key, given, rfl⟩

/-- A delete that returns has deleted the row under the key of the instance, and
has archived the object that a linked instance names. -/
theorem delete_ok (returned : (delete model manager attempt).on work = (.ok (), after)) :
    attempt.Spares (deletePoints work.record) ∧ (work.record.scopedObjectId ≠ "" → work.Live) ∧
    ∃ key, work.record.key = some key ∧
      ((work.record.scopedObjectId = "" ∧
        after.tables = { work.tables with rows := work.tables.rows.delete fun row => row.key = key }) ∨
      (work.record.scopedObjectId ≠ "" ∧ ∃ tombstones, after.tables = { work.tables with
        rows := work.tables.rows.delete fun row => row.key = key
        objects := work.tables.objects.update (fun other => other.id = work.record.scopedObjectId)
          (fun other => { other with lifecycle := .archived }) fun _ => rfl
        tombstones := tombstones })) := by
  obtain ⟨ran, committing⟩ := atomic_ok returned
  rw [Stateful.on_bind, Stateful.on_get] at ran
  dsimp only at ran
  obtain ⟨_, middle, withdrawn, deleted⟩ := Stateful.on_bind_ok.mp ran
  obtain ⟨spared, key, given, rfl⟩ := djangoDelete_ok deleted
  have last : attempt.Spares [.writing, .written, .committing] :=
    spares_cons (spared _ (by simp)) (spares_cons (spared _ (by simp)) (spares_cons committing spares_nil))
  unfold tombstoneLinked at withdrawn
  unfold deletePoints
  by_cases unlinked : work.record.scopedObjectId = ""
  · rw [if_neg (not_not.mpr unlinked)] at withdrawn
    cases withdrawn
    rw [if_pos unlinked]
    exact ⟨last, absurd unlinked, key, given, .inl ⟨unlinked, rfl⟩⟩
  · rw [if_pos unlinked] at withdrawn
    obtain ⟨first, live, tombstones, rfl⟩ := tombstone_ok withdrawn
    rw [if_neg unlinked]
    refine ⟨fun point passed => ?_, fun _ => live, key, given, .inr ⟨unlinked, tombstones, rfl⟩⟩
    rcases List.mem_append.mp passed with early | late
    · exact first point early
    · exact last point late

theorem DeleteRefused.raises (refused : DeleteRefused attempt work) :
    (delete model manager attempt).on work ≠ (.ok (), after) := by
  intro returned
  obtain ⟨spared, live, key, given, -⟩ := delete_ok returned
  cases refused with
  | struck point passed raises => exact spared point passed raises
  | keyless keyless =>
    rw [given] at keyless
    cases keyless
  | gone linked gone => exact gone (live linked)

theorem Synced.deleted (synced : Synced model work.tables) (fits : DeleteFits work)
    (returned : (delete model manager attempt).on work = (.ok (), after)) : Synced model after.tables := by
  obtain ⟨-, -, key, given, ⟨unlinked, tables⟩ | ⟨linked, tombstones, tables⟩⟩ := delete_ok returned
  · cases fits with
    | linked row stored link same => exact absurd unlinked link
    | absent unlinked absent =>
      rw [Work.stored, given, Option.bind_some] at absent
      have same : (work.tables.rows.delete fun row => row.key = key) = work.tables.rows := by
        apply Rows.ext
        apply List.filter_eq_self.mpr
        intro row inside
        simpa using Rows.find_eq_none.mp absent row inside
      rw [tables, same]
      exact synced
  · cases fits with
    | absent unlinked absent => exact absurd unlinked linked
    | linked row stored link same =>
      rw [Work.stored, given, Option.bind_some] at stored
      obtain ⟨member, own⟩ := Rows.find_eq_some.mp stored
      rw [tables, same, ← own]
      exact synced.withdrawn member tombstones

end Calls

section Runs

variable {ι : Type} [DecidableEq ι] [DecidableEq K]

/-- The tables, and the instances that there are in memory. -/
structure World (ι K : Type) where
  tables : Tables K
  instances : ι → Instance K

/-- What happens next: an instance is constructed, loaded or changed in memory, or a
call is made on one. -/
inductive Move (ι K : Type) where
  | hold (name : ι) (record : Instance K)
  | save (name : ι) (attempt : Attempt K) (updateFields : Option (List String))
  | delete (name : ι) (attempt : Attempt K)

def World.on (world : World ι K) (name : ι) : Work K := ⟨world.tables, world.instances name⟩

def World.behind (world : World ι K) (name : ι) (work : Work K) : World ι K :=
  ⟨work.tables, Function.update world.instances name work.record⟩

def step (model : ModelClass K) (manager : Manager) (world : World ι K) : Move ι K → World ι K
  | .hold name record => world.behind name ⟨world.tables, record⟩
  | .save name attempt updateFields => world.behind name ((save model manager attempt updateFields).on (world.on name)).2
  | .delete name attempt => world.behind name ((delete model manager attempt).on (world.on name)).2

/-- What a save promises: the object that the instance names holds the row, or
else no table has changed, and the retry does what this attempt would have done. -/
def Kept (model : ModelClass K) (manager : Manager) (attempt : Attempt K) (updateFields : Option (List String))
    (work : Work K) : Prop :=
  match (save model manager attempt updateFields).on work with
  | (.ok (), after) => Current model after
  | (.error _, after) => after.tables = work.tables ∧
    (save model manager attempt.calm updateFields).on after = (save model manager attempt.calm updateFields).on work

/-- What the sync promises of a move, besides which rows and objects are equal behind it. -/
def Right (model : ModelClass K) (manager : Manager) (world : World ι K) (move : Move ι K) : Prop :=
  Synced model (step model manager world move).tables ∧
  match move with
  | .save name attempt updateFields => Kept model manager attempt updateFields (world.on name)
  | .hold _ _ | .delete _ _ => True

/-- The moves that keep the promise: no first save raises after it has given the
instance an identifier, and what returns fits the row that the instance is stored in. -/
def Sound (model : ModelClass K) (world : World ι K) : Move ι K → Prop
  | .hold _ _ => True
  | .save name attempt updateFields =>
    ((world.on name).record.scopedObjectId = "" → attempt.Spares [.linking, .committing]) ∧
      (Refused model attempt (world.on name) updateFields ∨ Fits model (world.on name) updateFields)
  | .delete name attempt => DeleteRefused attempt (world.on name) ∨ DeleteFits (world.on name)

theorem delete_raised {error : Raised} (raised : (delete model manager attempt).on work = (.error error, after)) :
    after.tables = work.tables := (atomic_error raised).1

/-- One move. -/
theorem Synced.moved {world : World ι K} {move : Move ι K} (synced : Synced model world.tables)
    (sound : Sound model world move) :
    Right model manager world move ∧ Synced model (step model manager world move).tables := by
  suffices right : Right model manager world move from ⟨right, right.1⟩
  cases move with
  | hold name record => exact ⟨synced, trivial⟩
  | save name attempt updateFields =>
    obtain ⟨early, fits⟩ := sound
    change Synced model ((save model manager attempt updateFields).on (world.on name)).2.tables ∧ Kept _ _ _ _ _
    unfold Kept
    cases ran : (save model manager attempt updateFields).on (world.on name) with
    | mk result after =>
      cases result with
      | ok result =>
        obtain refused | fits := fits
        · exact absurd ran refused.raises
        · exact synced.saved fits ran
      | error error =>
        have retried := save_retried ran fun unlinked =>
          ⟨early unlinked .linking (by simp), early unlinked .committing (by simp)⟩
        refine ⟨?_, retried⟩
        dsimp only
        rw [retried.1]
        exact synced
  | delete name attempt =>
    refine ⟨?_, trivial⟩
    change Synced model ((delete model manager attempt).on (world.on name)).2.tables
    cases ran : (delete model manager attempt).on (world.on name) with
    | mk result after =>
      cases result with
      | ok result =>
        obtain refused | fits := sound
        · exact absurd ran refused.raises
        · exact synced.deleted fits ran
      | error error =>
        dsimp only
        rw [delete_raised ran]
        exact synced

/-- Rows and objects stay equal in every run of sound moves: every save that returns
has the row in its object, and every save that raises can be retried. -/
theorem rows_stay_synced {world : World ι K} {run : List (Move ι K)} (start : Synced model world.tables)
    (sound : Meets (step model manager) (Sound model) world run) :
    Meets (step model manager) (Right model manager) world run := by
  have kept : ∀ (before : World ι K) (move : Move ι K), Synced model before.tables → Sound model before move →
      Right model manager before move ∧ Synced model (step model manager before move).tables :=
    fun _ _ synced sound => synced.moved sound
  exact Meets.guaranteed kept start sound

end Runs

namespace Sample

private def amount : Field := ⟨"amount", "amount", false⟩

private def currency : Field := ⟨"currency", "currency", false⟩

/-- A model whose columns give back what was written. -/
def invoice : ModelClass Nat where
  name := "Invoice"
  fields := [amount, currency]
  columns := by decide
  primaryKey := ⟨"id", "id", false⟩
  keyValue key := .plain (.int key)
  keyHasDefault := false
  scopedFields := none
  objectType := "invoice"
  typed := by decide
  stored _ value := value
  str _ := ""

def owner : Manager := ⟨"p", none⟩

/-- An invoice as it is constructed, and what it is after its first save. -/
private def priced (cents : Int) : String → Value
  | "amount" => .plain (.int cents)
  | "currency" => .plain (.str "EUR")
  | _ => .none

private def bill (cents : Int) : Instance Nat := ⟨none, true, priced cents, "", ""⟩

private def revised (cents : Int) : Instance Nat := ⟨some 7, false, priced cents, (ScopedId.repeated 1).text, "p"⟩

private def attempting (version : Fin 10) (fault : Option Point) : Attempt Nat where
  fault := fault
  key := 7
  objectId := .repeated 1
  versionId := .repeated version
  tombstoneId := .repeated 4
  now := ⟨2025, 1, 1, 12, 0, 0, 0, by decide⟩

/-- Nothing is stored yet. -/
def opening : World Unit Nat := ⟨⟨.empty, .empty, .empty, .empty⟩, fun _ => bill 100⟩

theorem opening_synced : Synced invoice opening.tables :=
  ⟨fun _ inside => absurd inside List.not_mem_nil, fun _ inside => absurd inside List.not_mem_nil,
    fun _ inside => absurd inside List.not_mem_nil⟩

/-- A first save, a change that is saved at the second attempt, and a delete. -/
def revising : List (Move Unit Nat) :=
  [.save () (attempting 2 none) none, .hold () (revised 200), .save () (attempting 3 (some .recording)) (some ["amount"]),
    .save () (attempting 3 none) (some ["amount"]), .delete () (attempting 4 none)]

/-- A first save, and a change of one field that is left out where another is saved. -/
def leaving : List (Move Unit Nat) :=
  [.save () (attempting 2 none) none, .hold () (revised 200), .save () (attempting 3 none) (some ["currency"])]

private theorem faithful_whole (record : Instance Nat) (old : String → Value) : Faithful invoice none record old :=
  fun _ _ _ _ => rfl

private theorem faithful_amount {old : String → Value} (same : old "currency" = .plain (.str "EUR")) :
    Faithful invoice (some ["amount"]) (revised 200) old := by
  intro field inside _ _
  obtain rfl | later := List.mem_cons.mp inside
  · rfl
  · cases List.mem_singleton.mp later
    exact congrArg (invoice.serialize currency) same.symm

private theorem revising_sound : Meets (step invoice owner) (Sound invoice) opening revising := by
  have first : Sound invoice opening (.save () (attempting 2 none) none) :=
    ⟨fun _ _ _ => nofun, .inr (.fresh rfl rfl (faithful_whole _ _))⟩
  have struck : ∀ world : World Unit Nat, Sound invoice world (.save () (attempting 3 (some .recording)) (some ["amount"])) := by
    intro world
    refine ⟨fun _ point inside same => ?_, .inl (.struck .recording ?_ rfl)⟩
    · cases same
      simp at inside
    · simp [savePoints]
  refine ⟨first, trivial, struck _, ⟨fun _ _ _ => nofun, ?_⟩, ?_, trivial⟩
  · exact .inr (.linked (some ["amount"]) _ rfl (by decide) rfl (faithful_amount rfl))
  · exact .inr (.linked _ rfl (by decide) rfl)

theorem rows_stay_synced_revising : Meets (step invoice owner) (Right invoice owner) opening revising :=
  rows_stay_synced opening_synced revising_sound

private def amountIn : Option Json → Option Int
  | some (.obj ((_, .int cents) :: _)) => some cents
  | _ => none

/-- The object gets the change that the row does not get. -/
theorem unsaved_change_diverges : Synced invoice opening.tables ∧
    ¬ Meets (step invoice owner) (Right invoice owner) opening leaving := by
  refine ⟨opening_synced, fun ⟨_, _, ⟨synced, _⟩, _⟩ => ?_⟩
  obtain ⟨object, found, -, current⟩ := synced.linked _ List.mem_cons_self
  cases found
  exact absurd (congrArg amountIn current) (by decide)

end Sample
end PyScoped.Legacy.DjangoModels
