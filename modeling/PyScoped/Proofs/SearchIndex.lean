import PyScoped.Legacy.SearchIndex

/-! When the full-text table stays in step with the entries. A call that has listed
rowids relies on the entries of its object until it has deleted them, and one that has
added an entry relies on it until its full-text row is there. -/

namespace PyScoped.Legacy.SearchIndex
open Foundation

variable {ι : Type}

/-- What a call in progress relies on. One that is alone knows all entries of its object. -/
def Holds (store : Store ι) (work : Work ι) : Prop :=
  match work.phase with
  | .begun => True
  | .listed pending =>
    (∀ entry ∈ store.entries.list, entry.objectId = work.objectId →
      (∃ fullText ∈ store.fullTexts.list, fullText.rowid = entry.rowid) → entry.rowid ∈ pending) ∧
    ∀ rowid ∈ pending, ∃ entry ∈ store.entries.list, entry.rowid = rowid ∧ entry.objectId = work.objectId
  | .adding added => work.alone = true →
    store.entriesOf work.objectId = added ∧ ∀ entry ∈ added, entry.fullText ∈ store.fullTexts.list
  | .pairing added entry =>
    (entry ∈ store.entries.list ∧ entry.objectId = work.objectId ∧
      ∀ fullText ∈ store.fullTexts.list, fullText.rowid ≠ entry.rowid) ∧
    (work.alone = true → store.entriesOf work.objectId = added ++ [entry] ∧
      ∀ entry ∈ added, entry.fullText ∈ store.fullTexts.list)

structure Kept (store : Store ι) : Prop where
  ids : (store.entries.list.map Entry.id).Nodup
  paired : ∀ fullText ∈ store.fullTexts.list, ∃ entry ∈ store.entries.list, entry.fullText = fullText
  holds : ∀ work ∈ store.works.list, Holds store work
  alone : ∀ first ∈ store.works.list, ∀ second ∈ store.works.list, first.client ≠ second.client →
    first.objectId = second.objectId → first.alone = false
  apart : ∀ first ∈ store.works.list, ∀ second ∈ store.works.list, first.client ≠ second.client →
    ∀ added entry added' entry', first.phase = .pairing added entry → second.phase = .pairing added' entry' →
      entry.rowid ≠ entry'.rowid
  free : store.blocked = false
  reports : ∀ report ∈ store.reports, report.alone = true → report.complete = true

theorem Kept.empty : Kept (Store.empty : Store ι) where
  ids := List.nodup_nil
  paired _ inside := absurd inside List.not_mem_nil
  holds _ inside := absurd inside List.not_mem_nil
  alone _ inside := absurd inside List.not_mem_nil
  apart _ inside := absurd inside List.not_mem_nil
  free := rfl
  reports _ inside := absurd inside List.not_mem_nil

theorem Holds.weaken {store : Store ι} {work other : Work ι} (holds : Holds store work) (objectId : other.objectId = work.objectId)
    (phase : other.phase = work.phase) (alone : other.alone = true → work.alone = true) : Holds store other := by
  unfold Holds at holds ⊢
  rw [phase, objectId]
  cases known : work.phase with
  | begun => trivial
  | listed pending =>
    rw [known] at holds
    exact holds
  | adding added =>
    rw [known] at holds
    exact fun held => holds (alone held)
  | pairing added entry =>
    rw [known] at holds
    exact ⟨holds.1, fun held => holds.2 (alone held)⟩

variable [DecidableEq ι]

def Work.removes (work : Work ι) : Bool :=
  match work.phase with
  | .listed _ => true
  | _ => false

def Work.adds (work : Work ι) : Bool :=
  match work.phase with
  | .pairing _ _ => true
  | _ => false

/-- The calls of other clients for the same object. -/
def Store.others (store : Store ι) (client : ι) (objectId : String) : List (Work ι) :=
  store.works.list.filter fun work => work.client ≠ client ∧ work.objectId = objectId

/-- Entries and full-text rows of an object are inserted while no other call removes
those of the object, and entries are deleted while none removes or adds any.
Generated identifiers are new. -/
def Undisturbed (client : ι) (store : Store ι) : Request → Prop
  | .insertEntry id objectId _ _ =>
    (∀ entry ∈ store.entries.list, entry.id ≠ id) ∧ ∀ work ∈ store.others client objectId, work.removes = false
  | .insertFullText _ =>
    ∀ own ∈ store.works.find client, ∀ work ∈ store.others client own.objectId, work.removes = false
  | .deleteEntries objectId => ∀ work ∈ store.others client objectId, work.removes = false ∧ work.adds = false
  | _ => True

/-- The object and the phase of a client's call. -/
def standingIn (works : Rows (@Work.client ι)) (client : ι) : Option (String × Phase) :=
  (works.find client).map fun work => (work.objectId, work.phase)

def Store.standing (store : Store ι) (client : ι) : Option (String × Phase) := standingIn store.works client

variable {entry : Entry} {added : List Entry}

section Statements

variable {store : Store ι} {client : ι} {objectId : String} {phase : Phase}

theorem standing_iff : store.standing client = some (objectId, phase) ↔
    ∃ work ∈ store.works.list, work.client = client ∧ work.objectId = objectId ∧ work.phase = phase := by
  rw [Store.standing, standingIn, Option.map_eq_some_iff]
  constructor
  · intro ⟨work, found, same⟩
    obtain ⟨member, own⟩ := Rows.find_eq_some.mp found
    obtain ⟨object, reached⟩ := Prod.mk.inj same
    exact ⟨work, member, own, object, reached⟩
  · intro ⟨work, member, own, object, reached⟩
    exact ⟨work, Rows.find_eq_some.mpr ⟨member, own⟩, Prod.ext object reached⟩

theorem proceeded (change : Phase → Phase) (standing : store.standing client = some (objectId, phase)) :
    (∀ other, other ≠ client → standingIn (store.proceed client change) other = store.standing other) ∧
      standingIn (store.proceed client change) client = some (objectId, change phase) := by
  have found : ∀ other, (store.proceed client change).find other = (store.works.find other).map fun work =>
      if work.client = client then { work with phase := change work.phase } else work := by
    intro other
    rw [Store.proceed, Rows.find_update]
    simp only [decide_eq_true_eq]
  constructor
  · intro other foreign
    rw [standingIn, found, Store.standing, standingIn]
    cases known : store.works.find other with
    | none => rfl
    | some work =>
      have foreign' : work.client ≠ client := (Rows.find_eq_some.mp known).2 ▸ foreign
      rw [Option.map_some, if_neg foreign']
  · rw [standingIn, found]
    obtain ⟨work, member, own, object, reached⟩ := standing_iff.mp standing
    rw [Rows.find_eq_some.mpr ⟨member, own⟩, Option.map_some, if_pos own, ← object, ← reached]
    rfl

theorem mem_proceed {change : Phase → Phase} {work : Work ι} : work ∈ (store.proceed client change).list ↔
    (work.client ≠ client ∧ work ∈ store.works.list) ∨
      ∃ before ∈ store.works.list, before.client = client ∧ work = { before with phase := change before.phase } := by
  unfold Store.proceed Rows.update
  rw [List.mem_map]
  constructor
  · rintro ⟨before, member, changed⟩
    by_cases same : before.client = client
    · rw [if_pos (decide_eq_true same)] at changed
      exact .inr ⟨before, member, same, changed.symm⟩
    · rw [if_neg (by simpa using same)] at changed
      subst changed
      exact .inl ⟨same, member⟩
  · rintro (⟨foreign, member⟩ | ⟨before, member, same, rfl⟩)
    · exact ⟨work, member, by simp [foreign]⟩
    · exact ⟨before, member, by simp [same]⟩

/-- What a statement has to show that takes the call of a client further. -/
theorem Kept.proceed (kept : Kept store) (standing : store.standing client = some (objectId, phase)) {after : Store ι}
    {change : Phase → Phase} (works : after.works = store.proceed client change)
    (ids : (after.entries.list.map Entry.id).Nodup)
    (paired : ∀ fullText ∈ after.fullTexts.list, ∃ entry ∈ after.entries.list, entry.fullText = fullText)
    (others : ∀ work ∈ store.works.list, work.client ≠ client → (work.objectId = objectId → work.alone = false) →
      Holds store work → Holds after work)
    (own : ∀ work ∈ store.works.list, work.client = client → work.objectId = objectId → work.phase = phase →
      Holds after { work with phase := change phase })
    (apart : ∀ added entry, change phase = .pairing added entry → ∀ work ∈ store.works.list, work.client ≠ client →
      ∀ added' entry', work.phase = .pairing added' entry' → entry.rowid ≠ entry'.rowid)
    (free : after.blocked = store.blocked) (reports : after.reports = store.reports) : Kept after := by
  obtain ⟨mine, member, isMine, object, reached⟩ := standing_iff.mp standing
  have itself : ∀ work ∈ store.works.list, work.client = client → work = mine := fun work inside same =>
    List.inj_on_of_nodup_map store.works.unique inside member (same.trans isMine.symm)
  refine ⟨ids, paired, ?_, ?_, ?_, free.trans kept.free, fun report inside => kept.reports report (reports ▸ inside)⟩
  · intro work inside
    rw [works] at inside
    rcases mem_proceed.mp inside with ⟨foreign, listed⟩ | ⟨before, listed, same, further⟩
    · apply others work listed foreign ?_ (kept.holds work listed)
      intro shared
      exact kept.alone work listed mine member (isMine ▸ foreign) (shared.trans object.symm)
    · rw [further, itself before listed same, reached]
      exact own mine member isMine object reached
  · intro first here second there different shared
    rw [works] at here there
    rcases mem_proceed.mp here with ⟨_, listed⟩ | ⟨before, listed, same, rfl⟩ <;>
      rcases mem_proceed.mp there with ⟨_, listed'⟩ | ⟨before', listed', same', rfl⟩
    · exact kept.alone first listed second listed' different shared
    · exact kept.alone first listed before' listed' different shared
    · exact kept.alone before listed second listed' different shared
    · exact absurd (same.trans same'.symm) different
  · intro first here second there different added entry added' entry' pairs pairs'
    rw [works] at here there
    rcases mem_proceed.mp here with ⟨foreign, listed⟩ | ⟨before, listed, same, rfl⟩ <;>
      rcases mem_proceed.mp there with ⟨foreign', listed'⟩ | ⟨before', listed', same', rfl⟩
    · exact kept.apart first listed second listed' different added entry added' entry' pairs pairs'
    · have pairs' : change before'.phase = .pairing added' entry' := pairs'
      rw [itself before' listed' same', reached] at pairs'
      exact (apart added' entry' pairs' first listed foreign added entry pairs).symm
    · have pairs : change before.phase = .pairing added entry := pairs
      rw [itself before listed same, reached] at pairs
      exact apart added entry pairs second listed' foreign' added' entry' pairs'
    · exact absurd (same.trans same'.symm) different

omit [DecidableEq ι] in
theorem mem_entriesOf : entry ∈ store.entriesOf objectId ↔ entry ∈ store.entries.list ∧ entry.objectId = objectId := by
  rw [Store.entriesOf, List.mem_filter, decide_eq_true_eq]

theorem Kept.listRowids (kept : Kept store) (standing : store.standing client = some (objectId, .begun)) :
    Kept { store with works := store.proceed client (Phase.list ((store.entriesOf objectId).map Entry.rowid)) } := by
  refine kept.proceed standing rfl kept.ids kept.paired (fun _ _ _ _ holds => holds) ?_ ?_ rfl rfl
  · rintro work member own rfl -
    refine ⟨fun entry inside object _ => ?_, fun rowid listed => ?_⟩
    · exact List.mem_map_of_mem (mem_entriesOf.mpr ⟨inside, object⟩)
    · obtain ⟨entry, inside, same⟩ := List.mem_map.mp listed
      obtain ⟨inside, object⟩ := mem_entriesOf.mp inside
      exact ⟨entry, inside, same, object⟩
  · intro _ _ pairs
    cases pairs

/-- A listed rowid is that of an entry of the object, so no other loses its full-text row. -/
theorem Kept.deleteFullText (kept : Kept store) {pending : List Int}
    (standing : store.standing client = some (objectId, .listed pending)) {rowid : Int} (listed : rowid ∈ pending) :
    Kept { store with
      fullTexts := store.fullTexts.delete fun fullText => fullText.rowid = rowid
      works := store.proceed client (Phase.drop rowid) } := by
  obtain ⟨mine, member, own, object, reached⟩ := standing_iff.mp standing
  have fewer : ∀ fullText, fullText ∈ (store.fullTexts.delete fun fullText => fullText.rowid = rowid).list ↔
      fullText ∈ store.fullTexts.list ∧ fullText.rowid ≠ rowid := by
    intro fullText
    simp [Rows.delete, List.mem_filter]
  have holds := kept.holds mine member
  unfold Holds at holds
  rw [reached] at holds
  obtain ⟨entry, inside, isRow, object'⟩ := holds.2 rowid listed
  have still : ∀ entry' ∈ store.entries.list, entry'.objectId ≠ objectId → entry'.fullText ∈ store.fullTexts.list →
      entry'.fullText ∈ (store.fullTexts.delete fun fullText => fullText.rowid = rowid).list := by
    intro entry' inside' different there
    refine (fewer _).mpr ⟨there, fun same => different ?_⟩
    have equal : entry' = entry := List.inj_on_of_nodup_map store.entries.unique inside' inside (same.trans isRow.symm)
    rw [equal, object', object]
  refine kept.proceed standing rfl kept.ids ?_ ?_ ?_ (fun _ _ pairs => by cases pairs) rfl rfl
  · intro fullText there
    exact kept.paired fullText ((fewer _).mp there).1
  · intro work member' foreign shared holds'
    unfold Holds at holds' ⊢
    have alone : work.alone = true → work.objectId ≠ objectId := by
      intro held same
      rw [shared same] at held
      cases held
    cases known : work.phase with
    | begun => trivial
    | listed pending' =>
      rw [known] at holds'
      refine ⟨fun entry' inside' object indexed => ?_, holds'.2⟩
      obtain ⟨fullText, there, same⟩ := indexed
      exact holds'.1 entry' inside' object ⟨fullText, ((fewer _).mp there).1, same⟩
    | adding added =>
      rw [known] at holds'
      intro held
      obtain ⟨all, there⟩ := holds' held
      refine ⟨all, fun entry' among => ?_⟩
      obtain ⟨inside', object⟩ := mem_entriesOf.mp (all ▸ among)
      exact still entry' inside' (object ▸ alone held) (there entry' among)
    | pairing added last =>
      rw [known] at holds'
      refine ⟨⟨holds'.1.1, holds'.1.2.1, fun fullText there => holds'.1.2.2 fullText ((fewer _).mp there).1⟩, fun held => ?_⟩
      obtain ⟨all, there⟩ := holds'.2 held
      refine ⟨all, fun entry' among => ?_⟩
      have among' : entry' ∈ store.entriesOf work.objectId := by
        rw [all]
        exact List.mem_append_left _ among
      obtain ⟨inside', object⟩ := mem_entriesOf.mp among'
      exact still entry' inside' (object ▸ alone held) (there entry' among)
  · intro work member' same object'' _
    have itself : work = mine := List.inj_on_of_nodup_map store.works.unique member' member (same.trans own.symm)
    subst itself
    refine ⟨fun entry' inside' object indexed => ?_, fun other among => ?_⟩
    · obtain ⟨fullText, there, same⟩ := indexed
      obtain ⟨there, different⟩ := (fewer _).mp there
      rw [List.mem_erase_of_ne (same ▸ different)]
      exact holds.1 entry' inside' object ⟨fullText, there, same⟩
    · exact holds.2 other (List.mem_of_mem_erase among)

/-- With no listed rowid left, no entry of the object has a full-text row. -/
theorem Kept.deleteEntries (kept : Kept store) (standing : store.standing client = some (objectId, .listed []))
    (undisturbed : Undisturbed client store (.deleteEntries objectId)) :
    Kept { store with
      entries := store.entries.delete fun entry => entry.objectId = objectId
      works := store.proceed client Phase.clear } := by
  obtain ⟨mine, member, own, object, reached⟩ := standing_iff.mp standing
  have fewer : ∀ entry, entry ∈ (store.entries.delete fun entry => entry.objectId = objectId).list ↔
      entry ∈ store.entries.list ∧ entry.objectId ≠ objectId := by
    intro entry
    simp [Rows.delete, List.mem_filter]
  have holds := kept.holds mine member
  unfold Holds at holds
  rw [reached] at holds
  have others : ∀ other, other ≠ objectId → Store.entriesOf { store with
      entries := store.entries.delete fun entry => entry.objectId = objectId
      works := store.proceed client Phase.clear } other = store.entriesOf other := by
    intro other different
    simp only [Store.entriesOf, Rows.delete, List.filter_filter]
    refine List.filter_congr fun entry _ => ?_
    by_cases same : entry.objectId = other
    · simp [same, different]
    · simp [same]
  refine kept.proceed standing rfl ?_ ?_ ?_ ?_ ?_ rfl rfl
  · exact kept.ids.sublist (List.filter_sublist.map Entry.id)
  · intro fullText there
    obtain ⟨entry, inside, same⟩ := kept.paired fullText there
    refine ⟨entry, (fewer entry).mpr ⟨inside, fun ours => ?_⟩, same⟩
    exact absurd (holds.1 entry inside (ours.trans object.symm) ⟨fullText, there, same ▸ rfl⟩) List.not_mem_nil
  · intro work member' foreign shared holds'
    have quiet : work.objectId = objectId → work.removes = false ∧ work.adds = false := fun same =>
      undisturbed work (List.mem_filter.mpr ⟨member', by simp [foreign, same]⟩)
    have alone : work.alone = true → work.objectId ≠ objectId := by
      intro held same
      rw [shared same] at held
      cases held
    unfold Holds at holds' ⊢
    cases known : work.phase with
    | begun => trivial
    | listed pending =>
      rw [known] at holds'
      have different : work.objectId ≠ objectId := fun same => by simpa [Work.removes, known] using (quiet same).1
      refine ⟨fun entry inside => holds'.1 entry ((fewer entry).mp inside).1, fun rowid among => ?_⟩
      obtain ⟨entry, inside, same, object⟩ := holds'.2 rowid among
      exact ⟨entry, (fewer entry).mpr ⟨inside, object ▸ different⟩, same, object⟩
    | adding added =>
      rw [known] at holds'
      intro held
      rw [others _ (alone held)]
      exact holds' held
    | pairing added last =>
      rw [known] at holds'
      have different : work.objectId ≠ objectId := fun same => by simpa [Work.adds, known] using (quiet same).2
      obtain ⟨⟨inside, object, unpaired⟩, rest⟩ := holds'
      refine ⟨⟨(fewer last).mpr ⟨inside, object ▸ different⟩, object, unpaired⟩, fun held => ?_⟩
      rw [others _ different]
      exact rest held
  · rintro work member' same rfl -
    intro held
    refine ⟨?_, fun _ inside => absurd inside List.not_mem_nil⟩
    simp [Store.entriesOf, Rows.delete, List.filter_filter]
  · intro _ _ pairs
    cases pairs

omit [DecidableEq ι] in
theorem entriesOf_insert {after : Store ι} (inserted : store.entries.insert entry = some after.entries)
    (other : String) : after.entriesOf other = store.entriesOf other ++ if entry.objectId = other then [entry] else [] := by
  unfold Store.entriesOf
  rw [(Rows.insert_eq_some inserted).2, List.filter_append]
  congr 1
  split
  next same => simp [same]
  next different => simp [different]

/-- A new entry has a rowid of its own, which no full-text row has. -/
theorem Kept.insertEntry (kept : Kept store) {entries : Rows Entry.rowid}
    (standing : store.standing client = some (entry.objectId, .adding added))
    (undisturbed : Undisturbed client store (.insertEntry entry.id entry.objectId entry.text entry.indexedAt))
    (inserted : store.entries.insert entry = some entries) :
    Kept { store with entries := entries, works := store.proceed client (Phase.add entry) } := by
  obtain ⟨mine, member, own, object, reached⟩ := standing_iff.mp standing
  obtain ⟨unused, list⟩ := Rows.insert_eq_some inserted
  obtain ⟨new, quiet⟩ := undisturbed
  have unused := Rows.find_eq_none.mp unused
  have more : ∀ other, other ∈ entries.list ↔ other ∈ store.entries.list ∨ other = entry := by
    intro other
    rw [list, List.mem_append, List.mem_singleton]
  have unpaired : ∀ fullText ∈ store.fullTexts.list, fullText.rowid ≠ entry.rowid := by
    intro fullText there
    obtain ⟨other, inside, rfl⟩ := kept.paired fullText there
    exact unused other inside
  have others : ∀ other, other ≠ entry.objectId → Store.entriesOf { store with
      entries := entries, works := store.proceed client (Phase.add entry) } other = store.entriesOf other := by
    intro other different
    rw [entriesOf_insert inserted, if_neg (Ne.symm different), List.append_nil]
  refine kept.proceed standing rfl ?_ ?_ ?_ ?_ ?_ rfl rfl
  · change (entries.list.map Entry.id).Nodup
    rw [list, List.map_append, List.map_singleton, List.nodup_append]
    refine ⟨kept.ids, List.nodup_singleton _, ?_⟩
    rintro id inside _ last rfl
    obtain ⟨other, inside, same⟩ := List.mem_map.mp inside
    exact new other inside (same.trans (List.mem_singleton.mp last))
  · intro fullText there
    obtain ⟨other, inside, same⟩ := kept.paired fullText there
    exact ⟨other, (more other).mpr (.inl inside), same⟩
  · intro work member' foreign shared holds
    have alone : work.alone = true → work.objectId ≠ entry.objectId := by
      intro held same
      rw [shared same] at held
      cases held
    unfold Holds at holds ⊢
    cases known : work.phase with
    | begun => trivial
    | listed pending =>
      rw [known] at holds
      have different : work.objectId ≠ entry.objectId := by
        intro same
        have removes := quiet work (List.mem_filter.mpr ⟨member', by simp [foreign, same]⟩)
        simp [Work.removes, known] at removes
      refine ⟨fun other inside object' shadowed => ?_, fun rowid among => ?_⟩
      · rcases (more other).mp inside with inside | rfl
        · exact holds.1 other inside object' shadowed
        · exact absurd object'.symm different
      · obtain ⟨other, inside, same⟩ := holds.2 rowid among
        exact ⟨other, (more other).mpr (.inl inside), same⟩
    | adding added' =>
      rw [known] at holds
      intro held
      rw [others _ (alone held)]
      exact holds held
    | pairing added' last =>
      rw [known] at holds
      obtain ⟨⟨inside, object', unpaired'⟩, rest⟩ := holds
      refine ⟨⟨(more last).mpr (.inl inside), object', unpaired'⟩, fun held => ?_⟩
      rw [others _ (alone held)]
      exact rest held
  · rintro work member' same object' reached'
    have holds := kept.holds work member'
    unfold Holds at holds
    rw [reached'] at holds
    refine ⟨⟨(more entry).mpr (.inr rfl), object'.symm, unpaired⟩, fun held => ?_⟩
    obtain ⟨all, there⟩ := holds held
    refine ⟨?_, there⟩
    rw [entriesOf_insert inserted, if_pos object'.symm]
    exact congrArg (· ++ [entry]) all
  · rintro _ _ ⟨⟩ work member' foreign added' entry' pairs same
    have holds := kept.holds work member'
    unfold Holds at holds
    rw [pairs] at holds
    exact unused entry' holds.1.1 same.symm

theorem Kept.findRowid (kept : Kept store)
    (standing : store.standing client = some (objectId, .pairing added entry)) :
    (store.entries.list.find? fun other => other.id = entry.id) = some entry := by
  obtain ⟨mine, member, own, object, reached⟩ := standing_iff.mp standing
  have holds := kept.holds mine member
  unfold Holds at holds
  rw [reached] at holds
  have present : (store.entries.list.find? fun other => other.id = entry.id).isSome = true :=
    List.find?_isSome.mpr ⟨entry, holds.1.1, by simp⟩
  obtain ⟨other, found⟩ := Option.isSome_iff_exists.mp present
  have same : other.id = entry.id := by simpa using List.find?_some found
  rw [found, List.inj_on_of_nodup_map kept.ids (List.mem_of_find?_eq_some found) holds.1.1 same]

/-- The full-text row of the entry that was added finds nothing in its way. -/
theorem Kept.insertFullText (kept : Kept store)
    (standing : store.standing client = some (objectId, .pairing added entry))
    (undisturbed : Undisturbed client store (.insertFullText entry.fullText)) :
    ∃ fullTexts, store.fullTexts.insert entry.fullText = some fullTexts ∧
      Kept { store with fullTexts := fullTexts, works := store.proceed client Phase.pair } := by
  obtain ⟨mine, member, own, object, reached⟩ := standing_iff.mp standing
  have holds := kept.holds mine member
  unfold Holds at holds
  rw [reached] at holds
  obtain ⟨⟨inside, object', unpaired⟩, rest⟩ := holds
  have quiet : ∀ work ∈ store.others client objectId, work.removes = false := by
    rw [← object]
    exact undisturbed mine (Rows.find_eq_some.mpr ⟨member, own⟩)
  obtain ⟨fullTexts, inserted⟩ : ∃ fullTexts, store.fullTexts.insert entry.fullText = some fullTexts := by
    rw [← Option.ne_none_iff_exists']
    intro refused
    obtain ⟨other, found⟩ := Option.isSome_iff_exists.mp (Rows.insert_eq_none.mp refused)
    obtain ⟨there, same⟩ := Rows.find_eq_some.mp found
    exact unpaired other there same
  have more : ∀ other, other ∈ fullTexts.list ↔ other ∈ store.fullTexts.list ∨ other = entry.fullText := by
    intro other
    rw [(Rows.insert_eq_some inserted).2, List.mem_append, List.mem_singleton]
  refine ⟨fullTexts, inserted, kept.proceed standing rfl kept.ids ?_ ?_ ?_ ?_ rfl rfl⟩
  · intro fullText there
    rcases (more fullText).mp there with there | rfl
    · exact kept.paired fullText there
    · exact ⟨entry, inside, rfl⟩
  · intro work member' foreign shared holds
    unfold Holds at holds ⊢
    cases known : work.phase with
    | begun => trivial
    | listed pending =>
      rw [known] at holds
      refine ⟨fun other inside' object'' ⟨fullText, there, same⟩ => ?_, holds.2⟩
      rcases (more fullText).mp there with there | rfl
      · exact holds.1 other inside' object'' ⟨fullText, there, same⟩
      · have equal : entry = other := List.inj_on_of_nodup_map store.entries.unique inside inside' same
        have shared' : work.objectId = objectId := by rw [← object'', ← equal, object', object]
        have removes := quiet work (List.mem_filter.mpr ⟨member', by simp [foreign, shared']⟩)
        simp [Work.removes, known] at removes
    | adding added' =>
      rw [known] at holds
      intro held
      obtain ⟨all, there⟩ := holds held
      exact ⟨all, fun other among => (more _).mpr (.inl (there other among))⟩
    | pairing added' last =>
      rw [known] at holds
      obtain ⟨⟨inside', object'', unpaired'⟩, rest'⟩ := holds
      refine ⟨⟨inside', object'', fun fullText there => ?_⟩, fun held => ?_⟩
      · rcases (more fullText).mp there with there | rfl
        · exact unpaired' fullText there
        · exact kept.apart mine member work member' (own ▸ Ne.symm foreign) added entry added' last reached known
      · obtain ⟨all, there⟩ := rest' held
        exact ⟨all, fun other among => (more _).mpr (.inl (there other among))⟩
  · intro work member' same object'' _
    have itself : work = mine := List.inj_on_of_nodup_map store.works.unique member' member (same.trans own.symm)
    subst itself
    intro held
    obtain ⟨all, there⟩ := rest held
    refine ⟨all, fun other among => (more _).mpr ?_⟩
    rcases List.mem_append.mp among with among | last
    · exact .inl (there other among)
    · rw [List.mem_singleton.mp last]
      exact .inr rfl
  · intro _ _ pairs
    cases pairs

/-- A call that begins knows nothing yet, and those of the same object are no longer alone. -/
theorem Kept.start (kept : Kept store) {works : Rows (@Work.client ι)} (begun : store.started client objectId = some works) :
    Kept { store with works := works } := by
  obtain ⟨-, list⟩ := Rows.insert_eq_some begun
  have cases' : ∀ work ∈ works.list, (∃ before ∈ store.works.list, before.client = work.client ∧
      before.objectId = work.objectId ∧ work.phase = before.phase ∧ (work.alone = true → before.alone = true) ∧
      (work.objectId = objectId → work.alone = false)) ∨
      (work.objectId = objectId ∧ work.phase = .begun ∧ work.client = client ∧
        (work.alone = true → ∀ before ∈ store.works.list, before.objectId ≠ objectId)) := by
    intro work inside
    rw [list] at inside
    rcases List.mem_append.mp inside with old | new
    · obtain ⟨before, member, rfl⟩ := List.mem_map.mp old
      left
      by_cases same : before.objectId = objectId
      · exact ⟨before, member, by simp [same]⟩
      · exact ⟨before, member, by simp [same]⟩
    · rw [List.mem_singleton.mp new]
      refine .inr ⟨rfl, rfl, rfl, fun held before member => ?_⟩
      simpa using List.all_eq_true.mp held before member
  have clients : ∀ first ∈ works.list, ∀ second ∈ works.list, first.client = second.client → first = second :=
    fun first here second there same => List.inj_on_of_nodup_map works.unique here there same
  refine ⟨kept.ids, kept.paired, ?_, ?_, ?_, kept.free, kept.reports⟩
  · intro work inside
    rcases cases' work inside with ⟨before, member, -, object, phase, alone, -⟩ | ⟨-, phase, -⟩
    · exact (kept.holds before member).weaken object.symm phase alone
    · unfold Holds
      rw [phase]
      trivial
  · intro first here second there different shared
    rcases cases' first here with ⟨before, member, own, object, -, alone, quiet⟩ | ⟨object, -, own, alone⟩
    · rcases cases' second there with ⟨before', member', own', object', -⟩ | ⟨object', -⟩
      · have distinct : before.client ≠ before'.client := fun same => different (own.symm.trans (same.trans own'))
        have loses := kept.alone before member before' member' distinct (object.trans (shared.trans object'.symm))
        by_contra held
        rw [alone (by simpa using held)] at loses
        cases loses
      · exact quiet (shared.trans object')
    · rcases cases' second there with ⟨before', member', -, object', -⟩ | ⟨-, -, own', -⟩
      · by_contra held
        exact alone (by simpa using held) before' member' (object'.trans (shared.symm.trans object))
      · exact absurd (own.trans own'.symm) different
  · intro first here second there different added entry added' entry' pairs pairs'
    rcases cases' first here with ⟨before, member, own, -, phase, -⟩ | ⟨-, phase, -⟩
    · rcases cases' second there with ⟨before', member', own', -, phase', -⟩ | ⟨-, phase', -⟩
      · have distinct : before.client ≠ before'.client := fun same => different (own.symm.trans (same.trans own'))
        exact kept.apart before member before' member' distinct added entry added' entry' (phase ▸ pairs) (phase' ▸ pairs')
      · rw [phase'] at pairs'
        cases pairs'
    · rw [phase] at pairs
      cases pairs

theorem standing_start {works : Rows (@Work.client ι)} (begun : store.started client objectId = some works) (other : ι) :
    standingIn works other = if other = client then some (objectId, .begun) else store.standing other := by
  rw [standingIn, Rows.find_insert begun, Rows.find_update]
  by_cases same : other = client
  · rw [if_pos same, if_pos same]
    rfl
  · rw [if_neg same, if_neg same, Store.standing, standingIn, Option.map_map]
    congr 1
    funext work
    by_cases object : work.objectId = objectId <;> simp [object]

/-- An `index_object` that returns and was alone has left its texts. -/
theorem Kept.finish (kept : Kept store) {left : Option (List Text)} (result : ∀ texts, left = some texts →
      ∃ objectId added, store.standing client = some (objectId, .adding added) ∧ added.map Entry.text = texts) :
    Kept { store with works := store.works.delete (fun work => work.client = client), reports := store.finished client left } := by
  have fewer : ∀ work ∈ (store.works.delete fun work => work.client = client).list, work ∈ store.works.list :=
    fun work inside => List.mem_of_mem_filter inside
  refine ⟨kept.ids, kept.paired, fun work inside => kept.holds work (fewer work inside), ?_, ?_, kept.free, ?_⟩
  · exact fun first here second there => kept.alone first (fewer first here) second (fewer second there)
  · exact fun first here second there => kept.apart first (fewer first here) second (fewer second there)
  · intro report inside alone
    change report ∈ store.finished client left at inside
    unfold Store.finished at inside
    cases found : store.works.find client with
    | none =>
      rw [found] at inside
      exact kept.reports report inside alone
    | some work =>
      cases left with
      | none =>
        rw [found] at inside
        exact kept.reports report inside alone
      | some texts =>
        rw [found] at inside
        rcases List.mem_cons.mp inside with rfl | old
        · obtain ⟨objectId, added, standing, same⟩ := result texts rfl
          rw [Store.standing, standingIn, found] at standing
          obtain ⟨object, phase⟩ := Prod.mk.inj (Option.some.inj standing)
          have holds := kept.holds work (Rows.find_eq_some.mp found).1
          unfold Holds at holds
          rw [phase] at holds
          obtain ⟨all, there⟩ := holds alone
          apply decide_eq_true
          rw [Store.Leaves, all]
          exact ⟨same, there⟩
        · exact kept.reports report old alone

theorem standing_finish (other : ι) : standingIn (store.works.delete fun work => work.client = client) other =
    if other = client then none else store.standing other := by
  rw [standingIn, Rows.find_delete]
  by_cases same : other = client
  · rw [if_pos same, Option.map_eq_none_iff, Option.filter_eq_none_iff]
    intro work found
    simpa [same] using (Rows.find_eq_some.mp found).2
  · rw [if_neg same, Store.standing, standingIn]
    cases found : store.works.find other with
    | none => rfl
    | some work =>
      have foreign : work.client ≠ client := (Rows.find_eq_some.mp found).2 ▸ same
      rw [Option.filter_some, if_pos (by simpa using foreign)]

end Statements

/-- The calls of others stay where they are. -/
def keeping (ι : Type) [DecidableEq ι] : Contract Request (Store ι) ι where
  kept := Kept
  rely client first second := second.standing client = first.standing client
  allowed := Undisturbed

section Programs

variable {state : Store ι} {client : ι} {objectId : String} {phase : Phase}

theorem statement_safe {request : Request} {before : Option (String × Phase)}
    {post : Except Raised (Reply request) → Store ι → Prop} (standing : state.standing client = before)
    (fails : ∀ now error, now.standing client = before → post (.error error) now)
    (steps : ∀ choice now reply after, Kept now → now.standing client = before → Undisturbed client now request →
      choice.failure = none → serve client choice now request = some (reply, after) →
        Kept after ∧ (∀ other, other ≠ client → after.standing other = now.standing other) ∧ post reply after)
    (plain : ∀ choice now error, choice.failure = some error → serve client choice now request = some (.error error, now)) :
    (keeping ι).Safe serve client post (Prog.perform request) state := by
  apply Contract.Safe.perform
  intro now kept moved undisturbed choice reply after answered
  have standing' : now.standing client = before := Eq.trans moved standing
  cases failed : choice.failure with
  | none => exact steps choice now reply after kept standing' undisturbed failed answered
  | some error =>
    rw [plain choice now error failed] at answered
    cases answered
    exact ⟨kept, fun _ _ => rfl, fails now error standing'⟩

theorem ask_safe {request : Request} {before : Option (String × Phase)} (standing : state.standing client = before)
    (quiet : ∀ choice (now : Store ι) reply after, serve client choice now request = some (reply, after) → after = now) :
    (keeping ι).Safe serve client (fun _ final => final.standing client = before) (Prog.perform request) state := by
  apply Contract.Safe.perform
  intro now kept moved undisturbed choice reply after answered
  rw [quiet choice now reply after answered]
  exact ⟨kept, fun _ _ => rfl, Eq.trans moved standing⟩

theorem listRowids_safe (standing : state.standing client = some (objectId, .begun)) :
    (keeping ι).Safe serve client (fun result final => match result with
      | .ok rowids => final.standing client = some (objectId, .listed rowids)
      | .error _ => ∃ phase, final.standing client = some (objectId, phase)) (Prog.perform (Request.listRowids objectId)) state := by
  refine statement_safe standing (fun now error at_ => ⟨_, at_⟩) ?_ fun choice now error failed => by simp [serve, failed]
  intro choice now reply after kept standing _ plain answered
  simp only [serve, plain] at answered
  cases answered
  exact ⟨kept.listRowids standing, proceeded (Phase.list _) standing⟩

theorem deleteFullText_safe {rowid : Int} {pending : List Int}
    (standing : state.standing client = some (objectId, .listed (rowid :: pending))) :
    (keeping ι).Safe serve client (fun result final => match result with
      | .ok _ => final.standing client = some (objectId, .listed pending)
      | .error _ => ∃ phase, final.standing client = some (objectId, phase)) (Prog.perform (Request.deleteFullText rowid)) state := by
  refine statement_safe standing (fun now error at_ => ⟨_, at_⟩) ?_ fun choice now error failed => by simp [serve, failed]
  intro choice now reply after kept standing _ plain answered
  simp only [serve, plain] at answered
  cases answered
  obtain ⟨others, own⟩ := proceeded (Phase.drop rowid) standing
  rw [Phase.drop, List.erase_cons_head] at own
  exact ⟨kept.deleteFullText standing List.mem_cons_self, others, own⟩

/-- After the full-text rows of an object are dropped, its entries are deleted. -/
theorem removeEntries_safe (standing : state.standing client = some (objectId, .begun)) :
    (keeping ι).Safe serve client (fun result final => match result with
      | .ok _ => final.standing client = some (objectId, .adding [])
      | .error _ => ∃ phase, final.standing client = some (objectId, phase)) (removeEntries objectId) state := by
  refine Contract.Safe.bind ((listRowids_safe standing).weaken fun result final reached => ?_)
  cases result with
  | error error => exact reached
  | ok rowids =>
    have dropped : (keeping ι).Safe serve client (fun result final => match result with
        | .ok _ => final.standing client = some (objectId, .listed [])
        | .error _ => ∃ phase, final.standing client = some (objectId, phase))
        (rowids.forM fun rowid => Prog.perform (Request.deleteFullText rowid)) final := by
      induction rowids generalizing final with
      | nil => exact reached
      | cons rowid rowids ih =>
        refine Contract.Safe.bind ((deleteFullText_safe reached).weaken fun result middle dropped => ?_)
        cases result with
        | error error => exact dropped
        | ok _ => exact ih middle dropped
    refine Contract.Safe.bind (dropped.weaken fun result final reached => ?_)
    cases result with
    | error error => exact reached
    | ok _ =>
      refine statement_safe reached (fun now error at_ => ⟨_, at_⟩) ?_ fun choice now error failed => by simp [serve, failed]
      intro choice now reply after kept standing undisturbed plain answered
      simp only [serve, plain] at answered
      cases answered
      exact ⟨kept.deleteEntries standing undisturbed, proceeded Phase.clear standing⟩

theorem indexEntry_safe (standing : state.standing client = some (objectId, .pairing added entry)) :
    (keeping ι).Safe serve client (fun result final => match result with
      | .ok _ => final.standing client = some (objectId, .adding (added ++ [entry]))
      | .error _ => ∃ phase, final.standing client = some (objectId, phase)) (indexEntry entry.id entry.text.content) state := by
  have found : (keeping ι).Safe serve client (fun result final => final.standing client = some (objectId, .pairing added entry) ∧
      ∀ row, result = .ok row → row = some entry.rowid) (Prog.perform (Request.findRowid entry.id)) state := by
    refine statement_safe standing (fun now error at_ => ⟨at_, nofun⟩) ?_ fun choice now error failed => by simp [serve, failed]
    intro choice now reply after kept standing _ plain answered
    simp only [serve, plain, kept.findRowid standing] at answered
    cases answered
    refine ⟨kept, fun _ _ => rfl, standing, fun row same => ?_⟩
    cases same
    rfl
  refine Contract.Safe.bind (found.weaken fun result final reached => ?_)
  obtain ⟨standing, same⟩ := reached
  cases result with
  | error error => exact ⟨_, standing⟩
  | ok row =>
    cases same row rfl
    refine statement_safe standing (fun now error at_ => ⟨_, at_⟩) ?_ fun choice now error failed => by simp [serve, failed]
    intro choice now reply after kept standing undisturbed plain answered
    obtain ⟨fullTexts, inserted, kept'⟩ := kept.insertFullText standing undisturbed
    simp only [serve, plain] at answered
    rw [show (⟨entry.rowid, entry.text.content⟩ : FullText) = entry.fullText from rfl, inserted] at answered
    cases answered
    exact ⟨kept', proceeded Phase.pair standing⟩

theorem addText_safe {ts : Moment} {text : Text} (standing : state.standing client = some (objectId, .adding added)) :
    (keeping ι).Safe serve client (fun result final => match result with
      | .ok _ => ∃ entry, entry.text = text ∧ final.standing client = some (objectId, .adding (added ++ [entry]))
      | .error _ => ∃ phase, final.standing client = some (objectId, phase)) (addText objectId ts text) state := by
  refine Contract.Safe.bind ((ask_safe standing ?_).weaken fun result final standing => ?_)
  · intro choice now reply after answered
    cases answered
    rfl
  cases result with
  | error error => exact ⟨_, standing⟩
  | ok entryId =>
    have inserted : (keeping ι).Safe serve client (fun result final => match result with
        | .ok _ => ∃ entry : Entry, entry.id = entryId.text ∧ entry.text = text ∧
          final.standing client = some (objectId, .pairing added entry)
        | .error _ => ∃ phase, final.standing client = some (objectId, phase))
        (Prog.perform (Request.insertEntry entryId.text objectId text ts)) final := by
      refine statement_safe standing (fun now error at_ => ⟨_, at_⟩) ?_ fun choice now error failed => by simp [serve, failed]
      intro choice now reply after kept standing undisturbed plain answered
      simp only [serve, plain] at answered
      split at answered
      · cases answered
        exact ⟨kept, fun _ _ => rfl, _, standing⟩
      · obtain ⟨entries, inserted, same⟩ := Option.map_eq_some_iff.mp answered
        cases same
        obtain ⟨others, own⟩ := proceeded (Phase.add _) standing
        exact ⟨kept.insertEntry standing undisturbed inserted, others, _, rfl, rfl, own⟩
    refine Contract.Safe.bind (inserted.weaken fun result final reached => ?_)
    cases result with
    | error error => exact reached
    | ok _ =>
      obtain ⟨entry, id, isText, standing⟩ := reached
      rw [← id, ← isText]
      refine (indexEntry_safe standing).weaken fun result final reached => ?_
      cases result with
      | error error => exact reached
      | ok _ => exact ⟨entry, rfl, reached⟩

theorem addTexts_safe {ts : Moment} {texts : List Text}
    (standing : state.standing client = some (objectId, .adding added)) :
    (keeping ι).Safe serve client (fun result final => match result with
      | .ok _ => ∃ more : List Entry, more.map Entry.text = texts ∧ final.standing client = some (objectId, .adding (added ++ more))
      | .error _ => ∃ phase, final.standing client = some (objectId, phase)) (texts.forM (addText objectId ts)) state := by
  induction texts generalizing state added with
  | nil =>
    refine ⟨[], rfl, ?_⟩
    rw [List.append_nil]
    exact standing
  | cons text texts ih =>
    refine Contract.Safe.bind ((addText_safe standing).weaken fun result middle reached => ?_)
    cases result with
    | error error => exact reached
    | ok _ =>
      obtain ⟨entry, isText, standing⟩ := reached
      refine (ih standing).weaken fun result final reached => ?_
      cases result with
      | error error => exact reached
      | ok _ =>
        obtain ⟨more, same, standing⟩ := reached
        rw [List.append_assoc, List.singleton_append] at standing
        exact ⟨entry :: more, by rw [List.map_cons, isText, same], standing⟩

variable {str : Json → String}

/-- A call that returns has added the texts that it had to. -/
theorem body_safe (call : Call) (standing : state.standing client = some (call.objectId, .begun)) :
    (keeping ι).Safe serve client (fun result final => (∃ phase, final.standing client = some (call.objectId, phase)) ∧
      ∀ texts, (result.toOption.bind fun _ => call.left str) = some texts →
        ∃ added : List Entry, final.standing client = some (call.objectId, .adding added) ∧ added.map Entry.text = texts)
      (call.body str) state := by
  have indexed : ∀ indexed : Indexed, state.standing client = some (indexed.objectId, .begun) →
      (keeping ι).Safe serve client (fun result final => (∃ phase, final.standing client = some (indexed.objectId, phase)) ∧
        ∀ texts, (result.toOption.bind fun _ => some (indexed.texts str)) = some texts →
          ∃ added : List Entry, final.standing client = some (indexed.objectId, .adding added) ∧ added.map Entry.text = texts)
        (indexObject str indexed) state := by
    intro indexed standing
    refine Contract.Safe.bind ((removeEntries_safe standing).weaken fun result final reached => ?_)
    cases result with
    | error error => exact ⟨reached, nofun⟩
    | ok _ =>
      refine Contract.Safe.bind ((ask_safe reached ?_).weaken fun result final standing => ?_)
      · intro choice now reply after answered
        cases answered
        rfl
      cases result with
      | error error => exact ⟨⟨_, standing⟩, nofun⟩
      | ok ts =>
        refine Contract.Safe.bind ((addTexts_safe standing).weaken fun result final reached => ?_)
        cases result with
        | error error => exact ⟨reached, nofun⟩
        | ok _ =>
          obtain ⟨more, same, standing⟩ := reached
          refine ⟨⟨_, standing⟩, fun texts left => ⟨more, standing, ?_⟩⟩
          exact same.trans (Option.some.inj left)
  cases call with
  | indexObject arguments => exact indexed arguments standing
  | reindexObject arguments => exact indexed arguments standing
  | removeObject objectId =>
    have none : ∀ result : Except Raised Nat, (result.toOption.bind fun _ => (none : Option (List Text))) = none := by
      intro result
      cases result <;> rfl
    have listed : (keeping ι).Safe serve client (fun _ final => final.standing client = some (objectId, .begun))
        (Prog.perform (Request.listIds objectId)) state := by
      refine statement_safe standing (fun now error at_ => at_) ?_ fun choice now error failed => by simp [serve, failed]
      intro choice now reply after kept standing _ plain answered
      simp only [serve, plain] at answered
      cases answered
      exact ⟨kept, fun _ _ => rfl, standing⟩
    refine Contract.Safe.bind (listed.weaken fun result final standing => ?_)
    cases result with
    | error error => exact ⟨⟨_, standing⟩, nofun⟩
    | ok ids =>
      refine Contract.Safe.bind ((removeEntries_safe standing).weaken fun result final reached => ?_)
      cases result with
      | error error => exact ⟨reached, nofun⟩
      | ok _ => exact ⟨⟨_, reached⟩, nofun⟩

theorem invoke_safe (call : Call) : (keeping ι).Safe serve client (fun _ _ => True) (invoke str call) state := by
  have started : (keeping ι).Safe serve client (fun result final => ∀ value, result = .ok value →
      final.standing client = some (call.objectId, .begun)) (Prog.perform (Request.start call.objectId)) state := by
    apply Contract.Safe.perform
    intro now kept _ _ choice reply after answered
    obtain ⟨works, begun, same⟩ := Option.map_eq_some_iff.mp answered
    cases same
    refine ⟨kept.start begun, fun other foreign => ?_, fun _ _ => ?_⟩
    · exact (standing_start begun other).trans (if_neg foreign)
    · exact (standing_start begun client).trans (if_pos rfl)
  refine Contract.Safe.bind (started.weaken fun result final reached => ?_)
  cases result with
  | error error => trivial
  | ok value =>
    refine Contract.Safe.bind (Contract.Safe.attempt ((body_safe call (reached value rfl)).weaken fun result final reached => ?_))
    obtain ⟨-, left⟩ := reached
    have finished : (keeping ι).Safe serve client (fun _ _ => True)
        (Prog.perform (Request.finish (result.toOption.bind fun _ => call.left str))) final := by
      apply Contract.Safe.perform
      intro now kept moved _ choice reply after answered
      cases answered
      refine ⟨kept.finish fun texts same => ?_, fun other foreign => ?_, trivial⟩
      · obtain ⟨added, standing, texts⟩ := left texts same
        exact ⟨call.objectId, added, Eq.trans moved standing, texts⟩
      · exact (standing_finish other).trans (if_neg foreign)
    refine Contract.Safe.bind (finished.weaken fun finish final _ => ?_)
    cases finish with
    | error error => trivial
    | ok _ => exact Contract.Safe.ofExcept trivial

theorem Client.safe {program : Program Unit} (runs : Client str program) :
    (keeping ι).Safe serve client (fun _ _ => True) program state := by
  induction runs generalizing state with
  | done => trivial
  | call made next each ih =>
    apply Contract.Safe.bind
    apply Contract.Safe.attempt
    exact (invoke_safe made).weaken fun result final _ => ih result

end Programs

/-- Every full-text row has its entry, so that a search finds entries by their own
content; nothing was in the way of a call; and every `index_object` that returned
without another call of its object has left its texts. -/
structure InStep (store : Store ι) : Prop where
  paired : ∀ fullText ∈ store.fullTexts.list, ∃ entry ∈ store.entries.list, entry.fullText = fullText
  found : ∀ matching principalId objectType scopeId, ∀ entry ∈ search store matching principalId objectType scopeId,
    matching entry.text.content = true
  free : store.blocked = false
  reports : ∀ report ∈ store.reports, report.alone = true → report.complete = true

omit [DecidableEq ι] in
theorem Kept.inStep {store : Store ι} (kept : Kept store) : InStep store := by
  refine ⟨kept.paired, ?_, kept.free, kept.reports⟩
  intro matching principalId objectType scopeId entry inside
  obtain ⟨fullText, chosen, joined⟩ := List.mem_flatMap.mp inside
  obtain ⟨there, isMatch⟩ := List.mem_filter.mp chosen
  obtain ⟨member, same⟩ := List.mem_filter.mp joined
  obtain ⟨other, member', rfl⟩ := kept.paired fullText there
  have rowid : entry.rowid = other.rowid := of_decide_eq_true (Bool.and_eq_true_iff.mp same).1
  rw [List.inj_on_of_nodup_map store.entries.unique member member' rowid]
  exact isMatch

/-- The full-text table stays in step with the entries where no call adds to an object
whose entries another one removes. -/
theorem index_in_step {str : Json → String} {programs : ι → Program Unit} {world : Interleaved Request Reply Raised (Store ι) ι}
    (clients : ∀ client, Client str (programs client))
    (reached : Interleaved.Reaches serve Undisturbed ⟨.empty, programs⟩ world) : InStep world.state := by
  have safe := Interleaved.Reaches.safe (keeping ι) reached (fun _ _ => rfl) (fun _ _ _ _ first second => Eq.trans second first)
    .empty fun client => (clients client).safe
  exact safe.1.inStep

section Sample

private def note (objectId content : String) : Indexed := ⟨objectId, "note", "alice", [("body", .str content)], none, none⟩

/-- One client indexes an object, the other removes it and indexes another one. -/
private def twoWriters : Bool → Program Unit
  | false => (invoke (fun _ => "") (.indexObject (note "first" "apples"))).attempt.bind fun _ => .pure ()
  | true => (invoke (fun _ => "") (.removeObject "first")).attempt.bind fun _ =>
    (invoke (fun _ => "") (.indexObject (note "second" "pears"))).attempt.bind fun _ => .pure ()

private theorem twoWriters_clients (client : Bool) : Client (fun _ => "") (twoWriters client) := by
  cases client with
  | false => exact .call _ _ fun _ => .done
  | true => exact .call _ _ fun _ => .call _ _ fun _ => .done

private def turns (count : Nat) (client : Bool) (id : Fin 10) (rowid : Int) : List (Bool × Choice) :=
  List.replicate count (client, ⟨none, .of 0 Moment.start_within, .repeated id, rowid⟩)

/-- The entries, the full-text rows, what was remarked and whether all calls are over. -/
private def outcome (world : Interleaved Request Reply Raised (Store Bool) Bool) :
    List FullText × List FullText × Bool × List Report × Bool :=
  (world.state.entries.list.map Entry.fullText, world.state.fullTexts.list, world.state.blocked, world.state.reports,
    [false, true].all fun client => match world.programs client with
      | .pure _ => true
      | _ => false)

private theorem race_runs :
    (Interleaved.run serve (fun _ _ _ => True) ⟨.empty, twoWriters⟩
      (turns 7 false 0 1 ++ turns 6 true 0 1 ++ turns 2 false 0 1 ++ turns 9 true 1 1)).map outcome =
      some ([⟨1, "pears"⟩], [⟨1, "apples"⟩], true, [⟨false, false⟩], true) := by
  decide +kernel

private theorem through {world : Interleaved Request Reply Raised (Store Bool) Bool}
    (ended : ([false, true].all fun client => match world.programs client with
      | .pure _ => true
      | _ => false) = true) (client : Bool) : world.programs client = .pure () := by
  have held := List.all_eq_true.mp ended client (by cases client <;> simp)
  split at held
  next value same => rw [same]
  · cases held

/-- The object is removed between the two statements that add its text; then its rowid is used again. -/
theorem race_orphans :
    ∃ world, (∀ client, Client (fun _ => "") (twoWriters client)) ∧
      Interleaved.Reaches serve (fun _ _ _ => True) ⟨.empty, twoWriters⟩ world ∧ (∀ client, world.programs client = .pure ()) ∧
      world.state.blocked = true ∧
      ¬ ∀ fullText ∈ world.state.fullTexts.list, ∃ entry ∈ world.state.entries.list, entry.fullText = fullText := by
  obtain ⟨world, ran, ends⟩ := Option.map_eq_some_iff.mp race_runs
  simp only [outcome, Prod.mk.injEq] at ends
  obtain ⟨entries, fullTexts, blocked, -, ended⟩ := ends
  refine ⟨world, twoWriters_clients, Interleaved.run_reaches .start ran, through ended, blocked, fun paired => ?_⟩
  obtain ⟨entry, member, same⟩ := paired ⟨1, "apples"⟩ (by rw [fullTexts]; exact List.mem_cons_self)
  have listed := List.mem_map_of_mem (f := Entry.fullText) member
  rw [entries, same] at listed
  exact absurd (List.mem_singleton.mp listed) (by decide)

private instance (client : Bool) (store : Store Bool) (request : Request) : Decidable (Undisturbed client store request) := by
  unfold Undisturbed
  split <;> infer_instance

private theorem sequence_runs :
    (Interleaved.run serve Undisturbed ⟨.empty, twoWriters⟩
      (turns 9 false 0 1 ++ turns 6 true 0 1 ++ turns 9 true 1 1)).map outcome =
      some ([⟨1, "pears"⟩], [⟨1, "pears"⟩], false, [⟨true, true⟩, ⟨true, true⟩], true) := by
  decide +kernel

theorem index_in_step_sequence :
    ∃ world, Interleaved.Reaches serve Undisturbed ⟨.empty, twoWriters⟩ world ∧ InStep world.state ∧
      world.state.reports = [⟨true, true⟩, ⟨true, true⟩] ∧ world.state.fullTexts.list = [⟨1, "pears"⟩] := by
  obtain ⟨world, ran, ends⟩ := Option.map_eq_some_iff.mp sequence_runs
  simp only [outcome, Prod.mk.injEq] at ends
  obtain ⟨-, fullTexts, -, reports, -⟩ := ends
  have reached := Interleaved.run_reaches .start ran
  exact ⟨world, reached, index_in_step twoWriters_clients reached, reports, fullTexts⟩

end Sample

end PyScoped.Legacy.SearchIndex
