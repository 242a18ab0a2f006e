import PyScoped.Legacy.RegistryStore
import PyScoped.Proofs.Registry
import PyScoped.Proofs.Urns

/-! When a registry comes back from the table that it is persisted in. An entry that
was archived by `archive` is in no index and is persisted all the same. -/

namespace PyScoped.Legacy.Registry
open Foundation Runs

variable {registry : Registry} {numerals : Numerals} {entry : RegistryEntry} {entries : List RegistryEntry}

/-- The entry as it comes back: the same to all who do not ask for its target. -/
structure Alike (entry back : RegistryEntry) : Prop where
  id : back.id = entry.id
  urn : back.urn = entry.urn
  kind : back.kind = entry.kind
  lifecycle : back.lifecycle = entry.lifecycle
  registeredAt : back.registeredAt = entry.registeredAt
  registeredBy : back.registeredBy = entry.registeredBy
  metadata : back.metadata = entry.metadata
  entryNamespace : back.entryNamespace = entry.entryNamespace
  tags : ∀ tag, tag ∈ back.tags ↔ tag ∈ entry.tags
  entryVersion : back.entryVersion = entry.entryVersion

/-- Both answers list the same entries, in any order. -/
def SameEntries (first second : Except RegistryError (List RegistryEntry)) : Prop :=
  ∃ listed listed', first = .ok listed ∧ second = .ok listed' ∧
    ∀ entryId, entryId ∈ listed.map RegistryEntry.id ↔ entryId ∈ listed'.map RegistryEntry.id

/-- Whether `register` returns. -/
def accepts (registry : Registry) (args : Registration) (generated : ScopedId) (now : String) : Bool :=
  ((register args generated now).on registry).1.isOk

/-- The second registry is the first one come back. -/
structure Survived (before back : Registry) : Prop where
  kept : ∀ entry ∈ before.entries, ∃ other ∈ back.entries, Alike entry other
  only : ∀ other ∈ back.entries, ∃ entry ∈ before.entries, Alike entry other
  found : ∀ urn entry, before.getByUrn urn = .ok entry → ∃ other, back.getByUrn urn = .ok other ∧ Alike entry other
  missing : ∀ urn other, back.getByUrn urn = .ok other → ∃ entry, before.getByUrn urn = .ok entry ∧ Alike entry other
  kind : ∀ kind, SameEntries (before.listByKind kind none 0) (back.listByKind kind none 0)
  entryNamespace : ∀ name, SameEntries (before.listByNamespace name none 0) (back.listByNamespace name none 0)
  accepted : ∀ args generated now, before.accepts args generated now = back.accepts args generated now

/-- The registry can be persisted in an empty table, and comes back from it, in
whatever order its rows are selected. -/
def Survives (numerals : Numerals) (registry : Registry) : Prop :=
  ∃ rows, persistRegistry numerals registry [] = .ok rows ∧ ∀ loaded, loaded.Perm rows →
    ∃ back, hydrateRegistry numerals loaded new = .ok back ∧ Survived registry back

variable {entryId : String}

section Calls

/-- A built-in kind is a member of the enumeration. -/
def Kind.Known : Kind → Prop
  | .registry name => name ∈ registryKinds
  | .custom _ => True

/-- What the calls are given: ids that are new, kinds that there are, and names
without the separator of a URN. -/
def Given (registry : Registry) : Call → Prop
  | .register args generated _ => (∀ entry ∈ registry.entries, entry.id ≠ generated.text) ∧ args.kind.Known ∧
      ':' ∉ args.kind.name.toList ∧ ':' ∉ args.entryNamespace.toList ∧ ':' ∉ args.name.toList
  | .transition _ _ | .archive _ => True

/-- No entry is archived by `archive`. -/
def NotArchiving (registry : Registry) : Call → Prop
  | .archive entryId => registry.find entryId = none
  | .register _ _ _ | .transition _ _ => True

/-- The index has the id of every entry under its name, and no others. -/
def Catalogues (index : String → List String) (label : RegistryEntry → String) (entries : List RegistryEntry) : Prop :=
  ∀ name entryId, entryId ∈ index name ↔ ∃ entry ∈ entries, entry.id = entryId ∧ label entry = name

/-- What holds of every registry that is reached. -/
structure Orderly (numerals : Numerals) (registry : Registry) : Prop where
  ids : (registry.entries.map RegistryEntry.id).Nodup
  plain : ∀ entry ∈ registry.entries, entry.urn.Plain
  written : ∀ entry ∈ registry.entries, URN.Written numerals entry.urn
  known : ∀ entry ∈ registry.entries, entry.kind.Known
  filed : ∀ name entryId, entryId ∈ registry.byKind name → ∃ entry ∈ registry.entries, entry.id = entryId ∧ entry.kind.name = name

/-- What holds besides of a registry in which nothing was archived by `archive`. -/
structure Whole (registry : Registry) : Prop where
  ids : (registry.entries.map RegistryEntry.id).Nodup
  urn : ∀ urn entryId, registry.byUrn urn = some entryId ↔ ∃ entry ∈ registry.entries, entry.id = entryId ∧ entry.urn.text = urn
  kind : Catalogues registry.byKind (fun entry => entry.kind.name) registry.entries
  entryNamespace : Catalogues registry.byNamespace RegistryEntry.entryNamespace registry.entries
  thawed : registry.frozen = false

/-- An entry that its kind does not list. -/
def Withdrawn (entryId : String) (registry : Registry) : Prop :=
  (∃ entry ∈ registry.entries, entry.id = entryId) ∧ ∀ name, entryId ∉ registry.byKind name

theorem mem_addTo_iff {index : String → List String} {name other added : String} :
    entryId ∈ addTo index name added other ↔ entryId ∈ index other ∨ other = name ∧ entryId = added := by
  unfold addTo
  by_cases same : other = name
  · subst same
    rw [Function.update_self]
    split
    next present =>
      constructor
      · exact .inl
      · rintro (inside | ⟨-, rfl⟩)
        · exact inside
        · exact present
    · simp
  · rw [Function.update_of_ne same]
    simp [same]

theorem mem_removeFrom {index : String → List String} {name other removed : String} :
    entryId ∈ removeFrom index name removed other ↔ entryId ∈ index other ∧ ¬ (other = name ∧ entryId = removed) := by
  unfold removeFrom
  by_cases same : other = name
  · subst same
    rw [Function.update_self]
    simp
  · rw [Function.update_of_ne same]
    simp [same]

theorem Catalogues.put {index : String → List String} {label : RegistryEntry → String} (catalogues : Catalogues index label entries) :
    Catalogues (addTo index (label entry) entry.id) label (entries ++ [entry]) := by
  intro name entryId
  rw [mem_addTo_iff, catalogues]
  constructor
  · rintro (⟨other, member, same⟩ | ⟨rfl, rfl⟩)
    · exact ⟨other, List.mem_append_left _ member, same⟩
    · exact ⟨entry, List.mem_append_right _ List.mem_cons_self, rfl, rfl⟩
  · rintro ⟨other, member, rfl, rfl⟩
    rcases List.mem_append.mp member with before | own
    · exact .inl ⟨other, before, rfl, rfl⟩
    · cases List.mem_singleton.mp own
      exact .inr ⟨rfl, rfl⟩

theorem exists_changed {lifecycle : Lifecycle} {property : RegistryEntry → Prop}
    (kept : ∀ entry, property (movedAt entryId lifecycle entry) ↔ property entry) :
    (∃ entry ∈ entries.map (movedAt entryId lifecycle), property entry) ↔ ∃ entry ∈ entries, property entry := by
  constructor
  · rintro ⟨_, member, holds⟩
    obtain ⟨entry, inside, rfl⟩ := List.mem_map.mp member
    exact ⟨entry, inside, (kept entry).mp holds⟩
  · rintro ⟨entry, member, holds⟩
    exact ⟨_, List.mem_map.mpr ⟨entry, member, rfl⟩, (kept entry).mpr holds⟩

theorem whole_new : Whole new := by
  constructor
  · exact List.nodup_nil
  · intro urn entryId
    simp [new]
  · intro name entryId
    simp [new]
  · intro name entryId
    simp [new]
  · rfl

theorem Whole.index (whole : Whole registry) (fresh : ∀ other ∈ registry.entries, other.id ≠ entry.id)
    (free : registry.byUrn entry.urn.text = none) : Whole (registry.indexEntry entry) := by
  have appended : (registry.indexEntry entry).entries = registry.entries ++ [entry] := putEntry_fresh fresh
  constructor
  · rw [appended, List.map_append, List.map_singleton, List.nodup_append]
    refine ⟨whole.ids, List.nodup_singleton _, fun _ inside _ own same => ?_⟩
    obtain ⟨other, member, rfl⟩ := List.mem_map.mp inside
    cases List.mem_singleton.mp own
    exact fresh other member same
  · intro urn entryId
    rw [appended]
    change Function.update registry.byUrn entry.urn.text (some entry.id) urn = some entryId ↔ _
    by_cases same : urn = entry.urn.text
    · subst same
      rw [Function.update_self, Option.some.injEq]
      constructor
      · rintro rfl
        exact ⟨entry, List.mem_append_right _ List.mem_cons_self, rfl, rfl⟩
      · rintro ⟨other, member, rfl, text⟩
        rcases List.mem_append.mp member with before | own
        · rw [(whole.urn entry.urn.text other.id).mpr ⟨other, before, rfl, text⟩] at free
          cases free
        · rw [List.mem_singleton.mp own]
    · rw [Function.update_of_ne same, whole.urn]
      constructor
      · rintro ⟨other, member, held⟩
        exact ⟨other, List.mem_append_left _ member, held⟩
      · rintro ⟨other, member, id, text⟩
        rcases List.mem_append.mp member with before | own
        · exact ⟨other, before, id, text⟩
        · cases List.mem_singleton.mp own
          exact absurd text.symm same
  · rw [appended]
    exact whole.kind.put
  · rw [appended]
    exact whole.entryNamespace.put
  · exact whole.thawed

theorem Whole.change (whole : Whole registry) (entryId : String) (lifecycle : Lifecycle) :
    Whole (registry.change entryId lifecycle) := by
  constructor
  · exact (ids_changed registry.entries).symm ▸ whole.ids
  · intro urn other
    refine (whole.urn urn other).trans (exists_changed fun entry => ?_).symm
    rw [movedAt_id, movedAt_urn]
  · intro name other
    refine (whole.kind name other).trans (exists_changed fun entry => ?_).symm
    dsimp only
    rw [movedAt_id, movedAt_kind]
  · intro name other
    refine (whole.entryNamespace name other).trans (exists_changed fun entry => ?_).symm
    rw [movedAt_id, movedAt_entryNamespace]
  · exact whole.thawed

theorem called_register (numerals : Numerals) (registry : Registry) (args : Registration) (generated : ScopedId) (now : String) :
    called numerals registry (.register args generated now) = registry ∨ ∃ urn,
      URN.make args.kind.name args.entryNamespace args.name args.version = .ok urn ∧ URN.Written numerals urn ∧
      registry.byUrn urn.text = none ∧
      called numerals registry (.register args generated now) = registry.indexEntry (entryFor args urn generated now) := by
  unfold called
  dsimp only
  cases made : URN.make args.kind.name args.entryNamespace args.name args.version with
  | error error => exact .inl rfl
  | ok urn =>
    dsimp only [Except.bind]
    cases text : URN.str numerals urn with
    | error error => exact .inl rfl
    | ok raw =>
      rcases after_register registry args generated now with ⟨unchanged, -⟩ | ⟨other, free, -, made', indexed⟩
      · exact .inl unchanged
      · rw [made] at made'
        cases made'
        exact .inr ⟨urn, rfl, URN.written_of_str text, free, indexed⟩

theorem Orderly.step (orderly : Orderly numerals registry) {call : Call} (given : Given registry call) :
    Orderly numerals (called numerals registry call) := by
  have changed : ∀ entryId lifecycle, Orderly numerals (registry.change entryId lifecycle) := by
    intro entryId lifecycle
    constructor
    · exact (ids_changed registry.entries).symm ▸ orderly.ids
    · intro entry member
      obtain ⟨other, inside, rfl⟩ := List.mem_map.mp member
      exact movedAt_urn.symm ▸ orderly.plain other inside
    · intro entry member
      obtain ⟨other, inside, rfl⟩ := List.mem_map.mp member
      exact movedAt_urn.symm ▸ orderly.written other inside
    · intro entry member
      obtain ⟨other, inside, rfl⟩ := List.mem_map.mp member
      exact movedAt_kind.symm ▸ orderly.known other inside
    · intro name other listed
      refine (exists_changed fun entry => ?_).mpr (orderly.filed name other listed)
      rw [movedAt_id, movedAt_kind]
  cases call with
  | register args generated now =>
    obtain ⟨fresh, known, kind, entryNamespace, -⟩ := given
    obtain same | ⟨urn, made, written, -, indexed⟩ := called_register numerals registry args generated now
    · rw [same]
      exact orderly
    · have appended : (registry.indexEntry (entryFor args urn generated now)).entries =
          registry.entries ++ [entryFor args urn generated now] := putEntry_fresh fresh
      obtain ⟨ofKind, ofNamespace, -, -⟩ := URN.make_ok made
      have all : ∀ {property : RegistryEntry → Prop}, (∀ entry ∈ registry.entries, property entry) →
          property (entryFor args urn generated now) → ∀ entry ∈ registry.entries ++ [entryFor args urn generated now],
          property entry := by
        intro property before own entry member
        rcases List.mem_append.mp member with inside | last
        · exact before entry inside
        · exact List.mem_singleton.mp last ▸ own
      rw [indexed]
      constructor
      · rw [appended, List.map_append, List.map_singleton, List.nodup_append]
        refine ⟨orderly.ids, List.nodup_singleton _, fun _ inside _ own same => ?_⟩
        obtain ⟨other, member, rfl⟩ := List.mem_map.mp inside
        cases List.mem_singleton.mp own
        exact fresh other member same
      · rw [appended]
        exact all orderly.plain ⟨ofKind ▸ kind, ofNamespace ▸ entryNamespace⟩
      · rw [appended]
        exact all orderly.written written
      · rw [appended]
        exact all orderly.known known
      · intro name entryId listed
        rw [appended]
        rcases mem_addTo_iff.mp listed with before | ⟨rfl, rfl⟩
        · obtain ⟨other, member, held⟩ := orderly.filed name entryId before
          exact ⟨other, List.mem_append_left _ member, held⟩
        · exact ⟨_, List.mem_append_right _ List.mem_cons_self, rfl, rfl⟩
  | transition entryId lifecycle =>
    change Orderly numerals (registry.after (.transition entryId lifecycle))
    cases found : registry.find entryId with
    | none => exact (after_transition_none found).symm ▸ orderly
    | some entry => exact (after_transition_some found).symm ▸ changed entryId lifecycle
  | archive entryId =>
    change Orderly numerals (registry.after (.archive entryId))
    cases found : registry.find entryId with
    | none => exact (after_archive_none found).symm ▸ orderly
    | some entry =>
      rw [after_archive_some found]
      obtain ⟨ids, plain, written, known, filed⟩ := changed entryId .archived
      exact ⟨ids, plain, written, known, fun name other listed => filed name other (mem_removeFrom.mp listed).1⟩

theorem Whole.step (whole : Whole registry) {call : Call} (given : Given registry call) (spared : NotArchiving registry call) :
    Whole (called numerals registry call) := by
  cases call with
  | register args generated now =>
    obtain same | ⟨urn, -, -, free, indexed⟩ := called_register numerals registry args generated now
    · rw [same]
      exact whole
    · rw [indexed]
      exact whole.index given.1 free
  | transition entryId lifecycle =>
    change Whole (registry.after (.transition entryId lifecycle))
    cases found : registry.find entryId with
    | none => exact (after_transition_none found).symm ▸ whole
    | some entry => exact (after_transition_some found).symm ▸ whole.change entryId lifecycle
  | archive entryId =>
    change Whole (registry.after (.archive entryId))
    exact (after_archive_none spared).symm ▸ whole

theorem exists_id_changed {other : String} {lifecycle : Lifecycle} :
    (∃ entry ∈ (registry.change entryId lifecycle).entries, entry.id = other) ↔ ∃ entry ∈ registry.entries, entry.id = other :=
  exists_changed fun entry => by rw [movedAt_id]

theorem Orderly.archived (orderly : Orderly numerals registry) (found : registry.find entryId = some entry) :
    Withdrawn entryId (called numerals registry (.archive entryId)) := by
  change Withdrawn entryId (registry.after (.archive entryId))
  obtain ⟨member, rfl⟩ := find_some found
  rw [after_archive_some found]
  refine ⟨exists_id_changed.mpr ⟨entry, member, rfl⟩, fun name listed => ?_⟩
  obtain ⟨before, foreign⟩ := mem_removeFrom.mp listed
  obtain ⟨other, inside, id, kind⟩ := orderly.filed name entry.id before
  rw [List.inj_on_of_nodup_map orderly.ids inside member id] at kind
  exact foreign ⟨kind.symm, rfl⟩

/-- What is withdrawn stays so. -/
theorem Withdrawn.step (withdrawn : Withdrawn entryId registry) {call : Call} (given : Given registry call) :
    Withdrawn entryId (called numerals registry call) := by
  obtain ⟨⟨entry, member, same⟩, unlisted⟩ := withdrawn
  cases call with
  | register args generated now =>
    obtain unchanged | ⟨urn, -, -, -, indexed⟩ := called_register numerals registry args generated now
    · rw [unchanged]
      exact ⟨⟨entry, member, same⟩, unlisted⟩
    · have appended : (registry.indexEntry (entryFor args urn generated now)).entries =
          registry.entries ++ [entryFor args urn generated now] := putEntry_fresh given.1
      rw [indexed]
      refine ⟨⟨entry, appended ▸ List.mem_append_left _ member, same⟩, fun name listed => ?_⟩
      rcases mem_addTo_iff.mp listed with before | ⟨-, new⟩
      · exact unlisted name before
      · exact given.1 entry member (same.trans new)
  | transition other lifecycle =>
    change Withdrawn entryId (registry.after (.transition other lifecycle))
    cases found : registry.find other with
    | none => exact (after_transition_none found).symm ▸ ⟨⟨entry, member, same⟩, unlisted⟩
    | some _ => exact (after_transition_some found).symm ▸ ⟨exists_id_changed.mpr ⟨entry, member, same⟩, unlisted⟩
  | archive other =>
    change Withdrawn entryId (registry.after (.archive other))
    cases found : registry.find other with
    | none => exact (after_archive_none found).symm ▸ ⟨⟨entry, member, same⟩, unlisted⟩
    | some _ =>
      rw [after_archive_some found]
      exact ⟨exists_id_changed.mpr ⟨entry, member, same⟩, fun name listed => unlisted name (mem_removeFrom.mp listed).1⟩

end Calls

variable {back : Registry}

section Answers

theorem resolve_missing (missing : registry.find entryId = none) (rest : List String) :
    registry.resolve (entryId :: rest) = .error (.keyError entryId) := by
  unfold resolve
  rw [List.mapM_cons, missing]
  rfl

theorem resolve_found (found : registry.find entryId = some entry) (rest : List String) :
    registry.resolve (entryId :: rest) = (registry.resolve rest).map fun later => entry :: later := by
  unfold resolve
  rw [List.mapM_cons, found]
  rfl

theorem resolve_ids_eq {entryIds : List String} {listed : List RegistryEntry} (resolved : registry.resolve entryIds = .ok listed) :
    listed.map RegistryEntry.id = entryIds := by
  induction entryIds generalizing listed with
  | nil =>
    cases resolved
    rfl
  | cons entryId rest ih =>
    cases found : registry.find entryId with
    | none =>
      rw [resolve_missing found] at resolved
      cases resolved
    | some entry =>
      rw [resolve_found found] at resolved
      cases others : registry.resolve rest with
      | error error =>
        rw [others] at resolved
        cases resolved
      | ok later =>
        rw [others] at resolved
        cases resolved
        rw [List.map_cons, ih others, (find_some found).2]

theorem resolve_present {entryIds : List String} (present : ∀ entryId ∈ entryIds, ∃ entry ∈ registry.entries, entry.id = entryId) :
    ∃ listed, registry.resolve entryIds = .ok listed := by
  induction entryIds with
  | nil => exact ⟨[], rfl⟩
  | cons entryId rest ih =>
    obtain ⟨later, others⟩ := ih fun other inside => present other (List.mem_cons_of_mem _ inside)
    obtain ⟨entry, member, same⟩ := present entryId List.mem_cons_self
    have found : (registry.find entryId).isSome = true := List.find?_isSome.mpr ⟨entry, member, decide_eq_true same⟩
    obtain ⟨known, found⟩ := Option.isSome_iff_exists.mp found
    exact ⟨known :: later, by rw [resolve_found found, others]; rfl⟩

theorem listed_of_present (registry : Registry) (entryIds : List String)
    (present : ∀ entryId ∈ entryIds, ∃ entry ∈ registry.entries, entry.id = entryId) :
    ∃ listed, (registry.resolve entryIds).map (fun entries => paginate entries none 0) = .ok listed ∧
      listed.map RegistryEntry.id = entryIds := by
  obtain ⟨listed, resolved⟩ := resolve_present present
  exact ⟨listed, by rw [resolved]; rfl, resolve_ids_eq resolved⟩

theorem ids_of_listed {entryIds : List String} {listed : List RegistryEntry}
    (answered : (registry.resolve entryIds).map (fun entries => paginate entries none 0) = .ok listed) :
    listed.map RegistryEntry.id = entryIds := by
  cases resolved : registry.resolve entryIds with
  | error error =>
    rw [resolved] at answered
    cases answered
  | ok others =>
    rw [resolved] at answered
    cases answered
    exact resolve_ids_eq resolved

theorem Whole.got (whole : Whole registry) {urn : String} :
    registry.getByUrn urn = .ok entry ↔ entry ∈ registry.entries ∧ entry.urn.text = urn := by
  constructor
  · intro got
    obtain ⟨known, held, found⟩ := getByUrn_ok got
    obtain ⟨other, member, id, text⟩ := (whole.urn urn known).mp held
    have found' := find_of_mem whole.ids member
    rw [id, found] at found'
    cases found'
    exact ⟨member, text⟩
  · rintro ⟨member, text⟩
    have held := (whole.urn urn entry.id).mpr ⟨entry, member, rfl, text⟩
    unfold getByUrn
    rw [held, Option.bind_some, find_of_mem whole.ids member]

theorem Whole.taken_iff (whole : Whole registry) {urn : String} :
    (registry.byUrn urn).isSome = true ↔ ∃ entry ∈ registry.entries, entry.urn.text = urn := by
  rw [Option.isSome_iff_exists]
  constructor
  · rintro ⟨entryId, held⟩
    obtain ⟨entry, member, -, text⟩ := (whole.urn urn entryId).mp held
    exact ⟨entry, member, text⟩
  · rintro ⟨entry, member, text⟩
    exact ⟨entry.id, (whole.urn urn entry.id).mpr ⟨entry, member, rfl, text⟩⟩

theorem accepts_eq (registry : Registry) (args : Registration) (generated : ScopedId) (now : String) :
    registry.accepts args generated now = (!registry.frozen &&
      match URN.make args.kind.name args.entryNamespace args.name args.version with
      | .ok urn => (registry.byUrn urn.text).isNone
      | .error _ => false) := by
  unfold accepts register
  cases frozen : registry.frozen with
  | true => simp [Stateful.on_bind, frozen, Except.isOk, Except.toBool]
  | false =>
    cases made : URN.make args.kind.name args.entryNamespace args.name args.version with
    | error error => simp [Stateful.on_bind, frozen, Except.isOk, Except.toBool]
    | ok urn =>
      cases taken : registry.byUrn urn.text with
      | some other => simp [Stateful.on_bind, frozen, taken, Except.isOk, Except.toBool]
      | none => simp [Stateful.on_bind, Stateful.on_map, frozen, taken, Except.map, Except.isOk, Except.toBool]

theorem same_entries {before : Registry} {index index' : String → List String} {label : RegistryEntry → String}
    (catalogues : Catalogues index label before.entries) (catalogues' : Catalogues index' label back.entries)
    (kept : ∀ entry ∈ before.entries, ∃ other ∈ back.entries, other.id = entry.id ∧ label other = label entry)
    (only : ∀ other ∈ back.entries, ∃ entry ∈ before.entries, other.id = entry.id ∧ label other = label entry) (name : String) :
    SameEntries ((before.resolve (index name)).map fun entries => paginate entries none 0)
      ((back.resolve (index' name)).map fun entries => paginate entries none 0) := by
  obtain ⟨listed, answered, ids⟩ := listed_of_present before (index name) fun entryId inside =>
    ((catalogues name entryId).mp inside).imp fun _ held => ⟨held.1, held.2.1⟩
  obtain ⟨listed', answered', ids'⟩ := listed_of_present back (index' name) fun entryId inside =>
    ((catalogues' name entryId).mp inside).imp fun _ held => ⟨held.1, held.2.1⟩
  refine ⟨listed, listed', answered, answered', fun entryId => ?_⟩
  rw [ids, ids', catalogues, catalogues']
  constructor
  · rintro ⟨entry, member, rfl, rfl⟩
    obtain ⟨other, inside, id, same⟩ := kept entry member
    exact ⟨other, inside, id, same⟩
  · rintro ⟨other, member, rfl, rfl⟩
    obtain ⟨entry, inside, id, same⟩ := only other member
    exact ⟨entry, inside, id.symm, same.symm⟩

/-- Two whole registries with the same entries answer alike. -/
theorem Whole.survived {before : Registry} (whole : Whole before) (whole' : Whole back)
    (kept : ∀ entry ∈ before.entries, ∃ other ∈ back.entries, Alike entry other)
    (only : ∀ other ∈ back.entries, ∃ entry ∈ before.entries, Alike entry other) : Survived before back := by
  have text : ∀ {entry other : RegistryEntry}, Alike entry other → other.urn.text = entry.urn.text := by
    intro entry other alike
    rw [alike.urn]
  constructor
  · exact kept
  · exact only
  · intro urn entry got
    obtain ⟨member, same⟩ := whole.got.mp got
    obtain ⟨other, inside, alike⟩ := kept entry member
    exact ⟨other, whole'.got.mpr ⟨inside, (text alike).trans same⟩, alike⟩
  · intro urn other got
    obtain ⟨member, same⟩ := whole'.got.mp got
    obtain ⟨entry, inside, alike⟩ := only other member
    exact ⟨entry, whole.got.mpr ⟨inside, (text alike).symm.trans same⟩, alike⟩
  · intro kind
    refine same_entries whole.kind whole'.kind (fun entry member => ?_) (fun other member => ?_) kind.name
    · obtain ⟨other, inside, alike⟩ := kept entry member
      exact ⟨other, inside, alike.id, by rw [alike.kind]⟩
    · obtain ⟨entry, inside, alike⟩ := only other member
      exact ⟨entry, inside, alike.id, by rw [alike.kind]⟩
  · intro name
    refine same_entries whole.entryNamespace whole'.entryNamespace (fun entry member => ?_) (fun other member => ?_) name
    · obtain ⟨other, inside, alike⟩ := kept entry member
      exact ⟨other, inside, alike.id, alike.entryNamespace⟩
    · obtain ⟨entry, inside, alike⟩ := only other member
      exact ⟨entry, inside, alike.id, alike.entryNamespace⟩
  · intro args generated now
    rw [accepts_eq, accepts_eq, whole.thawed, whole'.thawed]
    cases URN.make args.kind.name args.entryNamespace args.name args.version with
    | error error => rfl
    | ok urn =>
      have same : (before.byUrn urn.text).isSome = (back.byUrn urn.text).isSome := by
        rw [Bool.eq_iff_iff, whole.taken_iff, whole'.taken_iff]
        constructor
        · rintro ⟨entry, member, held⟩
          obtain ⟨other, inside, alike⟩ := kept entry member
          exact ⟨other, inside, (text alike).trans held⟩
        · rintro ⟨other, member, held⟩
          obtain ⟨entry, inside, alike⟩ := only other member
          exact ⟨entry, inside, (text alike).symm.trans held⟩
      dsimp only
      rw [← Option.not_isSome, ← Option.not_isSome, same]

end Answers

section Table

/-- The entry that comes back of a row. -/
def restored (entry : RegistryEntry) : RegistryEntry :=
  { entry with kind := resolveKind entry.kind.name, target := none, tags := sortedTags entry.tags }

theorem resolveKind_name (name : String) : (resolveKind name).name = name := by
  unfold resolveKind
  split <;> rfl

theorem mem_sortedTags {tags : List String} {tag : String} : tag ∈ sortedTags tags ↔ tag ∈ tags := by
  unfold sortedTags
  rw [List.mem_mergeSort, List.mem_dedup]

theorem restored_alike (same : entry.kind = resolveKind entry.kind.name) : Alike entry (restored entry) :=
  ⟨rfl, rfl, same.symm, rfl, rfl, rfl, rfl, rfl, fun _ => mem_sortedTags, rfl⟩

theorem lifecycleNamed_name (lifecycle : Lifecycle) : lifecycleNamed lifecycle.name = .ok lifecycle := by
  cases lifecycle <;> rfl

theorem rowOf_written (written : URN.Written numerals entry.urn) : rowOf numerals entry = .ok (entry.row entry.urn.text) := by
  unfold rowOf
  rw [URN.str_written written]

theorem hydrateEntry_row (plain : entry.urn.Plain) (written : URN.Written numerals entry.urn) (registry : Registry) :
    hydrateEntry numerals registry (entry.row entry.urn.text) = .ok (registry.indexEntry (restored entry)) := by
  have read : URN.parse numerals entry.urn.text = .ok entry.urn := by
    have back := URN.str_parse_iff.mpr ⟨plain, written⟩
    rw [URN.str_written written] at back
    exact back
  unfold hydrateEntry
  rw [show (entry.row entry.urn.text).urn = entry.urn.text from rfl, read]
  dsimp only
  rw [show (entry.row entry.urn.text).lifecycle = entry.lifecycle.name from rfl, lifecycleNamed_name]
  rfl

theorem upsert_fresh {rows : List Row} {row : Row} (fresh : ∀ other ∈ rows, other.id ≠ row.id ∧ other.urn ≠ row.urn) :
    upsert rows row = .ok (rows ++ [row]) := by
  unfold upsert
  rw [if_neg, if_neg]
  · intro known
    obtain ⟨other, inside, same⟩ := List.any_eq_true.mp known
    exact (fresh other inside).1 (of_decide_eq_true same)
  · intro taken
    obtain ⟨other, inside, same⟩ := List.any_eq_true.mp taken
    exact (fresh other inside).2 (of_decide_eq_true (Bool.and_eq_true_iff.mp same).1)

/-- Rows of ids and URNs that are new are appended. -/
theorem saveAll_fresh (rows : List Row) (written : ∀ entry ∈ entries, URN.Written numerals entry.urn)
    (ids : (entries.map RegistryEntry.id).Nodup) (urns : (entries.map fun entry => entry.urn.text).Nodup)
    (fresh : ∀ row ∈ rows, ∀ entry ∈ entries, row.id ≠ entry.id ∧ row.urn ≠ entry.urn.text) :
    saveAll numerals rows entries = .ok (rows ++ entries.map fun entry => entry.row entry.urn.text) := by
  induction entries generalizing rows with
  | nil =>
    rw [List.map_nil, List.append_nil]
    rfl
  | cons entry rest ih =>
    obtain ⟨newId, ids⟩ := List.nodup_cons.mp ids
    obtain ⟨newUrn, urns⟩ := List.nodup_cons.mp urns
    have own := fun row inside => fresh row inside entry List.mem_cons_self
    have first : saveEntry numerals rows entry = .ok (rows ++ [entry.row entry.urn.text]) := by
      unfold saveEntry
      rw [rowOf_written (written entry List.mem_cons_self)]
      dsimp only [Except.bind]
      exact upsert_fresh own
    have later := ih (rows ++ [entry.row entry.urn.text]) (fun other inside => written other (List.mem_cons_of_mem _ inside))
      ids urns ?_
    · have shape : rows ++ entry.row entry.urn.text :: rest.map (fun entry => entry.row entry.urn.text) =
          rows ++ [entry.row entry.urn.text] ++ rest.map fun entry => entry.row entry.urn.text := List.append_cons _ _ _
      unfold saveAll at later ⊢
      rw [List.foldlM_cons, first, List.map_cons, shape]
      exact later
    · intro row inside other member
      rcases List.mem_append.mp inside with before | new
      · exact fresh row before other (List.mem_cons_of_mem _ member)
      · rw [List.mem_singleton.mp new]
        exact ⟨fun same => newId (List.mem_map.mpr ⟨other, member, same.symm⟩),
          fun same => newUrn (List.mem_map.mpr ⟨other, member, same.symm⟩)⟩

/-- The rows of entries with ids and URNs of their own are hydrated one after the other. -/
theorem hydrate_fresh (whole : Whole registry) (plain : ∀ entry ∈ entries, entry.urn.Plain)
    (written : ∀ entry ∈ entries, URN.Written numerals entry.urn) (ids : (entries.map RegistryEntry.id).Nodup)
    (urns : (entries.map fun entry => entry.urn.text).Nodup)
    (fresh : ∀ other ∈ registry.entries, ∀ entry ∈ entries, other.id ≠ entry.id ∧ other.urn.text ≠ entry.urn.text) :
    ∃ back, hydrateRegistry numerals (entries.map fun entry => entry.row entry.urn.text) registry = .ok back ∧ Whole back ∧
      back.entries = registry.entries ++ entries.map restored := by
  induction entries generalizing registry with
  | nil => exact ⟨registry, rfl, whole, (List.append_nil _).symm⟩
  | cons entry rest ih =>
    obtain ⟨newId, ids⟩ := List.nodup_cons.mp ids
    obtain ⟨newUrn, urns⟩ := List.nodup_cons.mp urns
    have own := fun other inside => fresh other inside entry List.mem_cons_self
    have free : registry.byUrn (restored entry).urn.text = none := by
      cases taken : registry.byUrn (restored entry).urn.text with
      | none => rfl
      | some entryId =>
        obtain ⟨other, inside, -, same⟩ := (whole.urn _ _).mp taken
        exact absurd same (own other inside).2
    have unlike : ∀ other ∈ registry.entries, other.id ≠ (restored entry).id := fun other inside => (own other inside).1
    have appended : (registry.indexEntry (restored entry)).entries = registry.entries ++ [restored entry] := putEntry_fresh unlike
    obtain ⟨back, hydrated, whole, result⟩ := ih (whole.index unlike free)
      (fun other inside => plain other (List.mem_cons_of_mem _ inside))
      (fun other inside => written other (List.mem_cons_of_mem _ inside)) ids urns (by
        intro other inside next member
        rw [appended] at inside
        rcases List.mem_append.mp inside with before | new
        · exact fresh other before next (List.mem_cons_of_mem _ member)
        · rw [List.mem_singleton.mp new]
          exact ⟨fun same => newId (List.mem_map.mpr ⟨next, member, same.symm⟩),
            fun same => newUrn (List.mem_map.mpr ⟨next, member, same.symm⟩)⟩)
    refine ⟨back, ?_, whole, ?_⟩
    · unfold hydrateRegistry at hydrated ⊢
      rw [List.map_cons, List.foldlM_cons, hydrateEntry_row (plain entry List.mem_cons_self) (written entry List.mem_cons_self)]
      exact hydrated
    · rw [result, appended, List.map_cons, List.append_assoc, List.singleton_append]

/-- A registry in which nothing was archived by `archive` comes back. -/
theorem Whole.survives (whole : Whole registry) (orderly : Orderly numerals registry)
    (kinds : ∀ entry ∈ registry.entries, entry.kind = resolveKind entry.kind.name) : Survives numerals registry := by
  have urns : (registry.entries.map fun entry => entry.urn.text).Nodup := by
    refine List.Nodup.map_on (fun entry member other inside same => ?_) (List.Nodup.of_map _ whole.ids)
    have first := (whole.urn other.urn.text entry.id).mpr ⟨entry, member, rfl, same⟩
    have second := (whole.urn other.urn.text other.id).mpr ⟨other, inside, rfl, rfl⟩
    exact List.inj_on_of_nodup_map whole.ids member inside (Option.some.inj (first.symm.trans second))
  refine ⟨_, saveAll_fresh [] orderly.written whole.ids urns fun row inside => absurd inside List.not_mem_nil, ?_⟩
  intro loaded reordered
  rw [List.nil_append] at reordered
  obtain ⟨listed, same, order⟩ :=
    (congrFun (congrFun (List.eq_map_comp_perm fun entry : RegistryEntry => entry.row entry.urn.text) loaded)
      registry.entries).mpr reordered
  subst same
  have inside : ∀ entry, entry ∈ listed ↔ entry ∈ registry.entries := fun _ => order.mem_iff
  obtain ⟨back, hydrated, whole', result⟩ := hydrate_fresh
    whole_new (fun entry member => orderly.plain entry ((inside entry).mp member))
    (fun entry member => orderly.written entry ((inside entry).mp member)) ((order.map _).nodup_iff.mpr whole.ids)
    ((order.map _).nodup_iff.mpr urns) fun other member => absurd member List.not_mem_nil
  have entries : back.entries = listed.map restored := result
  refine ⟨back, hydrated, whole.survived whole' (fun entry member => ?_) fun other member => ?_⟩
  · rw [entries]
    exact ⟨restored entry, List.mem_map.mpr ⟨entry, (inside entry).mpr member, rfl⟩, restored_alike (kinds entry member)⟩
  · rw [entries] at member
    obtain ⟨entry, present, rfl⟩ := List.mem_map.mp member
    have member := (inside entry).mp present
    exact ⟨entry, member, restored_alike (kinds entry member)⟩

/-- What holds of every hydrated registry: the entries are listed under their kinds,
which are the ones of their names. -/
structure Hydrated (registry : Registry) : Prop where
  listed : ∀ entry ∈ registry.entries, entry.id ∈ registry.byKind entry.kind.name
  kinds : ∀ entry ∈ registry.entries, entry.kind = resolveKind entry.kind.name

theorem Hydrated.index (hydrated : Hydrated registry) (same : entry.kind = resolveKind entry.kind.name) :
    Hydrated (registry.indexEntry entry) := by
  have inside : ∀ other ∈ (registry.indexEntry entry).entries, other = entry ∨ other ∈ registry.entries := by
    intro other member
    change other ∈ putEntry registry.entries entry at member
    unfold putEntry at member
    split at member
    · obtain ⟨before, present, rfl⟩ := List.mem_map.mp member
      split
      · exact .inl rfl
      · exact .inr present
    · rcases List.mem_append.mp member with before | own
      · exact .inr before
      · exact .inl (List.mem_singleton.mp own)
  constructor
  · intro other member
    refine mem_addTo_iff.mpr ?_
    rcases inside other member with rfl | before
    · exact .inr ⟨rfl, rfl⟩
    · exact .inl (hydrated.listed other before)
  · intro other member
    rcases inside other member with rfl | before
    · exact same
    · exact hydrated.kinds other before

theorem hydrateEntry_hydrated (hydrated : Hydrated registry) {row : Row}
    (returned : hydrateEntry numerals registry row = .ok back) : Hydrated back := by
  unfold hydrateEntry at returned
  split at returned
  · cases returned
  · cases named : lifecycleNamed row.lifecycle with
    | error error =>
      rw [named] at returned
      cases returned
    | ok lifecycle =>
      rw [named] at returned
      cases returned
      exact hydrated.index (congrArg resolveKind (resolveKind_name row.kind).symm)

theorem hydrateRegistry_hydrated (hydrated : Hydrated registry) {rows : List Row}
    (returned : hydrateRegistry numerals rows registry = .ok back) : Hydrated back := by
  unfold hydrateRegistry at returned
  induction rows generalizing registry with
  | nil =>
    cases returned
    exact hydrated
  | cons row rest ih =>
    rw [List.foldlM_cons] at returned
    cases first : hydrateEntry numerals registry row with
    | error error =>
      rw [first] at returned
      cases returned
    | ok middle =>
      rw [first] at returned
      exact ih (hydrateEntry_hydrated hydrated first) returned

theorem Survives.listed (survives : Survives numerals registry) :
    (∀ entry ∈ registry.entries, entry.id ∈ registry.byKind entry.kind.name) ∧
      ∀ entry ∈ registry.entries, entry.kind = resolveKind entry.kind.name := by
  obtain ⟨rows, -, comes⟩ := survives
  obtain ⟨back, returned, survived⟩ := comes rows (List.Perm.refl rows)
  have hydrated := hydrateRegistry_hydrated ⟨fun _ member => absurd member List.not_mem_nil,
    fun _ member => absurd member List.not_mem_nil⟩ returned
  constructor
  · intro entry member
    obtain ⟨other, inside, alike⟩ := survived.kept entry member
    obtain ⟨listed, listed', answered, answered', same⟩ := survived.kind entry.kind
    have present := hydrated.listed other inside
    rw [alike.kind, ← ids_of_listed answered', ← same, ids_of_listed answered, alike.id] at present
    exact present
  · intro entry member
    obtain ⟨other, inside, alike⟩ := survived.kept entry member
    have kind := hydrated.kinds other inside
    rw [alike.kind] at kind
    exact kind

end Table

/-- No custom kind has the name of a built-in one. -/
def Kind.Honest : Kind → Prop
  | .registry _ => True
  | .custom name => name ∉ registryKinds

theorem Kind.Known.resolved_iff {kind : Kind} (known : kind.Known) : kind = resolveKind kind.name ↔ kind.Honest := by
  unfold resolveKind
  cases kind with
  | registry name => exact ⟨fun _ => trivial, fun _ => (if_pos known).symm⟩
  | custom name =>
    constructor
    · intro same inside
      rw [Kind.name, if_pos inside] at same
      cases same
    · exact fun outside => (if_neg outside).symm

theorem Orderly.withdraws (run : List Call) (orderly : Orderly numerals registry)
    (given : Meets (called numerals) Given registry run) (archived : ¬ Meets (called numerals) NotArchiving registry run) :
    ∃ entryId, Withdrawn entryId (run.foldl (called numerals) registry) := by
  induction run generalizing registry with
  | nil => exact absurd trivial archived
  | cons call rest ih =>
    obtain ⟨first, later⟩ := given
    by_cases spared : NotArchiving registry call
    · exact ih (orderly.step first) later fun meets => archived ⟨spared, meets⟩
    · cases call with
      | register args generated now => exact absurd trivial spared
      | transition entryId lifecycle => exact absurd trivial spared
      | archive entryId =>
        obtain ⟨entry, found⟩ := Option.ne_none_iff_exists'.mp spared
        have kept : ∀ (before : Registry) (call : Call), Withdrawn entryId before → Given before call →
            Withdrawn entryId (called numerals before call) := fun _ _ withdrawn given => withdrawn.step given
        have last : Withdrawn entryId (rest.foldl (called numerals) (called numerals registry (.archive entryId))) :=
          Meets.last kept (orderly.archived found) later
        exact ⟨entryId, last⟩

/-- A registry comes back from its table if and only if no entry of it was archived by
`archive` and none has a custom kind with the name of a built-in one. -/
theorem registry_survives_iff (numerals : Numerals) (run : List Call) (given : Meets (called numerals) Given new run) :
    Survives numerals (run.foldl (called numerals) new) ↔ Meets (called numerals) NotArchiving new run ∧
      ∀ entry ∈ (run.foldl (called numerals) new).entries, entry.kind.Honest := by
  have start : Orderly numerals new := by
    constructor
    · exact List.nodup_nil
    · exact fun _ member => absurd member List.not_mem_nil
    · exact fun _ member => absurd member List.not_mem_nil
    · exact fun _ member => absurd member List.not_mem_nil
    · exact fun _ _ listed => absurd listed List.not_mem_nil
  have orderly : Orderly numerals (run.foldl (called numerals) new) :=
    Meets.last (fun _ _ orderly given => orderly.step given) start given
  constructor
  · intro survives
    obtain ⟨listed, kinds⟩ := survives.listed
    refine ⟨?_, fun entry member => (orderly.known entry member).resolved_iff.mp (kinds entry member)⟩
    by_contra archived
    obtain ⟨_, ⟨entry, member, rfl⟩, unlisted⟩ := start.withdraws run given archived
    exact unlisted _ (listed entry member)
  · rintro ⟨spared, honest⟩
    have kept : ∀ (before : Registry) (call : Call), Whole before → Given before call ∧ NotArchiving before call →
        Whole (called numerals before call) := fun _ _ whole holds => whole.step holds.1 holds.2
    have whole : Whole (run.foldl (called numerals) new) := Meets.last kept whole_new (given.and spared)
    exact whole.survives orderly fun entry member => (orderly.known entry member).resolved_iff.mpr (honest entry member)

namespace Persistence

private def orders : Registration where
  kind := .registry "MODEL"
  entryNamespace := "shop"
  name := "Order"
  registeredBy := "system"
  target := some 7
  metadata := .obj [("table", .str "orders")]
  tags := ["b", "a"]
  version := 1
  lifecycle := .active

/-- A model is registered, deprecated, and goes to ARCHIVED by a transition. -/
def retired : List Call :=
  [.register orders (.repeated 1) "2025-01-01T12:00:00+00:00", .transition (ScopedId.repeated 1).text .deprecated,
    .transition (ScopedId.repeated 1).text .archived]

/-- A model is registered and archived by `archive`. -/
def discarded : List Call :=
  [.register orders (.repeated 1) "2025-01-01T12:00:00+00:00", .archive (ScopedId.repeated 1).text]

private theorem given_orders (now : String) : Given new (.register orders (.repeated 1) now) :=
  ⟨fun _ member => absurd member List.not_mem_nil, (by decide : "MODEL" ∈ registryKinds), by decide, by decide, by decide⟩

theorem registry_survives_iff_retired : Survives URN.asciiNumerals (retired.foldl (called URN.asciiNumerals) new) := by
  refine (registry_survives_iff URN.asciiNumerals retired ⟨given_orders _, trivial, trivial, trivial⟩).mpr ⟨?_, ?_⟩
  · exact ⟨trivial, trivial, trivial, trivial⟩
  · intro entry member
    have kinds : (retired.foldl (called URN.asciiNumerals) new).entries.map RegistryEntry.kind = [.registry "MODEL"] := by
      decide +kernel
    have kind : entry.kind ∈ [Kind.registry "MODEL"] := kinds ▸ List.mem_map.mpr ⟨entry, member, rfl⟩
    rw [List.mem_singleton.mp kind]
    trivial

/-- The archived entry comes back listed under its kind, and takes its URN again. -/
theorem archived_entry_returns : Meets (called URN.asciiNumerals) Given new discarded ∧
    ¬ Survives URN.asciiNumerals (discarded.foldl (called URN.asciiNumerals) new) := by
  refine ⟨⟨given_orders _, trivial, trivial⟩, fun survives => ?_⟩
  have unlisted : ∀ entry ∈ (discarded.foldl (called URN.asciiNumerals) new).entries,
      entry.id ∉ (discarded.foldl (called URN.asciiNumerals) new).byKind entry.kind.name := by
    decide +kernel
  have present : (discarded.foldl (called URN.asciiNumerals) new).entries ≠ [] := by decide +kernel
  obtain ⟨entry, member⟩ := List.exists_mem_of_ne_nil _ present
  exact unlisted entry member (survives.listed.1 entry member)

end Persistence

end PyScoped.Legacy.Registry
