import PyScoped.Foundation.Runs
import PyScoped.Legacy.Registry

/-! When the indexes of the registry agree with its entries. Only `archive`
takes an entry out of them, and only `register` puts one in. -/

namespace PyScoped.Legacy.Registry
open Foundation Foundation.Runs

/-- What callers rely on: the live entries are found by their URN and listed
once under their kind and namespace, and no other entry is. -/
structure Consistent (registry : Registry) : Prop where
  unique : ∀ entry ∈ registry.entries, ∀ other ∈ registry.entries, entry.live = true → other.live = true →
    entry.urn.text = other.urn.text → entry = other
  urn : ∀ urn entry, registry.getByUrn urn = .ok entry ↔ entry ∈ registry.entries ∧ entry.live = true ∧ entry.urn.text = urn
  kind : ∀ kind, ∃ listed, registry.listByKind kind none 0 = .ok listed ∧ listed.Nodup ∧
    listed.Perm ((registry.query (ofKind kind) none 0).filter RegistryEntry.live)
  entryNamespace : ∀ entryNamespace, ∃ listed, registry.listByNamespace entryNamespace none 0 = .ok listed ∧ listed.Nodup ∧
    listed.Perm ((registry.query (inNamespace entryNamespace) none 0).filter RegistryEntry.live)

/-- The live entries under a name, in the order of the entries. -/
def livingUnder (label : RegistryEntry → String) (name : String) (entries : List RegistryEntry) : List RegistryEntry :=
  entries.filter fun entry => entry.live && decide (label entry = name)

/-- The index lists the live entries under each name. -/
def Lists (index : String → List String) (label : RegistryEntry → String) (entries : List RegistryEntry) : Prop :=
  ∀ name, index name = (livingUnder label name entries).map RegistryEntry.id

/-- The index has the live entry of each URN. -/
def Finds (index : String → Option String) (entries : List RegistryEntry) : Prop :=
  ∀ urn entryId, index urn = some entryId ↔ ∃ entry ∈ entries, entry.id = entryId ∧ entry.live = true ∧ entry.urn.text = urn

/-- What the indexes hold, as they are kept. -/
structure Sound (registry : Registry) : Prop where
  ids : (registry.entries.map RegistryEntry.id).Nodup
  urn : Finds registry.byUrn registry.entries
  kind : Lists registry.byKind (fun entry => entry.kind.name) registry.entries
  entryNamespace : Lists registry.byNamespace RegistryEntry.entryNamespace registry.entries

theorem sound_new : Sound new := by
  constructor
  · exact List.nodup_nil
  · intro urn entryId
    simp [new]
  · exact fun _ => rfl
  · exact fun _ => rfl

variable {registry : Registry}

theorem find_some {entryId : String} {entry : RegistryEntry} (found : registry.find entryId = some entry) :
    entry ∈ registry.entries ∧ entry.id = entryId := by
  unfold find at found
  constructor
  · exact List.mem_of_find?_eq_some found
  · simpa using List.find?_some found

theorem find_of_mem (ids : (registry.entries.map RegistryEntry.id).Nodup) {entry : RegistryEntry}
    (member : entry ∈ registry.entries) : registry.find entry.id = some entry := by
  cases found : registry.find entry.id with
  | none =>
    have unlike := List.find?_eq_none.mp found entry member
    simp at unlike
  | some other =>
    obtain ⟨member', same⟩ := find_some found
    rw [List.inj_on_of_nodup_map ids member' member same]

theorem resolve_ids (ids : (registry.entries.map RegistryEntry.id).Nodup) {listed : List RegistryEntry}
    (members : ∀ entry ∈ listed, entry ∈ registry.entries) :
    registry.resolve (listed.map RegistryEntry.id) = .ok listed := by
  unfold resolve
  induction listed with
  | nil => rfl
  | cons entry listed ih =>
    rw [List.map_cons, List.mapM_cons, find_of_mem ids (members entry List.mem_cons_self),
      ih fun other member => members other (List.mem_cons_of_mem _ member)]
    rfl

private theorem listed_agrees (ids : (registry.entries.map RegistryEntry.id).Nodup) {index : String → List String}
    {label : RegistryEntry → String} (lists : Lists index label registry.entries) {name : String} {filters : Filters}
    (passes : ∀ entry, filters.pass entry = decide (label entry = name)) :
    ∃ listed, (registry.resolve (index name)).map (fun entries => paginate entries none 0) = .ok listed ∧ listed.Nodup ∧
      listed.Perm ((registry.query filters none 0).filter RegistryEntry.live) := by
  have members : ∀ entry ∈ livingUnder label name registry.entries, entry ∈ registry.entries :=
    fun entry member => List.mem_of_mem_filter member
  have alike : livingUnder label name registry.entries = (registry.query filters none 0).filter RegistryEntry.live := by
    simp only [livingUnder, query, paginate, List.drop_zero, List.filter_filter, passes]
  refine ⟨livingUnder label name registry.entries, ?_, ids.of_map.filter _, .of_eq alike⟩
  rw [lists, resolve_ids ids members]
  simp [Except.map, paginate]

theorem Sound.consistent (sound : Sound registry) : Consistent registry := by
  constructor
  · intro entry member other member' live live' same
    have first := (sound.urn other.urn.text entry.id).mpr ⟨entry, member, rfl, live, same⟩
    have second := (sound.urn other.urn.text other.id).mpr ⟨other, member', rfl, live', rfl⟩
    have ids : entry.id = other.id := Option.some.inj (first.symm.trans second)
    exact List.inj_on_of_nodup_map sound.ids member member' ids
  · intro urn entry
    unfold getByUrn
    constructor
    · intro got
      cases indexed : registry.byUrn urn with
      | none => simp [indexed] at got
      | some entryId =>
        obtain ⟨known, member, rfl, live, same⟩ := (sound.urn urn entryId).mp indexed
        simp only [indexed, Option.bind_some, find_of_mem sound.ids member, Except.ok.injEq] at got
        rw [← got]
        exact ⟨member, live, same⟩
    · intro ⟨member, live, same⟩
      have indexed := (sound.urn urn entry.id).mpr ⟨entry, member, rfl, live, same⟩
      simp only [indexed, Option.bind_some, find_of_mem sound.ids member]
  · intro kind
    apply listed_agrees sound.ids sound.kind
    intro entry
    simp [ofKind, Filters.pass]
  · intro entryNamespace
    apply listed_agrees sound.ids sound.entryNamespace
    intro entry
    simp [inNamespace, Filters.pass]

theorem mem_of_resolved {entryIds : List String} {listed : List RegistryEntry} (resolved : registry.resolve entryIds = .ok listed)
    {entryId : String} {entry : RegistryEntry} (member : entryId ∈ entryIds) (found : registry.find entryId = some entry) :
    entry ∈ listed := by
  unfold resolve at resolved
  induction entryIds generalizing listed with
  | nil => cases member
  | cons first rest ih =>
    rw [List.mapM_cons] at resolved
    cases known : registry.find first with
    | none => simp [known, bind, Except.bind] at resolved
    | some entry' =>
      cases later : registry.resolve rest with
      | error error =>
        unfold resolve at later
        simp [known, later, bind, Except.bind] at resolved
      | ok listed' =>
        unfold resolve at later
        simp only [known, later, bind, Except.bind, pure, Except.pure, Except.ok.injEq] at resolved
        rw [← resolved]
        rcases List.mem_cons.mp member with rfl | member'
        · rw [found] at known
          rw [Option.some.inj known]
          exact List.mem_cons_self
        · exact List.mem_cons_of_mem _ (ih later member')

theorem Consistent.live (consistent : Consistent registry) {kind : Kind} {entryId : String} {entry : RegistryEntry}
    (indexed : entryId ∈ registry.byKind kind.name) (found : registry.find entryId = some entry) : entry.live = true := by
  obtain ⟨listed, answered, -, agrees⟩ := consistent.kind kind
  unfold listByKind at answered
  cases resolved : registry.resolve (registry.byKind kind.name) with
  | error error => simp [resolved, Except.map] at answered
  | ok entries =>
    simp only [resolved, Except.map, paginate, List.drop_zero, Except.ok.injEq] at answered
    have member := agrees.subset (answered ▸ mem_of_resolved resolved indexed found)
    exact (List.mem_filter.mp member).2

/-- The call is refused before it changes anything. -/
def Refused (registry : Registry) (args : Registration) : Prop :=
  registry.frozen = true ∨ (∃ error, URN.make args.kind.name args.entryNamespace args.name args.version = .error error) ∨
    ∃ urn, URN.make args.kind.name args.entryNamespace args.name args.version = .ok urn ∧
      ∃ entry ∈ registry.entries, entry.live = true ∧ entry.urn.text = urn.text

/-- The calls that the indexes bear. -/
def Regular (registry : Registry) : Call → Prop
  | .register args _ _ => args.lifecycle = .archived → Refused registry args
  | .transition entryId newLifecycle => ∀ entry, registry.find entryId = some entry →
    (entry.lifecycle = .archived ↔ newLifecycle = .archived)
  | .archive entryId => ∀ entry, registry.find entryId = some entry → entry.lifecycle = .archived →
    ¬ ∃ other ∈ registry.entries, other.live = true ∧ other.urn.text = entry.urn.text

/-- A generated id is not the id of an entry. -/
def Fresh (registry : Registry) : Call → Prop
  | .register _ generated _ => ∀ entry ∈ registry.entries, entry.id ≠ generated.text
  | _ => True

variable {args : Registration} {generated : ScopedId} {now entryId : String} {lifecycle : Lifecycle} {entry : RegistryEntry}

theorem after_register (registry : Registry) (args : Registration) (generated : ScopedId) (now : String) :
    (registry.after (.register args generated now) = registry ∧ (registry.frozen = true ∨
      (∃ error, URN.make args.kind.name args.entryNamespace args.name args.version = .error error) ∨
      ∃ urn, URN.make args.kind.name args.entryNamespace args.name args.version = .ok urn ∧
        (registry.byUrn urn.text).isSome = true)) ∨
    ∃ urn, registry.byUrn urn.text = none ∧ ¬ registry.frozen = true ∧
      URN.make args.kind.name args.entryNamespace args.name args.version = .ok urn ∧
      registry.after (.register args generated now) = registry.indexEntry (entryFor args urn generated now) := by
  unfold after invoke register
  by_cases frozen : registry.frozen = true
  · simp [Stateful.on_bind, frozen]
  · cases made : URN.make args.kind.name args.entryNamespace args.name args.version with
    | error error =>
      left
      simp [Stateful.on_bind, frozen, made]
    | ok urn =>
      cases taken : registry.byUrn urn.text with
      | some other =>
        left
        simp [Stateful.on_bind, frozen, made, taken]
      | none =>
        right
        simp [Stateful.on_bind, Stateful.on_map, frozen, made, taken]

theorem after_transition_none (missing : registry.find entryId = none) : registry.after (.transition entryId lifecycle) = registry := by
  simp [after, invoke, transition, Stateful.on_bind, missing]

theorem after_transition_some (found : registry.find entryId = some entry) :
    registry.after (.transition entryId lifecycle) = registry.change entryId lifecycle := by
  simp [after, invoke, transition, Stateful.on_bind, Stateful.on_map, found]

theorem after_archive_none (missing : registry.find entryId = none) : registry.after (.archive entryId) = registry := by
  simp [after, invoke, archive, Stateful.on_bind, missing]

theorem after_archive_some (found : registry.find entryId = some entry) :
    registry.after (.archive entryId) = (registry.change entryId .archived).unindex entry := by
  simp [after, invoke, archive, Stateful.on_bind, Stateful.on_map, found]

@[simp] theorem movedAt_id : (movedAt entryId lifecycle entry).id = entry.id := by
  unfold movedAt moved
  split <;> rfl

@[simp] theorem movedAt_urn : (movedAt entryId lifecycle entry).urn = entry.urn := by
  unfold movedAt moved
  split <;> rfl

@[simp] theorem movedAt_kind : (movedAt entryId lifecycle entry).kind = entry.kind := by
  unfold movedAt moved
  split <;> rfl

@[simp] theorem movedAt_entryNamespace : (movedAt entryId lifecycle entry).entryNamespace = entry.entryNamespace := by
  unfold movedAt moved
  split <;> rfl

theorem movedAt_self : movedAt entry.id lifecycle entry = moved lifecycle entry := if_pos rfl

theorem movedAt_other (other : entry.id ≠ entryId) : movedAt entryId lifecycle entry = entry := if_neg other

theorem moved_live : (moved lifecycle entry).live = decide (lifecycle ≠ .archived) := rfl

theorem not_live : entry.live = false ↔ entry.lifecycle = .archived := by
  simp [RegistryEntry.live]

theorem ids_changed (entries : List RegistryEntry) :
    (entries.map (movedAt entryId lifecycle)).map RegistryEntry.id = entries.map RegistryEntry.id := by
  rw [List.map_map]
  apply List.map_congr_left
  intro entry _
  exact movedAt_id

theorem eq_of_find (ids : (registry.entries.map RegistryEntry.id).Nodup) (found : registry.find entryId = some entry)
    {other : RegistryEntry} (member : other ∈ registry.entries) (same : other.id = entryId) : other = entry := by
  obtain ⟨member', same'⟩ := find_some found
  exact List.inj_on_of_nodup_map ids member member' (same.trans same'.symm)

theorem mem_changed (found : registry.find entryId = some entry) :
    moved lifecycle entry ∈ (registry.change entryId lifecycle).entries := by
  obtain ⟨member, rfl⟩ := find_some found
  exact List.mem_map.mpr ⟨entry, member, movedAt_self⟩

variable {label : RegistryEntry → String} {index : String → List String} {entries : List RegistryEntry}

theorem livingUnder_changed (kept : ∀ entry, label (movedAt entryId lifecycle entry) = label entry) (name : String) :
    (livingUnder label name (entries.map (movedAt entryId lifecycle))).map RegistryEntry.id =
      (entries.filter fun entry => (movedAt entryId lifecycle entry).live && decide (label entry = name)).map
        RegistryEntry.id := by
  unfold livingUnder
  rw [List.filter_map, List.map_map]
  simp only [Function.comp_def, movedAt_id, kept]

theorem Lists.put (lists : Lists index label entries) (live : entry.live = true)
    (fresh : ∀ other ∈ entries, other.id ≠ entry.id) : Lists (addTo index (label entry) entry.id) label (entries ++ [entry]) := by
  intro name
  have unlisted : entry.id ∉ index (label entry) := by
    rw [lists]
    intro listed
    obtain ⟨other, member, same⟩ := List.mem_map.mp listed
    exact fresh other (List.mem_of_mem_filter member) same
  unfold addTo livingUnder
  rw [if_neg unlisted, List.filter_append, List.map_append]
  by_cases same : label entry = name
  · subst same
    rw [Function.update_self, lists]
    simp [livingUnder, live]
  · rw [Function.update_of_ne (Ne.symm same), lists]
    simp [livingUnder, same]

theorem Lists.change (lists : Lists index label entries)
    (kept : ∀ entry, label (movedAt entryId lifecycle entry) = label entry)
    (same : ∀ entry ∈ entries, entry.id = entryId → (entry.lifecycle = .archived ↔ lifecycle = .archived)) :
    Lists index label (entries.map (movedAt entryId lifecycle)) := by
  intro name
  rw [livingUnder_changed kept, lists]
  unfold livingUnder
  congr 1
  apply List.filter_congr
  intro entry member
  by_cases here : entry.id = entryId
  · subst here
    rw [movedAt_self, moved_live]
    simp [RegistryEntry.live, same entry member rfl]
  · rw [movedAt_other here]

theorem Lists.remove (entry : RegistryEntry) (lists : Lists index label entries)
    (kept : ∀ entry, label (movedAt entryId .archived entry) = label entry)
    (here : ∀ other ∈ entries, other.id = entryId → label other = label entry) :
    Lists (removeFrom index (label entry) entryId) label (entries.map (movedAt entryId .archived)) := by
  intro name
  rw [livingUnder_changed kept]
  have gone : ∀ other : RegistryEntry, (movedAt entryId .archived other).live = (other.live && decide (other.id ≠ entryId)) := by
    intro other
    by_cases same : other.id = entryId
    · subst same
      simp [movedAt_self, moved_live]
    · simp [movedAt_other same, same]
  unfold removeFrom
  by_cases same : name = label entry
  · subst same
    rw [Function.update_self, lists, List.filter_map, livingUnder, List.filter_filter]
    congr 1
    apply List.filter_congr
    intro other _
    simp only [gone, Function.comp_def]
    cases other.live <;> simp [Bool.and_comm]
  · rw [Function.update_of_ne same, lists]
    unfold livingUnder
    congr 1
    apply List.filter_congr
    intro other member
    rw [gone]
    by_cases moved : other.id = entryId
    · simp [here other member moved, Ne.symm same]
    · simp [moved]

theorem getByUrn_ok {urn : String} (got : registry.getByUrn urn = .ok entry) :
    ∃ known, registry.byUrn urn = some known ∧ registry.find known = some entry := by
  unfold getByUrn at got
  cases found : (registry.byUrn urn).bind registry.find with
  | none => simp [found] at got
  | some other =>
    simp only [found, Except.ok.injEq] at got
    subst got
    exact Option.bind_eq_some_iff.mp found

theorem mem_addTo {name : String} : entryId ∈ addTo index name entryId name := by
  unfold addTo
  rw [Function.update_self]
  split
  · assumption
  · exact List.mem_append_right _ (List.mem_singleton_self _)

theorem putEntry_fresh (fresh : ∀ other ∈ entries, other.id ≠ entry.id) : putEntry entries entry = entries ++ [entry] := by
  unfold putEntry
  rw [if_neg]
  simpa using fresh

theorem find_indexed (fresh : ∀ other ∈ registry.entries, other.id ≠ entry.id) :
    (registry.indexEntry entry).find entry.id = some entry := by
  unfold find
  rw [show (registry.indexEntry entry).entries = registry.entries ++ [entry] from putEntry_fresh fresh, List.find?_append,
    List.find?_eq_none.mpr (by simpa using fresh)]
  simp

theorem Sound.register (sound : Sound registry) (live : entry.live = true)
    (fresh : ∀ other ∈ registry.entries, other.id ≠ entry.id) (free : registry.byUrn entry.urn.text = none) :
    Sound (registry.indexEntry entry) := by
  have appended : (registry.indexEntry entry).entries = registry.entries ++ [entry] := putEntry_fresh fresh
  constructor
  · rw [appended, List.map_append, List.map_singleton, List.nodup_append]
    refine ⟨sound.ids, List.nodup_singleton _, ?_⟩
    intro known listed other single
    obtain ⟨entry', member, rfl⟩ := List.mem_map.mp listed
    rw [List.mem_singleton.mp single]
    exact fresh entry' member
  · intro urn entryId
    rw [appended]
    change Function.update registry.byUrn entry.urn.text (some entry.id) urn = _ ↔ _
    simp only [List.mem_append, List.mem_singleton]
    by_cases same : urn = entry.urn.text
    · subst same
      rw [Function.update_self, Option.some.injEq]
      constructor
      · intro named
        exact ⟨entry, .inr rfl, named, live, rfl⟩
      · rintro ⟨other, member | rfl, named, live', same⟩
        · have held := (sound.urn _ _).mpr ⟨other, member, rfl, live', same⟩
          rw [free] at held
          cases held
        · exact named
    · rw [Function.update_of_ne same, sound.urn]
      constructor
      · intro ⟨other, member, rest⟩
        exact ⟨other, .inl member, rest⟩
      · rintro ⟨other, member | rfl, named, live', same'⟩
        · exact ⟨other, member, named, live', same'⟩
        · exact absurd same'.symm same
  · rw [appended]
    exact sound.kind.put live fresh
  · rw [appended]
    exact sound.entryNamespace.put live fresh

theorem Sound.transition (sound : Sound registry) (found : registry.find entryId = some entry)
    (same : entry.lifecycle = .archived ↔ lifecycle = .archived) : Sound (registry.change entryId lifecycle) := by
  have kept : ∀ other ∈ registry.entries, other.id = entryId → (other.lifecycle = .archived ↔ lifecycle = .archived) := by
    intro other member here
    rw [eq_of_find sound.ids found member here]
    exact same
  have live : ∀ other ∈ registry.entries, (movedAt entryId lifecycle other).live = other.live := by
    intro other member
    by_cases here : other.id = entryId
    · have unmoved := kept other member here
      subst here
      rw [movedAt_self, moved_live]
      simp [RegistryEntry.live, unmoved]
    · rw [movedAt_other here]
  constructor
  · exact (ids_changed registry.entries).symm ▸ sound.ids
  · intro urn known
    rw [show (registry.change entryId lifecycle).byUrn = registry.byUrn from rfl, sound.urn]
    change _ ↔ ∃ other ∈ registry.entries.map (movedAt entryId lifecycle), _
    simp only [List.mem_map, exists_exists_and_eq_and, movedAt_id, movedAt_urn]
    apply exists_congr
    intro other
    apply and_congr_right
    intro member
    rw [live other member]
  · exact sound.kind.change (fun _ => by rw [movedAt_kind]) kept
  · exact sound.entryNamespace.change (fun _ => movedAt_entryNamespace) kept

theorem Sound.archive (sound : Sound registry) (found : registry.find entryId = some entry)
    (alone : ∀ other ∈ registry.entries, other.live = true → other.urn.text = entry.urn.text → other.id = entryId) :
    Sound ((registry.change entryId .archived).unindex entry) := by
  obtain ⟨-, named⟩ := find_some found
  have here : ∀ other ∈ registry.entries, other.id = entryId → other = entry :=
    fun other member same => eq_of_find sound.ids found member same
  have gone : ∀ other : RegistryEntry, (movedAt entryId .archived other).live = true ↔ other.live = true ∧ other.id ≠ entryId := by
    intro other
    by_cases same : other.id = entryId
    · subst same
      simp [movedAt_self, moved_live]
    · simp [movedAt_other same, same]
  constructor
  · exact (ids_changed registry.entries).symm ▸ sound.ids
  · intro urn known
    change Function.update registry.byUrn entry.urn.text none urn = _ ↔
      ∃ other ∈ registry.entries.map (movedAt entryId .archived), _
    simp only [List.mem_map, exists_exists_and_eq_and, movedAt_id, movedAt_urn, gone]
    by_cases same : urn = entry.urn.text
    · subst same
      rw [Function.update_self]
      constructor
      · exact nofun
      · intro ⟨other, member, _, ⟨live, elsewhere⟩, text⟩
        exact absurd (alone other member live text) elsewhere
    · rw [Function.update_of_ne same, sound.urn]
      constructor
      · intro ⟨other, member, known, live, text⟩
        refine ⟨other, member, known, ⟨live, ?_⟩, text⟩
        intro named'
        rw [here other member named'] at text
        exact same text.symm
      · intro ⟨other, member, known, ⟨live, _⟩, text⟩
        exact ⟨other, member, known, live, text⟩
  · change Lists (removeFrom registry.byKind entry.kind.name entry.id) _ (registry.entries.map (movedAt entryId .archived))
    rw [named]
    apply sound.kind.remove entry
    · exact fun _ => by rw [movedAt_kind]
    · exact fun other member same => by rw [here other member same]
  · change Lists (removeFrom registry.byNamespace entry.entryNamespace entry.id) _ (registry.entries.map (movedAt entryId .archived))
    rw [named]
    apply sound.entryNamespace.remove entry
    · exact fun _ => movedAt_entryNamespace
    · exact fun other member same => by rw [here other member same]

theorem Sound.taken_iff (sound : Sound registry) {urn : String} :
    (registry.byUrn urn).isSome = true ↔ ∃ entry ∈ registry.entries, entry.live = true ∧ entry.urn.text = urn := by
  rw [Option.isSome_iff_exists]
  constructor
  · intro ⟨entryId, held⟩
    obtain ⟨entry, member, -, live, same⟩ := (sound.urn _ _).mp held
    exact ⟨entry, member, live, same⟩
  · intro ⟨entry, member, live, same⟩
    exact ⟨entry.id, (sound.urn _ _).mpr ⟨entry, member, rfl, live, same⟩⟩

theorem Sound.registered (sound : Sound registry) (args : Registration) (generated : ScopedId) (now : String) :
    (Refused registry args ∧ registry.after (.register args generated now) = registry) ∨
    ∃ urn, ¬ Refused registry args ∧ registry.byUrn urn.text = none ∧
      registry.after (.register args generated now) = registry.indexEntry (entryFor args urn generated now) := by
  rcases after_register registry args generated now with
    ⟨unchanged, frozen | invalid | ⟨urn, made, taken⟩⟩ | ⟨urn, free, thawed, made, indexed⟩
  · exact .inl ⟨.inl frozen, unchanged⟩
  · exact .inl ⟨.inr (.inl invalid), unchanged⟩
  · exact .inl ⟨.inr (.inr ⟨urn, made, sound.taken_iff.mp taken⟩), unchanged⟩
  · right
    refine ⟨urn, ?_, free, indexed⟩
    rintro (frozen | ⟨error, invalid⟩ | ⟨urn', made', held⟩)
    · exact thawed frozen
    · rw [made] at invalid
      cases invalid
    · rw [made] at made'
      cases made'
      have taken := sound.taken_iff.mpr held
      rw [free] at taken
      cases taken

/-- A call that the indexes bear keeps them sound. -/
theorem Sound.after (sound : Sound registry) {call : Call} (fresh : Fresh registry call) (regular : Regular registry call) :
    Sound (registry.after call) := by
  cases call with
  | register args generated now =>
    obtain ⟨-, unchanged⟩ | ⟨urn, accepted, free, indexed⟩ := sound.registered args generated now
    · rw [unchanged]
      exact sound
    · rw [indexed]
      apply sound.register
      · have active : args.lifecycle ≠ .archived := fun archived => accepted (regular archived)
        exact decide_eq_true active
      · exact fresh
      · exact free
  | transition entryId lifecycle =>
    cases found : registry.find entryId with
    | none => exact (after_transition_none found).symm ▸ sound
    | some entry => exact (after_transition_some found).symm ▸ sound.transition found (regular entry found)
  | archive entryId =>
    cases found : registry.find entryId with
    | none => exact (after_archive_none found).symm ▸ sound
    | some entry =>
      rw [after_archive_some found]
      apply sound.archive found
      intro other member live same
      obtain ⟨member', named⟩ := find_some found
      cases alive : entry.live with
      | false => exact absurd ⟨other, member, live, same⟩ (regular entry found (not_live.mp alive))
      | true => rw [sound.consistent.unique other member entry member' live alive same, named]

/-- A call that the indexes do not bear shows in what callers get. -/
theorem Sound.regular (sound : Sound registry) {call : Call} (fresh : Fresh registry call)
    (consistent : Consistent (registry.after call)) : Regular registry call := by
  cases call with
  | register args generated now =>
    intro archived
    obtain ⟨refused, -⟩ | ⟨urn, -, free, indexed⟩ := sound.registered args generated now
    · exact refused
    · rw [indexed] at consistent
      have listed : generated.text ∈ (registry.indexEntry (entryFor args urn generated now)).byKind args.kind.name := mem_addTo
      have found : (registry.indexEntry (entryFor args urn generated now)).find generated.text =
          some (entryFor args urn generated now) := find_indexed fresh
      have live := consistent.live listed found
      have active : args.lifecycle ≠ .archived := of_decide_eq_true live
      exact absurd archived active
  | transition entryId lifecycle =>
    intro entry found
    rw [after_transition_some found] at consistent
    have ids : ((registry.change entryId lifecycle).entries.map RegistryEntry.id).Nodup :=
      (ids_changed registry.entries).symm ▸ sound.ids
    have changed : moved lifecycle entry ∈ (registry.change entryId lifecycle).entries := mem_changed found
    obtain ⟨member, rfl⟩ := find_some found
    constructor
    · intro archived
      by_contra active
      have got := (consistent.urn entry.urn.text _).mpr ⟨changed, decide_eq_true active, rfl⟩
      obtain ⟨known, held, shown⟩ := getByUrn_ok got
      obtain ⟨other, member', named, live, -⟩ := (sound.urn _ _).mp held
      have same : known = entry.id := (find_some shown).2.symm
      rw [List.inj_on_of_nodup_map sound.ids member' member (named.trans same)] at live
      rw [not_live.mpr archived] at live
      cases live
    · intro archived
      by_contra active
      have live : entry.live = true := decide_eq_true active
      have listed : entry.id ∈ registry.byKind entry.kind.name := by
        rw [sound.kind]
        exact List.mem_map.mpr ⟨entry, List.mem_filter.mpr ⟨member, by simp [live]⟩, rfl⟩
      have found : (registry.change entry.id lifecycle).find entry.id = some (moved lifecycle entry) := find_of_mem ids changed
      have alive := consistent.live listed found
      exact of_decide_eq_true alive archived
  | archive entryId =>
    intro entry found archived ⟨other, member, live, same⟩
    rw [after_archive_some found] at consistent
    obtain ⟨member', named⟩ := find_some found
    have elsewhere : other.id ≠ entryId := by
      intro here
      rw [eq_of_find sound.ids found member here, not_live.mpr archived] at live
      cases live
    have kept : other ∈ ((registry.change entryId .archived).unindex entry).entries :=
      List.mem_map.mpr ⟨other, member, movedAt_other elsewhere⟩
    have got := (consistent.urn entry.urn.text other).mpr ⟨kept, live, same⟩
    obtain ⟨known, held, -⟩ := getByUrn_ok got
    change Function.update registry.byUrn entry.urn.text none entry.urn.text = some known at held
    rw [Function.update_self] at held
    cases held

/-- The indexes agree with the entries in every state of a run if and only if
every call of the run is one that they bear. -/
theorem consistent_iff (run : List Call) (fresh : Meets Registry.after Fresh new run) :
    Always Registry.after Consistent new run ↔ Meets Registry.after Regular new run := by
  refine always_iff_meets ?_ ?_ ?_ sound_new fresh
  · exact fun _ => Sound.consistent
  · exact fun _ _ sound fresh regular => sound.after fresh regular
  · exact fun _ _ sound fresh consistent => sound.regular fresh consistent

section Sample

private def model : Registration where
  kind := .registry "MODEL"
  entryNamespace := "shop"
  name := "Order"
  registeredBy := "system"
  target := none
  metadata := .obj []
  tags := []
  version := 1
  lifecycle := .active

private def first : ScopedId := .repeated 1

private def second : ScopedId := .repeated 2

/-- A model is registered, deprecated, archived, and registered anew. -/
def renewed : List Call :=
  [.register model first "t0", .transition first.text .deprecated, .archive first.text, .register model second "t1"]

/-- A model is registered and goes to ARCHIVED by a transition. -/
def shelved : List Call := [.register model first "t0", .transition first.text .archived]

private theorem fresh_first (now : String) : Fresh new (.register model first now) := nofun

theorem consistent_renewed : Always Registry.after Consistent new renewed := by
  apply (consistent_iff renewed ?_).mpr
  · refine ⟨nofun, ?_, ?_, nofun, trivial⟩
    · intro entry found
      have active : ((new.after (.register model first "t0")).find first.text).map RegistryEntry.lifecycle = some .active := by
        decide +kernel
      rw [found] at active
      simp [Option.some.inj active]
    · intro entry found archived
      have deprecated : (((new.after (.register model first "t0")).after (.transition first.text .deprecated)).find
          first.text).map RegistryEntry.lifecycle = some .deprecated := by
        decide +kernel
      rw [found, Option.map_some, archived] at deprecated
      cases deprecated
  · refine ⟨fresh_first _, trivial, trivial, ?_, trivial⟩
    have ids : second.text ∉ (((new.after (.register model first "t0")).after (.transition first.text .deprecated)).after
        (.archive first.text)).entries.map RegistryEntry.id := by
      decide +kernel
    intro entry member same
    exact ids (List.mem_map.mpr ⟨entry, member, same⟩)

/-- The transition leaves the entry in the lists of its kind and namespace. -/
theorem transition_keeps_listed : Meets Registry.after Fresh new shelved ∧ ¬ Always Registry.after Consistent new shelved := by
  constructor
  · exact ⟨fresh_first _, trivial, trivial⟩
  · intro ⟨_, _, consistent⟩
    have listed : first.text ∈ ((new.after (.register model first "t0")).after (.transition first.text .archived)).byKind
        model.kind.name := by
      decide +kernel
    have archived : (((new.after (.register model first "t0")).after (.transition first.text .archived)).find first.text).map
        RegistryEntry.lifecycle = some .archived := by
      decide +kernel
    obtain ⟨entry, found, gone⟩ := Option.map_eq_some_iff.mp archived
    have live := consistent.live listed found
    rw [not_live.mpr gone] at live
    cases live

end Sample
end PyScoped.Legacy.Registry
