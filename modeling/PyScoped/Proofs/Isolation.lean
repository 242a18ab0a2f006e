import PyScoped.Proofs.Histories

/-! Write isolation. A program of supported operations that runs in one scope
neither changes nor removes the rows of other scopes, and adds no events to
their histories. -/

namespace PyScoped
open Foundation Discipline

variable {app : App} {label objectPk : String}

/-- Two identities name one scope, as the scope field reads them. -/
def Registration.Denotes {model : Model} (config : Registration model) (text scope : String) : Prop :=
  ∃ own wanted, config.scopeField.expected (.str text) = .ok own ∧ config.scopeField.expected (.str scope) = .ok wanted ∧
    own.same wanted = true

/-- The scope column of a row denotes the scope. -/
def InScope {model : Model} (config : Registration model) (scope : String) (column : Columns) : Prop :=
  ∃ text, identity (column config.scopeField.attname) = .ok text ∧ config.Denotes text scope

theorem InScope.congr {model : Model} {config : Registration model} {scope : String} {first second : Columns}
    (here : InScope config scope first)
    (same : first config.scopeField.attname = second config.scopeField.attname) : InScope config scope second := by
  obtain ⟨text, identified, denotes⟩ := here
  exact ⟨text, same ▸ identified, denotes⟩

theorem checkScope_inScope {config : Registration (app.model label)} {column : Columns} {ctx : ScopeContext} {text : String}
    (enforced : config.enforce = true) (checked : checkScope config (.value (column config.scopeField.attname)) ctx = .ok text) :
    identity (column config.scopeField.attname) = .ok text ∧ config.Denotes text ctx.scope := by
  simp only [checkScope, Attr.identity] at checked
  cases identified : identity (column config.scopeField.attname) with
  | error error => rw [identified] at checked; cases checked
  | ok actual =>
    cases owned : config.scopeField.expected (.str actual) with
    | error error => simp [identified, owned, enforced, bind, Except.bind] at checked
    | ok own =>
      cases expected : config.scopeField.expected (.str ctx.scope) with
      | error error => simp [identified, owned, expected, enforced, bind, Except.bind] at checked
      | ok wanted =>
        simp only [identified, owned, expected, enforced, bind, Except.bind, if_true] at checked
        split at checked
        next same =>
          cases checked
          exact ⟨rfl, own, wanted, owned, expected, same⟩
        · cases checked

/-- A row of another scope is still there, unchanged, and any other row is one of
the scope: none has changed to another. -/
def Settled (app : App) (scope : String) (before after : Log (Val app)) (label pk : String) : Prop :=
  ∀ config, app.registration label = some config →
    (∀ row, before.lookup (.row label pk) = some row → ¬ InScope config scope (row : Row (app.model label) pk).column →
      after.lookup (.row label pk) = some row) ∧
    ∀ row, after.lookup (.row label pk) = some row →
      InScope config scope (row : Row (app.model label) pk).column ∨ before.lookup (.row label pk) = some row

/-- A resource keeps its scope, and gains events only if it is one of the scope. -/
structure Unrecorded (app : App) (scope : String) (before after : Log (Val app)) (label objectPk : String) : Prop where
  resources : ∀ config, app.registration label = some config → ∀ resource : Resource,
    before.lookup (.resource label objectPk) = some resource →
    ∃ head : Resource, after.lookup (.resource label objectPk) = some head ∧ head.scope = resource.scope ∧
      (head = resource ∨ config.Denotes resource.scope scope)
  events : ∀ config, app.registration label = some config → ∀ revision,
    after.lookup (.event label objectPk revision) = before.lookup (.event label objectPk revision) ∨
      ∃ head : Resource, after.lookup (.resource label objectPk) = some head ∧ config.Denotes head.scope scope

/-- The entered context is one of the scope. -/
def Entering (scope : String) (context : Option Active) : Prop := ∃ ctx : Active, context = some ctx ∧ ctx.scope = scope

/-- What a scope leaves alone in a store. -/
structure Isolated (app : App) (scope : String) (before after : Log (Val app)) : Prop where
  rows : ∀ label pk, Settled app scope before after label pk
  histories : ∀ label objectPk, Unrecorded app scope before after label objectPk

section
variable {scope : String} {before : Log (Val app)} {flight other : List (Entry app)} {session : Session (Val app)} {pk : String}

/-- A row of another scope can be in flight, but only as one that was read with
its scope, and nobody has announced its deletion. -/
def Understood (scope : String) (before : Log (Val app)) (entry : Entry app) : Prop :=
  ∀ config, app.registration entry.label = some config → ∀ row : Row (app.model entry.label) entry.pk,
    before.lookup (.row entry.label entry.pk) = some row → ¬ InScope config scope row.column →
    entry.phase ≠ .condemned ∧ ∃ old, entry.before = some old ∧
      old.column config.scopeField.attname = row.column config.scopeField.attname

/-- A row of another scope keeps its scope, whatever is in flight. -/
def Anchored (app : App) (scope : String) (before after : Log (Val app)) (label pk : String) : Prop :=
  ∀ config, app.registration label = some config → ∀ row : Row (app.model label) pk,
    before.lookup (.row label pk) = some row → ¬ InScope config scope row.column →
    ∃ own : Row (app.model label) pk, after.lookup (.row label pk) = some own ∧
      own.column config.scopeField.attname = row.column config.scopeField.attname

/-- The assertion that operations of one scope keep, from the store they started on. -/
structure Isolating (app : App) (scope : String) (before : Log (Val app)) (flight : List (Entry app))
    (session : Session (Val app)) : Prop where
  settled : ∀ label pk, Key.row label pk ∉ flying flight → Settled app scope before session.view label pk
  anchored : ∀ label pk, Anchored app scope before session.view label pk
  entries : ∀ entry ∈ flight, Understood scope before entry
  histories : ∀ label objectPk, Unrecorded app scope before session.view label objectPk

theorem Isolating.reflight (here : Isolating app scope before flight session)
    (others : ∀ key ∉ flying other, key ≠ .row label pk → key ∉ flying flight)
    (settled : Key.row label pk ∉ flying other → Settled app scope before session.view label pk)
    (entries : ∀ entry ∈ other, Understood scope before entry) : Isolating app scope before other session := by
  refine ⟨fun label' pk' grounded => ?_, here.anchored, entries, here.histories⟩
  by_cases same : Key.row label' pk' = .row label pk
  · obtain ⟨rfl, rfl⟩ := Key.row.inj same
    exact settled grounded
  · exact here.settled label' pk' (others _ grounded same)

/-- One row is written, and the rows in flight change at its key. -/
theorem Isolating.writeRow {value : Option (Row (app.model label) pk)} (here : Isolating app scope before flight session)
    (others : ∀ key ∉ flying other, key ≠ .row label pk → key ∉ flying flight)
    (settled : Key.row label pk ∉ flying other → Settled app scope before (session.write (.row label pk) value).view label pk)
    (anchored : Anchored app scope before (session.write (.row label pk) value).view label pk)
    (entries : ∀ entry ∈ other, Understood scope before entry) :
    Isolating app scope before other (session.write (.row label pk) value) := by
  have elsewhere {key : Key} (ne : key ≠ .row label pk) :
      (session.write (.row label pk) value).view.lookup key = session.view.lookup key := Log.lookup_cons_ne _ _ ne
  refine ⟨fun label' pk' grounded => ?_, fun label' pk' => ?_, entries, fun label' objectPk => ?_⟩
  · by_cases same : Key.row label' pk' = .row label pk
    · obtain ⟨rfl, rfl⟩ := Key.row.inj same
      exact settled grounded
    · have kept := here.settled label' pk' (others _ grounded same)
      intro config registered
      rw [elsewhere same]
      exact kept config registered
  · by_cases same : Key.row label' pk' = .row label pk
    · obtain ⟨rfl, rfl⟩ := Key.row.inj same
      exact anchored
    · intro config registered row
      rw [elsewhere same]
      exact here.anchored label' pk' config registered row
  · have kept := here.histories label' objectPk
    refine ⟨fun config registered resource => ?_, fun config registered revision => ?_⟩
    · rw [elsewhere (by simp)]
      exact kept.resources config registered resource
    · rw [elsewhere (by simp), elsewhere (by simp)]
      exact kept.events config registered revision

theorem Understood.clear {entry : Entry app} {config : Registration (app.model entry.label)}
    {row old : Row (app.model entry.label) entry.pk} (understood : Understood scope before entry)
    (registered : app.registration entry.label = some config) (found : before.lookup (.row entry.label entry.pk) = some row)
    (read : entry.before = some old) (inScope : InScope config scope old.column) : InScope config scope row.column := by
  by_contra outside
  obtain ⟨_, old', same, column⟩ := understood config registered row found outside
  obtain rfl := Option.some.inj (read.symm.trans same)
  exact outside (inScope.congr column)

variable {row : Row (app.model label) pk}

theorem Isolating.readPresent (here : Isolating app scope before flight session)
    (present : session.view.lookup (.row label pk) = some row) :
    Isolating app scope before (⟨label, pk, some row, .read⟩ :: flight) session := by
  refine here.reflight (fun key grounded _ flies => grounded (List.mem_cons_of_mem _ flies))
    (fun grounded => absurd List.mem_cons_self grounded) (List.forall_mem_cons.mpr ⟨?_, here.entries⟩)
  intro config registered row0 found outside
  obtain ⟨own, seen, column⟩ := here.anchored label pk config registered row0 found outside
  obtain rfl := Option.some.inj (present.symm.trans seen)
  exact ⟨Phase.noConfusion, row, rfl, column⟩

theorem Isolating.readAbsent (here : Isolating app scope before flight session)
    (absent : session.view.lookup (.row label pk) = none) :
    Isolating app scope before (⟨label, pk, none, .read⟩ :: flight) session := by
  refine here.reflight (fun key grounded _ flies => grounded (List.mem_cons_of_mem _ flies))
    (fun grounded => absurd List.mem_cons_self grounded) (List.forall_mem_cons.mpr ⟨?_, here.entries⟩)
  intro config registered row0 found outside
  obtain ⟨own, seen, _⟩ := here.anchored label pk config registered row0 found outside
  cases absent.symm.trans seen

section
variable {front : List (Entry app)} {old : Option (Row (app.model label) pk)} {phase next : Phase}
  {config : Registration (app.model label)}

theorem Isolating.rephase (here : Isolating app scope before (front ++ ⟨label, pk, old, phase⟩ :: flight) session)
    (uncondemned : next ≠ .condemned) : ∀ entry ∈ front ++ ⟨label, pk, old, next⟩ :: flight, Understood scope before entry := by
  intro entry member
  rcases List.mem_append.mp member with inside | below
  · exact here.entries entry (List.mem_append_left _ inside)
  rcases List.mem_cons.mp below with rfl | below
  · intro config registered row found outside
    exact ⟨uncondemned, (here.entries _ (List.mem_append_right _ List.mem_cons_self) config registered row found outside).2⟩
  · exact here.entries entry (List.mem_append_right _ (List.mem_cons_of_mem _ below))

theorem Isolating.landed (here : Isolating app scope before (front ++ ⟨label, pk, old, phase⟩ :: flight) session) :
    (∀ entry ∈ front ++ flight, Understood scope before entry) ∧
      ∀ key ∉ flying (front ++ flight), key ≠ .row label pk → key ∉ flying (front ++ ⟨label, pk, old, phase⟩ :: flight) := by
  refine ⟨fun entry member => here.entries entry ?_, fun key grounded ne flies => ?_⟩
  · rcases List.mem_append.mp member with inside | below
    · exact List.mem_append_left _ inside
    · exact List.mem_append_right _ (List.mem_cons_of_mem _ below)
  · obtain ⟨entry, member, rfl⟩ := List.mem_map.mp flies
    rcases List.mem_append.mp member with inside | below
    · exact grounded (List.mem_map_of_mem (List.mem_append_left _ inside))
    rcases List.mem_cons.mp below with rfl | below
    · exact ne rfl
    · exact grounded (List.mem_map_of_mem (List.mem_append_right _ below))

theorem Isolating.update {own new : Row (app.model label) pk}
    (here : Isolating app scope before (front ++ ⟨label, pk, old, .read⟩ :: flight) session)
    (registered : app.registration label = some config) (present : session.view.lookup (.row label pk) = some own)
    (guarded : (∀ row ∈ old, InScope config scope row.column) ∨
      new.column config.scopeField.attname = own.column config.scopeField.attname) :
    Isolating app scope before (front ++ ⟨label, pk, old, .written⟩ :: flight) (session.write (.row label pk) (some new)) := by
  have aloft : Key.row label pk ∈ flying (front ++ ⟨label, pk, old, .written⟩ :: flight) := by simp [Entry.key]
  refine here.writeRow (fun key grounded _ => by simpa [Entry.key] using grounded) (fun grounded => absurd aloft grounded) ?_
    (here.rephase Phase.noConfusion)
  intro config' registered' row found outside
  obtain rfl := Option.some.inj (registered.symm.trans registered')
  refine ⟨new, Log.lookup_cons_self _ _ _, ?_⟩
  rcases guarded with checked | unmoved
  · obtain ⟨_, read, same, column⟩ := here.entries _ (List.mem_append_right _ List.mem_cons_self) config registered row found outside
    exact absurd ((checked read same).congr column) outside
  · obtain ⟨own', seen, column⟩ := here.anchored label pk config registered row found outside
    obtain rfl := Option.some.inj (present.symm.trans seen)
    exact unmoved.trans column

theorem Isolating.insert {new : Row (app.model label) pk}
    (here : Isolating app scope before (⟨label, pk, old, .read⟩ :: flight) session)
    (absent : session.view.lookup (.row label pk) = none) :
    Isolating app scope before (⟨label, pk, old, .written⟩ :: flight) (session.write (.row label pk) (some new)) := by
  have alone : Isolating app scope before ([] ++ ⟨label, pk, old, .read⟩ :: flight) session := here
  refine here.writeRow (fun key grounded _ => grounded) (fun grounded => absurd List.mem_cons_self grounded) ?_
    (alone.rephase Phase.noConfusion)
  intro config registered row found outside
  obtain ⟨own, seen, _⟩ := here.anchored label pk config registered row found outside
  cases absent.symm.trans seen

theorem Isolating.drop (here : Isolating app scope before (front ++ ⟨label, pk, old, phase⟩ :: flight) session)
    (absent : session.view.lookup (.row label pk) = none) : Isolating app scope before (front ++ flight) session := by
  refine here.reflight here.landed.2 (fun _ config registered => ⟨fun row found outside => ?_, fun row found => ?_⟩) here.landed.1
  · obtain ⟨own, seen, _⟩ := here.anchored label pk config registered row found outside
    cases absent.symm.trans seen
  · cases absent.symm.trans found

theorem Isolating.erase (here : Isolating app scope before (front ++ ⟨label, pk, old, phase⟩ :: flight) session)
    (condemned : phase = (if old.isSome then .condemned else .read)) :
    Isolating app scope before (front ++ flight) (session.write (.row label pk) none) := by
  have inside (config : Registration (app.model label)) (registered : app.registration label = some config)
      (row : Row (app.model label) pk) (found : before.lookup (.row label pk) = some row) : InScope config scope row.column := by
    by_contra outside
    obtain ⟨reprieved, read, same, _⟩ :=
      here.entries _ (List.mem_append_right _ List.mem_cons_self) config registered row found outside
    refine reprieved ?_
    change phase = .condemned
    rw [condemned, show old = some read from same]
    rfl
  have gone : (session.write (.row label pk) (none : Option (Row (app.model label) pk))).view.lookup (.row label pk) = none :=
    Log.lookup_cons_self _ _ _
  refine here.writeRow here.landed.2 (fun _ config registered => ⟨fun row found outside => ?_, fun row found => ?_⟩)
    (fun config registered row found outside => ?_) here.landed.1
  · exact absurd (inside config registered row found) outside
  · cases gone.symm.trans found
  · exact absurd (inside config registered row found) outside

theorem Isolating.land (here : Isolating app scope before (front ++ ⟨label, pk, old, phase⟩ :: flight) session)
    (registered : app.registration label = some config) (present : session.view.lookup (.row label pk) = some row)
    (inScope : InScope config scope row.column) : Isolating app scope before (front ++ flight) session := by
  refine here.reflight here.landed.2 (fun _ config' registered' => ⟨fun row0 found outside => ?_, fun row' found => ?_⟩) here.landed.1
  · obtain rfl := Option.some.inj (registered.symm.trans registered')
    obtain ⟨own, seen, column⟩ := here.anchored label pk config registered row0 found outside
    obtain rfl := Option.some.inj (present.symm.trans seen)
    exact absurd (inScope.congr column) outside
  · obtain rfl := Option.some.inj (registered.symm.trans registered')
    obtain rfl := Option.some.inj (present.symm.trans found)
    exact .inl inScope

theorem Isolating.condemn (here : Isolating app scope before (⟨label, pk, some row, .read⟩ :: flight) session)
    (registered : app.registration label = some config) (inScope : InScope config scope row.column) :
    Isolating app scope before (⟨label, pk, some row, .condemned⟩ :: flight) session := by
  refine here.reflight (fun key grounded _ => grounded) (fun grounded => absurd List.mem_cons_self grounded)
    (List.forall_mem_cons.mpr ⟨?_, (List.forall_mem_cons.mp here.entries).2⟩)
  intro config' registered' row0 found outside
  obtain rfl := Option.some.inj (registered.symm.trans registered')
  exact absurd ((List.forall_mem_cons.mp here.entries).1.clear registered found rfl inScope) outside

end

theorem Isolating.history (label objectPk : String) {next : Session (Val app)} (here : Isolating app scope before flight session)
    (rows : ∀ label pk, next.view.lookup (.row label pk) = session.view.lookup (.row label pk))
    (others : ∀ label' objectPk', ¬ (label' = label ∧ objectPk' = objectPk) →
      next.view.lookup (.resource label' objectPk') = session.view.lookup (.resource label' objectPk') ∧
        ∀ revision, next.view.lookup (.event label' objectPk' revision) = session.view.lookup (.event label' objectPk' revision))
    (there : Unrecorded app scope before next.view label objectPk) : Isolating app scope before flight next := by
  refine ⟨fun label pk grounded config registered => ?_, fun label pk config registered row => ?_, here.entries,
    fun label' objectPk' => ?_⟩
  · rw [rows]
    exact here.settled label pk grounded config registered
  · rw [rows]
    exact here.anchored label pk config registered row
  · by_cases same : label' = label ∧ objectPk' = objectPk
    · obtain ⟨rfl, rfl⟩ := same
      exact there
    · obtain ⟨head, events⟩ := others label' objectPk' same
      have kept := here.histories label' objectPk'
      refine ⟨fun config registered resource => ?_, fun config registered revision => ?_⟩
      · rw [head]
        exact kept.resources config registered resource
      · rw [head, events]
        exact kept.events config registered revision

theorem Isolating.fresh {scope' : String} (here : Isolating app scope before flight session)
    (absent : session.view.lookup (.resource label objectPk) = none) :
    Isolating app scope before flight
      (session.write (.resource label objectPk) (some (Resource.fresh label objectPk scope'))) := by
  have kept := here.histories label objectPk
  refine here.history label objectPk (fun _ _ => Log.lookup_cons_ne _ _ (by simp))
    (fun label' objectPk' ne => ⟨Log.lookup_cons_ne _ _ (by simpa using ne), fun _ => Log.lookup_cons_ne _ _ (by simp)⟩) ?_
  refine ⟨fun config registered resource found => ?_, fun config registered revision => ?_⟩
  · obtain ⟨head, seen, _⟩ := kept.resources config registered resource found
    cases absent.symm.trans seen
  · rcases kept.events config registered revision with same | ⟨head, seen, _⟩
    · exact .inl ((Log.lookup_cons_ne _ _ event_ne_resource).trans same)
    · cases absent.symm.trans seen

theorem Isolating.append {config : Registration (app.model label)} {resource : Resource} {event : AuditEvent}
    (here : Isolating app scope before flight session) (registered : app.registration label = some config)
    (head : session.view.lookup (.resource label objectPk) = some resource) (denotes : config.Denotes resource.scope scope) :
    Isolating app scope before flight ((session.write (.event label objectPk event.revision) (some event)).write
      (.resource label objectPk) (some (resource.advanced event))) := by
  have kept := here.histories label objectPk
  refine here.history label objectPk
    (fun _ _ => (Log.lookup_cons_ne _ _ (by simp)).trans (Log.lookup_cons_ne _ _ (by simp)))
    (fun label' objectPk' ne => ⟨(Log.lookup_cons_ne _ _ (by simpa using ne)).trans (Log.lookup_cons_ne _ _ (by simp)),
      fun _ => (Log.lookup_cons_ne _ _ (by simp)).trans (Log.lookup_cons_ne _ _ ?_)⟩) ?_
  · simp only [ne_eq, Key.event.injEq, not_and]
    exact fun same same' => absurd ⟨same, same'⟩ ne
  refine ⟨fun config' registered' resource0 found => ?_, fun config' registered' revision => .inr ?_⟩
  all_goals obtain rfl := Option.some.inj (registered.symm.trans registered')
  · obtain ⟨head', seen, same, _⟩ := kept.resources config registered resource0 found
    obtain rfl := Option.some.inj (head.symm.trans seen)
    exact ⟨_, Log.lookup_cons_self _ _ _, same, .inr (same ▸ denotes)⟩
  · exact ⟨_, Log.lookup_cons_self _ _ _, denotes⟩

theorem isolating_inner : (alone app).Inner (Isolating app scope before flight) where
  moved _ _ _ moves here := by rw [alone_seeing moves]; exact here
  resaved _ _ _ _ here := ⟨here.settled, here.anchored, here.entries, here.histories⟩
  locked _ _ here := ⟨here.settled, here.anchored, here.entries, here.histories⟩

theorem isolating_append {server : Server (Val app) Err} {config : Registration (app.model label)} {row : Loaded app label}
    {action : String} {old new : Json} {ctx : Active} {held : List Key} (enforced : config.enforce = true)
    (registered : app.registration label = some config) (entering : Entering scope (some ctx)) (opened : session.saved ≠ [])
    (here : Isolating app scope before flight session)
    (checked : ∃ scope, checkScope config (row.get config.scopeField.attname) ctx.toScopeContext = .ok scope) :
    (alone app).Holds server (Returns fun _ => Isolating app scope before flight)
      (appendEvent config row action old new ctx.toScopeContext held) session := by
  obtain ⟨text, checked⟩ := checked
  obtain ⟨_, same, rfl⟩ := entering
  obtain rfl := Option.some.inj same
  obtain ⟨identified, denotes⟩ := checkScope_inScope enforced checked
  refine appendEvent_holds isolating_inner isolating_inner (fun _ => rfl) opened (.inl rfl) here
    (fun _ _ _ here absent _ => here.fresh absent) fun _ resource _ _ here head _ located _ _ => ?_
  exact here.append registered head (located.trans (identity_ok identified).1.symm ▸ denotes)

end

/-- Isolation has an upkeep wherever all registered models are in enforce mode. -/
def isolationUpkeep (app : App) (server : Server (Val app) Err) (scope : String) (before : Log (Val app))
    (enforced : ∀ label config, app.registration label = some config → config.enforce = true) :
    Upkeep app server (alone app) (Entering scope) where
  own _ _ := rfl
  holds := Isolating app scope before
  related label row session := session.view.lookup (.row label row.1) = some row.2
  invariant flight :=
    { moved := fun _ _ _ moves here => by rw [alone_seeing moves]; exact here
      enter := fun _ here => ⟨here.settled, here.anchored, here.entries, here.histories⟩
      leave := fun _ session _ _ here => by
        obtain ⟨settled, anchored, entries, histories⟩ := here
        rw [← Session.view_leave session] at settled anchored histories
        exact ⟨settled, anchored, entries, histories⟩
      kept := fun _ _ _ _ _ _ => trivial }
  locked _ _ _ here := ⟨here.settled, here.anchored, here.entries, here.histories⟩
  readPresent _ here present _ := here.readPresent present
  readRelied _ here _ member := here.readPresent (Log.mem_entries.mp (List.mem_of_mem_filter member))
  readAbsent _ here absent := here.readAbsent (absent (.inl rfl))
  update := by
    intro front flight session label pk config old change own new held seen _ registered _ _ here _ _ present _ guarded
    refine here.update registered present (guarded.imp_left fun checked row read => ?_)
    obtain ⟨ctx, ⟨_, same, rfl⟩, text, accepted⟩ := checked row read
    obtain rfl := Option.some.inj same
    exact ⟨text, checkScope_inScope (enforced _ _ registered) accepted⟩
  unmatched := by
    intro front flight session label pk row _ _ here _
    have aloft : Key.row label pk ∈ flying (front ++ ⟨label, pk, some row, .written⟩ :: flight) := by simp [Entry.key]
    exact here.reflight (fun key grounded _ => by simpa [Entry.key] using grounded) (fun grounded => absurd aloft grounded)
      (here.rephase Phase.noConfusion)
  insert _ _ _ here _ absent := here.insert absent
  drop _ _ _ here absent := here.drop (absent (.inl rfl))
  erase _ _ _ _ condemned here _ _ _ := here.erase condemned
  eraseForeign := by
    intro flight session label pk foreign here
    have unregistered (config : Registration (app.model label)) : app.registration label ≠ some config := by
      rw [foreign]
      exact nofun
    exact here.writeRow (fun key grounded _ => grounded) (fun _ config registered => absurd registered (unregistered config))
      (fun config registered => absurd registered (unregistered config)) here.entries
  relations := by
    intro flight session label config row old phase ctx _ _ _ _ here present
    have reads : (alone app).Holds server (Always fun other => Isolating app scope before flight other ∧
        other.view.lookup (.row label row.1) = some row.2) (checkRelations config row.get ctx.toScopeContext : Db app Unit) session :=
      Holds.reads (checkRelations_reads _ _ _) (fun _ _ _ moves here => by rw [alone_seeing moves]; exact here)
        (fun _ key here => ⟨isolating_inner.locked _ key here.1, here.2⟩) ⟨here, present⟩
    exact reads.returned
  record := by
    intro front flight session label config row old action held ctx _ _ opened registered entering _ _ here checked present _ _ _
    obtain ⟨_, same, named⟩ := entering
    obtain rfl := Option.some.inj same
    obtain ⟨text, accepted⟩ := checked
    have inScope : InScope config scope row.2.column := by
      rw [← named]
      exact ⟨text, checkScope_inScope (enforced _ _ registered) accepted⟩
    exact isolating_append (enforced _ _ registered) registered ⟨_, rfl, named⟩ opened (here.land registered present inScope)
      ⟨text, accepted⟩
  condemn := by
    intro flight session label config row held ctx _ opened registered entering _ here checked _
    obtain ⟨_, same, named⟩ := entering
    obtain rfl := Option.some.inj same
    obtain ⟨text, accepted⟩ := checked
    have inScope : InScope config scope row.2.column := by
      rw [← named]
      exact ⟨text, checkScope_inScope (enforced _ _ registered) accepted⟩
    exact isolating_append (enforced _ _ registered) registered ⟨_, rfl, named⟩ opened (here.condemn registered inScope)
      ⟨text, accepted⟩
  baseline opened registered entering _ here _ checked _ _ :=
    isolating_append (enforced _ _ registered) registered entering opened here checked

/-- Whether it returns or raises, an operation that runs in one scope leaves the
rows and the histories of the others alone. -/
theorem operations_isolated {α : Type} {server : Server (Val app) Err} {scope : String} {program : Db app α}
    {committed : Log (Val app)} {result : Except Err α} {final : Session (Val app)}
    (enforced : ∀ label config, app.registration label = some config → config.enforce = true)
    (supported : Supported app (Entering scope) [] program)
    (runs : server.Runs (fun _ _ => True) program (Session.idle committed) result final) :
    Isolated app scope committed final.committed ∧ final = Session.idle final.committed := by
  have start : Isolating app scope committed [] (Session.idle committed) := by
    refine ⟨fun label pk _ config _ => ⟨fun row found _ => found, fun row found => .inr found⟩,
      fun label pk config _ row found _ => ⟨row, found, rfl⟩, by simp, fun label objectPk => ⟨?_, ?_⟩⟩
    · exact fun config _ resource found => ⟨resource, found, rfl, .inl rfl⟩
    · exact fun config _ revision => .inl rfl
  have grounded : flying ([] : List (Entry app)) ⊆ [] := List.nil_subset _
  have holds : (alone app).Holds server (Always (Isolating app scope committed [])) program (Session.idle committed) :=
    supported.holds (isolationUpkeep app server scope committed enforced) grounded start
  have runs' : server.Runs (alone app).allowed program (Session.idle committed) result final := runs
  obtain ⟨⟨framed, here⟩, whole, _⟩ := runs'.post (Session.Whole.idle _) trivial holds
  have idle := whole.eq_idle framed.saved
  have isolating : Isolating app scope committed [] final := here
  rw [idle] at isolating
  exact ⟨⟨fun label pk => isolating.settled label pk List.not_mem_nil, isolating.histories⟩, idle⟩

/-- A folder of scope `t` that is there before a client of scope `s` saves one of its own. -/
private def foreignFolder : Row (Sample.filing.model "app.folder") "9" where
  column name := .str (if name = "scope" then "t" else "9")
  keyed := rfl
  stored field member := by
    have listed : field ∈ (Sample.model ("app.folder" == "app.document")).fields := member
    cases kind : ("app.folder" == "app.document") <;> rw [kind] at listed <;>
      simp only [Sample.model, Sample.textField, List.append_nil, List.cons_append, List.nil_append, List.mem_cons,
        List.not_mem_nil, or_false, if_true, if_false, Bool.false_eq_true] at listed <;>
      rcases listed with rfl | rfl | rfl | rfl <;> rfl

theorem operations_isolated_saving : ∃ final : Session (Val Sample.filing),
    (final.committed.lookup (.event "app.folder" "7" 1)).isSome ∧
      Isolated Sample.filing "s" [⟨.row "app.folder" "9", some foreignFolder⟩] final.committed := by
  let program := Sample.saving (Sample.scope "s" (by decide)) Handlers.none "app.folder" (Sample.object "7" [("scope", "s")])
  have played : (Sample.server.play (List.replicate 18 Sample.through) program
      (Session.idle [⟨.row "app.folder" "9", some foreignFolder⟩])).any (fun last =>
        (last.2.committed.lookup (.event "app.folder" "7" 1)).isSome) = true := by decide +kernel
  obtain ⟨⟨result, final⟩, found, stored⟩ := (Option.any_eq_true _ _).mp played
  have within : (Sample.scope "s" (by decide)).Within (Entering "s") [] := ⟨⟨_, rfl, rfl⟩, rfl, by simp [Sample.scope]⟩
  have enforced (label : String) (config : Registration (Sample.filing.model label))
      (registered : Sample.filing.registration label = some config) : config.enforce = true := by
    cases registered
    rfl
  exact ⟨final, stored, (operations_isolated enforced (Sample.saving_supported within "app.folder" _)
    (Server.play_runs Sample.server found)).1⟩

end PyScoped
