import PyScoped.Proofs.Histories

/-! What events record. A store keeps its writes in their order, so what a row held
when an event was recorded is what the writes before the event left. -/

namespace PyScoped
open Foundation Discipline

variable {app : App} {label : String}

/-- Every event is stored under its revision, and what it stated comes after is the
snapshot of the row at that moment. Heads are those of rows, and name them. -/
structure Truthful (log : Log (Val app)) : Prop where
  events : ∀ (newer older : Log (Val app)) (label pk : String) (revision : Nat) (event : AuditEvent),
    log = newer ++ ⟨.event label pk revision, some event⟩ :: older → event.revision = revision ∧
      (event.after ≠ .null → ∃ (config : Registration (app.model label)) (row : Row (app.model label) pk),
        app.registration label = some config ∧ older.lookup (.row label pk) = some row ∧
          snapshot config row.column = .ok event.after)
  heads : ∀ (newer older : Log (Val app)) (label pk : String) (resource : Resource),
    log = newer ++ ⟨.resource label pk, some resource⟩ :: older →
      resource.objectPk = pk ∧ Nonempty (Row (app.model label) pk)

namespace Truthful

variable {log : Log (Val app)} {pk : String}

theorem nil : Truthful ([] : Log (Val app)) :=
  ⟨fun newer older label pk revision event split => absurd split (by simp),
    fun newer older label pk resource split => absurd split (by simp)⟩

theorem row (truthful : Truthful log) (row : Option (Row (app.model label) pk)) :
    Truthful (⟨.row label pk, row⟩ :: log) := by
  constructor
  · intro newer older label' pk' revision event split
    cases newer with
    | nil => cases congrArg Sigma.fst (List.cons.inj split).1
    | cons first newer => exact truthful.events newer older label' pk' revision event (List.cons.inj split).2
  · intro newer older label' pk' resource split
    cases newer with
    | nil => cases congrArg Sigma.fst (List.cons.inj split).1
    | cons first newer => exact truthful.heads newer older label' pk' resource (List.cons.inj split).2

theorem resource {resource : Resource} (truthful : Truthful log) (named : resource.objectPk = pk)
    (row : Row (app.model label) pk) : Truthful (⟨.resource label pk, some resource⟩ :: log) := by
  constructor
  · intro newer older label' pk' revision event split
    cases newer with
    | nil => cases congrArg Sigma.fst (List.cons.inj split).1
    | cons first newer => exact truthful.events newer older label' pk' revision event (List.cons.inj split).2
  · intro newer older label' pk' resource' split
    cases newer with
    | nil =>
      cases (List.cons.inj split).1
      exact ⟨named, ⟨row⟩⟩
    | cons first newer => exact truthful.heads newer older label' pk' resource' (List.cons.inj split).2

theorem event {event : AuditEvent} (truthful : Truthful log)
    (recorded : event.after ≠ .null → ∃ (config : Registration (app.model label)) (row : Row (app.model label) pk),
      app.registration label = some config ∧ log.lookup (.row label pk) = some row ∧
        snapshot config row.column = .ok event.after) :
    Truthful (⟨.event label pk event.revision, some event⟩ :: log) := by
  constructor
  · intro newer older label' pk' revision event' split
    cases newer with
    | nil =>
      obtain ⟨first, rfl⟩ := List.cons.inj split
      cases first
      exact ⟨rfl, recorded⟩
    | cons first newer => exact truthful.events newer older label' pk' revision event' (List.cons.inj split).2
  · intro newer older label' pk' resource split
    cases newer with
    | nil => cases congrArg Sigma.fst (List.cons.inj split).1
    | cons first newer => exact truthful.heads newer older label' pk' resource (List.cons.inj split).2

theorem head {resource : Resource} (truthful : Truthful log) (found : log.lookup (.resource label pk) = some resource) :
    resource.objectPk = pk ∧ Nonempty (Row (app.model label) pk) := by
  obtain ⟨newer, older, _, split⟩ := Log.lookup_split found
  exact truthful.heads newer older label pk resource split

end Truthful

/-- No statement writes a row that an enclosing operation has in flight. -/
def Undisturbing : Request (Val app) Err → Prop
  | .insert key _ held | .update key _ held _ | .delete key held _ => key ∉ held
  | _ => True

/-- A lone client whose handlers leave the rows in flight to their operations. -/
def undisturbed (app : App) : Discipline (Val app) Err :=
  ⟨false, historyGuard, fun _ => True, fun _ request => Undisturbing request⟩

theorem undisturbed_seeing {session : Session (Val app)} {committed : Log (Val app)}
    (moves : (undisturbed app).Moves session committed) : session.seeing committed = session := by
  rw [moves.alone rfl]
  rfl

/-- The store is truthful, and a row that was read is as it was read. -/
structure Recording (flight : List (Entry app)) (session : Session (Val app)) : Prop where
  truthful : Truthful session.view
  unchanged : ∀ entry ∈ flight, entry.phase = .read → (app.registration entry.label).isSome →
    session.view.lookup (.row entry.label entry.pk) = entry.before

namespace Recording

variable {flight front : List (Entry app)} {session : Session (Val app)} {pk : String}

theorem seen {committed : Log (Val app)} (moves : (undisturbed app).Moves session committed)
    (here : Recording flight session) : Recording flight (session.seeing committed) := by
  rwa [undisturbed_seeing moves]

theorem read {before : Option (Row (app.model label) pk)} (here : Recording flight session)
    (found : session.view.lookup (.row label pk) = before) :
    Recording (⟨label, pk, before, .read⟩ :: flight) session := by
  refine ⟨here.truthful, fun entry member reading registered => ?_⟩
  rcases List.mem_cons.mp member with rfl | member
  · exact found
  · exact here.unchanged entry member reading registered

theorem write {row : Option (Row (app.model label) pk)} (here : Recording flight session)
    (apart : ∀ entry ∈ flight, entry.phase = .read → (app.registration entry.label).isSome →
      Key.row entry.label entry.pk ≠ .row label pk) : Recording flight (session.write (.row label pk) row) := by
  refine ⟨here.truthful.row row, fun entry member reading registered => ?_⟩
  exact (Log.lookup_cons_ne _ _ (apart entry member reading registered)).trans (here.unchanged entry member reading registered)

theorem mono {flight' : List (Entry app)} (here : Recording flight session)
    (subset : ∀ entry ∈ flight', entry.phase = .read → entry ∈ flight) : Recording flight' session :=
  ⟨here.truthful, fun entry member reading => here.unchanged entry (subset entry member reading) reading⟩

variable {entry : Entry app}

theorem dropped (here : Recording (front ++ entry :: flight) session) :
    Recording (front ++ flight) session :=
  here.mono fun _ member _ => (List.mem_append.mp member).elim (List.mem_append_left _)
    fun member => List.mem_append_right _ (List.mem_cons_of_mem _ member)

theorem added (here : Recording (front ++ flight) session) (past : entry.phase ≠ .read) :
    Recording (front ++ entry :: flight) session := by
  refine here.mono fun other member reading => ?_
  rcases List.mem_append.mp member with member | member
  · exact List.mem_append_left _ member
  · rcases List.mem_cons.mp member with rfl | member
    · exact absurd reading past
    · exact List.mem_append_right _ member

theorem tail (here : Recording (entry :: flight) session) : Recording flight session :=
  here.mono fun _ member _ => List.mem_cons_of_mem _ member

theorem pushed (here : Recording flight session) (past : entry.phase ≠ .read) :
    Recording (entry :: flight) session :=
  here.mono fun _ member reading =>
    (List.mem_cons.mp member).resolve_left fun same => past (same ▸ reading)

theorem apart {held : List Key} (outer : Key.row label pk ∈ flying flight → Key.row label pk ∈ held)
    (inner : Key.row label pk ∉ flying front) (free : Key.row label pk ∉ held) (entry : Entry app)
    (member : entry ∈ front ++ flight) : Key.row entry.label entry.pk ≠ .row label pk := by
  intro same
  rcases List.mem_append.mp member with member | member
  · exact inner (same ▸ List.mem_map_of_mem member)
  · exact free (outer (same ▸ List.mem_map_of_mem member))

end Recording

private theorem undisturbed_inner {assertion : Session (Val app) → Prop}
    (viewed : ∀ first second : Session (Val app), second.view = first.view → assertion first → assertion second) :
    (undisturbed app).Inner assertion where
  moved session committed _ moves here := by rwa [undisturbed_seeing moves]
  resaved session _ _ _ here := viewed session _ rfl here
  locked session _ here := viewed session _ rfl here

/-- An append that stated what the row is, or nothing, keeps the store truthful. -/
private theorem appendEvent_recording {server : Server (Val app) Err} {session : Session (Val app)}
    {config : Registration (app.model label)} {row : Loaded app label} {action : String} {old new : Json}
    {ctx : ScopeContext} {held : List Key} {flight : List (Entry app)} (registered : app.registration label = some config)
    (opened : session.saved ≠ []) (here : Recording flight session)
    (stated : new ≠ .null → session.view.lookup (.row label row.1) = some row.2 ∧ snapshot config row.2.column = .ok new) :
    (undisturbed app).Holds server (Returns fun _ final => Recording flight final)
      (appendEvent config row action old new ctx held) session := by
  let assertion (other : Session (Val app)) : Prop := Recording flight other ∧
    (new ≠ .null → other.view.lookup (.row label row.1) = some row.2 ∧ snapshot config row.2.column = .ok new)
  have viewed (first second : Session (Val app)) (same : second.view = first.view) (here : assertion first) :
      assertion second :=
    ⟨⟨same ▸ here.1.truthful, same ▸ here.1.unchanged⟩, same ▸ here.2⟩
  have inner' : (undisturbed app).Inner fun other => Recording flight other :=
    undisturbed_inner fun _ _ same here => ⟨same ▸ here.truthful, same ▸ here.unchanged⟩
  refine appendEvent_holds (undisturbed_inner viewed) inner' (fun _ => rfl) opened (.inl rfl) ⟨here, stated⟩ ?_ ?_
  · intro session scope _ ⟨here, stated⟩ _ _
    refine ⟨⟨here.truthful.resource rfl row.2, fun entry member reading known => ?_⟩, fun some => ⟨?_, (stated some).2⟩⟩
    · exact (Log.lookup_cons_ne _ _ (by simp)).trans (here.unchanged entry member reading known)
    · exact (Log.lookup_cons_ne _ _ (by simp)).trans (stated some).1
  · intro session resource event _ ⟨here, stated⟩ head _ _ follows _
    have named : (resource.advanced event).objectPk = row.1 := (here.truthful.head head).1
    refine ⟨(here.truthful.event fun some => ?_).resource named row.2, fun entry member reading known => ?_⟩
    · have after := follows.after
      subst after
      exact ⟨config, row.2, registered, (stated some).1, (stated some).2⟩
    · refine (Log.lookup_cons_ne _ _ (by simp)).trans ((Log.lookup_cons_ne _ _ (by simp)).trans ?_)
      exact here.unchanged entry member reading known

/-- The rows in flight stay as they were read, so what is recorded of them is true. -/
def recordingUpkeep (app : App) (server : Server (Val app) Err) (entered : Option Active → Prop) :
    Upkeep app server (undisturbed app) entered where
  own _ _ := rfl
  holds := Recording
  related label row session := session.view.lookup (.row label row.1) = some row.2
  invariant _ :=
    { moved := fun _ _ _ moves here => here.seen moves
      enter := fun _ here => ⟨here.truthful, here.unchanged⟩
      leave := fun _ session _ _ here => by
        constructor
        · rw [Session.view_leave]
          exact here.truthful
        · rw [Session.view_leave]
          exact here.unchanged
      kept := fun _ _ _ _ _ _ => trivial }
  locked _ _ _ here := ⟨here.truthful, here.unchanged⟩
  readPresent _ here found _ := here.read found
  readRelied _ here _ member := here.read (Log.mem_entries.mp (List.mem_of_mem_filter member))
  readAbsent _ here absent := here.read (absent (.inl rfl))
  update := by
    intro front flight session label pk config before change old new held seen _ _ known inner here allowed _ _ _ _
    exact (here.dropped.write fun entry member _ _ => Recording.apart known inner allowed entry member).added nofun
  unmatched _ _ here _ := here.dropped.added nofun
  insert := by
    intro flight session label pk config before new held _ _ known here allowed _
    exact (here.tail.write fun entry member _ _ same => allowed (known (same ▸ List.mem_map_of_mem member))).pushed nofun
  drop _ _ _ here _ := here.dropped
  erase := by
    intro front flight session label pk config before phase old held seen _ _ known inner _ here allowed _ _
    exact here.dropped.write fun entry member _ _ => Recording.apart known inner allowed entry member
  eraseForeign := by
    intro flight session label pk foreign here
    refine here.write fun entry _ _ registered same => ?_
    rw [(Key.row.inj same).1, foreign] at registered
    cases registered
  relations := by
    intro flight session label config row before phase ctx _ _ _ _ here found
    have reads : (undisturbed app).Holds server (Always fun other => other.view = session.view)
        (checkRelations config row.get ctx.toScopeContext : Db app Unit) session := by
      refine Holds.reads (checkRelations_reads _ _ _) (fun other committed _ moves same => ?_) (fun _ _ same => same) rfl
      rwa [undisturbed_seeing moves]
    refine reads.weaken fun result final _ same => ?_
    cases result with
    | error error => trivial
    | ok value =>
      have same : final.view = session.view := same
      exact ⟨⟨same ▸ here.truthful, same ▸ here.unchanged⟩, same ▸ found⟩
  record opened registered _ _ _ here _ found _ taken _ :=
    appendEvent_recording registered opened here.dropped fun _ => ⟨found, taken⟩
  condemn opened registered _ _ here _ _ :=
    (appendEvent_recording registered opened here.tail fun some => absurd rfl some).weaken
      fun result _ _ reached => by
        cases result with
        | error error => trivial
        | ok value => exact Recording.pushed reached nofun
  baseline := by
    intro flight session label config row held ctx new opened registered _ _ here reading _ _ taken
    refine appendEvent_recording registered opened here fun _ => ⟨?_, taken⟩
    exact reading.unchanged _ List.mem_cons_self rfl (by rw [registered]; rfl)

theorem recordings_truthful {server : Server (Val app) Err} {log : Log (Val app)} {α : Type} {program : Db app α}
    {entered : Option Active → Prop} {result : Except Err α} {final : Session (Val app)}
    (supported : Supported app entered [] program) (truthful : Truthful log)
    (runs : server.Runs (fun _ request => Undisturbing request) program (Session.idle log) result final) :
    Truthful final.view := by
  have runs' : server.Runs (undisturbed app).allowed program (Session.idle log) result final := runs
  have start : Recording ([] : List (Entry app)) (Session.idle log) := ⟨truthful, by simp⟩
  have holds : (undisturbed app).Holds server (Always (Recording [])) program (Session.idle log) :=
    supported.holds (recordingUpkeep app server entered) (List.nil_subset _) start
  exact (runs'.post (Session.Whole.idle _) trivial holds).1.2.truthful

end PyScoped
