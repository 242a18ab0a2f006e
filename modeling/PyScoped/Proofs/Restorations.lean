import PyScoped.Proofs.RestoredColumns

/-! Restorations. Every run of a restoration is followed to its end: it raises and
leaves the store alone, or it has updated the restored columns and appended an event.
It is exact where every restored column survived its way through the event. -/

namespace PyScoped
open Foundation Discipline

variable {app : App} {label : String}
variable {α : Type}

theorem Safe.returning {discipline : Discipline (Val app) Err} {server : Server (Val app) Err}
    {post : Except Err α → Session (Val app) → Prop} {property : α → Prop} {program : Db app α} {session : Session (Val app)}
    (returns : program.Returns property) (safe : discipline.Safe server post program session) :
    discipline.Safe server (fun result final => post result final ∧ ∀ value, result = .ok value → property value)
      program session := by
  induction program generalizing session with
  | pure value => exact ⟨safe, fun other same => Except.ok.inj same ▸ returns⟩
  | raise error => exact ⟨safe, fun other same => nomatch same⟩
  | request request next ih =>
    intro whole committed moves allowed choice attentive reply after answered
    obtain ⟨guaranteed, rest⟩ := safe whole committed moves allowed choice attentive reply after answered
    exact ⟨guaranteed, ih reply (returns reply) rest⟩

variable {text : String}

section Steps

variable {server : Server (Val app) Err} {env : Env} {config : Registration (app.model label)}
  {session : Session (Val app)} {handlers : Handlers app} {pk : Value}

/-- Handlers that only read, and leave the instance alone. -/
structure Handlers.Quiet (handlers : Handlers app) : Prop where
  preSave : ∀ held inst, (handlers.preSave held inst).Only Reads ∧ (handlers.preSave held inst).Returns fun attr => attr = inst.attr
  postSave : ∀ held inst, (handlers.postSave held inst).Only Reads

/-- A lone program ends with the value and the store that the postcondition names. -/
abbrev Ends {α : Type} (server : Server (Val app) Err) (program : Db app α) (session : Session (Val app))
    (post : α → Log (Val app) → Prop) : Prop :=
  (alone app).Holds server (Returns fun value final => post value final.view) program session

theorem ends_reads {program : Db app α} (only : program.Only Reads) :
    Ends server program session fun _ log => log = session.view := by
  have reads : (alone app).Holds server (Always fun other => other.view = session.view) program session := by
    refine Holds.reads only (fun other committed _ moves same => ?_) (fun _ _ same => same) rfl
    rwa [alone_seeing moves]
  exact reads.returned

theorem ends_quiet {program : Db app α} {property : α → Prop} (only : program.Only Reads)
    (returns : program.Returns property) : Ends server program session fun value log => property value ∧ log = session.view := by
  have reads : Ends server program session fun _ log => log = session.view := ends_reads only
  refine (Safe.returning returns reads).weaken ?_
  rintro (error | value) final ⟨⟨framed, reached⟩, returned⟩
  · exact ⟨framed, trivial⟩
  · exact ⟨framed, returned value rfl, reached⟩

private theorem ends_atomic {body : Db app α} (post : α → Log (Val app) → Prop)
    (run : ∀ other : Session (Val app), other.view = session.view → other.saved ≠ [] → Ends server body other post) :
    (alone app).Holds server (fun result final => match result with
      | .ok value => post value final.view
      | .error _ => final.view = session.view) (Tx.atomic body) session := by
  refine Holds.atomic (fun committed moves _ => show (alone app).Holds _ (Returns fun value final => post value final.view)
    _ _ from ?_) ?_ ?_
  · rw [alone_seeing moves]
    exact run _ rfl (List.cons_ne_nil _ _)
  · intro value final committed reached _ moves _
    refine ⟨fun _ => trivial, ?_⟩
    change post value (final.seeing committed).leave.view
    rw [Session.view_leave, alone_seeing moves]
    exact reached
  · intro error committed moves _
    change (session.seeing committed).view = _
    rw [alone_seeing moves]

private theorem ends_nested {body : Db app α} (post : α → Log (Val app) → Prop)
    (run : ∀ other : Session (Val app), other.view = session.view → other.saved ≠ [] → Ends server body other post) :
    Ends server (Tx.atomic body) session post :=
  (ends_atomic post run).weaken fun result _ _ reached => by
    cases result with
    | ok value => exact reached
    | error error => trivial

private theorem loadRow_ends (lock : Bool) : Ends server (loadRow label pk lock : Db app _) session fun found log =>
    log = session.view ∧ ∀ row ∈ found, (app.model label).keyText pk = .ok row.1 ∧
      session.view.lookup (.row label row.1) = some row.2 := by
  by_cases unset : pk = .none
  · subst unset
    exact Holds.pure ⟨rfl, by simp⟩
  rw [Upkeep.loadRow_eq unset]
  refine Holds.lift fun text named => ?_
  have selecting : Ends server (selectRow label text lock : Db app _) session fun found log =>
      log = session.view ∧ ∀ row ∈ found, session.view.lookup (.row label text) = some row := by
    cases lock with
    | true =>
      refine Holds.lock fun committed moves _ => ?_
      rw [alone_seeing moves]
      refine ⟨fun _ => trivial, fun _ => ⟨rfl, by simp⟩, fun row present => ⟨rfl, fun other member => ?_⟩⟩
      obtain rfl := Option.some.inj member
      exact present
    | false =>
      refine Holds.get fun committed moves _ => ?_
      rw [alone_seeing moves]
      exact ⟨fun _ => trivial, rfl, fun other member => member⟩
  refine selecting.andThen fun found final _ selected => ?_
  obtain ⟨same, present⟩ := selected
  refine Holds.pure ⟨same, fun row member => ?_⟩
  obtain ⟨own, found', rfl⟩ := Option.map_eq_some_iff.mp member
  exact ⟨named, present own found'⟩

theorem findResource_ends : Ends server (findResource env config pk) session fun found log =>
    log = session.view ∧ ∃ objectPk, identity pk = .ok objectPk ∧
      found = session.view.lookup (.resource label objectPk) := by
  refine Holds.lift fun ctx _ => Holds.lift fun objectPk identified => ?_
  have getting : Ends server (Tx.get (V := Val app) (.resource label objectPk) : Db app (Option Resource)) session
      fun found log => log = session.view ∧ found = session.view.lookup (.resource label objectPk) := by
    refine Holds.get fun committed moves _ => ?_
    rw [alone_seeing moves]
    exact ⟨fun _ => trivial, rfl, rfl⟩
  refine getting.andThen fun found final _ ⟨same, present⟩ => ?_
  cases found with
  | none => exact Holds.pure ⟨same, objectPk, identified, present⟩
  | some resource =>
    refine Holds.lift fun own _ => Holds.lift fun wanted _ => ?_
    change (alone app).Holds server _ (if _ then _ else _) _
    split
    · exact Holds.pure ⟨same, objectPk, identified, present⟩
    · exact Holds.raise trivial

/-- The events that a lookup of the resource leads to. -/
def recordedUnder (log : Log (Val app)) (label objectPk : String) : List AuditEvent :=
  match log.lookup (.resource label objectPk) with
  | none => []
  | some resource => retained label (resource : Resource).objectPk log.entries

theorem mem_recordedUnder {log : Log (Val app)} {objectPk : String} {event : AuditEvent}
    (member : event ∈ recordedUnder log label objectPk) : ∃ resource : Resource, ∃ revision,
      log.lookup (.resource label objectPk) = some resource ∧
        log.lookup (.event label resource.objectPk revision) = some event := by
  unfold recordedUnder at member
  split at member
  · cases member
  next resource present =>
    obtain ⟨revision, listed⟩ := mem_retained.mp member
    exact ⟨resource, revision, present, Log.mem_entries.mp listed⟩

theorem history_ends : Ends server (history env config pk) session fun events log =>
    log = session.view ∧ ∃ objectPk, identity pk = .ok objectPk ∧ events = recordedUnder session.view label objectPk := by
  refine findResource_ends.andThen fun found second _ ⟨same, objectPk, identified, present⟩ => ?_
  cases found with
  | none => exact Holds.pure ⟨same, objectPk, identified, by rw [recordedUnder, ← present]⟩
  | some resource =>
    have scanning : Ends server (Tx.scan (fun _ => isEvent label resource.objectPk) false : Db app (List (Sigma (Val app))))
        second fun found log => log = session.view ∧ found = session.view.entries.filter (isEvent label resource.objectPk) := by
      refine Holds.scan fun committed moves _ _ => ?_
      rw [alone_seeing moves, same]
      exact ⟨fun _ => trivial, same, rfl⟩
    refine scanning.andThen fun entries final _ ⟨same', found⟩ => ?_
    subst found
    refine Holds.pure ⟨same', objectPk, identified, ?_⟩
    rw [retained_filter, recordedUnder, ← present]

private theorem verifyHistory_ends : Ends server (verifyHistory env config pk) session fun _ log => log = session.view := by
  refine ends_nested _ fun other same _ => ?_
  rw [← same]
  refine ends_reads (Prog.Only.bind (findResource_reads env config pk) fun resource => ?_)
  cases resource with
  | none => trivial
  | some resource =>
    refine Prog.Only.bind (Prog.Only.perform trivial) fun found => ?_
    cases found with
    | none => trivial
    | some resource => exact Prog.Only.bind (readEvents_reads _ _) fun events => Prog.Only.ofExcept _

/-- The store after one event: the event, and the head that names it. -/
def Appended (app : App) (label pk action : String) (before after : Log (Val app)) : Prop :=
  ∃ (resource : Resource) (event : AuditEvent) (old new : Json),
    before.lookup (.resource label pk) = some resource ∧ before.lookup (.event label pk event.revision) = none ∧
      Follows app.sha256 resource event action old new ∧
      after = ⟨.resource label pk, some (resource.advanced event)⟩ :: ⟨.event label pk event.revision, some event⟩ :: before

variable {resource : Resource}

private theorem appendEvent_ends {row : Loaded app label} {action : String} {old new : Json} {ctx : ScopeContext}
    {held : List Key} (opened : session.saved ≠ [])
    (present : session.view.lookup (.resource label row.1) = some resource) :
    Ends server (appendEvent config row action old new ctx held) session fun _ log =>
      Appended app label row.1 action session.view log := by
  have inner (property : Log (Val app) → Prop) : (alone app).Inner fun other => property other.view :=
    { moved := fun other committed _ moves here => by rwa [alone_seeing moves]
      resaved := fun _ _ _ _ here => here
      locked := fun _ _ here => here }
  refine appendEvent_holds (inner (· = session.view)) (inner (Appended app label row.1 action session.view)) (fun _ => rfl)
    opened (.inl rfl) rfl ?_ ?_
  · intro other scope _ same absent _
    rw [same, present] at absent
    cases absent
  · intro other resource event _ same head absent _ follows _
    have same : other.view = session.view := same
    refine ⟨resource, event, old, new, same ▸ head, same ▸ absent, follows, ?_⟩
    rw [Session.view_write, Session.view_write, same]

/-- The store after an UPDATE of the named fields of an instance. -/
def Updated (app : App) (label : String) (inst : Instance) (names : List String) (before after : Log (Val app)) : Prop :=
  ∃ text, (app.model label).keyText inst.pk = .ok text ∧ ∃ old new : Row (app.model label) text,
    before.lookup (.row label text) = some old ∧
      assignAll (inst.assignments (app.model label) (writtenFields (app.model label) (some names))) old = .ok new ∧
      after = ⟨.row label text, some new⟩ :: before

variable {inst : Instance} {names : List String}

private theorem saveTable_ends {held : List Key} {seen : Bool} (existing : inst.adding = false) :
    Ends server (saveTable label inst ⟨false, false, false, some names⟩ held seen : Db app _) session fun saved log =>
      saved = inst ∧ Updated app label inst names session.view log := by
  unfold saveTable
  change (alone app).Holds server _ (if _ then _ else if _ then _ else _) _
  split
  · exact Holds.raise trivial
  split
  next inserts => simp [existing] at inserts
  have updating : Ends server (updateRow label inst (writtenFields (app.model label) (some names)) held seen : Db app Bool)
      session fun updated log => updated = true → Updated app label inst names session.view log := by
    refine Holds.lift fun text named => Holds.update (.inl rfl) fun committed moves _ _ => ?_
    rw [alone_seeing moves]
    exact ⟨fun _ => trivial, fun _ => Bool.noConfusion, fun old new present changed _ =>
      ⟨text, named, old, new, present, changed, rfl⟩⟩
  refine updating.andThen fun updated final _ reached => ?_
  cases updated with
  | true => exact Holds.pure ⟨rfl, reached rfl⟩
  | false => exact Holds.raise trivial

private theorem djangoSave_ends {held : List Key} {seen : Bool}
    (quiet : handlers.Quiet) (existing : inst.adding = false) :
    Ends server (djangoSave handlers label inst ⟨false, false, false, some names⟩ held seen) session fun saved log =>
      saved = inst ∧ Updated app label inst names session.view log := by
  obtain ⟨only, returns⟩ := quiet.preSave (inFlight app label inst.pk held) inst
  refine (ends_quiet only returns).andThen fun attr second _ ⟨unchanged, same⟩ => ?_
  subst unchanged
  have saving : Ends server (saveTable label inst ⟨false, false, false, some names⟩ held seen : Db app Instance) second
      fun saved log => saved = inst ∧ Updated app label inst names second.view log := saveTable_ends existing
  refine saving.andThen fun saved third _ ⟨own, updated⟩ => ?_
  refine (ends_reads (quiet.postSave _ _)).andThen fun _ last _ same' => Holds.pure ⟨own, ?_⟩
  rwa [same', ← same]

private theorem value_same (value : Value) : value.same value = true := by
  cases value <;> simp [Value.same]

private theorem recordSaved_ends {created : Bool} {old : Json} {ctx : ScopeContext}
    (restoring : env.override = some ⟨label, pk, "restore"⟩) (opened : session.saved ≠ [])
    (named : (app.model label).keyText pk = .ok text)
    (present : session.view.lookup (.resource label text) = some resource) :
    Ends server (recordSaved env config created old pk ctx) session fun _ log =>
      Appended app label text "restore" session.view log := by
  refine (loadRow_ends false).andThen fun found second framed ⟨same, loaded⟩ => ?_
  cases found with
  | none => exact Holds.raise trivial
  | some row =>
    obtain rfl : row.1 = text := Except.ok.inj ((loaded row rfl).1.symm.trans named)
    refine Holds.lift fun _ _ => (ends_reads (checkRelations_reads _ _ _)).andThen fun _ third framed' same' => ?_
    refine Holds.lift fun after _ => ?_
    have action : saveAction env label pk created = "restore" := by simp [saveAction, restoring, value_same]
    have viewed : third.view = session.view := same'.trans same
    have opened' : third.saved ≠ [] := by rw [framed'.saved, framed.saved]; exact opened
    rw [action, ← viewed]
    exact appendEvent_ends opened' (viewed ▸ present)

/-- A save that a restoration makes: the named fields are updated and one event is appended. -/
def Resaved (app : App) (label : String) (inst : Instance) (names : List String) (before after : Log (Val app)) : Prop :=
  ∃ updated text, (app.model label).keyText inst.pk = .ok text ∧ Updated app label inst names before updated ∧
    Appended app label text "restore" updated after

private theorem saveBase_ends
    (restoring : env.override = some ⟨label, inst.pk, "restore"⟩) (quiet : handlers.Quiet) (existing : inst.adding = false)
    (named : (app.model label).keyText inst.pk = .ok text)
    (present : session.view.lookup (.resource label text) = some resource) :
    Ends server (saveBase env handlers config inst ⟨false, false, false, some names⟩) session fun _ log =>
      Resaved app label inst names session.view log := by
  refine Holds.lift fun ctx _ => ?_
  change (alone app).Holds server _ (if _ then _ else _) _
  split
  · exact Holds.raise trivial
  refine ends_nested _ fun second viewed opened => ?_
  refine (loadRow_ends true).andThen fun before third framed fetched => ?_
  have same := fetched.1
  refine (ends_reads (checkSaved_reads _ _ _ _)).andThen fun _ fourth framed' same' => Holds.lift fun old _ => ?_
  refine (djangoSave_ends quiet existing).andThen fun saved fifth framed'' stored => ?_
  obtain ⟨own, updated⟩ := stored
  subst own
  have viewed' : fourth.view = session.view := same'.trans (same.trans viewed)
  rw [viewed'] at updated
  have opened' : fifth.saved ≠ [] := by rw [framed''.saved, framed'.saved, framed.saved]; exact opened
  have present' : fifth.view.lookup (.resource label text) = some resource := by
    obtain ⟨_, _, _, _, _, _, written⟩ := updated
    rw [written]
    exact (Log.lookup_cons_ne _ _ (by simp)).trans present
  exact (recordSaved_ends restoring opened' named present').weaken fun result _ _ reached => by
    cases result with
    | ok => exact ⟨fifth.view, text, named, updated, reached⟩
    | error => trivial

private theorem save_ends
    (restoring : env.override = some ⟨label, inst.pk, "restore"⟩) (quiet : handlers.Quiet) (existing : inst.adding = false)
    (nonempty : names ≠ []) (named : (app.model label).keyText inst.pk = .ok text)
    (present : session.view.lookup (.resource label text) = some resource) :
    Ends server (save env handlers config inst ⟨false, false, false, some names⟩) session fun _ log =>
      updatable (app.model label) names = true ∧ Resaved app label inst names session.view log := by
  refine Holds.lift fun _ _ => ?_
  refine ends_nested (fun _ log => updatable (app.model label) names = true ∧
    Resaved app label inst names session.view log) fun other same opened => ?_
  change (alone app).Holds server _ (if _ then _ else if _ then _ else _) _
  split
  next none => exact absurd (Option.some.inj none) nonempty
  split
  · exact Holds.raise trivial
  next known =>
    rw [← same] at present ⊢
    exact (saveBase_ends restoring quiet existing named present).weaken fun result _ _ reached => by
      cases result with
      | ok => exact ⟨by simpa using known, reached⟩
      | error => trivial

/-- What a restoration that returns has done, told from the events and rows it found. -/
structure Restored (config : Registration (app.model label)) (text : String) (revision expectedRevision : Int)
    (before after : Log (Val app)) : Prop where
  done : ∃ (old new : Row (app.model label) text) (resource : Resource) (target : AuditEvent) (stored : Nat),
    before.lookup (.row label text) = some old ∧ before.lookup (.resource label text) = some resource ∧
      (resource.revision : Int) = expectedRevision ∧ before.lookup (.event label text stored) = some target ∧
      (target.revision : Int) = revision ∧ target.after ≠ .null ∧
      (∀ field ∈ config.fields, Restores config field → ∃ value,
        field.toPython (member target.after field.name) = .ok value ∧ field.store value = .ok (new.column field.attname)) ∧
      (∀ attname, (∀ field ∈ config.fields, Restores config field → field.attname ≠ attname) →
        new.column attname = old.column attname) ∧
      (∀ field ∈ config.fields, Restores config field → field.attname ≠ (app.model label).pk.attname) ∧
      Appended app label text "restore" (⟨.row label text, some new⟩ :: before) after

theorem Model.Spelled.key {model : Model} {objectPk : String} (spelled : model.Spelled)
    (identified : identity pk = .ok objectPk) (row : Row model objectPk) (named : model.keyText pk = .ok text) :
    objectPk = text := by
  unfold Model.keyText at named
  cases stored : model.pk.store pk with
  | error error => rw [stored] at named; cases named
  | ok value =>
    rw [stored] at named
    obtain rfl : value.text = text := Except.ok.inj named
    have reads : (row.column model.pk.attname).text = pk.text := row.keyed.trans (identity_ok identified).1
    rw [spelled pk value _ stored (row.stored _ model.pkMember) reads, row.keyed]

theorem restore_ends {revision expectedRevision : Int} (truthful : Truthful session.view)
    (names : (app.model label).Unambiguous) (spelled : (app.model label).Spelled) (quiet : handlers.Quiet) :
    (alone app).Holds server (fun result final => match result with
        | .ok _ => ∃ text, (app.model label).keyText pk = .ok text ∧
            Restored config text revision expectedRevision session.view final.view
        | .error _ => final.view = session.view)
      (restore env handlers config pk revision expectedRevision) session := by
  unfold restore
  cases entered : env.current with
  | error error => exact Holds.raise rfl
  | ok ctx =>
    change (alone app).Holds server _ (Tx.atomic _) session
    refine (ends_atomic (fun _ log => ∃ text, (app.model label).keyText pk = .ok text ∧
      Restored config text revision expectedRevision session.view log) fun other viewed opened => ?_).weaken
        fun result final _ reached => by cases result <;> exact reached
    refine (loadRow_ends true).andThen fun found second framed fetched => ?_
    obtain ⟨same, loaded⟩ := fetched
    cases found with
    | none => exact Holds.raise trivial
    | some row =>
      obtain ⟨named, stored⟩ := loaded row rfl
      refine Holds.lift fun _ _ => findResource_ends.andThen fun found third framed' seen => ?_
      obtain ⟨same', objectPk, identified, present⟩ := seen
      change (alone app).Holds server _ (if _ then _ else _) _
      split
      · exact Holds.raise trivial
      next expected =>
        refine verifyHistory_ends.andThen fun verification fourth verified same'' => ?_
        change (alone app).Holds server _ (if _ then _ else _) _
        split
        · exact Holds.raise trivial
        refine history_ends.andThen fun events fifth read ended => Holds.lift fun current _ => ?_
        obtain ⟨unread, again, identified', listed⟩ := ended
        change (alone app).Holds server _ (if _ then _ else _) _
        split
        · exact Holds.raise trivial
        split
        · exact Holds.raise trivial
        next target chosen =>
          change (alone app).Holds server _ (if _ then _ else _) _
          split
          · exact Holds.raise trivial
          refine Holds.lift fun assigned restored => ?_
          obtain ⟨attr, updates⟩ := assigned
          change (alone app).Holds server _ (if _ then _ else _) _
          split
          · exact Holds.raise trivial
          next nonempty =>
            -- The store is still the one the restoration began in.
            have viewed₂ : second.view = session.view := same.trans viewed
            have viewed₃ : third.view = session.view := same'.trans viewed₂
            have viewed₄ : fourth.view = session.view := same''.trans viewed₃
            have viewed₅ : fifth.view = session.view := unread.trans viewed₄
            rw [viewed] at stored
            obtain ⟨resource, rfl, revised⟩ := (Option.any_eq_true _ _).mp (not_not.mp expected)
            rw [viewed₂] at present
            have present := present.symm
            obtain ⟨ownName, ⟨ownRow⟩⟩ := truthful.head present
            obtain rfl : objectPk = row.1 := spelled.key identified ownRow named
            obtain ⟨picked, restorable⟩ := Option.filter_eq_some_iff.mp chosen
            obtain rfl := Except.ok.inj (identified.symm.trans identified')
            obtain ⟨resource', place, present', placed⟩ := mem_recordedUnder (listed ▸ List.mem_of_find?_eq_some picked)
            rw [viewed₄] at present' placed
            obtain rfl := Option.some.inj (present.symm.trans present')
            rw [ownName] at placed
            have saving : Ends server (save { env with override := some ⟨label, row.pk, "restore"⟩ } handlers config
                { pk := row.pk, attr := attr, adding := false } ⟨false, false, false, some updates⟩) fifth _ :=
              save_ends rfl quiet rfl (by simpa using nonempty) row.keyText (by rw [viewed₅]; exact present)
            refine saving.weaken fun result final _ reached => ?_
            cases result with
            | error error => trivial
            | ok value =>
              obtain ⟨known, middle, text, keyed, ⟨text', keyed', old, new, here, written, rfl⟩, appended⟩ := reached
              obtain rfl : text = row.1 := Except.ok.inj (keyed.symm.trans row.keyText)
              obtain rfl : text' = row.1 := Except.ok.inj (keyed'.symm.trans row.keyText)
              rw [viewed₅] at here appended
              obtain ⟨back, others, keyless⟩ := assignAll_restored names (restoredFields_setBack restored) rfl known written
              exact ⟨row.1, named, old, new, resource, target, place, here, present, by simpa using revised, placed,
                by simpa using List.find?_some picked, by simpa using restorable, back, others, keyless, appended⟩

end Steps

/-- The row as it was when the event was recorded: what the writes below the event left. -/
def recordedRow (log : Log (Val app)) (label pk : String) (revision : Nat) : Option (Row (app.model label) pk) :=
  Log.lookup (log.dropWhile fun entry => entry.1 ≠ .event label pk revision) (.row label pk)

/-- The restored columns hold what they held when the event was recorded, the other
columns and rows are as they were, and one event is new. -/
structure RestoredExactly (equal : Value → Value → Prop) (config : Registration (app.model label)) (text : String)
    (revision expectedRevision : Int) (before after : Log (Val app)) : Prop where
  row : ∃ (old new recorded : Row (app.model label) text) (stored : Nat), before.lookup (.row label text) = some old ∧
    after.lookup (.row label text) = some new ∧ (stored : Int) = revision ∧
      recordedRow before label text stored = some recorded ∧
      (∀ field ∈ config.fields, Restores config field → equal (new.column field.attname) (recorded.column field.attname)) ∧
      (∀ attname, (∀ field ∈ config.fields, Restores config field → field.attname ≠ attname) →
        new.column attname = old.column attname) ∧
      new.column (app.model label).pk.attname = old.column (app.model label).pk.attname
  event : ∃ event : AuditEvent, (event.revision : Int) = expectedRevision + 1 ∧ event.action = "restore" ∧
    before.lookup (.event label text event.revision) = none ∧
      after.lookup (.event label text event.revision) = some event ∧
      ∃ head : Resource, after.lookup (.resource label text) = some head ∧ head.revision = event.revision
  others : ∀ key, key ≠ .row label text → key ≠ .resource label text →
    (∀ revision : Nat, (revision : Int) = expectedRevision + 1 → key ≠ .event label text revision) →
      after.lookup key = before.lookup key

/-- Every restored column of the recorded row survives the encoder and `to_python`. -/
def Survives (equal : Value → Value → Prop) (config : Registration (app.model label)) (text : String) (revision : Int)
    (before : Log (Val app)) : Prop :=
  ∀ (stored : Nat) (recorded : Row (app.model label) text), (stored : Int) = revision →
    recordedRow before label text stored = some recorded →
      ∀ field ∈ config.fields, Restores config field → Lossless equal field (recorded.column field.attname)

theorem recordedRow_split {newer older : Log (Val app)} {pk : String} {revision : Nat} {event : Option AuditEvent}
    (apart : Key.event label pk revision ∉ newer.keys) :
    recordedRow (newer ++ ⟨.event label pk revision, event⟩ :: older) label pk revision = older.lookup (.row label pk) := by
  have skipped : (newer ++ ⟨.event label pk revision, event⟩ :: older : Log (Val app)).dropWhile
      (fun entry => entry.1 ≠ .event label pk revision) = ⟨.event label pk revision, event⟩ :: older := by
    rw [List.dropWhile_append_of_pos, List.dropWhile_cons_of_neg (by simp)]
    intro entry member
    exact decide_eq_true fun same => apart (List.mem_map.mpr ⟨entry, member, same⟩)
  rw [recordedRow, skipped]
  exact Log.lookup_cons_ne _ _ (by simp)

theorem Restored.exactly_iff {equal : Value → Value → Prop} {config : Registration (app.model label)}
    {revision expectedRevision : Int} {before after : Log (Val app)} (truthful : Truthful before)
    (registered : app.registration label = some config) (names : (app.model label).Unambiguous)
    (restored : Restored config text revision expectedRevision before after) :
    RestoredExactly equal config text revision expectedRevision before after ↔ Survives equal config text revision before := by
  obtain ⟨old, new, resource, target, stored, present, head, revised, placed, chosen, stated, back, others, keyless,
    resource', event, _, _, head', fresh, follows, rfl⟩ := restored.done
  rw [Log.lookup_cons_ne _ _ (by simp), head] at head'
  obtain rfl := Option.some.inj head'
  rw [Log.lookup_cons_ne _ _ (by simp)] at fresh
  obtain ⟨newer, older, apart, split⟩ := Log.lookup_split placed
  obtain ⟨own, recording⟩ := truthful.events newer older label text stored target split
  obtain ⟨config', recorded, registered', found, taken⟩ := recording stated
  obtain rfl := Option.some.inj (registered.symm.trans registered')
  have here : recordedRow before label text stored = some recorded := by rw [split, recordedRow_split apart, found]
  have number : (stored : Int) = revision := own ▸ chosen
  have next : (event.revision : Int) = expectedRevision + 1 := by rw [follows.revision, ← revised]; simp
  have reads : ∀ field ∈ config.fields, Restores config field → ∃ value,
      field.toPython (recorded.column field.attname).json.sortKeys = .ok value ∧
        field.store value = .ok (new.column field.attname) := by
    intro field listed restores
    obtain ⟨value, read, set⟩ := back field listed restores
    exact ⟨value, by rwa [snapshot_member names taken listed] at read, set⟩
  constructor
  · intro exactly other row number' here' field listed restores
    obtain rfl : other = stored := Int.ofNat.inj (number'.trans number.symm)
    have same : recorded = row := Option.some.inj (here.symm.trans here')
    subst same
    obtain ⟨old', new', row, again, _, present', number'', here'', equals, _⟩ := exactly.row
    obtain rfl : again = other := Int.ofNat.inj (number''.trans number.symm)
    have same : recorded = row := Option.some.inj (here.symm.trans here'')
    subst same
    rw [Log.lookup_cons_ne _ _ (by simp), Log.lookup_cons_ne _ _ (by simp), Log.lookup_cons_self] at present'
    obtain rfl := Option.some.inj present'
    obtain ⟨value, read, set⟩ := reads field listed restores
    exact ⟨value, _, read, set, equals field listed restores⟩
  · intro survives
    refine ⟨⟨old, new, recorded, stored, present, ?_, number, here, ?_, others, others _ keyless⟩,
      ⟨event, next, follows.action, fresh, ?_, _, Log.lookup_cons_self .., rfl⟩, ?_⟩
    · rw [Log.lookup_cons_ne _ _ (by simp), Log.lookup_cons_ne _ _ (by simp), Log.lookup_cons_self]
    · intro field listed restores
      obtain ⟨value, read, set⟩ := reads field listed restores
      obtain ⟨value', read', read'', set', equals⟩ := survives stored recorded number here field listed restores
      obtain rfl := Except.ok.inj (read.symm.trans read'')
      obtain rfl := Except.ok.inj (set.symm.trans set')
      exact equals
    · rw [Log.lookup_cons_ne _ _ (by simp), Log.lookup_cons_self]
    · intro key row head event'
      rw [Log.lookup_cons_ne _ _ head, Log.lookup_cons_ne _ _ (event' _ next), Log.lookup_cons_ne _ _ row]

/-- A run of `restore` on what supported programs of an undisturbed client left
raises and changes nothing, or it is exact just where the recorded row survives. -/
theorem restore_exact_iff (equal : Value → Value → Prop) {server : Server (Val app) Err} {start : Log (Val app)} {α : Type}
    {program : Db app α} {entered : Option Active → Prop} {built : Except Err α} {session final : Session (Val app)}
    {env : Env} {handlers : Handlers app} {config : Registration (app.model label)} {pk : Value}
    {revision expectedRevision : Int} {result : Except Err Unit} (truthful : Truthful start)
    (supported : Supported app entered [] program)
    (history : server.Runs (fun _ request => Undisturbing request) program (Session.idle start) built session)
    (registered : app.registration label = some config) (names : (app.model label).Unambiguous)
    (spelled : (app.model label).Spelled) (quiet : handlers.Quiet)
    (runs : server.Runs (fun _ _ => True) (restore env handlers config pk revision expectedRevision) session result final) :
    (∀ error, result = .error error → ∀ key, final.view.lookup key = session.view.lookup key) ∧
      (result = .ok () → ∃ text, (app.model label).keyText pk = .ok text ∧
        (RestoredExactly equal config text revision expectedRevision session.view final.view ↔
          Survives equal config text revision session.view)) := by
  have truthful' := recordings_truthful supported truthful history
  have history' : server.Runs (undisturbed app).allowed program (Session.idle start) built session := history
  have safe : (undisturbed app).Safe server (fun _ _ => True) program (Session.idle start) :=
    Safe.weaken (supported.holds (recordingUpkeep app server entered) (List.nil_subset _)
      (⟨truthful, by simp⟩ : Recording [] (Session.idle start))) fun _ _ _ => trivial
  have whole := (history'.post (Session.Whole.idle _) trivial safe).2.1
  have runs' : server.Runs (alone app).allowed (restore env handlers config pk revision expectedRevision) session result final :=
    runs
  have reached := (runs'.post whole trivial (restore_ends truthful' names spelled quiet)).1.2
  cases result with
  | error error =>
    refine ⟨fun _ _ key => congrArg (Log.lookup · key) reached, fun returned => ?_⟩
    cases returned
  | ok value =>
    obtain ⟨text, named, restored⟩ := reached
    refine ⟨fun error raised => ?_, fun _ => ⟨text, named, restored.exactly_iff truthful' registered names⟩⟩
    cases raised

private theorem mergeSort_total (le : α → α → Prop) [DecidableRel le] (trans : ∀ a b c, le a b → le b c → le a c)
    (total : ∀ a b, le a b ∨ le b a) (items : List α) :
    items.mergeSort (fun first second => le first second) = items.insertionSort le := by
  have trans' : ∀ a b c : α, decide (le a b) → decide (le b c) → decide (le a c) := by simpa using trans
  have total' : ∀ a b : α, decide (le a b) || decide (le b a) := by simpa using total
  induction items with
  | nil => simp
  | cons item items ih =>
    obtain ⟨front, back, whole, parts, before⟩ := List.mergeSort_cons trans' total' item items
    have sorted := List.pairwise_mergeSort trans' total' (item :: items)
    rw [whole] at sorted ⊢
    rw [List.insertionSort_cons, ← ih, parts]
    have after : ∀ other ∈ back, le item other := by
      have tail := (List.pairwise_append.mp sorted).2.1
      simpa using (List.pairwise_cons.mp tail).1
    clear whole parts sorted ih
    induction front with
    | nil =>
      cases back with
      | nil => rfl
      | cons other back => simp [after other List.mem_cons_self]
    | cons other front ih =>
      obtain ⟨first, before⟩ := List.forall_mem_cons.mp before
      have behind : ¬le item other := by simpa using first
      rw [List.cons_append, List.cons_append, List.orderedInsert, if_neg behind, ← ih before]

theorem retained_insertion (pk : String) (entries : List (Sigma (Val app))) : retained label pk entries =
    (entries.filterMap fun
      | ⟨.event other pk' _, event⟩ => if other = label ∧ pk' = pk then some event else none
      | _ => none).insertionSort fun first second => first.revision ≤ second.revision := by
  unfold retained
  exact mergeSort_total (fun first second : AuditEvent => first.revision ≤ second.revision)
    (fun _ _ _ => Nat.le_trans) (fun _ _ => Nat.le_total _ _) _

namespace Shops

/-- A time of the day. The encoder cuts its microseconds to milliseconds. -/
def timeField (name : String) : Field where
  name := name
  attname := name
  relation := none
  toPython
    | .str text => .ok (.other text (.str (String.ofList (text.toList.take 12))))
    | _ => .error (.valueError "Not a time.")
  store := .ok
  stable := fun into => (Sample.textField name none).stable into

def model : Model where
  label := "app.shop"
  fields := [Sample.textField "id" none, Sample.textField "scope" none, Sample.textField "title" none, timeField "opens"]
  pk := Sample.textField "id" none
  pkDefault := false
  pkOrder := fun first second => first ≤ second
  pkMember := by simp
  distinct := by decide

def config : Registration model where
  scopeField := Sample.textField "scope" none
  fields := [Sample.textField "title" none, timeField "opens"]
  enforce := true
  scopeMember := by simp [model]
  scopeNotKey := Sample.scope_ne_id
  fieldsMember := by simp [model]
  nonempty := by simp

def business : App := ⟨fun _ => model, fun _ => some config, fun text => text.utf8ByteSize.repr⟩

def server : Server (Val business) Err := ⟨.integrityError, fun _ => .ok ()⟩

def time (text : String) : Value := .other text (.str (String.ofList (text.toList.take 12)))

def shop (title opens : String) : Instance where
  pk := .str "7"
  attr name := if name = "opens" then .value (time opens) else if name = "title" then .value (.str title) else .value (.str "s")
  adding := false

def registered : Registration (business.model "app.shop") := config

def saving (inst : Instance) : Db business Unit :=
  save (Sample.scope "s" Sample.s_valid) Handlers.none registered inst ⟨false, false, false, none⟩

/-- A shop is created, and then gets a new title and new hours. -/
def opening : Db business Unit :=
  (saving (shop "one" "10:00:00.123456")).bind fun _ => saving (shop "two" "11:00:00")

def restoring : Db business Unit := restore (Sample.scope "s" Sample.s_valid) Handlers.none registered (.str "7") 1 2

def undisturbs : Request (Val business) Err → Bool
  | .insert key _ held | .update key _ held _ | .delete key held _ => !(held.contains key)
  | _ => true

theorem undisturbing_of {request : Request (Val business) Err} (permits : undisturbs request = true) : Undisturbing request := by
  cases request <;> simp_all [undisturbs, Undisturbing]

theorem unambiguous : (business.model "app.shop").Unambiguous := by
  have distinct : ∀ first ∈ model.fields, ∀ second ∈ model.fields,
      first.name = second.name ∨ first.name = second.attname → first.attname = second.attname := by
    simp [model, Sample.textField, timeField]
  exact fun first member second member' same => Model.field_eq member member' (distinct first member second member' same)

theorem spelled : (business.model "app.shop").Spelled := by
  intro value stored own into _ reads
  cases into
  exact reads.symm

theorem quiet : (Handlers.none : Handlers business).Quiet := ⟨fun _ _ => ⟨trivial, rfl⟩, fun _ _ => trivial⟩

theorem opening_supported : Supported business (fun _ => True) [] opening := by
  have within : (Sample.scope "s" (by decide)).Within (fun _ => True) [] := ⟨trivial, rfl, by simp [Sample.scope]⟩
  have saving (inst : Instance) : Supported business (fun _ => True) [] (saving inst) :=
    .save inst _ within rfl (fun _ _ => .pure _) (fun _ _ => .pure _)
  exact .bind (saving _) fun _ => saving _

/-- The digest of an event, from the characters that are hashed. -/
def digestOf (resource : Resource) (event : AuditEvent) : Except Err String :=
  match (eventPayload resource event).dumps with
  | some text => .ok (String.utf8Len text).repr
  | none => .error (.valueError "Out of range float values are not JSON compliant")

theorem eventDigest_digestOf : eventDigest business.sha256 = digestOf := by
  funext resource event
  unfold eventDigest encodeEvent digestOf
  cases (eventPayload resource event).dumps with
  | none => rfl
  | some text => exact congrArg (fun size => Except.ok (Nat.repr size)) (String.utf8ByteSize_ofList text)

/-- The loop of `verify_history` over any digest. -/
def verifyBy (digestOf : Resource → AuditEvent → Except Err String) (resource : Resource) :
    Nat → String → List AuditEvent → Except Err (Except Nat String)
  | _, previous, [] => .ok (.ok previous)
  | revision, previous, event :: events =>
    if event.revision ≠ revision ∨ event.previousDigest ≠ previous ∨ event.scope ≠ resource.scope then
      .ok (.error revision)
    else do
      let digest ← digestOf resource event
      if event.digest ≠ digest then .ok (.error revision)
      else verifyBy digestOf resource (revision + 1) event.digest events

theorem verifyEvents_by (sha256 : String → String) (resource : Resource) (events : List AuditEvent) : ∀ revision previous,
    verifyEvents sha256 resource revision previous events = verifyBy (eventDigest sha256) resource revision previous events := by
  induction events with
  | nil => exact fun _ _ => rfl
  | cons event events ih =>
    intro revision previous
    simp only [verifyEvents, verifyBy, ih]

theorem opened_and_restored : ∃ (session final : Session (Val business)) (built : Except Err Unit),
    server.Runs (fun _ request => Undisturbing request) opening (Session.idle []) built session ∧
      server.Runs (fun _ _ => True) restoring session (.ok ()) final ∧
      (∃ row ∈ recordedRow session.view "app.shop" "7" 1, row.column "opens" = time "10:00:00.123456") ∧
      ∃ row ∈ final.view.lookup (.row "app.shop" "7"), row.column "opens" = time "10:00:00.123" := by
  have played : (server.playWithin undisturbs (List.replicate 40 Sample.through) opening (Session.idle [])).any
      (fun first => (server.play (List.replicate 30 Sample.through) restoring first.2).any fun second => second.1.toBool &&
        (recordedRow first.2.view "app.shop" "7" 1).any (fun row => row.column "opens" = time "10:00:00.123456") &&
          (second.2.view.lookup (.row "app.shop" "7")).any fun row => row.column "opens" = time "10:00:00.123") = true := by
    -- An encoded text is long to take apart: the digests are counted before it is put together.
    simp only [opening, saving, restoring, restore, verifyHistory, history, readEvents, retained_insertion, save, saveBase,
      recordSaved, appendEvent, verifyRetained, verifyEvents_by, eventDigest_digestOf]
    decide +kernel
  obtain ⟨⟨built, session⟩, found, played⟩ := (Option.any_eq_true _ _).mp played
  obtain ⟨⟨result, final⟩, found', tested⟩ := (Option.any_eq_true _ _).mp played
  simp only [Bool.and_eq_true] at tested
  obtain ⟨⟨returned, recorded⟩, restored⟩ := tested
  cases result with
  | error error => cases returned
  | ok value =>
    refine ⟨session, final, built, Server.playWithin_runs _ (fun _ => undisturbing_of) found, Server.play_runs _ found', ?_, ?_⟩
    · simpa using (Option.any_eq_true _ _).mp recorded
    · simpa using (Option.any_eq_true _ _).mp restored

end Shops

/-- Up to milliseconds the restoration of the hours is exact. -/
theorem restore_exact_iff_milliseconds : ∃ (session final : Session (Val Shops.business)),
    (∃ row ∈ final.view.lookup (.row "app.shop" "7"), row.column "opens" = Shops.time "10:00:00.123") ∧
      (RestoredExactly (fun first second => first.json = second.json) Shops.registered "7" 1 2 session.view final.view ↔
        Survives (fun first second => first.json = second.json) Shops.registered "7" 1 session.view) := by
  obtain ⟨session, final, built, history, runs, _, restored⟩ := Shops.opened_and_restored
  have exactly := restore_exact_iff (fun first second => first.json = second.json) Truthful.nil
    Shops.opening_supported history rfl Shops.unambiguous Shops.spelled Shops.quiet runs
  obtain ⟨text, named, iff⟩ := exactly.2 rfl
  cases named
  exact ⟨session, final, restored, iff⟩

/-- The encoder cuts the microseconds of the first hours, and the restoration returns. -/
theorem microseconds_not_restored : ∃ (session final : Session (Val Shops.business)) (built : Except Err Unit),
    Supported Shops.business (fun _ => True) [] Shops.opening ∧
      Shops.server.Runs (fun _ request => Undisturbing request) Shops.opening (Session.idle []) built session ∧
      Shops.server.Runs (fun _ _ => True) Shops.restoring session (.ok ()) final ∧
        ¬RestoredExactly (fun first second => first.same second) Shops.registered "7" 1 2 session.view final.view := by
  obtain ⟨session, final, built, history, runs, ⟨recorded, here, hours⟩, ⟨restored, present, hours'⟩⟩ := Shops.opened_and_restored
  refine ⟨session, final, built, Shops.opening_supported, history, runs, fun exactly => ?_⟩
  obtain ⟨old, new, row, stored, _, present', number, here', equals, _⟩ := exactly.row
  obtain rfl : stored = 1 := Int.ofNat.inj number
  obtain rfl := Option.some.inj (present.symm.trans present')
  obtain rfl := Option.some.inj (here.symm.trans here')
  have restores : Restores Shops.registered (Shops.timeField "opens") := by
    simp [Restores, Shops.registered, Shops.config, Shops.timeField, Sample.textField]
  have same := equals (Shops.timeField "opens") (by simp [Shops.registered, Shops.config]) restores
  change (restored.column "opens").same (recorded.column "opens") = true at same
  rw [hours, hours'] at same
  exact absurd same (by decide)

end PyScoped
