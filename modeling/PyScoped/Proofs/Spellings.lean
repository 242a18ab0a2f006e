import PyScoped.Proofs.Restorations

/-! Spellings of a primary key. The lookup of a row takes every spelling to the
key as the column stores it; the readers of its history take the argument as it
is spelled, so they find the row's history under one spelling alone. -/

namespace PyScoped
open Foundation Discipline

section Keys

variable {app : App} {label : String} {server : Server (Val app) Err} {env : Env}
  {config : Registration (app.model label)} {row : Loaded app label} {pk : Value}

/-- An argument that the lookup takes to the key of the row, which is not null. -/
structure Denotes (row : Loaded app label) (pk : Value) : Prop where
  set : pk ≠ .none
  keyed : row.pk ≠ .none
  named : (app.model label).keyText pk = .ok row.1

/-- The row is stored, and every history is valid. -/
structure Stores (row : Loaded app label) (session : Session (Val app)) : Prop where
  whole : session.Whole historyGuard
  present : session.view.lookup (.row label row.1) = some row.2
  valid : HistoriesValid session

/-- What is asked with the argument is asked of the history that the key of the
row names, and that is the one that its events are appended to. -/
structure Addresses (server : Server (Val app) Err) (config : Registration (app.model label)) (row : Loaded app label)
    (pk : Value) : Prop where
  reads : ∀ env session result final, Stores row session →
    (server.Runs (fun _ _ => True) (history env config pk) session result final ↔
      server.Runs (fun _ _ => True) (history env config row.pk) session result final)
  verifies : ∀ env session result final, Stores row session →
    (server.Runs (fun _ _ => True) (verifyHistory env config pk) session result final ↔
      server.Runs (fun _ _ => True) (verifyHistory env config row.pk) session result final)
  restores : ∀ env handlers revision expectedRevision session result final, Stores row session →
    (server.Runs (fun _ _ => True) (restore env handlers config pk revision expectedRevision) session result final ↔
      server.Runs (fun _ _ => True) (restore env handlers config row.pk revision expectedRevision) session result final)
  recorded : ∀ env action old new ctx held session appended events final, Stores row session → session.saved ≠ [] →
    server.Runs (fun _ _ => True) (appendEvent config row action old new ctx held) session (.ok ()) appended →
    server.Runs (fun _ _ => True) (history env config pk) appended (.ok events) final →
      ∃ event ∈ events, event.action = action ∧ event.before = old ∧ event.after = new

section Respelled

variable (same : identity pk = identity row.pk)

include same

theorem findResource_respelled : findResource env config pk = findResource env config row.pk := by
  unfold findResource
  rw [same]

theorem history_respelled : history env config pk = history env config row.pk := by
  unfold history
  rw [findResource_respelled same]

theorem verifyHistory_respelled : verifyHistory env config pk = verifyHistory env config row.pk := by
  unfold verifyHistory
  rw [findResource_respelled same]

theorem restore_respelled {handlers : Handlers app} {revision expectedRevision : Int} (denotes : Denotes row pk) :
    restore env handlers config pk revision expectedRevision =
      restore env handlers config row.pk revision expectedRevision := by
  have loading : (loadRow label pk true : Db app _) = loadRow label row.pk true := by
    rw [Upkeep.loadRow_eq denotes.set, Upkeep.loadRow_eq denotes.keyed, denotes.named, row.keyText]
  unfold restore
  rw [loading, findResource_respelled same, verifyHistory_respelled same, history_respelled same]

end Respelled

theorem recordedUnder_valid {log : Log (Val app)} {objectPk : String} {resource : Resource}
    (valid : HistoryAt app.sha256 log label objectPk) (present : log.lookup (.resource label objectPk) = some resource)
    {event : AuditEvent} {revision : Nat} (stored : log.lookup (.event label objectPk revision) = some event) :
    event ∈ recordedUnder log label objectPk := by
  obtain ⟨events, valid⟩ := (historyAt_some present).mp valid
  unfold recordedUnder
  rw [present]
  change event ∈ retained label resource.objectPk log.entries
  rw [valid.named.2, retained_eq valid.retained valid.numbered]
  exact ((valid.retained revision event).mp stored).1

variable {session : Session (Val app)}

theorem history_runs {final : Session (Val app)} {events : List AuditEvent} (whole : session.Whole historyGuard)
    (runs : server.Runs (fun _ _ => True) (history env config pk) session (.ok events) final) :
    ∃ objectPk, identity pk = .ok objectPk ∧ events = recordedUnder session.view label objectPk := by
  have ends : Ends server (history env config pk) session _ := history_ends
  have runs' : server.Runs (alone app).allowed (history env config pk) session (.ok events) final := runs
  exact ((runs'.post whole trivial ends).1.2).2

theorem history_empty {objectPk : String} {ctx : Active} (entered : env.current = .ok ctx)
    (identified : identity pk = .ok objectPk) (absent : session.view.lookup (.resource label objectPk) = none)
    (choice : Oracle) :
    server.Runs (fun _ _ => True) (history env config pk) session (.ok []) session := by
  unfold history findResource
  rw [entered, identified]
  refine ⟨trivial, ⟨none, false, choice⟩, rfl, .ok none, session, ?_, rfl, rfl⟩
  simp only [Server.answer]
  rw [absent]

/-- The histories are valid, and the one of the row has an event that says so. -/
def Tells (row : Loaded app label) (action : String) (old new : Json) (log : Log (Val app)) : Prop :=
  (∀ label objectPk, HistoryAt app.sha256 log label objectPk) ∧ ∃ (resource : Resource) (event : AuditEvent),
    log.lookup (.resource label row.1) = some resource ∧ log.lookup (.event label row.1 event.revision) = some event ∧
      event.action = action ∧ event.before = old ∧ event.after = new

/-- What was appended to the row's history is in it. -/
theorem appendEvent_recorded {action : String} {old new : Json} {ctx : ScopeContext} {held : List Key}
    {appended final : Session (Val app)} {events : List AuditEvent} (stores : Stores row session)
    (opened : session.saved ≠ []) (same : identity pk = identity row.pk)
    (appends : server.Runs (fun _ _ => True) (appendEvent config row action old new ctx held) session (.ok ()) appended)
    (reading : server.Runs (fun _ _ => True) (history env config pk) appended (.ok events) final) :
    ∃ event ∈ events, event.action = action ∧ event.before = old ∧ event.after = new := by
  have inner (property : Log (Val app) → Prop) : (alone app).Inner fun other => property other.view :=
    { moved := fun other committed _ moves here => by rwa [alone_seeing moves]
      resaved := fun _ _ _ _ here => here
      locked := fun _ _ here => here }
  have kept : (alone app).Holds server (Returns fun _ final => Tells row action old new final.view)
      (appendEvent config row action old new ctx held) session := by
    refine appendEvent_holds (inner fun log => ∀ label objectPk, HistoryAt app.sha256 log label objectPk)
      (inner (Tells row action old new))
      (fun _ => rfl) opened (.inl rfl) stores.valid ?_ ?_
    · exact fun other scope _ here absent _ => HistoriesValid.fresh here absent
    · intro other resource event _ here head _ _ follows _
      refine ⟨HistoriesValid.append here head follows, resource.advanced event, event, Log.lookup_cons_self _ _ _, ?_,
        follows.action, follows.before, follows.after⟩
      rw [Session.view_write, Log.lookup_cons_ne _ _ event_ne_resource, Session.view_write, Log.lookup_cons_self]
  have runs : server.Runs (alone app).allowed (appendEvent config row action old new ctx held) session (.ok ()) appended :=
    appends
  obtain ⟨reached, whole, _⟩ := runs.post stores.whole trivial kept
  obtain ⟨valid, resource, event, present, stored, told⟩ := reached.2
  obtain ⟨objectPk, identified, rfl⟩ := history_runs whole reading
  obtain rfl : objectPk = row.1 := (identity_ok (same ▸ identified)).1.trans row.2.keyed
  exact ⟨event, recordedUnder_valid (valid _ _) present stored, told⟩

theorem Addresses.of_respelled (denotes : Denotes row pk) (same : identity pk = identity row.pk) :
    Addresses server config row pk where
  reads _ _ _ _ _ := by rw [history_respelled same]
  verifies _ _ _ _ _ := by rw [verifyHistory_respelled same]
  restores _ _ _ _ _ _ _ _ := by rw [restore_respelled same denotes]
  recorded _ _ _ _ _ _ _ _ _ _ stores opened appends reading := appendEvent_recorded stores opened same appends reading

theorem exists_unrecorded (row : Loaded app label) : ∃ session : Session (Val app), Stores row session ∧
    ∀ objectPk, session.view.lookup (.resource label objectPk) = none := by
  have empty : HistoriesValid (Session.idle ([] : Log (Val app))) := fun label objectPk =>
    (historyAt_none rfl).mpr fun _ => rfl
  have valid : HistoriesValid (Session.idle [⟨.row label row.1, some row.2⟩] : Session (Val app)) :=
    empty.writeRow
  exact ⟨_, ⟨.idle _, Log.lookup_cons_self _ _ _, valid⟩, fun objectPk => Log.lookup_cons_ne _ _ Key.noConfusion⟩

/-- The row with one recorded event, and nothing else. -/
theorem exists_recorded (row : Loaded app label) : ∃ session : Session (Val app), Stores row session ∧
    (∀ objectPk, objectPk ≠ row.1 → session.view.lookup (.resource label objectPk) = none) ∧
      recordedUnder session.view label row.1 ≠ [] := by
  let fresh := Resource.fresh label row.1 "s"
  let blank : AuditEvent :=
    { revision := 1, scope := "s", actor := "alice", action := "create", before := .null, after := .null
      occurredAt := ⟨2026, 1, 2, 3, 4, 5, 6789, by decide⟩, reason := "", requestId := "", previousDigest := ""
      digest := "" }
  let event := { blank with digest := app.sha256 (String.ofList (eventPayload fresh blank).sortKeys.render) }
  have finite : (eventPayload fresh event).finite = true := rfl
  have sealed : Sealed app.sha256 fresh event := by
    simp only [Sealed, eventDigest, encodeEvent, Json.dumps, finite, if_true, Except.map]
    rfl
  have follows : Follows app.sha256 fresh event "create" .null .null := ⟨rfl, rfl, rfl, rfl, rfl, rfl, sealed⟩
  have empty : HistoriesValid (Session.idle ([] : Log (Val app))) := fun label objectPk =>
    (historyAt_none rfl).mpr fun _ => rfl
  have stored : HistoriesValid (Session.idle [⟨.row label row.1, some row.2⟩] : Session (Val app)) := empty.writeRow
  have valid : HistoriesValid (Session.idle [⟨.resource label row.1, some fresh⟩, ⟨.row label row.1, some row.2⟩] :
      Session (Val app)) := stored.fresh rfl
  let log : Log (Val app) := [⟨.resource label row.1, some (fresh.advanced event)⟩,
    ⟨.event label row.1 event.revision, some event⟩, ⟨.resource label row.1, some fresh⟩, ⟨.row label row.1, some row.2⟩]
  have valid : HistoriesValid (Session.idle log) := valid.append (Log.lookup_cons_self _ _ _) follows
  have stored : log.lookup (.event label row.1 event.revision) = some event := by
    rw [Log.lookup_cons_ne _ _ event_ne_resource, Log.lookup_cons_self]
  refine ⟨Session.idle log, ⟨.idle _, ?_, valid⟩, fun objectPk ne => ?_, fun none => ?_⟩
  · change log.lookup _ = _
    rw [Log.lookup_cons_ne _ _ Key.noConfusion, Log.lookup_cons_ne _ _ Key.noConfusion, Log.lookup_cons_ne _ _ Key.noConfusion, Log.lookup_cons_self]
  · have other : Key.resource label objectPk ≠ .resource label row.1 := fun same => ne (Key.resource.inj same).2
    change log.lookup _ = _
    rw [Log.lookup_cons_ne _ _ other, Log.lookup_cons_ne _ _ Key.noConfusion, Log.lookup_cons_ne _ _ other,
      Log.lookup_cons_ne _ _ Key.noConfusion, Log.lookup_nil]
  · have member : event ∈ recordedUnder log label row.1 :=
      recordedUnder_valid (valid label row.1) (Log.lookup_cons_self _ _ _) stored
    rw [show recordedUnder log label row.1 = [] from none] at member
    cases member

theorem Addresses.respelled (addresses : Addresses server config row pk) : identity pk = identity row.pk := by
  let env := Sample.scope "s" (by decide)
  have reading {value : Value} {objectPk : String} {session : Session (Val app)} (identified : identity value = .ok objectPk)
      (absent : session.view.lookup (.resource label objectPk) = none) :
      server.Runs (fun _ _ => True) (history env config value) session (.ok []) session :=
    history_empty rfl identified absent Sample.through.oracle
  obtain ⟨alone, stores, unrecorded⟩ := exists_unrecorded row
  cases identified : identity pk with
  | ok objectPk =>
    cases own : identity row.pk with
    | error error =>
      have runs := reading identified (unrecorded _)
      obtain ⟨_, impossible, _⟩ := history_runs stores.whole ((addresses.reads _ _ _ _ stores).mp runs)
      rw [own] at impossible
      cases impossible
    | ok text =>
      obtain rfl : text = row.1 := (identity_ok own).1.trans row.2.keyed
      by_contra differs
      have ne : objectPk ≠ row.1 := fun same => differs (same ▸ rfl)
      obtain ⟨session, stores, others, recorded⟩ := exists_recorded row
      have runs := reading identified (others _ ne)
      obtain ⟨again, own', empty⟩ := history_runs stores.whole ((addresses.reads _ _ _ _ stores).mp runs)
      obtain rfl := Except.ok.inj (own.symm.trans own')
      exact recorded empty.symm
  | error error =>
    cases own : identity row.pk with
    | ok text =>
      have runs := reading own (unrecorded _)
      obtain ⟨_, impossible, _⟩ := history_runs stores.whole ((addresses.reads _ _ _ _ stores).mpr runs)
      rw [identified] at impossible
      cases impossible
    | error error' =>
      have raising {value : Value} {error : Err} (identified : identity value = .error error) :
          history env config value = .raise error := by
        unfold history findResource
        rw [identified]
        rfl
      have runs := addresses.reads env alone (.error error) alone stores
      rw [raising identified, raising own] at runs
      exact congrArg Except.error (Except.error.inj (runs.mp ⟨rfl, rfl⟩).1)

end Keys

namespace Invoices

/-- What `int` makes of a text of digits. -/
def readNumber (text : String) : Except Err Value :=
  if text.toList ≠ [] ∧ text.toList.all Char.isDigit then
    .ok (.int (text.toList.foldl (fun n c => 10 * n + (c.toNat - 48)) 0 : Nat))
  else .error (.valueError "Not a number.")

/-- An integer column. -/
def number (name : String) : Field where
  name := name
  attname := name
  relation := none
  toPython
    | .int value => .ok (.int value)
    | .str text => readNumber text
    | _ => .error (.valueError "Not a number.")
  store
    | .int value => .ok (.int value)
    | .str text => readNumber text
    | _ => .error (.valueError "Not a number.")
  stable {value stored} into := by
    have digits {text : String} {stored : Value} (into : readNumber text = .ok stored) : ∃ n, stored = .int n := by
      unfold readNumber at into
      split at into <;> cases into
      exact ⟨_, rfl⟩
    cases value with
    | int => cases into; rfl
    | str text =>
      obtain ⟨n, rfl⟩ := digits into
      rfl
    | none | bool | other => cases into

def model : Model where
  label := "app.invoice"
  fields := [number "id", Sample.textField "scope" none, Sample.textField "title" none]
  pk := number "id"
  pkDefault := false
  pkOrder := fun first second => first ≤ second
  pkMember := by simp
  distinct := by decide

def config : Registration model where
  scopeField := Sample.textField "scope" none
  fields := [Sample.textField "title" none]
  enforce := true
  scopeMember := by simp [model]
  scopeNotKey := Sample.scope_ne_id
  fieldsMember := by simp [model]
  nonempty := by simp

def billing : App := ⟨fun _ => model, fun _ => some config, id⟩

def server : Server (Val billing) Err := ⟨.integrityError, fun _ => .ok ()⟩

def registered : Registration (billing.model "app.invoice") := config

def env : Env := Sample.scope "s" Sample.s_valid

def invoice : Instance where
  pk := .int 7
  attr name := if name = "title" then .value (.str "one") else .value (.str "s")
  adding := true

def saving : Db billing Unit := save env Handlers.none registered invoice ⟨false, false, false, none⟩

def row : Loaded billing "app.invoice" :=
  ⟨"7", fun name => if name = "id" then .int 7 else if name = "title" then .str "one" else .str "s", rfl, by
    simp [billing, model, number, Sample.textField]⟩

theorem denotes : Denotes row (.int 7) := ⟨nofun, by simp [row, Loaded.pk, billing, model, number], rfl⟩

theorem denotes_padded : Denotes row (.str "007") :=
  ⟨nofun, by simp [row, Loaded.pk, billing, model, number], by decide +kernel⟩

end Invoices

/-- Two arguments that denote the key of a row address the history of the row,
whatever is stored, exactly where both are spelled as the column reads the key. -/
theorem history_addressed_iff {app : App} {label : String} {server : Server (Val app) Err}
    {config : Registration (app.model label)} {row : Loaded app label} {first second : Value} (denotes : Denotes row first) (denotes' : Denotes row second) :
    Addresses server config row first ∧ Addresses server config row second ↔
      identity first = identity row.pk ∧ identity second = identity row.pk := by
  constructor
  · rintro ⟨addresses, addresses'⟩
    exact ⟨addresses.respelled, addresses'.respelled⟩
  · rintro ⟨same, same'⟩
    exact ⟨.of_respelled denotes same, .of_respelled denotes' same'⟩

theorem history_addressed_iff_invoice : Addresses Invoices.server Invoices.registered Invoices.row (.int 7) ∧
    ¬Addresses Invoices.server Invoices.registered Invoices.row (.str "007") := by
  have iff := @history_addressed_iff Invoices.billing _ Invoices.server Invoices.registered Invoices.row
  refine ⟨((iff Invoices.denotes Invoices.denotes).mpr ⟨by decide +kernel, by decide +kernel⟩).1, fun padded => ?_⟩
  have same := ((iff Invoices.denotes_padded Invoices.denotes_padded).mp ⟨padded, padded⟩).1
  revert same
  decide +kernel

private theorem played {α : Type} {program : Db Invoices.billing α} {session : Session (Val Invoices.billing)}
    {test : Except Err α → Bool}
    (ran : (Invoices.server.play (List.replicate 40 Sample.through) program session).any (fun last => test last.1) = true) :
    ∃ result final, Invoices.server.Runs (fun _ _ => True) program session result final ∧ test result = true := by
  obtain ⟨⟨result, final⟩, found, passed⟩ := (Option.any_eq_true _ _).mp ran
  exact ⟨result, final, Server.play_runs _ found, passed⟩

/-- An invoice is saved. Under its number with leading zeros it is found, but its history is not. -/
private def counts (count : Nat) : Except Err (List AuditEvent) → Bool
  | .ok events => events.length = count
  | .error _ => false

private def missing : Except Err Verification → Bool
  | .ok report => report = ⟨false, 0, "No history exists."⟩
  | .error _ => false

private def conflicts : Except Err Unit → Bool
  | .ok _ => false
  | .error error => error = .historyConflict "Expected revision does not match current history."

theorem padded_number_misses : Denotes Invoices.row (.int 7) ∧ Denotes Invoices.row (.str "007") ∧
    ∃ saved : Session (Val Invoices.billing),
      Invoices.server.Runs (fun _ _ => True) Invoices.saving (Session.idle []) (.ok ()) saved ∧
      (∃ row ∈ saved.view.lookup (.row "app.invoice" "7"), row.column "id" = .int 7) ∧
      (∃ event final, Invoices.server.Runs (fun _ _ => True) (history Invoices.env Invoices.registered (.int 7)) saved
        (.ok [event]) final) ∧
      (∃ final, Invoices.server.Runs (fun _ _ => True) (history Invoices.env Invoices.registered (.str "007")) saved
        (.ok []) final) ∧
      (∃ final, Invoices.server.Runs (fun _ _ => True) (verifyHistory Invoices.env Invoices.registered (.str "007")) saved
        (.ok ⟨false, 0, "No history exists."⟩) final) ∧
      ∃ final, Invoices.server.Runs (fun _ _ => True)
        (restore Invoices.env Handlers.none Invoices.registered (.str "007") 1 1) saved
        (.error (.historyConflict "Expected revision does not match current history.")) final := by
  let choices := List.replicate 40 Sample.through
  have ran : (Invoices.server.play choices Invoices.saving (Session.idle [])).any (fun first => first.1.toBool &&
      (first.2.view.lookup (.row "app.invoice" "7")).any (fun row => row.column "id" = .int 7) &&
      (Invoices.server.play choices (history Invoices.env Invoices.registered (.int 7)) first.2).any (fun last =>
        counts 1 last.1) &&
      (Invoices.server.play choices (history Invoices.env Invoices.registered (.str "007")) first.2).any (fun last =>
        counts 0 last.1) &&
      (Invoices.server.play choices (verifyHistory Invoices.env Invoices.registered (.str "007")) first.2).any (fun last =>
        missing last.1) &&
      (Invoices.server.play choices (restore Invoices.env Handlers.none Invoices.registered (.str "007") 1 1) first.2).any
        (fun last => conflicts last.1)) = true := by
    simp only [restore, verifyHistory, history, readEvents, retained_insertion]
    decide +kernel
  obtain ⟨⟨result, saved⟩, found, tested⟩ := (Option.any_eq_true _ _).mp ran
  simp only [Bool.and_eq_true] at tested
  obtain ⟨⟨⟨⟨⟨returned, stored⟩, one⟩, none⟩, unverified⟩, unrestored⟩ := tested
  obtain ⟨events, final, reads, counted⟩ := played one
  obtain ⟨events', final', reads', counted'⟩ := played none
  obtain ⟨report, final'', verifies, missed⟩ := played unverified
  obtain ⟨outcome, last, restores, conflicted⟩ := played unrestored
  refine ⟨Invoices.denotes, Invoices.denotes_padded, saved, ?_, ?_, ?_, ?_, ?_, ?_⟩
  · cases result with
    | ok => exact Server.play_runs _ found
    | error => cases returned
  · simpa using (Option.any_eq_true _ _).mp stored
  · cases events with
    | ok events =>
      obtain ⟨event, rfl⟩ := List.length_eq_one_iff.mp (of_decide_eq_true counted)
      exact ⟨event, final, reads⟩
    | error => cases counted
  · cases events' with
    | ok events =>
      obtain rfl := List.length_eq_zero_iff.mp (of_decide_eq_true counted')
      exact ⟨final', reads'⟩
    | error => cases counted'
  · cases report with
    | ok report =>
      obtain rfl := of_decide_eq_true missed
      exact ⟨final'', verifies⟩
    | error => cases missed
  · cases outcome with
    | ok => cases conflicted
    | error error =>
      obtain rfl := of_decide_eq_true conflicted
      exact ⟨last, restores⟩

end PyScoped
