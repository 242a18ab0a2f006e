import PyScoped.Core.Client

/-! What an assertion has to withstand so that every supported program keeps it.
The assertion speaks about a session and about the rows in flight: a row is read,
then written, then recorded, and a row whose deletion is recorded still has to go.
The control flow of the operations is followed once, for every such assertion. -/

namespace PyScoped
open Foundation

variable {app : App}

inductive Phase where
  | read
  | written
  | condemned
  deriving DecidableEq

/-- A row in flight, with what was there when it was read. -/
structure Entry (app : App) where
  label : String
  pk : String
  before : Option (Row (app.model label) pk)
  phase : Phase

def Entry.key (entry : Entry app) : Key := .row entry.label entry.pk

abbrev flying (flight : List (Entry app)) : List Key := flight.map Entry.key

/-- The row passes the scope check of a context that may be entered. -/
def Checked (entered : Option Active → Prop) {label : String} (config : Registration (app.model label))
    (column : Columns) : Prop :=
  ∃ ctx : Active, entered (some ctx) ∧ ∃ scope, checkScope config (.value (column config.scopeField.attname))
    ctx.toScopeContext = .ok scope

/-- What is known about a session when a statement inside a block is answered. -/
structure Steady (discipline : Discipline (Val app) Err) (session : Session (Val app)) : Prop where
  whole : session.Whole discipline.guard
  opened : session.saved ≠ []
  kept : discipline.kept session.committed

structure Upkeep (app : App) (server : Server (Val app) Err) (discipline : Discipline (Val app) Err)
    (entered : Option Active → Prop) where
  own : ∀ label pk, discipline.guard (.row label pk) = .row label pk
  holds : List (Entry app) → Session (Val app) → Prop
  /-- What is known of a row once its relations were checked. -/
  related : (label : String) → Loaded app label → Session (Val app) → Prop
  invariant : ∀ flight, discipline.Invariant (holds flight)
  locked : ∀ flight session key, holds flight session → holds flight (session.hold key)
  readPresent : ∀ {flight session label pk} {row : Row (app.model label) pk}, Steady discipline session →
    holds flight session → session.view.lookup (.row label pk) = some row →
    Discipline.Holds.Certain discipline session (.row label pk) → holds (⟨label, pk, some row, .read⟩ :: flight) session
  readRelied : ∀ {flight session label pk} {row : Row (app.model label) pk} {wanted}, Steady discipline session →
    holds flight session → discipline.allowed session (.scan wanted true) →
    ⟨.row label pk, row⟩ ∈ session.view.entries.filter (wanted session.view.entries) →
    holds (⟨label, pk, some row, .read⟩ :: flight) session
  readAbsent : ∀ {flight session label pk}, Steady discipline session → holds flight session →
    (Discipline.Holds.Certain discipline session (.row label pk) → session.view.lookup (.row label pk) = none) →
    holds (⟨label, pk, none, .read⟩ :: flight) session
  update : ∀ {front flight session label pk} {config : Registration (app.model label)}
      {before : Option (Row (app.model label) pk)} {change : Row (app.model label) pk → Except Err (Row (app.model label) pk)}
      {old new : Row (app.model label) pk} {held seen}, Steady discipline session →
    app.registration label = some config → (Key.row label pk ∈ flying flight → Key.row label pk ∈ held) →
    Key.row label pk ∉ flying front → holds (front ++ ⟨label, pk, before, .read⟩ :: flight) session →
    discipline.allowed session (.update (.row label pk) change held seen) → seen = before.isSome →
    session.view.lookup (.row label pk) = some old → change old = .ok new →
    ((∀ row ∈ before, Checked entered config row.column) ∨
      new.column config.scopeField.attname = old.column config.scopeField.attname) →
    holds (front ++ ⟨label, pk, before, .written⟩ :: flight) (session.write (.row label pk) (some new))
  /-- An UPDATE passed over a row that had been read. -/
  unmatched : ∀ {front flight session label pk} {row : Row (app.model label) pk}, Steady discipline session →
    Key.row label pk ∉ flying front → holds (front ++ ⟨label, pk, some row, .read⟩ :: flight) session →
    (Discipline.Holds.Certain discipline session (.row label pk) → session.view.lookup (.row label pk) = none) →
    holds (front ++ ⟨label, pk, some row, .written⟩ :: flight) session
  insert : ∀ {flight session label pk} {config : Registration (app.model label)}
      {before : Option (Row (app.model label) pk)} {new : Row (app.model label) pk} {held}, Steady discipline session →
    app.registration label = some config → (Key.row label pk ∈ flying flight → Key.row label pk ∈ held) →
    holds (⟨label, pk, before, .read⟩ :: flight) session →
    discipline.allowed session (.insert (.row label pk) new held) → session.view.lookup (.row label pk) = none →
    holds (⟨label, pk, before, .written⟩ :: flight) (session.write (.row label pk) (some new))
  drop : ∀ {front flight session label pk} {before : Option (Row (app.model label) pk)} {phase},
    Steady discipline session → Key.row label pk ∉ flying front → phase ≠ .written →
    holds (front ++ ⟨label, pk, before, phase⟩ :: flight) session →
    (Discipline.Holds.Certain discipline session (.row label pk) → session.view.lookup (.row label pk) = none) →
    holds (front ++ flight) session
  erase : ∀ {front flight session label pk} {config : Registration (app.model label)}
      {before : Option (Row (app.model label) pk)} {phase} {old : Row (app.model label) pk} {held seen},
    Steady discipline session → app.registration label = some config →
    (Key.row label pk ∈ flying flight → Key.row label pk ∈ held) → Key.row label pk ∉ flying front →
    phase = (if before.isSome then .condemned else .read) →
    holds (front ++ ⟨label, pk, before, phase⟩ :: flight) session →
    discipline.allowed session (.delete (.row label pk) held seen) → seen = before.isSome →
    session.view.lookup (.row label pk) = some old → holds (front ++ flight) (session.write (.row label pk) none)
  eraseForeign : ∀ {flight session label pk}, app.registration label = none → holds flight session →
    holds flight (session.write (.row label pk) none)
  relations : ∀ {flight session label} {config : Registration (app.model label)} {row : Loaded app label} {before phase}
      {ctx : Active}, app.registration label = some config → entered (some ctx) →
    (⟨label, row.1, before, phase⟩ : Entry app) ∈ flight → phase = .written → holds flight session →
    session.view.lookup (.row label row.1) = some row.2 →
    discipline.Holds server (Discipline.Returns fun _ final => holds flight final ∧ related label row final)
      (checkRelations config row.get ctx.toScopeContext) session
  record : ∀ {front flight session label} {config : Registration (app.model label)} {row : Loaded app label}
      {before : Option (Row (app.model label) row.1)} {action : String} {held : List Key} {ctx : Active} {old new : Json},
    session.saved ≠ [] → app.registration label = some config → entered (some ctx) → (∀ key ∈ flying flight, key ∈ held) →
    Key.row label row.1 ∉ flying front → holds (front ++ ⟨label, row.1, before, .written⟩ :: flight) session →
    (∃ scope, checkScope config (row.get config.scopeField.attname) ctx.toScopeContext = .ok scope) →
    related label row session → snapshotOf config (before.map (Sigma.mk row.1)) = .ok old →
    snapshot config row.2.column = .ok new → (action = "create" → before = none) →
    discipline.Holds server (Discipline.Returns fun _ final => holds (front ++ flight) final)
      (appendEvent config row action old new ctx.toScopeContext held) session
  condemn : ∀ {flight session label} {config : Registration (app.model label)} {row : Loaded app label}
      {held : List Key} {ctx : Active} {old : Json},
    session.saved ≠ [] → app.registration label = some config → entered (some ctx) → (∀ key ∈ flying flight, key ∈ held) →
    holds (⟨label, row.1, some row.2, .read⟩ :: flight) session →
    (∃ scope, checkScope config (row.get config.scopeField.attname) ctx.toScopeContext = .ok scope) →
    snapshot config row.2.column = .ok old →
    discipline.Holds server
      (Discipline.Returns fun _ final => holds (⟨label, row.1, some row.2, .condemned⟩ :: flight) final)
      (appendEvent config row "delete" old .null ctx.toScopeContext held) session
  baseline : ∀ {flight session label} {config : Registration (app.model label)} {row : Loaded app label}
      {held : List Key} {ctx : Active} {new : Json},
    session.saved ≠ [] → app.registration label = some config → entered (some ctx) → (∀ key ∈ flying flight, key ∈ held) →
    holds flight session → holds (⟨label, row.1, some row.2, .read⟩ :: flight) session →
    (∃ scope, checkScope config (row.get config.scopeField.attname) ctx.toScopeContext = .ok scope) →
    (∀ resource : Resource, session.view.lookup (.resource label row.1) = some resource → resource.revision = 0) →
    snapshot config row.2.column = .ok new →
    discipline.Holds server (Discipline.Returns fun _ final => holds flight final)
      (appendEvent config row "baseline" .null new ctx.toScopeContext held) session

namespace Upkeep
open Discipline

variable {server : Server (Val app) Err} {discipline : Discipline (Val app) Err} {entered : Option Active → Prop}
  (upkeep : Upkeep app server discipline entered) {flight : List (Entry app)} {session : Session (Val app)}

theorem reads {α : Type} {program : Db app α} (only : program.Only Reads) (here : upkeep.holds flight session) :
    discipline.Holds server (Always (upkeep.holds flight)) program session :=
  Holds.reads only (upkeep.invariant flight).moved (upkeep.locked flight) here

theorem reading {α β : Type} {program : Db app α} {next : α → Db app β} {post : β → Session (Val app) → Prop}
    (only : program.Only Reads) (here : upkeep.holds flight session)
    (onward : ∀ value final, final.saved = session.saved → upkeep.holds flight final →
      discipline.Holds server (Returns post) (next value) final) :
    discipline.Holds server (Returns post) (program.bind next) session :=
  (upkeep.reads only here).bind (fun _ _ _ _ => trivial) (fun value final framed kept => onward value final framed.saved kept)

theorem loadRow_eq {label : String} {pk : Value} (set : pk ≠ .none) (lock : Bool) :
    (loadRow label pk lock : Db app _) = (Prog.ofExcept ((app.model label).keyText pk)).bind fun text =>
      (selectRow label text lock).bind fun row => .pure (row.map (Sigma.mk text)) := by
  cases pk with
  | none => exact absurd rfl set
  | bool | int | str | other => rfl

/-- The row that an operation reads under its lock is in flight, if it has a key. -/
def Reading (label : String) (pk : Value) (result : Option (Loaded app label)) (flight : List (Entry app))
    (final : Session (Val app)) : Prop :=
  (pk = .none ∧ result = none ∧ upkeep.holds flight final) ∨
    ∃ text before, pk ≠ .none ∧ (app.model label).keyText pk = .ok text ∧ result = before.map (Sigma.mk text) ∧
      upkeep.holds (⟨label, text, before, .read⟩ :: flight) final

theorem loadRow_locked {label : String} {pk : Value} (opened : session.saved ≠ [])
    (here : upkeep.holds flight session) :
    discipline.Holds server
      (Returns fun result final => upkeep.holds flight final ∧ upkeep.Reading label pk result flight final)
      (loadRow label pk true) session := by
  by_cases unset : pk = .none
  · subst unset
    exact Holds.pure ⟨here, .inl ⟨rfl, rfl, here⟩⟩
  rw [loadRow_eq unset]
  refine Holds.lift fun text named => ?_
  have step : discipline.Holds server
      (Returns fun row final => upkeep.holds flight final ∧
        upkeep.Reading label pk (Option.map (Sigma.mk text) row) flight final)
      (selectRow label text true) session := by
    refine Holds.lock fun committed moves whole => ?_
    have steady : Steady discipline (session.seeing committed) := ⟨whole, opened, moves.kept⟩
    have seen := (upkeep.invariant flight).moved session committed ⟨whole.guarded, whole.nested, whole.opened⟩ moves here
    refine ⟨fun _ => trivial, fun absent => ⟨seen, .inr ⟨text, none, unset, named, rfl, ?_⟩⟩, fun row present => ?_⟩
    · exact upkeep.readAbsent steady seen absent
    · have held := upkeep.locked _ _ (.row label text) seen
      exact ⟨held, .inr ⟨text, some row, unset, named, rfl,
        upkeep.readPresent ⟨Server.whole_hold whole opened, opened, moves.kept⟩ held present (.inr List.mem_cons_self)⟩⟩
  exact step.andThen fun row final _ reached => Holds.pure reached

theorem loadRow_plain {label : String} {pk : Value} (here : upkeep.holds flight session) :
    discipline.Holds server
      (Returns fun result final => upkeep.holds flight final ∧ ∀ row ∈ result,
        (app.model label).keyText pk = .ok row.1 ∧ final.view.lookup (.row label row.1) = some row.2)
      (loadRow label pk false) session := by
  by_cases unset : pk = .none
  · subst unset
    exact Holds.pure ⟨here, by simp⟩
  rw [loadRow_eq unset]
  refine Holds.lift fun text named => ?_
  have step : discipline.Holds server (Returns fun row final => upkeep.holds flight final ∧
      row = final.view.lookup (.row label text)) (selectRow label text false) session := by
    refine Holds.get fun committed moves whole => ⟨fun _ => trivial, ?_, rfl⟩
    exact (upkeep.invariant flight).moved session committed ⟨whole.guarded, whole.nested, whole.opened⟩ moves here
  refine step.andThen fun row final _ selected => ?_
  obtain ⟨kept, found⟩ := selected
  refine Holds.pure ⟨kept, fun loaded member => ?_⟩
  obtain ⟨own, present, rfl⟩ := Option.map_eq_some_iff.mp member
  exact ⟨named, (present ▸ found).symm⟩

end Upkeep
end PyScoped
