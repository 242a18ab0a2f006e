import PyScoped.Foundation.Anchors
import PyScoped.Proofs.Assertions
import PyScoped.Proofs.HistoryVerification

/-! One append to a history. It may create the resource, and it writes the next
event and the head that names it; two assertions describe the store around it. -/

namespace PyScoped
open Foundation Discipline

variable {app : App} {label : String}

/-- What an appended event says, and how it continues the history of its resource. -/
structure Follows (sha256 : String → String) (resource : Resource) (event : AuditEvent) (action : String)
    (before after : Json) : Prop where
  revision : event.revision = resource.revision + 1
  scope : event.scope = resource.scope
  action : event.action = action
  before : event.before = before
  after : event.after = after
  previousDigest : event.previousDigest = resource.digest
  sealed : Sealed sha256 resource event

def Resource.advanced (resource : Resource) (event : AuditEvent) : Resource :=
  { resource with revision := event.revision, digest := event.digest }

variable {server : Server (Val app) Err} {discipline : Discipline (Val app) Err} {session : Session (Val app)}
  {assertion after : Session (Val app) → Prop} {held : List Key}

/-- The row of a resource before its first event. -/
def Resource.fresh (label objectPk scope : String) : Resource := ⟨label, objectPk, scope, 0, ""⟩

variable {objectPk : String}

theorem getOrCreateResource_holds {scope : String} (inner : Inner discipline assertion)
    (opened : session.saved ≠ []) (guarding : Holds.Guarding discipline session (.resource label objectPk))
    (here : assertion session)
    (created : ∀ session, Steady discipline session → assertion session →
      session.view.lookup (.resource label objectPk) = none →
      discipline.allowed session (.insert (.resource label objectPk) (Resource.fresh label objectPk scope) held) →
      assertion (session.write (.resource label objectPk) (some (Resource.fresh label objectPk scope)))) :
    discipline.Holds server (Returns fun _ => assertion) (getOrCreateResource label objectPk scope held : Db app Unit)
      session := by
  have getting {session : Session (Val app)} (here : assertion session) :
      discipline.Holds server (Returns fun _ => assertion)
        (Tx.get (V := Val app) (.resource label objectPk) : Db app _) session :=
    Holds.get fun committed moves whole =>
      ⟨fun _ => trivial, inner.moved session committed ⟨whole.guarded, whole.nested, whole.opened⟩ moves here⟩
  refine (getting here).andThen fun found second framed here => ?_
  cases found with
  | some resource => exact Holds.pure here
  | none =>
    have opened' : second.saved ≠ [] := framed.saved ▸ opened
    have inserting : discipline.Holds server (fun _ => assertion) (Tx.atomic (Tx.insert (V := Val app)
        (.resource label objectPk) (Resource.fresh label objectPk scope) held : Db app Unit)) second := by
      refine (inner.atomic inner opened' here fun third nested locks here => ?_).weaken fun result _ _ reached => by
        cases result <;> exact reached
      have guarding' : Holds.Guarding discipline third (.resource label objectPk) :=
        guarding.imp_right fun held => locks (framed.locks opened held)
      refine Holds.insert guarding' fun committed moves whole allowed => ⟨fun _ => trivial, fun absent => ?_⟩
      exact created _ ⟨whole, nested, moves.kept⟩
        (inner.moved third committed ⟨whole.guarded, whole.nested, whole.opened⟩ moves here) absent allowed
    refine inserting.tryCatch (fun _ _ _ reached => reached) fun error third _ here => ?_
    change discipline.Holds server _ (if _ then _ else _) _
    split
    · refine (getting here).andThen fun found _ _ here => ?_
      cases found with
      | some resource => exact Holds.pure here
      | none => exact Holds.raise trivial
    · exact Holds.raise trivial

/-- The head of a locked resource stays as it was read. -/
structure Headed (discipline : Discipline (Val app) Err) (assertion : Session (Val app) → Prop) (label objectPk : String)
    (resource : Resource) (session : Session (Val app)) : Prop where
  here : assertion session
  head : session.view.lookup (.resource label objectPk) = some resource
  held : discipline.guard (.resource label objectPk) ∈ session.current.locks

theorem Headed.moved {resource : Resource} (inner : Inner discipline assertion)
    (headed : Headed discipline assertion label objectPk resource session) {committed : Log (Val app)}
    (whole : session.Whole discipline.guard) (moves : discipline.Moves session committed) :
    Headed discipline assertion label objectPk resource (session.seeing committed) :=
  ⟨inner.moved session committed whole moves headed.here, ((moves.lookup whole _).1 headed.held).trans headed.head, headed.held⟩

theorem lockResource_headed (inner : Inner discipline assertion)
    (guarding : Holds.Guarding discipline session (.resource label objectPk)) (here : assertion session) :
    discipline.Holds server (Returns fun (found : Option Resource) final => ∀ resource, found = some resource →
        Headed discipline assertion label objectPk resource final)
      (Tx.lock (V := Val app) (.resource label objectPk) : Db app _) session := by
  refine Holds.lock fun committed moves whole => ⟨fun _ => trivial, fun _ _ found => (by cases found), ?_⟩
  intro resource present resource' found
  obtain rfl := Option.some.inj found
  have seen := inner.moved session committed ⟨whole.guarded, whole.nested, whole.opened⟩ moves here
  refine ⟨inner.locked _ _ seen, present, ?_⟩
  rcases guarding with own | held
  · rw [own]
    exact List.mem_cons_self
  · exact List.mem_cons_of_mem _ held

/-- The event and then the head, in two statements between which others may commit. -/
theorem writeEvent_holds {resource : Resource} {event : AuditEvent} (inner : Inner discipline assertion)
    (guarded : discipline.guard (.event label objectPk event.revision) = discipline.guard (.resource label objectPk))
    (opened : session.saved ≠ []) (headed : Headed discipline assertion label objectPk resource session)
    (appended : ∀ session, Steady discipline session → assertion session →
      session.view.lookup (.resource label objectPk) = some resource →
      session.view.lookup (.event label objectPk event.revision) = none →
      (∃ session', discipline.allowed session' (.insert (.event label objectPk event.revision) event held)) →
      after ((session.write (.event label objectPk event.revision) (some event)).write (.resource label objectPk)
        (some (resource.advanced event)))) :
    discipline.Holds server (Returns fun _ => after)
      ((Tx.insert (V := Val app) (.event label objectPk event.revision) event held : Db app Unit).bind fun _ =>
        (Tx.update (V := Val app) (.resource label objectPk)
          (fun head => .ok ((head : Resource).advanced event)) held true : Db app Bool).bind fun matched =>
            if matched then .pure () else .raise (.databaseError "Save with update_fields did not affect any rows."))
      session := by
  have inserting : discipline.Holds server (Returns fun _ final => ∃ earlier : Session (Val app),
      final = earlier.write (.event label objectPk event.revision) (some event) ∧ earlier.Whole discipline.guard ∧
        earlier.saved ≠ [] ∧ Headed discipline assertion label objectPk resource earlier ∧
        earlier.view.lookup (.event label objectPk event.revision) = none ∧
        ∃ session', discipline.allowed session' (.insert (.event label objectPk event.revision) event held))
      (Tx.insert (V := Val app) (.event label objectPk event.revision) event held : Db app Unit) session := by
    refine Holds.insert (.inr (guarded ▸ headed.held)) fun committed moves whole allowed => ⟨fun _ => trivial, fun absent => ?_⟩
    exact ⟨_, rfl, whole, opened, headed.moved inner ⟨whole.guarded, whole.nested, whole.opened⟩ moves, absent, _, allowed⟩
  refine inserting.andThen fun _ final _ ⟨earlier, same, whole, opened, headed, absent, allowed⟩ => ?_
  subst same
  have locks : earlier.current.locks ⊆ (earlier.write (.event label objectPk event.revision) (some event)).current.locks :=
    List.subset_cons_self _ _
  have updating : discipline.Holds server (Returns fun matched final => matched = true → after final)
      (Tx.update (V := Val app) (.resource label objectPk)
        (fun head => .ok ((head : Resource).advanced event)) held true : Db app Bool)
      (earlier.write (.event label objectPk event.revision) (some event)) := by
    refine Holds.update (.inr (locks headed.held)) fun committed moves _ _ => ⟨fun _ => trivial, fun _ => Bool.noConfusion, ?_⟩
    -- The others moved between the two statements; seen from the first one, they moved before both.
    have moves' : discipline.Moves earlier committed :=
      ⟨moves.kept, moves.alone, fun key held => moves.guarded key (locks held)⟩
    have headed' := headed.moved inner whole moves'
    intro old new present changed _
    cases changed
    have head : (earlier.seeing committed).view.lookup (.resource label objectPk) = some old :=
      (Log.lookup_cons_ne _ _ Key.noConfusion).symm.trans present
    obtain rfl := Option.some.inj (head.symm.trans headed'.head)
    refine appended (earlier.seeing committed) ⟨⟨whole.guarded, whole.nested, whole.opened⟩, opened, moves.kept⟩ headed'.here headed'.head ?_ allowed
    exact ((moves'.lookup whole _).1 (guarded ▸ headed.held)).trans absent
  refine updating.andThen fun matched last _ reached => ?_
  cases matched with
  | true => exact Holds.pure (reached rfl)
  | false => exact Holds.raise trivial

theorem appendEvent_holds {config : Registration (app.model label)} {row : Loaded app label} {action : String}
    {old new : Json} {ctx : ScopeContext} (inner : Inner discipline assertion) (inner' : Inner discipline after)
    (guarded : ∀ revision, discipline.guard (.event label row.1 revision) = discipline.guard (.resource label row.1))
    (opened : session.saved ≠ []) (guarding : Holds.Guarding discipline session (.resource label row.1))
    (here : assertion session)
    (created : ∀ session scope, Steady discipline session → assertion session →
      session.view.lookup (.resource label row.1) = none →
      discipline.allowed session (.insert (.resource label row.1) (Resource.fresh label row.1 scope) held) →
      assertion (session.write (.resource label row.1) (some (Resource.fresh label row.1 scope))))
    (appended : ∀ session resource event, Steady discipline session → assertion session →
      session.view.lookup (.resource label row.1) = some resource →
      session.view.lookup (.event label row.1 event.revision) = none →
      resource.scope = (row.2.column config.scopeField.attname).text →
      Follows app.sha256 resource event action old new →
      (∃ session', discipline.allowed session' (.insert (.event label row.1 event.revision) event held)) →
      after ((session.write (.event label row.1 event.revision) (some event)).write (.resource label row.1)
        (some (resource.advanced event)))) :
    discipline.Holds server (Returns fun _ => after) (appendEvent config row action old new ctx held) session := by
  refine (inner.atomic inner' opened here fun session opened' locks here => ?_).weaken fun result _ _ reached => by
    cases result with
    | ok => exact reached
    | error => trivial
  refine Holds.lift fun objectPk identified => Holds.lift fun scope located => ?_
  obtain rfl : objectPk = row.1 := (identity_ok identified).1.trans row.2.keyed
  have guarding' : Holds.Guarding discipline session (.resource label row.1) := guarding.imp_right fun held => locks held
  refine (getOrCreateResource_holds inner opened' guarding' here
    (fun session steady here absent allowed => created session scope steady here absent allowed)).andThen
    fun _ second framed here => ?_
  refine (lockResource_headed inner (guarding'.imp_right fun held => framed.locks opened' held) here).andThen
    fun found third framed' headed => ?_
  cases found with
  | none => exact Holds.raise trivial
  | some resource =>
    have headed := headed resource rfl
    change discipline.Holds server _ (if _ then _ else _) _
    split
    · exact Holds.raise trivial
    next same =>
      have asking : discipline.Holds server (Returns fun _ => Headed discipline assertion label row.1 resource)
          (Tx.ask : Db app Oracle) third := by
        refine Holds.ask fun committed moves whole result => ?_
        cases result with
        | ok => exact headed.moved inner ⟨whole.guarded, whole.nested, whole.opened⟩ moves
        | error => trivial
      refine asking.andThen fun oracle fourth framed'' headed => Holds.lift fun digest digested => ?_
      have opened'' : fourth.saved ≠ [] := by rw [framed''.saved, framed'.saved, framed.saved]; exact opened'
      refine writeEvent_holds inner (guarded _) opened'' headed fun session steady here head absent allowed => ?_
      refine appended session resource _ steady here head absent ?_ ⟨rfl, ?_, rfl, rfl, rfl, rfl, ?_⟩ allowed
      · exact (not_not.mp same).trans (identity_ok located).1
      · exact (not_not.mp same).symm
      · exact digested.trans rfl

end PyScoped
