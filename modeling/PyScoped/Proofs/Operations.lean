import PyScoped.Proofs.Assertions

/-! Every supported program keeps an assertion that has an upkeep. Each operation
is followed once along its control flow; a raised exception leaves the enclosing
block, so only the way to a regular return matters. -/

namespace PyScoped
open Foundation Discipline

variable {app : App}

private theorem lockFirst_reads {label : String} {wanted : Loaded app label → Bool} (texts : List String) :
    (lockFirst label wanted texts).Only Reads := by
  induction texts with
  | nil => trivial
  | cons text texts ih =>
    refine Prog.Only.bind (Prog.Only.perform trivial) fun row => ?_
    cases row with
    | none => exact ih
    | some row =>
      change Prog.Only Reads (if wanted ⟨text, row⟩ then _ else _)
      split
      · trivial
      · exact ih

theorem checkRelation_reads (field : Field) (attr : Attr) (ctx : ScopeContext) :
    (checkRelation field attr ctx : Db app Unit).Only Reads := by
  unfold checkRelation
  split
  · trivial
  · trivial
  · split
    · trivial
    · split
      · refine Prog.Only.bind (Prog.Only.bind (Prog.Only.perform trivial) fun _ => lockFirst_reads _) fun related => ?_
        cases related with
        | none => trivial
        | some row => exact Prog.Only.bind (Prog.Only.ofExcept _) fun _ => trivial
      · trivial

theorem checkRelations_reads {model : Model} (config : Registration model) (get : String → Attr) (ctx : ScopeContext) :
    (checkRelations config get ctx : Db app Unit).Only Reads := by
  unfold checkRelations
  split
  · exact Prog.Only.forM fun field _ => checkRelation_reads field _ ctx
  · trivial

theorem checkSaved_reads {label : String} (config : Registration (app.model label)) (before : Option (Loaded app label))
    (inst : Instance) (ctx : ScopeContext) : (checkSaved config before inst ctx).Only Reads :=
  Prog.Only.bind (Prog.Only.ofExcept _) fun _ => Prog.Only.bind (Prog.Only.ofExcept _) fun _ =>
    Prog.Only.bind (checkRelations_reads _ _ _) fun _ => Prog.Only.ofExcept _

theorem loadRow_reads (label : String) (pk : Value) (lock : Bool) :
    (loadRow label pk lock : Db app (Option (Loaded app label))).Only Reads := by
  cases pk with
  | none => trivial
  | bool | int | str | other =>
    refine Prog.Only.bind (Prog.Only.ofExcept _) fun text => Prog.Only.bind ?_ fun _ => trivial
    cases lock <;> exact Prog.Only.perform trivial

theorem findResource_reads (env : Env) {label : String} (config : Registration (app.model label)) (pk : Value) :
    (findResource env config pk).Only Reads := by
  refine Prog.Only.bind (Prog.Only.ofExcept _) fun ctx => Prog.Only.bind (Prog.Only.ofExcept _) fun objectPk =>
    Prog.Only.bind (Prog.Only.perform trivial) fun found => ?_
  cases found with
  | none => trivial
  | some resource =>
    refine Prog.Only.bind (Prog.Only.ofExcept _) fun own => Prog.Only.bind (Prog.Only.ofExcept _) fun wanted => ?_
    change Prog.Only Reads (if own.same wanted then _ else _)
    split <;> trivial

theorem readEvents_reads (label objectPk : String) : (readEvents label objectPk : Db app _).Only Reads :=
  Prog.Only.bind (Prog.Only.perform trivial) fun _ => trivial

theorem history_reads (env : Env) {label : String} (config : Registration (app.model label)) (pk : Value) :
    (history env config pk).Only Reads := by
  refine Prog.Only.bind (findResource_reads env config pk) fun resource => ?_
  cases resource with
  | none => trivial
  | some resource => exact readEvents_reads _ _

theorem lockAll_reads {label : String} {wanted : Loaded app label → Bool} (texts : List String) :
    (lockAll label wanted texts).Only Reads := by
  induction texts with
  | nil => trivial
  | cons text texts ih =>
    refine Prog.Only.bind (Prog.Only.perform trivial) fun row => Prog.Only.bind ih fun rows => ?_
    cases row <;> trivial

variable {pk : Value}

namespace Upkeep

variable {server : Server (Val app) Err} {discipline : Discipline (Val app) Err} {entered : Option Active → Prop}
  (upkeep : Upkeep app server discipline entered) {flight : List (Entry app)} {session : Session (Val app)}

/-- Handlers keep the assertion while the rows they are told of are in flight. -/
structure Saving (handlers : Handlers app) : Prop where
  preSave : ∀ {held inst flight session}, flying flight ⊆ held → upkeep.holds flight session →
    discipline.Holds server (Always (upkeep.holds flight)) (handlers.preSave held inst) session
  postSave : ∀ {held inst flight session}, flying flight ⊆ held → upkeep.holds flight session →
    discipline.Holds server (Always (upkeep.holds flight)) (handlers.postSave held inst) session

structure Deleting (handlers : Handlers app) : Prop where
  preDelete : ∀ {early held label pk flight session}, flying flight ⊆ held → upkeep.holds flight session →
    discipline.Holds server (Always (upkeep.holds flight)) (handlers.preDelete early held label pk) session
  postDelete : ∀ {held label pk flight session}, flying flight ⊆ held → upkeep.holds flight session →
    discipline.Holds server (Always (upkeep.holds flight)) (handlers.postDelete held label pk) session

theorem block {α : Type} {body : Db app α} (here : upkeep.holds flight session)
    (run : ∀ session, upkeep.holds flight session → session.saved ≠ [] →
      discipline.Holds server (Returns fun _ final => upkeep.holds flight final) body session) :
    discipline.Holds server (Always (upkeep.holds flight)) (Tx.atomic body) session :=
  (upkeep.invariant flight).atomic here run (fun _ _ reached => reached) (fun _ _ _ kept => kept) (fun _ _ kept => kept)

theorem lifted {α β : Type} {computed : Except Err α} {next : α → Db app β} (here : upkeep.holds flight session)
    (onward : ∀ value, computed = .ok value →
      discipline.Holds server (Always (upkeep.holds flight)) (next value) session) :
    discipline.Holds server (Always (upkeep.holds flight)) ((Prog.ofExcept computed).bind next) session := by
  cases computed with
  | ok value => exact onward value rfl
  | error error => exact Holds.raise here

theorem Reading.keeps {label : String} {result : Option (Loaded app label)} {α : Type} {program : Db app α}
    {upkeep : Upkeep app server discipline entered}
    (keeps : ∀ more session, (pk = .none → more = []) → (∀ entry ∈ more, rowKey app label pk = some entry.key) →
      upkeep.holds (more ++ flight) session →
      discipline.Holds server (Always (upkeep.holds (more ++ flight))) program session)
    (reading : upkeep.Reading label pk result flight session) :
    discipline.Holds server (Always (upkeep.Reading label pk result flight)) program session := by
  rcases reading with ⟨unset, none, here⟩ | ⟨text, before, set, named, same, here⟩
  · exact (keeps [] session (fun _ => rfl) (by simp) here).weaken fun _ _ _ reached => .inl ⟨unset, none, reached⟩
  · refine (keeps [⟨label, text, before, .read⟩] session (fun unset => absurd unset set) ?_ here).weaken
      fun _ _ _ reached => .inr ⟨text, before, set, named, same, reached⟩
    intro entry member
    obtain rfl := List.mem_singleton.mp member
    cases pk with
    | none => exact absurd rfl set
    | bool | int | str | other => simp only [rowKey, named]; rfl

/-- The row an operation wrote is in flight. -/
def Written (label : String) (pk : Value) (result : Option (Loaded app label)) (flight : List (Entry app))
    (final : Session (Val app)) : Prop :=
  ∃ text before, rowKey app label pk = some (.row label text) ∧ (app.model label).keyText pk = .ok text ∧
    result = before.map (Sigma.mk text) ∧ upkeep.holds (⟨label, text, before, .written⟩ :: flight) final

end Upkeep

theorem rowKey_eq {label text : String} (set : pk ≠ .none)
    (named : (app.model label).keyText pk = .ok text) : rowKey app label pk = some (.row label text) := by
  cases pk with
  | none => exact absurd rfl set
  | bool | int | str | other => simp only [rowKey, named]

variable {ctx : Active}

theorem Env.Within.active {env : Env} {entered : Option Active → Prop} {held : List Key}
    (within : env.Within entered held) (found : env.current = .ok ctx) : entered (some ctx) := by
  have context := within.context
  unfold Env.current currentContext at found
  split at found
  next present =>
    cases found
    rwa [present] at context
  · cases found

namespace Upkeep

variable {server : Server (Val app) Err} {discipline : Discipline (Val app) Err} {entered : Option Active → Prop}
  {upkeep : Upkeep app server discipline entered} {flight : List (Entry app)} {session : Session (Val app)}
  {label : String} {config : Registration (app.model label)} {result : Option (Loaded app label)} {held : List Key}
  {inst : Instance} {options : SaveOptions} {handlers : Handlers app} {env : Env}

theorem insert_written {text : String} {before : Option (Row (app.model label) text)} {row : Row (app.model label) text}
    (registered : app.registration label = some config) (opened : session.saved ≠ []) (covered : flying flight ⊆ held)
    (ready : ∀ committed, discipline.Moves session committed → (session.seeing committed).Whole discipline.guard →
      (session.seeing committed).view.lookup (.row label text) = none →
      upkeep.holds (⟨label, text, before, .read⟩ :: flight) (session.seeing committed)) :
    discipline.Holds server (Returns fun _ final => upkeep.holds (⟨label, text, before, .written⟩ :: flight) final)
      (Tx.insert (V := Val app) (.row label text) row held : Db app Unit) session := by
  refine Holds.insert (.inl (upkeep.own _ _)) fun committed moves whole allowed => ⟨fun _ => trivial, fun absent => ?_⟩
  have here := ready committed moves whole absent
  exact upkeep.insert ⟨whole, opened, moves.kept⟩ registered (fun member => covered member) here allowed absent

theorem withKey_eq (set : inst.pk ≠ .none) : (withKey inst : Db app Instance) = .pure inst := by
  unfold withKey
  cases pk : inst.pk with
  | none => exact absurd pk set
  | bool | int | str | other => rfl

/-- A key that is set names an entry in flight. A fresh one names none yet: nobody
has read its row, which counts as missing when the INSERT goes through. -/
theorem withKey_ready (opened : session.saved ≠ []) (reading : upkeep.Reading label inst.pk result flight session) :
    discipline.Holds server (Returns fun keyed final => keyed.pk ≠ .none ∧ ∀ text,
      (app.model label).keyText keyed.pk = .ok text → ∃ before, result = before.map (Sigma.mk text) ∧
        ∀ committed, discipline.Moves final committed → (final.seeing committed).Whole discipline.guard →
          (final.seeing committed).view.lookup (.row label text) = none →
          upkeep.holds (⟨label, text, before, .read⟩ :: flight) (final.seeing committed))
      (withKey inst) session := by
  rcases reading with ⟨unset, rfl, here⟩ | ⟨text, before, set, named, rfl, here⟩
  · have asked : discipline.Holds server (Always (upkeep.holds flight)) (Tx.ask : Db app Oracle) session :=
      upkeep.reads (Prog.Only.perform (by trivial)) here
    unfold withKey
    rw [unset]
    refine asked.bind (fun _ _ _ _ => trivial) fun oracle final framed kept => Holds.pure ⟨oracle.set, ?_⟩
    refine fun text _ => ⟨none, rfl, fun committed moves whole absent => ?_⟩
    have steady : Steady discipline (final.seeing committed) := ⟨whole, framed.saved ▸ opened, moves.kept⟩
    exact upkeep.readAbsent steady ((upkeep.invariant flight).moved final committed
      ⟨whole.guarded, whole.nested, whole.opened⟩ moves kept) fun _ => absent
  · rw [withKey_eq set]
    refine Holds.pure ⟨set, fun text' named' => ?_⟩
    obtain rfl := Except.ok.inj (named.symm.trans named')
    refine ⟨before, rfl, fun committed moves whole _ => ?_⟩
    exact (upkeep.invariant _).moved session committed ⟨whole.guarded, whole.nested, whole.opened⟩ moves here

theorem insertRow_written (registered : app.registration label = some config) (opened : session.saved ≠ [])
    (covered : flying flight ⊆ held) (reading : upkeep.Reading label inst.pk result flight session) :
    discipline.Holds server (Returns fun saved final => upkeep.Written label saved.pk result flight final)
      (insertRow label inst held) session := by
  refine (withKey_ready opened reading).andThen fun keyed final framed ⟨set, ready⟩ =>
    Holds.lift fun text named => Holds.lift fun row made => ?_
  obtain ⟨before, same, ready⟩ := ready text named
  refine (insert_written registered (framed.saved ▸ opened) covered ready).andThen fun _ last _ written => ?_
  exact Holds.pure ⟨text, before, rowKey_eq set named, named, same, written⟩

theorem updateRow_written {fields : List Field} {seen : Bool} (registered : app.registration label = some config)
    (opened : session.saved ≠ []) (covered : flying flight ⊆ held) (set : inst.pk ≠ .none) (told : seen = result.isSome)
    (checked : ∀ row ∈ result, Checked entered config row.2.column)
    (reading : upkeep.Reading label inst.pk result flight session) :
    discipline.Holds server (Returns fun updated final => if updated then upkeep.Written label inst.pk result flight final
      else upkeep.Reading label inst.pk result flight final) (updateRow label inst fields held seen) session := by
  rcases reading with ⟨unset, _, _⟩ | ⟨text, before, _, named, rfl, here⟩
  · exact absurd unset set
  unfold updateRow
  rw [named]
  refine Holds.lift fun text' same => ?_
  obtain rfl := Except.ok.inj same
  refine Holds.update (.inl (upkeep.own _ _)) fun committed moves whole allowed => ?_
  have here' := (upkeep.invariant _).moved session committed ⟨whole.guarded, whole.nested, whole.opened⟩ moves here
  refine ⟨fun _ => trivial, fun _ => .inr ⟨text, before, set, named, rfl, here'⟩, fun old new present changed => ?_⟩
  have told' : seen = before.isSome := by simpa using told
  have apart : Key.row label text ∉ flying ([] : List (Entry app)) := List.not_mem_nil
  exact ⟨text, before, rowKey_eq set named, named, rfl, upkeep.update ⟨whole, opened, moves.kept⟩ registered
    (fun member => covered member) apart here' allowed told' present changed
    (.inl fun row member => checked _ (Option.mem_map_of_mem _ member))⟩

theorem saveTable_written {seen : Bool} (registered : app.registration label = some config) (opened : session.saved ≠ [])
    (covered : flying flight ⊆ held) (told : seen = result.isSome)
    (checked : ∀ row ∈ result, Checked entered config row.2.column)
    (reading : upkeep.Reading label inst.pk result flight session) :
    discipline.Holds server (Returns fun saved final => upkeep.Written label saved.pk result flight final)
      (saveTable label inst options held seen) session := by
  unfold saveTable
  simp only
  split
  · split
    · exact Holds.raise trivial
    · exact insertRow_written registered opened covered reading
  next set =>
    split
    · exact insertRow_written registered opened covered reading
    refine (updateRow_written registered opened covered set told checked reading).andThen
      fun updated final framed reached => ?_
    cases updated with
    | true => exact Holds.pure reached
    | false =>
      rw [if_neg Bool.false_ne_true]
      split
      · exact Holds.raise trivial
      · exact insertRow_written registered (framed.saved ▸ opened) covered reached

theorem inFlight_covers {flight more : List (Entry app)} (covered : flying flight ⊆ held)
    (named : ∀ entry ∈ more, rowKey app label pk = some entry.key) :
    flying (more ++ flight) ⊆ inFlight app label pk held := by
  intro key member
  simp only [flying, List.map_append, List.mem_append] at member
  rcases member with inside | outside
  · obtain ⟨entry, member, rfl⟩ := List.mem_map.mp inside
    exact List.mem_append_left _ (by simp [named entry member])
  · exact List.mem_append_right _ (covered outside)

theorem djangoSave_written {seen : Bool} (saving : upkeep.Saving handlers)
    (registered : app.registration label = some config) (opened : session.saved ≠ [])
    (covered : flying flight ⊆ held) (told : seen = result.isSome)
    (checked : ∀ row ∈ result, Checked entered config row.2.column)
    (reading : upkeep.Reading label inst.pk result flight session) :
    discipline.Holds server (Returns fun saved final => upkeep.Written label saved.pk result flight final)
      (djangoSave handlers label inst options held seen) session := by
  have before : discipline.Holds server (Always (upkeep.Reading label inst.pk result flight))
      (handlers.preSave (inFlight app label inst.pk held) inst) session :=
    Reading.keeps (fun more session _ named here => saving.preSave (inFlight_covers covered named) here) reading
  refine before.bind (fun _ _ _ _ => trivial) fun attr final framed reading => ?_
  have opened' : final.saved ≠ [] := framed.saved ▸ opened
  have saves : discipline.Holds server (Returns fun saved final => upkeep.Written label saved.pk result flight final)
      (saveTable label { inst with attr := attr } options held seen) final :=
    saveTable_written registered opened' covered told checked reading
  refine saves.andThen fun saved final _ written => ?_
  obtain ⟨text, before, key, named, same, here⟩ := written
  have covers : flying (⟨label, text, before, .written⟩ :: flight) ⊆ inFlight app label saved.pk held :=
    inFlight_covers covered (show ∀ entry ∈ [(⟨label, text, before, .written⟩ : Entry app)], _ from fun entry member => by
      obtain rfl := List.mem_singleton.mp member
      exact key)
  refine (saving.postSave covers here).bind (fun _ _ _ _ => trivial) fun _ last _ kept => ?_
  exact Holds.pure ⟨text, before, key, named, same, kept⟩

theorem saveAction_create {created : Bool} (restoring : ∀ override ∈ env.override, override.action = "restore")
    (action : saveAction env label pk created = "create") : created = true := by
  unfold saveAction at action
  split at action
  next override present =>
    have restored := restoring override present
    rw [restored] at action
    split at action
    · exact absurd action (by decide)
    · cases created
      · exact absurd action (by decide)
      · rfl
  · cases created
    · exact absurd action (by decide)
    · rfl

theorem recordSaved_holds {before : Json} (within : env.Within entered held)
    (entering : entered (some ctx)) (registered : app.registration label = some config) (opened : session.saved ≠ [])
    (covered : flying flight ⊆ held) (taken : snapshotOf config result = .ok before)
    (written : upkeep.Written label pk result flight session) :
    discipline.Holds server (Returns fun _ final => upkeep.holds flight final)
      (recordSaved env config result.isNone before pk ctx.toScopeContext) session := by
  obtain ⟨text, old, _, named, rfl, here⟩ := written
  refine (upkeep.loadRow_plain here).andThen fun found final framed ⟨kept, loaded⟩ => ?_
  cases found with
  | none => exact Holds.raise trivial
  | some row =>
    obtain ⟨named', present⟩ := loaded row rfl
    obtain ⟨_, columns⟩ := row
    obtain rfl := Except.ok.inj (named.symm.trans named')
    refine Holds.lift fun scope checked => ?_
    refine (upkeep.relations registered entering List.mem_cons_self rfl kept present).andThen
      fun _ last framed' ⟨kept', related⟩ => Holds.lift fun after snapped => ?_
    have opened' : last.saved ≠ [] := by rw [framed'.saved, framed.saved]; exact opened
    have apart : Key.row label text ∉ flying ([] : List (Entry app)) := List.not_mem_nil
    refine upkeep.record opened' registered entering
      (fun key member => within.held ▸ covered member) apart kept' ⟨scope, checked⟩ related taken snapped
      fun action => ?_
    have created := saveAction_create within.restoring action
    simpa using created

theorem checkBefore_checked (entering : entered (some ctx))
    (accepted : checkBefore config result ctx.toScopeContext = .ok ()) :
    ∀ row ∈ result, Checked entered config row.2.column := by
  intro row member
  obtain rfl := Option.mem_def.mp member
  simp only [checkBefore] at accepted
  cases checked : checkScope config (row.get config.scopeField.attname) ctx.toScopeContext with
  | error error => rw [checked] at accepted; cases accepted
  | ok scope => exact ⟨ctx, entering, scope, checked⟩

theorem checkSaved_reading (entering : entered (some ctx)) (reading : upkeep.Reading label pk result flight session) :
    discipline.Holds server (Returns fun _ final => upkeep.Reading label pk result flight final ∧
      ∀ row ∈ result, Checked entered config row.2.column)
      (checkSaved config result inst ctx.toScopeContext) session := by
  refine Holds.lift fun _ accepted => Holds.lift fun _ _ => ?_
  have rest : discipline.Holds server (Always (upkeep.Reading label pk result flight))
      ((checkRelations config (inst.get (app.model label)) ctx.toScopeContext : Db app Unit).bind fun _ =>
        Prog.ofExcept (checkUnmoved config result (inst.get (app.model label) config.scopeField.attname))) session :=
    Reading.keeps (fun _ _ _ _ here => upkeep.reads
      (Prog.Only.bind (checkRelations_reads _ _ _) fun _ => Prog.Only.ofExcept _) here) reading
  exact rest.weaken fun outcome final _ reading => by
    cases outcome with
    | ok => exact ⟨reading, checkBefore_checked entering accepted⟩
    | error error => trivial

theorem saveBase_holds (saving : upkeep.Saving handlers) (within : env.Within entered held)
    (registered : app.registration label = some config) (covered : flying flight ⊆ held)
    (here : upkeep.holds flight session) :
    discipline.Holds server (Always (upkeep.holds flight)) (saveBase env handlers config inst options) session := by
  refine upkeep.lifted here fun ctx found => ?_
  have entering := within.active found
  change discipline.Holds server _ (if options.raw = true then _ else _) _
  split
  · exact Holds.raise here
  refine upkeep.block here fun session here opened => ?_
  refine (upkeep.loadRow_locked opened here).andThen fun result second framed ⟨_, reading⟩ => ?_
  refine (checkSaved_reading entering reading).andThen fun _ third framed' ⟨reading, checked⟩ => ?_
  refine Holds.lift fun before taken => ?_
  have opened' : third.saved ≠ [] := by rw [framed'.saved, framed.saved]; exact opened
  refine (djangoSave_written saving registered opened' (within.held ▸ covered) rfl checked reading).andThen
    fun saved last framed'' written => ?_
  exact recordSaved_holds within entering registered (framed''.saved ▸ opened') covered taken written

theorem save_holds (saving : upkeep.Saving handlers) (within : env.Within entered held)
    (registered : app.registration label = some config) (covered : flying flight ⊆ held)
    (here : upkeep.holds flight session) :
    discipline.Holds server (Always (upkeep.holds flight)) (save env handlers config inst options) session := by
  refine upkeep.lifted here fun ctx found => upkeep.block here fun session here opened => ?_
  change discipline.Holds server _ (if _ then _ else if _ then _ else _) _
  split
  · exact Holds.pure here
  split
  · exact Holds.raise trivial
  · exact (saveBase_holds saving within registered covered here).returned

theorem verifyHistory_holds (here : upkeep.holds flight session) :
    discipline.Holds server (Always (upkeep.holds flight)) (verifyHistory env config pk) session := by
  refine upkeep.block here fun session here opened => (upkeep.reads ?_ here).returned
  refine Prog.Only.bind (findResource_reads env config pk) fun resource => ?_
  cases resource with
  | none => trivial
  | some resource =>
    refine Prog.Only.bind (Prog.Only.perform trivial) fun found => ?_
    cases found with
    | none => trivial
    | some resource =>
      exact Prog.Only.bind (readEvents_reads _ _) fun events => Prog.Only.ofExcept _

theorem restore_holds {revision expectedRevision : Int} (saving : upkeep.Saving handlers)
    (within : env.Within entered held) (registered : app.registration label = some config)
    (covered : flying flight ⊆ held) (here : upkeep.holds flight session) :
    discipline.Holds server (Always (upkeep.holds flight))
      (restore env handlers config pk revision expectedRevision) session := by
  refine upkeep.lifted here fun ctx found => upkeep.block here fun session here opened => ?_
  refine upkeep.reading (loadRow_reads label pk true) here fun loaded session _ here => ?_
  cases loaded with
  | none => exact Holds.raise trivial
  | some row =>
    refine Holds.lift fun _ _ => upkeep.reading (findResource_reads env config pk) here fun resource session _ here => ?_
    change discipline.Holds server _ (if _ then _ else _) _
    split
    · exact Holds.raise trivial
    refine (verifyHistory_holds here).returned.andThen fun verification session _ here => ?_
    change discipline.Holds server _ (if _ then _ else _) _
    split
    · exact Holds.raise trivial
    refine upkeep.reading (history_reads env config pk) here fun events session _ here => Holds.lift fun current _ => ?_
    change discipline.Holds server _ (if _ then _ else _) _
    split
    · exact Holds.raise trivial
    split
    · exact Holds.raise trivial
    change discipline.Holds server _ (if _ then _ else _) _
    split
    · exact Holds.raise trivial
    refine Holds.lift fun updates _ => ?_
    change discipline.Holds server _ (if _ then _ else _) _
    split
    · exact Holds.raise trivial
    have within' : Env.Within { env with override := some ⟨label, row.pk, "restore"⟩ } entered held :=
      ⟨within.context, within.held, fun override member => by obtain rfl := Option.mem_some_iff.mp member; rfl⟩
    exact (save_holds saving within' registered covered here).returned

theorem get_reading {text : String} {before : Option (Row (app.model label) text)} {key : Key} (here : upkeep.holds flight session)
    (inside : upkeep.holds (⟨label, text, before, .read⟩ :: flight) session) :
    discipline.Holds server (Returns fun found final => found = final.view.lookup key ∧ upkeep.holds flight final ∧
      upkeep.holds (⟨label, text, before, .read⟩ :: flight) final) (Tx.get (V := Val app) key : Db app _) session := by
  refine Holds.get fun committed moves whole => ⟨fun _ => trivial, rfl, ?_, ?_⟩
  · exact (upkeep.invariant _).moved session committed ⟨whole.guarded, whole.nested, whole.opened⟩ moves here
  · exact (upkeep.invariant _).moved session committed ⟨whole.guarded, whole.nested, whole.opened⟩ moves inside

theorem backfillOne_holds {dryRun : Bool} {progress : BackfillResult}
    (within : env.Within entered held) (entering : entered (some ctx)) (registered : app.registration label = some config)
    (covered : flying flight ⊆ held) (stored : (app.model label).keyText pk = .ok pk.text)
    (here : upkeep.holds flight session) :
    discipline.Holds server (Always (upkeep.holds flight))
      (backfillOne env config ctx.toScopeContext dryRun progress pk) session := by
  refine upkeep.block here fun session here opened => ?_
  cases dryRun with
  | true =>
    refine upkeep.reading (loadRow_reads label pk _) here fun loaded session _ here => ?_
    cases loaded with
    | none => exact Holds.pure here
    | some row =>
      refine Holds.lift fun _ _ => Holds.lift fun objectPk _ =>
        upkeep.reading (Prog.Only.perform (by trivial)) here fun resource session _ here => ?_
      change discipline.Holds server _ (if _ then _ else _) _
      split <;> exact Holds.pure here
  | false =>
    refine (upkeep.loadRow_locked opened here).andThen fun loaded session framed ⟨here, reading⟩ => ?_
    rcases reading with ⟨_, rfl, _⟩ | ⟨text, before, set, named, rfl, inside⟩
    · exact Holds.pure here
    cases before with
    | none => exact Holds.pure here
    | some row =>
      refine Holds.lift fun scope checked => Holds.lift fun objectPk identified => ?_
      obtain rfl : objectPk = text := (identity_ok identified).1.trans (Except.ok.inj (stored.symm.trans named))
      refine (get_reading here inside).andThen fun resource session framed' ⟨found, here, inside⟩ => ?_
      change discipline.Holds server _ (if _ then _ else _) _
      split
      · exact Holds.pure here
      next unrecorded =>
        refine Holds.lift fun after snapped => ?_
        have opened' : session.saved ≠ [] := by rw [framed'.saved, framed.saved]; exact opened
        refine (upkeep.baseline opened' registered entering
          (fun key member => within.held ▸ covered member) here inside ⟨scope, checked⟩ ?_ snapped).andThen
            fun _ _ _ kept => Holds.pure kept
        intro head present
        rw [found] at unrecorded
        simpa [present] using unrecorded

theorem backfill_holds {dryRun : Bool} {batchSize : Int} (within : env.Within entered held)
    (registered : app.registration label = some config) (covered : flying flight ⊆ held)
    (here : upkeep.holds flight session) :
    discipline.Holds server (Always (upkeep.holds flight)) (backfill env config dryRun batchSize) session := by
  refine upkeep.lifted here fun ctx found => ?_
  have entering := within.active found
  change discipline.Holds server _ (if _ then _ else _) _
  split
  · exact Holds.raise here
  refine upkeep.lifted here fun scope _ => ?_
  refine (upkeep.reads (Prog.Only.perform (by trivial)) here).bind (fun _ _ _ kept => kept)
    fun entries session _ here => ?_
  -- One block after the other, each from where the last one left the assertion.
  have rows (rows : List (Loaded app label)) (progress : BackfillResult) (session : Session (Val app))
      (here : upkeep.holds flight session) :
      discipline.Holds server (Always (upkeep.holds flight))
        (rows.foldlM (fun result row => backfillOne env config ctx.toScopeContext dryRun result row.pk) progress :
          Db app BackfillResult) session := by
    induction rows generalizing progress session with
    | nil => exact Holds.pure here
    | cons row rows ih =>
      have stored : (app.model label).keyText row.pk = .ok row.pk.text := row.keyText.trans (congrArg _ row.2.keyed.symm)
      exact (backfillOne_holds within entering registered covered stored here).bind (fun _ _ _ kept => kept)
        fun progress session _ here => ih progress session here
  exact rows _ _ session here

end Upkeep
end PyScoped
