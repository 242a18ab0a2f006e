import PyScoped.Foundation.Orderly
import PyScoped.Proofs.Isolation
import PyScoped.Proofs.Spellings

/-! The scope guards of a save. `check_scope` compares scopes as the field reads
them, the guard against scope changes compares the values themselves, and the
history compares their texts. A save is never taken for a scope change exactly
where the instance holds the value that is stored. -/

namespace PyScoped
open Foundation Discipline

variable {app : App} {label : String}

/-- A save is rejected as a change of the row's scope, by the guard or by the history. -/
def ScopeRejection : Err → Prop
  | .unsupportedOperation message => message = "Scope changes require an explicit application migration."
  | .scopeViolation message => message = "An existing history identity cannot be reassigned to another scope."
  | _ => False

instance : DecidablePred ScopeRejection
  | .unsupportedOperation message => inferInstanceAs (Decidable (message = _))
  | .scopeViolation message => inferInstanceAs (Decidable (message = _))
  | .missingContext _ | .historyConflict _ | .valueError _ | .fieldError _ | .integrityError | .doesNotExist
  | .databaseError _ | .application _ => inferInstanceAs (Decidable False)

/-- Errors of another kind. -/
abbrev Unrelated (error : Err) : Prop := ¬ScopeRejection error

/-- The fields, the attributes and the database raise errors of their own. -/
structure Independent (app : App) (server : Server (Val app) Err) (inst : Instance) : Prop where
  owns : server.Owns Unrelated
  reads : ∀ label, ∀ field ∈ (app.model label).fields, ∀ value error, field.expected value = .error error → Unrelated error
  stores : ∀ label, ∀ field ∈ (app.model label).fields, ∀ value error, field.store value = .error error → Unrelated error
  evaluates : ∀ attname columns error, (inst.attr attname).eval columns = .error error → Unrelated error

variable {error : Err} {fields : List Field} {held : List Key} {options : SaveOptions}

section Errors

variable {server : Server (Val app) Err} {inst : Instance}

theorem identity_unrelated {value : Value} (raised : identity value = .error error) : Unrelated error := by
  unfold identity at raised
  split at raised
  · cases raised; exact id
  · cases raised; exact id
  · split at raised <;> cases raised
    exact id

private theorem violation_unrelated (name : String) :
    Unrelated (.scopeViolation (name ++ " belongs to a different scope.")) := by
  intro same
  have same : name ++ " belongs to a different scope." =
    "An existing history identity cannot be reassigned to another scope." := same
  have ends : " belongs to a different scope.".toList <:+
      "An existing history identity cannot be reassigned to another scope.".toList :=
    ⟨name.toList, by rw [← String.toList_append, same]⟩
  revert ends
  decide

theorem checkScope_unrelated {config : Registration (app.model label)} {attr : Attr} {ctx : ScopeContext}
    (independent : Independent app server inst) (raised : checkScope config attr ctx = .error error) : Unrelated error := by
  have reads := independent.reads label config.scopeField config.scopeMember
  unfold checkScope at raised
  cases identified : attr.identity with
  | error other =>
    rw [identified] at raised
    cases raised
    cases attr with
    | value own => exact identity_unrelated identified
    | expression text eval => exact identity_unrelated (show PyScoped.identity (.str text) = _ from identified)
  | ok actual =>
    simp only [identified, bind, Except.bind] at raised
    split at raised
    · cases owned : config.scopeField.expected (.str actual) with
      | error other =>
        rw [owned] at raised
        cases raised
        exact reads _ _ owned
      | ok own =>
        cases expected : config.scopeField.expected (.str ctx.scope) with
        | error other =>
          rw [owned, expected] at raised
          cases raised
          exact reads _ _ expected
        | ok wanted =>
          rw [owned, expected] at raised
          simp only at raised
          split at raised <;> cases raised
          exact violation_unrelated _
    · cases raised

theorem snapshot_unrelated {model : Model} {config : Registration model} {column : Columns}
    (raised : snapshot config column = .error error) : Unrelated error := by
  unfold snapshot plain at raised
  split at raised <;> cases raised
  exact id

theorem keyText_unrelated {pk : Value} (independent : Independent app server inst)
    (raised : (app.model label).keyText pk = .error error) : Unrelated error := by
  unfold Model.keyText at raised
  cases stored : (app.model label).pk.store pk with
  | error other =>
    rw [stored] at raised
    cases raised
    exact independent.stores label _ (app.model label).pkMember _ _ stored
  | ok value => rw [stored] at raised; cases raised

theorem rowMake_unrelated {model : Model} {pk : String} {column : Columns}
    (raised : (Row.make column : Except Err (Row model pk)) = .error error) : Unrelated error := by
  unfold Row.make at raised
  split at raised <;> cases raised
  exact id

theorem assign_unrelated {old : Option Columns} {column : Columns}
    (independent : Independent app server inst) (members : ∀ field ∈ fields, field ∈ (app.model label).fields)
    (raised : (inst.assignments (app.model label) fields).foldlM (assign old) column = .error error) : Unrelated error := by
  induction fields generalizing column with
  | nil => cases raised
  | cons field fields ih =>
    obtain ⟨member, members⟩ := List.forall_mem_cons.mp members
    change (assign old column (field, inst.get (app.model label) field.attname) >>= fun next =>
      (inst.assignments (app.model label) fields).foldlM (assign old) next) = _ at raised
    unfold assign at raised
    cases evaluated : (inst.get (app.model label) field.attname).eval old with
    | error other =>
      rw [evaluated] at raised
      cases raised
      unfold Instance.get at evaluated
      split at evaluated
      · cases evaluated
      · exact independent.evaluates _ _ _ evaluated
    | ok value =>
      cases stored : field.store value with
      | error other =>
        simp only [evaluated, stored, bind, Except.bind, Except.error.injEq] at raised
        exact raised ▸ independent.stores label field member _ _ stored
      | ok own =>
        simp only [evaluated, stored, bind, Except.bind, pure, Except.pure] at raised
        exact ih members raised

theorem newRow_unrelated {pk : String} (independent : Independent app server inst)
    (raised : (newRow (app.model label) pk inst) = .error error) : Unrelated error := by
  unfold newRow at raised
  cases folded : (inst.assignments (app.model label) (app.model label).fields).foldlM (assign none) (fun _ => .none) with
  | error other =>
    rw [folded] at raised
    cases raised
    exact assign_unrelated independent (fun _ member => member) folded
  | ok column =>
    rw [folded] at raised
    exact rowMake_unrelated raised

theorem assignAll_unrelated {pk : String} {row : Row (app.model label) pk}
    (independent : Independent app server inst) (members : ∀ field ∈ fields, field ∈ (app.model label).fields)
    (raised : assignAll (inst.assignments (app.model label) fields) row = .error error) : Unrelated error := by
  unfold assignAll at raised
  cases folded : (inst.assignments (app.model label) fields).foldlM (assign (some row.column)) row.column with
  | error other =>
    rw [folded] at raised
    cases raised
    exact assign_unrelated independent members folded
  | ok column =>
    rw [folded] at raised
    exact rowMake_unrelated raised

private theorem lockFirst_raises {wanted : Loaded app label → Bool} (texts : List String) :
    Raises Unrelated (lockFirst label wanted texts : Db app _) := by
  induction texts with
  | nil => trivial
  | cons text texts ih =>
    refine Raises.bind (Raises.perform trivial) fun found => ?_
    cases found with
    | none => exact ih
    | some row =>
      change Raises Unrelated (if _ then _ else _)
      split
      · trivial
      · exact ih

theorem checkRelation_raises (field : Field) (attr : Attr) (ctx : ScopeContext) (independent : Independent app server inst) :
    Raises Unrelated (checkRelation field attr ctx : Db app Unit) := by
  unfold checkRelation
  split
  · trivial
  · trivial
  · split
    · trivial
    · split
      · refine Raises.bind (Raises.bind (Raises.perform trivial) fun _ => lockFirst_raises _) fun found => ?_
        cases found with
        | none => trivial
        | some row => exact Raises.lift (fun _ raised => checkScope_unrelated independent raised) fun _ _ => trivial
      · trivial

theorem checkRelations_raises {model : Model} (config : Registration model) (get : String → Attr) (ctx : ScopeContext)
    (independent : Independent app server inst) : Raises Unrelated (checkRelations config get ctx : Db app Unit) := by
  unfold checkRelations
  split
  · exact Raises.forM fun field _ => checkRelation_raises field _ ctx independent
  · trivial

theorem insertRow_raises (set : inst.pk ≠ .none) (independent : Independent app server inst) :
    Raises Unrelated (insertRow label inst held : Db app Instance) := by
  unfold insertRow
  rw [Upkeep.withKey_eq set]
  refine Raises.lift (fun _ raised => keyText_unrelated independent raised) fun text _ => ?_
  refine Raises.lift (fun _ raised => newRow_unrelated independent raised) fun row _ => ?_
  exact Raises.bind (Raises.perform trivial) fun _ => trivial

theorem updateRow_raises {seen : Bool} (independent : Independent app server inst)
    (members : ∀ field ∈ fields, field ∈ (app.model label).fields) :
    Raises Unrelated (updateRow label inst fields held seen : Db app Bool) :=
  Raises.lift (fun _ raised => keyText_unrelated independent raised) fun _ _ =>
    Raises.perform fun _ _ raised => assignAll_unrelated independent members raised

theorem writtenFields_mem {model : Model} {updateFields : Option (List String)} {field : Field}
    (written : field ∈ writtenFields model updateFields) : field ∈ model.fields := by
  unfold writtenFields at written
  split at written
  · exact List.mem_of_mem_filter written
  · exact List.mem_of_mem_filter (List.mem_of_mem_filter written)

theorem saveTable_raises {seen : Bool} (set : inst.pk ≠ .none) (independent : Independent app server inst) :
    Raises Unrelated (saveTable label inst options held seen : Db app Instance) := by
  unfold saveTable
  rw [if_neg set]
  split
  · exact insertRow_raises set independent
  refine Raises.bind (updateRow_raises independent fun _ => writtenFields_mem) fun updated => ?_
  change Raises Unrelated (if _ then _ else if _ then _ else _)
  split
  · trivial
  split
  · exact id
  · exact insertRow_raises set independent

theorem getOrCreateResource_raises {objectPk scope : String} :
    Raises Unrelated (getOrCreateResource label objectPk scope held : Db app Unit) := by
  refine Raises.bind (Raises.perform trivial) fun found => ?_
  cases found with
  | some resource => trivial
  | none =>
    refine Raises.tryCatch (Raises.atomic (Raises.perform trivial)) fun error raised => ?_
    change Raises Unrelated (if _ then _ else _)
    split
    · refine Raises.bind (Raises.perform trivial) fun found => ?_
      cases found with
      | some resource => trivial
      | none => exact raised
    · exact raised

end Errors

section Saving

variable {server : Server (Val app) Err} {env : Env} {config : Registration (app.model label)} {handlers : Handlers app}
  {inst : Instance} {row : Loaded app label} {session : Session (Val app)}

/-- The row is stored with the scope it had, and its history is one of that scope. -/
structure Keeps (config : Registration (app.model label)) (row : Loaded app label) (log : Log (Val app)) : Prop where
  stored : ∃ new : Row (app.model label) row.1, log.lookup (.row label row.1) = some new ∧
    new.column config.scopeField.attname = row.2.column config.scopeField.attname
  recorded : ∀ resource : Resource, log.lookup (.resource label row.1) = some resource →
    identity (row.2.column config.scopeField.attname) = .ok resource.scope

/-- A step inside a block, and what it leaves for the next one. -/
def Settling {α : Type} (server : Server (Val app) Err) (program : Db app α) (session : Session (Val app))
    (post : α → Log (Val app) → Prop) : Prop :=
  session.Whole historyGuard → session.saved ≠ [] →
    Settles server Unrelated (fun value final => post value final.view ∧ final.Whole historyGuard ∧ final.saved ≠ [])
      program session

namespace Settling

variable {α β : Type} {program : Db app α} {post : α → Log (Val app) → Prop}

theorem of_ends (owns : server.Owns Unrelated) (raises : Raises Unrelated program)
    (ends : Ends server program session post) : Settling server program session post := fun whole opened =>
  (Settles.of_holds owns ends raises whole trivial fun _ _ => trivial).weaken
    fun _ _ ⟨reached, saved, whole, _⟩ => ⟨reached, whole, by rwa [saved]⟩

theorem of_reads (owns : server.Owns Unrelated) (raises : Raises Unrelated program) (only : program.Only Reads) :
    Settling server program session fun _ log => log = session.view :=
  .of_ends owns raises (ends_reads only)

theorem andThen {after : β → Log (Val app) → Prop} {next : α → Db app β} (first : Settling server program session post)
    (whole : session.Whole historyGuard) (opened : session.saved ≠ [])
    (second : ∀ value final, post value final.view → final.Whole historyGuard → final.saved ≠ [] →
      Settles server Unrelated (fun value final => after value final.view) (next value) final) :
    Settles server Unrelated (fun value final => after value final.view) (program.bind next) session :=
  (first whole opened).andThen fun value final ⟨reached, whole, opened⟩ => second value final reached whole opened

theorem atomic {body : Db app α} (owns : server.Owns Unrelated) (whole : session.Whole historyGuard)
    (run : ∀ other : Session (Val app), other.view = session.view → other.Whole historyGuard → other.saved ≠ [] →
      Settles server Unrelated (fun value final => post value final.view) body other) :
    Settles server Unrelated (fun value final => post value final.view) (Tx.atomic body) session := by
  have entered : session.enter.Whole historyGuard := by
    refine ⟨List.forall_mem_cons.mpr ⟨whole.guarded _ List.mem_cons_self, whole.guarded⟩,
      List.pairwise_cons.mpr ⟨?_, whole.nested⟩, ?_⟩
    · exact List.forall_mem_cons.mpr ⟨List.Subset.refl _, (List.pairwise_cons.mp whole.nested).1⟩
    · simpa only [Session.enter, List.getLast?_cons_cons] using whole.opened
  refine Settles.atomic owns (run _ rfl entered (List.cons_ne_nil _ _)) fun value middle final reached same => ?_
  rw [same]
  exact reached

end Settling

private theorem inner (property : Log (Val app) → Prop) : (alone app).Inner fun other => property other.view :=
  { moved := fun other committed _ moves here => by rwa [alone_seeing moves]
    resaved := fun _ _ _ _ here => here
    locked := fun _ _ here => here }

private theorem writeEvent_settles {resource : Resource} {event : AuditEvent} (owns : server.Owns Unrelated)
    (whole : session.Whole historyGuard) (opened : session.saved ≠ [])
    (headed : Headed (alone app) (fun other => Keeps config row other.view) label row.1 resource session) :
    Settles server Unrelated (fun _ final => Keeps config row final.view)
      ((Tx.insert (V := Val app) (.event label row.1 event.revision) event held : Db app Unit).bind fun _ =>
        (Tx.update (V := Val app) (.resource label row.1)
          (fun head => .ok ((head : Resource).advanced event)) held true : Db app Bool).bind fun matched =>
            if matched then .pure () else .raise (.databaseError "Save with update_fields did not affect any rows."))
      session := by
  have keeps (other : Session (Val app)) (here : Keeps config row other.view)
      (head : other.view.lookup (.resource label row.1) = some resource) :
      Keeps config row ((other.write (.event label row.1 event.revision) (some event)).write (.resource label row.1)
        (some (resource.advanced event))).view := by
    obtain ⟨stored, present, kept⟩ := here.stored
    refine ⟨⟨stored, ?_, kept⟩, fun after written => ?_⟩
    · rw [Session.view_write, Log.lookup_cons_ne _ _ Key.noConfusion, Session.view_write,
        Log.lookup_cons_ne _ _ Key.noConfusion]
      exact present
    · rw [Session.view_write, Log.lookup_cons_self] at written
      cases written
      exact here.recorded resource head
  refine Settles.weaken (Settles.of_holds owns (writeEvent_holds (inner (Keeps config row)) rfl opened headed
    fun other _ here head _ _ => keeps other here head) ?_ whole trivial fun _ _ => trivial) fun _ _ reached => reached.1
  refine Raises.bind (Raises.perform trivial) fun _ => Raises.bind (Raises.perform fun _ _ => nofun) fun matched => ?_
  cases matched
  · exact id
  · trivial

variable {new : Row (app.model label) row.1}

/-- The history accepts an event of a row whose scope column is the one it was recorded with. -/
theorem appendEvent_settles {action : String} {before after : Json}
    {ctx : ScopeContext} (owns : server.Owns Unrelated) (whole : session.Whole historyGuard)
    (here : Keeps config row session.view)
    (same : new.column config.scopeField.attname = row.2.column config.scopeField.attname) :
    Settles server Unrelated (fun _ final => Keeps config row final.view)
      (appendEvent config ⟨row.1, new⟩ action before after ctx held) session := by
  refine Settling.atomic owns whole fun second viewed whole opened => ?_
  rw [← viewed] at here
  refine Settles.lift (fun _ raised => identity_unrelated raised) fun objectPk identified => ?_
  refine Settles.lift (fun _ raised => identity_unrelated raised) fun scope located => ?_
  obtain rfl : objectPk = row.1 := (identity_ok identified).1.trans new.keyed
  rw [same] at located
  have creating : Ends server (getOrCreateResource label row.1 scope held : Db app Unit) second
      fun _ log => Keeps config row log := by
    refine getOrCreateResource_holds (inner (Keeps config row)) opened (.inl rfl) here fun other _ here absent _ => ?_
    obtain ⟨stored, present, kept⟩ := here.stored
    refine ⟨⟨stored, (Log.lookup_cons_ne _ _ Key.noConfusion).trans present, kept⟩, fun resource head => ?_⟩
    rw [Session.view_write, Log.lookup_cons_self] at head
    cases head
    exact located
  refine (Settling.of_ends owns getOrCreateResource_raises creating).andThen whole opened fun _ third here whole opened => ?_
  have locking : (alone app).Holds server (Returns fun (found : Option Resource) final => ∀ resource, found = some resource →
      Headed (alone app) (fun other => Keeps config row other.view) label row.1 resource final)
      (Tx.lock (V := Val app) (.resource label row.1) : Db app _) third :=
    lockResource_headed (inner (Keeps config row)) (.inl rfl) here
  refine (Settles.of_holds owns locking (Raises.perform trivial) whole trivial fun _ _ => trivial).andThen
    fun found fourth ⟨headed, saved, whole, _⟩ => ?_
  have opened : fourth.saved ≠ [] := by rwa [saved]
  cases found with
  | none => exact Settles.raise id
  | some resource =>
    have headed := headed resource rfl
    have recorded : resource.scope = scope := Except.ok.inj ((headed.here.recorded resource headed.head).symm.trans located)
    change Settles server Unrelated _ (if _ then _ else _) _
    rw [if_neg (not_not.mpr recorded)]
    have asking : (alone app).Holds server (Returns fun _ => Headed (alone app) (fun other => Keeps config row other.view)
        label row.1 resource) (Tx.ask : Db app Oracle) fourth := by
      refine Holds.ask fun committed moves whole result => ?_
      cases result with
      | ok => exact headed.moved (inner (Keeps config row)) ⟨whole.guarded, whole.nested, whole.opened⟩ moves
      | error => trivial
    refine (Settles.of_holds owns asking (Raises.perform trivial) whole trivial fun _ _ => trivial).andThen
      fun oracle fifth ⟨headed, saved, whole, _⟩ => ?_
    refine Settles.lift (fun error raised => ?_) fun digest digested => ?_
    · unfold eventDigest encodeEvent at raised
      split at raised <;> cases raised
      exact id
    exact writeEvent_settles owns whole (by rwa [saved]) headed

/-- A row that is there is found, under any spelling of its key. -/
theorem loadRow_settling {pk : Value} (lock : Bool) (set : pk ≠ .none)
    (named : (app.model label).keyText pk = .ok row.1)
    (present : session.view.lookup (.row label row.1) = some new) :
    Settling server (loadRow label pk lock : Db app _) session fun found log =>
      found = some ⟨row.1, new⟩ ∧ log = session.view := by
  intro whole opened
  rw [Upkeep.loadRow_eq set, named]
  have selecting : Settles server Unrelated (fun found final => found = some new ∧ final.view = session.view ∧
      final.Whole historyGuard ∧ final.saved ≠ []) (selectRow label row.1 lock : Db app _) session := by
    intro result final ran
    cases lock with
    | true =>
      obtain ⟨choice, attentive, failing, answered⟩ := Server.orderly_perform.mp ran
      simp only [Server.answer, Server.missed, attentive, Bool.false_and, Bool.false_eq_true, if_false] at answered
      rw [if_neg (by simpa using opened), present] at answered
      cases failed : choice.failure with
      | some error =>
        rw [failed] at answered failing
        cases answered
        exact failing error rfl
      | none =>
        rw [failed] at answered
        cases answered
        exact ⟨rfl, rfl, Server.whole_hold whole opened, opened⟩
    | false =>
      obtain ⟨choice, attentive, failing, answered⟩ := Server.orderly_perform.mp ran
      simp only [Server.answer, present] at answered
      cases failed : choice.failure with
      | some error =>
        rw [failed] at answered failing
        cases answered
        exact failing error rfl
      | none =>
        rw [failed] at answered
        cases answered
        exact ⟨rfl, rfl, whole, opened⟩
  refine Settles.lift (fun error raised => ?_) fun text same => ?_
  · cases raised
  obtain rfl := Except.ok.inj same
  refine selecting.andThen fun found final selected => ?_
  obtain ⟨same, viewed, whole, opened⟩ := selected
  refine Settles.pure ⟨⟨?_, viewed⟩, whole, opened⟩
  rw [same]
  rfl

/-- The instance stands for the row, and holds the scope that is stored. -/
structure Stands (config : Registration (app.model label)) (row : Loaded app label) (inst : Instance) : Prop where
  set : inst.pk ≠ .none
  named : (app.model label).keyText inst.pk = .ok row.1
  same : (inst.get (app.model label) config.scopeField.attname).same (row.2.column config.scopeField.attname) = true
  alike : ∀ value, inst.get (app.model label) config.scopeField.attname = .value value →
    value.same (row.2.column config.scopeField.attname) = true →
    config.scopeField.store value = .ok (row.2.column config.scopeField.attname)

theorem Stands.assigned (stands : Stands config row inst)
    (members : ∀ field ∈ fields, field ∈ (app.model label).fields)
    (assigned : assignAll (inst.assignments (app.model label) fields) row.2 = .ok new) :
    new.column config.scopeField.attname = row.2.column config.scopeField.attname := by
  unfold assignAll at assigned
  cases folded : (inst.assignments (app.model label) fields).foldlM (assign (some row.2.column)) row.2.column with
  | error error => rw [folded] at assigned; cases assigned
  | ok column =>
    rw [folded] at assigned
    rw [Row.make_column assigned]
    by_cases written : config.scopeField ∈ fields
    · obtain ⟨value, evaluated, stored⟩ := assign_written members folded written
      cases holds : inst.get (app.model label) config.scopeField.attname with
      | expression text eval =>
        have same := stands.same
        rw [holds] at same
        cases same
      | value own =>
        have same := stands.same
        rw [holds] at same evaluated
        obtain rfl : own = value := Except.ok.inj evaluated
        exact Except.ok.inj (stored.symm.trans (stands.alike own holds same))
    · refine assign_other folded fun assignment listed same => written ?_
      obtain ⟨field, member, rfl⟩ := List.mem_map.mp listed
      exact Model.field_eq (members field member) config.scopeMember same ▸ member

private theorem insertRow_ends (stands : Stands config row inst)
    (present : session.view.lookup (.row label row.1) = some row.2) :
    Ends server (insertRow label inst held : Db app Instance) session fun _ _ => False := by
  unfold insertRow
  rw [Upkeep.withKey_eq stands.set]
  refine Holds.lift fun text named => Holds.lift fun new _ => ?_
  obtain rfl := Except.ok.inj (named.symm.trans stands.named)
  have inserting : Ends server (Tx.insert (V := Val app) (.row label row.1) new held : Db app Unit) session fun _ _ => False := by
    refine Holds.insert (.inl rfl) fun committed moves _ _ => ⟨fun _ => trivial, fun absent => ?_⟩
    rw [alone_seeing moves, present] at absent
    cases absent
  exact inserting.andThen fun _ _ _ impossible => impossible.elim

theorem saveTable_kept {seen : Bool} (stands : Stands config row inst)
    (here : Keeps config row session.view) (present : session.view.lookup (.row label row.1) = some row.2) :
    Ends server (saveTable label inst options held seen : Db app Instance) session fun saved log =>
      saved = inst ∧ Keeps config row log := by
  have absurdly {final : Session (Val app)} (same : final.view = session.view) :
      Ends server (insertRow label inst held : Db app Instance) final fun saved log => saved = inst ∧ Keeps config row log :=
    (insertRow_ends stands (same ▸ present)).weaken fun result _ _ impossible => by
      cases result with
      | ok => exact impossible.elim
      | error => trivial
  unfold saveTable
  rw [if_neg stands.set]
  split
  · exact absurdly rfl
  have updating : Ends server (updateRow label inst (writtenFields (app.model label) options.updateFields) held seen : Db app Bool)
      session fun updated log => if updated then Keeps config row log else log = session.view := by
    refine Holds.lift fun text named => Holds.update (.inl rfl) fun committed moves _ _ => ?_
    obtain rfl := Except.ok.inj (named.symm.trans stands.named)
    rw [alone_seeing moves]
    refine ⟨fun _ => trivial, fun _ => rfl, fun old new found changed => ?_⟩
    obtain rfl := Option.some.inj (present.symm.trans found)
    refine ⟨⟨new, ?_, stands.assigned (fun _ => writtenFields_mem) changed⟩, fun resource head => ?_⟩
    · rw [Session.view_write, Log.lookup_cons_self]
    · rw [Session.view_write, Log.lookup_cons_ne _ _ Key.noConfusion] at head
      exact here.recorded resource head
  refine updating.andThen fun updated final _ reached => ?_
  cases updated with
  | true => exact Holds.pure ⟨rfl, reached⟩
  | false =>
    rw [if_neg Bool.false_ne_true]
    split
    · exact Holds.raise trivial
    · exact absurdly reached

/-- Handlers that only read, leave the instance alone and raise errors of their own. -/
structure Handlers.Harmless (handlers : Handlers app) : Prop where
  quiet : handlers.Quiet
  preSave : ∀ held inst, Raises Unrelated (handlers.preSave held inst)
  postSave : ∀ held inst, Raises Unrelated (handlers.postSave held inst)

theorem djangoSave_settling {seen : Bool}
    (independent : Independent app server inst) (harmless : handlers.Harmless) (stands : Stands config row inst)
    (here : Keeps config row session.view) (present : session.view.lookup (.row label row.1) = some row.2) :
    Settling server (djangoSave handlers label inst options held seen) session fun saved log =>
      saved = inst ∧ Keeps config row log := by
  intro whole opened
  obtain ⟨only, returns⟩ := harmless.quiet.preSave (inFlight app label inst.pk held) inst
  have before : Settling server (handlers.preSave (inFlight app label inst.pk held) inst) session fun attr log =>
      attr = inst.attr ∧ log = session.view :=
    .of_ends independent.owns (harmless.preSave _ _) (ends_quiet only returns)
  refine (before whole opened).andThen fun attr second ⟨⟨unchanged, same⟩, whole, opened⟩ => ?_
  subst unchanged
  rw [← same] at here present
  have saving : Settling server (saveTable label inst options held seen : Db app Instance) second fun saved log =>
      saved = inst ∧ Keeps config row log :=
    .of_ends independent.owns (saveTable_raises stands.set independent) (saveTable_kept stands here present)
  refine (saving whole opened).andThen fun saved third ⟨⟨own, here⟩, whole, opened⟩ => ?_
  refine (Settling.of_reads independent.owns (harmless.postSave _ _) (harmless.quiet.postSave _ _) whole opened).andThen
    fun _ last ⟨same, whole, opened⟩ => Settles.pure ⟨⟨own, ?_⟩, whole, opened⟩
  rwa [same]

theorem checkSaved_raises {ctx : ScopeContext} (independent : Independent app server inst) (stands : Stands config row inst) :
    Raises Unrelated (checkSaved config (some row) inst ctx : Db app Unit) := by
  refine Raises.lift (fun error raised => ?_) fun _ _ => ?_
  · have raised : checkBefore config (some row) ctx = .error error := raised
    cases checked : checkScope config (row.get config.scopeField.attname) ctx with
    | error other =>
      simp only [checkBefore, checked, Except.map, Except.error.injEq] at raised
      exact raised ▸ checkScope_unrelated independent checked
    | ok text => simp only [checkBefore, checked, Except.map, reduceCtorEq] at raised
  refine Raises.lift (fun _ raised => checkScope_unrelated independent raised) fun _ _ => ?_
  refine Raises.bind (checkRelations_raises _ _ _ independent) fun _ => Raises.ofExcept fun error raised => ?_
  unfold checkUnmoved at raised
  simp only [stands.same, if_true, reduceCtorEq] at raised

theorem recordSaved_settles {created : Bool} {before : Json} {ctx : ScopeContext}
    (independent : Independent app server inst) (stands : Stands config row inst) (here : Keeps config row session.view)
    (whole : session.Whole historyGuard) (opened : session.saved ≠ []) :
    Settles server Unrelated (fun _ final => Keeps config row final.view)
      (recordSaved env config created before inst.pk ctx) session := by
  obtain ⟨new, present, kept⟩ := here.stored
  refine (loadRow_settling false stands.set stands.named present).andThen whole opened
    fun found second ⟨loaded, same⟩ whole opened => ?_
  subst loaded
  refine Settles.lift (fun _ raised => checkScope_unrelated independent raised) fun _ _ => ?_
  refine (Settling.of_reads independent.owns (checkRelations_raises _ _ _ independent) (checkRelations_reads _ _ _)).andThen
    whole opened fun _ third same' whole opened => ?_
  refine Settles.lift (fun _ raised => snapshot_unrelated raised) fun after _ => ?_
  have viewed : third.view = session.view := same'.trans same
  exact appendEvent_settles independent.owns whole (viewed ▸ here) kept

theorem saveBase_settles (independent : Independent app server inst) (harmless : handlers.Harmless)
    (stands : Stands config row inst) (here : Keeps config row session.view)
    (present : session.view.lookup (.row label row.1) = some row.2) (whole : session.Whole historyGuard) :
    Settles server Unrelated (fun _ final => Keeps config row final.view)
      (saveBase env handlers config inst options) session := by
  refine Settles.lift (fun error raised => ?_) fun ctx entered => ?_
  · unfold Env.current currentContext at raised
    split at raised <;> cases raised
    exact id
  change Settles server Unrelated _ (if _ then _ else _) _
  split
  · exact Settles.raise (by decide)
  refine Settling.atomic independent.owns whole fun second viewed whole opened => ?_
  rw [← viewed] at here present
  refine (loadRow_settling true stands.set stands.named present).andThen whole opened
    fun before third ⟨loaded, same⟩ whole opened => ?_
  subst loaded
  refine (Settling.of_reads independent.owns (checkSaved_raises independent stands) (checkSaved_reads _ _ _ _)).andThen
    whole opened fun _ fourth same' whole opened => ?_
  refine Settles.lift (fun _ raised => snapshot_unrelated raised) fun old _ => ?_
  have viewed : fourth.view = second.view := same'.trans same
  rw [← viewed] at here present
  refine (djangoSave_settling independent harmless stands here present).andThen whole opened
    fun saved fifth ⟨own, here⟩ whole opened => ?_
  subst own
  exact recordSaved_settles independent stands here whole opened

theorem save_settles (independent : Independent app server inst) (harmless : handlers.Harmless)
    (stands : Stands config row inst) (here : Keeps config row session.view)
    (present : session.view.lookup (.row label row.1) = some row.2) (whole : session.Whole historyGuard) :
    Settles server Unrelated (fun _ final => Keeps config row final.view)
      (save env handlers config inst options) session := by
  refine Settles.lift (fun error raised => ?_) fun ctx entered => ?_
  · unfold Env.current currentContext at raised
    split at raised <;> cases raised
    exact id
  refine Settling.atomic independent.owns whole fun second viewed whole opened => ?_
  rw [← viewed] at here present
  change Settles server Unrelated _ (if _ then _ else if _ then _ else _) _
  split
  · exact Settles.pure here
  split
  · exact Settles.raise id
  · exact saveBase_settles independent harmless stands here present whole

end Saving

section Rejecting

variable {server : Server (Val app) Err} {config : Registration (app.model label)} {inst : Instance} {row : Loaded app label}
  {session : Session (Val app)} {ctx : ScopeContext}

/-- A program inside a block can return without changing the store. -/
def Passes {α : Type} (server : Server (Val app) Err) (program : Db app α) (session : Session (Val app)) (property : α → Prop) : Prop :=
  session.saved ≠ [] → ∃ value final, server.Orderly Unrelated program session (.ok value) final ∧
    final.view = session.view ∧ final.saved ≠ [] ∧ property value

namespace Passes

theorem pure {α : Type} {value : α} {property : α → Prop} (holds : property value) :
    Passes server (.pure value : Db app α) session property :=
  fun opened => ⟨value, session, ⟨rfl, rfl⟩, rfl, opened, holds⟩

theorem andThen {α β : Type} {program : Db app α} {next : α → Db app β} {property : α → Prop} {property' : β → Prop}
    (first : Passes server program session property)
    (second : ∀ value final, property value → final.view = session.view → Passes server (next value) final property') :
    Passes server (program.bind next) session property' := by
  intro opened
  obtain ⟨value, middle, ran, same, opened, holds⟩ := first opened
  obtain ⟨value', final, ran', same', opened', holds'⟩ := second value middle holds same opened
  exact ⟨value', final, Server.orderly_bind.mpr (.inr ⟨value, middle, ran, ran'⟩), same'.trans same, opened', holds'⟩

theorem lift {α β : Type} {computed : Except Err α} {next : α → Db app β} {value : α} {property : β → Prop}
    (returned : computed = .ok value) (second : Passes server (next value) session property) :
    Passes server ((Prog.ofExcept computed : Db app α).bind next) session property := by
  subst returned
  exact second

theorem lock (key : Key) : Passes server (Tx.lock (V := Val app) key : Db app _) session
    fun found => found = session.view.lookup key := by
  intro opened
  have answered : server.answer ⟨none, false, Sample.through.oracle⟩ session (.lock key : Request (Val app) Err) =
      some (.ok (session.view.lookup key), if session.view.lookup key = none then session else session.hold key) := by
    simp only [Server.answer, Server.missed, Bool.false_and, Bool.false_eq_true, if_false]
    rw [if_neg (by simpa using opened)]
    cases session.view.lookup key with
    | none => rfl
    | some value => rfl
  have failing : ∀ error ∈ (none : Option Err), Unrelated error := by
    intro error raised
    cases raised
  refine ⟨_, _, Server.orderly_perform.mpr ⟨⟨none, false, Sample.through.oracle⟩, rfl, failing, answered⟩, ?_⟩
  split
  · exact ⟨rfl, opened, rfl⟩
  · exact ⟨rfl, opened, rfl⟩

theorem scan (wanted : List (Sigma (Val app)) → Sigma (Val app) → Bool) (relied : Bool) :
    Passes server (Tx.scan wanted relied : Db app _) session fun _ => True := fun opened =>
  ⟨_, session, Server.orderly_perform.mpr ⟨⟨none, false, Sample.through.oracle⟩, rfl, nofun, rfl⟩, rfl, opened, trivial⟩

end Passes

private theorem lockFirst_passes {wanted : Loaded app label → Bool} (texts : List String) :
    Passes server (lockFirst label wanted texts : Db app _) session fun found =>
      ∀ row ∈ found, session.view.lookup (.row label row.1) = some row.2 := by
  induction texts generalizing session with
  | nil => exact Passes.pure (by simp)
  | cons text texts ih =>
    refine (Passes.lock (.row label text)).andThen fun found final present same => ?_
    have later : Passes server (lockFirst label wanted texts : Db app _) final fun found =>
        ∀ row ∈ found, session.view.lookup (.row label row.1) = some row.2 := by
      rw [← same]
      exact ih
    cases found with
    | none => exact later
    | some row =>
      change Passes server (if _ then _ else _) _ _
      split
      · refine Passes.pure fun other member => ?_
        obtain rfl := Option.some.inj member
        exact present.symm
      · exact later

private theorem lockFiltered_passes (wanted : Loaded app label → Bool) :
    Passes server (lockFiltered label wanted : Db app _) session fun found =>
      ∀ row ∈ found, session.view.lookup (.row label row.1) = some row.2 := by
  refine (Passes.scan _ _).andThen fun entries final _ same => ?_
  rw [← same]
  exact lockFirst_passes _

/-- Every row of a protected model belongs to the scope. -/
def Belonging (app : App) (ctx : ScopeContext) (log : Log (Val app)) : Prop :=
  ∀ label config text, app.registration label = some config → config.enforce = true →
    ∀ row : Row (app.model label) text, log.lookup (.row label text) = some row →
      ∃ scope, checkScope config (.value (row.column config.scopeField.attname)) ctx = .ok scope

private theorem checkRelation_passes {field : Field} {attr : Attr} (belonging : Belonging app ctx session.view) :
    Passes server (checkRelation field attr ctx : Db app Unit) session fun _ => True := by
  unfold checkRelation
  split
  · exact Passes.pure trivial
  · exact Passes.pure trivial
  · split
    · exact Passes.pure trivial
    next target registered =>
      split
      next enforced =>
        refine (lockFiltered_passes _).andThen fun found final present same => ?_
        cases found with
        | none => exact Passes.pure trivial
        | some row =>
          obtain ⟨scope, checked⟩ := belonging _ target row.1 registered enforced row.2 (present row rfl)
          exact Passes.lift checked (Passes.pure trivial)
      · exact Passes.pure trivial

private theorem checkRelations_passes {get : String → Attr} (belonging : Belonging app ctx session.view) :
    Passes server (checkRelations config get ctx : Db app Unit) session fun _ => True := by
  unfold checkRelations
  split
  · generalize (app.model label).fields = fields
    induction fields generalizing session with
    | nil => exact Passes.pure trivial
    | cons field fields ih =>
      refine (checkRelation_passes belonging).andThen fun _ final _ same => ih ?_
      rwa [same]
  · exact Passes.pure trivial

/-- The row alone. -/
private def only (row : Loaded app label) : Session (Val app) := Session.idle [⟨.row label row.1, some row.2⟩]

/-- An instance that does not hold the stored value is rejected in some run. -/
theorem save_rejected {active : Active} {text text' : String} (registered : app.registration label = some config)
    (set : inst.pk ≠ .none) (named : (app.model label).keyText inst.pk = .ok row.1)
    (stored : checkScope config (row.get config.scopeField.attname) active.toScopeContext = .ok text)
    (held : checkScope config (inst.get (app.model label) config.scopeField.attname) active.toScopeContext = .ok text')
    (differs : (inst.get (app.model label) config.scopeField.attname).same (row.2.column config.scopeField.attname) = false) :
    ∃ final, server.Orderly Unrelated (save ⟨some active, none, []⟩ Handlers.none config inst ⟨false, false, false, none⟩)
      (only row) (.error (.unsupportedOperation "Scope changes require an explicit application migration.")) final := by
  have belonging : Belonging app active.toScopeContext (only row).view := by
    intro label' config' text' registered' _ row' present
    by_cases same : Key.row label' text' = .row label row.1
    · obtain ⟨rfl, rfl⟩ := Key.row.inj same
      obtain rfl := Option.some.inj (registered.symm.trans registered')
      obtain rfl := Option.some.inj ((Log.lookup_cons_self _ _ _).symm.trans present)
      exact ⟨text, stored⟩
    · exact nomatch (Log.lookup_cons_ne _ _ same).symm.trans present
  have loading (session : Session (Val app)) (viewed : session.view = (only row).view) :
      Passes server (loadRow label inst.pk true : Db app _) session fun found => found = some row := by
    rw [Upkeep.loadRow_eq set, named]
    refine Passes.lift rfl ((Passes.lock _).andThen fun found final present _ => Passes.pure ?_)
    have here : (only row).view.lookup (.row label row.1) = some row.2 := Log.lookup_cons_self _ _ _
    rw [present, viewed, here]
    rfl
  have checking (session : Session (Val app)) (viewed : session.view = (only row).view) (opened : session.saved ≠ []) :
      ∃ final, server.Orderly Unrelated (checkSaved config (some row) inst active.toScopeContext : Db app Unit) session
        (.error (.unsupportedOperation "Scope changes require an explicit application migration.")) final := by
    have relations : Passes server (checkRelations config (inst.get (app.model label)) active.toScopeContext : Db app Unit)
        session fun _ => True := checkRelations_passes (viewed ▸ belonging)
    obtain ⟨_, final, ran, _⟩ := relations opened
    refine ⟨final, Server.orderly_lift.mpr (.inr ⟨(), ?_, Server.orderly_lift.mpr (.inr ⟨text', held, ?_⟩)⟩)⟩
    · simp only [checkBefore, stored]
      rfl
    · refine Server.orderly_bind.mpr (.inr ⟨(), final, ran, Server.orderly_ofExcept.mpr ⟨?_, rfl⟩⟩)
      simp only [checkUnmoved, differs]
      rfl
  obtain ⟨_, second, loaded, same, opened, rfl⟩ := loading (only row).enter.enter rfl (List.cons_ne_nil _ _)
  obtain ⟨final, checked⟩ := checking second same opened
  have based : server.Orderly Unrelated (saveBase ⟨some active, none, []⟩ Handlers.none config inst ⟨false, false, false, none⟩)
      (only row).enter _ final.undo :=
    Server.Orderly.raised Sample.through.oracle (Server.orderly_bind.mpr (.inr ⟨_, _, loaded, Server.orderly_bind.mpr (.inl ⟨_, rfl, checked⟩)⟩))
  exact ⟨_, Server.Orderly.raised Sample.through.oracle based⟩

end Rejecting

/-- The row is stored, and its history is one of its scope. -/
structure Held (config : Registration (app.model label)) (row : Loaded app label) (session : Session (Val app)) : Prop where
  whole : session.Whole historyGuard
  present : session.view.lookup (.row label row.1) = some row.2
  recorded : ∀ resource : Resource, session.view.lookup (.resource label row.1) = some resource →
    identity (row.2.column config.scopeField.attname) = .ok resource.scope

theorem held_only (row : Loaded app label) : Held config row (only row) where
  whole := .idle _
  present := Log.lookup_cons_self _ _ _
  recorded _ head := nomatch (Log.lookup_cons_ne _ _ Key.noConfusion).symm.trans head

theorem harmless_none : (Handlers.none : Handlers app).Harmless :=
  ⟨⟨fun _ _ => ⟨trivial, rfl⟩, fun _ _ => trivial⟩, fun _ _ => trivial, fun _ _ => trivial⟩

/-- The guards agree on the instance: whatever else is stored, no save of it is
taken for a scope change, and a save that succeeds leaves the row in the scope. -/
structure GuardsAgree (server : Server (Val app) Err) (config : Registration (app.model label)) (row : Loaded app label)
    (inst : Instance) (ctx : Active) : Prop where
  accepted : ∀ env handlers options session error final, env.current = .ok ctx → handlers.Harmless → Held config row session →
    server.Orderly Unrelated (save env handlers config inst options) session (.error error) final → ¬ScopeRejection error
  kept : ∀ env handlers options session final, env.current = .ok ctx → handlers.Harmless → Held config row session →
    server.Orderly Unrelated (save env handlers config inst options) session (.ok ()) final →
      ∃ new : Row (app.model label) row.1, final.view.lookup (.row label row.1) = some new ∧
        InScope config ctx.scope new.column

namespace Counters

/-- A model whose scope column holds integers. -/
def model : Model where
  label := "app.counter"
  fields := [Sample.textField "id" none, Invoices.number "scope", Sample.textField "title" none]
  pk := Sample.textField "id" none
  pkDefault := false
  pkOrder := fun first second => first ≤ second
  pkMember := by simp
  distinct := by decide

def config : Registration model where
  scopeField := Invoices.number "scope"
  fields := [Sample.textField "title" none]
  enforce := true
  scopeMember := by simp [model]
  scopeNotKey := Sample.scope_ne_id
  fieldsMember := by simp [model]
  nonempty := List.cons_ne_nil _ _

def counting : App := ⟨fun _ => model, fun _ => some config, id⟩

def server : Server (Val counting) Err := ⟨.integrityError, fun _ => .ok ()⟩

def registered : Registration (counting.model "app.counter") := config

def ctx : Active := ⟨⟨"alice", "1", "", "", Sample.alice_valid, by decide, Sample.empty_short⟩, 0⟩

/-- A counter whose scope attribute is as the application sets it. -/
def counter (scope : Value) (adding : Bool) : Instance where
  pk := .str "c"
  attr name := if name = "scope" then .value scope else .value (.str "one")
  adding := adding

def saving (inst : Instance) : Db counting Unit :=
  save ⟨some ctx, none, []⟩ Handlers.none registered inst ⟨false, false, false, none⟩

def row : Loaded counting "app.counter" :=
  ⟨"c", fun name => if name = "id" then .str "c" else if name = "scope" then .int 1 else .str "one", rfl, by
    simp [counting, model, Invoices.number, Sample.textField]⟩

private theorem readNumber_unrelated {text : String} (raised : Invoices.readNumber text = .error error) :
    Unrelated error := by
  unfold Invoices.readNumber at raised
  split at raised <;> cases raised
  exact id

private theorem text_reads (name : String) (value : Json) (error : Err)
    (raised : (Sample.textField name none).expected value = .error error) : Unrelated error := by
  cases value <;> cases raised <;> exact id

private theorem number_reads (name : String) (value : Json) (error : Err)
    (raised : (Invoices.number name).expected value = .error error) : Unrelated error := by
  cases value with
  | str text => exact readNumber_unrelated raised
  | _ => cases raised <;> exact id

private theorem number_stores (name : String) (value : Value) (error : Err)
    (raised : (Invoices.number name).store value = .error error) : Unrelated error := by
  cases value with
  | str text => exact readNumber_unrelated raised
  | _ => cases raised <;> exact id

theorem independent (scope : Value) (adding : Bool) : Independent counting server (counter scope adding) where
  owns := ⟨by decide, nofun⟩
  reads label field member value error raised := by
    have plain : ∀ field ∈ model.fields, ∀ value error, field.expected value = .error error → Unrelated error := by
      simp only [model, List.forall_mem_cons]
      refine ⟨text_reads "id", number_reads "scope", text_reads "title", nofun⟩
    exact plain field member value error raised
  stores label field member value error raised := by
    have plain : ∀ field ∈ model.fields, ∀ value error, field.store value = .error error → Unrelated error := by
      simp only [model, List.forall_mem_cons]
      exact ⟨fun _ _ => nofun, number_stores "scope", fun _ _ => nofun, nofun⟩
    exact plain field member value error raised
  evaluates attname columns error raised := by
    simp only [counter] at raised
    split at raised <;> cases raised

end Counters

/-- The guards of a save agree on an instance that both scope checks accept exactly
where its attribute equals the stored value. -/
theorem guards_agree_iff {app : App} {label : String} {server : Server (Val app) Err}
    {config : Registration (app.model label)} {row : Loaded app label} {inst : Instance} {ctx : Active} {text text' : String}
    (registered : app.registration label = some config) (enforced : config.enforce = true)
    (independent : Independent app server inst)
    (alike : ∀ value, inst.get (app.model label) config.scopeField.attname = .value value →
      value.same (row.2.column config.scopeField.attname) = true →
      config.scopeField.store value = .ok (row.2.column config.scopeField.attname))
    (set : inst.pk ≠ .none) (named : (app.model label).keyText inst.pk = .ok row.1)
    (stored : checkScope config (row.get config.scopeField.attname) ctx.toScopeContext = .ok text)
    (held : checkScope config (inst.get (app.model label) config.scopeField.attname) ctx.toScopeContext = .ok text') :
    GuardsAgree server config row inst ctx ↔
      (inst.get (app.model label) config.scopeField.attname).same (row.2.column config.scopeField.attname) = true := by
  constructor
  · intro agree
    by_contra differs
    have rejects : ∃ final, server.Orderly Unrelated (save ⟨some ctx, none, []⟩ Handlers.none config inst _) (only row) _ final :=
      save_rejected registered set named stored held (by simpa using differs)
    obtain ⟨final, rejected⟩ := rejects
    exact agree.accepted _ _ _ _ _ _ rfl harmless_none (held_only row) rejected rfl
  · intro same
    have stands : Stands config row inst := ⟨set, named, same, alike⟩
    have settles {env : Env} {handlers : Handlers app} {options : SaveOptions} {session : Session (Val app)}
        (harmless : handlers.Harmless) (holds : Held config row session) :
        Settles server Unrelated (fun _ final => Keeps config row final.view) (save env handlers config inst options) session :=
      save_settles independent harmless stands ⟨⟨row.2, holds.present, rfl⟩, holds.recorded⟩ holds.present holds.whole
    constructor
    · intro env handlers options session error final _ harmless holds ran
      exact settles harmless holds _ _ ran
    · intro env handlers options session final _ harmless holds ran
      obtain ⟨new, present, kept⟩ := (settles harmless holds _ _ ran).stored
      refine ⟨new, present, ?_⟩
      obtain ⟨identified, denotes⟩ := checkScope_inScope enforced stored
      exact InScope.congr ⟨text, identified, denotes⟩ kept.symm


/-- A scope that is a number, set to the text that the context holds. -/
theorem guards_agree_iff_counter : GuardsAgree Counters.server Counters.registered Counters.row (Counters.counter (.int 1) false)
      Counters.ctx ∧
    ¬GuardsAgree Counters.server Counters.registered Counters.row (Counters.counter (.str "1") false) Counters.ctx := by
  have iff (scope : Value) (alike) (held) := @guards_agree_iff Counters.counting _ Counters.server Counters.registered
    Counters.row (Counters.counter scope false) Counters.ctx "1" "1" rfl rfl (Counters.independent scope false) alike
    nofun rfl (by decide +kernel) held
  refine ⟨(iff (.int 1) ?_ (by decide +kernel)).mpr (by decide), fun agree => ?_⟩
  · rintro value holds -
    cases holds
    rfl
  · have same := (iff (.str "1") ?_ (by decide +kernel)).mp agree
    · revert same
      decide
    · rintro value holds same
      cases holds
      cases same

/-- An instance created with the scope of the context cannot be saved again, though
both scope checks accept it and its row. -/
private def refused : Except Err Unit → Bool
  | .ok _ => false
  | .error error => error = .unsupportedOperation "Scope changes require an explicit application migration."

theorem created_counter_refused : ∃ saved final,
    Counters.server.Runs (fun _ _ => True) (Counters.saving (Counters.counter (.str "1") true)) (Session.idle []) (.ok ()) saved ∧
    (∃ row ∈ saved.view.lookup (.row "app.counter" "c"),
      checkScope Counters.registered (.value (row.column "scope")) Counters.ctx.toScopeContext = .ok "1") ∧
    checkScope Counters.registered (.value (.str "1")) Counters.ctx.toScopeContext = .ok "1" ∧
    Counters.server.Runs (fun _ _ => True) (Counters.saving (Counters.counter (.str "1") false)) saved
      (.error (.unsupportedOperation "Scope changes require an explicit application migration.")) final := by
  let choices := List.replicate 40 Sample.through
  have ran : (Counters.server.play choices (Counters.saving (Counters.counter (.str "1") true)) (Session.idle [])).any
      (fun first => first.1.toBool &&
        (first.2.view.lookup (.row "app.counter" "c")).any (fun row =>
          checkScope Counters.registered (.value (row.column "scope")) Counters.ctx.toScopeContext = .ok "1") &&
        (Counters.server.play choices (Counters.saving (Counters.counter (.str "1") false)) first.2).any
          (fun last => refused last.1)) = true := by
    decide +kernel
  obtain ⟨⟨result, saved⟩, found, tested⟩ := (Option.any_eq_true _ _).mp ran
  simp only [Bool.and_eq_true] at tested
  obtain ⟨⟨returned, stored⟩, again⟩ := tested
  obtain ⟨⟨result', final⟩, found', rejected⟩ := (Option.any_eq_true _ _).mp again
  refine ⟨saved, final, ?_, ?_, by decide +kernel, ?_⟩
  · cases result with
    | ok => exact Server.play_runs _ found
    | error => cases returned
  · obtain ⟨row, present, accepted⟩ := (Option.any_eq_true _ _).mp stored
    exact ⟨row, present, of_decide_eq_true accepted⟩
  · cases result' with
    | ok => cases rejected
    | error error =>
      obtain rfl := of_decide_eq_true rejected
      exact Server.play_runs _ found'

end PyScoped
