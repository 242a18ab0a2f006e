import PyScoped.Legacy.Plugins

/-! An uninstalled plugin is powerless as long as no transition overtakes a call between
its SELECT of the plugin and what it writes on the strength of it, and no permission is
inserted for a plugin that was swept. -/

namespace PyScoped.Legacy.Plugins
open Foundation

variable {ι : Type}

/-- States move along the table. A plugin whose uninstallation has returned stays
uninstalled, has no active permission or hook, and dispatches leave it alone. -/
structure Powerless (store : Store ι) : Prop where
  transitions : ∀ change ∈ store.changes, change.after ∈ change.before.transitions
  stays : ∀ id ∈ store.uninstalled, ∀ plugin ∈ store.tables.plugins, plugin.id = id → plugin.state = .uninstalled
  stripped : (∀ client, store.stage client = .idle) → ∀ id ∈ store.uninstalled,
    (∀ permission ∈ store.tables.permissions, permission.pluginId = id → permission.lifecycle ≠ .active) ∧
      (∀ hook ∈ store.tables.hooks, hook.pluginId = id → hook.lifecycle ≠ .active) ∧
        ∀ permissionType targetRef, store.tables.permits id permissionType targetRef = false
  unhandled : ∀ handling ∈ store.handled, handling.pluginId ∉ handling.gone

/-- A state is replaced, and a hook is inserted, while the plugin is in the state that
was found. A grant, for which the state is not looked at, finds that no uninstallation
has swept the permissions. -/
def Timely (_ : ι) (store : Store ι) : Request → Prop
  | .updateState id found _ _ => ∀ plugin ∈ store.tables.plugins, plugin.id = id → plugin.state = found
  | .insertPermission permission => permission.pluginId ∉ store.revoked
  | .insertHook hook found => ∀ plugin ∈ store.tables.plugins, plugin.id = hook.pluginId → plugin.state = found
  | _ => True

def Gone (store : Store ι) (id : String) : Prop :=
  ∀ plugin ∈ store.tables.plugins, plugin.id = id → plugin.state = .uninstalled

structure Consistent (store : Store ι) : Prop where
  transitions : ∀ change ∈ store.changes, change.after ∈ change.before.transitions
  permissions : ∀ permission ∈ store.tables.permissions, permission.pluginId ∈ store.revoked → permission.lifecycle ≠ .active
  hooks : ∀ hook ∈ store.tables.hooks, hook.pluginId ∈ store.unhooked → hook.lifecycle ≠ .active
  gone : ∀ id, id ∈ store.revoked ∨ id ∈ store.unhooked → Gone store id
  returned : ∀ id ∈ store.uninstalled, id ∈ store.revoked ∧ id ∈ store.unhooked
  began : ∀ client, ∀ id ∈ (store.stage client).gone, id ∈ store.uninstalled
  unhandled : ∀ handling ∈ store.handled, handling.pluginId ∉ handling.gone

theorem Consistent.powerless {store : Store ι} (consistent : Consistent store) : Powerless store := by
  refine ⟨consistent.transitions, fun id returned => consistent.gone id (.inl (consistent.returned id returned).1),
    fun _ id returned => ?_, consistent.unhandled⟩
  obtain ⟨revoked, unhooked⟩ := consistent.returned id returned
  have bare : ∀ permission ∈ store.tables.permissions, permission.pluginId = id → permission.lifecycle ≠ .active :=
    fun permission member same => consistent.permissions permission member (same ▸ revoked)
  refine ⟨bare, fun hook member same => consistent.hooks hook member (same ▸ unhooked), fun permissionType targetRef => ?_⟩
  rw [Tables.permits, List.any_eq_false]
  intro permission member
  simp only [Bool.and_eq_true, decide_eq_true_eq, not_and]
  exact fun own => bare permission member own.1.1

/-- What a client may rely on while others run. -/
structure Onward (client : ι) (store after : Store ι) : Prop where
  stage : after.stage client = store.stage client
  revoked : store.revoked ⊆ after.revoked
  unhooked : store.unhooked ⊆ after.unhooked
  gone : ∀ id, Gone store id → Gone after id

namespace Onward

theorem refl (client : ι) (store : Store ι) : Onward client store store :=
  ⟨rfl, List.Subset.refl _, List.Subset.refl _, fun _ gone => gone⟩

theorem trans {client : ι} {first second third : Store ι} (moved : Onward client first second)
    (moved' : Onward client second third) : Onward client first third :=
  ⟨moved'.stage.trans moved.stage, List.Subset.trans moved.revoked moved'.revoked,
    List.Subset.trans moved.unhooked moved'.unhooked, fun id gone => moved'.gone id (moved.gone id gone)⟩

end Onward

/-- What a client must know of its own before a statement. -/
def Prepared (client : ι) (store : Store ι) : Request → Prop
  | .updateState _ found target _ => target ∈ found.transitions
  | .archivePermissions pluginId => Gone store pluginId
  | .archiveHooks pluginId activeOnly => activeOnly = false → Gone store pluginId
  | .insertHook _ found => found ≠ .uninstalled
  | .callHandler hook _ => hook.pluginId ∉ (store.stage client).gone
  | .finished (.uninstall pluginId _) none => pluginId ∈ store.revoked ∧ pluginId ∈ store.unhooked
  | _ => True

variable [DecidableEq ι]

def contract : Contract Request (Store ι) ι where
  kept := Consistent
  rely := Onward
  allowed := Timely

private theorem archived_inactive {α : Type} {items : List α} {archive : α → α} {lifecycle : α → Lifecycle}
    {barred : α → Prop} (chosen : α → Prop) [DecidablePred chosen] (archives : ∀ item, lifecycle (archive item) ≠ .active)
    (bare : ∀ item ∈ items, barred item → lifecycle item ≠ .active) :
    ∀ item ∈ items.map fun item => if chosen item then archive item else item,
      barred item ∨ chosen item → lifecycle item ≠ .active := by
  intro item member
  obtain ⟨old, inside, rfl⟩ := List.mem_map.mp member
  split
  next chosen => exact fun _ => archives old
  next other => exact fun reached => bare old inside (reached.resolve_right other)

private theorem archive_inactive (permission : PluginPermission) : permission.archive.lifecycle ≠ .active := nofun

private theorem archiveHook_inactive (hook : PluginHook) : hook.archive.lifecycle ≠ .active := nofun

variable {request : Request}

namespace Consistent

variable {store : Store ι} {client : ι}

omit [DecidableEq ι] in
theorem rewritten (consistent : Consistent store) {permissions : List PluginPermission} {hooks : List PluginHook}
    {revoked unhooked : List String}
    (bare : ∀ permission ∈ permissions, permission.pluginId ∈ revoked → permission.lifecycle ≠ .active)
    (bare' : ∀ hook ∈ hooks, hook.pluginId ∈ unhooked → hook.lifecycle ≠ .active)
    (wider : store.revoked ⊆ revoked) (wider' : store.unhooked ⊆ unhooked)
    (gone : ∀ id, id ∈ revoked ∨ id ∈ unhooked → Gone store id) : Consistent { store with
      tables := { store.tables with permissions := permissions, hooks := hooks }, revoked := revoked, unhooked := unhooked } ∧
      ∀ other, Onward other store { store with
        tables := { store.tables with permissions := permissions, hooks := hooks }, revoked := revoked, unhooked := unhooked } :=
  ⟨⟨consistent.transitions, bare, bare', gone, fun id returned =>
    ⟨wider (consistent.returned id returned).1, wider' (consistent.returned id returned).2⟩, consistent.began,
    consistent.unhandled⟩, fun _ => ⟨rfl, wider, wider', fun _ gone => gone⟩⟩

theorem staged (consistent : Consistent store) {stage : Stage} {uninstalled : List String}
    (began : ∀ id ∈ stage.gone, id ∈ uninstalled) (grown : store.uninstalled ⊆ uninstalled)
    (returned : ∀ id ∈ uninstalled, id ∈ store.revoked ∧ id ∈ store.unhooked) :
    Consistent { store with stage := Function.update store.stage client stage, uninstalled := uninstalled } ∧
      ∀ other, other ≠ client →
        Onward other store { store with stage := Function.update store.stage client stage, uninstalled := uninstalled } := by
  refine ⟨⟨consistent.transitions, consistent.permissions, consistent.hooks, consistent.gone, returned, ?_, consistent.unhandled⟩,
    fun other different => ⟨Function.update_of_ne different .., List.Subset.refl _, List.Subset.refl _, fun _ gone => gone⟩⟩
  intro other id member
  by_cases same : other = client
  · subst other
    simp only [Function.update_self] at member
    exact began id member
  · simp only [Function.update_of_ne same] at member
    exact grown (consistent.began other id member)

theorem updateState (consistent : Consistent store) {id : String} {found target : PluginState} {activatedAt : Option DateTime}
    (timely : Timely client store (.updateState id found target activatedAt)) (edge : target ∈ found.transitions)
    (choice : Choice) : Consistent (answer choice client store (.updateState id found target activatedAt)).2 ∧
      ∀ other, Onward other store (answer choice client store (.updateState id found target activatedAt)).2 := by
  have gone (other : String) (was : Gone store other) :
      Gone (answer choice client store (.updateState id found target activatedAt)).2 other := by
    intro plugin member same
    obtain ⟨old, inside, rfl⟩ := List.mem_map.mp member
    split at same
    next own =>
      rw [if_pos own]
      rw [← timely old inside own, was old inside same] at edge
      cases edge
    next different =>
      rw [if_neg different]
      exact was old inside same
  refine ⟨⟨?_, consistent.permissions, consistent.hooks, fun other swept => gone other (consistent.gone other swept),
    consistent.returned, consistent.began, consistent.unhandled⟩,
    fun _ => ⟨rfl, List.Subset.refl _, List.Subset.refl _, gone⟩⟩
  intro change member
  rcases List.mem_append.mp member with earlier | new
  · exact consistent.transitions change earlier
  · obtain ⟨plugin, inside, rfl⟩ := List.mem_map.mp new
    obtain ⟨here, own⟩ := List.mem_filter.mp inside
    rw [← timely plugin here (eq_of_beq own)] at edge
    exact edge

omit [DecidableEq ι] in
theorem handled (consistent : Consistent store) {hook : PluginHook}
    (prepared : hook.pluginId ∉ (store.stage client).gone) :
    Consistent { store with handled := ⟨hook.pluginId, (store.stage client).gone⟩ :: store.handled } ∧
      ∀ other, Onward other store { store with handled := ⟨hook.pluginId, (store.stage client).gone⟩ :: store.handled } := by
  refine ⟨⟨consistent.transitions, consistent.permissions, consistent.hooks, consistent.gone, consistent.returned,
    consistent.began, ?_⟩, fun _ => ⟨rfl, List.Subset.refl _, List.Subset.refl _, fun _ gone => gone⟩⟩
  intro handling member
  rcases List.mem_cons.mp member with rfl | earlier
  · exact prepared
  · exact consistent.unhandled handling earlier

theorem answer (consistent : Consistent store) (choice : Choice)
    (prepared : Prepared client store request) (timely : Timely client store request) :
    Consistent (answer choice client store request).2 ∧
      ∀ other, other ≠ client → Onward other store (Plugins.answer choice client store request).2 := by
  have unchanged : Consistent store ∧ ∀ other, other ≠ client → Onward other store store :=
    ⟨consistent, fun other _ => .refl other store⟩
  have others {after : Store ι} (kept : Consistent after ∧ ∀ other, Onward other store after) :
      Consistent after ∧ ∀ other, other ≠ client → Onward other store after := ⟨kept.1, fun other _ => kept.2 other⟩
  cases request with
  | generate | now | evaluate | selectPlugin | selectPermission | findPermission | selectHook | hooksForPoint | handler
    | record => exact unchanged
  | began => exact consistent.staged (fun _ member => member) (List.Subset.refl _) consistent.returned
  | updateState id found target activatedAt => exact others (consistent.updateState timely prepared choice)
  | callHandler hook context => exact others (consistent.handled prepared)
  | archivePermissions pluginId =>
    have archived := archived_inactive (fun permission => permission.pluginId = pluginId)
      archive_inactive consistent.permissions
    refine others (consistent.rewritten (fun permission member swept => archived permission member ?_) consistent.hooks
      (List.subset_cons_self _ _) (List.Subset.refl _) ?_)
    · exact (List.mem_cons.mp swept).symm
    · simpa only [List.mem_cons, or_assoc, forall_eq_or_imp] using
        show Gone store pluginId ∧ _ from ⟨prepared, consistent.gone⟩
  | archivePermission id =>
    have archived := archived_inactive (fun permission => permission.id = id)
      archive_inactive consistent.permissions
    exact others (consistent.rewritten (fun permission member swept => archived permission member (.inl swept)) consistent.hooks
      (List.Subset.refl _) (List.Subset.refl _) consistent.gone)
  | archiveHooks pluginId activeOnly =>
    have archived := archived_inactive
      (fun hook => hook.pluginId = pluginId ∧ (activeOnly = true → hook.lifecycle = .active))
      archiveHook_inactive consistent.hooks
    refine others (consistent.rewritten consistent.permissions (fun hook member swept => archived hook member ?_)
      (List.Subset.refl _) ?_ ?_)
    · cases activeOnly with
      | true => exact .inl swept
      | false => exact (List.mem_cons.mp swept).symm.imp_right fun own => ⟨own, fun only => by cases only⟩
    · cases activeOnly with
      | true => exact List.Subset.refl _
      | false => exact List.subset_cons_self _ _
    · cases activeOnly with
      | true => exact consistent.gone
      | false =>
        simpa only [Bool.false_eq_true, if_false, List.mem_cons, or_left_comm, forall_eq_or_imp] using
          And.intro (prepared rfl) consistent.gone
  | archiveHook id =>
    have archived := archived_inactive (fun hook => hook.id = id) archiveHook_inactive consistent.hooks
    exact others (consistent.rewritten consistent.permissions (fun hook member swept => archived hook member (.inl swept))
      (List.Subset.refl _) (List.Subset.refl _) consistent.gone)
  | insertPermission permission =>
    dsimp only [Plugins.answer]
    split
    · exact unchanged
    · split
      · exact unchanged
      · refine others (consistent.rewritten (List.forall_mem_append.mpr ⟨consistent.permissions, ?_⟩) consistent.hooks
          (List.Subset.refl _) (List.Subset.refl _) consistent.gone)
        intro other member swept
        rw [List.mem_singleton.mp member] at swept
        exact absurd swept timely
  | insertHook hook found =>
    dsimp only [Plugins.answer]
    split
    · exact unchanged
    · split
      · exact unchanged
      next owned =>
        refine others (consistent.rewritten consistent.permissions (List.forall_mem_append.mpr ⟨consistent.hooks, ?_⟩)
          (List.Subset.refl _) (List.Subset.refl _) consistent.gone)
        intro other member swept
        rw [List.mem_singleton.mp member] at swept
        -- The row that the foreign key asks for is still in the state that was checked.
        simp only [Bool.not_eq_true', Bool.not_eq_false, List.any_eq_true, beq_iff_eq] at owned
        obtain ⟨plugin, inside, own⟩ := owned
        rw [← timely plugin inside own, consistent.gone _ (.inr swept) plugin inside own] at prepared
        exact absurd rfl prepared
  | finished made raised =>
    refine consistent.staged (fun _ member => absurd member List.not_mem_nil) ?_ ?_
    · split
      · exact List.subset_cons_self _ _
      · exact List.Subset.refl _
    · split
      · exact List.forall_mem_cons.mpr ⟨prepared, consistent.returned⟩
      · exact consistent.returned

omit [DecidableEq ι] in
theorem failed (consistent : Consistent store) (prepared : Prepared client store request) :
    Consistent (failed client store request) ∧
      ∀ other, other ≠ client → Onward other store (Plugins.failed client store request) := by
  cases request with
  | callHandler hook context =>
    have kept := consistent.handled prepared
    exact ⟨kept.1, fun other _ => kept.2 other⟩
  | _ => exact ⟨consistent, fun other _ => .refl other store⟩

end Consistent

theorem serve_cases {choice : Choice} {client : ι} {store after : Store ι}
    {reply : Except Raised (Reply request)} (answered : serve client choice store request = some (reply, after)) :
    (∃ error, reply = .error error ∧ after = failed client store request ∧ request.fallible = true) ∨
      (reply, after) = answer choice client store request := by
  unfold serve at answered
  split at answered
  next fallible =>
    cases answered
    exact .inl ⟨_, rfl, rfl, fallible⟩
  · exact .inr (Option.some.inj answered).symm

theorem Consistent.step {store after : Store ι} (consistent : Consistent store) {choice : Choice} {client : ι}
    {reply : Except Raised (Reply request)} (prepared : Prepared client store request)
    (timely : Timely client store request) (answered : serve client choice store request = some (reply, after)) :
    Consistent after ∧ ∀ other, other ≠ client → Onward other store after := by
  obtain ⟨_, -, rfl, -⟩ | same := serve_cases answered
  · exact consistent.failed prepared
  · have advanced := consistent.answer choice prepared timely
    rwa [← same] at advanced

variable {client : ι} {α β : Type}

/-- Where the program returns, its postcondition holds. -/
def Runs (client : ι) (program : Program α) (state : Store ι) (post : α → Store ι → Prop) : Prop :=
  contract.Safe serve client (fun result final => match result with
    | .ok value => post value final
    | .error _ => True) program state

variable {program : Program α} {state : Store ι}

namespace Runs

theorem bind {next : α → Program β} {middle : α → Store ι → Prop}
    {post : β → Store ι → Prop} (first : Runs client program state middle)
    (rest : ∀ value final, middle value final → Runs client (next value) final post) :
    Runs client (program.bind next) state post := by
  refine Contract.Safe.bind (Contract.Safe.weaken first fun result final reached => ?_)
  cases result with
  | ok value => exact rest value final reached
  | error error => trivial

theorem attempt {post : α → Store ι → Prop} (runs : Runs client program state post) :
    Runs client program.attempt state fun result final => ∀ value, result = .ok value → post value final := by
  refine Contract.Safe.attempt (Contract.Safe.weaken runs fun result final reached => ?_)
  rintro value rfl
  exact reached

theorem tryCatch {body : Program α} {handler : Raised → Program α} {post : α → Store ι → Prop}
    (runs : Runs client body state post) (caught : ∀ error final, Runs client (handler error) final post) :
    Runs client (MonadExcept.tryCatch body handler) state post := by
  refine Contract.Safe.tryCatch (Contract.Safe.weaken runs fun result final reached => ?_)
  cases result with
  | ok value => exact reached
  | error error => exact caught error final

theorem lift {result : Except Raised α} {next : α → Program β} {post : β → Store ι → Prop}
    (rest : ∀ value, Runs client (next value) state post) : Runs client ((Prog.ofExcept result).bind next) state post := by
  cases result with
  | ok value => exact rest value
  | error error => trivial

theorem perform {post : Reply request → Store ι → Prop}
    (prepared : ∀ now, Onward client state now → Prepared client now request)
    (effect : ∀ (choice : Choice) now, Consistent now → Onward client state now → ∀ value,
      (answer choice client now request).1 = .ok value → post value (answer choice client now request).2) :
    Runs client (Prog.perform request) state post := by
  refine Contract.Safe.perform fun now consistent moved timely choice reply after answered => ?_
  obtain ⟨kept, others⟩ := consistent.step (prepared now moved) timely answered
  refine ⟨kept, others, ?_⟩
  cases reply with
  | error error => trivial
  | ok value =>
    obtain ⟨_, wrong, -⟩ | same := serve_cases answered
    · cases wrong
    · have reached := effect choice now consistent moved value (congrArg Prod.fst same).symm
      rwa [← same] at reached

end Runs

/-- Statements that need no preparation. -/
def Plain : Request → Prop
  | .updateState _ _ _ _ | .archivePermissions _ | .insertHook _ _ | .callHandler _ _ | .finished _ _ => False
  | .archiveHooks _ activeOnly => activeOnly = true
  | _ => True

omit [DecidableEq ι] in
theorem Plain.prepared (plain : Plain request) (store : Store ι) : Prepared client store request := by
  cases request with
  | updateState | archivePermissions | insertHook | callHandler | finished => exact plain.elim
  | archiveHooks pluginId activeOnly => exact fun all => absurd (plain.symm.trans all) nofun
  | _ => trivial

/-- Statements that write nothing. -/
def Quiet : Request → Prop
  | .generate | .now | .evaluate _ _ _ _ _ | .selectPlugin _ | .selectPermission _ | .findPermission _ _ _ => True
  | .selectHook _ | .hooksForPoint _ | .handler _ | .record _ => True
  | _ => False

theorem Quiet.answer (quiet : Quiet request) (choice : Choice) (store : Store ι) :
    (answer choice client store request).2 = store := by
  cases request with
  | generate | now | evaluate | selectPlugin | selectPermission | findPermission | selectHook | hooksForPoint | handler
    | record => rfl
  | _ => exact quiet.elim

theorem plain_runs (only : program.Only Plain) :
    Runs client program state fun _ _ => True := by
  have safe : contract.Safe serve client (fun _ _ => True) program state :=
    Contract.Safe.keeping (fun request choice now reply after plain consistent timely answered =>
      Consistent.step consistent (plain.prepared now) timely answered) only
  refine safe.weaken fun result _ _ => ?_
  cases result <;> trivial

theorem quiet_runs (only : program.Only Quiet) :
    Runs client program state fun _ final => Onward client state final := by
  have safe : contract.Safe serve client (fun result final => Onward client state final ∧ ∀ value, result = .ok value → True)
      program state :=
    Contract.Safe.only (fun state => .refl client state) (fun _ _ _ => Onward.trans)
      (fun request choice now reply after (quiet : Quiet request) consistent _ answered => by
        have same : after = now := by
          obtain ⟨_, -, rfl, -⟩ | same := serve_cases answered
          · cases request with
            | callHandler => exact quiet.elim
            | _ => rfl
          · exact (congrArg Prod.snd same).trans (quiet.answer choice now)
        subst same
        exact ⟨consistent, fun other => .refl other after⟩)
      only (Prog.Returns.trivial program)
  refine safe.weaken fun result final reached => ?_
  cases result with
  | ok value => exact reached.1
  | error error => trivial

variable (self : Wiring)

theorem recordIf_only {permitted : Request → Prop} (trace : Trace) (permits : permitted (.record trace)) :
    (recordIf self trace).Only permitted := by
  unfold recordIf
  cases self.audit with
  | true => exact Prog.Only.perform permits
  | false => trivial

theorem checkRule_quiet (action principalId objectId : String) (scopeId : Option String) :
    (checkRule self action principalId objectId scopeId).Only Quiet := by
  unfold checkRule
  cases self.ruleEngine with
  | true =>
    refine Prog.Only.bind (Prog.Only.perform trivial) fun result => ?_
    split <;> trivial
  | false => trivial

theorem checkDispatchRule_quiet (hookPoint : String) : (checkDispatchRule self hookPoint).Only Quiet := by
  unfold checkDispatchRule
  cases self.ruleEngine with
  | true =>
    refine Prog.Only.bind (Prog.Only.perform trivial) fun result => ?_
    split <;> trivial
  | false => trivial

theorem admits_quiet (hook : PluginHook) (hookPoint : String) : (admits self hook hookPoint).Only Quiet := by
  unfold admits
  cases self.enforceHookPermissions with
  | true => exact Prog.Only.perform trivial
  | false => trivial

theorem getPluginOrRaise_quiet (pluginId : String) : (getPluginOrRaise pluginId).Only Quiet := by
  refine Prog.Only.bind (Prog.Only.perform trivial) fun row => ?_
  cases row <;> trivial

theorem Quiet.plain (quiet : Quiet request) : Plain request := by
  cases request with
  | updateState | archivePermissions | archiveHooks | insertHook | callHandler | finished => exact quiet.elim
  | _ => trivial

/-- A transition writes what the table allows from the state that was found, and one
to the last state leaves the plugin in it. -/
theorem transition_runs (pluginId : String) (target : PluginState) (actorId : String) (action : ActionType)
    : Runs client (transition self pluginId target actorId action) state fun _ final =>
      target = .uninstalled → Gone final pluginId := by
  refine (quiet_runs (getPluginOrRaise_quiet pluginId)).bind fun plugin _ _ => Runs.lift fun _ => ?_
  refine (quiet_runs (checkRule_quiet self _ _ _ _)).bind fun _ _ _ => ?_
  change Runs client (if _ then _ else _) _ _
  split
  · trivial
  next admissible =>
  have edge : target ∈ plugin.state.transitions := by simpa [Plugin.canTransitionTo] using admissible
  refine (quiet_runs (Prog.Only.perform (show Quiet .now from trivial))).bind fun ts second _ => ?_
  have updating (activatedAt : Option DateTime) :
      Runs client (Prog.perform (Request.updateState pluginId plugin.state target activatedAt)) second fun _ final =>
        target = .uninstalled → Gone final pluginId := by
    refine Runs.perform (fun _ _ => edge) fun choice now _ _ value _ last plugin member same => ?_
    obtain ⟨old, inside, rfl⟩ := List.mem_map.mp member
    split at same
    next own =>
      rw [if_pos own]
      exact last
    next different => exact absurd same different
  refine (updating _).bind fun _ third gone => ?_
  refine (quiet_runs (recordIf_only self _ trivial)).bind fun _ last moved => ?_
  exact fun uninstalled => moved.gone _ (gone uninstalled)

theorem uninstall_runs (pluginId actorId : String) :
    Runs client (uninstall self pluginId actorId) state fun _ final =>
      pluginId ∈ final.revoked ∧ pluginId ∈ final.unhooked := by
  refine (transition_runs self _ _ _ _).bind fun plugin second gone => ?_
  have revoking : Runs client (Prog.perform (Request.archivePermissions pluginId)) second fun _ final =>
      pluginId ∈ final.revoked ∧ Gone final pluginId :=
    Runs.perform (fun now moved => moved.gone _ (gone rfl)) fun _ _ _ moved _ _ =>
      ⟨List.mem_cons_self, moved.gone _ (gone rfl)⟩
  refine revoking.bind fun _ third revoked => ?_
  have unhooking : Runs client (Prog.perform (Request.archiveHooks pluginId false)) third fun _ final =>
      pluginId ∈ final.revoked ∧ pluginId ∈ final.unhooked :=
    Runs.perform (fun _ moved _ => moved.gone _ revoked.2) fun _ _ _ moved _ _ =>
      ⟨moved.revoked revoked.1, List.mem_cons_self⟩
  exact unhooking.bind fun _ last swept => swept

theorem suspend_runs (pluginId actorId : String) :
    Runs client (suspend self pluginId actorId) state fun _ _ => True := by
  refine (transition_runs self _ _ _ _).bind fun plugin second _ => ?_
  exact plain_runs (Prog.Only.bind (Prog.Only.perform rfl) fun _ => trivial)

theorem requireActive_runs (pluginId : String) :
    Runs client (requireActive pluginId) state fun _ final => pluginId ∉ (final.stage client).gone := by
  have selecting : Runs client (Prog.perform (Request.selectPlugin pluginId)) state fun (row : Option Plugin) final =>
      ∀ plugin ∈ row, plugin.state = .active → pluginId ∉ (final.stage client).gone := by
    refine Runs.perform (fun _ _ => trivial) fun choice now consistent _ row returned plugin found active before => ?_
    cases returned
    have own := List.find?_some (p := fun other : Plugin => other.id == pluginId) found
    have gone := consistent.gone _ (.inl (consistent.returned _ (consistent.began client _ before)).1)
    have last := gone plugin (List.mem_of_find?_eq_some found) (eq_of_beq own)
    rw [active] at last
    cases last
  refine selecting.bind fun row final found => ?_
  cases row with
  | none => trivial
  | some plugin =>
    change Runs client (if _ then _ else _) _ _
    split
    next active => exact found plugin rfl active
    · trivial

theorem failHook_runs (hook : PluginHook) (error : String) (stopOnFailure : Bool) (progress : DispatchResult)
    : Runs client (failHook self hook error stopOnFailure progress) state fun _ _ => True :=
  plain_runs (Prog.Only.bind (recordIf_only self _ trivial) fun _ => trivial)

theorem activeHook_runs (hook : PluginHook) :
    Runs client (MonadExcept.tryCatch (do requireActive hook.pluginId; return true : Program Bool) fun
      | .scoped .pluginSandbox _ _ => return false
      | error => throw error) state fun active final => active = true → hook.pluginId ∉ (final.stage client).gone := by
  refine Runs.tryCatch ((requireActive_runs _).bind fun _ final apart _ => apart) fun error final => ?_
  split
  · intro active
    cases active
  · trivial

theorem runHook_runs (hook : PluginHook) (context : Json) (stopOnFailure : Bool) (progress : DispatchResult)
    : Runs client (runHook self hook context stopOnFailure progress) state fun _ _ => True := by
  refine (activeHook_runs hook).bind fun active second apart => ?_
  cases active with
  | false => trivial
  | true =>
    refine (quiet_runs (admits_quiet self hook _)).bind fun admitted third moved => ?_
    cases admitted with
    | false => trivial
    | true =>
      refine (quiet_runs (Prog.Only.perform (show Quiet (.handler _) from trivial))).bind fun registered fourth moved' => ?_
      cases registered with
      | false => exact failHook_runs self _ _ _ _
      | true =>
        have calling : Runs client (Prog.perform (Request.callHandler hook context)) fourth fun _ _ => True := by
          refine Runs.perform (fun now moved'' => ?_) fun _ _ _ _ _ _ => trivial
          unfold Prepared
          rw [moved''.stage, moved'.stage, moved.stage]
          exact apart rfl
        refine calling.attempt.bind fun answered fifth _ => ?_
        cases answered with
        | error error => exact failHook_runs self _ _ _ _
        | ok result =>
          have recording : Runs client (recordExecution self hook [("success", .bool true)]) fifth fun _ _ => True :=
            plain_runs (recordIf_only self _ trivial)
          refine recording.attempt.bind fun recorded last _ => ?_
          cases recorded with
          | error error => exact failHook_runs self _ _ _ _
          | ok _ => trivial

theorem runHooks_runs (context : Json) (stopOnFailure : Bool) (hooks : List PluginHook) (progress : DispatchResult)
    : Runs client (runHooks self context stopOnFailure hooks progress) state fun _ _ => True := by
  induction hooks generalizing progress state with
  | nil => trivial
  | cons hook hooks ih =>
    refine (runHook_runs self hook context stopOnFailure progress).bind fun (progress, left) final _ => ?_
    cases left with
    | true => trivial
    | false => exact ih progress

theorem dispatch_runs (hookPoint : String) (context : Json) (stopOnFailure : Bool) :
    Runs client (dispatch self hookPoint context stopOnFailure) state fun _ _ => True := by
  refine (quiet_runs (checkDispatchRule_quiet self hookPoint)).bind fun _ second _ => ?_
  refine (quiet_runs (Prog.Only.perform (show Quiet (.hooksForPoint hookPoint) from trivial))).bind fun hooks third _ => ?_
  exact runHooks_runs self context stopOnFailure hooks _

theorem grantPermission_plain (pluginId permissionType targetRef grantedBy : String) :
    (grantPermission self pluginId permissionType targetRef grantedBy).Only Plain := by
  refine Prog.Only.bind ((getPluginOrRaise_quiet _).weaken fun _ => Quiet.plain) fun plugin => ?_
  refine Prog.Only.bind (Prog.Only.ofExcept _) fun _ => Prog.Only.bind (Prog.Only.perform trivial) fun ts => ?_
  refine Prog.Only.bind (Prog.Only.perform trivial) fun pid => Prog.Only.bind (Prog.Only.perform trivial) fun _ => ?_
  exact Prog.Only.bind (recordIf_only self _ trivial) fun _ => trivial

theorem revokePermission_plain (permissionId actorId : String) : (revokePermission self permissionId actorId).Only Plain := by
  refine Prog.Only.bind (Prog.Only.perform trivial) fun row => ?_
  cases row with
  | none => trivial
  | some permission =>
    refine Prog.Only.bind ((getPluginOrRaise_quiet _).weaken fun _ => Quiet.plain) fun plugin => ?_
    refine Prog.Only.bind (Prog.Only.ofExcept _) fun _ => Prog.Only.bind (Prog.Only.perform trivial) fun _ => ?_
    exact recordIf_only self _ trivial

theorem registerHook_runs (pluginId hookPoint handlerRef actorId : String) (priority : Int) :
    Runs client (registerHook self pluginId hookPoint handlerRef actorId priority) state fun _ _ => True := by
  refine (quiet_runs (getPluginOrRaise_quiet pluginId)).bind fun plugin _ _ => Runs.lift fun _ => ?_
  change Runs client (if _ then _ else _) _ _
  split
  · trivial
  next admissible =>
  have present : plugin.state ≠ .uninstalled := fun last => admissible (last ▸ ⟨nofun, nofun⟩)
  refine (quiet_runs (Prog.Only.perform (show Quiet .generate from trivial))).bind fun hid second _ => ?_
  have inserting (hook : PluginHook) :
      Runs client (Prog.perform (Request.insertHook hook plugin.state)) second fun _ _ => True :=
    Runs.perform (fun _ _ => present) fun _ _ _ _ _ _ => trivial
  refine (inserting _).bind fun _ third _ => ?_
  exact plain_runs (Prog.Only.bind (recordIf_only self _ trivial) fun _ => trivial)

theorem deactivateHook_plain (hookId actorId : String) : (deactivateHook self hookId actorId).Only Plain := by
  refine Prog.Only.bind (Prog.Only.perform trivial) fun row => ?_
  cases row with
  | none => trivial
  | some hook =>
    refine Prog.Only.bind ((getPluginOrRaise_quiet _).weaken fun _ => Quiet.plain) fun plugin => ?_
    refine Prog.Only.bind (Prog.Only.ofExcept _) fun _ => Prog.Only.bind (Prog.Only.perform trivial) fun _ => ?_
    exact recordIf_only self _ trivial

/-- What a client must have done before it may say that its call returned. -/
def Ended (made : Call) (store : Store ι) : Prop :=
  match made with
  | .uninstall pluginId _ => pluginId ∈ store.revoked ∧ pluginId ∈ store.unhooked
  | _ => True

theorem invoke_runs (made : Call) : Runs client (invoke self made) state fun _ final => Ended made final := by
  cases made with
  | activate pluginId actorId => exact (transition_runs self _ _ _ _).bind fun _ _ _ => trivial
  | suspend pluginId actorId => exact (suspend_runs self pluginId actorId).bind fun _ _ _ => trivial
  | uninstall pluginId actorId => exact (uninstall_runs self pluginId actorId).bind fun _ _ swept => swept
  | grantPermission => exact (plain_runs (grantPermission_plain self _ _ _ _)).bind fun _ _ _ => trivial
  | revokePermission => exact (plain_runs (revokePermission_plain self _ _)).bind fun _ _ _ => trivial
  | registerHook => exact (registerHook_runs self _ _ _ _ _).bind fun _ _ _ => trivial
  | deactivateHook => exact (plain_runs (deactivateHook_plain self _ _)).bind fun _ _ _ => trivial
  | dispatch => exact (dispatch_runs self _ _ _).bind fun _ _ _ => trivial

theorem call_runs (made : Call) : Runs client (call self made) state fun _ _ => True := by
  have beginning : Runs client (Prog.perform Request.began) state fun _ _ => True := plain_runs (Prog.Only.perform trivial)
  refine beginning.bind fun _ second _ => (invoke_runs self made).attempt.bind fun result third ended => ?_
  have finishing (raised : Option Raised) (ready : raised = none → Ended made third) :
      Runs client (Prog.perform (Request.finished made raised)) third fun _ _ => True := by
    refine Runs.perform (fun now moved => ?_) fun _ _ _ _ _ _ => trivial
    cases made with
    | uninstall pluginId actorId =>
      cases raised with
      | none =>
        obtain ⟨revoked, unhooked⟩ : pluginId ∈ third.revoked ∧ pluginId ∈ third.unhooked := ready rfl
        exact ⟨moved.revoked revoked, moved.unhooked unhooked⟩
      | some error => trivial
    | _ => cases raised <;> trivial
  cases result with
  | ok outcome => exact (finishing none fun _ => ended outcome rfl).bind fun _ _ _ => trivial
  | error error => exact (finishing (some error) nofun).bind fun _ _ _ => trivial

theorem Client.safe {program : Program Unit} (runs : Client self program) :
    contract.Safe serve client (fun _ _ => True) program state := by
  induction runs generalizing state with
  | done => trivial
  | call made next each ih =>
    refine Contract.Safe.bind (Contract.Safe.weaken (call_runs self made) fun result final _ => ?_)
    cases result with
    | ok value => exact ih value
    | error error => trivial

/-- In every interleaving whose statements are timely, uninstalled plugins are powerless. -/
theorem uninstalled_powerless {first world : Interleaved Request Reply Raised (Store ι) ι}
    (idle : ∀ client, first.state.stage client = .idle) (fresh : first.state.changes = [] ∧ first.state.handled = [])
    (unswept : first.state.revoked = [] ∧ first.state.unhooked = [] ∧ first.state.uninstalled = [])
    (clients : ∀ client, Client self (first.programs client))
    (reached : Interleaved.Reaches serve Timely first world) : Powerless world.state := by
  have start : Consistent first.state := by
    obtain ⟨noChanges, noHandled⟩ := fresh
    obtain ⟨noneRevoked, noneUnhooked, noneUninstalled⟩ := unswept
    refine ⟨by simp [noChanges], by simp [noneRevoked], by simp [noneUnhooked], by simp [noneRevoked, noneUnhooked],
      by simp [noneUninstalled], fun client id member => ?_, by simp [noHandled]⟩
    rw [idle client] at member
    cases member
  have reached' : Interleaved.Reaches serve contract.allowed first world := reached
  exact (Interleaved.Reaches.safe contract reached' Onward.refl (fun _ _ _ _ => Onward.trans) start fun client =>
    Client.safe self (clients client)).1.powerless

section Sample

private def bare : Wiring := ⟨false, false, false⟩

private theorem noon_bounded : 2026 < 10000 ∧ 1 < 100 ∧ 2 < 100 ∧ 12 < 100 ∧ 0 < 100 ∧ 0 < 100 ∧ 0 < 1000000 := by decide

private def noon : DateTime := ⟨2026, 1, 2, 12, 0, 0, 0, noon_bounded⟩

private def indexer : Plugin :=
  ⟨"p", "indexer", "ann", noon, "0.1.0", "", none, .obj [], .active, some noon, .obj []⟩

private def installed : Store Unit := ⟨⟨[indexer], [], []⟩, fun _ => .idle, [], [], [], [], []⟩

private def granting : Call := .grantPermission "p" "scope_access" "s" "ann"

/-- One client makes the calls one after the other. -/
private def calling : List Call → Program Unit
  | [] => .pure ()
  | made :: calls => (call bare made).bind fun _ => calling calls

private theorem calling_client (calls : List Call) : Client bare (calling calls) := by
  induction calls with
  | nil => exact .done
  | cons made calls ih => exact .call made _ fun _ => ih

private def turns (count : Nat) : List (Unit × Choice) :=
  List.replicate count ((), ⟨none, "g", noon, ⟨true, [], []⟩, true, .null⟩)

private instance (client : Unit) (store : Store Unit) (request : Request) : Decidable (Timely client store request) := by
  unfold Timely
  split <;> infer_instance

private def isIdle : Stage → Bool
  | .idle => true
  | .running _ => false

private theorem isIdle_eq {stage : Stage} (idle : isIdle stage = true) : stage = .idle := by
  cases stage with
  | idle => rfl
  | running gone => cases idle

/-- `grant_permission` asks for the owner, not for the state of the plugin: what is
granted after the uninstallation is there to stay. -/
theorem uninstalled_plugin_granted :
    ∃ world, Interleaved.Reaches serve (fun _ _ _ => True)
        ⟨installed, fun _ => calling [.uninstall "p" "ann", granting]⟩ world ∧
      (∀ client : Unit, Client bare ((fun _ => calling [.uninstall "p" "ann", granting]) client)) ∧
        ¬Powerless world.state := by
  have ran : ((Interleaved.mk installed fun _ => calling [.uninstall "p" "ann", granting]).run serve
      (fun _ _ _ => True) (turns 13)).any (fun world => isIdle (world.state.stage ()) &&
        world.state.uninstalled.contains "p" && world.state.tables.permits "p" "scope_access" "s") = true := by
    decide +kernel
  obtain ⟨world, found, tested⟩ := (Option.any_eq_true _ _).mp ran
  simp only [Bool.and_eq_true, List.contains_iff_mem] at tested
  obtain ⟨⟨idle, returned⟩, permits⟩ := tested
  refine ⟨world, Interleaved.run_reaches .start found, fun _ => calling_client _, fun powerless => ?_⟩
  have stripped := powerless.stripped (fun _ => isIdle_eq idle) "p" returned
  rw [stripped.2.2 "scope_access" "s"] at permits
  cases permits

theorem uninstalled_powerless_granted_before :
    ∃ world, Interleaved.Reaches serve Timely ⟨installed, fun _ => calling [granting, .uninstall "p" "ann"]⟩ world ∧
      "p" ∈ world.state.uninstalled ∧ world.state.tables.permissions.length = 1 ∧ Powerless world.state := by
  have ran : ((Interleaved.mk installed fun _ => calling [granting, .uninstall "p" "ann"]).run serve
      Timely (turns 13)).any (fun world =>
        world.state.uninstalled.contains "p" && world.state.tables.permissions.length == 1) = true := by
    decide +kernel
  obtain ⟨world, found, tested⟩ := (Option.any_eq_true _ _).mp ran
  simp only [Bool.and_eq_true, List.contains_iff_mem, beq_iff_eq] at tested
  have reached := Interleaved.run_reaches .start found
  exact ⟨world, reached, tested.1, tested.2, uninstalled_powerless bare (fun _ => rfl) ⟨rfl, rfl⟩ ⟨rfl, rfl, rfl⟩
    (fun _ => calling_client _) reached⟩

end Sample

end PyScoped.Legacy.Plugins
