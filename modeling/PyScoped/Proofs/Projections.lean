import PyScoped.Legacy.Visibility

/-! What projections grant after a sequence of calls, against what was asked for. -/

namespace PyScoped.Legacy
open Foundation Tenancy

namespace ProjectionManager

/-- The level that was asked for a pair and not taken back. -/
abbrev Asked := String → String → Option AccessLevel

/-- The level of the active projection of each pair. -/
def current (rows : Overlay TenancyRow) : Asked := fun scopeId objectId =>
  match rows (.projection scopeId objectId) with
  | some (projection : ScopeProjection) => if projection.lifecycle = .active then some projection.accessLevel else none
  | none => none

/-- The owner of an object and a scope that takes projections. -/
def Admitted (rows : Overlay TenancyRow) (scopeId objectId projectedBy : String) : Prop :=
  (∃ scope : Scope, rows (.scope scopeId) = some scope ∧ scope.isFrozen = false ∧ scope.isArchived = false) ∧
    rows (.object objectId) = some projectedBy

def Member (rows : Overlay TenancyRow) (now scopeId principalId : String) : Prop :=
  ∃ role, ∃ membership : ScopeMembership, rows (.membership scopeId principalId role) = some membership ∧
    membership.holds now = true

/-- The principal is a member of the scope and has no other path to the object. -/
structure Through (rows : Overlay TenancyRow) (now scopeId principalId objectId : String) : Prop where
  member : Member rows now scopeId principalId
  foreign : rows (.object objectId) ≠ some principalId
  single : ∀ other, other ≠ scopeId → Member rows now other principalId → current rows other objectId = none

namespace Call

/-- What a call that has returned asks for. -/
def asking (asked : Asked) : Call → Except Raised Outcome → Asked
  | .project scopeId objectId _ accessLevel, .ok _ =>
    Function.update asked scopeId (Function.update (asked scopeId) objectId (some accessLevel))
  | .revokeProjection scopeId objectId _, .ok _ =>
    Function.update asked scopeId (Function.update (asked scopeId) objectId none)
  | _, .error _ => asked

/-- A projection that is returned is the active row of its pair, at the level that was
requested; revoking tells whether the pair was projected. -/
def Answers (asked : Asked) (before after : Overlay TenancyRow) : Call → Except Raised Outcome → Prop
  | .project scopeId objectId _ accessLevel, .ok (.projection projection) =>
    after (.projection scopeId objectId) = some projection ∧ projection.lifecycle = .active ∧
      projection.accessLevel = accessLevel
  | .project scopeId objectId projectedBy _, .error _ => ¬ Admitted before scopeId objectId projectedBy
  | .revokeProjection scopeId objectId _, .ok (.revoked found) => found = true ↔ asked scopeId objectId ≠ none
  | _, _ => False

/-- The pair is not projected at another level than the one that is requested. -/
def Meets (rows : Overlay TenancyRow) : Call → Prop
  | .project scopeId objectId projectedBy accessLevel => Admitted rows scopeId objectId projectedBy →
      ∀ level, current rows scopeId objectId = some level → level = accessLevel
  | .revokeProjection _ _ _ => True

end Call

/-- Members get what was asked for. -/
def Grants (scopeIds : List String) (asked : Asked) (rows : Overlay TenancyRow) : Prop :=
  ∀ now scopeId principalId objectId, Through rows now scopeId principalId objectId →
    VisibilityEngine.getAccessLevel scopeIds rows now principalId objectId = asked scopeId objectId

variable (manager : ProjectionManager) (scopeIds : List String)

/-- Every call is answered as by what was asked for, and grants it. -/
def Granted : Store Unit → Asked → List Turn → Prop
  | _, _, [] => True
  | store, asked, turn :: turns =>
    let after := (manager.run turn store).2
    let asked' := turn.call.asking asked (manager.run turn store).1
    (turn.call.Answers asked store.tables.committed after.tables.committed (manager.run turn store).1 ∧
      Grants scopeIds asked' after.tables.committed) ∧ Granted after asked' turns

/-- No call requests a pair that is projected at another level. -/
def Plain : Store Unit → List Turn → Prop
  | _, [] => True
  | store, turn :: turns => turn.call.Meets store.tables.committed ∧ Plain (manager.run turn store).2 turns

variable {manager scopeIds} {store : Store Unit}
variable {rows : Overlay TenancyRow} {objectId scopeId : String}

theorem current_of_some {projection : ScopeProjection}
    (found : rows (.projection scopeId objectId) = some projection) : current rows scopeId objectId =
      if projection.lifecycle = .active then some projection.accessLevel else none := by
  simp only [current, found]

theorem current_of_none
    (missing : rows (.projection scopeId objectId) = none) : current rows scopeId objectId = none := by
  simp only [current, missing]

theorem mem_projectedLevels {now principalId : String} {level : AccessLevel} :
    level ∈ VisibilityEngine.projectedLevels scopeIds rows now principalId objectId ↔
      ∃ scopeId ∈ scopeIds, current rows scopeId objectId = some level ∧ Member rows now scopeId principalId := by
  unfold VisibilityEngine.projectedLevels
  rw [List.mem_flatMap]
  refine exists_congr fun scopeId => and_congr_right fun _ => ?_
  split
  · next projection found =>
    rw [current_of_some found]
    by_cases active : projection.lifecycle = .active
    · simp only [if_pos active, List.mem_filterMap, Option.some.injEq]
      constructor
      · rintro ⟨role, -, given⟩
        split at given
        · next membership held =>
          by_cases holds : membership.holds now = true
          · rw [if_pos holds] at given
            exact ⟨Option.some.inj given, role, membership, held, holds⟩
          · rw [if_neg holds] at given
            cases given
        · cases given
      · rintro ⟨rfl, role, membership, held, holds⟩
        refine ⟨role, role.mem_all, ?_⟩
        simp only [held, holds, if_true]
    · simp [active]
  · next missing =>
    rw [current_of_none missing]
    simp

theorem owns_eq_false {principalId : String}
    (foreign : rows (.object objectId) ≠ some principalId) : VisibilityEngine.owns rows principalId objectId = false := by
  unfold VisibilityEngine.owns
  split
  · next owner found =>
    rw [decide_eq_false_iff_not]
    rintro rfl
    exact foreign found
  · rfl

theorem getAccessLevel_eq {now principalId : String}
    (listed : current rows scopeId objectId ≠ none → scopeId ∈ scopeIds)
    (through : Through rows now scopeId principalId objectId) :
    VisibilityEngine.getAccessLevel scopeIds rows now principalId objectId = current rows scopeId objectId := by
  have only : ∀ level ∈ VisibilityEngine.projectedLevels scopeIds rows now principalId objectId,
      current rows scopeId objectId = some level := by
    intro level member
    obtain ⟨other, -, projected, joined⟩ := mem_projectedLevels.mp member
    by_cases same : other = scopeId
    · rwa [same] at projected
    · rw [through.single other same joined] at projected
      cases projected
  unfold VisibilityEngine.getAccessLevel
  rw [owns_eq_false through.foreign, if_neg Bool.false_ne_true]
  cases projected : current rows scopeId objectId with
  | none =>
    rw [List.argmax_eq_none, List.eq_nil_iff_forall_not_mem]
    intro level member
    cases projected.symm.trans (only level member)
  | some level =>
    have member := mem_projectedLevels.mpr ⟨scopeId, listed (by simp [projected]), projected, through.member⟩
    cases highest : (VisibilityEngine.projectedLevels scopeIds rows now principalId objectId).argmax AccessLevel.priority with
    | none =>
      rw [List.argmax_eq_none.mp highest] at member
      cases member
    | some other => exact (only other (List.argmax_mem highest)).symm.trans projected

/-- The projection that a call leaves as the row of its pair, at the level that it had
or that is requested. -/
structure Leaves (before : Overlay TenancyRow) (scopeId objectId : String) (accessLevel : AccessLevel)
    (projection : ScopeProjection) (after : Store Unit) : Prop where
  closed : after.tables.pending () = none
  committed : after.tables.committed = Function.update before (.projection scopeId objectId) (some projection)
  named : projection.scopeId = scopeId ∧ projection.objectId = objectId
  active : projection.lifecycle = .active
  kept : ∀ level, current before scopeId objectId = some level → projection.accessLevel = level
  fresh : current before scopeId objectId = none → projection.accessLevel = accessLevel

section Programs
variable (turn : Turn) {α : Type}

private theorem alone_select (closed : store.tables.pending () = none) (key : TenancyKey)
    (next : Except Raised (Option (TenancyRow key)) → Tenancy.Program α) :
    Prog.alone (answer turn) (Prog.request (Request.select key) next) store =
      (next (.ok (store.tables.committed key))).alone (answer turn) store :=
  congrArg (fun rows : Overlay TenancyRow => (next (.ok (rows key))).alone (answer turn) store) (Tables.view_closed closed)

private theorem alone_now (next : Except Raised DateTime → Tenancy.Program α) :
    Prog.alone (answer turn) (Prog.request Request.now next) store = (next (.ok turn.now)).alone (answer turn) store := rfl

private theorem alone_generateId (next : Except Raised ScopedId → Tenancy.Program α) :
    Prog.alone (answer turn) (Prog.request Request.generateId next) store =
      (next (.ok turn.id)).alone (answer turn) store := rfl

private theorem getScopeOrRaise_none (closed : store.tables.pending () = none)
    (missing : store.tables.committed (.scope scopeId) = none) (next : Scope → Tenancy.Program α) :
    (Prog.bind (getScopeOrRaise scopeId) next).alone (answer turn) store =
      (.error (.scoped .scopeNotFound ("Scope " ++ scopeId ++ " not found") [("scope_id", .str scopeId)]), store) := by
  apply (alone_select turn closed (.scope scopeId) _).trans
  rw [missing]
  rfl

private theorem getScopeOrRaise_some (closed : store.tables.pending () = none) {scope : Scope}
    (found : store.tables.committed (.scope scopeId) = some scope) (next : Scope → Tenancy.Program α) :
    (Prog.bind (getScopeOrRaise scopeId) next).alone (answer turn) store = (next scope).alone (answer turn) store := by
  apply (alone_select turn closed (.scope scopeId) _).trans
  rw [found]
  rfl

/-- The store with another row. -/
def stored (store : Store Unit) (key : TenancyKey) (row : TenancyRow key) : Store Unit :=
  store.put { store.tables with committed := Function.update store.tables.committed key (some row) }

private theorem alone_update (closed : store.tables.pending () = none) {key : TenancyKey} {row : TenancyRow key}
    {change : Change} (changed : (store.tables.committed key).bind (change key) = some row)
    (others : ∀ other, other ≠ key → ∀ row, change other row = none) (next : Except Raised Unit → Tenancy.Program α) :
    Prog.alone (answer turn) (Prog.request (Request.update change) next) store =
      (next (.ok ())).alone (answer turn) (stored store key row) := by
  change (next (.ok ())).alone (answer turn)
    (store.put (store.tables.write () fun other => (store.tables.view () other).bind (change other))) = _
  rw [Tables.write_closed closed, Tables.view_closed closed, stored]
  congr 3
  funext other
  by_cases same : other = key
  · subst same
    simp only [Overlay.above, changed, Option.some_or, Function.update_self]
  · rw [Function.update_of_ne same]
    apply Overlay.above_none
    rw [Option.bind_eq_none_iff]
    exact fun row _ => others other same row

private theorem alone_insert (closed : store.tables.pending () = none) (key : TenancyKey) (row : TenancyRow key)
    (missing : store.tables.committed key = none) (next : Except Raised Unit → Tenancy.Program α) :
    Prog.alone (answer turn) (Prog.request (Request.insert key row) next) store =
      (next (.ok ())).alone (answer turn) (stored store key row) := by
  have served : answer turn store (.insert key row) = (.ok (), stored store key row) := by
    simp only [answer, serve, Tables.view_closed closed, missing, Option.isSome_none, Bool.false_eq_true, if_false,
      Option.getD_some, Tables.write_closed closed, stored]
    congr 3
    funext other
    by_cases same : other = key
    · subst same
      rw [Function.update_self, Overlay.above_some]
      exact Function.update_self ..
    · rw [Function.update_of_ne same]
      apply Overlay.above_none
      exact Function.update_of_ne same ..
  exact congrArg (fun reply : Except Raised Unit × Store Unit => (next reply.1).alone (answer turn) reply.2) served

theorem writeProjection_alone (closed : store.tables.pending () = none)
    (keyed : ∀ projection : ScopeProjection, store.tables.committed (.projection scopeId objectId) = some projection →
      projection.scopeId = scopeId ∧ projection.objectId = objectId) (projectedBy : String)
    (accessLevel : AccessLevel) (next : ScopeProjection × Bool → Tenancy.Program α) :
    ∃ projection changed after, (Prog.bind (writeProjection scopeId objectId projectedBy accessLevel) next).alone (answer turn) store =
        (next (projection, changed)).alone (answer turn) after ∧
      Leaves store.tables.committed scopeId objectId accessLevel projection after := by
  have begun : (Prog.bind (writeProjection scopeId objectId projectedBy accessLevel) next).alone (answer turn) store = _ :=
    (alone_now turn _).trans (alone_select turn closed (.projection scopeId objectId) _)
  cases found : store.tables.committed (.projection scopeId objectId) with
  | none =>
    rw [found] at begun
    let projection : ScopeProjection :=
      ⟨turn.id.text, scopeId, objectId, isoText turn.now, projectedBy, accessLevel, .active⟩
    refine ⟨projection, true, stored store (.projection scopeId objectId) projection, ?_,
      closed, rfl, ⟨rfl, rfl⟩, rfl, ?_, fun _ => rfl⟩
    · apply begun.trans
      apply (alone_generateId turn _).trans
      exact alone_insert turn closed (.projection scopeId objectId) projection found _
    · intro level projected
      rw [current_of_none found] at projected
      cases projected
  | some existing =>
    rw [found] at begun
    change ScopeProjection at existing
    by_cases active : existing.lifecycle = .active
    · refine ⟨existing, false, store, begun.trans ?_, closed, ?_, keyed existing found, active, ?_, ?_⟩
      · change (Prog.bind (ite (existing.lifecycle = .active) _ _) next).alone (answer turn) store = _
        rw [if_pos active]
        rfl
      · rw [← found, Function.update_eq_self]
      · intro level projected
        rw [current_of_some found, if_pos active] at projected
        exact Option.some.inj projected
      · intro unprojected
        rw [current_of_some found, if_pos active] at unprojected
        cases unprojected
    · obtain ⟨sameScope, sameObject⟩ := keyed existing found
      refine ⟨⟨existing.id, scopeId, objectId, isoText turn.now, projectedBy, accessLevel, .active⟩, true,
        stored store (.projection scopeId objectId) _, begun.trans ?_, closed, rfl, ⟨rfl, rfl⟩, rfl, ?_, fun _ => rfl⟩
      · change (Prog.bind (ite (existing.lifecycle = .active) _ _) next).alone (answer turn) store = _
        rw [if_neg active]
        apply alone_update turn closed
        · rw [found]
          change ite (scopeId = scopeId ∧ objectId = objectId) _ _ = _
          rw [if_pos ⟨rfl, rfl⟩, sameScope, sameObject]
        · intro other different row
          cases other with
          | projection scope object =>
            apply if_neg
            rintro ⟨rfl, rfl⟩
            exact different rfl
          | _ => rfl
      · intro level projected
        rw [current_of_some found, if_neg active] at projected
        cases projected

private theorem recordIf_alone (manager : ProjectionManager) (store : Store Unit) (changed : Bool) (trace : Trace) (value : α) :
    ∃ traces, (do
      if changed then
        manager.record trace
      return value : Tenancy.Program α).alone (answer turn) store = (.ok value, { store with traces }) := by
  cases changed with
  | false => exact ⟨store.traces, rfl⟩
  | true =>
    obtain ⟨audit⟩ := manager
    cases audit with
    | false => exact ⟨store.traces, rfl⟩
    | true => exact ⟨trace :: store.traces, rfl⟩

private theorem requireOwner_self (objectId projectedBy : String) :
    requireOwner objectId projectedBy (some projectedBy) = .ok () := if_neg fun different => different rfl

private theorem requireOwner_other (objectId : String) {projectedBy : String} {owner : Option String}
    (foreign : owner ≠ some projectedBy) : ∃ error, requireOwner objectId projectedBy owner = .error error := by
  cases owner with
  | none => exact ⟨_, rfl⟩
  | some owner => exact ⟨_, if_pos fun same => foreign (congrArg some same)⟩

theorem project_alone (manager : ProjectionManager) (closed : store.tables.pending () = none) (scopeId objectId projectedBy : String)
    (keyed : ∀ projection : ScopeProjection, store.tables.committed (.projection scopeId objectId) = some projection →
      projection.scopeId = scopeId ∧ projection.objectId = objectId)
    (accessLevel : AccessLevel) :
    (∃ error, (manager.project scopeId objectId projectedBy accessLevel).alone (answer turn) store = (.error error, store) ∧
        ¬ Admitted store.tables.committed scopeId objectId projectedBy) ∨
      ∃ projection after, (manager.project scopeId objectId projectedBy accessLevel).alone (answer turn) store =
          (.ok projection, after) ∧ Admitted store.tables.committed scopeId objectId projectedBy ∧
        Leaves store.tables.committed scopeId objectId accessLevel projection after := by
  cases looked : store.tables.committed (.scope scopeId) with
  | none =>
    refine .inl ⟨_, getScopeOrRaise_none turn closed looked _, ?_⟩
    rintro ⟨⟨scope, found, -⟩, -⟩
    rw [looked] at found
    cases found
  | some scope =>
    change Scope at scope
    have begun : (manager.project scopeId objectId projectedBy accessLevel).alone (answer turn) store = _ :=
      getScopeOrRaise_some turn closed looked _
    by_cases immutable : (scope.isFrozen || scope.isArchived) = true
    · refine .inl ⟨.scoped .scopeFrozen ("Scope " ++ scopeId ++ " is not mutable")
          [("scope_id", .str scopeId), ("lifecycle", .str scope.lifecycle.name)], begun.trans ?_, ?_⟩
      · change (ite ((scope.isFrozen || scope.isArchived) = true) _ _ : Tenancy.Program ScopeProjection).alone _ _ = _
        rw [if_pos immutable]
        rfl
      · rintro ⟨⟨scope', found, unfrozen, unarchived⟩, -⟩
        cases looked.symm.trans found
        simp [unfrozen, unarchived] at immutable
    rw [if_neg immutable] at begun
    have selected := begun.trans (alone_select turn closed (.object objectId) _)
    by_cases owned : store.tables.committed (.object objectId) = some projectedBy
    · rw [owned] at selected
      change _ = (Prog.bind (Prog.ofExcept (requireOwner objectId projectedBy (some projectedBy))) _).alone _ _ at selected
      rw [requireOwner_self] at selected
      obtain ⟨projection, changed, after, wrote, leaves⟩ :=
        writeProjection_alone turn closed keyed projectedBy accessLevel fun written => do
          if written.2 then
            manager.record ⟨projectedBy, .projection, "ScopeProjection", objectId, scopeId⟩
          return written.1
      obtain ⟨traces, recorded⟩ := recordIf_alone turn manager after changed ⟨projectedBy, .projection, "ScopeProjection", objectId, scopeId⟩ projection
      refine .inr ⟨projection, { after with traces }, selected.trans (wrote.trans recorded), ⟨⟨scope, looked, ?_⟩, owned⟩,
        leaves.closed, leaves.committed, leaves.named, leaves.active, leaves.kept, leaves.fresh⟩
      simpa using immutable
    · obtain ⟨error, refused⟩ := requireOwner_other objectId owned
      change _ = (Prog.bind (Prog.ofExcept (requireOwner objectId projectedBy (store.tables.committed (.object objectId)))) _).alone _ _ at selected
      rw [refused] at selected
      exact .inl ⟨error, selected, fun admitted => owned admitted.2⟩

theorem revokeProjection_alone (manager : ProjectionManager) (closed : store.tables.pending () = none) (scopeId objectId revokedBy : String) :
    ((manager.revokeProjection scopeId objectId revokedBy).alone (answer turn) store = (.ok false, store) ∧
        current store.tables.committed scopeId objectId = none) ∨
      ∃ (row : ScopeProjection) (after : Store Unit),
        (manager.revokeProjection scopeId objectId revokedBy).alone (answer turn) store = (.ok true, after) ∧
        store.tables.committed (.projection scopeId objectId) = some row ∧ row.lifecycle = .active ∧
        after.tables.pending () = none ∧
        after.tables.committed = Function.update store.tables.committed (.projection scopeId objectId)
          (some ({ row with lifecycle := .archived } : ScopeProjection)) := by
  have begun : (manager.revokeProjection scopeId objectId revokedBy).alone (answer turn) store = _ :=
    alone_select turn closed (.projection scopeId objectId) _
  cases found : store.tables.committed (.projection scopeId objectId) with
  | none =>
    rw [found] at begun
    exact .inl ⟨begun, current_of_none found⟩
  | some row =>
    change ScopeProjection at row
    rw [found] at begun
    change _ = (ite (row.lifecycle ≠ .active) _ _ : Tenancy.Program Bool).alone _ _ at begun
    by_cases active : row.lifecycle = .active
    · rw [if_neg fun inactive => inactive active] at begun
      have changed : (store.tables.committed (.projection scopeId objectId)).bind
          (revokeProjections scopeId objectId (.projection scopeId objectId)) =
            some ({ row with lifecycle := .archived } : ScopeProjection) := by
        rw [found]
        exact if_pos ⟨rfl, rfl, active⟩
      have others : ∀ other, other ≠ .projection scopeId objectId → ∀ row, revokeProjections scopeId objectId other row = none := by
        intro other different row
        cases other with
        | projection scope object =>
          apply if_neg
          rintro ⟨rfl, rfl, -⟩
          exact different rfl
        | _ => rfl
      have updated := begun.trans (alone_update turn closed changed others _)
      obtain ⟨traces, recorded⟩ := recordIf_alone turn manager
        (stored store (.projection scopeId objectId) ({ row with lifecycle := .archived } : ScopeProjection)) true
        ⟨revokedBy, .revoke, "ScopeProjection", objectId, scopeId⟩ true
      exact .inr ⟨row, _, updated.trans recorded, rfl, active, closed, rfl⟩
    · rw [if_pos active] at begun
      exact .inl ⟨begun, (current_of_some found).trans (if_neg active)⟩

end Programs

/-- The rows of a run: the scopes are the listed ones, and a row tells its key. -/
structure Settled (scopeIds : List String) (store : Store Unit) : Prop where
  closed : store.tables.pending () = none
  scopes : ∀ scopeId, store.tables.committed (.scope scopeId) ≠ none → scopeId ∈ scopeIds
  projections : ∀ scopeId objectId, ∀ projection : ScopeProjection,
    store.tables.committed (.projection scopeId objectId) = some projection →
      scopeId ∈ scopeIds ∧ projection.scopeId = scopeId ∧ projection.objectId = objectId

theorem current_update (rows : Overlay TenancyRow) (scopeId objectId : String) (row : ScopeProjection) :
    current (Function.update rows (.projection scopeId objectId) (some row)) =
      Function.update (current rows) scopeId (Function.update (current rows scopeId) objectId
        (if row.lifecycle = .active then some row.accessLevel else none)) := by
  funext scope object
  by_cases same : scope = scopeId ∧ object = objectId
  · obtain ⟨rfl, rfl⟩ := same
    rw [Function.update_self, Function.update_self]
    exact current_of_some (Function.update_self ..)
  · have key : TenancyKey.projection scope object ≠ .projection scopeId objectId := by
      rintro ⟨⟩
      exact same ⟨rfl, rfl⟩
    have kept : current (Function.update rows (.projection scopeId objectId) (some row)) scope object =
        current rows scope object := by
      unfold current
      rw [Function.update_of_ne key]
    rw [kept]
    by_cases here : scope = scopeId
    · subst here
      rw [Function.update_self, Function.update_of_ne fun object' => same ⟨rfl, object'⟩]
    · rw [Function.update_of_ne here]

theorem Settled.update (settled : Settled scopeIds store) {after : Store Unit}
    {row : ScopeProjection} (listed : scopeId ∈ scopeIds) (named : row.scopeId = scopeId ∧ row.objectId = objectId)
    (closed : after.tables.pending () = none)
    (committed : after.tables.committed = Function.update store.tables.committed (.projection scopeId objectId) (some row)) :
    Settled scopeIds after := by
  refine ⟨closed, ?_, ?_⟩
  · intro scope present
    rw [committed, Function.update_of_ne (by simp)] at present
    exact settled.scopes scope present
  · intro scope object projection found
    rw [committed] at found
    by_cases same : TenancyKey.projection scope object = .projection scopeId objectId
    · obtain ⟨rfl, rfl⟩ := TenancyKey.projection.inj same
      rw [Function.update_self] at found
      cases found
      exact ⟨listed, named⟩
    · rw [Function.update_of_ne same] at found
      exact settled.projections scope object projection found

theorem Settled.grants (settled : Settled scopeIds store) :
    Grants scopeIds (current store.tables.committed) store.tables.committed := by
  intro now scopeId principalId objectId through
  refine getAccessLevel_eq ?_ through
  intro projected
  cases found : store.tables.committed (.projection scopeId objectId) with
  | none => exact absurd (current_of_none found) projected
  | some projection => exact (settled.projections scopeId objectId projection found).1

/-- A call that meets the condition is answered right, and the rows follow what was asked for. -/
theorem Settled.run (settled : Settled scopeIds store) (manager : ProjectionManager) (turn : Turn) :
    Settled scopeIds (manager.run turn store).2 ∧
      (turn.call.Answers (current store.tables.committed) store.tables.committed
        (manager.run turn store).2.tables.committed (manager.run turn store).1 ↔ turn.call.Meets store.tables.committed) ∧
      (turn.call.Meets store.tables.committed →
        turn.call.asking (current store.tables.committed) (manager.run turn store).1 =
          current (manager.run turn store).2.tables.committed) := by
  obtain ⟨call, now, generated⟩ := turn
  cases call with
  | project scopeId objectId projectedBy accessLevel =>
    have keyed := fun projection found => (settled.projections scopeId objectId projection found).2
    have called := project_alone ⟨.project scopeId objectId projectedBy accessLevel, now, generated⟩ manager
      settled.closed scopeId objectId projectedBy keyed accessLevel
    simp only [ProjectionManager.run, invoke, Prog.alone_map]
    rcases called with ⟨error, ran, refused⟩ | ⟨projection, after, ran, admitted, leaves⟩
    · rw [ran]
      refine ⟨settled, ⟨fun _ admitted => absurd admitted refused, fun _ => refused⟩, fun _ => rfl⟩
    · rw [ran]
      obtain ⟨scope, found, -⟩ := admitted.1
      have listed := settled.scopes scopeId (found ▸ Option.some_ne_none scope)
      have row : after.tables.committed (.projection scopeId objectId) = some projection := by
        rw [leaves.committed]
        exact Function.update_self ..
      have level : (Call.project scopeId objectId projectedBy accessLevel).Meets store.tables.committed →
          projection.accessLevel = accessLevel := by
        intro meets
        cases projected : current store.tables.committed scopeId objectId with
        | none => exact leaves.fresh projected
        | some level => exact (leaves.kept level projected).trans (meets admitted level projected)
      refine ⟨settled.update listed leaves.named leaves.closed leaves.committed, ⟨?_, ?_⟩, ?_⟩
      · rintro ⟨-, -, same⟩ - level projected
        exact (leaves.kept level projected).symm.trans same
      · intro meets
        exact ⟨row, leaves.active, level meets⟩
      · intro meets
        rw [leaves.committed, current_update, if_pos leaves.active, level meets]
        rfl
  | revokeProjection scopeId objectId revokedBy =>
    have called := revokeProjection_alone ⟨.revokeProjection scopeId objectId revokedBy, now, generated⟩ manager
      settled.closed scopeId objectId revokedBy
    simp only [ProjectionManager.run, invoke, Prog.alone_map]
    rcases called with ⟨ran, unprojected⟩ | ⟨row, after, ran, found, active, closed, committed⟩
    · rw [ran]
      refine ⟨settled, ⟨fun _ => trivial, fun _ => ?_⟩, fun _ => ?_⟩
      · simp [Call.Answers, unprojected, Except.map]
      · change Function.update (current store.tables.committed) scopeId
          (Function.update (current store.tables.committed scopeId) objectId none) = _
        rw [← unprojected, Function.update_eq_self, Function.update_eq_self]
    · rw [ran]
      obtain ⟨listed, named⟩ := settled.projections scopeId objectId row found
      have settled' : Settled scopeIds after := by
        apply settled.update listed _ closed committed
        exact named
      refine ⟨settled', ⟨fun _ => trivial, fun _ => ?_⟩, fun _ => ?_⟩
      · simp [Call.Answers, current_of_some found, active, Except.map]
      · rw [committed, current_update]
        rfl

/-- Calls are answered and grant as what was asked for, exactly if none of them
requests a pair that is projected at another level. -/
theorem granted_iff (settled : Settled scopeIds store) (turns : List Turn) :
    Granted manager scopeIds store (current store.tables.committed) turns ↔ Plain manager store turns := by
  induction turns generalizing store with
  | nil => exact Iff.rfl
  | cons turn turns ih =>
    obtain ⟨settled', answers, follows⟩ := settled.run manager turn
    constructor
    · rintro ⟨⟨right, -⟩, rest⟩
      have meets := answers.mp right
      rw [follows meets] at rest
      exact ⟨meets, (ih settled').mp rest⟩
    · rintro ⟨meets, rest⟩
      have granted := (ih settled').mpr rest
      rw [← follows meets] at granted
      refine ⟨⟨answers.mpr meets, ?_⟩, granted⟩
      rw [follows meets]
      exact settled'.grants

/-- A scope with a member, and an object of somebody else. -/
def office : Store Unit where
  tables :=
    { committed := fun
        | .scope scopeId => if scopeId = "team" then some (⟨"team", "Team", "alice", none, .active⟩ : Scope) else none
        | .object objectId => if objectId = "doc" then some "alice" else none
        | .membership scopeId principalId role =>
          if scopeId = "team" ∧ principalId = "bob" ∧ role = .viewer then
            some (⟨"m", "team", "bob", .viewer, "2025-01-01T00:00:00+00:00", "alice", none, .active⟩ : ScopeMembership)
          else none
        | .projection _ _ => none
      pending := fun _ => none }
  dissolved := fun _ => false
  traces := []

def projecting (accessLevel : AccessLevel) : Turn :=
  ⟨.project "team" "doc" "alice" accessLevel, ⟨2025, 1, 2, 0, 0, 0, 0, by decide⟩, .repeated 1⟩

def revoking : Turn := ⟨.revokeProjection "team" "doc" "alice", ⟨2025, 1, 3, 0, 0, 0, 0, by decide⟩, .repeated 2⟩

theorem settled_office : Settled ["team"] office := by
  refine ⟨rfl, ?_, ?_⟩
  · intro scopeId present
    by_cases team : scopeId = "team"
    · exact List.mem_singleton.mpr team
    · exact absurd (if_neg team) present
  · intro scopeId objectId projection found
    cases found

/-- A level is changed by revoking the projection first. -/
theorem granted_iff_office :
    Granted ⟨true⟩ ["team"] office (current office.tables.committed) [projecting .read, revoking, projecting .write] := by
  refine (granted_iff settled_office _).mpr ⟨?_, trivial, ?_, trivial⟩
  · rintro - level ⟨⟩
  · rintro - level projected
    revert projected
    cases level <;> decide

/-- An upgrade of a projection that is active is returned as done, at the old level. -/
theorem upgrade_ignored :
    ¬ Granted ⟨true⟩ ["team"] office (current office.tables.committed) [projecting .read, projecting .write] := by
  rintro ⟨-, ⟨⟨-, -, level⟩, -⟩, -⟩
  revert level
  decide

end ProjectionManager
end PyScoped.Legacy
