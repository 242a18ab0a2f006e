import PyScoped.Legacy.Connectors

/-! What interleaved transitions do to a connector. An UPDATE is unconditional,
so it is lawful only if the row still allows the move that its call has checked. -/

namespace PyScoped.Legacy.ConnectorManager
open Foundation

/-- Every change of a stored state is an edge of the table. -/
def Lawful (store : Store) : Prop :=
  ∀ id loaded stored target, .wrote id loaded stored target ∈ store.history →
    stored = target ∨ target ∈ stored.transitions

/-- A connector whose revocation has returned is revoked. -/
def Permanent (store : Store) : Prop :=
  ∀ id, .returned id .revoked ∈ store.history → (store.connectors id).map (·.state) = some .revoked

/-- No UPDATE lands on a row that has moved since its call's SELECT to a state
with no edge to the target. -/
def Undisturbed (store : Store) : Prop :=
  ∀ id loaded stored target, .wrote id loaded stored target ∈ store.history → stored ≠ loaded →
    stored = target ∨ target ∈ stored.transitions

/-- What the calls keep, whatever the others do. -/
structure Consistent (store : Store) : Prop where
  checked : ∀ id loaded stored target, .wrote id loaded stored target ∈ store.history → target ∈ loaded.transitions
  answered : ∀ id target, .returned id target ∈ store.history → ∃ loaded stored, .wrote id loaded stored target ∈ store.history
  revoked : Lawful store → ∀ id loaded stored, .wrote id loaded stored .revoked ∈ store.history →
    (store.connectors id).map (·.state) = some .revoked

structure Onward (before after : Store) : Prop where
  history : ∀ event ∈ before.history, event ∈ after.history
  connectors : ∀ id, (before.connectors id).isSome → (after.connectors id).isSome

theorem Onward.refl (store : Store) : Onward store store := ⟨fun _ member => member, fun _ present => present⟩

theorem Onward.trans {first second third : Store} (one : Onward first second) (two : Onward second third) :
    Onward first third :=
  ⟨fun event member => two.history event (one.history event member), fun id present => two.connectors id (one.connectors id present)⟩

def contract {ι : Type} : Contract Request Store ι where
  kept := Consistent
  rely _ := Onward
  allowed _ _ _ := True

variable {ι : Type} {client : ι}

private theorem Lawful.before {store : Store} {id : String} {loaded stored target : ConnectorState}
    {connectors : String → Option Connector}
    (lawful : Lawful { store with connectors := connectors, history := .wrote id loaded stored target :: store.history }) :
    Lawful store :=
  fun other loaded' stored' target' member => lawful other loaded' stored' target' (List.mem_cons_of_mem _ member)

/-- A checked UPDATE of a row that is there. -/
theorem Consistent.update {store : Store} (consistent : Consistent store) {id : String} {row : Connector}
    (present : store.connectors id = some row) {loaded target : ConnectorState} (checked : target ∈ loaded.transitions)
    (approved : Option (DateTime × String)) :
    Consistent (store.update id target approved loaded) ∧ Onward store (store.update id target approved loaded) ∧
      .wrote id loaded row.state target ∈ (store.update id target approved loaded).history := by
  have same : store.update id target approved loaded =
      { store with
        connectors := Function.update store.connectors id (some { row with
          state := target
          approvedAt := (approved.map (·.1)).or row.approvedAt
          approvedBy := (approved.map (·.2)).or row.approvedBy })
        history := .wrote id loaded row.state target :: store.history } := by
    simp only [Store.update, present]
  rw [same]
  refine ⟨⟨?_, ?_, ?_⟩, ⟨?_, ?_⟩, List.mem_cons_self⟩
  · intro other loaded' stored' target' member
    rcases List.mem_cons.mp member with equal | member
    · cases equal
      exact checked
    · exact consistent.checked other loaded' stored' target' member
  · intro other target' member
    rcases List.mem_cons.mp member with equal | member
    · cases equal
    · obtain ⟨loaded', stored', wrote⟩ := consistent.answered other target' member
      exact ⟨loaded', stored', List.mem_cons_of_mem _ wrote⟩
  · intro lawful other loaded' stored' member
    by_cases equal : other = id
    · subst other
      simp only [Function.update_self, Option.map_some, Option.some.injEq]
      rcases List.mem_cons.mp member with this | member
      · cases this
        rfl
      · -- the row was revoked before, and no edge leads out of that state
        have before := consistent.revoked lawful.before id loaded' stored' member
        rw [present] at before
        have terminal : row.state = .revoked := Option.some.inj before
        rcases lawful id loaded row.state target List.mem_cons_self with kept | edge
        · exact kept.symm.trans terminal
        · rw [terminal] at edge
          cases edge
    · simp only [Function.update_of_ne equal]
      refine consistent.revoked lawful.before other loaded' stored' ?_
      rcases List.mem_cons.mp member with this | member
      · cases this
        exact absurd rfl equal
      · exact member
  · exact fun event member => List.mem_cons_of_mem _ member
  · intro other there
    by_cases equal : other = id
    · subst other
      simp
    · simpa only [Function.update_of_ne equal] using there

private theorem Consistent.same {before after : Store} (consistent : Consistent before)
    (connectors : after.connectors = before.connectors) (history : after.history = before.history) :
    Consistent after ∧ Onward before after := by
  refine ⟨⟨?_, ?_, ?_⟩, ⟨?_, ?_⟩⟩
  · simpa only [history] using consistent.checked
  · simpa only [history] using consistent.answered
  · simpa only [Lawful, history, connectors] using consistent.revoked
  · simpa only [history] using fun _ member => member
  · simpa only [connectors] using fun _ present => present

private theorem still {request : Request} {state : Store}
    (unchanged : ∀ (choice : Choice) store reply after, serve client choice store request = some (reply, after) →
      after.connectors = store.connectors ∧ after.history = store.history) :
    contract.Safe serve client (fun _ final => Onward state final) (Prog.perform request) state := by
  refine .perform fun now kept moved _ choice reply after answered => ?_
  obtain ⟨connectors, history⟩ := unchanged choice now reply after answered
  obtain ⟨kept', onward⟩ := kept.same connectors history
  exact ⟨kept', fun _ _ => onward, moved.trans onward⟩

theorem checkRule_safe (manager : ConnectorManager) (action principalId objectId : String) (scopeId : Option String)
    (state : Store) :
    contract.Safe serve client (fun _ final => Onward state final)
      (manager.checkRule action principalId objectId scopeId) state := by
  unfold checkRule
  split
  · refine .bind (.weaken (still ?_) fun result final onward => ?_)
    · intro choice store reply after answered
      unfold serve at answered
      split at answered <;> cases answered <;> exact ⟨rfl, rfl⟩
    · cases result with
      | ok verdict =>
        dsimp only
        split <;> exact onward
      | error error => exact onward
  · exact .refl state

theorem getConnectorOrRaise_safe (connectorId : String) (state : Store) :
    contract.Safe serve client (fun result final => Onward state final ∧
      ∀ connector, result = .ok connector → (final.connectors connectorId).isSome)
      (getConnectorOrRaise connectorId) state := by
  refine .bind (.perform fun now kept moved _ choice reply after answered => ?_)
  unfold serve at answered
  split at answered
  next error failed =>
    cases answered
    exact ⟨kept, fun _ _ => .refl _, moved, by simp⟩
  next works =>
    cases answered
    refine ⟨kept, fun _ _ => .refl _, ?_⟩
    cases found : now.connectors connectorId with
    | none => exact ⟨moved, fun _ raised => by cases raised⟩
    | some connector => exact ⟨moved, fun _ _ => by rw [found]; rfl⟩

/-- A transition writes only moves of the table, and writes before it returns. -/
theorem transition_safe (manager : ConnectorManager) (connectorId : String) (targetState : ConnectorState) (actorId : String)
    (action : ActionType) (state : Store) :
    contract.Safe serve client (fun result final => ∀ connector, result = .ok connector →
      ∃ loaded stored, .wrote connectorId loaded stored targetState ∈ final.history)
      (manager.transition connectorId targetState actorId action) state := by
  refine .bind ((getConnectorOrRaise_safe connectorId state).weaken fun result final reached => ?_)
  cases result with
  | error error => exact fun _ raised => by cases raised
  | ok connector =>
  obtain ⟨-, present⟩ := reached
  have present := present connector rfl
  refine .bind (.ofExcept ?_)
  cases requireCreator connector actorId with
  | error error => exact fun _ raised => by cases raised
  | ok creator =>
  dsimp only
  have gate : contract.Safe serve client (fun _ after => Onward final after)
      (manager.checkRuleOf action actorId connector connectorId) final := by
    unfold checkRuleOf
    split
    · exact checkRule_safe ..
    · exact .refl final
  refine .bind (gate.weaken fun result gated onward => ?_)
  cases result with
  | error error => exact fun _ raised => by cases raised
  | ok passed =>
  have present : (gated.connectors connectorId).isSome := onward.connectors connectorId present
  dsimp only
  split
  · exact fun _ raised => by cases raised
  next valid =>
  have checked : targetState ∈ connector.state.transitions := by
    simpa [Connector.canTransitionTo] using valid
  refine .bind (.weaken (still ?_) fun result timed onward => ?_)
  · intro choice store reply after answered
    unfold serve at answered
    split at answered <;> cases answered <;> exact ⟨rfl, rfl⟩
  cases result with
  | error error => exact fun _ raised => by cases raised
  | ok ts =>
  have present : (timed.connectors connectorId).isSome := onward.connectors connectorId present
  refine .bind (.perform fun now kept moved _ choice reply after answered => ?_)
  have present : (now.connectors connectorId).isSome := moved.connectors connectorId present
  obtain ⟨row, present⟩ := Option.isSome_iff_exists.mp present
  unfold serve at answered
  split at answered
  · cases answered
    exact ⟨kept, fun _ _ => .refl _, fun _ raised => by cases raised⟩
  cases answered
  obtain ⟨kept', onward, wrote⟩ := kept.update present checked
    (if targetState = .active ∧ connector.approvedAt = none then some (ts, actorId) else none)
  refine ⟨kept', fun _ _ => onward, ?_⟩
  dsimp only
  split
  · refine .bind (.weaken (still ?_) fun result recorded onward => ?_)
    · intro choice store reply after answered
      unfold serve at answered
      split at answered <;> cases answered <;> exact ⟨rfl, rfl⟩
    cases result with
    | error error => exact fun _ raised => by cases raised
    | ok done => exact fun _ _ => ⟨_, _, onward.history _ wrote⟩
  · exact fun _ _ => ⟨_, _, wrote⟩

theorem invoke_eq (manager : ConnectorManager) (method : Method) (connectorId actorId : String) :
    ∃ action, manager.invoke method connectorId actorId = manager.transition connectorId method.target actorId action := by
  cases method <;> exact ⟨_, rfl⟩

theorem call_safe (manager : ConnectorManager) (method : Method) (connectorId actorId : String) (state : Store) :
    contract.Safe serve client (fun _ _ => True) (manager.call method connectorId actorId) state := by
  obtain ⟨action, same⟩ := manager.invoke_eq method connectorId actorId
  unfold call
  rw [same]
  refine .bind ((manager.transition_safe connectorId method.target actorId action state).weaken
    fun result final wrote => ?_)
  cases result with
  | error error => trivial
  | ok connector =>
  obtain ⟨loaded, stored, wrote⟩ := wrote connector rfl
  refine .bind (.perform fun now kept moved _ choice reply after answered => ?_)
  unfold serve at answered
  split at answered
  · cases answered
    exact ⟨kept, fun _ _ => .refl _, trivial⟩
  cases answered
  refine ⟨⟨?_, ?_, ?_⟩, fun _ _ => ⟨fun event member => List.mem_cons_of_mem _ member, fun _ present => present⟩, trivial⟩
  · intro id loaded stored target member
    rcases List.mem_cons.mp member with equal | member
    · cases equal
    · exact kept.checked id loaded stored target member
  · intro id target member
    rcases List.mem_cons.mp member with equal | member
    · cases equal
      exact ⟨loaded, stored, List.mem_cons_of_mem _ (moved.history _ wrote)⟩
    · obtain ⟨loaded, stored, wrote⟩ := kept.answered id target member
      exact ⟨loaded, stored, List.mem_cons_of_mem _ wrote⟩
  · intro lawful id loaded stored member
    rcases List.mem_cons.mp member with equal | member
    · cases equal
    · exact kept.revoked (fun id loaded stored target member =>
        lawful id loaded stored target (List.mem_cons_of_mem _ member)) id loaded stored member

theorem Client.safe {program : Program Unit} (isClient : Client program) (state : Store) :
    contract.Safe serve client (fun _ _ => True) program state := by
  induction isClient generalizing state with
  | done => trivial
  | call manager method connectorId actorId next each ih =>
    refine .bind (.attempt ((call_safe manager method connectorId actorId state).weaken fun result final _ => ?_))
    exact ih result final

variable [DecidableEq ι]

theorem reached_consistent {programs : ι → Program Unit} (clients : ∀ client, Client (programs client)) {first : Store}
    (fresh : first.history = []) {world : Interleaved Request Reply Raised Store ι}
    (reached : Interleaved.Reaches serve (fun _ _ _ => True) ⟨first, programs⟩ world) : Consistent world.state := by
  refine (Interleaved.Reaches.safe contract reached (fun _ => .refl) (fun _ _ _ _ => .trans) ?_
    fun client => (clients client).safe first).1
  refine ⟨?_, ?_, ?_⟩ <;> simp [fresh]

/-- In every interleaving, the moves are lawful and revocation is permanent
exactly when no UPDATE lands on a row that has moved to where the target is out of reach. -/
theorem lawful_permanent_iff {programs : ι → Program Unit} (clients : ∀ client, Client (programs client)) {first : Store}
    (fresh : first.history = []) {world : Interleaved Request Reply Raised Store ι}
    (reached : Interleaved.Reaches serve (fun _ _ _ => True) ⟨first, programs⟩ world) :
    Lawful world.state ∧ Permanent world.state ↔ Undisturbed world.state := by
  have consistent := reached_consistent clients fresh reached
  constructor
  · intro claim id loaded stored target member _
    exact claim.1 id loaded stored target member
  · intro undisturbed
    have lawful : Lawful world.state := by
      intro id loaded stored target member
      by_cases same : stored = loaded
      · subst stored
        exact .inr (consistent.checked id loaded loaded target member)
      · exact undisturbed id loaded stored target member same
    refine ⟨lawful, fun id answered => ?_⟩
    obtain ⟨loaded, stored, wrote⟩ := consistent.answered id .revoked answered
    exact consistent.revoked lawful id loaded stored wrote

section Sample

private def midnight : DateTime := ⟨2024, 1, 1, 0, 0, 0, 0, DateTime.newYear_bounded⟩

/-- A connector that waits for approval. -/
def pending : Connector where
  id := "c"
  name := "partner"
  localOrgId := "ours"
  remoteOrgId := "theirs"
  remoteEndpoint := "https://partner"
  createdAt := midnight
  createdBy := "ann"
  description := ""
  state := .pendingApproval
  direction := .bidirectional
  localScopeId := none
  approvedAt := none
  approvedBy := none
  metadata := .obj []

def waiting : Store where
  connectors id := if id = "c" then some pending else none
  traces := []
  history := []

def only (manager : ConnectorManager) (method : Method) : Program Unit :=
  (manager.call method "c" "ann").attempt.bind fun _ => .pure ()

/-- One process approves the connector while another revokes it. -/
def contenders (client : Bool) : Program Unit := only ⟨false, false⟩ (if client then .revoke else .approve)

theorem contenders_clients (client : Bool) : Client (contenders client) :=
  .call _ _ _ _ _ fun _ => .done

def fine : Choice := ⟨none, ⟨true, [], []⟩, midnight⟩

/-- The approval has selected the row when the revocation runs to its end. -/
def overtaken : List (Bool × Choice) := [false, true, true, true, true, false, false].map (·, fine)

private theorem overtaken_runs :
    ((Interleaved.run serve (fun _ _ _ => True) ⟨waiting, contenders⟩ overtaken).map fun world =>
      ((world.state.connectors "c").map (·.state), world.state.history)) =
      some (some .active, [.wrote "c" .pendingApproval .revoked .active, .returned "c" .revoked,
        .wrote "c" .pendingApproval .pendingApproval .revoked]) := by
  decide +kernel

/-- An approval that was checked before a revocation lands after it. -/
theorem revoked_connector_reactivated :
    ∃ world, Interleaved.Reaches serve (fun _ _ _ => True) ⟨waiting, contenders⟩ world ∧
      (∀ client, Client (contenders client)) ∧ waiting.history = [] ∧ ¬Lawful world.state ∧ ¬Permanent world.state := by
  obtain ⟨world, ran, final⟩ := Option.map_eq_some_iff.mp overtaken_runs
  obtain ⟨state, history⟩ := Prod.mk.inj final
  refine ⟨world, Interleaved.run_reaches .start ran, contenders_clients, rfl, fun lawful => ?_, fun permanent => ?_⟩
  · have move := lawful "c" .pendingApproval .revoked .active (by rw [history]; exact List.mem_cons_self)
    revert move
    decide
  · have revoked := permanent "c" (by rw [history]; exact List.mem_cons_of_mem _ List.mem_cons_self)
    rw [state] at revoked
    cases revoked

theorem lawful_permanent_iff_overtaken :
    ∃ world, Interleaved.Reaches serve (fun _ _ _ => True) ⟨waiting, contenders⟩ world ∧
      (Lawful world.state ∧ Permanent world.state ↔ Undisturbed world.state) := by
  obtain ⟨world, ran, -⟩ := Option.map_eq_some_iff.mp overtaken_runs
  have reached := Interleaved.run_reaches .start ran
  exact ⟨world, reached, lawful_permanent_iff contenders_clients rfl reached⟩

end Sample

end PyScoped.Legacy.ConnectorManager
