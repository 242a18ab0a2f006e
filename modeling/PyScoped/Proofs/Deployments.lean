import PyScoped.Legacy.Deployments

/-! When deployments run once and roll back once. What a call has read, a state,
the gates or the highest version, must still be so at the statement that depends
on it, and the rollback that was inserted must not be overtaken by another or
left without its mark. -/

namespace PyScoped.Legacy.Deployments
open Foundation

/-- The deployments that have a rollback, once for each. -/
def DeploymentTable.reversed (deployments : DeploymentTable) : List String := deployments.list.filterMap Deployment.rollbackOf

variable {ι : Type}

/-- Deployments run once, behind their gates and in the order of their states,
under versions of their own. -/
structure Sound (store : Store ι) : Prop where
  once : (store.invocations.map Invocation.deploymentId).Nodup
  gated : ∀ invocation ∈ store.invocations, invocation.failedGate = false
  edges : ∀ change ∈ store.changes, change.2 ∈ allowedTransitions change.1
  versions : (store.deployments.list.map fun deployment => (deployment.targetId, deployment.version)).Nodup

/-- Deployments have one rollback if they are rolled back, and none otherwise. -/
structure Settled (deployments : DeploymentTable) : Prop where
  once : deployments.reversed.Nodup
  exact : ∀ original ∈ deployments.list, original.state = .rolledBack ↔ original.id ∈ deployments.reversed

/-- A deployment is inserted under the version next to the highest, and by a rollback
while its original is in the state that was found and no other client is amid a
rollback of it; the state that was found is replaced; a deployment is called for
while its failed gates are among those that were read. -/
def AsRead (client : ι) (store : Store ι) : Request → Prop
  | .insertDeployment deployment found =>
    deployment.version = store.deployments.maxVersion deployment.targetId + 1 ∧
      ∀ original ∈ deployment.rollbackOf, found.isSome = true ∧ store.deployments.stateOf original = found ∧
        ∀ other, other ≠ client → store.rolling other ≠ some original
  | .setState deploymentId found _ _ => store.deployments.stateOf deploymentId = some found
  | .invoke deployment gates =>
    ∀ gate ∈ store.gatesOf deployment.id, gate.passed = false → gate.id ∈ gates.map DeploymentGate.id
  | _ => True

/-- Who has inserted a rollback is not cut off before it is marked. -/
def steady (client : ι) (choice : Choice) (store : Store ι) (_ : Request) : Bool :=
  (store.rolling client).isNone || choice.failure.isNone

structure Kept (store : Store ι) : Prop where
  sound : Sound store
  launched : ∀ deploymentId client, store.launched deploymentId = some client →
    ∃ state ∈ store.deployments.stateOf deploymentId, state ≠ .pending
  called : ∀ invocation ∈ store.invocations, store.launched invocation.deploymentId ≠ none
  once : store.deployments.reversed.Nodup
  reversed : ∀ deploymentId, deploymentId ∈ store.deployments.reversed ↔
    store.deployments.stateOf deploymentId = some .rolledBack ∨ ∃ client, store.rolling client = some deploymentId
  rolling : ∀ client deploymentId, store.rolling client = some deploymentId →
    store.deployments.stateOf deploymentId = some .deployed
  alone : ∀ first second deploymentId, store.rolling first = some deploymentId → store.rolling second = some deploymentId →
    first = second
  idle : ∀ client, store.calling client = false → store.rolling client = none

/-- The client has set a deployment going and has not called for it yet. -/
structure Launched (client : ι) (deploymentId : String) (store : Store ι) : Prop where
  launched : store.launched deploymentId = some client
  uncalled : deploymentId ∉ store.invocations.map Invocation.deploymentId

/-- What others leave of what a client knows. -/
structure Undisturbed (client : ι) (first second : Store ι) : Prop where
  launched : ∀ {deploymentId}, Launched client deploymentId first → Launched client deploymentId second
  gates : ∀ gate ∈ first.gates.list, gate ∈ second.gates.list
  rolling : second.rolling client = first.rolling client
  calling : second.calling client = first.calling client

theorem Undisturbed.refl (client : ι) (store : Store ι) : Undisturbed client store store := ⟨id, fun _ => id, rfl, rfl⟩

theorem Undisturbed.trans {client : ι} {first second third : Store ι} (one : Undisturbed client first second)
    (two : Undisturbed client second third) : Undisturbed client first third where
  launched known := two.launched (one.launched known)
  gates gate member := two.gates gate (one.gates gate member)
  rolling := two.rolling.trans one.rolling
  calling := two.calling.trans one.calling

def keeping (ι : Type) : Contract Request (Store ι) ι := ⟨Kept, Undisturbed, AsRead⟩

variable {deployment : Deployment} {deployments : DeploymentTable} {deploymentId : String}

namespace DeploymentTable

theorem stateOf_eq_some {state : DeploymentState} :
    deployments.stateOf deploymentId = some state ↔
      ∃ deployment ∈ deployments.list, deployment.id = deploymentId ∧ deployment.state = state := by
  unfold stateOf
  rw [Option.map_eq_some_iff]
  constructor
  · rintro ⟨deployment, found, same⟩
    obtain ⟨member, key⟩ := Rows.find_eq_some.mp found
    exact ⟨deployment, member, key, same⟩
  · rintro ⟨deployment, member, rfl, same⟩
    exact ⟨deployment, Rows.find_mem member, same⟩

theorem stateOf_mem (member : deployment ∈ deployments.list) :
    deployments.stateOf deployment.id = some deployment.state := stateOf_eq_some.mpr ⟨deployment, member, rfl, rfl⟩

theorem le_maxVersion (member : deployment ∈ deployments.list) :
    deployment.version ≤ deployments.maxVersion deployment.targetId := by
  have inside : deployment.version ∈
      (deployments.list.filter fun other => other.targetId = deployment.targetId).map Deployment.version :=
    List.mem_map.mpr ⟨deployment, List.mem_filter.mpr ⟨member, by simp⟩, rfl⟩
  exact List.le_max_of_le inside le_rfl

theorem stateOf_setState (deployments : DeploymentTable) (deploymentId : String) (state : DeploymentState)
    (deployedAt : Option Moment) (another : String) : (deployments.setState deploymentId state deployedAt).stateOf another =
      if another = deploymentId then (deployments.stateOf another).map fun _ => state else deployments.stateOf another := by
  unfold stateOf setState
  rw [show Rows.find _ another = _ from Rows.find_update ..]
  cases found : deployments.find another with
  | none => simp
  | some deployment =>
    obtain ⟨-, rfl⟩ := Rows.find_eq_some.mp found
    by_cases same : deployment.id = deploymentId <;> simp [same]

theorem map_setState {α : Type} (deployments : DeploymentTable) (deploymentId : String) (state : DeploymentState)
    (deployedAt : Option Moment) {read : Deployment → α}
    (same : ∀ deployment state deployedAt, read { deployment with state := state, deployedAt := deployedAt } = read deployment) :
    (deployments.setState deploymentId state deployedAt).list.map read = deployments.list.map read := by
  simp only [setState, Rows.update, List.map_map]
  apply List.map_congr_left
  intro deployment _
  simp only [Function.comp_apply]
  split
  · exact same ..
  · rfl

theorem reversed_eq (deployments : DeploymentTable) :
    deployments.reversed = (deployments.list.map Deployment.rollbackOf).filterMap id := by
  rw [List.filterMap_map]
  rfl

theorem reversed_setState (deployments : DeploymentTable) (deploymentId : String) (state : DeploymentState)
    (deployedAt : Option Moment) : (deployments.setState deploymentId state deployedAt).reversed = deployments.reversed := by
  rw [reversed_eq, reversed_eq, map_setState]
  intro deployment state deployedAt
  rfl

theorem stateOf_insert {after : DeploymentTable}
    (inserted : deployments.insert deployment = some after) (another : String) : after.stateOf another =
      if another = deployment.id then some deployment.state else deployments.stateOf another := by
  unfold stateOf
  rw [show Rows.find _ another = _ from Rows.find_insert inserted another]
  split <;> rfl

theorem reversed_insert {after : DeploymentTable} (inserted : deployments.insert deployment = some after) :
    after.reversed = deployments.reversed ++ deployment.rollbackOf.toList := by
  unfold reversed
  rw [(Rows.insert_eq_some inserted).2, List.filterMap_append]
  cases same : deployment.rollbackOf <;> simp [same]

end DeploymentTable

variable {store : Store ι}
variable {new : DeploymentState}

theorem DeploymentState.ne_of_allowed {found : DeploymentState} (edge : new ∈ allowedTransitions found) :
    new ≠ .pending ∧ found ≠ .rolledBack ∧ (new = .deploying ↔ found = .pending) ∧ (new = .rolledBack ↔ found = .deployed) := by
  cases found <;> cases new <;> simp [allowedTransitions] at edge ⊢

theorem Kept.pending (kept : Kept store)
    (pending : store.deployments.stateOf deploymentId = some .pending) : store.launched deploymentId = none := by
  refine Option.eq_none_iff_forall_ne_some.mpr fun client going => ?_
  obtain ⟨state, same, unlike⟩ := kept.launched deploymentId client going
  rw [pending] at same
  cases same
  exact unlike rfl

/-- A deployment is called for that the client has set going, past gates that it has read. -/
theorem Kept.invoke (kept : Kept store) {client : ι} {gates : List DeploymentGate}
    (launched : Launched client deployment.id store) (passed : ∀ gate ∈ gates, gate ∈ store.gates.list ∧ gate.passed = true)
    (asRead : AsRead client store (.invoke deployment gates)) :
    Kept { store with invocations := ⟨deployment.id, store.failedGate deployment.id⟩ :: store.invocations } ∧
      ∀ other, other ≠ client → Undisturbed other store
        { store with invocations := ⟨deployment.id, store.failedGate deployment.id⟩ :: store.invocations } := by
  have open' : store.failedGate deployment.id = false := by
    refine List.any_eq_false.mpr fun gate member failed => ?_
    have failed : gate.passed = false := by simpa using failed
    obtain ⟨read, among, same⟩ := List.mem_map.mp (asRead gate member failed)
    obtain ⟨present, through⟩ := passed read among
    have : read = gate := List.inj_on_of_nodup_map store.gates.unique present (List.mem_filter.mp member).1 same
    rw [← this, through] at failed
    cases failed
  constructor
  · refine ⟨⟨?_, ?_, kept.sound.edges, kept.sound.versions⟩, kept.launched, ?_, kept.once, kept.reversed, kept.rolling,
      kept.alone, kept.idle⟩
    · exact List.nodup_cons.mpr ⟨launched.uncalled, kept.sound.once⟩
    · exact List.forall_mem_cons.mpr ⟨open', kept.sound.gated⟩
    · refine List.forall_mem_cons.mpr ⟨?_, kept.called⟩
      rw [launched.launched]
      exact Option.some_ne_none client
  · intro other foreign
    refine ⟨fun known => ⟨known.launched, fun called => ?_⟩, fun _ => id, rfl, rfl⟩
    rcases List.mem_cons.mp called with rfl | before
    · exact foreign (Option.some.inj (known.launched.symm.trans launched.launched))
    · exact known.uncalled before

theorem Kept.insertGate (kept : Kept store) {gate : DeploymentGate} {gates : Rows DeploymentGate.id}
    (inserted : store.gates.insert gate = some gates) :
    Kept { store with gates := gates } ∧ ∀ other, Undisturbed other store { store with gates := gates } := by
  constructor
  · exact ⟨⟨kept.sound.once, kept.sound.gated, kept.sound.edges, kept.sound.versions⟩, kept.launched, kept.called, kept.once,
      kept.reversed, kept.rolling, kept.alone, kept.idle⟩
  · intro other
    refine ⟨fun known => ⟨known.launched, known.uncalled⟩, fun before member => ?_, rfl, rfl⟩
    change before ∈ gates.list
    rw [(Rows.insert_eq_some inserted).2]
    exact List.mem_append_left _ member

/-- The client is amid a call, and has inserted the rollback of a deployment that
is not marked yet, or none. -/
structure Amid (client : ι) (rolling : Option String) (store : Store ι) : Prop where
  calling : store.calling client = true
  rolling : store.rolling client = rolling

variable {rolling : Option String}

theorem Amid.moved {client : ι} {first second : Store ι} (amid : Amid client rolling first)
    (moved : Undisturbed client first second) : Amid client rolling second :=
  ⟨moved.calling.trans amid.calling, moved.rolling.trans amid.rolling⟩

theorem Amid.fails {client : ι} {choice : Choice} {request : Request} {error : Raised}
    (amid : Amid client rolling store) (steadily : steady client choice store request = true)
    (failed : choice.failure = some error) : Amid client none store := by
  refine ⟨amid.calling, ?_⟩
  simpa [steady, failed] using steadily

theorem Kept.starting (targets : Rows DeploymentTarget.id) : Kept (Store.starting targets : Store ι) where
  sound := ⟨List.nodup_nil, List.forall_mem_nil _, List.forall_mem_nil _, List.nodup_nil⟩
  launched _ _ going := by cases going
  called _ member := by cases member
  once := List.nodup_nil
  reversed deploymentId := by
    refine iff_of_false (fun member => by cases member) ?_
    rintro (marked | ⟨client, held⟩)
    · cases marked
    · cases held
  rolling _ _ held := by cases held
  alone _ _ _ held := by cases held
  idle _ _ := rfl

theorem Kept.settled (kept : Kept store) (quiet : ∀ client, store.calling client = false) : Settled store.deployments := by
  refine ⟨kept.once, fun original member => ?_⟩
  rw [kept.reversed, DeploymentTable.stateOf_mem member, Option.some.injEq]
  refine (or_iff_left ?_).symm
  rintro ⟨client, held⟩
  rw [kept.idle client (quiet client)] at held
  cases held

variable [DecidableEq ι]

theorem Store.rolling_setState {client other : ι} {another : String} {deployedAt : Option Moment} :
    (store.setState client deploymentId new deployedAt).rolling other = some another ↔
      store.rolling other = some another ∧ ¬ (new = .rolledBack ∧ other = client) := by
  change (if new = .rolledBack then Function.update store.rolling client none else store.rolling) other = some another ↔ _
  split
  · next marked =>
    by_cases same : other = client
    · subst other
      simp [marked]
    · rw [Function.update_of_ne same]
      simp [same]
  · next unmarked => simp [unmarked]

theorem Store.launched_setState (client : ι) (deploymentId another : String) (new : DeploymentState)
    (deployedAt : Option Moment) : (store.setState client deploymentId new deployedAt).launched another =
      if another = deploymentId ∧ new = .deploying then some client else store.launched another := by
  change (if new = .deploying then Function.update store.launched deploymentId (some client) else store.launched) another = _
  split
  · next going => simp [Function.update_apply, going]
  · next still => rw [if_neg fun same => still same.2]

/-- The state of a deployment is replaced along an edge; it is marked as rolled
back by who has inserted its rollback. -/
theorem Kept.setState (kept : Kept store) {client : ι} {found : DeploymentState}
    (deployedAt : Option Moment) (current : store.deployments.stateOf deploymentId = some found)
    (edge : new ∈ allowedTransitions found) (marks : new = .rolledBack → store.rolling client = some deploymentId) :
    Kept (store.setState client deploymentId new deployedAt) := by
  obtain ⟨unlike, open', -, back⟩ := DeploymentState.ne_of_allowed edge
  have states : ∀ another, (store.setState client deploymentId new deployedAt).deployments.stateOf another =
      if another = deploymentId then some new else store.deployments.stateOf another := by
    intro another
    refine (store.deployments.stateOf_setState deploymentId new deployedAt another).trans ?_
    split
    · next same => rw [same, current, Option.map_some]
    · rfl
  have reversed := store.deployments.reversed_setState deploymentId new deployedAt
  constructor
  case sound =>
    refine ⟨kept.sound.once, kept.sound.gated, ?_, ?_⟩
    · intro change member
      rcases List.mem_append.mp member with head | tail
      · rw [current] at head
        cases List.mem_singleton.mp head
        exact edge
      · exact kept.sound.edges change tail
    · refine (congrArg List.Nodup (store.deployments.map_setState deploymentId new deployedAt ?_)).mpr kept.sound.versions
      intro deployment state deployedAt
      rfl
  case launched =>
    intro another other going
    rw [states]
    by_cases same : another = deploymentId
    · rw [if_pos same]
      exact ⟨new, rfl, unlike⟩
    · rw [if_neg same]
      apply kept.launched another other
      rwa [Store.launched_setState, if_neg fun both => same both.1] at going
  case called =>
    intro invocation member
    rw [Store.launched_setState]
    split
    · exact Option.some_ne_none client
    · exact kept.called invocation member
  case once => exact (congrArg List.Nodup reversed).mpr kept.once
  case reversed =>
    intro another
    rw [show another ∈ (store.setState client deploymentId new deployedAt).deployments.reversed ↔ _ from
      (congrArg (another ∈ ·) reversed).to_iff, kept.reversed, states]
    simp only [Store.rolling_setState]
    by_cases same : another = deploymentId
    · subst another
      rw [if_pos rfl, current]
      by_cases marked : new = .rolledBack
      · exact iff_of_true (.inr ⟨client, marks marked⟩) (.inl (by rw [marked]))
      · simp [marked, open']
    · rw [if_neg same]
      apply or_congr_right
      apply exists_congr
      intro other
      refine (and_iff_left_of_imp fun held both => same ?_).symm
      rw [both.2, marks both.1] at held
      exact (Option.some.inj held).symm
  case rolling =>
    intro other another held
    obtain ⟨before, foreign⟩ := Store.rolling_setState.mp held
    have deployed := kept.rolling other another before
    rw [states]
    split
    · next same =>
      rw [same, current, Option.some.injEq] at deployed
      have marked := back.mpr deployed
      exact absurd ⟨marked, kept.alone other client another before (same ▸ marks marked)⟩ foreign
    · exact deployed
  case alone =>
    intro first second another one two
    exact kept.alone first second another (Store.rolling_setState.mp one).1 (Store.rolling_setState.mp two).1
  case idle =>
    intro other quiet
    refine Option.eq_none_iff_forall_ne_some.mpr fun another held => ?_
    have before := (Store.rolling_setState.mp held).1
    rw [kept.idle other quiet] at before
    cases before

theorem Kept.setState_others (kept : Kept store) {client : ι} {found : DeploymentState}
    (deployedAt : Option Moment) (current : store.deployments.stateOf deploymentId = some found)
    (edge : new ∈ allowedTransitions found) {other : ι} (foreign : other ≠ client) :
    Undisturbed other store (store.setState client deploymentId new deployedAt) where
  launched := by
    intro another known
    refine ⟨?_, known.uncalled⟩
    rw [Store.launched_setState, if_neg]
    · exact known.launched
    · rintro ⟨rfl, going⟩
      have pending := (DeploymentState.ne_of_allowed edge).2.2.1.mp going
      rw [pending] at current
      have launched := known.launched
      rw [kept.pending current] at launched
      cases launched
  gates _ member := member
  rolling := by
    apply Option.ext
    intro another
    exact Store.rolling_setState.trans (and_iff_left fun both => foreign both.2)
  calling := rfl

theorem Kept.launch (kept : Kept store) (client : ι) (deployedAt : Option Moment)
    (pending : store.deployments.stateOf deploymentId = some .pending) :
    Launched client deploymentId (store.setState client deploymentId .deploying deployedAt) := by
  refine ⟨by rw [Store.launched_setState, if_pos ⟨rfl, rfl⟩], fun called => ?_⟩
  obtain ⟨invocation, member, rfl⟩ := List.mem_map.mp called
  exact kept.called invocation member (kept.pending pending)

variable {found : Option DeploymentState}

theorem Store.rolling_inserted {client : ι}
    (marked : ∀ original, deployment.rollbackOf = some original → found.isSome = true)
    (free : store.rolling client = none) {other : ι} {another : String} :
    (store.inserted client deployment found deployments).rolling other = some another ↔
      store.rolling other = some another ∨ other = client ∧ deployment.rollbackOf = some another := by
  change (if found.isSome = true then Function.update store.rolling client deployment.rollbackOf else store.rolling) other =
    some another ↔ _
  split
  · next rolls =>
    by_cases same : other = client
    · subst other
      simp [free]
    · rw [Function.update_of_ne same]
      simp [same]
  · next plain =>
    refine (or_iff_left fun both => ?_).symm
    exact plain (marked another both.2)

/-- A deployment that is still deployed as it was found, and that no other client is
amid a rollback of, has none. -/
theorem Kept.unreversed (kept : Kept store) {client : ι}
    (asRead : AsRead client store (.insertDeployment deployment found)) (checked : ∀ state ∈ found, state = .deployed)
    (free : store.rolling client = none) {original : String} (rolls : deployment.rollbackOf = some original) :
    store.deployments.stateOf original = some .deployed ∧ original ∉ store.deployments.reversed := by
  obtain ⟨marked, still, alone⟩ := asRead.2 original rolls
  obtain ⟨state, same⟩ := Option.isSome_iff_exists.mp marked
  rw [same, checked state same] at still
  refine ⟨still, fun member => ?_⟩
  rcases (kept.reversed original).mp member with back | ⟨other, held⟩
  · rw [still] at back
    cases back
  · by_cases own : other = client
    · rw [own, free] at held
      cases held
    · exact alone other own held

/-- A pending deployment is inserted under the next version, and the rollback of
one that is deployed and has none is remembered. -/
theorem Kept.inserted (kept : Kept store) {client : ι}
    (inserted : store.deployments.insert deployment = some deployments)
    (pending : deployment.state = .pending) (asRead : AsRead client store (.insertDeployment deployment found))
    (checked : ∀ state ∈ found, state = .deployed) (free : store.rolling client = none)
    (amid : store.calling client = true) : Kept (store.inserted client deployment found deployments) := by
  have rolls : ∀ original ∈ deployment.rollbackOf,
      store.deployments.stateOf original = some .deployed ∧ original ∉ store.deployments.reversed :=
    fun original same => kept.unreversed asRead checked free same
  have rolling : ∀ {other another}, (store.inserted client deployment found deployments).rolling other = some another ↔
      store.rolling other = some another ∨ other = client ∧ deployment.rollbackOf = some another :=
    Store.rolling_inserted (fun original same => (asRead.2 original same).1) free
  have states := DeploymentTable.stateOf_insert inserted
  have reversed := DeploymentTable.reversed_insert inserted
  have absent : store.deployments.stateOf deployment.id = none :=
    congrArg (Option.map Deployment.state) (Rows.insert_eq_some inserted).1
  have still : ∀ {another state}, store.deployments.stateOf another = some state → deployments.stateOf another = some state := by
    intro another state same
    rw [states, if_neg]
    · exact same
    · rintro rfl
      rw [absent] at same
      cases same
  constructor
  case sound =>
    refine ⟨kept.sound.once, kept.sound.gated, kept.sound.edges, ?_⟩
    change (deployments.list.map _).Nodup
    rw [(Rows.insert_eq_some inserted).2, List.map_append, List.nodup_append]
    refine ⟨kept.sound.versions, List.nodup_singleton _, ?_⟩
    intro before member new only same
    cases List.mem_singleton.mp only
    obtain ⟨other, present, rfl⟩ := List.mem_map.mp member
    have highest := DeploymentTable.le_maxVersion present
    rw [(Prod.mk.inj same).1, (Prod.mk.inj same).2, asRead.1] at highest
    omega
  case launched =>
    intro another other going
    obtain ⟨state, same, unlike⟩ := kept.launched another other going
    exact ⟨state, still same, unlike⟩
  case called => exact kept.called
  case once =>
    change deployments.reversed.Nodup
    rw [reversed, List.nodup_append]
    refine ⟨kept.once, ?_, ?_⟩
    · cases deployment.rollbackOf <;> simp
    · rintro before member original only rfl
      exact (rolls before (Option.mem_toList.mp only)).2 member
  case reversed =>
    intro another
    change another ∈ deployments.reversed ↔ _
    have state : deployments.stateOf another = some .rolledBack ↔ store.deployments.stateOf another = some .rolledBack := by
      rw [states]
      split
      · next same =>
        rw [same, absent, pending]
        simp
      · rfl
    rw [reversed, List.mem_append, kept.reversed, Option.mem_toList]
    change _ ↔ deployments.stateOf another = _ ∨ _
    simp only [rolling, state, exists_or, exists_eq_left, or_assoc]
  case rolling =>
    intro other another held
    rcases rolling.mp held with before | ⟨-, new⟩
    · exact still (kept.rolling other another before)
    · exact still (rolls another new).1
  case alone =>
    -- Nobody else is amid a rollback of what has none.
    have unlike : ∀ {other another}, store.rolling other = some another → deployment.rollbackOf ≠ some another :=
      fun held same => (rolls _ same).2 ((kept.reversed _).mpr (.inr ⟨_, held⟩))
    intro first second another one two
    rcases rolling.mp one with before | ⟨rfl, new⟩ <;> rcases rolling.mp two with before' | ⟨rfl, new'⟩
    · exact kept.alone first second another before before'
    · exact absurd new' (unlike before)
    · exact absurd new (unlike before')
    · rfl
  case idle =>
    intro other quiet
    refine Option.eq_none_iff_forall_ne_some.mpr fun another held => ?_
    rcases rolling.mp held with before | ⟨rfl, -⟩
    · rw [kept.idle other quiet] at before
      cases before
    · exact Bool.false_ne_true (quiet.symm.trans amid)

theorem inserted_others (client : ι) (deployment : Deployment) (found : Option DeploymentState) (deployments : DeploymentTable)
    {other : ι} (foreign : other ≠ client) : Undisturbed other store (store.inserted client deployment found deployments) where
  launched known := ⟨known.launched, known.uncalled⟩
  gates _ member := member
  rolling := by
    unfold Store.inserted
    split
    · exact Function.update_of_ne foreign ..
    · rfl
  calling := rfl

theorem Kept.turn (kept : Kept store) (client : ι) (amid : Bool) (through : amid = false → store.rolling client = none) :
    Kept { store with calling := Function.update store.calling client amid } ∧ ∀ other, other ≠ client →
      Undisturbed other store { store with calling := Function.update store.calling client amid } := by
  constructor
  · refine ⟨⟨kept.sound.once, kept.sound.gated, kept.sound.edges, kept.sound.versions⟩, kept.launched, kept.called, kept.once,
      kept.reversed, kept.rolling, kept.alone, fun other quiet => ?_⟩
    change Function.update store.calling client amid other = false at quiet
    by_cases same : other = client
    · subst other
      rw [Function.update_self] at quiet
      exact through quiet
    · rw [Function.update_of_ne same] at quiet
      exact kept.idle other quiet
  · intro other foreign
    exact ⟨fun known => ⟨known.launched, known.uncalled⟩, fun _ => id, rfl, Function.update_of_ne foreign ..⟩

variable {client : ι} {state : Store ι}

/-- The statements that leave what the others and the client itself know. -/
def Request.Quiet : Request → Prop
  | .insertDeployment _ _ | .setState _ _ _ _ | .invoke _ _ | .enter | .leave => False
  | _ => True

theorem Kept.quiet {request : Request} {choice : Choice} {reply : Except Raised (Reply request)} {after : Store ι}
    (kept : Kept state) (quiet : request.Quiet) (answered : serve client choice state request = some (reply, after)) :
    Kept after ∧ ∀ other, Undisturbed other state after := by
  obtain ⟨failure, known, answer, ts, id⟩ := choice
  cases request with
  | insertDeployment | setState | invoke | enter | leave => exact quiet.elim
  | insertGate gate =>
    cases failure with
    | some error =>
      cases answered
      exact ⟨kept, fun other => .refl other state⟩
    | none =>
      simp only [serve] at answered
      split at answered
      · next gates inserted =>
        cases answered
        exact kept.insertGate inserted
      · cases answered
        exact ⟨kept, fun other => .refl other state⟩
  | _ =>
    cases failure <;> cases answered <;> exact ⟨kept, fun other => .refl other state⟩

theorem quiet_safe {α : Type} {program : Program α} (only : program.Only Request.Quiet) :
    (keeping ι).Safe (serve.restrict steady) client (fun _ final => Undisturbed client state final) program state := by
  refine (Contract.Safe.only (Undisturbed.refl client) (fun _ _ _ => Undisturbed.trans) ?_ only (.trivial program)).weaken
    fun _ _ => And.left
  intro request choice now reply after quiet kept _ answered
  exact Kept.quiet kept quiet (Service.restrict_some answered).2

theorem record_safe (audit : Bool) (trace : Trace) :
    (keeping ι).Safe (serve.restrict steady) client (fun result final => Undisturbed client state final ∧
      ∀ error, result = .error error → final.rolling client = none) (record audit trace) state := by
  cases audit with
  | true =>
    apply Contract.Safe.perform
    intro now kept moved _ choice reply after answered
    obtain ⟨steadily, answered⟩ := Service.restrict_some answered
    have quiet : (Request.record trace).Quiet := trivial
    obtain ⟨kept, others⟩ := Kept.quiet kept quiet answered
    refine ⟨kept, fun other _ => others other, moved.trans (others client), fun error failed => ?_⟩
    subst failed
    cases failure : choice.failure with
    | none =>
      simp only [serve, failure] at answered
      cases answered
    | some error =>
      simp only [serve, failure] at answered
      cases answered
      simpa [steady, failure] using steadily
  | false => exact ⟨.refl client state, fun _ same => by cases same⟩

theorem timeOf_safe (new : DeploymentState) :
    (keeping ι).Safe (serve.restrict steady) client (fun result final => Undisturbed client state final ∧
      ∃ deployedAt, result = .ok deployedAt) (DeploymentExecutor.timeOf new) state := by
  unfold DeploymentExecutor.timeOf
  split
  · apply Contract.Safe.bind
    apply Contract.Safe.perform
    intro now kept moved _ choice reply after answered
    cases (Service.restrict_some answered).2
    exact ⟨kept, fun other _ => .refl other now, moved, _, rfl⟩
  · exact ⟨.refl client state, none, rfl⟩

theorem recordBy_safe (audit : Bool) (actorId : Option String) (trace : String → Trace) :
    (keeping ι).Safe (serve.restrict steady) client (fun result final => Undisturbed client state final ∧
      ∀ error, result = .error error → final.rolling client = none) (recordBy audit actorId trace) state := by
  cases actorId with
  | some actorId => exact record_safe audit (trace actorId)
  | none => exact ⟨.refl client state, fun _ same => by cases same⟩

/-- A row that is looked up: where it is not found, or the call is cut off, the
client has nothing to mark. -/
theorem getDeployment_safe (amid : Amid client rolling state)
    (marks : ∀ original, rolling = some original → original = deploymentId) :
    (keeping ι).Safe (serve.restrict steady) client (fun result final => Undisturbed client state final ∧ match result with
      | .ok (some deployment) => deployment.id = deploymentId ∧ (rolling ≠ none → deployment.state = .deployed)
      | .ok none => final.rolling client = none
      | .error _ => final.rolling client = none) (DeploymentExecutor.getDeployment deploymentId) state := by
  apply Contract.Safe.perform
  intro now kept moved _ choice reply after answered
  obtain ⟨steadily, answered⟩ := Service.restrict_some answered
  replace amid := amid.moved moved
  cases failure : choice.failure with
  | some error =>
    simp only [serve, failure] at answered
    cases answered
    exact ⟨kept, fun other _ => .refl other now, moved, (amid.fails steadily failure).rolling⟩
  | none =>
    simp only [serve, failure] at answered
    cases answered
    refine ⟨kept, fun other _ => .refl other now, moved, ?_⟩
    have deployed : ∀ original, rolling = some original → now.deployments.stateOf deploymentId = some .deployed := by
      intro original same
      rw [← marks original same]
      exact (kept : Kept now).rolling client original (amid.rolling.trans same)
    cases found : now.deployments.find deploymentId with
    | none =>
      simp only
      rw [amid.rolling]
      refine Option.eq_none_iff_forall_ne_some.mpr fun original same => ?_
      have present := deployed original same
      rw [DeploymentTable.stateOf, found] at present
      cases present
    | some deployment =>
      simp only
      refine ⟨(Rows.find_eq_some.mp found).2, fun some => ?_⟩
      obtain ⟨original, same⟩ := Option.ne_none_iff_exists'.mp some
      have present := deployed original same
      rw [DeploymentTable.stateOf, found] at present
      exact Option.some.inj present

theorem transitionState_safe (executor : DeploymentExecutor)
    {actorId : Option String} (amid : Amid client (if new = .rolledBack then some deploymentId else none) state) :
    (keeping ι).Safe (serve.restrict steady) client (fun result final => Amid client none final ∧
      (∀ gate ∈ state.gates.list, gate ∈ final.gates.list) ∧ ∀ deployment, result = .ok deployment → deployment.id = deploymentId ∧
        (new = .deploying → Launched client deploymentId final))
      (executor.transitionState deploymentId new actorId) state := by
  apply Contract.Safe.bind
  refine (getDeployment_safe amid ?_).weaken fun result now reached => ?_
  · intro original same
    split at same
    · exact (Option.some.inj same).symm
    · cases same
  obtain ⟨moved, found⟩ := reached
  have gates := moved.gates
  replace amid := amid.moved moved
  rcases result with error | _ | before
  · exact ⟨⟨amid.calling, found⟩, gates, fun _ same => by cases same⟩
  · exact ⟨⟨amid.calling, found⟩, gates, fun _ same => by cases same⟩
  obtain ⟨same, deployed⟩ := found
  by_cases edge : new ∈ allowedTransitions before.state
  · simp only [if_neg (not_not.mpr edge)]
    apply Contract.Safe.bind
    refine (timeOf_safe new).weaken fun result now reached => ?_
    obtain ⟨moved, deployedAt, rfl⟩ := reached
    replace gates := fun gate member => moved.gates gate (gates gate member)
    replace amid := amid.moved moved
    apply Contract.Safe.bind
    apply Contract.Safe.perform
    intro now kept moved current choice reply after answered
    obtain ⟨steadily, answered⟩ := Service.restrict_some answered
    replace gates := fun gate member => moved.gates gate (gates gate member)
    replace amid := amid.moved moved
    replace kept : Kept now := kept
    replace current : now.deployments.stateOf deploymentId = some before.state := current
    cases failure : choice.failure with
    | some error =>
      simp only [serve, failure] at answered
      cases answered
      exact ⟨kept, fun other _ => .refl other now, amid.fails steadily failure, gates, fun _ same => by cases same⟩
    | none =>
      simp only [serve, failure] at answered
      cases answered
      have marks : new = .rolledBack → now.rolling client = some deploymentId := by
        intro marked
        rw [amid.rolling, if_pos marked]
      refine ⟨kept.setState deployedAt current edge marks, fun other => kept.setState_others deployedAt current edge, ?_⟩
      replace amid : Amid client none (now.setState client deploymentId new deployedAt) := by
        refine ⟨amid.calling, Option.eq_none_iff_forall_ne_some.mpr fun original held => ?_⟩
        obtain ⟨held, unmarked⟩ := Store.rolling_setState.mp held
        rw [amid.rolling] at held
        split at held
        · next marked => exact unmarked ⟨marked, rfl⟩
        · cases held
      have launched : new = .deploying → Launched client deploymentId (now.setState client deploymentId new deployedAt) := by
        intro going
        rw [(DeploymentState.ne_of_allowed edge).2.2.1.mp going] at current
        rw [going]
        exact kept.launch client deployedAt current
      apply Contract.Safe.bind
      refine (recordBy_safe executor.audit actorId _).weaken fun result final reached => ?_
      obtain ⟨moved, -⟩ := reached
      replace gates := fun gate member => moved.gates gate (gates gate member)
      cases result with
      | error error => exact ⟨amid.moved moved, gates, fun _ same => by cases same⟩
      | ok _ =>
        refine ⟨amid.moved moved, gates, fun deployment returned => ?_⟩
        cases returned
        exact ⟨same, fun going => moved.launched (launched going)⟩
  · simp only [if_pos edge]
    refine ⟨?_, gates, fun _ same => by cases same⟩
    -- What is rolled back was found deployed.
    have unmarked : new ≠ .rolledBack := by
      intro marked
      rw [if_pos marked] at deployed
      rw [deployed (Option.some_ne_none _), marked] at edge
      exact edge (by simp [allowedTransitions])
    rwa [if_neg unmarked] at amid

theorem requireTarget_quiet (targetId : String) (activeOnly : Bool) :
    (DeploymentExecutor.requireTarget targetId activeOnly).Only Request.Quiet := by
  apply Prog.Only.bind (Prog.Only.perform trivial)
  intro row
  cases row with
  | none => trivial
  | some target =>
    simp only
    split <;> trivial

theorem requireObject_quiet (objectId : String) : (DeploymentExecutor.requireObject objectId).Only Request.Quiet := by
  apply Prog.Only.bind (Prog.Only.perform trivial)
  intro known
  split <;> trivial

theorem requireScope_quiet (scopeId : String) : (DeploymentExecutor.requireScope scopeId).Only Request.Quiet := by
  apply Prog.Only.bind (Prog.Only.perform trivial)
  intro known
  split <;> trivial

theorem requireOriginal_quiet (targetId rollbackOf : String) :
    (DeploymentExecutor.requireOriginal targetId rollbackOf).Only Request.Quiet := by
  apply Prog.Only.bind (Prog.Only.perform trivial)
  intro row
  cases row with
  | none => trivial
  | some original =>
    simp only
    split <;> trivial

theorem whereGiven_quiet (given : Option String) {require : String → Program Unit}
    (quiet : ∀ id, (require id).Only Request.Quiet) : (DeploymentExecutor.whereGiven given require).Only Request.Quiet := by
  cases given with
  | none => trivial
  | some id => exact quiet id

theorem Amid.after_quiet {α β : Type} {program : Program α} {next : α → Program β}
    {post : Except Raised β → Store ι → Prop} (amid : Amid client rolling state) (only : program.Only Request.Quiet)
    (fails : ∀ error now, Amid client rolling now → post (.error error) now)
    (goes : ∀ value now, Undisturbed client state now → Amid client rolling now →
      (keeping ι).Safe (serve.restrict steady) client post (next value) now) :
    (keeping ι).Safe (serve.restrict steady) client post (program.bind next) state := by
  apply Contract.Safe.bind
  refine (quiet_safe only).weaken fun result now moved => ?_
  cases result with
  | error error => exact fails error now (amid.moved moved)
  | ok value => exact goes value now moved (amid.moved moved)

theorem Amid.inserted (amid : Amid client none state) (deployment : Deployment) (found : Option DeploymentState)
    (deployments : DeploymentTable) : Amid client (if found.isSome then deployment.rollbackOf else none)
      (state.inserted client deployment found deployments) := by
  refine ⟨amid.calling, ?_⟩
  cases found with
  | none => exact amid.rolling
  | some state => exact Function.update_self ..

theorem createDeployment_safe (executor : DeploymentExecutor) {targetId deployedBy : String} {objectId scopeId : Option String}
    {metadata : Option Json} {rollbackOf : Option String}
    (checked : ∀ state ∈ found, state = .deployed) (amid : Amid client none state) :
    (keeping ι).Safe (serve.restrict steady) client (fun result final => match result with
      | .ok _ => Amid client (if found.isSome then rollbackOf else none) final
      | .error _ => Amid client none final)
      (executor.createDeployment targetId deployedBy objectId scopeId metadata rollbackOf found) state := by
  refine amid.after_quiet (requireTarget_quiet targetId true) (fun _ _ => id) fun _ now _ amid => ?_
  refine amid.after_quiet (whereGiven_quiet objectId requireObject_quiet) (fun _ _ => id) fun _ now _ amid => ?_
  refine amid.after_quiet (whereGiven_quiet scopeId requireScope_quiet) (fun _ _ => id) fun _ now _ amid => ?_
  refine amid.after_quiet (whereGiven_quiet rollbackOf (requireOriginal_quiet targetId)) (fun _ _ => id) fun _ now _ amid => ?_
  refine amid.after_quiet (Prog.Only.perform trivial) (fun _ _ => id) fun maxVersion now _ amid => ?_
  refine amid.after_quiet (Prog.Only.perform trivial) (fun _ _ => id) fun deploymentId now _ amid => ?_
  apply Contract.Safe.bind
  apply Contract.Safe.perform
  intro now kept moved asRead choice reply after answered
  obtain ⟨steadily, answered⟩ := Service.restrict_some answered
  replace amid := amid.moved moved
  cases failure : choice.failure with
  | some error =>
    simp only [serve, failure] at answered
    cases answered
    exact ⟨kept, fun other _ => .refl other now, amid⟩
  | none =>
    simp only [serve, failure] at answered
    split at answered
    · next deployments inserted =>
      cases answered
      refine ⟨Kept.inserted kept inserted rfl asRead checked amid.rolling amid.calling,
        fun other => inserted_others client _ found deployments, ?_⟩
      apply Contract.Safe.bind
      refine (record_safe executor.audit _).weaken fun result final reached => ?_
      obtain ⟨moved, free⟩ := reached
      replace amid := (amid.inserted _ found deployments).moved moved
      cases result with
      | error error => exact ⟨amid.calling, free error rfl⟩
      | ok _ => exact amid
    · cases answered
      exact ⟨kept, fun other _ => .refl other now, amid⟩

theorem requireGates_safe (amid : Amid client none state) :
    (keeping ι).Safe (serve.restrict steady) client (fun result final => Amid client none final ∧
      ∀ gates, result = .ok gates → ∀ gate ∈ gates, gate ∈ final.gates.list ∧ gate.passed = true)
      (DeploymentExecutor.requireGates deploymentId) state := by
  apply Contract.Safe.bind
  apply Contract.Safe.perform
  intro now kept moved _ choice reply after answered
  obtain ⟨-, answered⟩ := Service.restrict_some answered
  replace amid := amid.moved moved
  cases failure : choice.failure with
  | some error =>
    simp only [serve, failure] at answered
    cases answered
    exact ⟨kept, fun other _ => .refl other now, amid, fun _ same => by cases same⟩
  | none =>
    simp only [serve, failure] at answered
    cases answered
    refine ⟨kept, fun other _ => .refl other now, ?_⟩
    by_cases through : (now.gatesOf deploymentId).filter (fun gate => !gate.passed) = []
    · simp only [if_neg (not_not.mpr through)]
      refine ⟨amid, fun gates same gate member => ?_⟩
      cases same
      refine ⟨(List.mem_filter.mp member).1, ?_⟩
      simpa using List.filter_eq_nil_iff.mp through gate member
    · simp only [if_pos through]
      exact ⟨amid, fun _ same => by cases same⟩

theorem deploy_safe (deployFn : Bool) {gates : List DeploymentGate} (amid : Amid client none state)
    (launched : Launched client deployment.id state)
    (passed : ∀ gate ∈ gates, gate ∈ state.gates.list ∧ gate.passed = true) :
    (keeping ι).Safe (serve.restrict steady) client (fun _ final => Amid client none final)
      (DeploymentExecutor.deploy deployFn deployment gates) state := by
  cases deployFn with
  | false => exact amid
  | true =>
    apply Contract.Safe.bind
    apply Contract.Safe.perform
    intro now kept moved asRead choice reply after answered
    obtain ⟨-, answered⟩ := Service.restrict_some answered
    cases answered
    obtain ⟨kept, others⟩ := Kept.invoke kept (moved.launched launched)
      (fun gate member => ⟨moved.gates gate (passed gate member).1, (passed gate member).2⟩) asRead
    refine ⟨kept, others, ?_⟩
    replace amid := amid.moved moved
    cases choice.answer <;> exact ⟨amid.calling, amid.rolling⟩

theorem executeDeployment_safe (executor : DeploymentExecutor) {actorId : String} {deployFn : Bool}
    (amid : Amid client none state) :
    (keeping ι).Safe (serve.restrict steady) client (fun _ final => Amid client none final)
      (executor.executeDeployment deploymentId actorId deployFn) state := by
  refine amid.after_quiet (Prog.Only.perform trivial) (fun _ _ => id) fun row now _ amid => ?_
  cases row with
  | none => exact amid
  | some deployment =>
    by_cases pending : deployment.state = .pending
    · simp only [if_neg (not_not.mpr pending)]
      refine amid.after_quiet (requireTarget_quiet deployment.targetId true) (fun _ _ => id) fun _ now _ amid => ?_
      apply Contract.Safe.bind
      refine (requireGates_safe amid).weaken fun result now reached => ?_
      obtain ⟨amid, passed⟩ := reached
      cases result with
      | error error => exact amid
      | ok gates =>
        apply Contract.Safe.bind
        refine (transitionState_safe executor amid).weaken fun result now reached => ?_
        obtain ⟨amid, lasting, launched⟩ := reached
        cases result with
        | error error => exact amid
        | ok deployment =>
          obtain ⟨rfl, launched⟩ := launched deployment rfl
          apply Contract.Safe.bind
          refine (deploy_safe deployFn amid (launched rfl) ?_).weaken fun result now amid => ?_
          · exact fun gate member => ⟨lasting gate (passed gates rfl gate member).1, (passed gates rfl gate member).2⟩
          · cases result with
            | error error => exact amid
            | ok success =>
              cases success with
              | false => exact (transitionState_safe executor amid).weaken fun _ _ => And.left
              | true => exact (transitionState_safe executor amid).weaken fun _ _ => And.left
    · simp only [if_pos pending]
      exact amid

theorem rollbackDeployment_safe (manager : DeploymentRollbackManager) {actorId : String} {metadata : Option Json}
    (amid : Amid client none state) :
    (keeping ι).Safe (serve.restrict steady) client (fun _ final => Amid client none final)
      (manager.rollbackDeployment deploymentId actorId metadata) state := by
  refine amid.after_quiet (Prog.Only.perform trivial) (fun _ _ => id) fun row now _ amid => ?_
  cases row with
  | none => exact amid
  | some original =>
    by_cases deployed : original.state = .deployed
    · simp only [if_neg (not_not.mpr deployed)]
      apply Contract.Safe.bind
      refine (createDeployment_safe manager.executor (fun _ same => by cases same; exact deployed) amid).weaken fun result now reached => ?_
      cases result with
      | error error => exact reached
      | ok rollback =>
        apply Contract.Safe.bind
        refine (transitionState_safe manager.executor reached).weaken fun result now reached => ?_
        obtain ⟨amid, -, -⟩ := reached
        cases result with
        | error error => exact amid
        | ok _ =>
          apply Contract.Safe.bind
          refine (record_safe manager.audit _).weaken fun result final reached => ?_
          cases result <;> exact amid.moved reached.1
    · simp only [if_pos deployed]
      exact amid

theorem recordBy_quiet (audit : Bool) (actorId : Option String) (trace : String → Trace) :
    (recordBy audit actorId trace).Only Request.Quiet := by
  cases actorId with
  | none => trivial
  | some actorId =>
    cases audit with
    | false => trivial
    | true => exact Prog.Only.perform trivial

theorem recordGate_quiet (checker : GateChecker) (deploymentId : String) (gateType : GateType) (passed : Bool)
    (details : Option Json) (checkedBy : Option String) :
    (checker.recordGate deploymentId gateType passed details checkedBy).Only Request.Quiet := by
  apply Prog.Only.bind (Prog.Only.perform trivial)
  intro ts
  apply Prog.Only.bind (Prog.Only.perform trivial)
  intro gateId
  apply Prog.Only.bind (Prog.Only.perform trivial)
  intro _
  exact Prog.Only.bind (recordBy_quiet checker.audit checkedBy _) fun _ => trivial

theorem invoke_safe (made : Call) (amid : Amid client none state) :
    (keeping ι).Safe (serve.restrict steady) client (fun _ final => Amid client none final) (invoke made) state := by
  cases made with
  | createDeployment executor targetId deployedBy objectId scopeId metadata rollbackOf =>
    have unchecked : ∀ state ∈ (none : Option DeploymentState), state = .deployed := nofun
    refine Contract.Safe.bind ((createDeployment_safe executor unchecked amid).weaken fun result final reached => ?_)
    cases result <;> exact reached
  | recordGate checker deploymentId gateType passed details checkedBy =>
    refine Contract.Safe.bind ((quiet_safe (recordGate_quiet checker ..)).weaken fun result final moved => ?_)
    cases result <;> exact amid.moved moved
  | executeDeployment executor deploymentId actorId deployFn =>
    refine Contract.Safe.bind ((executeDeployment_safe executor amid).weaken fun result final amid => ?_)
    cases result <;> exact amid
  | rollbackDeployment manager deploymentId actorId metadata =>
    refine Contract.Safe.bind ((rollbackDeployment_safe manager amid).weaken fun result final amid => ?_)
    cases result <;> exact amid

theorem Client.safe {program : Program Unit} (runs : Client program) (idle : state.calling client = false) :
    (keeping ι).Safe (serve.restrict steady) client (fun _ _ => True) program state := by
  induction runs generalizing state with
  | done => trivial
  | call made next each ih =>
    apply Contract.Safe.bind
    apply Contract.Safe.bind
    apply Contract.Safe.perform
    intro now kept moved _ choice reply after answered
    obtain ⟨-, answered⟩ := Service.restrict_some answered
    cases answered
    obtain ⟨kept', others⟩ := Kept.turn kept client true fun same => by cases same
    refine ⟨kept', others, ?_⟩
    have amid : Amid client none { now with calling := Function.update now.calling client true } :=
      ⟨Function.update_self .., (kept : Kept now).idle client (moved.calling.trans idle)⟩
    apply Contract.Safe.bind
    apply Contract.Safe.attempt
    refine (invoke_safe made amid).weaken fun result now amid => ?_
    apply Contract.Safe.bind
    apply Contract.Safe.perform
    intro now kept moved _ choice reply after answered
    obtain ⟨-, answered⟩ := Service.restrict_some answered
    cases answered
    obtain ⟨kept, others⟩ := Kept.turn kept client false fun _ => (amid.moved moved).rolling
    exact ⟨kept, others, ih result (Function.update_self ..)⟩

section Sample

private def server : Rows DeploymentTarget.id :=
  ⟨[⟨"production", "production", "server", "alice", .of 0 Moment.start_within, .obj [], .active⟩], List.nodup_singleton _⟩

private def release : String := (ScopedId.repeated 0).text

/-- One client creates a deployment and executes it, and so does the other execute it. -/
private def twoDeployers : Bool → Program Unit
  | false => (call (.createDeployment ⟨false⟩ "production" "alice" none none none none)).bind fun _ =>
    (call (.executeDeployment ⟨false⟩ release "alice" true)).bind fun _ => .pure ()
  | true => (call (.executeDeployment ⟨false⟩ release "bob" true)).bind fun _ => .pure ()

private def plainly (turn : Bool × Fin 10) : Bool × Choice :=
  (turn.1, ⟨none, true, .returned true, .of 0 Moment.start_within, .repeated turn.2⟩)

private theorem race_runs :
    ((Interleaved.run serve (fun _ _ _ => True) ⟨.starting server, twoDeployers⟩
      ((List.replicate 11 (false, (0 : Fin 10)) ++ List.replicate 5 (true, 1) ++ List.replicate 2 (false, 0) ++
        List.replicate 2 (true, 1)).map plainly)).map fun world => world.state.invocations) =
      some [⟨release, false⟩, ⟨release, false⟩] := by
  decide +kernel

private instance (client : Bool) (store : Store Bool) (request : Request) : Decidable (AsRead client store request) := by
  unfold AsRead
  split <;> infer_instance

/-- One client creates a deployment and executes it, the other rolls it back. -/
private def inTurn : Bool → Program Unit
  | false => twoDeployers false
  | true => (call (.rollbackDeployment ⟨⟨true⟩, true⟩ release "bob" none)).bind fun _ => .pure ()

private theorem sequence_runs :
    ((Interleaved.run (serve.restrict steady) AsRead ⟨.starting server, inTurn⟩
      ((List.replicate 17 (false, (0 : Fin 10)) ++ List.replicate 13 (true, 1)).map plainly)).map fun world =>
        (world.state.invocations, world.state.deployments.list.map fun deployment => (deployment.state, deployment.rollbackOf),
          world.state.calling false || world.state.calling true)) =
      some ([⟨release, false⟩], [(.rolledBack, none), (.pending, some release)], false) := by
  decide +kernel

end Sample

end PyScoped.Legacy.Deployments
