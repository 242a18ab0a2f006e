import PyScoped.Core.RelationGuards
import Mathlib.Data.List.Nodup
import Mathlib.Tactic.ByContra

/-! Whatever the order of class statements, registrations and the two signals of
readiness, once the application is ready the guarded descriptors are those of the
relations between enforced models, each bound to the model at its other end. -/

namespace PyScoped.Guards
open Foundation

section Order

variable {M : Type} {schema : Schema M} {state : State M}

def Guarded (model : M) (name : String) (state : State M) : Prop :=
  ∃ descriptor, state.attributes model name = some descriptor ∧ descriptor.guards ≠ []

/-- Only descriptors differ, and no guard is lost. -/
structure Keeps (before after : State M) : Prop where
  defined : after.defined = before.defined
  registry : after.registry = before.registry
  modelsReady : after.modelsReady = before.modelsReady
  readied : after.readied = before.readied
  guarded : ∀ model name, Guarded model name before → Guarded model name after

theorem Keeps.refl (state : State M) : Keeps state state := ⟨rfl, rfl, rfl, rfl, fun _ _ here => here⟩

variable {first second : State M}

theorem Keeps.trans {third : State M} (kept : Keeps first second) (kept' : Keeps second third) :
    Keeps first third :=
  ⟨kept'.defined.trans kept.defined, kept'.registry.trans kept.registry, kept'.modelsReady.trans kept.modelsReady,
    kept'.readied.trans kept.readied, fun model name here => kept'.guarded model name (kept.guarded model name here)⟩

theorem resolve_congr (defined : second.defined = first.defined) (reference : Reference M) :
    resolve schema second reference = resolve schema first reference := by
  cases reference with
  | model => rfl
  | label => simp only [resolve, defined]

theorem resolve_names {reference : Reference M} {target : M} (resolved : resolve schema state reference = some target) :
    reference.Names schema.options target := by
  cases reference with
  | model model =>
    obtain rfl := Option.some.inj resolved
    exact .inl rfl
  | label label =>
    have named := List.find?_some resolved
    exact .inr (congrArg _ (of_decide_eq_true named).symm)

def Enforced (state : State M) (model : M) : Prop := ∃ config ∈ state.registry, config.model = model ∧ config.mode = .enforce

/-- The guards there should be: on the forward relations between two enforced
models, and on the accessors that one-to-one relations leave on their targets. -/
inductive Due (schema : Schema M) (state : State M) (model : M) (name : String) (target : Registration M) : Prop where
  | forward (enforced : Enforced state model) (registered : target ∈ state.registry) (enforces : target.mode = .enforce)
      (field : Field M) (member : field ∈ (schema.options model).fields) (relation : Relation M)
      (relates : field.relation = some relation) (resolved : resolve schema state relation.reference = some target.model)
      (named : field.name = name)
  | reverse (enforced : Enforced state model) (registered : target ∈ state.registry) (enforces : target.mode = .enforce)
      (field : Field M) (member : field ∈ (schema.options target.model).fields) (relation : Relation M)
      (relates : field.relation = some relation) (resolved : resolve schema state relation.reference = some model)
      (oneToOne : relation.oneToOne = true) (named : relation.accessor = some name)

variable {target : Registration M} {name : String}

theorem Due.congr {model : M} (due : Due schema first model name target) (defined : second.defined = first.defined)
    (registry : ∀ config ∈ first.registry, config ∈ second.registry) : Due schema second model name target := by
  have enforced' {model : M} : Enforced first model → Enforced second model :=
    fun ⟨config, member, same⟩ => ⟨config, registry config member, same⟩
  cases due with
  | forward enforced registered enforces field member relation relates resolved named =>
    exact .forward (enforced' enforced) (registry _ registered) enforces field member relation relates
      ((resolve_congr defined _).trans resolved) named
  | reverse enforced registered enforces field member relation relates resolved oneToOne named =>
    exact .reverse (enforced' enforced) (registry _ registered) enforces field member relation relates
      ((resolve_congr defined _).trans resolved) oneToOne named

variable [DecidableEq M]

/-- What holds between any two events. -/
structure Sound (schema : Schema M) (state : State M) : Prop where
  defined : ∀ config ∈ state.registry, config.model ∈ state.defined
  single : ∀ first ∈ state.registry, ∀ second ∈ state.registry, first.model = second.model → first = second
  forward : ∀ model ∈ state.defined, ∀ field ∈ (schema.options model).fields, field.relation.isSome →
    (state.attributes model field.name).isSome
  reverse : ∀ model, ∀ related ∈ relatedObjects schema state model, (state.attributes model related.2.2).isSome
  bound : ∀ model name descriptor, state.attributes model name = some descriptor →
    descriptor.guards = [] ∨ ∃ target, descriptor.guards = [target] ∧ Due schema state model name target

theorem mem_relatedObjects {model : M} {related : M × Relation M × String} :
    related ∈ relatedObjects schema state model ↔ related.1 ∈ state.defined ∧
      ∃ field ∈ (schema.options related.1).fields, field.relation = some related.2.1 ∧
        resolve schema state related.2.1.reference = some model ∧ related.2.1.accessor = some related.2.2 := by
  obtain ⟨source, relation, name⟩ := related
  simp only [relatedObjects, List.mem_flatMap, List.mem_filterMap]
  constructor
  · rintro ⟨source', defined, field, member, picked⟩
    split at picked
    · cases picked
    next relation' relates =>
      split at picked
      next resolved =>
        obtain ⟨name', named, same⟩ := Option.map_eq_some_iff.mp picked
        cases same
        exact ⟨defined, field, member, relates, resolved, named⟩
      · cases picked
  · rintro ⟨defined, field, member, relates, resolved, named⟩
    exact ⟨source, defined, field, member, by rw [relates]; simp [resolved, named]⟩

theorem Due.unique (sound : Sound schema state) {model : M} {first second : Registration M}
    (due : Due schema state model name first) (due' : Due schema state model name second) : first = second := by
  have crossed {field field' : Field M} {relation' : Relation M} {source : M}
      (member : field ∈ (schema.options model).fields) (named : field.name = name)
      (member' : field' ∈ (schema.options source).fields) (relates' : field'.relation = some relation')
      (resolved' : resolve schema state relation'.reference = some model) (named' : relation'.accessor = some name) : False :=
    schema.apart source field' member' relation' relates' model (resolve_names resolved') name named' field member named
  cases due with
  | forward _ registered _ field member relation relates resolved named =>
    cases due' with
    | forward _ registered' _ field' member' relation' relates' resolved' named' =>
      obtain rfl : field = field' := List.inj_on_of_nodup_map (schema.names model) member member' (named.trans named'.symm)
      obtain rfl := Option.some.inj (relates.symm.trans relates')
      exact sound.single _ registered _ registered' (Option.some.inj (resolved.symm.trans resolved'))
    | reverse _ _ _ field' member' relation' relates' resolved' _ named' =>
      exact (crossed member named member' relates' resolved' named').elim
  | reverse _ registered _ field member relation relates resolved _ named =>
    cases due' with
    | forward _ _ _ field' member' relation' relates' resolved' named' =>
      exact (crossed member' named' member relates resolved named).elim
    | reverse _ registered' _ field' member' relation' relates' resolved' _ named' =>
      exact sound.single _ registered _ registered' (schema.accessors _ field member relation relates _ field' member'
        relation' relates' model (resolve_names resolved) (resolve_names resolved') name named named').1

theorem Sound.congr {before after : State M} (kept : Keeps before after) (sound : Sound schema before)
    (bound : ∀ model name, after.attributes model name = before.attributes model name ∨
      ∃ target, after.attributes model name = some ⟨[target]⟩ ∧ Due schema before model name target) :
    Sound schema after := by
  have due {model : M} {name : String} {target : Registration M} (due : Due schema before model name target) :
      Due schema after model name target := due.congr kept.defined fun config member => kept.registry ▸ member
  have there {model : M} {name : String} (there : (before.attributes model name).isSome) :
      (after.attributes model name).isSome := by
    rcases bound model name with same | ⟨target, guarded, _⟩
    · rwa [same]
    · rw [guarded]
      rfl
  refine ⟨?_, ?_, ?_, ?_, ?_⟩
  · rw [kept.registry, kept.defined]
    exact sound.defined
  · rw [kept.registry]
    exact sound.single
  · rw [kept.defined]
    exact fun model member field listed relates => there (sound.forward model member field listed relates)
  · intro model related member
    obtain ⟨defined, field, listed, relates, resolved, named⟩ := mem_relatedObjects.mp member
    rw [kept.defined] at defined
    rw [resolve_congr kept.defined] at resolved
    exact there (sound.reverse model related (mem_relatedObjects.mpr ⟨defined, field, listed, relates, resolved, named⟩))
  · intro model name descriptor present
    rcases bound model name with same | ⟨target, guarded, here⟩
    · rcases sound.bound model name descriptor (same ▸ present) with plain | ⟨target, guarded, here⟩
      · exact .inl plain
      · exact .inr ⟨target, guarded, due here⟩
    · obtain rfl := Option.some.inj (guarded.symm.trans present)
      exact .inr ⟨target, rfl, due here⟩

/-- Wrapping where a guard is due. -/
theorem wrap_on (sound : Sound schema state) {model : M}
    (due : Due schema state model name target) (there : (state.attributes model name).isSome) :
    ∃ after, (wrap model name target).on state = (.ok (), after) ∧ Keeps state after ∧ Sound schema after ∧
      Guarded model name after := by
  obtain ⟨⟨guards⟩, present⟩ := Option.isSome_iff_exists.mp there
  have getting : (getattr model name).on state = (.ok ⟨guards⟩, state) := by
    simp only [getattr, Stateful.on_bind, Stateful.on_get, present, Stateful.on_pure]
  unfold wrap
  rw [Stateful.on_bind, getting]
  rcases sound.bound model name _ present with plain | ⟨target', guarded, _⟩
  · obtain rfl : guards = [] := plain
    let own := Function.update (state.attributes model) name (some ⟨[target]⟩)
    let after : State M := { state with attributes := Function.update state.attributes model own }
    have bound (model' : M) (name' : String) : after.attributes model' name' = state.attributes model' name' ∨
        ((model', name') = (model, name) ∧ after.attributes model' name' = some ⟨[target]⟩) := by
      by_cases same : model' = model
      · subst same
        by_cases same' : name' = name
        · subst same'
          exact .inr ⟨rfl, by simp [after, own]⟩
        · exact .inl (by simp [after, own, same'])
      · exact .inl (by simp [after, same])
    have kept : Keeps state after := by
      refine ⟨rfl, rfl, rfl, rfl, fun model' name' ⟨descriptor', present', guarded⟩ => ?_⟩
      rcases bound model' name' with same | ⟨_, wrapped⟩
      · exact ⟨descriptor', same.trans present', guarded⟩
      · exact ⟨_, wrapped, List.cons_ne_nil _ _⟩
    refine ⟨after, rfl, kept, sound.congr kept fun model' name' => (bound model' name').imp_right ?_, ⟨[target]⟩,
      by simp [after, own], List.cons_ne_nil _ _⟩
    rintro ⟨same, wrapped⟩
    cases same
    exact ⟨target, wrapped, due⟩
  · obtain rfl : guards = [target'] := guarded
    exact ⟨state, rfl, .refl state, sound, _, present, List.cons_ne_nil _ _⟩

theorem find_enforced (sound : Sound schema state) {model : M} :
    find (state.registry.filter (·.mode = .enforce)) model = some target ↔
      target ∈ state.registry ∧ target.mode = .enforce ∧ target.model = model := by
  constructor
  · intro found
    have member := List.mem_filter.mp (List.mem_of_find?_eq_some found)
    have same := List.find?_some found
    exact ⟨member.1, of_decide_eq_true member.2, of_decide_eq_true same⟩
  · rintro ⟨member, enforces, rfl⟩
    have listed : target ∈ state.registry.filter (·.mode = .enforce) :=
      List.mem_filter.mpr ⟨member, decide_eq_true enforces⟩
    obtain ⟨other, found⟩ := Option.isSome_iff_exists.mp
      (List.find?_isSome.mpr ⟨target, listed, decide_eq_true rfl⟩ :
        (find (state.registry.filter (·.mode = .enforce)) target.model).isSome)
    have member' := List.mem_filter.mp (List.mem_of_find?_eq_some found)
    have same := List.find?_some found
    exact found.trans (congrArg some (sound.single other member'.1 target member (of_decide_eq_true same)))

/-- Every guard that the field calls for is there. -/
def ForwardDone (schema : Schema M) (start : State M) (model : M) (field : Field M) (state : State M) : Prop :=
  ∀ target relation, field.relation = some relation → resolve schema start relation.reference = some target.model →
    target ∈ start.registry → target.mode = .enforce → Guarded model field.name state

def ReverseDone (start : State M) (model : M) (related : M × Relation M × String) (state : State M) : Prop :=
  related.2.1.oneToOne = true → Enforced start related.1 → Guarded model related.2.2 state

section Scan

variable {start : State M} {protectedModels : List (Registration M)} {model : M}

theorem guardForward_on (protects : protectedModels = start.registry.filter (·.mode = .enforce)) (sound : Sound schema start)
    (enforced : Enforced start model) {field : Field M} (member : field ∈ (schema.options model).fields)
    (kept : Keeps start state) (here : Sound schema state) :
    ∃ after, (guardForward schema protectedModels model field).on state = (.ok (), after) ∧ Keeps state after ∧
      Sound schema after ∧ ForwardDone schema start model field after := by
  subst protects
  have quiet (idle : ∀ target relation, field.relation = some relation →
      resolve schema start relation.reference = some target.model → target ∈ start.registry → target.mode ≠ .enforce) :
      ForwardDone schema start model field state := fun target relation relates resolved registered enforces =>
    absurd enforces (idle target relation relates resolved registered)
  unfold guardForward
  split
  next unrelated =>
    exact ⟨state, rfl, .refl state, here, quiet fun _ _ relates => by rw [unrelated] at relates; cases relates⟩
  next relation relates =>
    rw [Stateful.on_bind, Stateful.on_get]
    dsimp only
    split
    next missing =>
      refine ⟨state, rfl, .refl state, here, quiet fun target relation' relates' resolved registered enforces => ?_⟩
      obtain rfl := Option.some.inj (relates.symm.trans relates')
      rw [resolve_congr kept.defined, resolved, Option.bind_some,
        (find_enforced sound).mpr ⟨registered, enforces, rfl⟩] at missing
      cases missing
    next target found =>
      obtain ⟨other, resolved, looked⟩ := Option.bind_eq_some_iff.mp found
      obtain ⟨registered, enforces, rfl⟩ := (find_enforced sound).mp looked
      obtain ⟨config, listed, rfl, mode⟩ := enforced
      have due : Due schema state config.model field.name target :=
        .forward ⟨config, kept.registry ▸ listed, rfl, mode⟩ (kept.registry ▸ registered) enforces field member relation
          relates resolved rfl
      have there := here.forward config.model (kept.defined ▸ sound.defined config listed) field member (relates ▸ rfl)
      obtain ⟨after, ran, kept', sound', guarded⟩ := wrap_on here due there
      exact ⟨after, ran, kept', sound', fun _ _ _ _ _ _ => guarded⟩

theorem guardReverse_on (protects : protectedModels = start.registry.filter (·.mode = .enforce)) (sound : Sound schema start)
    (enforced : Enforced start model) {related : M × Relation M × String} (member : related ∈ relatedObjects schema start model)
    (kept : Keeps start state) (here : Sound schema state) :
    ∃ after, (guardReverse protectedModels model related).on state = (.ok (), after) ∧ Keeps state after ∧
      Sound schema after ∧ ReverseDone start model related after := by
  subst protects
  unfold guardReverse
  split
  next missing =>
    refine ⟨state, rfl, .refl state, here, fun _ ⟨config, listed, same, mode⟩ => ?_⟩
    rw [(find_enforced sound).mpr ⟨listed, mode, same⟩] at missing
    cases missing
  next target found =>
    obtain ⟨registered, enforces, same⟩ := (find_enforced sound).mp found
    split
    next oneToOne =>
      obtain ⟨defined, field, listed, relates, resolved, named⟩ := mem_relatedObjects.mp member
      obtain ⟨config, member', rfl, mode⟩ := enforced
      have due : Due schema state config.model related.2.2 target :=
        .reverse ⟨config, kept.registry ▸ member', rfl, mode⟩ (kept.registry ▸ registered) enforces field
          (same ▸ listed) related.2.1 relates ((resolve_congr kept.defined _).trans resolved) oneToOne named
      have there := here.reverse config.model related (mem_relatedObjects.mpr
        ⟨kept.defined ▸ defined, field, listed, relates, (resolve_congr kept.defined _).trans resolved, named⟩)
      obtain ⟨after, ran, kept', sound', guarded⟩ := wrap_on here due there
      exact ⟨after, ran, kept', sound', fun _ _ => guarded⟩
    next many => exact ⟨state, rfl, .refl state, here, fun oneToOne => absurd oneToOne many⟩

end Scan

/-- The guards of one model are there, as far as they can be found. -/
def ModelDone (schema : Schema M) (start : State M) (model : M) (state : State M) : Prop :=
  (∀ field ∈ (schema.options model).fields, ForwardDone schema start model field state) ∧
    (start.modelsReady = true → ∀ related ∈ relatedObjects schema start model, ReverseDone start model related state)

theorem ModelDone.keeps {start : State M} {model : M} (kept : Keeps first second)
    (done : ModelDone schema start model first) : ModelDone schema start model second :=
  ⟨fun field member target relation relates resolved registered enforces =>
      kept.guarded _ _ (done.1 field member target relation relates resolved registered enforces),
    fun ready related member oneToOne enforced => kept.guarded _ _ (done.2 ready related member oneToOne enforced)⟩

theorem guardModel_on {start : State M} {config : Registration M} (sound : Sound schema start)
    (member : config ∈ start.registry) (enforces : config.mode = .enforce) (kept : Keeps start state)
    (here : Sound schema state) :
    ∃ after, (guardModel schema start (start.registry.filter (·.mode = .enforce)) config.model).on state = (.ok (), after) ∧
      Keeps state after ∧ Sound schema after ∧ ModelDone schema start config.model after := by
  have enforced : Enforced start config.model := ⟨config, member, rfl, enforces⟩
  have forwards : ∀ field ∈ (schema.options config.model).fields, ∀ other, Keeps start other ∧ Sound schema other →
      ∃ after, (guardForward schema (start.registry.filter (·.mode = .enforce)) config.model field).on other = (.ok (), after) ∧
        Keeps other after ∧ (Keeps start after ∧ Sound schema after) ∧ ForwardDone schema start config.model field after := by
    rintro field listed other ⟨kept, here⟩
    obtain ⟨after, ran, kept', sound', done⟩ := guardForward_on rfl sound enforced listed kept here
    exact ⟨after, ran, kept', ⟨kept.trans kept', sound'⟩, done⟩
  have reverses : ∀ related ∈ relatedObjects schema start config.model, ∀ other, Keeps start other ∧ Sound schema other →
      ∃ after, (guardReverse (start.registry.filter (·.mode = .enforce)) config.model related).on other = (.ok (), after) ∧
        Keeps other after ∧ (Keeps start after ∧ Sound schema after) ∧ ReverseDone start config.model related after := by
    rintro related listed other ⟨kept, here⟩
    obtain ⟨after, ran, kept', sound', done⟩ := guardReverse_on rfl sound enforced listed kept here
    exact ⟨after, ran, kept', ⟨kept.trans kept', sound'⟩, done⟩
  obtain ⟨middle, ran, kept', onward, forward⟩ := Stateful.on_forM (fun other => Keeps start other ∧ Sound schema other)
    (ForwardDone schema start config.model) Keeps.refl (fun _ _ _ => Keeps.trans)
    (fun field _ _ kept done target relation relates resolved registered enforces =>
      kept.guarded _ _ (done target relation relates resolved registered enforces)) forwards state ⟨kept, here⟩
  rw [guardModel, Stateful.on_bind, ran]
  by_cases ready : start.modelsReady = true
  · obtain ⟨after, ran', kept'', onward', reverse⟩ := Stateful.on_forM (fun other => Keeps start other ∧ Sound schema other)
      (ReverseDone start config.model) Keeps.refl (fun _ _ _ => Keeps.trans)
      (fun related _ _ kept done oneToOne enforced => kept.guarded _ _ (done oneToOne enforced)) reverses middle onward
    refine ⟨after, ?_, kept'.trans kept'', onward'.2, fun field member => ?_, fun _ => reverse⟩
    · rw [← ran']
      simp only [ready, if_true]
    · exact fun target relation relates resolved registered enforces =>
        kept''.guarded _ _ (forward field member target relation relates resolved registered enforces)
  · refine ⟨middle, ?_, kept', onward.2, forward, fun ready' => absurd ready' ready⟩
    simp only [ready]
    rfl

/-- A scan never fails, and once all models are there it leaves no guard out. -/
theorem installRelationGuards_on (sound : Sound schema state) :
    ∃ after, (installRelationGuards schema).on state = (.ok (), after) ∧ Keeps state after ∧ Sound schema after ∧
      (state.modelsReady = true → ∀ model name target, Due schema after model name target → Guarded model name after) := by
  have scans : ∀ config : Registration M, config ∈ state.registry.filter (·.mode = .enforce) →
      ∀ other, Keeps state other ∧ Sound schema other →
      ∃ after, (guardModel schema state (state.registry.filter (·.mode = .enforce)) config.model).on other = (.ok (), after) ∧
        Keeps other after ∧ (Keeps state after ∧ Sound schema after) ∧ ModelDone schema state config.model after := by
    rintro config listed other ⟨kept, here⟩
    obtain ⟨member, enforces⟩ := List.mem_filter.mp listed
    obtain ⟨after, ran, kept', sound', done⟩ := guardModel_on sound member (of_decide_eq_true enforces) kept here
    exact ⟨after, ran, kept', ⟨kept.trans kept', sound'⟩, done⟩
  obtain ⟨after, ran, kept, onward, done⟩ := Stateful.on_forM (fun other => Keeps state other ∧ Sound schema other)
    (fun config : Registration M => ModelDone schema state config.model) Keeps.refl (fun _ _ _ => Keeps.trans)
    (fun config _ _ kept done => done.keeps kept) scans state ⟨.refl state, sound⟩
  refine ⟨after, ran, kept, onward.2, fun ready model name target due => ?_⟩
  have listed {model : M} : Enforced after model → ∃ config ∈ state.registry.filter (·.mode = .enforce), config.model = model := by
    rintro ⟨config, member, same, mode⟩
    exact ⟨config, List.mem_filter.mpr ⟨kept.registry ▸ member, decide_eq_true mode⟩, same⟩
  cases due with
  | forward enforced registered enforces field member relation relates resolved named =>
    obtain ⟨config, member', rfl⟩ := listed enforced
    subst named
    rw [resolve_congr kept.defined] at resolved
    exact (done config member').1 field member target relation relates resolved (kept.registry ▸ registered) enforces
  | reverse enforced registered enforces field member relation relates resolved oneToOne named =>
    obtain ⟨config, member', rfl⟩ := listed enforced
    rw [resolve_congr kept.defined] at resolved
    rw [kept.registry] at registered
    have related : (target.model, relation, name) ∈ relatedObjects schema state config.model :=
      mem_relatedObjects.mpr ⟨sound.defined target registered, field, member, relates, resolved, named⟩
    exact (done config member').2 ready _ related oneToOne ⟨target, registered, rfl, enforces⟩

theorem Sound.reflag (sound : Sound schema state) (modelsReady readied : Bool) :
    Sound schema { state with modelsReady := modelsReady, readied := readied } where
  defined := sound.defined
  single := sound.single
  forward := sound.forward
  reverse := sound.reverse
  bound model name descriptor present := (sound.bound model name descriptor present).imp_right
    fun ⟨target, guarded, due⟩ => ⟨target, guarded, due.congr rfl fun _ member => member⟩

/-- What every event keeps. -/
structure Settled (schema : Schema M) (state : State M) : Prop where
  sound : Sound schema state
  loaded : state.readied = true → state.modelsReady = true
  complete : state.readied = true → ∀ model name target, Due schema state model name target → Guarded model name state

/-- The state after a class statement. -/
private abbrev defined (schema : Schema M) (state : State M) (model : M) : State M := ((define schema model).on state).2

private theorem resolve_defined {model target : M} (other : target ≠ model) (reference : Reference M) :
    resolve schema (defined schema state model) reference = some target ↔
      resolve schema state reference = some target := by
  cases reference with
  | model => exact Iff.rfl
  | label label =>
    change (state.defined ++ [model]).find? (fun model => (schema.options model).label = label) = _ ↔
      state.defined.find? (fun model => (schema.options model).label = label) = _
    rw [List.find?_append]
    cases found : state.defined.find? (fun model => (schema.options model).label = label) with
    | some other => exact Iff.rfl
    | none =>
      refine ⟨fun last => ?_, nofun⟩
      rw [Option.none_or] at last
      exact absurd (List.mem_singleton.mp (List.mem_of_find?_eq_some last)) other

private theorem due_defined (sound : Sound schema state) {model place : M} (fresh : model ∉ state.defined) :
    Due schema (defined schema state model) place name target ↔ Due schema state place name target := by
  have other {config : Registration M} (member : config ∈ state.registry) : config.model ≠ model :=
    fun same => fresh (same ▸ sound.defined config member)
  constructor
  · rintro (⟨enforced, registered, enforces, field, member, relation, relates, resolved, named⟩ |
      ⟨⟨config, listed, rfl, mode⟩, registered, enforces, field, member, relation, relates, resolved, oneToOne, named⟩)
    · exact .forward enforced registered enforces field member relation relates
        ((resolve_defined (other registered) _).mp resolved) named
    · exact .reverse ⟨config, listed, rfl, mode⟩ registered enforces field member relation relates
        ((resolve_defined (other listed) _).mp resolved) oneToOne named
  · rintro (⟨enforced, registered, enforces, field, member, relation, relates, resolved, named⟩ |
      ⟨⟨config, listed, rfl, mode⟩, registered, enforces, field, member, relation, relates, resolved, oneToOne, named⟩)
    · exact .forward enforced registered enforces field member relation relates
        ((resolve_defined (other registered) _).mpr resolved) named
    · exact .reverse ⟨config, listed, rfl, mode⟩ registered enforces field member relation relates
        ((resolve_defined (other listed) _).mpr resolved) oneToOne named

/-- The attributes that a class statement sets. -/
private def Sets (schema : Schema M) (state : State M) (model place : M) (name : String) : Prop :=
  (place = model ∧ ∃ field ∈ (schema.options model).fields, field.relation.isSome ∧ field.name = name) ∨
    ∃ related ∈ relatedObjects schema (defined schema state model) place, related.2.2 = name ∧
      (related.1 = model ∨ place = model)

variable (schema state) in
private theorem attributes_defined (model place : M) (name : String) :
    (Sets schema state model place name ∧ (defined schema state model).attributes place name = some ⟨[]⟩) ∨
      (¬Sets schema state model place name ∧
        (defined schema state model).attributes place name = state.attributes place name) := by
  have chosen : ((place = model && (schema.options model).fields.any fun field => field.relation.isSome && field.name = name) ||
      (relatedObjects schema (defined schema state model) place).any fun related =>
        related.2.2 = name && (related.1 = model || place = model)) = true ↔ Sets schema state model place name := by
    simp only [Sets, Bool.or_eq_true, Bool.and_eq_true, List.any_eq_true, decide_eq_true_eq]
  by_cases sets : Sets schema state model place name
  · exact .inl ⟨sets, if_pos (chosen.mpr sets)⟩
  · exact .inr ⟨sets, if_neg fun picked => sets (chosen.mp picked)⟩

private theorem Due.unset (sound : Sound schema state) {model place : M}
    (fresh : model ∉ state.defined) (due : Due schema state place name target) : ¬Sets schema state model place name := by
  have old {config : Registration M} (member : config ∈ state.registry) : config.model ≠ model :=
    fun same => fresh (same ▸ sound.defined config member)
  have enforced : Enforced state place := by cases due <;> assumption
  obtain ⟨config, listed, rfl, mode⟩ := enforced
  rintro (⟨same, _⟩ | ⟨related, member, named, source | same⟩)
  · exact old listed same
  · obtain ⟨_, field, member, relates, resolved, accessor⟩ := mem_relatedObjects.mp member
    rw [named] at accessor
    cases due with
    | forward _ registered _ field' member' _ _ _ named' =>
      exact schema.apart _ field member _ relates _ (resolve_names resolved) name accessor field' member' named'
    | reverse _ registered _ field' member' relation' relates' resolved' _ accessor' =>
      have same := (schema.accessors _ field member _ relates _ field' member' relation' relates' _ (resolve_names resolved)
        (resolve_names resolved') name accessor accessor').1
      exact old registered (same.symm.trans source)
  · exact old listed same

private theorem sound_defined (sound : Sound schema state) {model : M} (fresh : model ∉ state.defined) :
    Sound schema (defined schema state model) where
  defined config member := List.mem_append_left _ (sound.defined config member)
  single := sound.single
  forward place member field listed relates := by
    rcases attributes_defined schema state model place field.name with ⟨_, set⟩ | ⟨unset, kept⟩
    · rw [set]; rfl
    · rw [kept]
      rcases List.mem_append.mp member with old | new
      · exact sound.forward place old field listed relates
      · obtain rfl := List.mem_singleton.mp new
        exact absurd (.inl ⟨rfl, field, listed, relates, rfl⟩) unset
  reverse place related member := by
    rcases attributes_defined schema state model place related.2.2 with ⟨_, set⟩ | ⟨unset, kept⟩
    · rw [set]; rfl
    · rw [kept]
      have apart : ¬(related.1 = model ∨ place = model) := fun created => unset (.inr ⟨related, member, rfl, created⟩)
      obtain ⟨listed, field, own, relates, resolved, named⟩ := mem_relatedObjects.mp member
      have old : related.1 ∈ state.defined := (List.mem_append.mp listed).resolve_right fun new =>
        apart (.inl (List.mem_singleton.mp new))
      have resolved' := (resolve_defined (fun same => apart (.inr same)) _).mp resolved
      exact sound.reverse place related (mem_relatedObjects.mpr ⟨old, field, own, relates, resolved', named⟩)
  bound place name descriptor present := by
    rcases attributes_defined schema state model place name with ⟨_, set⟩ | ⟨unset, kept⟩
    · rw [set] at present
      cases present
      exact .inl rfl
    · rw [kept] at present
      exact (sound.bound place name descriptor present).imp_right fun ⟨target, guarded, due⟩ => ⟨target, guarded, (due_defined sound fresh).mpr due⟩

private theorem settled_define {model : M} (settled : Settled schema state) (fresh : model ∉ state.defined) :
    Settled schema (defined schema state model) where
  sound := sound_defined settled.sound fresh
  loaded := settled.loaded
  complete readied place name target due := by
    have due := (due_defined settled.sound fresh).mp due
    obtain ⟨descriptor, present, guarded⟩ := settled.complete readied place name target due
    rcases attributes_defined schema state model place name with ⟨set, _⟩ | ⟨_, kept⟩
    · exact absurd set (due.unset settled.sound fresh)
    · exact ⟨descriptor, kept.trans present, guarded⟩

omit [DecidableEq M] in
theorem validate_model {model : M} {scopeField mode : String} {fields : Option (List String)} {config : Registration M}
    (accepted : validate schema model scopeField fields mode = .ok config) :
    config.model = model ∧ (schema.options model).isAbstract = false := by
  simp only [validate, bind, Except.bind, pure, Except.pure, throw, throwThe, MonadExceptOf.throw] at accepted
  split at accepted
  · cases accepted
  next ordinary =>
    have concrete : (schema.options model).isAbstract = false := by
      by_contra isAbstract
      exact ordinary (by simp [isAbstract])
    refine ⟨?_, concrete⟩
    repeat' split at accepted
    all_goals cases accepted
    all_goals rfl

private theorem settled_register {model : M} {scopeField mode : String} {fields : Option (List String)}
    (settled : Settled schema state)
    (there : model ∈ state.defined ∨ (schema.options model).isAbstract = true) :
    Settled schema ((register schema model scopeField fields mode).on state).2 := by
  unfold register
  cases accepted : validate schema model scopeField fields mode with
  | error error => exact settled
  | ok config =>
    obtain ⟨rfl, concrete⟩ := validate_model accepted
    have defined : config.model ∈ state.defined := there.resolve_right fun isAbstract => by simp [concrete] at isAbstract
    rw [Stateful.on_bind]
    change Settled schema (Stateful.on (_ >>= _) state).2
    rw [Stateful.on_bind, Stateful.on_get]
    dsimp only
    cases found : find state.registry config.model with
    | some existing =>
      simp only
      split <;> exact settled
    | none =>
      let registered : State M := { state with registry := state.registry ++ [config] }
      change Settled schema ((installRelationGuards schema).on registered).2
      have others : ∀ other ∈ state.registry, other.model ≠ config.model := fun other member same =>
        List.find?_eq_none.mp found other member (decide_eq_true same)
      have sound : Sound schema registered := by
        refine ⟨?_, ?_, settled.sound.forward, settled.sound.reverse, ?_⟩
        · intro other member
          rcases List.mem_append.mp member with old | new
          · exact settled.sound.defined other old
          · exact List.mem_singleton.mp new ▸ defined
        · intro first member second member' same
          rcases List.mem_append.mp member with old | new <;> rcases List.mem_append.mp member' with old' | new'
          · exact settled.sound.single first old second old' same
          · exact absurd (same.trans (congrArg _ (List.mem_singleton.mp new'))) (others first old)
          · exact absurd (same.symm.trans (congrArg _ (List.mem_singleton.mp new))) (others second old')
          · exact (List.mem_singleton.mp new).trans (List.mem_singleton.mp new').symm
        · intro place name descriptor present
          apply (settled.sound.bound place name descriptor present).imp_right
          intro bound
          obtain ⟨target, guarded, due⟩ := bound
          exact ⟨target, guarded, due.congr rfl fun _ member => List.mem_append_left _ member⟩
      obtain ⟨after, ran, kept, sound', complete⟩ := installRelationGuards_on sound
      rw [ran]
      exact ⟨sound', fun readied => kept.modelsReady.trans (settled.loaded (kept.readied.symm.trans readied)),
        fun readied => complete (settled.loaded (kept.readied.symm.trans readied))⟩

private theorem settled_ready (settled : Settled schema state) (loaded : state.modelsReady = true) :
    Settled schema ((ready schema).on state).2 := by
  obtain ⟨after, ran, kept, sound, complete⟩ := installRelationGuards_on settled.sound
  unfold ready
  rw [Stateful.on_bind, ran]
  refine ⟨sound.reflag _ true, fun _ => kept.modelsReady.trans loaded, fun _ place name target due => ?_⟩
  exact complete loaded place name target (due.congr rfl fun _ member => member)

theorem Settled.step (settled : Settled schema state) {event : Event M} (allowed : event.Allowed schema state) :
    Settled schema ((event.program schema).on state).2 := by
  cases event with
  | define model => exact settled_define settled allowed.1
  | register model scopeField fields mode => exact settled_register settled allowed
  | ready => exact settled_ready settled allowed
  | modelsReady =>
    refine ⟨settled.sound.reflag true _, fun _ => rfl, fun readied place name target due => ?_⟩
    exact settled.complete readied place name target (due.congr rfl fun _ member => member)

theorem Settled.run (settled : Settled schema state) {events : List (Event M)} (allowed : AllAllowed schema state events) :
    Settled schema (run schema state events) := by
  induction events generalizing state with
  | nil => exact settled
  | cons event events ih => exact ih (settled.step allowed.1) allowed.2

theorem Settled.start : Settled schema (State.start : State M) where
  sound := ⟨nofun, nofun, nofun, nofun, nofun⟩
  loaded := nofun
  complete := nofun

/-- Once the application is ready, a descriptor is guarded exactly where a guard
is due, it is guarded once, and by the registration of the model at the other end. -/
theorem guards_settle {events : List (Event M)} (allowed : AllAllowed schema State.start events)
    (readied : (run schema State.start events).readied = true) (model : M) (name : String) :
    (∀ target, Due schema (run schema State.start events) model name target ↔
      (run schema State.start events).attributes model name = some ⟨[target]⟩) ∧
    ∀ descriptor, (run schema State.start events).attributes model name = some descriptor →
      descriptor.guards = [] ∨ ∃ target, descriptor.guards = [target] := by
  have settled : Settled schema (run schema State.start events) := Settled.start.run allowed
  refine ⟨fun target => ⟨fun due => ?_, fun present => ?_⟩, fun descriptor present => ?_⟩
  · obtain ⟨⟨guards⟩, present, guarded⟩ := settled.complete readied model name target due
    rcases settled.sound.bound model name _ present with plain | ⟨other, bound, due'⟩
    · exact absurd plain guarded
    · obtain rfl : guards = [other] := bound
      rw [present, due.unique settled.sound due']
  · rcases settled.sound.bound model name _ present with plain | ⟨other, bound, due⟩
    · cases plain
    · obtain rfl : target = other := (List.cons.inj bound).1
      exact due
  · exact (settled.sound.bound model name descriptor present).imp_right fun ⟨target, bound, _⟩ => ⟨target, bound⟩

end Order

/-! An invoice names its customer by a label, and a receipt belongs to one invoice. -/

namespace Sample

inductive Class where
  | customer
  | invoice
  | receipt
  deriving DecidableEq

def column (name : String) (relation : Option (Relation Class)) : Field Class := ⟨name, relation, true, false, false, false⟩

def fields : Class → List (Field Class)
  | .customer => [column "tenant_id" none]
  | .invoice => [column "tenant_id" none,
      column "customer" (some ⟨.label "testapp.Customer", false, some "invoice_set"⟩)]
  | .receipt => [column "tenant_id" none, column "invoice" (some ⟨.model .invoice, true, some "receipt"⟩)]

def label : Class → String
  | .customer => "testapp.Customer"
  | .invoice => "testapp.Invoice"
  | .receipt => "testapp.Receipt"

def options (model : Class) : Options Class := ⟨label model, false, false, [], false, [⟨"objects", true⟩], fields model, []⟩

def schema : Schema Class where
  options := options
  labels first second same := by cases first <;> cases second <;> first | rfl | exact absurd same (by decide)
  names model := by cases model <;> decide
  apart source field member relation relates target names name accessor other listed := by
    cases source <;> cases target <;> simp_all [options, fields, column, label, Reference.Names] <;> aesop
  accessors source field member relation relates source' field' member' relation' relates' target names names' name := by
    cases source <;> cases source' <;> cases target <;>
      simp_all [options, fields, column, label, Reference.Names] <;> aesop

theorem references {model : Class} : ∀ field ∈ (options model).fields, ∀ relation ∈ field.relation, ∀ target,
    relation.reference = .model target → model = .receipt ∧ target = .invoice := by
  intro field member relation relates target same
  cases model <;> simp_all [options, fields, column] <;> aesop

/-- The invoice is registered before its customer exists, and the customer after all models are loaded. -/
def loading : List (Event Class) :=
  [.define .invoice, .register .invoice "tenant_id" (some ["tenant_id"]) "enforce", .define .receipt,
    .register .receipt "tenant_id" (some ["tenant_id"]) "enforce", .define .customer, .modelsReady, .ready,
    .register .customer "tenant_id" (some ["tenant_id"]) "enforce",
    .register .invoice "tenant_id" (some ["tenant_id"]) "enforce"]

end Sample

theorem guards_settle_loading :
    Due Sample.schema (run Sample.schema State.start Sample.loading) .invoice "customer"
        ⟨.customer, "tenant_id", ["tenant_id"], .enforce⟩ ∧
      Due Sample.schema (run Sample.schema State.start Sample.loading) .invoice "receipt"
        ⟨.receipt, "tenant_id", ["tenant_id"], .enforce⟩ := by
  have allowed : AllAllowed Sample.schema State.start Sample.loading := by
    refine ⟨⟨nofun, rfl, ?_⟩, .inl (by decide +kernel), ⟨by decide +kernel, rfl, ?_⟩, .inl (by decide +kernel),
      ⟨by decide +kernel, rfl, ?_⟩, trivial, rfl, .inl (by decide +kernel), .inl (by decide +kernel), trivial⟩
    · exact fun field member relation relates target same =>
        nomatch (Sample.references field member relation relates target same).1
    · intro field member relation relates target same
      obtain ⟨_, rfl⟩ := Sample.references field member relation relates target same
      exact .inr (by decide +kernel)
    · exact fun field member relation relates target same =>
        nomatch (Sample.references field member relation relates target same).1
  have settles := guards_settle allowed (by decide +kernel) .invoice
  exact ⟨((settles "customer").1 _).mpr (by decide +kernel), ((settles "receipt").1 _).mpr (by decide +kernel)⟩

end PyScoped.Guards
