import PyScoped.Foundation.Tombstones
import PyScoped.Legacy.RuleStore
import PyScoped.Proofs.Rules

/-! Bindings of rules to targets are a set, for the store and for the engine,
exactly as long as nothing is bound again that was unbound. -/

namespace PyScoped.Legacy.RuleStore
open Foundation Tombstones

/-- A rule and a target. -/
abbrev Pair := String × Target

def pairOf (binding : RuleBinding) : Pair := (binding.ruleId, ⟨binding.targetType, binding.targetId⟩)

theorem names_iff (binding : RuleBinding) (ruleId : String) (target : Target) :
    RuleBinding.names binding ruleId target = true ↔ pairOf binding = (ruleId, target) := by
  obtain ⟨targetType, targetId⟩ := target
  simp [RuleBinding.names, pairOf, and_assoc]

/-- What holds of the tables as long as rules are archived with their bindings. -/
structure Tables.Sound (tables : Tables) : Prop where
  ruleIds : (tables.rules.map Rule.id).Nodup
  bindingIds : (tables.bindings.map (·.id)).Nodup
  pairs : (tables.bindings.map pairOf).Nodup
  lifecycles : ∀ rule ∈ tables.rules, rule.lifecycle = .active ∨ rule.lifecycle = .archived
  attached : ∀ binding ∈ tables.bindings, binding.lifecycle = .active →
    ∃ rule ∈ tables.rules, rule.id = binding.ruleId ∧ rule.lifecycle = .active

/-- The pair has an active binding. -/
def Tables.Binds (tables : Tables) (pair : Pair) : Prop :=
  ∃ binding ∈ tables.bindings, pairOf binding = pair ∧ binding.lifecycle = .active

/-- The pair has a binding that is no longer active. -/
def Tables.Unbound (tables : Tables) (pair : Pair) : Prop :=
  ∃ binding ∈ tables.bindings, pairOf binding = pair ∧ binding.lifecycle ≠ .active

def slotOf (binding : RuleBinding) : Slot Unit := if binding.isActive then .live () else .dead

def Tables.slot (tables : Tables) : Pair → Slot Unit := held pairOf slotOf tables.bindings

/-- The pairs that are bound now. -/
def Tables.bound (tables : Tables) (pair : Pair) : Option Unit := (tables.slot pair).value

section Slots
variable {tables : Tables}

theorem isActive_iff (binding : RuleBinding) : binding.isActive = true ↔ binding.lifecycle = .active := beq_iff_eq

theorem slot_eq_live_iff (sound : tables.Sound) (pair : Pair) : tables.slot pair = .live () ↔ tables.Binds pair := by
  rw [Tables.slot, held_eq_iff sound.pairs]
  constructor
  · rintro (⟨live, _⟩ | ⟨binding, member, same, live⟩)
    · cases live
    · refine ⟨binding, member, same, ?_⟩
      rw [slotOf] at live
      split at live
      next active => exact (isActive_iff binding).mp active
      next => cases live
  · rintro ⟨binding, member, same, active⟩
    exact .inr ⟨binding, member, same, if_pos ((isActive_iff binding).mpr active)⟩

theorem slot_eq_dead_iff (sound : tables.Sound) (pair : Pair) : tables.slot pair = .dead ↔ tables.Unbound pair := by
  rw [Tables.slot, held_eq_iff sound.pairs]
  constructor
  · rintro (⟨dead, _⟩ | ⟨binding, member, same, dead⟩)
    · cases dead
    · refine ⟨binding, member, same, fun active => ?_⟩
      rw [slotOf, if_pos ((isActive_iff binding).mpr active)] at dead
      cases dead
  · rintro ⟨binding, member, same, inactive⟩
    exact .inr ⟨binding, member, same, if_neg fun active => inactive ((isActive_iff binding).mp active)⟩

theorem bound_iff (sound : tables.Sound) (pair : Pair) : tables.bound pair ≠ none ↔ tables.Binds pair := by
  rw [← slot_eq_live_iff sound, Tables.bound]
  cases tables.slot pair <;> simp

end Slots

/-- A call, with the identifier that is generated for a new binding. -/
inductive BindingCall where
  | bindRule (bindingId ruleId : String) (target : Target)
  | unbindRule (ruleId : String) (target : Target)
  | archiveRule (ruleId archivedBy : String)

namespace BindingCall

def made : BindingCall → Call
  | .bindRule _ ruleId target => .bindRule ruleId target
  | .unbindRule ruleId target => .unbindRule ruleId target
  | .archiveRule ruleId archivedBy => .archiveRule ruleId archivedBy

def generated : BindingCall → String
  | .bindRule bindingId _ _ => bindingId
  | _ => ""

def newId : BindingCall → Option String
  | .bindRule bindingId _ _ => some bindingId
  | _ => none

def run (audit : Bool) (ttl : Int) (call : BindingCall) (store : Store Unit) : Except Raised Outcome × Store Unit :=
  (invoke audit call.made).alone (answer ttl () call.generated) store

/-- What the call is meant to do to the set of bound pairs. -/
def step : BindingCall → Step Pair Unit
  | .bindRule _ ruleId target => .put (ruleId, target) ()
  | .unbindRule ruleId target => .drop fun pair => pair = (ruleId, target)
  | .archiveRule ruleId _ => .drop fun pair => pair.1 = ruleId

/-- A binding is made, and unbinding tells whether the pair was bound. -/
def Answers (bound : Pair → Option Unit) : BindingCall → Except Raised Outcome → Prop
  | .bindRule _ ruleId target, .ok (.binding binding) => pairOf binding = (ruleId, target)
  | .unbindRule ruleId target, .ok (.removed found) => found = true ↔ bound (ruleId, target) ≠ none
  | .archiveRule _ _, _ => True
  | _, _ => False

/-- A rule is bound only while it is not archived, and to a target that it is not bound to. -/
def Admissible (bound : Pair → Option Unit) (tables : Tables) : BindingCall → Prop
  | .bindRule _ ruleId target =>
    (∃ rule ∈ tables.rules, rule.id = ruleId ∧ rule.lifecycle ≠ .archived) ∧ bound (ruleId, target) = none
  | _ => True

end BindingCall

/-- Every call of the sequence is admissible when its turn comes. -/
def Proper (audit : Bool) (ttl : Int) : Store Unit → (Pair → Option Unit) → List BindingCall → Prop
  | _, _, [] => True
  | store, bound, call :: calls =>
    call.Admissible bound store.tables ∧
      Proper audit ttl (call.run audit ttl store).2 (call.step.intended bound) calls

/-- The store's two listings and the engine go by the pairs of the set and no others. -/
structure Tables.Shows (tables : Tables) (bound : Pair → Option Unit) : Prop where
  bindings : ∀ ruleId pair, (∃ binding ∈ getBindings tables ruleId true, pairOf binding = pair) ↔
    pair.1 = ruleId ∧ bound pair ≠ none
  targetBindings : ∀ target pair, (∃ binding ∈ getTargetBindings tables target true, pairOf binding = pair) ↔
    pair.2 = target ∧ bound pair ≠ none
  evaluate : ∀ view : RuleTables, view.rules = tables.rules → view.bindings = tables.bindings →
    ∀ request rule, rule ∈ (RuleEngine.evaluate view request).matchingRules ↔
      rule ∈ tables.rules ∧ rule.Admits request ∧ ∃ targetType targetId, request.Targets targetType targetId ∧
        bound (rule.id, ⟨targetType, targetId⟩) ≠ none

/-- Every call from here on is answered as by the set, which all views give in the end. -/
def BehavesAsSet (audit : Bool) (ttl : Int) : Store Unit → (Pair → Option Unit) → List BindingCall → Prop
  | store, bound, [] => store.tables.Shows bound
  | store, bound, call :: calls =>
    call.Answers bound (call.run audit ttl store).1 ∧
      BehavesAsSet audit ttl (call.run audit ttl store).2 (call.step.intended bound) calls

theorem shows_bound {tables : Tables} (sound : tables.Sound) : tables.Shows tables.bound where
  bindings ruleId pair := by
    rw [bound_iff sound]
    simp only [getBindings, List.mem_filter, decide_eq_true_eq, true_imp_iff, isActive_iff]
    constructor
    · rintro ⟨binding, ⟨member, rfl, active⟩, rfl⟩
      exact ⟨rfl, binding, member, rfl, active⟩
    · rintro ⟨rfl, binding, member, rfl, active⟩
      exact ⟨binding, ⟨member, rfl, active⟩, rfl⟩
  targetBindings target pair := by
    rw [bound_iff sound]
    simp only [getTargetBindings, List.mem_filter, decide_eq_true_eq, true_imp_iff, isActive_iff]
    constructor
    · rintro ⟨binding, ⟨member, rightType, rightId, active⟩, rfl⟩
      exact ⟨by cases target; simp_all [pairOf], binding, member, rfl, active⟩
    · rintro ⟨rfl, binding, member, rfl, active⟩
      exact ⟨binding, ⟨member, rfl, rfl, active⟩, rfl⟩
  evaluate view sameRules sameBindings request rule := by
    simp only [RuleEngine.mem_matchingRules, RuleTables.Relevant, RuleTables.Active, RuleTables.Bound, sameRules,
      sameBindings, bound_iff sound]
    constructor
    · rintro ⟨⟨member, active⟩, admits, targetType, targetId, offered, binding, bindingIn, rule', type', id', live⟩
      exact ⟨member, admits, targetType, targetId, offered, binding, bindingIn, by simp [pairOf, rule', type', id'], live⟩
    · rintro ⟨member, admits, targetType, targetId, offered, binding, bindingIn, same, live⟩
      simp only [pairOf, Prod.mk.injEq, Target.mk.injEq] at same
      obtain ⟨attached, attachedIn, id, active⟩ := sound.attached binding bindingIn live
      have : attached = rule := List.inj_on_of_nodup_map sound.ruleIds attachedIn member (id.trans same.1)
      exact ⟨⟨member, this ▸ active⟩, admits, targetType, targetId, offered, binding, bindingIn, same.1, same.2.1,
        same.2.2, live⟩

section Programs
variable (ttl : Int) (generated : String) {store : Store Unit} {tables : Tables} {ruleId : String} {target : Target}

private theorem bindRule_ok (inserted : (Change.insertBinding ⟨generated, ruleId, target.targetType, target.targetId, .active⟩).apply
      store.tables = .ok tables) :
    ∃ after, (bindRule ruleId target).alone (answer ttl () generated) store =
      (.ok ⟨generated, ruleId, target.targetType, target.targetId, .active⟩, after) ∧ after.tables = tables := by
  simp only [bindRule, bind, Prog.bind, Prog.perform, Prog.ofExcept, Prog.alone, answer, inserted]
  exact ⟨_, rfl, by simp [Store.tables]⟩

private theorem bindRule_error {error : Raised}
    (refused : (Change.insertBinding ⟨generated, ruleId, target.targetType, target.targetId, .active⟩).apply
      store.tables = .error error) :
    (bindRule ruleId target).alone (answer ttl () generated) store = (.error error, store) := by
  simp only [bindRule, bind, Prog.bind, Prog.perform, Prog.ofExcept, Prog.alone, answer, refused]

/-- What `unbind_rule` looks for. -/
private def found (tables : Tables) (ruleId : String) (target : Target) : Bool :=
  tables.bindings.any fun binding => RuleBinding.names binding ruleId target && binding.isActive

private theorem unbindRule_absent (absent : found store.tables ruleId target = false) :
    (unbindRule ruleId target).alone (answer ttl () generated) store = (.ok false, store) := by
  simp only [unbindRule, bind, Prog.bind, Prog.perform, Prog.ofExcept, Prog.alone, answer]
  rw [show (store.tables.bindings.any fun binding => RuleBinding.names binding ruleId target && binding.isActive) = false
    from absent]
  rfl

private theorem unbindRule_present (present : found store.tables ruleId target = true) :
    ∃ after, (unbindRule ruleId target).alone (answer ttl () generated) store = (.ok true, after) ∧
      (Change.archiveBinding ruleId target).apply store.tables = .ok after.tables := by
  simp only [unbindRule, bind, Prog.bind, Prog.perform, Prog.ofExcept, Prog.alone, answer]
  rw [show (store.tables.bindings.any fun binding => RuleBinding.names binding ruleId target && binding.isActive) = true
    from present]
  exact ⟨_, rfl, by simp [Store.tables, answer, Change.apply]⟩

private theorem archiveRule_absent (audit : Bool) (archivedBy : String) (absent : store.tables.rules.find? (·.id == ruleId) = none) :
    ((archiveRule audit ruleId archivedBy).alone (answer ttl () generated) store).2 = store := by
  simp only [archiveRule, getRuleOrRaise, bind, Prog.bind, Prog.perform, Prog.ofExcept, Prog.alone, answer, absent]
  rfl

private theorem archiveRule_present (audit : Bool) (archivedBy : String) {rule : Rule}
    (found : store.tables.rules.find? (·.id == ruleId) = some rule) :
    ∃ between, (Change.archiveRule ruleId).apply store.tables = .ok between ∧
      (Change.archiveBindings ruleId).apply between =
        .ok ((archiveRule audit ruleId archivedBy).alone (answer ttl () generated) store).2.tables := by
  simp only [archiveRule, getRuleOrRaise, bind, Prog.bind, Prog.perform, Prog.ofExcept, Prog.alone, answer, found]
  refine ⟨_, rfl, ?_⟩
  cases audit <;> simp [recordIf, Prog.bind, Prog.perform, Prog.alone, Prog.ofExcept, answer, Change.apply, Store.tables]

end Programs

/-- Bindings of some pairs after their active ones were archived. -/
private def withdraw (which : Pair → Bool) (binding : RuleBinding) : RuleBinding :=
  if which (pairOf binding) ∧ binding.isActive then { binding with lifecycle := .archived } else binding

private theorem withdraw_id (which : Pair → Bool) (binding : RuleBinding) : (withdraw which binding).id = binding.id := by
  rw [withdraw]
  split <;> rfl

private theorem withdraw_pair (which : Pair → Bool) (binding : RuleBinding) :
    pairOf (withdraw which binding) = pairOf binding := by
  rw [withdraw]
  split <;> rfl

private theorem withdraw_active {which : Pair → Bool} {binding : RuleBinding}
    (active : (withdraw which binding).lifecycle = .active) :
    withdraw which binding = binding ∧ binding.lifecycle = .active ∧ which (pairOf binding) = false := by
  rw [withdraw] at active ⊢
  split at active
  next => cases active
  next kept =>
    refine ⟨if_neg kept, active, ?_⟩
    rw [isActive_iff] at kept
    simpa [active] using kept

private theorem withdraw_slots (tables : Tables) (which : Pair → Bool) :
    held pairOf slotOf (tables.bindings.map (withdraw which)) = (Step.drop which).apply tables.slot := by
  refine held_drop (withdraw_pair which) fun binding _ => ?_
  cases chosen : which (pairOf binding) <;> cases active : binding.isActive <;>
    simp [withdraw, slotOf, chosen, active, Slot.bury]
  rfl

private theorem archiveBinding_apply (tables : Tables) (ruleId : String) (target : Target) :
    (Change.archiveBinding ruleId target).apply tables =
      .ok { tables with bindings := tables.bindings.map (withdraw fun pair => pair = (ruleId, target)) } := by
  have same : (fun binding => if RuleBinding.names binding ruleId target ∧ binding.isActive then
      ({ binding with lifecycle := .archived } : RuleBinding) else binding) =
        withdraw fun pair => decide (pair = (ruleId, target)) := by
    funext binding
    simp only [withdraw, names_iff, decide_eq_true_eq]
  rw [Change.apply, same]

private theorem archiveBindings_apply (tables : Tables) (ruleId : String) :
    (Change.archiveBindings ruleId).apply tables =
      .ok { tables with bindings := tables.bindings.map (withdraw fun pair => pair.1 = ruleId) } := by
  have same : (fun binding => if binding.ruleId = ruleId ∧ binding.isActive then
      ({ binding with lifecycle := .archived } : RuleBinding) else binding) =
        withdraw fun pair => decide (pair.1 = ruleId) := by
    funext binding
    simp only [withdraw, decide_eq_true_eq]
    rfl
  rw [Change.apply, same]

private theorem drop_idle {tables : Tables} {which : Pair → Bool} (idle : ∀ pair, which pair = true → tables.bound pair = none) :
    (Step.drop which).apply tables.slot = tables.slot := by
  funext pair
  simp only [Step.apply]
  split
  next chosen =>
    have unset : (tables.slot pair).value = none := idle pair chosen
    cases held : tables.slot pair with
    | vacant | dead => rfl
    | live value => simp [held] at unset
  next => rfl

/-- A call does to the pairs what its step does, where no archived binding is in its way. -/
structure Handled (before : Tables) (call : BindingCall) (result : Except Raised Outcome) (after : Tables) : Prop where
  answers : call.Answers before.bound result ↔ call.step.Accepted before.slot
  slots : call.step.Accepted before.slot → after.slot = call.step.apply before.slot
  sound : after.Sound
  ids : ∀ id ∈ after.bindings.map (·.id), id ∈ before.bindings.map (·.id) ∨ id ∈ call.newId

private theorem Tables.Sound.withdraw {tables : Tables} (sound : tables.Sound) (which : Pair → Bool) :
    ({ tables with bindings := tables.bindings.map (RuleStore.withdraw which) } : Tables).Sound where
  ruleIds := sound.ruleIds
  bindingIds := by simpa [Function.comp_def, withdraw_id] using sound.bindingIds
  pairs := by simpa [Function.comp_def, withdraw_pair] using sound.pairs
  lifecycles := sound.lifecycles
  attached binding member active := by
    obtain ⟨old, oldIn, rfl⟩ := List.mem_map.mp member
    obtain ⟨same, live, -⟩ := withdraw_active active
    rw [same]
    exact sound.attached old oldIn live

private theorem withdraw_ids (tables : Tables) (which : Pair → Bool) :
    (tables.bindings.map (withdraw which)).map (·.id) = tables.bindings.map (·.id) := by
  simp [Function.comp_def, withdraw_id]

private theorem unbindRule_handled (audit : Bool) (ttl : Int) {store : Store Unit} (sound : store.tables.Sound)
    (ruleId : String) (target : Target) : Handled store.tables (.unbindRule ruleId target)
      ((BindingCall.unbindRule ruleId target).run audit ttl store).1
      ((BindingCall.unbindRule ruleId target).run audit ttl store).2.tables := by
  have found_iff : found store.tables ruleId target = true ↔ store.tables.bound (ruleId, target) ≠ none := by
    rw [bound_iff sound, found, List.any_eq_true]
    simp only [Bool.and_eq_true, names_iff, isActive_iff]
    exact Iff.rfl
  simp only [BindingCall.run, BindingCall.made, invoke, Prog.alone_map]
  cases present : found store.tables ruleId target with
  | true =>
    obtain ⟨after, ran, changed⟩ :=
      unbindRule_present ttl (BindingCall.unbindRule ruleId target).generated present
    rw [archiveBinding_apply, Except.ok.injEq] at changed
    rw [ran, ← changed]
    refine ⟨iff_of_true (found_iff.symm.trans (by simp [present])).symm trivial, fun _ => ?_, sound.withdraw _, ?_⟩
    · exact withdraw_slots store.tables _
    · rw [withdraw_ids]
      exact fun _ member => .inl member
  | false =>
    have unset : store.tables.bound (ruleId, target) = none := by
      simpa [present] using found_iff
    rw [unbindRule_absent ttl _ present]
    refine ⟨iff_of_true (iff_of_false Bool.false_ne_true (not_not_intro unset)) trivial, fun _ => ?_, sound,
      fun _ member => .inl member⟩
    refine (drop_idle fun pair chosen => ?_).symm
    rw [of_decide_eq_true chosen]
    exact unset

private theorem archiveRule_handled (audit : Bool) (ttl : Int) {store : Store Unit} (sound : store.tables.Sound)
    (ruleId archivedBy : String) : Handled store.tables (.archiveRule ruleId archivedBy)
      ((BindingCall.archiveRule ruleId archivedBy).run audit ttl store).1
      ((BindingCall.archiveRule ruleId archivedBy).run audit ttl store).2.tables := by
  simp only [BindingCall.run, BindingCall.made, invoke, Prog.alone_map]
  cases found : store.tables.rules.find? (·.id == ruleId) with
  | none =>
    rw [archiveRule_absent ttl _ audit archivedBy found]
    refine ⟨iff_of_true trivial trivial, fun _ => ?_, sound, fun _ member => .inl member⟩
    refine (drop_idle fun pair chosen => ?_).symm
    by_contra bound
    obtain ⟨binding, member, rfl, active⟩ := (bound_iff sound pair).mp bound
    obtain ⟨rule, ruleIn, same, -⟩ := sound.attached binding member active
    have chosen : binding.ruleId = ruleId := of_decide_eq_true chosen
    exact absurd (same.trans chosen) (by simpa using List.find?_eq_none.mp found rule ruleIn)
  | some rule =>
    obtain ⟨between, rules, bindings⟩ :=
      archiveRule_present ttl (BindingCall.archiveRule ruleId archivedBy).generated audit archivedBy found
    rw [Change.apply, Except.ok.injEq] at rules
    rw [archiveBindings_apply, Except.ok.injEq, ← rules] at bindings
    rw [← bindings]
    refine ⟨iff_of_true trivial trivial, fun _ => withdraw_slots store.tables _, ?_, ?_⟩
    · have id : ∀ rule : Rule, (if rule.id = ruleId then { rule with lifecycle := .archived } else rule : Rule).id = rule.id := by
        intro rule
        split <;> rfl
      refine ⟨?_, (sound.withdraw _).bindingIds, (sound.withdraw _).pairs, ?_, ?_⟩
      · simpa [Function.comp_def, id] using sound.ruleIds
      · intro changed member
        obtain ⟨old, oldIn, rfl⟩ := List.mem_map.mp member
        split
        · exact .inr rfl
        · exact sound.lifecycles old oldIn
      · intro binding member active
        obtain ⟨old, oldIn, rfl⟩ := List.mem_map.mp member
        obtain ⟨same, live, spared⟩ := withdraw_active active
        obtain ⟨attached, attachedIn, name, active⟩ := sound.attached old oldIn live
        have spared : old.ruleId ≠ ruleId := of_decide_eq_false spared
        refine ⟨attached, List.mem_map.mpr ⟨attached, attachedIn, if_neg (by rwa [name])⟩, ?_, active⟩
        rw [same, name]
    · rw [withdraw_ids]
      exact fun _ member => .inl member

private theorem bindRule_handled (audit : Bool) (ttl : Int) {store : Store Unit} (sound : store.tables.Sound)
    {bindingId ruleId : String} {target : Target}
    (admissible : (BindingCall.bindRule bindingId ruleId target).Admissible store.tables.bound store.tables)
    (fresh : bindingId ∉ store.tables.bindings.map (·.id)) : Handled store.tables (.bindRule bindingId ruleId target)
      ((BindingCall.bindRule bindingId ruleId target).run audit ttl store).1
      ((BindingCall.bindRule bindingId ruleId target).run audit ttl store).2.tables := by
  obtain ⟨⟨rule, ruleIn, rfl, unarchived⟩, unbound⟩ := admissible
  have present : store.tables.rules.any (·.id == rule.id) = true := by
    rw [List.any_eq_true]
    exact ⟨rule, ruleIn, beq_self_eq_true _⟩
  simp only [BindingCall.run, BindingCall.made, invoke, Prog.alone_map, BindingCall.generated]
  by_cases accepted : store.tables.slot (rule.id, target) = .dead
  · have taken : (store.tables.bindings.any fun other => other.id == bindingId || RuleBinding.names other rule.id target) = true := by
      obtain ⟨binding, member, same, -⟩ := (slot_eq_dead_iff sound _).mp accepted
      rw [List.any_eq_true]
      exact ⟨binding, member, by rw [(names_iff binding rule.id target).mpr same, Bool.or_true]⟩
    rw [bindRule_error ttl bindingId (by rw [Change.apply, if_pos taken])]
    exact ⟨iff_of_false id (not_not_intro accepted), fun free => absurd accepted free, sound, fun _ member => .inl member⟩
  · have vacant : store.tables.slot (rule.id, target) = .vacant := by
      cases held : store.tables.slot (rule.id, target) with
      | vacant => rfl
      | live value => simp [Tables.bound, held] at unbound
      | dead => exact absurd held accepted
    have absent : (rule.id, target) ∉ store.tables.bindings.map pairOf := by
      obtain ⟨_, absent⟩ | ⟨binding, _, _, reads⟩ := (held_eq_iff sound.pairs).mp vacant
      · exact absent
      · rw [slotOf] at reads
        split at reads <;> cases reads
    have free : (store.tables.bindings.any fun other => other.id == bindingId || RuleBinding.names other rule.id target) = false := by
      rw [List.any_eq_false]
      intro binding member
      rw [Bool.not_eq_true, Bool.or_eq_false_iff, beq_eq_false_iff_ne, Bool.eq_false_iff, Ne, Ne, names_iff]
      exact ⟨fun same => fresh (same ▸ List.mem_map_of_mem member), fun same => absent (same ▸ List.mem_map_of_mem member)⟩
    let made : RuleBinding := ⟨bindingId, rule.id, target.targetType, target.targetId, .active⟩
    have inserted : (Change.insertBinding made).apply store.tables =
        .ok { store.tables with bindings := store.tables.bindings ++ [made] } := by
      rw [Change.apply, if_neg (by rw [free]; exact Bool.false_ne_true), if_neg (by simp [made, present])]
    obtain ⟨after, ran, tables⟩ := bindRule_ok ttl bindingId inserted
    rw [ran, tables]
    have pairs : ((store.tables.bindings ++ [made]).map pairOf).Nodup := by
      rw [List.map_append, List.nodup_append]
      refine ⟨sound.pairs, List.nodup_singleton _, ?_⟩
      rintro pair member other single rfl
      have same : pair = (rule.id, target) := List.mem_singleton.mp single
      exact absent (same ▸ member)
    refine ⟨iff_of_true rfl accepted, fun _ => ?_, ⟨sound.ruleIds, ?_, pairs, sound.lifecycles, ?_⟩, ?_⟩
    · rw [Tables.slot, held_append pairs, BindingCall.step, Step.apply_put () accepted]
      rfl
    · rw [List.map_append, List.nodup_append]
      refine ⟨sound.bindingIds, List.nodup_singleton _, ?_⟩
      rintro id member other single rfl
      have same : id = bindingId := List.mem_singleton.mp single
      exact fresh (same ▸ member)
    · intro binding member active
      obtain member | member := List.mem_append.mp member
      · exact sound.attached binding member active
      · rw [List.mem_singleton.mp member]
        exact ⟨rule, ruleIn, rfl, (sound.lifecycles rule ruleIn).resolve_right unarchived⟩
    · intro id member
      rw [List.map_append] at member
      obtain member | single := List.mem_append.mp member
      · exact .inl member
      · have same : id = bindingId := List.mem_singleton.mp single
        exact .inr (congrArg some same.symm)

theorem BindingCall.handled (audit : Bool) (ttl : Int) {store : Store Unit} (sound : store.tables.Sound)
    {call : BindingCall} (admissible : call.Admissible store.tables.bound store.tables)
    (fresh : ∀ id ∈ call.newId, id ∉ store.tables.bindings.map (·.id)) :
    Handled store.tables call (call.run audit ttl store).1 (call.run audit ttl store).2.tables := by
  cases call with
  | bindRule bindingId ruleId target => exact bindRule_handled audit ttl sound admissible (fresh bindingId rfl)
  | unbindRule ruleId target => exact unbindRule_handled audit ttl sound ruleId target
  | archiveRule ruleId archivedBy => exact archiveRule_handled audit ttl sound ruleId archivedBy

/-- The generated identifiers are new, to the table and to each other. -/
def Tables.Generates (tables : Tables) (calls : List BindingCall) : Prop :=
  (calls.filterMap BindingCall.newId).Nodup ∧
    ∀ id ∈ calls.filterMap BindingCall.newId, id ∉ tables.bindings.map (·.id)

theorem Tables.Generates.next {before after : Tables} {call : BindingCall} {calls : List BindingCall}
    {result : Except Raised Outcome} (generates : before.Generates (call :: calls))
    (handled : Handled before call result after) : after.Generates calls := by
  have within : ∀ id ∈ calls.filterMap BindingCall.newId, id ∈ (call :: calls).filterMap BindingCall.newId := by
    intro id member
    obtain ⟨other, otherIn, made⟩ := List.mem_filterMap.mp member
    exact List.mem_filterMap.mpr ⟨other, List.mem_cons_of_mem _ otherIn, made⟩
  obtain ⟨once, fresh⟩ := generates
  refine ⟨once.sublist ((List.sublist_cons_self call calls).filterMap _), fun id member stored => ?_⟩
  obtain stored | made := handled.ids id stored
  · exact fresh id (within id member) stored
  · rw [List.filterMap_cons_some made] at once
    exact (List.nodup_cons.mp once).1 member

/-- The store is a set for exactly those sequences whose steps all find a pair
that no archived binding occupies. -/
theorem behavesAsSet_iff_accepted (audit : Bool) (ttl : Int) (store : Store Unit) (calls : List BindingCall)
    (sound : store.tables.Sound) (proper : Proper audit ttl store store.tables.bound calls)
    (generates : store.tables.Generates calls) :
    BehavesAsSet audit ttl store store.tables.bound calls ↔
      AllAccepted store.tables.slot (calls.map BindingCall.step) := by
  induction calls generalizing store with
  | nil => exact iff_of_true (shows_bound sound) trivial
  | cons call calls ih =>
    obtain ⟨admissible, proper⟩ := proper
    have handled := BindingCall.handled audit ttl sound admissible fun id made =>
      generates.2 id (List.mem_filterMap.mpr ⟨call, List.mem_cons_self, made⟩)
    simp only [BehavesAsSet, List.map_cons, AllAccepted]
    rw [handled.answers]
    refine and_congr_right fun accepted => ?_
    have bound : call.step.intended store.tables.bound = (call.run audit ttl store).2.tables.bound := by
      funext pair
      rw [Tables.bound, handled.slots accepted]
      exact congrFun (Step.value_apply accepted).symm pair
    rw [bound] at proper ⊢
    rw [← handled.slots accepted]
    exact ih _ handled.sound proper (generates.next handled)

/-- Bindings are a set exactly where no pair is bound again once it was unbound
or its rule was archived, or whose binding was already archived before. -/
theorem bindings_set_iff (audit : Bool) (ttl : Int) (store : Store Unit) (calls : List BindingCall)
    (sound : store.tables.Sound) (proper : Proper audit ttl store store.tables.bound calls)
    (generates : store.tables.Generates calls) :
    BehavesAsSet audit ttl store store.tables.bound calls ↔
      Clean store.tables.Unbound store.tables.bound (calls.map BindingCall.step) := by
  have unbound : (fun pair => store.tables.slot pair = .dead) = store.tables.Unbound :=
    funext fun pair => propext (slot_eq_dead_iff sound pair)
  rw [behavesAsSet_iff_accepted audit ttl store calls sound proper generates, allAccepted_iff_clean, unbound]
  rfl

private def readers : Rule :=
  { id := "readers", name := "readers", ruleType := .access, effect := .allow, priority := 0
    conditions := [], currentVersion := 1, lifecycle := .active }

private def office : Target := ⟨.scope, "office"⟩

/-- One rule, not yet bound to anything. -/
private def drafting : Store Unit where
  past _ := { rules := [readers], versions := [("readers", 1)], bindings := [] }
  writes := 0
  cache _ := none
  clock := 0
  ended := 0
  invalidated := 0
  written _ := 0
  selected _ := 0
  since _ := 0
  uses := []

private theorem drafting_sound : drafting.tables.Sound where
  ruleIds := List.nodup_singleton _
  bindingIds := .nil
  pairs := .nil
  lifecycles rule member := .inl (by rw [List.mem_singleton.mp member]; rfl)
  attached _ member := absurd member List.not_mem_nil

private theorem drafting_generates (calls : List BindingCall) (once : (calls.filterMap BindingCall.newId).Nodup) :
    drafting.tables.Generates calls := ⟨once, fun _ _ => List.not_mem_nil⟩

private theorem drafting_unbound (pair : Pair) : ¬drafting.tables.Unbound pair :=
  fun ⟨_, member, _⟩ => List.not_mem_nil member

private def bindOffice (id : String) : BindingCall := .bindRule id "readers" office

private def unbindOffice : BindingCall := .unbindRule "readers" office

theorem bindings_set_iff_unbound :
    Proper true 60 drafting drafting.tables.bound [bindOffice "1", unbindOffice, unbindOffice] ∧
      BehavesAsSet true 60 drafting drafting.tables.bound [bindOffice "1", unbindOffice, unbindOffice] := by
  have proper : Proper true 60 drafting drafting.tables.bound [bindOffice "1", unbindOffice, unbindOffice] :=
    ⟨⟨⟨readers, List.mem_singleton_self _, rfl, by decide⟩, rfl⟩, trivial, trivial, trivial⟩
  refine ⟨proper, (bindings_set_iff true 60 drafting _ drafting_sound proper (drafting_generates _ (by decide))).mpr ?_⟩
  exact ⟨drafting_unbound _, trivial⟩

/-- A rule that was unbound from a target cannot be bound to it again. -/
theorem unbound_pair_refused :
    drafting.tables.Sound ∧
      Proper false 60 drafting drafting.tables.bound [bindOffice "1", unbindOffice, bindOffice "2"] ∧
      drafting.tables.Generates [bindOffice "1", unbindOffice, bindOffice "2"] ∧
      ¬BehavesAsSet false 60 drafting drafting.tables.bound [bindOffice "1", unbindOffice, bindOffice "2"] := by
  have office : ∃ rule ∈ [readers], rule.id = "readers" ∧ rule.lifecycle ≠ .archived :=
    ⟨readers, List.mem_singleton_self _, rfl, by decide⟩
  refine ⟨drafting_sound, ⟨⟨office, rfl⟩, trivial, ⟨office, rfl⟩, trivial⟩, drafting_generates _ (by decide), ?_⟩
  rintro ⟨-, -, refused, -⟩
  exact refused

end PyScoped.Legacy.RuleStore
