import PyScoped.Legacy.Rules

/-! Rule decisions are deny-overrides over the rules relevant to a request. The
explanation repeats the decision unless a rule reached the request through its
environment alone. -/

namespace PyScoped.Legacy
open Foundation

/-- What the request offers as binding targets. An empty name offers none. -/
def AccessRequest.Targets (request : AccessRequest) (targetType : BindingTargetType) (targetId : String) : Prop :=
  targetId ≠ "" ∧ match targetType with
    | .scope => request.scopeId = some targetId
    | .principal => request.principalId = some targetId
    | .objectType => request.objectType = some targetId
    | .object => request.objectId = some targetId
    | .environment => request.environmentId = some targetId
    | .connector => False

/-- The request's own value under a condition key. -/
def AccessRequest.field (request : AccessRequest) : String → Option String
  | "action" => some request.action
  | "principal_kind" => request.principalKind
  | "object_type" => request.objectType
  | "scope_id" => request.scopeId
  | _ => none

/-- A condition names one accepted value or lists several. -/
def Accepts (expected : Json) (actual : String) : Prop :=
  match expected with
  | .arr items => .str actual ∈ items
  | expected => expected = .str actual

/-- Every condition on a value that the request gives accepts that value. -/
def Rule.Admits (rule : Rule) (request : AccessRequest) : Prop :=
  ∀ key expected actual, rule.conditions.lookup key = some expected → request.field key = some actual →
    Accepts expected actual

namespace RuleTables
variable (tables : RuleTables)

def Bound (rule : Rule) (targetType : BindingTargetType) (targetId : String) : Prop :=
  ∃ binding ∈ tables.bindings, binding.ruleId = rule.id ∧ binding.targetType = targetType ∧
    binding.targetId = targetId ∧ binding.lifecycle = .active

def Active (rule : Rule) : Prop := rule ∈ tables.rules ∧ rule.lifecycle = .active

/-- The active rules that a request meets and whose conditions it fulfils. -/
def Relevant (request : AccessRequest) (rule : Rule) : Prop :=
  tables.Active rule ∧ rule.Admits request ∧
    ∃ targetType targetId, request.Targets targetType targetId ∧ tables.Bound rule targetType targetId

/-- The rule reaches the request without its environment. -/
def BoundElsewhere (request : AccessRequest) (rule : Rule) : Prop :=
  ∃ targetType targetId, targetType ≠ .environment ∧ request.Targets targetType targetId ∧
    tables.Bound rule targetType targetId

def BoundToEnvironment (request : AccessRequest) (rule : Rule) : Prop :=
  ∃ targetId, request.Targets .environment targetId ∧ tables.Bound rule .environment targetId

theorem rule_eq {first second : Rule} (firstIn : first ∈ tables.rules) (secondIn : second ∈ tables.rules)
    (same : first.id = second.id) : first = second :=
  List.inj_on_of_nodup_map tables.primaryKey firstIn secondIn same

end RuleTables

section Dedupe
variable {α β : Type} (key : α → String)

theorem mem_dedupe {items : List α} (injective : ∀ first ∈ items, ∀ second ∈ items, key first = key second →
    first = second) (seen : List String) (item : α) :
    item ∈ dedupe key seen items ↔ item ∈ items ∧ key item ∉ seen := by
  induction items generalizing seen with
  | nil => simp [dedupe]
  | cons head tail ih =>
    have tailwise := ih fun first firstIn second secondIn =>
      injective first (List.mem_cons_of_mem _ firstIn) second (List.mem_cons_of_mem _ secondIn)
    unfold dedupe
    split
    next known =>
      rw [tailwise seen]
      constructor
      · exact fun ⟨member, fresh⟩ => ⟨List.mem_cons_of_mem _ member, fresh⟩
      · rintro ⟨member, fresh⟩
        obtain rfl | member := List.mem_cons.mp member
        · exact absurd known fresh
        · exact ⟨member, fresh⟩
    next unknown =>
      rw [List.mem_cons, tailwise, List.mem_cons, List.mem_cons]
      constructor
      · rintro (rfl | ⟨member, fresh⟩)
        · exact ⟨.inl rfl, unknown⟩
        · exact ⟨.inr member, fun known => fresh (.inr known)⟩
      · rintro ⟨rfl | member, fresh⟩
        · exact .inl rfl
        · by_cases same : key item = key head
          · exact .inl (injective _ (List.mem_cons_of_mem _ member) _ List.mem_cons_self same)
          · exact .inr ⟨member, fun known => known.elim same fresh⟩

theorem dedupe_append (first second : List α) (seen : List String) :
    ∃ later, dedupe key seen (first ++ second) = dedupe key seen first ++ dedupe key later second ∧
      ∀ text, text ∈ later ↔ text ∈ seen ∨ text ∈ first.map key := by
  induction first generalizing seen with
  | nil => exact ⟨seen, rfl, by simp⟩
  | cons head tail ih =>
    by_cases known : key head ∈ seen
    · obtain ⟨later, split, members⟩ := ih seen
      refine ⟨later, by simp [dedupe, known, split], ?_⟩
      intro text
      rw [members, List.map_cons, List.mem_cons]
      constructor
      · exact fun found => found.imp_right .inr
      · rintro (found | rfl | found)
        · exact .inl found
        · exact .inl known
        · exact .inr found
    · obtain ⟨later, split, members⟩ := ih (key head :: seen)
      refine ⟨later, by simp [dedupe, known, split], ?_⟩
      intro text
      rw [members, List.map_cons, List.mem_cons, List.mem_cons, or_assoc, or_left_comm]

theorem map_dedupe (project : β → α) (seen : List String) (items : List β) :
    (dedupe (fun item => key (project item)) seen items).map project = dedupe key seen (items.map project) := by
  induction items generalizing seen with
  | nil => rfl
  | cons head tail ih =>
    rw [dedupe, List.map_cons, dedupe]
    split
    · exact ih seen
    · rw [List.map_cons, ih]

end Dedupe

theorem equalsText_iff (actual : String) (expected : Json) :
    equalsText actual expected = true ↔ expected = .str actual := by
  cases expected <;> simp [equalsText]

theorem any_equalsText (actual : String) (items : List Json) :
    items.any (equalsText actual) = true ↔ .str actual ∈ items := by
  rw [List.any_eq_true]
  constructor
  · rintro ⟨item, member, same⟩
    rwa [← (equalsText_iff actual item).mp same]
  · exact fun member => ⟨_, member, (equalsText_iff _ _).mpr rfl⟩

theorem valueMatches_iff (expected : Json) (actual : String) :
    valueMatches expected (some actual) = true ↔ Accepts expected actual := by
  cases expected with
  | arr items => exact any_equalsText actual items
  | null | bool | int | float | nonfinite | str | obj =>
    unfold valueMatches Accepts
    exact equalsText_iff actual _

namespace RuleEngine

theorem conditionHolds_eq (conditions : List (String × Json)) (key : String) (actual : Option String) :
    conditionHolds conditions key actual = (conditions.lookup key).all (valueMatches · actual) := by
  unfold conditionHolds
  cases conditions.lookup key with
  | none => rfl
  | some expected => cases actual <;> cases expected <;> rfl

theorem conditionHolds_iff (conditions : List (String × Json)) (key : String) (actual : Option String) :
    conditionHolds conditions key actual = true ↔
      ∀ expected value, conditions.lookup key = some expected → actual = some value → Accepts expected value := by
  rw [conditionHolds_eq]
  cases conditions.lookup key with
  | none => simp
  | some expected =>
    cases actual with
    | none => simp [valueMatches]
    | some value => simp [valueMatches_iff]

theorem matchesConditions_eq (rule : Rule) (request : AccessRequest) :
    matchesConditions rule request =
      (conditionHolds rule.conditions "action" (some request.action)
        && conditionHolds rule.conditions "principal_kind" request.principalKind
        && conditionHolds rule.conditions "object_type" request.objectType
        && conditionHolds rule.conditions "scope_id" request.scopeId) := by
  unfold matchesConditions
  split
  next empty =>
    rw [List.isEmpty_iff.mp empty]
    rfl
  next =>
    cases conditionHolds rule.conditions "action" (some request.action) <;>
    cases conditionHolds rule.conditions "principal_kind" request.principalKind <;>
    cases conditionHolds rule.conditions "object_type" request.objectType <;>
    cases conditionHolds rule.conditions "scope_id" request.scopeId <;> rfl

theorem matchesConditions_iff (rule : Rule) (request : AccessRequest) :
    matchesConditions rule request = true ↔ rule.Admits request := by
  simp only [matchesConditions_eq, Bool.and_eq_true, conditionHolds_iff]
  constructor
  · rintro ⟨⟨⟨action, kind⟩, objectType⟩, scope⟩ key expected actual present given
    unfold AccessRequest.field at given
    split at given
    · exact action expected actual present given
    · exact kind expected actual present given
    · exact objectType expected actual present given
    · exact scope expected actual present given
    · exact nomatch given
  · intro admits
    exact ⟨⟨⟨admits "action", admits "principal_kind"⟩, admits "object_type"⟩, admits "scope_id"⟩

theorem explainMatch_matched (rule : Rule) (request : AccessRequest) (targetType targetId : String) :
    (explainMatch rule request targetType targetId).matched = matchesConditions rule request := by
  have keywise (key : String) (actual : Option String) :
      (((rule.conditions.lookup key).map fun expected => ConditionMatch.mk key (valueMatches expected actual)
        expected actual).toList.all (·.matched)) = conditionHolds rule.conditions key actual := by
    rw [conditionHolds_eq]
    cases rule.conditions.lookup key <;> simp
  have every : (conditionMatches rule request).all (·.matched) = matchesConditions rule request := by
    rw [matchesConditions_eq, ← keywise, ← keywise, ← keywise, ← keywise]
    unfold conditionMatches
    simp only [List.filterMap_cons, List.filterMap_nil]
    cases rule.conditions.lookup "action" <;> cases rule.conditions.lookup "principal_kind" <;>
    cases rule.conditions.lookup "object_type" <;> cases rule.conditions.lookup "scope_id" <;>
      simp [Bool.and_assoc]
  unfold explainMatch
  simp only []
  split
  next empty => simp [matchesConditions, empty]
  next => exact every

variable (tables : RuleTables) (request : AccessRequest)

theorem mem_rulesFor (targetType : BindingTargetType) (named : Option String) (rule : Rule) :
    rule ∈ rulesFor tables targetType named ↔ tables.Active rule ∧
      ∃ targetId, targetId ≠ "" ∧ named = some targetId ∧ tables.Bound rule targetType targetId := by
  have joined (targetId : String) : rule ∈ rulesForTarget tables targetType targetId ↔
      tables.Active rule ∧ tables.Bound rule targetType targetId := by
    rw [rulesForTarget, (tables.joined targetType targetId).mem_iff]
    simp only [joinedRules, List.mem_flatMap, List.mem_map, List.mem_filter, RuleBinding.attaches, Rule.isActive,
      RuleBinding.isActive, Bool.and_eq_true, beq_iff_eq]
    constructor
    · rintro ⟨_, ⟨member, active⟩, binding, ⟨bound, ⟨⟨same, ofType⟩, onTarget⟩, live⟩, rfl⟩
      exact ⟨⟨member, active⟩, binding, bound, same, ofType, onTarget, live⟩
    · rintro ⟨⟨member, active⟩, binding, bound, same, ofType, onTarget, live⟩
      exact ⟨rule, ⟨member, active⟩, binding, ⟨bound, ⟨⟨same, ofType⟩, onTarget⟩, live⟩, rfl⟩
  unfold rulesFor
  split
  next targetId =>
    split
    next empty => simp [empty]
    next given =>
      rw [joined]
      constructor
      · exact fun ⟨active, bound⟩ => ⟨active, targetId, given, rfl, bound⟩
      · rintro ⟨active, _, _, same, bound⟩
        obtain rfl := Option.some.inj same
        exact ⟨active, bound⟩
  next => simp

/-- The candidates that both pipelines collect. -/
def shared : List Rule :=
  rulesFor tables .scope request.scopeId ++ rulesFor tables .principal request.principalId
    ++ rulesFor tables .objectType request.objectType ++ rulesFor tables .object request.objectId

def environmental : List Rule := rulesFor tables .environment request.environmentId

theorem mem_shared (rule : Rule) :
    rule ∈ shared tables request ↔ tables.Active rule ∧ tables.BoundElsewhere request rule := by
  simp only [shared, List.mem_append, mem_rulesFor]
  constructor
  · rintro (((⟨active, id, given, named, bound⟩ | ⟨active, id, given, named, bound⟩) |
      ⟨active, id, given, named, bound⟩) | ⟨active, id, given, named, bound⟩)
    · exact ⟨active, .scope, id, nofun, ⟨given, named⟩, bound⟩
    · exact ⟨active, .principal, id, nofun, ⟨given, named⟩, bound⟩
    · exact ⟨active, .objectType, id, nofun, ⟨given, named⟩, bound⟩
    · exact ⟨active, .object, id, nofun, ⟨given, named⟩, bound⟩
  · rintro ⟨active, targetType, id, other, ⟨given, named⟩, bound⟩
    cases targetType with
    | scope => exact .inl (.inl (.inl ⟨active, id, given, named, bound⟩))
    | principal => exact .inl (.inl (.inr ⟨active, id, given, named, bound⟩))
    | objectType => exact .inl (.inr ⟨active, id, given, named, bound⟩)
    | object => exact .inr ⟨active, id, given, named, bound⟩
    | environment => exact absurd rfl other
    | connector => exact named.elim

theorem mem_environmental (rule : Rule) :
    rule ∈ environmental tables request ↔ tables.Active rule ∧ tables.BoundToEnvironment request rule := by
  rw [environmental, mem_rulesFor]
  refine and_congr_right fun _ => exists_congr fun id => ?_
  rw [AccessRequest.Targets, and_assoc]

theorem relevant_iff (rule : Rule) :
    tables.Relevant request rule ↔
      rule.Admits request ∧ (rule ∈ shared tables request ∨ rule ∈ environmental tables request) := by
  rw [mem_shared, mem_environmental, ← and_or_left, and_left_comm, RuleTables.Relevant]
  refine and_congr_right fun _ => and_congr_right fun _ => ?_
  constructor
  · rintro ⟨targetType, id, offered, bound⟩
    by_cases environment : targetType = .environment
    · subst environment
      exact .inr ⟨id, offered, bound⟩
    · exact .inl ⟨targetType, id, environment, offered, bound⟩
  · rintro (⟨targetType, id, _, offered, bound⟩ | ⟨id, offered, bound⟩)
    · exact ⟨targetType, id, offered, bound⟩
    · exact ⟨.environment, id, offered, bound⟩

theorem candidates_injective : ∀ first ∈ shared tables request ++ environmental tables request,
    ∀ second ∈ shared tables request ++ environmental tables request, first.id = second.id → first = second := by
  have stored (rule : Rule) (member : rule ∈ shared tables request ++ environmental tables request) :
      rule ∈ tables.rules := by
    obtain member | member := List.mem_append.mp member
    · exact ((mem_shared tables request rule).mp member).1.1
    · exact ((mem_environmental tables request rule).mp member).1.1
  exact fun first firstIn second secondIn => tables.rule_eq (stored first firstIn) (stored second secondIn)

theorem evaluate_matchingRules :
    (evaluate tables request).matchingRules = sortByPriority
      ((dedupe Rule.id [] (shared tables request ++ environmental tables request)).filter
        (matchesConditions · request)) := rfl

theorem explained_matchingRules :
    (evaluateWithExplanation tables request).result.matchingRules = sortByPriority
      ((dedupe Rule.id [] (shared tables request)).filter (matchesConditions · request)) := by
  have collected : ((candidatesFor tables .scope request.scopeId ++ candidatesFor tables .principal request.principalId
      ++ candidatesFor tables .objectType request.objectType ++ candidatesFor tables .object request.objectId).map
        (·.1)) = shared tables request := by
    simp only [candidatesFor, List.map_append, List.map_map, shared]
    congr <;> exact List.map_id _
  rw [← collected, ← map_dedupe Rule.id Prod.fst, List.filter_map]
  simp only [evaluateWithExplanation, denyOverrides, List.filter_map, List.map_map]
  congr 1
  refine congrArg₂ _ rfl (List.filter_congr fun candidate _ => ?_)
  exact explainMatch_matched candidate.1 request candidate.2.1 candidate.2.2

theorem denyOverrides_allowed (matching : List Rule) :
    (denyOverrides matching).allowed = true ↔
      (∃ rule ∈ matching, rule.effect = .allow) ∧ ¬ ∃ rule ∈ matching, rule.effect = .deny := by
  have some_effect (effect : RuleEffect) :
      matching.filter (·.effect == effect) ≠ [] ↔ ∃ rule ∈ matching, rule.effect = effect := by
    simp [List.filter_eq_nil_iff]
  rw [← some_effect, ← some_effect]
  unfold denyOverrides
  by_cases denied : matching.filter (·.effect == .deny) ≠ [] <;>
    by_cases allowed : matching.filter (·.effect == .allow) ≠ [] <;> simp [denied, allowed]

theorem mem_matchingRules (rule : Rule) :
    rule ∈ (evaluate tables request).matchingRules ↔ tables.Relevant request rule := by
  rw [evaluate_matchingRules, sortByPriority, List.mem_insertionSort, List.mem_filter,
    mem_dedupe Rule.id (candidates_injective tables request), matchesConditions_iff, relevant_iff, List.mem_append,
    and_comm]
  simp

theorem mem_explained (rule : Rule) :
    rule ∈ (evaluateWithExplanation tables request).result.matchingRules ↔
      tables.Active rule ∧ rule.Admits request ∧ tables.BoundElsewhere request rule := by
  have injective : ∀ first ∈ shared tables request, ∀ second ∈ shared tables request,
      first.id = second.id → first = second := fun first firstIn second secondIn =>
    candidates_injective tables request first (List.mem_append_left _ firstIn) second
      (List.mem_append_left _ secondIn)
  rw [explained_matchingRules, sortByPriority, List.mem_insertionSort, List.mem_filter, mem_dedupe Rule.id injective,
    matchesConditions_iff, mem_shared, and_left_comm]
  simp [and_comm]

theorem evaluate_allowed_iff :
    (evaluate tables request).allowed = true ↔
      (∃ rule, tables.Relevant request rule ∧ rule.effect = .allow) ∧
        ¬ ∃ rule, tables.Relevant request rule ∧ rule.effect = .deny := by
  have decided := denyOverrides_allowed (evaluate tables request).matchingRules
  simp only [mem_matchingRules] at decided
  exact decided

/-- Every matching rule that the environment alone contributes is missing from
the explanation, and nothing else is. -/
theorem explained_eq_of_covered (covered : ∀ rule, tables.Active rule → rule.Admits request →
      tables.BoundToEnvironment request rule → tables.BoundElsewhere request rule) :
    (evaluateWithExplanation tables request).result.matchingRules = (evaluate tables request).matchingRules := by
  rw [explained_matchingRules, evaluate_matchingRules]
  obtain ⟨later, split, members⟩ := dedupe_append Rule.id (shared tables request) (environmental tables request) []
  have extra : (dedupe Rule.id later (environmental tables request)).filter (matchesConditions · request) = [] := by
    rw [List.filter_eq_nil_iff]
    intro rule member matched
    have injective : ∀ first ∈ environmental tables request, ∀ second ∈ environmental tables request,
        first.id = second.id → first = second := fun first firstIn second secondIn =>
      candidates_injective tables request first (List.mem_append_right _ firstIn) second
        (List.mem_append_right _ secondIn)
    obtain ⟨found, fresh⟩ := (mem_dedupe Rule.id injective later rule).mp member
    obtain ⟨active, bound⟩ := (mem_environmental tables request rule).mp found
    have elsewhere := covered rule active ((matchesConditions_iff rule request).mp matched) bound
    have known := (mem_shared tables request rule).mpr ⟨active, elsewhere⟩
    exact fresh ((members rule.id).mpr (.inr (List.mem_map_of_mem known)))
  rw [split, List.filter_append, extra, List.append_nil]

/-- A rule is reported as matching in the explanation. -/
def Reported (rule : Rule) : Prop :=
  ∃ explanation ∈ (evaluateWithExplanation tables request).explanations,
    explanation.rule = rule ∧ explanation.matched = true

theorem reported_iff (rule : Rule) :
    Reported tables request rule ↔ rule ∈ (evaluateWithExplanation tables request).result.matchingRules := by
  unfold Reported evaluateWithExplanation denyOverrides sortByPriority
  simp only [List.mem_insertionSort, List.mem_map, List.mem_filter]
  constructor
  · rintro ⟨explanation, member, same, matched⟩
    exact ⟨explanation, ⟨member, matched⟩, same⟩
  · rintro ⟨explanation, ⟨member, matched⟩, same⟩
    exact ⟨explanation, member, same, matched⟩

/-- Decision, explanation and deny-overrides say the same. -/
structure Agree : Prop where
  decision : (evaluate tables request).allowed = true ↔
    (∃ rule, tables.Relevant request rule ∧ rule.effect = .allow) ∧
      ¬ ∃ rule, tables.Relevant request rule ∧ rule.effect = .deny
  explained : (evaluateWithExplanation tables request).result.allowed = (evaluate tables request).allowed
  matching : (evaluateWithExplanation tables request).result.matchingRules = (evaluate tables request).matchingRules
  environment : ∀ rule, tables.BoundToEnvironment request rule → ¬ tables.BoundElsewhere request rule →
    (Reported tables request rule ↔ rule ∈ (evaluate tables request).matchingRules)

theorem agree_iff_covered :
    Agree tables request ↔ ∀ rule, tables.Active rule → rule.Admits request →
      tables.BoundToEnvironment request rule → tables.BoundElsewhere request rule := by
  constructor
  · intro agree rule active admits bound
    obtain ⟨targetId, offered, attached⟩ := bound
    have decided : rule ∈ (evaluate tables request).matchingRules :=
      (mem_matchingRules tables request rule).mpr ⟨active, admits, .environment, targetId, offered, attached⟩
    rw [← agree.matching] at decided
    exact ((mem_explained tables request rule).mp decided).2.2
  · intro covered
    have same := explained_eq_of_covered tables request covered
    refine ⟨evaluate_allowed_iff tables request, ?_, same, ?_⟩
    · exact congrArg (fun matching => (denyOverrides matching).allowed) same
    · intro rule _ _
      rw [reported_iff, same]

section Sample

private def production : Rule :=
  { id := "freeze", name := "freeze-production", ruleType := .access, effect := .deny, priority := 100
    conditions := [], currentVersion := 1, lifecycle := .active }

private def reading : Rule :=
  { id := "open", name := "open-documents", ruleType := .access, effect := .allow, priority := 0
    conditions := [("action", .str "read")], currentVersion := 1, lifecycle := .active }

private def sampleTables : RuleTables where
  rules := [production, reading]
  bindings :=
    [{ id := "1", ruleId := "freeze", targetType := .environment, targetId := "production", lifecycle := .active },
      { id := "2", ruleId := "open", targetType := .objectType, targetId := "document", lifecycle := .active }]
  primaryKey := by decide
  fetched := joinedRules [production, reading]
    [{ id := "1", ruleId := "freeze", targetType := .environment, targetId := "production", lifecycle := .active },
      { id := "2", ruleId := "open", targetType := .objectType, targetId := "document", lifecycle := .active }]
  joined := fun _ _ => .refl _

private def sampleRequest : AccessRequest :=
  { action := "read", principalId := some "alice", principalKind := some "user", objectType := some "document"
    objectId := none, scopeId := none, environmentId := some "production" }

/-- A rule of the environment denies, and the explanation says allowed. -/
theorem explanation_omits_environment : ¬ ∀ tables request, Agree tables request := by
  intro agree
  have explained := (agree sampleTables sampleRequest).explained
  exact absurd explained (by decide +kernel)

end Sample
end RuleEngine
end PyScoped.Legacy
