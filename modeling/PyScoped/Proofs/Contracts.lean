import PyScoped.Legacy.Contracts

/-! When the difference of two contract versions tells what the check of data
makes of them. The difference compares the last field of each name; earlier
fields of the name and the constraints across fields it does not look at. -/

namespace PyScoped.Legacy.Contracts
open Foundation

variable (regex : String → String → Except Raised Bool) {data : Data}

/-- A bound stands for everything that equals it. -/
def FieldCheck.Respects (check : FieldCheck) : Prop :=
  ∀ measured bound bound', bound.Equals bound' → check.violates measured bound = check.violates measured bound'

variable {first second : PyValue}

private theorem lessThan_right {second' : PyValue} (equal : second.Equals second') :
    lessThan first second = lessThan first second' := by
  unfold lessThan
  rw [equal.number]

private theorem lessThan_left {first' : PyValue} (equal : first.Equals first') :
    lessThan first second = lessThan first' second := by
  unfold lessThan
  rw [equal.number]

private theorem reMatch_pattern (equal : first.Equals second) (text : String) :
    reMatch regex first text = reMatch regex second text := by
  cases second with
  | str pattern => rw [equal.str]
  | _ =>
    cases first with
    | str pattern => exact absurd equal.symm.str nofun
    | _ => rfl

private theorem contains_container (equal : first.Equals second) (value : PyValue) :
    contains first value = contains second value := by
  cases first with
  | list items =>
    cases second with
    | list items' => exact congrArg Except.ok (equal.among value)
    | _ => simp [PyValue.Equals, PyValue.canonical] at equal
  | dict members =>
    cases second with
    | dict members' =>
      cases value with
      | str key => exact congrArg Except.ok (equal.keys key)
      | _ => rfl
    | _ => simp [PyValue.Equals, PyValue.canonical] at equal
  | str text => rw [equal.symm.str]
  | _ => cases second <;> first | rfl | simp [PyValue.Equals, PyValue.canonical] at equal

theorem fieldChecks_respect : ∀ check ∈ fieldChecks regex, check.Respects := by
  intro check member
  simp only [fieldChecks, List.mem_cons, List.not_mem_nil, or_false] at member
  rcases member with rfl | rfl | rfl | rfl | rfl | rfl
  · exact fun _ _ _ equal => lessThan_right equal
  · exact fun _ _ _ equal => lessThan_left equal
  · exact fun _ _ _ equal => lessThan_right equal
  · exact fun _ _ _ equal => lessThan_left equal
  · intro measured bound bound' equal
    cases measured with
    | str text => exact congrArg (Except.map not) (reMatch_pattern regex equal text)
    | _ => rfl
  · exact fun measured _ _ equal => congrArg (Except.map not) (contains_container equal measured)

variable {field : ContractField}

theorem FieldCheck.run_ok_iff {check : FieldCheck} {value : PyValue} :
    check.run field value = .ok [] ↔ ∀ bound measured, field.constraints.lookup check.key = some bound →
      check.measure value = some measured → check.violates measured bound = .ok false := by
  unfold FieldCheck.run
  cases field.constraints.lookup check.key with
  | none => simp
  | some bound =>
    cases check.measure value with
    | none => simp
    | some measured =>
      cases answer : check.violates measured bound with
      | error error => simp [answer, Except.map]
      | ok violated => cases violated <;> simp [answer, Except.map]

/-- The two fields are compared as equal. -/
structure Alike (field field' : ContractField) : Prop where
  name : field.name = field'.name
  fieldType : field.fieldType = field'.fieldType
  required : field.required = field'.required
  default : field.default.Equals field'.default
  constraints : (PyValue.dict field.constraints).Equals (.dict field'.constraints)

theorem FieldType.value_injective : Function.Injective FieldType.value := by
  intro first second
  cases first <;> cases second <;> simp [FieldType.value]

variable {field' : ContractField}

theorem Alike.of_snapshot (same : field.snapshot.Equals field'.snapshot) : Alike field field' := by
  have name := same.lookup "name"
  have fieldType := same.lookup "field_type"
  have required := same.lookup "required"
  have unset := same.lookup "default"
  have constraints := same.lookup "constraints"
  simp [List.lookup_cons, PyValue.canonical] at name fieldType
  simp [List.lookup_cons] at required unset constraints
  exact ⟨name, FieldType.value_injective fieldType, PyValue.Equals.bool required, unset, constraints⟩

theorem FieldCheck.Respects.run {check : FieldCheck} (respects : check.Respects)
    (alike : Alike field field') (value : PyValue) : check.run field value = .ok [] ↔ check.run field' value = .ok [] := by
  have half : ∀ {one two : ContractField}, (PyValue.dict one.constraints).Equals (.dict two.constraints) →
      check.run one value = .ok [] → check.run two value = .ok [] := by
    intro one two equal passes
    apply FieldCheck.run_ok_iff.mpr
    intro bound measured found measures
    have entries := equal.lookup check.key
    rw [found, Option.map_some, Option.map_eq_some_iff] at entries
    obtain ⟨bound', found', same⟩ := entries
    rw [← respects measured bound' bound same]
    exact FieldCheck.run_ok_iff.mp passes bound' measured found' measures
  exact ⟨half alike.constraints, half alike.constraints.symm⟩

private theorem mapM_clean {β : Type} {check : β → Except Raised (List Complaint)} {items : List β} :
    (∃ found, items.mapM check = .ok found ∧ found.flatten = []) ↔ ∀ item ∈ items, check item = .ok [] := by
  induction items with
  | nil => simp [pure, Except.pure]
  | cons item items ih =>
    rw [List.mapM_cons, List.forall_mem_cons, ← ih]
    cases answer : check item with
    | error error => simp [bind, Except.bind]
    | ok complaints =>
      cases items.mapM check with
      | error error => simp [bind, Except.bind]
      | ok found => simp [bind, Except.bind, pure, Except.pure]

/-- The field is not missed, and nothing is wrong with its value. -/
def FieldFine (data : Data) (field : ContractField) : Prop :=
  (field.required = true → data.has field.name = false → field.default ≠ .none) ∧ checkField regex data field = .ok []

theorem checkField_ok_iff : checkField regex data field = .ok [] ↔
    ∀ value, data.lookup field.name = some value →
      field.fieldType.admits value = true ∧ ∀ check ∈ fieldChecks regex, check.run field value = .ok [] := by
  unfold checkField
  cases data.lookup field.name with
  | none => simp
  | some value =>
    cases admitted : field.fieldType.admits value with
    | false => simp [admitted]
    | true =>
      simp only [Bool.not_true, Bool.false_eq_true, if_false, Option.some.injEq, forall_eq', admitted, true_and]
      rw [← mapM_clean]
      cases (fieldChecks regex).mapM fun check => check.run field value with
      | error error => simp [bind, Except.bind]
      | ok found => simp [bind, Except.bind, pure, Except.pure]

theorem Alike.fine (alike : Alike field field') :
    FieldFine regex data field ↔ FieldFine regex data field' := by
  have default : field.default = .none ↔ field'.default = .none := by
    constructor
    · intro empty
      have equal := alike.default
      rw [empty] at equal
      exact equal.symm.none
    · intro empty
      have equal := alike.default
      rw [empty] at equal
      exact equal.none
  unfold FieldFine
  rw [checkField_ok_iff, checkField_ok_iff, alike.name, alike.required, alike.fieldType, Ne, default]
  have checks : ∀ value, (∀ check ∈ fieldChecks regex, check.run field value = .ok []) ↔
      ∀ check ∈ fieldChecks regex, check.run field' value = .ok [] := by
    intro value
    apply forall₂_congr
    intro check member
    exact (fieldChecks_respect regex check member).run alike value
  simp only [checks]

/-- The version accepts the data. -/
def Accepts (data : Data) (version : ContractVersion) : Prop :=
  ∃ result, validateAgainstVersion regex data version = .ok result ∧ result.valid = true

/-- Every key is the name of a field. -/
def Known (data : Data) (version : ContractVersion) : Prop := ∀ key ∈ data.map Prod.fst, key ∈ version.fieldNames

def ConstraintsFine (data : Data) (version : ContractVersion) : Prop :=
  ∀ constraint ∈ version.constraints, validateConstraint data constraint = .ok []

variable {version : ContractVersion}

theorem accepts_iff : Accepts regex data version ↔
    (∀ field ∈ version.fields, FieldFine regex data field) ∧ Known data version ∧ ConstraintsFine data version := by
  have missing : missingFields data version.fields = [] ↔ ∀ field ∈ version.fields,
      field.required = true → data.has field.name = false → field.default ≠ .none := by
    simp only [missingFields, List.map_eq_nil_iff, List.filter_eq_nil_iff, Bool.and_eq_true, Bool.not_eq_true',
      decide_eq_true_eq, not_and, and_imp]
  have unknown : unknownFields data version = [] ↔ Known data version := by
    simp [unknownFields, Known, List.filter_eq_nil_iff]
  have fields : (∀ field ∈ version.fields, FieldFine regex data field) ↔ missingFields data version.fields = [] ∧
      ∃ found, version.fields.mapM (checkField regex data) = .ok found ∧ found.flatten = [] := by
    rw [missing, mapM_clean]
    unfold FieldFine
    exact forall₂_and
  rw [fields, ← unknown, ConstraintsFine, ← mapM_clean]
  unfold Accepts validateAgainstVersion
  cases version.fields.mapM (checkField regex data) with
  | error error => simp [bind, Except.bind]
  | ok found =>
    cases version.constraints.mapM (validateConstraint data) with
    | error error => simp [bind, Except.bind]
    | ok complaints =>
      simp only [bind, Except.bind, pure, Except.pure, Except.ok.injEq, exists_eq_left', List.isEmpty_iff,
        List.append_eq_nil_iff]
      tauto

/-- What the difference compares: the last field of each name. -/
def ComparedFine (data : Data) (version : ContractVersion) : Prop :=
  ∀ name field, named version.fields name = some field → FieldFine regex data field

/-- What the difference does not look at: the earlier fields of a name, and the
constraints across fields. -/
def OverlookedFine (data : Data) (version : ContractVersion) : Prop :=
  (∀ field ∈ version.fields, named version.fields field.name ≠ some field → FieldFine regex data field) ∧
    ConstraintsFine data version

variable {fields : List ContractField} {name : String}

theorem named_some (found : named fields name = some field) :
    field ∈ fields ∧ field.name = name := by
  unfold named at found
  refine ⟨List.mem_reverse.mp (List.mem_of_find?_eq_some found), ?_⟩
  simpa using List.find?_some found

theorem named_isSome :
    (named fields name).isSome = true ↔ ∃ field ∈ fields, field.name = name := by
  unfold named
  rw [List.find?_isSome]
  simp

theorem accepts_split : Accepts regex data version ↔
    ComparedFine regex data version ∧ Known data version ∧ OverlookedFine regex data version := by
  rw [accepts_iff]
  constructor
  · intro ⟨fields, known, constraints⟩
    exact ⟨fun name field found => fields field (named_some found).1, known, fun field member _ => fields field member, constraints⟩
  · intro ⟨compared, known, overlooked, constraints⟩
    refine ⟨fun field member => ?_, known, constraints⟩
    by_cases last : named version.fields field.name = some field
    · exact compared field.name field last
    · exact overlooked field member last

theorem mem_names : name ∈ names fields ↔ ∃ field ∈ fields, field.name = name := by
  induction fields with
  | nil => simp [names]
  | cons field fields ih =>
    simp only [names, List.mem_cons, List.mem_filter, ih, decide_eq_true_eq, exists_eq_or_imp]
    by_cases same : name = field.name
    · simp [same]
    · simp [same, Ne.symm same]

variable {old new : ContractVersion}

theorem unmodified_alike (unmodified : (diffContracts old new).modifiedFields = [])
    (found : named old.fields name = some field) (found' : named new.fields name = some field') :
    Alike field field' := by
  have listed : name ∈ names old.fields := mem_names.mpr ⟨field, named_some found⟩
  have fine := List.filter_eq_nil_iff.mp unmodified name listed
  simp only [isModified, found, found', Bool.not_eq_true', decide_eq_false_iff_not, not_not] at fine
  exact .of_snapshot fine

theorem unremoved_found (unremoved : (diffContracts old new).removedFields = [])
    (found : (named old.fields name).isSome = true) : (named new.fields name).isSome = true := by
  obtain ⟨field, member, rfl⟩ := named_isSome.mp found
  have kept := List.filter_eq_nil_iff.mp (List.map_eq_nil_iff.mp unremoved) field member
  simpa only [Option.isNone_iff_eq_none, ← Option.isSome_iff_ne_none] using kept

theorem unadded_found (unadded : (diffContracts old new).addedFields = [])
    (found : (named new.fields name).isSome = true) : (named old.fields name).isSome = true := by
  obtain ⟨field, member, rfl⟩ := named_isSome.mp found
  have kept := List.filter_eq_nil_iff.mp (List.map_eq_nil_iff.mp unadded) field member
  simpa only [Option.isNone_iff_eq_none, ← Option.isSome_iff_ne_none] using kept

theorem known_iff :
    Known data version ↔ ∀ key ∈ data.map Prod.fst, (named version.fields key).isSome = true := by
  apply forall₂_congr
  intro key _
  rw [named_isSome, ContractVersion.fieldNames, List.mem_map]

theorem unchanged_same (data : Data) (unadded : (diffContracts old new).addedFields = []) (unremoved : (diffContracts old new).removedFields = [])
    (unmodified : (diffContracts old new).modifiedFields = []) :
    (ComparedFine regex data old ↔ ComparedFine regex data new) ∧ (Known data old ↔ Known data new) := by
  have both : ∀ name, (named old.fields name).isSome = true ↔ (named new.fields name).isSome = true :=
    fun name => ⟨unremoved_found unremoved, unadded_found unadded⟩
  constructor
  · constructor
    · intro compared name field' found'
      obtain ⟨field, found⟩ := Option.isSome_iff_exists.mp ((both name).mpr (by rw [found']; rfl))
      exact (unmodified_alike unmodified found found').fine regex |>.mp (compared name field found)
    · intro compared name field found
      obtain ⟨field', found'⟩ := Option.isSome_iff_exists.mp ((both name).mp (by rw [found]; rfl))
      exact (unmodified_alike unmodified found found').fine regex |>.mpr (compared name field' found')
  · rw [known_iff, known_iff]
    simp only [both]

/-- Only fields were added, and none that is required without a default. -/
def OnlyOptionalAdded (old new : ContractVersion) : Prop :=
  (diffContracts old new).removedFields = [] ∧ (diffContracts old new).modifiedFields = [] ∧
    ∀ field ∈ new.fields, field.name ∈ (diffContracts old new).addedFields →
      ¬ (field.required = true ∧ field.default = .none)

theorem extended_fine (optional : OnlyOptionalAdded old new) (accepts : Accepts regex data old) :
    ComparedFine regex data new ∧ Known data new := by
  obtain ⟨unremoved, unmodified, needless⟩ := optional
  obtain ⟨compared, known, -⟩ := (accepts_split regex).mp accepts
  rw [known_iff] at known
  constructor
  · intro name field' found'
    cases found : named old.fields name with
    | some field => exact (unmodified_alike unmodified found found').fine regex |>.mp (compared name field found)
    | none =>
      obtain ⟨member, rfl⟩ := named_some found'
      have absent : data.lookup field'.name = none := by
        by_contra present
        obtain ⟨value, shown⟩ := Option.ne_none_iff_exists'.mp present
        obtain ⟨before, after, rfl, -⟩ := List.lookup_eq_some_iff.mp shown
        have keyed : field'.name ∈ (before ++ (field'.name, value) :: after).map Prod.fst := by simp
        have old := known field'.name keyed
        rw [found] at old
        cases old
      have added : field'.name ∈ (diffContracts old new).addedFields :=
        List.mem_map.mpr ⟨field', List.mem_filter.mpr ⟨member, by rw [found]; rfl⟩, rfl⟩
      refine ⟨fun required _ empty => needless field' member added ⟨required, empty⟩, ?_⟩
      rw [checkField_ok_iff, absent]
      exact nofun
  · rw [known_iff]
    exact fun key member => unremoved_found unremoved (known key member)

/-- A dictionary has every key once. -/
def Data.Proper (data : Data) : Prop := (data.map Prod.fst).Nodup

/-- What the difference is taken to tell about the check. -/
structure Sound (old new : ContractVersion) : Prop where
  unchanged : (diffContracts old new).addedFields = [] → (diffContracts old new).removedFields = [] →
    (diffContracts old new).modifiedFields = [] →
    ∀ data : Data, data.Proper → (Accepts regex data old ↔ Accepts regex data new)
  extended : OnlyOptionalAdded old new → ∀ data : Data, data.Proper → Accepts regex data old → Accepts regex data new

/-- What the difference does not look at agrees, on the data that pass everything it does look at. -/
structure OverlookedAgree (old new : ContractVersion) : Prop where
  unchanged : (diffContracts old new).addedFields = [] → (diffContracts old new).removedFields = [] →
    (diffContracts old new).modifiedFields = [] →
    ∀ data : Data, data.Proper → ComparedFine regex data old → Known data old →
      (OverlookedFine regex data old ↔ OverlookedFine regex data new)
  extended : OnlyOptionalAdded old new → ∀ data : Data, data.Proper → Accepts regex data old → OverlookedFine regex data new

theorem OverlookedAgree.sound (agree : OverlookedAgree regex old new) : Sound regex old new := by
  constructor
  · intro unadded unremoved unmodified data proper
    obtain ⟨fields, names⟩ := unchanged_same regex data unadded unremoved unmodified
    have overlooked := agree.unchanged unadded unremoved unmodified data proper
    rw [accepts_split, accepts_split, ← fields, ← names]
    tauto
  · intro optional data proper accepts
    obtain ⟨compared, known⟩ := extended_fine regex optional accepts
    apply (accepts_split regex).mpr
    exact ⟨compared, known, agree.extended optional data proper accepts⟩

/-- The difference is sound if and only if the earlier fields of repeated names
and the constraints across fields agree where it reports nothing about them. -/
theorem sound_iff (old new : ContractVersion) : Sound regex old new ↔ OverlookedAgree regex old new := by
  constructor
  · intro sound
    constructor
    · intro unadded unremoved unmodified data proper compared known
      obtain ⟨fields, names⟩ := unchanged_same regex data unadded unremoved unmodified
      have accepted := sound.unchanged unadded unremoved unmodified data proper
      rw [accepts_split, accepts_split, ← fields, ← names] at accepted
      tauto
    · intro optional data proper accepts
      have accepted := sound.extended optional data proper accepts
      exact ((accepts_split regex).mp accepted).2.2
  · exact OverlookedAgree.sound regex

theorem overlookedFine_iff {version : ContractVersion} (distinct : (version.fields.map ContractField.name).Nodup) :
    OverlookedFine regex data version ↔ ConstraintsFine data version := by
  refine ⟨And.right, fun constraints => ⟨fun field member overlooked => absurd ?_ overlooked, constraints⟩⟩
  obtain ⟨last, found⟩ := Option.isSome_iff_exists.mp (named_isSome.mpr ⟨field, member, rfl⟩)
  obtain ⟨member', same⟩ := named_some found
  rw [found, List.inj_on_of_nodup_map distinct member' member same]

/-- Where every name is there once and the constraints across fields are the same,
nothing is overlooked. -/
theorem sound_of_distinct (distinct : (old.fields.map ContractField.name).Nodup)
    (distinct' : (new.fields.map ContractField.name).Nodup) (same : new.constraints = old.constraints) : Sound regex old new := by
  have constraints (data : Data) : ConstraintsFine data new ↔ ConstraintsFine data old := by rw [ConstraintsFine, ConstraintsFine, same]
  refine OverlookedAgree.sound regex ⟨fun _ _ _ data _ _ _ => ?_, fun _ data _ accepts => ?_⟩
  · rw [overlookedFine_iff regex distinct, overlookedFine_iff regex distinct', constraints]
  · rw [overlookedFine_iff regex distinct', constraints]
    exact ((accepts_iff regex).mp accepts).2.2

section Sample

private def note : ContractField := ⟨"note", .string, false, .none, "", []⟩

/-- One optional field. -/
def lenient : ContractVersion := ⟨1, [note], []⟩

/-- The same field, which now has to be there. -/
def strict : ContractVersion :=
  ⟨2, [note], [⟨"some", "at_least_one", [("fields", .list [.str "note"])], ""⟩]⟩

private theorem strict_unreported : (diffContracts lenient strict).addedFields = [] ∧
    (diffContracts lenient strict).removedFields = [] ∧ (diffContracts lenient strict).modifiedFields = [] := by
  decide +kernel

/-- A constraint across fields is added: the difference reports nothing, and the
empty dictionary is accepted before and refused after. -/
theorem added_constraint_unreported : ¬ Sound (fun _ _ => .ok true) lenient strict := by
  intro sound
  obtain ⟨unadded, unremoved, unmodified⟩ := strict_unreported
  have accepted : Accepts (fun _ _ => .ok true) [] lenient := ⟨_, rfl, rfl⟩
  obtain ⟨result, checked, valid⟩ := (sound.unchanged unadded unremoved unmodified [] List.nodup_nil).mp accepted
  have refused : (validateAgainstVersion (fun _ _ => .ok true) [] strict).toOption.map ValidationResult.valid = some false := by
    decide +kernel
  rw [checked] at refused
  have refused := Option.some.inj refused
  rw [valid] at refused
  cases refused

end Sample
end PyScoped.Legacy.Contracts
