import PyScoped.Proofs.Recordings
import PyScoped.Proofs.BulkOperations

/-! The columns of a restored row. A value travels from its column through the
encoder into an event, and back through the field's `to_python` into the column. -/

namespace PyScoped
open Foundation Discipline

variable {app : App} {label : String}

/-- The column is restored; a scope or a relation has to stay as it is. -/
def Restores {model : Model} (config : Registration model) (field : Field) : Prop :=
  ¬(field.name = config.scopeField.name ∨ field.relation.isSome)

/-- The encoded value gives the column back, as far as values are told apart. -/
def Lossless (equal : Value → Value → Prop) (field : Field) (value : Value) : Prop :=
  ∃ read stored, field.toPython value.json.sortKeys = .ok read ∧ field.store read = .ok stored ∧ equal stored value

/-- Django refuses fields whose name is that of another field or of its column. -/
def Model.Unambiguous (model : Model) : Prop :=
  ∀ first ∈ model.fields, ∀ second ∈ model.fields, first.name = second.name ∨ first.name = second.attname → first = second

/-- A key that reads like a stored one is stored as that one. -/
def Model.Spelled (model : Model) : Prop :=
  ∀ value stored own, model.pk.store value = .ok stored → model.pk.store own = .ok own → own.text = value.text →
    stored.text = own.text

section Snapshots

variable {model : Model} {config : Registration model}
variable {members : List (String × Json)}

private theorem lookup_of_unique {name : String} {value : Json}
    (present : (name, value) ∈ members) (unique : ∀ entry ∈ members, entry.1 = name → entry.2 = value) :
    members.lookup name = some value := by
  induction members with
  | nil => cases present
  | cons entry members ih =>
    obtain ⟨key, own⟩ := entry
    by_cases same : key = name
    · subst same
      exact List.lookup_cons_self.trans (congrArg some (unique (key, own) List.mem_cons_self rfl))
    · have later : (name, value) ∈ members := (List.mem_cons.mp present).resolve_left fun equal =>
        same (congrArg Prod.fst equal).symm
      have other : (name == key) = false := beq_eq_false_iff_ne.mpr (Ne.symm same)
      rw [List.lookup_cons, other]
      exact ih later fun entry member => unique entry (List.mem_cons_of_mem _ member)

private theorem dict_keeps {name : String} {value : Json}
    (present : (name, value) ∈ members) (unique : ∀ entry ∈ members, entry.1 = name → entry.2 = value) :
    (name, value) ∈ members.pwFilter fun first second => first.1 ≠ second.1 := by
  by_contra absent
  have apart := (List.forall_mem_pwFilter (R := fun first second : String × Json => first.1 ≠ second.1)
    (fun {x y z} differ => by
      by_cases same : x.1 = y.1
      · exact .inr (same ▸ differ)
      · exact .inl same) (name, value) members).mp fun entry kept same => ?_
  · exact apart _ present rfl
  · have own := unique entry ((List.pwFilter_sublist members).subset kept) same.symm
    refine absent ?_
    obtain ⟨key, json⟩ := entry
    dsimp only at same own
    subst same own
    exact kept

private theorem member_sortKeys {name : String} {value : Json}
    (present : (name, value) ∈ members) (unique : ∀ entry ∈ members, entry.1 = name → entry.2 = value) :
    member (Json.obj members).sortKeys name = value.sortKeys := by
  have sorted : ∀ members : List (String × Json),
      Json.sortMembers members = members.map fun entry => (entry.1, entry.2.sortKeys) := by
    intro members
    induction members with
    | nil => rfl
    | cons entry members ih => simp only [Json.sortMembers, ih, List.map_cons]
  have found : ((Json.sortMembers members).insertionSort fun first second => first.1 ≤ second.1).lookup name =
      some value.sortKeys := by
    refine lookup_of_unique ?_ fun entry listed same => ?_
    · rw [(List.perm_insertionSort _ _).mem_iff, sorted]
      exact List.mem_map.mpr ⟨_, present, rfl⟩
    · rw [(List.perm_insertionSort _ _).mem_iff, sorted] at listed
      obtain ⟨own, listed', rfl⟩ := List.mem_map.mp listed
      rw [unique own listed' same]
  simp only [member, Json.sortKeys, found, Option.getD_some]

theorem snapshot_member {column : Columns} {json : Json} {field : Field}
    (names : model.Unambiguous) (taken : snapshot config column = .ok json) (registered : field ∈ config.fields) :
    member json field.name = (column field.attname).json.sortKeys := by
  have unique : ∀ entry ∈ config.fields.map fun field => (field.name, (column field.attname).json),
      entry.1 = field.name → entry.2 = (column field.attname).json := by
    intro entry listed same
    obtain ⟨other, listed', rfl⟩ := List.mem_map.mp listed
    rw [names other (config.fieldsMember _ listed') field (config.fieldsMember _ registered) (.inl same)]
  have present : (field.name, (column field.attname).json) ∈
      config.fields.map fun field => (field.name, (column field.attname).json) := List.mem_map.mpr ⟨_, registered, rfl⟩
  unfold snapshot plain at taken
  split at taken <;> cases taken
  exact member_sortKeys (dict_keeps present unique) fun entry kept same =>
    unique entry ((List.pwFilter_sublist _).subset kept) same

end Snapshots

section Columns

variable {config : Registration (app.model label)} {current target : Json}

private theorem foldlM_cons_ok {α β : Type} {step : β → α → Except Err β} {item : α} {items : List α} {start final : β}
    (folded : (item :: items).foldlM step start = .ok final) :
    ∃ next, step start item = .ok next ∧ items.foldlM step next = .ok final := by
  rw [List.foldlM_cons] at folded
  cases stepped : step start item with
  | error error => rw [stepped] at folded; cases folded
  | ok next => exact ⟨next, rfl, by rwa [stepped] at folded⟩

theorem restoreField_ok {field : Field} {before after : (String → Attr) × List String}
    (restored : restoreField config current target before field = .ok after) :
    (¬Restores config field ∧ after = before) ∨ (Restores config field ∧ ∃ value,
      field.toPython (member target field.name) = .ok value ∧
        after = (Function.update before.1 field.attname (.value value), before.2 ++ [field.name])) := by
  unfold restoreField at restored
  split at restored
  next stays =>
    refine .inl ⟨not_not.mpr stays, ?_⟩
    split at restored <;> cases restored
    rfl
  next free =>
    refine .inr ⟨free, ?_⟩
    cases read : field.toPython (member target field.name) with
    | error error => rw [read] at restored; cases restored
    | ok value =>
      rw [read] at restored
      cases restored
      exact ⟨value, rfl, rfl⟩

/-- What the loop over the registered fields has done when it ends. -/
structure SetBack (config : Registration (app.model label)) (target : Json) (fields : List Field)
    (before after : (String → Attr) × List String) : Prop where
  set : ∀ field ∈ fields, Restores config field → field.name ∈ after.2 ∧
    ∃ value, field.toPython (member target field.name) = .ok value ∧ after.1 field.attname = .value value
  named : ∀ name ∈ after.2, name ∈ before.2 ∨ ∃ field ∈ fields, Restores config field ∧ field.name = name
  kept : before.2 ⊆ after.2
  others : ∀ attname, after.1 attname = before.1 attname ∨ ∃ field ∈ fields, Restores config field ∧ field.attname = attname

private theorem setBack_fold {fields : List Field} {before after : (String → Attr) × List String}
    (members : ∀ field ∈ fields, field ∈ (app.model label).fields)
    (folded : fields.foldlM (restoreField config current target) before = .ok after) :
    SetBack config target fields before after := by
  induction fields generalizing before with
  | nil =>
    cases folded
    exact ⟨by simp, fun name listed => .inl listed, List.Subset.refl _, fun _ => .inl rfl⟩
  | cons field fields ih =>
    obtain ⟨next, stepped, rest⟩ := foldlM_cons_ok folded
    obtain ⟨here, inside⟩ := List.forall_mem_cons.mp members
    have later := ih inside rest
    have among {property : Field → Prop} (some : ∃ other ∈ fields, property other) : ∃ other ∈ field :: fields, property other :=
      let ⟨other, listed, holds⟩ := some
      ⟨other, List.mem_cons_of_mem _ listed, holds⟩
    rcases restoreField_ok stepped with ⟨stays, rfl⟩ | ⟨restores, value, read, rfl⟩
    · refine ⟨fun other listed restores => ?_, fun name listed => (later.named name listed).imp_right among, later.kept,
        fun attname => (later.others attname).imp_right among⟩
      rcases List.mem_cons.mp listed with rfl | listed
      · exact absurd restores stays
      · exact later.set other listed restores
    · refine ⟨fun other listed restores => ?_, fun name listed => ?_, fun name listed => later.kept (List.mem_append_left _ listed),
        fun attname => ?_⟩
      · rcases List.mem_cons.mp listed with rfl | listed
        · refine ⟨later.kept (List.mem_append_right _ List.mem_cons_self), ?_⟩
          rcases later.others other.attname with same | ⟨again, listed', restores', same⟩
          · exact ⟨value, read, same.trans (Function.update_self ..)⟩
          · obtain rfl := Model.field_eq (inside again listed') here same
            exact (later.set again listed' restores').2
        · exact later.set other listed restores
      · rcases later.named name listed with earlier | some
        · rcases List.mem_append.mp earlier with earlier | last
          · exact .inl earlier
          · exact .inr ⟨field, List.mem_cons_self, restores, (List.mem_singleton.mp last).symm⟩
        · exact .inr (among some)
      · rcases later.others attname with same | some
        · by_cases own : attname = field.attname
          · exact .inr ⟨field, List.mem_cons_self, restores, own.symm⟩
          · exact .inl (same.trans (Function.update_of_ne own ..))
        · exact .inr (among some)

theorem restoredFields_setBack {attr attr' : String → Attr} {updates : List String}
    (restored : restoredFields config current target attr = .ok (attr', updates)) :
    SetBack config target config.fields (attr, []) (attr', updates) :=
  setBack_fold config.fieldsMember restored

/-- What an UPDATE leaves in a column it writes. -/
theorem assign_written {old : Option Columns} {model : Model} {fields : List Field} {get : String → Attr}
    {column written : Columns} {field : Field} (members : ∀ field ∈ fields, field ∈ model.fields)
    (folded : (fields.map fun field => (field, get field.attname)).foldlM (assign old) column = .ok written)
    (listed : field ∈ fields) :
    ∃ value, (get field.attname).eval old = .ok value ∧ field.store value = .ok (written field.attname) := by
  induction fields generalizing column with
  | nil => cases listed
  | cons first fields ih =>
    obtain ⟨next, stepped, rest⟩ := foldlM_cons_ok folded
    obtain ⟨here, inside⟩ := List.forall_mem_cons.mp members
    by_cases later : field ∈ fields
    · exact ih inside rest later
    obtain rfl := (List.mem_cons.mp listed).resolve_right later
    have alone : ∀ assignment ∈ fields.map fun field => (field, get field.attname), assignment.1.attname ≠ field.attname := by
      intro assignment member same
      obtain ⟨other, listed', rfl⟩ := List.mem_map.mp member
      exact later (Model.field_eq (inside other listed') here same ▸ listed')
    rw [assign_other rest alone]
    unfold assign at stepped
    cases evaluated : (get field.attname).eval old with
    | error error => rw [evaluated] at stepped; cases stepped
    | ok value =>
      cases stored : field.store value with
      | error error => simp only [evaluated, stored, bind, Except.bind, reduceCtorEq] at stepped
      | ok own =>
        simp only [evaluated, stored, bind, Except.bind, pure, Except.pure, Except.ok.injEq] at stepped
        refine ⟨value, rfl, ?_⟩
        rw [← stepped, Function.update_self]
        exact stored

/-- The columns of a row after its restored fields were written. -/
theorem assignAll_restored {attr : String → Attr} {updates : List String} {pk : Value} {text : String} {adding : Bool}
    {old new : Row (app.model label) text} (names : (app.model label).Unambiguous)
    (back : SetBack config target config.fields before (attr, updates)) (start : before.2 = [])
    (known : updatable (app.model label) updates = true)
    (written : assignAll ((Instance.mk pk attr adding).assignments (app.model label)
      (writtenFields (app.model label) (some updates))) old = .ok new) :
    (∀ field ∈ config.fields, Restores config field → ∃ value,
        field.toPython (member target field.name) = .ok value ∧ field.store value = .ok (new.column field.attname)) ∧
      (∀ attname, (∀ field ∈ config.fields, Restores config field → field.attname ≠ attname) →
        new.column attname = old.column attname) ∧
      ∀ field ∈ config.fields, Restores config field → field.attname ≠ (app.model label).pk.attname := by
  unfold assignAll at written
  cases folded : ((Instance.mk pk attr adding).assignments (app.model label)
      (writtenFields (app.model label) (some updates))).foldlM (assign (some old.column)) old.column with
  | error error => rw [folded] at written; cases written
  | ok column =>
    rw [folded] at written
    have same : new.column = column := Row.make_column written
    have inside : ∀ field ∈ writtenFields (app.model label) (some updates), field ∈ (app.model label).fields ∧
        field.attname ≠ (app.model label).pk.attname ∧ (field.name ∈ updates ∨ field.attname ∈ updates) := by
      intro field listed
      simp only [writtenFields, List.mem_filter, decide_eq_true_eq, Bool.or_eq_true, List.contains_iff_mem] at listed
      exact ⟨listed.1.1, listed.1.2, listed.2⟩
    have written : ∀ field ∈ config.fields, Restores config field →
        field ∈ writtenFields (app.model label) (some updates) := by
      intro field listed restores
      have named := (back.set field listed restores).1
      obtain ⟨other, free, matched⟩ := List.any_eq_true.mp (List.all_eq_true.mp known _ named)
      simp only [writtenFields, List.mem_filter, decide_eq_true_eq] at free
      simp only [Bool.or_eq_true, decide_eq_true_eq] at matched
      have same : field = other :=
        names field (config.fieldsMember field listed) other free.1 (matched.imp Eq.symm Eq.symm)
      subst same
      simp only [writtenFields, List.mem_filter, decide_eq_true_eq, Bool.or_eq_true, List.contains_iff_mem]
      exact ⟨free, .inl named⟩
    rw [same]
    refine ⟨fun field listed restores => ?_, fun attname others => ?_,
      fun field listed restores => (inside field (written field listed restores)).2.1⟩
    · obtain ⟨named, value, read, set⟩ := back.set field listed restores
      have written := written field listed restores
      obtain ⟨value', evaluated, stored⟩ := assign_written (fun field listed => (inside field listed).1) folded written
      rw [Instance.get, if_neg (inside field written).2.1] at evaluated
      have evaluated : (attr field.attname).eval (some old.column) = .ok value' := evaluated
      have set : attr field.attname = .value value := set
      rw [set] at evaluated
      obtain rfl : value = value' := Except.ok.inj evaluated
      exact ⟨value, read, stored⟩
    · refine assign_other folded fun assignment member => ?_
      obtain ⟨field, listed, rfl⟩ := List.mem_map.mp member
      obtain ⟨member, _, named⟩ := inside field listed
      have restored : ∀ name ∈ updates, ∃ field ∈ config.fields, Restores config field ∧ field.name = name := by
        intro name listed
        rcases back.named name listed with earlier | some
        · rw [start] at earlier
          cases earlier
        · exact some
      have found : ∃ other ∈ config.fields, Restores config other ∧ other = field := by
        rcases named with named | named
        · obtain ⟨other, listed', restores, same⟩ := restored _ named
          exact ⟨other, listed', restores, names _ (config.fieldsMember other listed') _ member (.inl same)⟩
        · obtain ⟨other, listed', restores, same⟩ := restored _ named
          exact ⟨other, listed', restores, names _ (config.fieldsMember other listed') _ member (.inr same)⟩
      obtain ⟨other, listed', restores, rfl⟩ := found
      exact others other listed' restores

end Columns

end PyScoped
