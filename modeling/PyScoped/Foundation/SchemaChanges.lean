import Mathlib.Data.Finset.Basic

/-! Statements that change a schema, seen as the set of effects that are there: a
table, a column, a policy. Some fail where they have nothing to do. -/

namespace Foundation

inductive SchemaChange (ε : Type) where
  | add (effect : ε)
  | ensure (effect : ε)
  | drop (effect : ε)
  | discard (effect : ε)

namespace SchemaChange

variable {ε : Type} [DecidableEq ε]

def effect : SchemaChange ε → ε
  | add effect | ensure effect | drop effect | discard effect => effect

/-- Adding fails where the effect is there, dropping where it is not. -/
def apply : SchemaChange ε → Finset ε → Option (Finset ε)
  | add effect, schema => if effect ∈ schema then none else some (insert effect schema)
  | ensure effect, schema => some (insert effect schema)
  | drop effect, schema => if effect ∈ schema then some (schema.erase effect) else none
  | discard effect, schema => some (schema.erase effect)

/-- The statements of a script, each on what the ones before have left. -/
def run : List (SchemaChange ε) → Finset ε → Option (Finset ε)
  | [], schema => some schema
  | change :: changes, schema => (change.apply schema).bind (run changes)

def touched (changes : List (SchemaChange ε)) : Finset ε := (changes.map effect).toFinset

/-- Schemas that do not differ in some effects. -/
def Agree (effects first second : Finset ε) : Prop := ∀ effect ∈ effects, effect ∈ first ↔ effect ∈ second

variable {change : SchemaChange ε} {changes : List (SchemaChange ε)} {effects schema after model model' : Finset ε}

omit [DecidableEq ε] in
theorem Agree.trans (first : Agree effects schema after) (second : Agree effects after model) : Agree effects schema model :=
  fun effect inside => (first effect inside).trans (second effect inside)

theorem apply_other (applied : change.apply schema = some after) {other : ε} (different : other ≠ change.effect) :
    other ∈ after ↔ other ∈ schema := by
  cases change with
  | add effect =>
    rw [apply] at applied
    split at applied
    · cases applied
    · cases applied
      exact Finset.mem_insert.trans (or_iff_right different)
  | ensure effect =>
    cases applied
    exact Finset.mem_insert.trans (or_iff_right different)
  | drop effect =>
    rw [apply] at applied
    split at applied
    · cases applied
      exact Finset.mem_erase.trans (and_iff_right different)
    · cases applied
  | discard effect =>
    cases applied
    exact Finset.mem_erase.trans (and_iff_right different)

/-- What a statement does depends on its own effect only. -/
theorem apply_agree (same : change.effect ∈ schema ↔ change.effect ∈ model) (applied : change.apply model = some model') :
    ∃ after, change.apply schema = some after ∧ (change.effect ∈ after ↔ change.effect ∈ model') := by
  cases change with
  | add effect =>
    have same : effect ∈ schema ↔ effect ∈ model := same
    rw [apply] at applied ⊢
    split at applied
    · cases applied
    next free =>
      cases applied
      exact ⟨insert effect schema, if_neg fun taken => free (same.mp taken), by simp [SchemaChange.effect]⟩
  | ensure effect =>
    cases applied
    exact ⟨insert effect schema, rfl, by simp [SchemaChange.effect]⟩
  | drop effect =>
    have same : effect ∈ schema ↔ effect ∈ model := same
    rw [apply] at applied ⊢
    split at applied
    next present =>
      cases applied
      exact ⟨schema.erase effect, if_pos (same.mpr present), by simp [SchemaChange.effect]⟩
    · cases applied
  | discard effect =>
    cases applied
    exact ⟨schema.erase effect, rfl, by simp [SchemaChange.effect]⟩

theorem run_append (first second : List (SchemaChange ε)) (schema : Finset ε) :
    run (first ++ second) schema = (run first schema).bind (run second) := by
  induction first generalizing schema with
  | nil => rfl
  | cons change first ih =>
    rw [List.cons_append, run, run]
    cases change.apply schema with
    | none => rfl
    | some middle => exact ih middle

/-- A script that runs through can be stopped anywhere. -/
theorem run_take (ran : run changes schema = some after) (n : Nat) : ∃ middle, run (changes.take n) schema = some middle := by
  rw [← List.take_append_drop n changes, run_append] at ran
  obtain ⟨middle, first, -⟩ := Option.bind_eq_some_iff.mp ran
  exact ⟨middle, first⟩

theorem run_other (ran : run changes schema = some after) {other : ε} (apart : other ∉ touched changes) :
    other ∈ after ↔ other ∈ schema := by
  induction changes generalizing schema with
  | nil =>
    cases ran
    exact Iff.rfl
  | cons change changes ih =>
    obtain ⟨middle, first, rest⟩ := Option.bind_eq_some_iff.mp ran
    simp only [touched, List.map_cons, List.toFinset_cons, Finset.mem_insert, not_or] at apart
    exact (ih rest apart.2).trans (apply_other first apart.1)

/-- What a script does depends on the effects that it touches. -/
theorem run_agree (covers : touched changes ⊆ effects) (agree : Agree effects schema model) (ran : run changes model = some model') :
    ∃ after, run changes schema = some after ∧ Agree effects after model' := by
  induction changes generalizing schema model with
  | nil =>
    cases ran
    exact ⟨schema, rfl, agree⟩
  | cons change changes ih =>
    obtain ⟨middle, first, rest⟩ := Option.bind_eq_some_iff.mp ran
    simp only [touched, List.map_cons, List.toFinset_cons, Finset.insert_subset_iff] at covers
    obtain ⟨middle', first', same⟩ := apply_agree (agree change.effect covers.1) first
    have agree' : Agree effects middle' middle := by
      intro effect inside
      by_cases own : effect = change.effect
      · rw [own]
        exact same
      · exact (apply_other first' own).trans ((agree effect inside).trans (apply_other first own).symm)
    obtain ⟨after, rest', agree''⟩ := ih covers.2 agree' rest
    exact ⟨after, by rw [run, first', Option.bind_some, rest'], agree''⟩

theorem touched_take (n : Nat) (changes : List (SchemaChange ε)) : touched (changes.take n) ⊆ touched changes := by
  intro effect inside
  rw [touched, List.mem_toFinset] at inside ⊢
  exact ((List.take_sublist n changes).map SchemaChange.effect).subset inside

/-- A script that brings about effects which are not there yet. -/
theorem run_made (makes : ∀ change ∈ changes, change = add change.effect ∨ change = ensure change.effect)
    (nodup : (changes.map effect).Nodup) (fresh : ∀ change ∈ changes, change.effect ∉ schema) :
    run changes schema = some (schema ∪ touched changes) := by
  induction changes generalizing schema with
  | nil => simp [run, touched]
  | cons change changes ih =>
    obtain ⟨alone, nodup⟩ := List.nodup_cons.mp nodup
    obtain ⟨first, makes⟩ := List.forall_mem_cons.mp makes
    obtain ⟨unknown, fresh⟩ := List.forall_mem_cons.mp fresh
    have made : change.apply schema = some (insert change.effect schema) := by
      rcases first with added | ensured
      · rw [added]
        exact if_neg unknown
      · rw [ensured]
        rfl
    have fresh' : ∀ other ∈ changes, other.effect ∉ insert change.effect schema := by
      intro other inside known
      rcases Finset.mem_insert.mp known with same | known
      · exact alone (List.mem_map.mpr ⟨other, inside, same⟩)
      · exact fresh other inside known
    rw [run, made, Option.bind_some, ih makes nodup fresh']
    congr 1
    ext other
    simp only [touched, List.map_cons, List.toFinset_cons, Finset.mem_union, Finset.mem_insert]
    tauto

/-- A script that takes back whatever is there of some effects. -/
theorem run_discarded (discards : ∀ change ∈ changes, change = discard change.effect) :
    run changes schema = some (schema \ touched changes) := by
  induction changes generalizing schema with
  | nil => simp [run, touched]
  | cons change changes ih =>
    obtain ⟨first, discards⟩ := List.forall_mem_cons.mp discards
    have discarded : change.apply schema = some (schema.erase change.effect) := by
      rw [first]
      rfl
    rw [run, discarded, Option.bind_some, ih discards]
    congr 1
    ext other
    simp only [touched, List.map_cons, List.toFinset_cons, Finset.mem_sdiff, Finset.mem_erase, Finset.mem_insert]
    tauto

end SchemaChange
end Foundation
