import Mathlib.Data.List.Forall2
import Mathlib.Data.List.Count

/-! Texts joined by a separator. The joined text gives back its fields exactly
where the number of separators inside each field is known; a separator inside
a field can otherwise be read as the end of that field. -/

namespace Foundation.Fields

variable {α : Type*} [DecidableEq α] {sep : α}

/-- Fields in order, each followed by the separator, and a last field. -/
def join (sep : α) : List (List α) → List α → List α
  | [], last => last
  | field :: fields, last => field ++ sep :: join sep fields last

omit [DecidableEq α] in
theorem split_append {first second rest other : List α} (same : first ++ sep :: rest = second ++ sep :: other) :
    (first = second ∧ rest = other) ∨ (∃ extra, second = first ++ sep :: extra) ∨
      ∃ extra, first = second ++ sep :: extra := by
  rcases List.append_eq_append_iff.mp same with ⟨middle, rfl, tail⟩ | ⟨middle, rfl, tail⟩
  · cases middle with
    | nil => exact .inl ⟨by simp, by simpa using tail⟩
    | cons c middle =>
      obtain ⟨rfl, _⟩ := List.cons.inj tail
      exact .inr (.inl ⟨middle, rfl⟩)
  · cases middle with
    | nil => exact .inl ⟨by simp, by simpa using tail.symm⟩
    | cons c middle =>
      obtain ⟨rfl, _⟩ := List.cons.inj tail
      exact .inr (.inr ⟨middle, rfl⟩)

/-- A field with a known number of separators ends where its text ends. -/
theorem field_unique {first second rest other : List α} (counts : first.count sep = second.count sep)
    (same : first ++ sep :: rest = second ++ sep :: other) : first = second ∧ rest = other := by
  rcases split_append same with equal | ⟨extra, rfl⟩ | ⟨extra, rfl⟩
  · exact equal
  · simp only [List.count_append, List.count_cons_self] at counts
    omega
  · simp only [List.count_append, List.count_cons_self] at counts
    omega

theorem field_unique_of_not_mem {first second rest other : List α} (plain : sep ∉ first) (plain' : sep ∉ second)
    (same : first ++ sep :: rest = second ++ sep :: other) : first = second ∧ rest = other :=
  field_unique ((List.count_eq_zero.mpr plain).trans (List.count_eq_zero.mpr plain').symm) same

theorem join_inj (sep : α) {fields fields' : List (List α)} {last last' : List α}
    (counts : List.Forall₂ (fun field field' => field.count sep = field'.count sep) fields fields')
    (same : join sep fields last = join sep fields' last') : fields = fields' ∧ last = last' := by
  induction counts with
  | nil => exact ⟨rfl, same⟩
  | cons count _ ih =>
    obtain ⟨rfl, rest⟩ := field_unique count same
    obtain ⟨rfl, equal⟩ := ih rest
    exact ⟨rfl, equal⟩

end Foundation.Fields
