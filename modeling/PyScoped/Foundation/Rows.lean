import Mathlib.Data.List.Nodup
import Mathlib.Logic.Function.Basic

/-! A table: rows under a unique key, in the order in which they were inserted.
What the statements leave behind is read row by row, through the key. -/

namespace Foundation

variable {α κ : Type}

@[ext]
structure Rows (key : α → κ) where
  list : List α
  unique : (list.map key).Nodup

namespace Rows

variable {key : α → κ}

def empty : Rows key := ⟨[], List.nodup_nil⟩

/-- The rows where a condition holds are changed, which leaves their keys alone. -/
def update (rows : Rows key) (chosen : α → Bool) (change : α → α) (keeps : ∀ row, key (change row) = key row) :
    Rows key where
  list := rows.list.map fun row => if chosen row then change row else row
  unique := by
    have same : ∀ row, key (if chosen row then change row else row) = key row := by
      intro row
      split
      · exact keeps row
      · rfl
    simpa only [List.map_map, Function.comp_def, same] using rows.unique

def delete (rows : Rows key) (chosen : α → Bool) : Rows key where
  list := rows.list.filter fun row => !chosen row
  unique := rows.unique.sublist (List.filter_sublist.map key)

variable {rows : Rows key}

/-- An update that changes nothing where it applies. -/
theorem update_eq_self {chosen : α → Bool} {change : α → α} (keeps : ∀ row, key (change row) = key row)
    (same : ∀ row ∈ rows.list, chosen row = true → change row = row) : rows.update chosen change keeps = rows := by
  apply Rows.ext
  refine (List.map_congr_left fun row member => ?_).trans (List.map_id _)
  split
  next held => exact same row member held
  · rfl

/-- An update that takes another one back. -/
theorem update_update_eq_self {chosen : α → Bool} {change back : α → α}
    (keeps : ∀ row, key (change row) = key row) (keeps' : ∀ row, key (back row) = key row)
    (still : ∀ row, chosen (change row) = chosen row) (same : ∀ row ∈ rows.list, chosen row = true → back (change row) = row) :
    (rows.update chosen change keeps).update chosen back keeps' = rows := by
  apply Rows.ext
  simp only [update, List.map_map]
  refine (List.map_congr_left fun row member => ?_).trans (List.map_id _)
  by_cases held : chosen row = true
  · simp only [Function.comp_apply, if_pos held, still, same row member held, id_eq]
  · simp only [Function.comp_apply, if_neg held, id_eq]

variable [DecidableEq κ]

def find (rows : Rows key) (wanted : κ) : Option α := rows.list.find? fun row => key row = wanted

/-- The new row comes last; none where its key is taken. -/
def insert (rows : Rows key) (row : α) : Option (Rows key) :=
  if free : key row ∉ rows.list.map key then
    some ⟨rows.list ++ [row], by simpa [List.nodup_append, rows.unique] using free⟩
  else none

theorem find_eq_some {wanted : κ} {row : α} :
    rows.find wanted = some row ↔ row ∈ rows.list ∧ key row = wanted := by
  constructor
  · intro found
    exact ⟨List.mem_of_find?_eq_some found, by simpa using List.find?_some found⟩
  · rintro ⟨member, rfl⟩
    obtain ⟨other, found⟩ : ∃ other, rows.find (key row) = some other :=
      Option.isSome_iff_exists.mp (List.find?_isSome.mpr ⟨row, member, by simp⟩)
    have same : key other = key row := by simpa using List.find?_some found
    rw [found, List.inj_on_of_nodup_map rows.unique (List.mem_of_find?_eq_some found) member same]

theorem find_eq_none {wanted : κ} : rows.find wanted = none ↔ ∀ row ∈ rows.list, key row ≠ wanted := by
  simp [find]

theorem find_mem {row : α} (member : row ∈ rows.list) : rows.find (key row) = some row :=
  find_eq_some.mpr ⟨member, rfl⟩

/-- At most one row has a key. -/
theorem filter_key (rows : Rows key) (wanted : κ) : rows.list.filter (fun row => key row = wanted) = (rows.find wanted).toList := by
  obtain ⟨list, unique⟩ := rows
  unfold find
  dsimp only
  induction list with
  | nil => rfl
  | cons first list ih =>
    rw [List.map_cons, List.nodup_cons] at unique
    by_cases same : key first = wanted
    · have others : list.filter (fun row => key row = wanted) = [] := by
        apply List.filter_eq_nil_iff.mpr
        intro row member equal
        exact unique.1 (List.mem_map.mpr ⟨row, member, (of_decide_eq_true equal).trans same.symm⟩)
      rw [List.filter_cons_of_pos (by simpa using same), List.find?_cons_of_pos (by simpa using same), others]
      rfl
    · rw [List.filter_cons_of_neg (by simpa using same), List.find?_cons_of_neg (by simpa using same), ih unique.2]

theorem any_key (rows : Rows key) (wanted : κ) (chosen : α → Bool) :
    (rows.list.any fun row => key row = wanted && chosen row) = (rows.find wanted).any chosen := by
  rw [← List.any_filter, filter_key]
  cases rows.find wanted <;> simp

theorem find_update (rows : Rows key) (chosen : α → Bool) (change : α → α) (keeps : ∀ row, key (change row) = key row)
    (wanted : κ) : (rows.update chosen change keeps).find wanted =
      (rows.find wanted).map fun row => if chosen row then change row else row := by
  have same : ∀ row, key (if chosen row then change row else row) = key row := by
    intro row
    split
    · exact keeps row
    · rfl
  simp only [find, update, List.find?_map, Function.comp_def, same]

theorem find_delete (rows : Rows key) (chosen : α → Bool) (wanted : κ) :
    (rows.delete chosen).find wanted = (rows.find wanted).filter fun row => !chosen row := by
  cases found : rows.find wanted with
  | none =>
    rw [Option.filter_none, find_eq_none]
    intro row member
    exact find_eq_none.mp found row (List.mem_filter.mp member).1
  | some row =>
    obtain ⟨member, same⟩ := find_eq_some.mp found
    cases kept : chosen row with
    | false =>
      rw [Option.filter_some, if_pos (by simp [kept]), find_eq_some]
      exact ⟨List.mem_filter.mpr ⟨member, by simp [kept]⟩, same⟩
    | true =>
      rw [Option.filter_some, if_neg (by simp [kept]), find_eq_none]
      intro other inside equal
      obtain ⟨present, remains⟩ := List.mem_filter.mp inside
      have : other = row := List.inj_on_of_nodup_map rows.unique present member (equal.trans same.symm)
      subst other
      simp [kept] at remains

theorem insert_eq_some {after : Rows key} {row : α} (inserted : rows.insert row = some after) :
    rows.find (key row) = none ∧ after.list = rows.list ++ [row] := by
  unfold insert at inserted
  split at inserted
  · next free =>
    cases inserted
    exact ⟨find_eq_none.mpr fun other member same => free (List.mem_map.mpr ⟨other, member, same⟩), rfl⟩
  · cases inserted

theorem insert_eq_none {row : α} : rows.insert row = none ↔ (rows.find (key row)).isSome = true := by
  unfold insert
  split
  · next free =>
    simp only [reduceCtorEq, false_iff, Bool.not_eq_true, Option.isSome_eq_false_iff, Option.isNone_iff_eq_none]
    exact find_eq_none.mpr fun other member same => free (List.mem_map.mpr ⟨other, member, same⟩)
  · next taken =>
    obtain ⟨other, member, same⟩ := List.mem_map.mp (not_not.mp taken)
    simp only [true_iff]
    exact Option.isSome_iff_exists.mpr ⟨other, find_eq_some.mpr ⟨member, same⟩⟩

theorem find_insert {after : Rows key} {row : α} (inserted : rows.insert row = some after) (wanted : κ) :
    after.find wanted = if wanted = key row then some row else rows.find wanted := by
  obtain ⟨free, list⟩ := insert_eq_some inserted
  unfold find at free ⊢
  rw [list, List.find?_append]
  by_cases same : wanted = key row
  · subst wanted
    rw [free, if_pos rfl]
    simp
  · rw [if_neg same, List.find?_cons_of_neg (by simpa using Ne.symm same), List.find?_nil, Option.or_none]

end Rows
end Foundation
