import Mathlib.Data.List.Sort

/-! Sorting by insertion leaves what is equal in the order in which it came.
Selecting commutes with it, and what comes last goes behind everything that is
not greater. -/

namespace Foundation.StableOrder

variable {α : Type} (r : α → α → Prop) [DecidableRel r]

theorem filter_orderedInsert [IsTrans α r] (selected : α → Bool) (item : α) {items : List α} (sorted : items.Pairwise r) :
    (items.orderedInsert r item).filter selected =
      if selected item then (items.filter selected).orderedInsert r item else items.filter selected := by
  induction items with
  | nil => cases chosen : selected item <;> simp [chosen]
  | cons head tail ih =>
    obtain ⟨below, sorted'⟩ := List.pairwise_cons.mp sorted
    by_cases before : r item head
    · rw [List.orderedInsert_cons_of_le r tail before, List.filter_cons]
      split
      · -- Everything that stays is behind the item as well.
        cases kept : (head :: tail).filter selected with
        | nil => rfl
        | cons first rest =>
          have member : first ∈ head :: tail := (List.mem_filter.mp (kept ▸ List.mem_cons_self)).1
          have ahead : r item first := by
            rcases List.mem_cons.mp member with rfl | inside
            · exact before
            · exact Trans.trans before (below first inside)
          rw [List.orderedInsert_cons_of_le r rest ahead]
      · rfl
    · rw [List.orderedInsert_of_not_le r tail before, List.filter_cons, ih sorted', List.filter_cons]
      split
      · split
        · rw [List.orderedInsert_of_not_le r _ before]
        · rfl
      · rfl

theorem filter_insertionSort [IsTrans α r] [Std.Total r] (selected : α → Bool) (items : List α) :
    (items.insertionSort r).filter selected = (items.filter selected).insertionSort r := by
  induction items with
  | nil => rfl
  | cons item items ih =>
    rw [List.insertionSort_cons, filter_orderedInsert r selected item (List.pairwise_insertionSort r items), ih,
      List.filter_cons]
    split
    · rw [List.insertionSort_cons]
    · rfl

/-- An item goes into the part in front, where something behind it is not smaller. -/
theorem orderedInsert_append_left {item next : α} (ahead : r item next) (front rest : List α) :
    (front ++ next :: rest).orderedInsert r item = front.orderedInsert r item ++ next :: rest := by
  induction front with
  | nil => simp [ahead]
  | cons head front ih =>
    by_cases before : r item head
    · simp [List.orderedInsert, before]
    · simp [List.orderedInsert, before, ih]

/-- An item goes into the part behind, where nothing in front of it is as great. -/
theorem orderedInsert_append_right {item : α} {front : List α} (behind : ∀ other ∈ front, ¬ r item other) (rest : List α) :
    (front ++ rest).orderedInsert r item = front ++ rest.orderedInsert r item := by
  induction front with
  | nil => rfl
  | cons head front ih =>
    have passes : ¬ r item head := behind head List.mem_cons_self
    rw [List.cons_append, List.orderedInsert_of_not_le r _ passes,
      ih fun other member => behind other (List.mem_cons_of_mem head member)]
    rfl

theorem insertionSort_snoc [IsTrans α r] [Std.Total r] (items : List α) (last : α) :
    (items ++ [last]).insertionSort r =
      ((items.insertionSort r).filter fun item => r item last) ++
        last :: (items.insertionSort r).filter fun item => !decide (r item last) := by
  induction items with
  | nil => rfl
  | cons item items ih =>
    have sorted := List.pairwise_insertionSort r items
    rw [List.cons_append, List.insertionSort_cons, ih, List.insertionSort_cons, filter_orderedInsert r _ item sorted,
      filter_orderedInsert r _ item sorted]
    by_cases ahead : r item last
    · rw [orderedInsert_append_left r ahead]
      simp [ahead]
    · have behind : ∀ other ∈ (items.insertionSort r).filter fun other => r other last, ¬ r item other := by
        intro other member passes
        exact ahead (Trans.trans passes (of_decide_eq_true (List.mem_filter.mp member).2))
      rw [orderedInsert_append_right r behind, List.orderedInsert_of_not_le r _ ahead]
      simp [ahead]

/-- What comes last and is nowhere smaller stays behind, in its order. -/
theorem insertionSort_append {items : List α} : ∀ {rest : List α}, (∀ item ∈ items, ∀ last ∈ rest, r item last) →
    rest.Pairwise r → (items ++ rest).insertionSort r = items.insertionSort r ++ rest := by
  intro rest
  induction items with
  | nil => exact fun _ sorted => List.Pairwise.insertionSort_eq sorted
  | cons item items ih =>
    intro below sorted
    rw [List.cons_append, List.insertionSort_cons, ih (fun other member => below other (List.mem_cons_of_mem item member)) sorted,
      List.insertionSort_cons]
    cases rest with
    | nil => simp
    | cons next rest => exact orderedInsert_append_left r (below item List.mem_cons_self next List.mem_cons_self) _ rest

omit [DecidableRel r] in
/-- A sorted list is what a lower part selects, and behind it the rest. -/
theorem filter_append_rest {selected : α → Bool}
    (lower : ∀ first second, r first second → selected second = true → selected first = true) {items : List α}
    (sorted : items.Pairwise r) : items.filter selected ++ items.filter (fun item => !selected item) = items := by
  induction items with
  | nil => rfl
  | cons item items ih =>
    obtain ⟨below, sorted'⟩ := List.pairwise_cons.mp sorted
    cases chosen : selected item with
    | true => simp [chosen, ih sorted']
    | false =>
      have none : items.filter selected = [] := by
        rw [List.filter_eq_nil_iff]
        intro other member kept
        rw [lower item other (below other member) kept] at chosen
        cases chosen
      have rest := ih sorted'
      rw [none, List.nil_append] at rest
      simp [chosen, none, rest]

end Foundation.StableOrder
