import Mathlib.Data.List.Basic

/-! Recursive queries. Each round joins the rows of the round before it, and the
rows of all rounds are put together, repeated rows included. -/

namespace Foundation.RecursiveQuery

variable {α β : Type}

def round (next : α → List α) (base : List α) : Nat → List α
  | 0 => base
  | n + 1 => (round next base n).flatMap next

/-- `WITH RECURSIVE base UNION ALL next`, over so many rounds behind the first one. -/
def unionAll (next : α → List α) : Nat → List α → List α
  | 0, rows => rows
  | rounds + 1, rows => rows ++ unionAll next rounds (rows.flatMap next)

variable {next : α → List α} {base : List α} {row : α}

theorem round_flatMap (next : α → List α) (base : List α) (n : Nat) :
    round next (base.flatMap next) n = round next base (n + 1) := by
  induction n with
  | zero => rfl
  | succ n ih => rw [round, ih, round.eq_2 next base (n + 1)]

/-- The rounds, put together. -/
theorem unionAll_eq (next : α → List α) (rounds : Nat) (base : List α) :
    unionAll next rounds base = (List.range (rounds + 1)).flatMap (round next base) := by
  induction rounds generalizing base with
  | zero =>
    rw [unionAll, List.range_one, List.flatMap_singleton]
    rfl
  | succ rounds ih =>
    have first : List.range (rounds + 1 + 1) = 0 :: (List.range (rounds + 1)).map Nat.succ := List.range_succ_eq_map
    rw [unionAll, ih, first, List.flatMap_cons, List.flatMap_map]
    apply congrArg (base ++ ·)
    apply List.flatMap_congr
    intro n _
    exact round_flatMap next base n

theorem mem_unionAll {rounds : Nat} : row ∈ unionAll next rounds base ↔ ∃ n ≤ rounds, row ∈ round next base n := by
  rw [unionAll_eq, List.mem_flatMap]
  apply exists_congr
  intro n
  rw [List.mem_range, Nat.lt_succ_iff]

section Depth

/-- The rows behind a row, one deeper than it is, while it is above the limit. -/
def deepen (limit : Nat) (next : β → List β) (row : β × Nat) : List (β × Nat) :=
  if row.2 < limit then (next row.1).map fun below => (below, row.2 + 1) else []

variable {limit n : Nat} {next : β → List β} {base : List β} {row : β × Nat}

/-- The depth of a row is its round. -/
theorem round_deepen (within : n ≤ limit) :
    round (deepen limit next) (base.map fun row => (row, 0)) n = (round next base n).map fun row => (row, n) := by
  induction n with
  | zero => rfl
  | succ n ih =>
    rw [round, ih (Nat.le_of_succ_le within), round, List.flatMap_map, List.map_flatMap]
    apply List.flatMap_congr
    intro row _
    exact if_pos within

theorem mem_deepen : row ∈ unionAll (deepen limit next) limit (base.map fun row => (row, 0)) ↔
    row.2 ≤ limit ∧ row.1 ∈ round next base row.2 := by
  rw [mem_unionAll]
  constructor
  · intro found
    obtain ⟨n, bound, member⟩ := found
    rw [round_deepen bound] at member
    obtain ⟨reached, inside, rfl⟩ := List.mem_map.mp member
    exact ⟨bound, inside⟩
  · intro found
    obtain ⟨bound, reached⟩ := found
    refine ⟨row.2, bound, ?_⟩
    rw [round_deepen bound]
    exact List.mem_map.mpr ⟨row.1, reached, rfl⟩

end Depth

section Climbing

/-- So many steps along a partial function. -/
def climb (step : β → Option β) : Nat → β → Option β
  | 0, start => some start
  | n + 1, start => (step start).bind (climb step n)

theorem climb_succ (step : β → Option β) (n : Nat) (start : β) : climb step (n + 1) start = (climb step n start).bind step := by
  induction n generalizing start with
  | zero =>
    rw [climb, climb, Option.bind_some]
    cases step start <;> rfl
  | succ n ih =>
    rw [climb, climb]
    cases step start with
    | none => rfl
    | some above => exact ih above

/-- Where a row has at most one behind it, the rounds follow the function. -/
theorem round_climb (step : β → Option β) (base : List β) (n : Nat) :
    round (fun row => (step row).toList) base n = base.filterMap (climb step n) := by
  induction n with
  | zero => exact List.filterMap_some.symm
  | succ n ih =>
    rw [round, ih, ← List.filterMap_eq_flatMap_toList, List.filterMap_filterMap]
    apply List.filterMap_congr
    intro start _
    exact (climb_succ step n start).symm

end Climbing

end Foundation.RecursiveQuery
