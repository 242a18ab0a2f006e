import Mathlib.Data.List.Sort

/-! A walk over rows by pages. A page is a limited number of rows from a key on;
the next one begins after the last key of the page before it. -/

namespace Foundation.Paging

variable {α σ ε : Type} (key : α → Int)

def page (rows : List α) (start : Int) (limit : Nat) : List α := (rows.filter fun row => start ≤ key row).take limit

/-- A page that is not full is the last one. -/
def walk (step : σ → α → Except ε σ) (rows : List α) (limit : Nat) : Nat → Int → σ → Except ε σ
  | 0, _, state => .ok state
  | rounds + 1, start, state =>
    match page key rows start limit with
    | [] => .ok state
    | row :: more => do
      let state ← (row :: more).foldlM step state
      if (row :: more).length < limit then .ok state
      else walk step rows limit rounds (key ((row :: more).getLast (List.cons_ne_nil row more)) + 1) state

variable {key}

/-- Behind a full page, the rows are those after its last key. -/
theorem filter_after {rows before after : List α} (sorted : rows.Pairwise fun first second => key first < key second)
    {start : Int} (split : rows.filter (fun row => start ≤ key row) = before ++ after) (filled : before ≠ []) :
    rows.filter (fun row => key (before.getLast filled) + 1 ≤ key row) = after := by
  have ordered : (before ++ after).Pairwise fun first second => key first < key second := split ▸ sorted.filter _
  obtain ⟨-, -, across⟩ := List.pairwise_append.mp ordered
  have late : start ≤ key (before.getLast filled) := by
    have member : before.getLast filled ∈ rows.filter fun row => start ≤ key row :=
      split ▸ List.mem_append_left _ (List.getLast_mem filled)
    simpa using (List.mem_filter.mp member).2
  have twice : rows.filter (fun row => key (before.getLast filled) + 1 ≤ key row) =
      (rows.filter fun row => start ≤ key row).filter fun row => key (before.getLast filled) + 1 ≤ key row := by
    rw [List.filter_filter]
    refine List.filter_congr fun row _ => ?_
    simp only [← Bool.decide_and, decide_eq_decide]
    omega
  have early : ∀ row ∈ before, ¬ key (before.getLast filled) + 1 ≤ key row := by
    intro row member
    have parted := List.dropLast_concat_getLast filled
    have last : key row ≤ key (before.getLast filled) := by
      rw [← parted] at member
      rcases List.mem_append.mp member with earlier | same
      · have within := (List.pairwise_append.mp ordered).1
        rw [← parted] at within
        exact ((List.pairwise_append.mp within).2.2 row earlier _ (List.mem_singleton_self _)).le
      · rw [List.mem_singleton.mp same]
    omega
  rw [twice, split, List.filter_append, List.filter_eq_nil_iff.mpr (fun row member => by simpa using early row member),
    List.filter_eq_self.mpr, List.nil_append]
  intro row member
  have less := across _ (List.getLast_mem filled) row member
  exact decide_eq_true (by omega)

/-- Whatever the limit, the pages make one walk over the rows from the start on. -/
theorem walk_eq {step : σ → α → Except ε σ} {rows : List α}
    (sorted : rows.Pairwise fun first second => key first < key second) {limit : Nat} (positive : 0 < limit) (rounds : Nat)
    (start : Int) (state : σ) (enough : (rows.filter fun row => start ≤ key row).length < rounds) :
    walk key step rows limit rounds start state = (rows.filter fun row => start ≤ key row).foldlM step state := by
  induction rounds generalizing start state with
  | zero => exact absurd enough (Nat.not_lt_zero _)
  | succ rounds ih =>
    have whole := List.take_append_drop limit (rows.filter fun row => start ≤ key row)
    unfold walk page
    cases selected : (rows.filter fun row => start ≤ key row).take limit with
    | nil =>
      rcases List.take_eq_nil_iff.mp selected with zero | empty
      · omega
      · rw [empty]
        rfl
    | cons row more =>
      rw [selected] at whole
      have count := congrArg List.length selected
      rw [List.length_take] at count
      rw [← whole, List.foldlM_append]
      refine bind_congr fun state => ?_
      split
      next short =>
        have finished : (rows.filter fun row => start ≤ key row).drop limit = [] := List.drop_eq_nil_of_le (by omega)
        rw [finished]
        rfl
      next full =>
        have rest := filter_after sorted whole.symm (List.cons_ne_nil row more)
        rw [ih, rest]
        rw [rest, List.length_drop]
        rw [List.length_cons] at count
        omega

/-- Pages by offset, put together. -/
theorem flatMap_pages {rows : List α} (limit rounds : Nat) :
    ((List.range rounds).flatMap fun i => (rows.drop (i * limit)).take limit) = rows.take (rounds * limit) := by
  induction rounds with
  | zero => simp
  | succ rounds ih =>
    rw [List.range_succ, List.flatMap_append, ih, List.flatMap_singleton, Nat.succ_mul, List.take_add]

end Foundation.Paging
