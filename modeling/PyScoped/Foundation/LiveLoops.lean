import Mathlib.Data.List.Nodup
import Mathlib.Data.List.Sublists
import Mathlib.Data.Nat.Find

/-! Loops that go by position over a list which others append to and remove from
while the loop is running. What the list had when the loop began is met once and in
order, as long as nothing is removed that the loop has passed. -/

namespace Foundation

variable {α : Type} [DecidableEq α]

/-- A loop over a list that had `start` when it began. -/
structure Loop (α : Type) where
  start : List α
  position : Nat
  met : List α
  deriving DecidableEq

namespace Loop

/-- The loop begins. -/
def of (items : List α) : Loop α := ⟨items, 0, []⟩

/-- The item at the position, and the loop past it. -/
def next (loop : Loop α) (items : List α) : Option (α × Loop α) :=
  items[loop.position]?.map fun item => (item, { loop with position := loop.position + 1, met := loop.met ++ [item] })

/-- The items of the start that the loop has still to meet. -/
def ahead (loop : Loop α) (items : List α) : List α := (items.drop loop.position).filter (· ∈ loop.start)

/-- What has been met and what is still ahead are the items of the start that were not
removed before they were met. -/
structure Kept (loop : Loop α) (items gone : List α) : Prop where
  nodup : loop.start.Nodup
  accounted : loop.start.filter (fun item => item ∈ loop.met ∨ item ∉ gone) =
    loop.met.filter (· ∈ loop.start) ++ loop.ahead items

variable {loop : Loop α} {items gone : List α} {item : α}

theorem mem_ahead : item ∈ loop.ahead items ↔ item ∈ items.drop loop.position ∧ item ∈ loop.start := by
  simp [ahead]

theorem Kept.begin (nodup : items.Nodup) (present : ∀ item ∈ items, item ∉ gone) : (of items).Kept items gone := by
  refine ⟨nodup, ?_⟩
  have all : items.filter (fun item => item ∈ ([] : List α) ∨ item ∉ gone) = items := by
    apply List.filter_eq_self.mpr
    intro item member
    simpa using present item member
  have same : items.filter (· ∈ items) = items := by
    apply List.filter_eq_self.mpr
    intro item member
    simpa using member
  change items.filter (fun item => item ∈ ([] : List α) ∨ item ∉ gone) = [] ++ (items.drop 0).filter (· ∈ items)
  rw [all, List.drop_zero, same, List.nil_append]

/-- An item that was met is not ahead. -/
theorem Kept.not_ahead (kept : loop.Kept items gone) (met : item ∈ loop.met) : item ∉ loop.ahead items := by
  intro ahead
  have started := (mem_ahead.mp ahead).2
  have once : (loop.met.filter (· ∈ loop.start) ++ loop.ahead items).Nodup := kept.accounted ▸ kept.nodup.filter _
  exact (List.nodup_append.mp once).2.2 item (List.mem_filter.mpr ⟨met, by simpa using started⟩) item ahead rfl

/-- The loop calls what is at its position. -/
theorem Kept.next (kept : loop.Kept items gone) {after : Loop α} (found : loop.next items = some (item, after))
    (present : item ∉ gone) : after.Kept items gone := by
  obtain ⟨item', here, same⟩ := Option.map_eq_some_iff.mp found
  cases same
  refine ⟨kept.nodup, ?_⟩
  have left : loop.start.filter (fun other => other ∈ loop.met ++ [item] ∨ other ∉ gone) =
      loop.start.filter (fun other => other ∈ loop.met ∨ other ∉ gone) := by
    apply List.filter_congr
    intro other _
    by_cases same : other = item
    · simp [same, present]
    · simp [same]
  have split : items.drop loop.position = item :: items.drop (loop.position + 1) := by
    obtain ⟨inside, rfl⟩ := List.getElem?_eq_some_iff.mp here
    exact List.drop_eq_getElem_cons inside
  change loop.start.filter (fun other => other ∈ loop.met ++ [item] ∨ other ∉ gone) =
    (loop.met ++ [item]).filter (· ∈ loop.start) ++ (items.drop (loop.position + 1)).filter (· ∈ loop.start)
  rw [left, kept.accounted, ahead, split, List.filter_append]
  by_cases started : item ∈ loop.start <;> simp [started]

theorem ahead_append (new : item ∉ loop.start) : loop.ahead (items ++ [item]) = loop.ahead items := by
  have none : ([item].drop (loop.position - items.length)).filter (· ∈ loop.start) = [] := by
    apply List.filter_eq_nil_iff.mpr
    intro other member
    have same := List.mem_singleton.mp (List.mem_of_mem_drop member)
    simpa [same] using new
  rw [ahead, List.drop_append, List.filter_append, none, List.append_nil, ahead]

/-- Something is removed from another list. -/
theorem Kept.elsewhere (kept : loop.Kept items gone) (foreign : item ∉ loop.start) : loop.Kept items (item :: gone) := by
  refine ⟨kept.nodup, ?_⟩
  rw [← kept.accounted]
  apply List.filter_congr
  intro other member
  have different : other ≠ item := by
    rintro rfl
    exact foreign member
  simp [different]

/-- An item that the loop has passed is removed. -/
theorem ahead_erase_passed (passed : item ∈ items.take loop.position) (ended : loop.ahead items = []) :
    loop.ahead (items.erase item) = [] := by
  rw [ahead, List.filter_eq_nil_iff] at ended ⊢
  intro other member
  apply ended other
  have erased : items.erase item = (items.take loop.position).erase item ++ items.drop loop.position := by
    rw [← List.erase_append_left _ passed, List.take_append_drop]
  rw [erased, List.drop_append] at member
  rcases List.mem_append.mp member with member | member
  · have short : ((items.take loop.position).erase item).length ≤ loop.position :=
      (List.length_erase_le ..).trans (List.length_take_le ..)
    rw [List.drop_eq_nil_of_le short] at member
    cases member
  · exact List.mem_of_mem_drop member

theorem ahead_erase_nil (item : α) (ended : loop.ahead items = []) : loop.ahead (items.erase item) = [] := by
  by_cases passed : item ∈ items.take loop.position
  · exact ahead_erase_passed passed ended
  · rw [ahead, List.filter_eq_nil_iff] at ended ⊢
    intro other member
    apply ended other
    have erased : items.erase item = items.take loop.position ++ (items.drop loop.position).erase item := by
      rw [← List.erase_append_right _ passed, List.take_append_drop]
    rw [erased, List.drop_append, List.drop_eq_nil_of_le (List.length_take_le ..), List.nil_append] at member
    exact List.mem_of_mem_erase (List.mem_of_mem_drop member)

/-- An item that the loop has not reached is removed. -/
theorem ahead_erase_later (nodup : items.Nodup) (later : item ∈ items.drop loop.position) :
    loop.ahead (items.erase item) = (loop.ahead items).filter (· ≠ item) := by
  have parts := List.take_append_drop loop.position items
  have split : (items.take loop.position ++ items.drop loop.position).Nodup := parts.symm ▸ nodup
  have before : item ∉ items.take loop.position := fun member =>
    (List.nodup_append.mp split).2.2 item member item later rfl
  have inside : loop.position ≤ items.length := by
    by_contra beyond
    rw [List.drop_eq_nil_of_le (by omega)] at later
    cases later
  have erased : items.erase item = items.take loop.position ++ (items.drop loop.position).erase item := by
    rw [← List.erase_append_right _ before, parts]
  have length : (items.take loop.position).length = loop.position := List.length_take_of_le inside
  have rest : (items.drop loop.position).Nodup := nodup.sublist (List.drop_sublist ..)
  rw [ahead, erased, List.drop_left' length, rest.erase_eq_filter, ahead, List.filter_filter, List.filter_filter]
  apply List.filter_congr
  intro other _
  by_cases same : other = item <;> simp [same, bne]

/-- Something is removed that the loop has not passed, or when it has nothing ahead. -/
theorem Kept.erase (kept : loop.Kept items gone) (nodup : items.Nodup) (member : item ∈ items) (present : item ∉ gone)
    (passed : item ∈ items.take loop.position → loop.ahead items = []) :
    loop.Kept (items.erase item) (item :: gone) := by
  refine ⟨kept.nodup, ?_⟩
  rw [← List.take_append_drop loop.position items, List.mem_append] at member
  rcases member with before | later
  · have ended := passed before
    rw [ahead_erase_passed before ended, List.append_nil]
    have all := kept.accounted
    rw [ended, List.append_nil] at all
    rw [← all]
    apply List.filter_congr
    intro other started
    by_cases same : other = item
    · subst same
      have kept' : other ∈ loop.start.filter (fun other => other ∈ loop.met ∨ other ∉ gone) :=
        List.mem_filter.mpr ⟨started, by simp [present]⟩
      rw [all] at kept'
      have met := (List.mem_filter.mp kept').1
      simp [met]
    · simp [same]
  · have unmet : item ∈ loop.start → item ∉ loop.met := fun started met =>
      kept.not_ahead met (mem_ahead.mpr ⟨later, started⟩)
    have met : (loop.met.filter (· ∈ loop.start)).filter (· ≠ item) = loop.met.filter (· ∈ loop.start) := by
      apply List.filter_eq_self.mpr
      intro other member
      obtain ⟨inside, started⟩ := List.mem_filter.mp member
      rw [decide_eq_true_eq]
      rintro rfl
      exact unmet (of_decide_eq_true started) inside
    rw [ahead_erase_later nodup later, ← met, ← List.filter_append, ← kept.accounted, List.filter_filter]
    apply List.filter_congr
    intro other started
    by_cases same : other = item
    · subst same
      simp [unmet started]
    · simp [same]

/-- Every item of the start is met once, or was removed before, or is ahead. -/
theorem Kept.count (kept : loop.Kept items gone) (started : item ∈ loop.start) :
    loop.met.count item = 1 ∨ loop.met.count item = 0 ∧ (item ∈ gone ∨ item ∈ loop.ahead items) := by
  by_cases met : item ∈ loop.met
  · left
    have once : (loop.met.filter (· ∈ loop.start) ++ loop.ahead items).Nodup := kept.accounted ▸ kept.nodup.filter _
    have counted := List.count_eq_one_of_mem (List.nodup_append.mp once).1
      (List.mem_filter.mpr ⟨met, decide_eq_true started⟩)
    have same : (loop.met.filter (· ∈ loop.start)).count item = loop.met.count item :=
      List.count_filter (decide_eq_true started)
    exact same.symm.trans counted
  · refine .inr ⟨List.count_eq_zero.mpr met, ?_⟩
    by_cases removed : item ∈ gone
    · exact .inl removed
    · have left : item ∈ loop.start.filter (fun other => other ∈ loop.met ∨ other ∉ gone) :=
        List.mem_filter.mpr ⟨started, by simp [removed]⟩
      rw [kept.accounted] at left
      rcases List.mem_append.mp left with found | found
      · exact absurd (List.mem_filter.mp found).1 met
      · exact .inr found

/-- Items of the start are met in their order. -/
theorem Kept.order (kept : loop.Kept items gone) : (loop.met.filter (· ∈ loop.start)).Sublist loop.start := by
  have sublist := List.filter_sublist (p := fun item => item ∈ loop.met ∨ item ∉ gone) (l := loop.start)
  rw [kept.accounted] at sublist
  exact (List.sublist_append_left ..).trans sublist

/-- A loop that finds nothing at its position has nothing ahead. -/
theorem ahead_of_next_none (ended : loop.next items = none) : loop.ahead items = [] := by
  have beyond := List.getElem?_eq_none_iff.mp (Option.map_eq_none_iff.mp ended)
  rw [ahead, List.drop_eq_nil_of_le beyond, List.filter_nil]

end Loop

/-- A run that stays at some height or above, and does not climb for ever, comes back
to one height again and again and stays there or above. -/
theorem recurs {height : Nat → Nat} {start least limit : Nat} (above : ∀ m ≥ start, least ≤ height m)
    (low : ∀ n, ∃ m ≥ n, height m < limit) :
    ∃ level ≥ least, ∃ n ≥ start, (∀ m ≥ n, level ≤ height m) ∧ ∀ k, ∃ m ≥ k, height m = level := by
  have fails : ∃ level, ¬ ∃ n ≥ start, ∀ m ≥ n, level ≤ height m := by
    refine ⟨limit, ?_⟩
    rintro ⟨n, -, all⟩
    obtain ⟨m, later, lower⟩ := low n
    exact Nat.not_le_of_lt lower (all m later)
  classical
  have first := Nat.find_spec fails
  have before := fun level => @Nat.find_min _ _ fails level
  generalize Nat.find fails = bound at first before
  have larger : least < bound := by
    by_contra small
    exact first ⟨start, Nat.le_refl _, fun m later => (Nat.le_of_not_lt small).trans (above m later)⟩
  obtain ⟨n, later, all⟩ := not_not.mp (before (bound - 1) (by omega))
  refine ⟨bound - 1, by omega, n, later, all, fun k => ?_⟩
  by_contra never
  refine first ⟨max n k, later.trans (Nat.le_max_left ..), fun m after => ?_⟩
  have atLeast := all m ((Nat.le_max_left ..).trans after)
  have other : height m ≠ bound - 1 := fun same => never ⟨m, (Nat.le_max_right ..).trans after, same⟩
  omega

/-- A number that never grows falls only finitely often. -/
theorem falls_end {measure : Nat → Nat} {start : Nat} (falls : ∀ m ≥ start, measure (m + 1) ≤ measure m) :
    ¬ ∀ n ≥ start, ∃ m ≥ n, measure (m + 1) < measure m := by
  intro again
  have lower : ∀ n ≥ start, ∀ more, measure (n + more) ≤ measure n := by
    intro n later more
    induction more with
    | zero => exact Nat.le_refl _
    | succ more ih => exact (falls (n + more) (by omega)).trans ih
  have low : ∀ value, ∃ n ≥ start, measure n + value ≤ measure start := by
    intro value
    induction value with
    | zero => exact ⟨start, Nat.le_refl _, Nat.le_refl _⟩
    | succ value ih =>
      obtain ⟨n, later, below⟩ := ih
      obtain ⟨m, after, fall⟩ := again n later
      have down := lower n later (m - n)
      rw [Nat.add_sub_cancel' after] at down
      exact ⟨m + 1, by omega, by omega⟩
  obtain ⟨n, -, below⟩ := low (measure start + 1)
  omega

end Foundation
