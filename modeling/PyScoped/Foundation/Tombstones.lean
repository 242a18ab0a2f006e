import Mathlib.Data.List.Nodup
import Mathlib.Logic.Function.Basic

/-! Keyed entries that are dropped by marking them, where a marked entry still
keeps its key from a new one. Such a store is a map as long as no key that was
dropped is put again. -/

namespace Foundation.Tombstones

/-- The first item with a property is the one that has it, where no two have it. -/
theorem find_unique {α : Type} {property : α → Bool} {items : List α}
    (unique : ∀ first ∈ items, ∀ second ∈ items, property first = true → property second = true → first = second)
    (item : α) : items.find? property = some item ↔ item ∈ items ∧ property item = true := by
  constructor
  · intro found
    exact ⟨List.mem_of_find?_eq_some found, List.find?_some found⟩
  · rintro ⟨member, holds⟩
    cases found : items.find? property with
    | none => exact absurd holds (List.find?_eq_none.mp found item member)
    | some other =>
      rw [unique other (List.mem_of_find?_eq_some found) item member (List.find?_some found) holds]

/-- What a store holds under a key. -/
inductive Slot (ν : Type) where
  | vacant
  | live (value : ν)
  | dead
  deriving DecidableEq

namespace Slot

variable {ν : Type}

def value : Slot ν → Option ν
  | .live value => some value
  | _ => none

def bury : Slot ν → Slot ν
  | .live _ => .dead
  | slot => slot

@[simp] theorem value_vacant : (vacant : Slot ν).value = none := rfl
@[simp] theorem value_live (value : ν) : (live value).value = some value := rfl
@[simp] theorem value_dead : (dead : Slot ν).value = none := rfl

@[simp] theorem value_bury (slot : Slot ν) : slot.bury.value = none := by
  cases slot <;> rfl

theorem bury_eq_dead (slot : Slot ν) : slot.bury = .dead ↔ slot = .dead ∨ slot.value ≠ none := by
  cases slot <;> simp [bury]

end Slot

inductive Step (κ ν : Type) where
  | put (key : κ) (value : ν)
  | drop (which : κ → Bool)

variable {κ ν : Type} [DecidableEq κ]

namespace Step

/-- A marked entry refuses another one under its key. -/
def Accepted (slots : κ → Slot ν) : Step κ ν → Prop
  | .put key _ => slots key ≠ .dead
  | .drop _ => True

def apply (slots : κ → Slot ν) : Step κ ν → κ → Slot ν
  | .put key value =>
    match slots key with
    | .dead => slots
    | _ => Function.update slots key (.live value)
  | .drop which => fun key => if which key then (slots key).bury else slots key

/-- What the step does to a map. -/
def intended (map : κ → Option ν) : Step κ ν → κ → Option ν
  | .put key value => Function.update map key (some value)
  | .drop which => fun key => if which key then none else map key

theorem apply_put {slots : κ → Slot ν} {key : κ} (value : ν) (accepted : slots key ≠ .dead) :
    (put key value).apply slots = Function.update slots key (.live value) := by
  simp only [apply]

/-- An accepted step does to the live values what it does to a map. -/
theorem value_apply {slots : κ → Slot ν} {step : Step κ ν} (accepted : step.Accepted slots) :
    (fun key => (step.apply slots key).value) = step.intended fun key => (slots key).value := by
  funext key
  cases step with
  | put changed value =>
    rw [apply_put value accepted]
    by_cases same : key = changed
    · subst same
      simp [intended]
    · simp [intended, same]
  | drop which =>
    by_cases dropped : which key = true
    · simp [apply, intended, dropped]
    · simp [apply, intended, dropped]

end Step

/-- Every step of a sequence is accepted. -/
def AllAccepted : (κ → Slot ν) → List (Step κ ν) → Prop
  | _, [] => True
  | slots, step :: steps => step.Accepted slots ∧ AllAccepted (step.apply slots) steps

/-- No key is put that is spent, or that was dropped before while it was set. -/
def Clean : (κ → Prop) → (κ → Option ν) → List (Step κ ν) → Prop
  | _, _, [] => True
  | spent, map, .put key value :: steps => ¬ spent key ∧ Clean spent ((Step.put key value).intended map) steps
  | spent, map, .drop which :: steps =>
    Clean (fun key => spent key ∨ which key = true ∧ map key ≠ none) ((Step.drop which).intended map) steps

theorem allAccepted_iff_clean (slots : κ → Slot ν) (steps : List (Step κ ν)) :
    AllAccepted slots steps ↔ Clean (fun key => slots key = .dead) (fun key => (slots key).value) steps := by
  induction steps generalizing slots with
  | nil => exact Iff.rfl
  | cons step steps ih =>
    cases step with
    | put key value =>
      refine and_congr_right fun accepted => ?_
      have dead : (fun other => (Step.put key value).apply slots other = .dead) = fun other => slots other = .dead := by
        funext other
        rw [Step.apply_put value accepted]
        by_cases same : other = key
        · subst same
          simp [show slots other ≠ .dead from accepted]
        · simp [same]
      rw [ih, dead, Step.value_apply accepted]
    | drop which =>
      have dead : (fun key => (Step.drop which).apply slots key = .dead) =
          fun key => slots key = .dead ∨ which key = true ∧ (slots key).value ≠ none := by
        funext key
        by_cases dropped : which key = true
        · simp [Step.apply, dropped, Slot.bury_eq_dead]
        · simp [Step.apply, dropped]
      have accepted : (Step.drop which : Step κ ν).Accepted slots := trivial
      rw [AllAccepted, ih, dead, Step.value_apply accepted, Clean]
      exact and_iff_right accepted

section Rows

variable {ρ : Type} (key : ρ → κ) (reads : ρ → Slot ν)

/-- What rows with a key of their own hold, each read as it says. -/
def held (rows : List ρ) (wanted : κ) : Slot ν :=
  match rows.find? fun row => key row = wanted with
  | none => .vacant
  | some row => reads row

variable {key reads} {rows : List ρ}

theorem find_key (once : (rows.map key).Nodup) (wanted : κ) (row : ρ) :
    rows.find? (fun other => decide (key other = wanted)) = some row ↔ row ∈ rows ∧ key row = wanted := by
  rw [find_unique, decide_eq_true_eq]
  intro first firstIn second secondIn one other
  exact List.inj_on_of_nodup_map once firstIn secondIn ((of_decide_eq_true one).trans (of_decide_eq_true other).symm)

theorem held_of_mem (once : (rows.map key).Nodup) {row : ρ} (member : row ∈ rows) :
    held key reads rows (key row) = reads row := by
  rw [held, (find_key once (key row) row).mpr ⟨member, rfl⟩]

theorem held_of_not_mem {wanted : κ} (absent : wanted ∉ rows.map key) : held key reads rows wanted = .vacant := by
  have missed : rows.find? (fun row => decide (key row = wanted)) = none := by simpa using absent
  rw [held, missed]

theorem held_eq_iff (once : (rows.map key).Nodup) {wanted : κ} {slot : Slot ν} :
    held key reads rows wanted = slot ↔
      (slot = .vacant ∧ wanted ∉ rows.map key) ∨ ∃ row ∈ rows, key row = wanted ∧ reads row = slot := by
  by_cases present : wanted ∈ rows.map key
  · obtain ⟨row, member, rfl⟩ := List.mem_map.mp present
    rw [held_of_mem once member]
    constructor
    · exact fun same => .inr ⟨row, member, rfl, same⟩
    · rintro (⟨_, absent⟩ | ⟨other, otherIn, same, rfl⟩)
      · exact absurd present absent
      · rw [List.inj_on_of_nodup_map once otherIn member same]
  · rw [held_of_not_mem present]
    constructor
    · exact fun same => .inl ⟨same.symm, present⟩
    · rintro (⟨rfl, _⟩ | ⟨row, member, same, _⟩)
      · rfl
      · exact absurd (same ▸ List.mem_map_of_mem member) present

/-- A row under a new key is put there. -/
theorem held_append {row : ρ} (once : ((rows ++ [row]).map key).Nodup) :
    held key reads (rows ++ [row]) = Function.update (held key reads rows) (key row) (reads row) := by
  funext wanted
  by_cases same : wanted = key row
  · subst same
    rw [Function.update_self, held_of_mem once (List.mem_append_right _ List.mem_cons_self)]
  · rw [Function.update_of_ne same, held, held, List.find?_append]
    have missed : [row].find? (fun other => decide (key other = wanted)) = none := by
      simpa using fun equal : key row = wanted => same equal.symm
    rw [missed, Option.or_none]

theorem held_map {change : ρ → ρ} (keeps : ∀ row, key (change row) = key row) (wanted : κ) :
    held key reads (rows.map change) wanted = held key (fun row => reads (change row)) rows wanted := by
  have same : (fun row => decide (key row = wanted)) ∘ change = fun row => decide (key row = wanted) := by
    funext row
    simp [keeps]
  rw [held, held, List.find?_map, same]
  cases rows.find? fun row => decide (key row = wanted) <;> rfl

/-- The rows under one key decide what is held there. -/
theorem held_congr {reads' : ρ → Slot ν} {wanted : κ} (same : ∀ row ∈ rows, key row = wanted → reads row = reads' row) :
    held key reads rows wanted = held key reads' rows wanted := by
  rw [held, held]
  cases found : rows.find? fun row => decide (key row = wanted) with
  | none => rfl
  | some row => exact same row (List.mem_of_find?_eq_some found) (by simpa using List.find?_some found)

/-- Marking the rows of some keys drops these keys. -/
theorem held_drop {change : ρ → ρ} (keeps : ∀ row, key (change row) = key row) {which : κ → Bool}
    (marks : ∀ row ∈ rows, reads (change row) = if which (key row) then (reads row).bury else reads row) :
    held key reads (rows.map change) = (Step.drop which).apply (held key reads rows) := by
  funext wanted
  rw [held_map keeps]
  simp only [held, Step.apply]
  cases found : rows.find? fun row => decide (key row = wanted) with
  | none => cases which wanted <;> rfl
  | some row =>
    have same : key row = wanted := by simpa using List.find?_some found
    dsimp only
    rw [marks row (List.mem_of_find?_eq_some found), same]

end Rows

end Foundation.Tombstones
