import Mathlib.Data.List.Nodup

/-! Dictionaries that hold dictionaries. The items keep the order in which their
keys were first assigned, and a key has one item. -/

namespace Foundation

/-- A value of such a dictionary; a leaf is what is no dictionary. -/
inductive Nested (κ α : Type) where
  | leaf (value : α)
  | dict (items : List (κ × Nested κ α))

namespace Nested

variable {κ α β : Type} [DecidableEq κ]

section Items

variable {items : List (κ × β)} {key other : κ} {value : β}

def get? (items : List (κ × β)) (key : κ) : Option β := (items.find? fun item => item.1 = key).map Prod.snd

/-- An assignment keeps the place of a key that is there. -/
def assignItem (key : κ) (value : β) : List (κ × β) → List (κ × β)
  | [] => [(key, value)]
  | item :: items => if item.1 = key then (key, value) :: items else item :: assignItem key value items

@[simp] theorem get?_nil : get? ([] : List (κ × β)) key = none := rfl

theorem get?_cons (item : κ × β) : get? (item :: items) key = if item.1 = key then some item.2 else get? items key := by
  by_cases same : item.1 = key
  · simp [get?, same]
  · simp [get?, same]

theorem get?_eq_none : get? items key = none ↔ key ∉ items.map Prod.fst := by
  simp only [get?, Option.map_eq_none_iff, List.find?_eq_none, List.mem_map, decide_eq_true_eq, not_exists, not_and]

theorem mem_of_get? (found : get? items key = some value) : (key, value) ∈ items := by
  obtain ⟨item, first, rfl⟩ := Option.map_eq_some_iff.mp found
  have same := List.find?_some first
  rw [← of_decide_eq_true same]
  exact List.mem_of_find?_eq_some first

theorem get?_of_mem (nodup : (items.map Prod.fst).Nodup) (inside : (key, value) ∈ items) : get? items key = some value := by
  induction items with
  | nil => cases inside
  | cons item items ih =>
    obtain ⟨fresh, nodup⟩ := List.nodup_cons.mp nodup
    rw [get?_cons]
    rcases List.mem_cons.mp inside with rfl | inside
    · rw [if_pos rfl]
    · rw [if_neg fun same => fresh (List.mem_map.mpr ⟨_, inside, same.symm⟩), ih nodup inside]

theorem get?_assignItem : get? (assignItem key value items) other = if key = other then some value else get? items other := by
  induction items with
  | nil => rw [assignItem, get?_cons]
  | cons item items ih =>
    rw [assignItem]
    split
    next same =>
      rw [get?_cons, get?_cons, same]
      split <;> rfl
    next different =>
      rw [get?_cons, ih, get?_cons]
      split
      next here =>
        rw [if_neg fun same => different (here.trans same.symm)]
      · rfl

theorem keys_assignItem : (assignItem key value items).map Prod.fst =
    if key ∈ items.map Prod.fst then items.map Prod.fst else items.map Prod.fst ++ [key] := by
  induction items with
  | nil => rfl
  | cons item items ih =>
    rw [assignItem]
    split
    next same => simp [same]
    next different =>
      rw [List.map_cons, ih, List.map_cons]
      have elsewhere : ¬ key = item.1 := fun same => different same.symm
      simp only [List.mem_cons, elsewhere, false_or]
      split <;> rfl

/-- Items are known by the order of their keys and by what each key has. -/
theorem items_ext {first second : List (κ × β)} (nodup : (first.map Prod.fst).Nodup)
    (keys : first.map Prod.fst = second.map Prod.fst) (same : ∀ key, get? first key = get? second key) : first = second := by
  induction first generalizing second with
  | nil => exact (List.map_eq_nil_iff.mp keys.symm).symm
  | cons item first ih =>
    cases second with
    | nil => cases keys
    | cons item' second =>
      obtain ⟨head, tail⟩ := List.cons.inj keys
      obtain ⟨fresh, nodup⟩ := List.nodup_cons.mp nodup
      have value : item.2 = item'.2 := by
        have here := same item.1
        rw [get?_cons, if_pos rfl, get?_cons, if_pos head.symm] at here
        exact Option.some.inj here
      rw [Prod.ext head value, ih nodup tail]
      intro key
      have there := same key
      rw [get?_cons, get?_cons, ← head] at there
      by_cases first : item.1 = key
      · subst first
        rw [get?_eq_none.mpr fresh, get?_eq_none.mpr (tail ▸ fresh)]
      · rwa [if_neg first, if_neg first] at there

end Items

/-- What is at the end of a path of keys. -/
def at? : Nested κ α → List κ → Option (Nested κ α)
  | value, [] => some value
  | .leaf _, _ :: _ => none
  | .dict items, key :: path => (get? items key).bind fun value => at? value path

def isDict : Nested κ α → Bool
  | .leaf _ => false
  | .dict _ => true

@[simp] theorem at?_nil (value : Nested κ α) : value.at? [] = some value := by
  cases value <;> rfl

@[simp] theorem at?_leaf (value : α) (key : κ) (path : List κ) : (leaf value : Nested κ α).at? (key :: path) = none := rfl

theorem at?_dict (items : List (κ × Nested κ α)) (key : κ) (path : List κ) :
    (dict items).at? (key :: path) = (get? items key).bind fun value => value.at? path := rfl

omit [DecidableEq κ] in
/-- What holds of the leaves, and of a dictionary where it holds of its values. -/
theorem inductionOn {motive : Nested κ α → Prop} (value : Nested κ α) (leaf : ∀ value, motive (.leaf value))
    (dict : ∀ items, (∀ item ∈ items, motive item.2) → motive (.dict items)) : motive value := by
  refine Nested.rec (motive_1 := motive) (motive_2 := fun items => ∀ item ∈ items, motive item.2)
    (motive_3 := fun item => motive item.2) leaf dict ?_ ?_ ?_ value
  · intro item inside
    cases inside
  · intro item items first rest other inside
    rcases List.mem_cons.mp inside with rfl | inside
    · exact first
    · exact rest other inside
  · intro key value holds
    exact holds

/-- Every dictionary has a key once. -/
inductive Distinct : Nested κ α → Prop where
  | leaf (value : α) : Distinct (.leaf value)
  | dict {items : List (κ × Nested κ α)} (nodup : (items.map Prod.fst).Nodup) (values : ∀ item ∈ items, Distinct item.2) :
      Distinct (Nested.dict items)

omit [DecidableEq κ] in
theorem Distinct.nodup {items : List (κ × Nested κ α)} (distinct : Distinct (Nested.dict items)) : (items.map Prod.fst).Nodup := by
  cases distinct
  assumption

theorem Distinct.value {items : List (κ × Nested κ α)} (distinct : Distinct (Nested.dict items)) {key : κ} {value : Nested κ α}
    (found : get? items key = some value) : Distinct value := by
  cases distinct with
  | dict nodup values => exact values _ (mem_of_get? found)

theorem Distinct.of_values {items : List (κ × Nested κ α)} (nodup : (items.map Prod.fst).Nodup)
    (values : ∀ key value, get? items key = some value → Distinct value) : Distinct (Nested.dict items) :=
  .dict nodup fun item inside => values item.1 item.2 (get?_of_mem nodup inside)

/-- A dictionary: items none of which has a key twice, at any depth. -/
structure Dict (κ α : Type) where
  items : List (κ × Nested κ α)
  distinct : Distinct (.dict items)

end Nested
end Foundation
