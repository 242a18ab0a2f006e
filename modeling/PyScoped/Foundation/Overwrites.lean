import Mathlib.Data.List.Perm.Basic
import Mathlib.Data.List.Perm.Lattice

/-! Writes of values to keys, the later over the earlier, and when the order of
whole blocks of writes does not matter. Beside it, what loops over lists make of
steps that may raise. -/

namespace Foundation

variable {κ α : Type} [DecidableEq κ]

def overwrite (writes : List (κ × α)) (start : κ → α) : κ → α :=
  writes.foldl (fun now write => Function.update now write.1 write.2) start

namespace Overwrite

variable {start : κ → α} {key : κ} {value : α}

theorem append (first second : List (κ × α)) (start : κ → α) :
    overwrite (first ++ second) start = overwrite second (overwrite first start) := List.foldl_append

/-- A key that nothing is written to keeps its value. -/
theorem absent {writes : List (κ × α)} (untouched : ∀ write ∈ writes, write.1 ≠ key) :
    overwrite writes start key = start key := by
  induction writes generalizing start with
  | nil => rfl
  | cons write writes ih =>
    have rest : overwrite writes (Function.update start write.1 write.2) key = Function.update start write.1 write.2 key :=
      ih fun other member => untouched other (List.mem_cons_of_mem _ member)
    exact rest.trans (Function.update_of_ne (untouched write List.mem_cons_self).symm ..)

/-- A key that one value only is written to has that value. -/
theorem uniform {writes : List (κ × α)} (same : ∀ write ∈ writes, write.1 = key → write.2 = value)
    (written : ∃ write ∈ writes, write.1 = key) : overwrite writes start key = value := by
  induction writes generalizing start with
  | nil =>
    obtain ⟨write, member, -⟩ := written
    cases member
  | cons write writes ih =>
    by_cases later : ∃ write ∈ writes, write.1 = key
    · exact ih (fun other member => same other (List.mem_cons_of_mem _ member)) later
    · have last : write.1 = key := by
        obtain ⟨other, member, equal⟩ := written
        rcases List.mem_cons.mp member with rfl | inside
        · exact equal
        · exact absurd ⟨other, inside, equal⟩ later
      have rest : overwrite writes (Function.update start write.1 write.2) key = Function.update start write.1 write.2 key :=
        absent fun other member equal => later ⟨other, member, equal⟩
      apply rest.trans
      rw [last, Function.update_self]
      exact same write List.mem_cons_self last

/-- A key keeps its value or has one that was written to it. -/
theorem kept_or_written (writes : List (κ × α)) (start : κ → α) (key : κ) :
    overwrite writes start key = start key ∨ ∃ write ∈ writes, write.1 = key ∧ overwrite writes start key = write.2 := by
  induction writes generalizing start with
  | nil => exact .inl rfl
  | cons write writes ih =>
    rcases ih (Function.update start write.1 write.2) with kept | ⟨other, member, named, reads⟩
    · by_cases same : write.1 = key
      · refine .inr ⟨write, List.mem_cons_self, same, kept.trans ?_⟩
        rw [← same, Function.update_self]
      · exact .inl (kept.trans (Function.update_of_ne (fun equal => same equal.symm) ..))
    · exact .inr ⟨other, List.mem_cons_of_mem _ member, named, reads⟩

/-- The last block decides the keys that it writes to. -/
theorem last_block {block : List (κ × α)} (before : List (κ × α))
    (same : ∀ write ∈ block, write.1 = key → write.2 = value) (written : ∃ write ∈ block, write.1 = key) :
    overwrite (before ++ block) start key = value := by
  rw [append]
  exact uniform same written

/-- Items that each write one value at most to a key may come in any order if
and only if they agree on that value. -/
theorem confluent_iff {ι : Type} {items : List ι} {block : ι → List (κ × α)} (start : κ → α) (key : κ)
    (each : ∀ item ∈ items, ∀ value other, (key, value) ∈ block item → (key, other) ∈ block item → value = other) :
    (∀ one two : List ι, one.Perm items → two.Perm items →
      overwrite (one.flatMap block) start key = overwrite (two.flatMap block) start key) ↔
    ∀ item ∈ items, ∀ item' ∈ items, ∀ value other, (key, value) ∈ block item → (key, other) ∈ block item' → value = other := by
  constructor
  · intro orderless item member item' member' value other inside inside'
    have decides : ∀ chosen ∈ items, ∀ value, (key, value) ∈ block chosen →
        ∃ order : List ι, order.Perm items ∧ overwrite (order.flatMap block) start key = value := by
      intro chosen member value inside
      obtain ⟨front, back, rfl⟩ := List.append_of_mem member
      refine ⟨front ++ back ++ [chosen], ?_, ?_⟩
      · exact (List.perm_append_singleton chosen _).trans List.perm_middle.symm
      · rw [List.flatMap_append, List.flatMap_singleton]
        exact last_block _ (fun write found named => each chosen member write.2 value (named ▸ found) inside)
          ⟨(key, value), inside, rfl⟩
    obtain ⟨one, first, reads⟩ := decides item member value inside
    obtain ⟨two, second, reads'⟩ := decides item' member' other inside'
    rw [← reads, ← reads']
    exact orderless one two first second
  · intro agree one two first second
    by_cases written : ∃ write ∈ items.flatMap block, write.1 = key
    · obtain ⟨⟨name, value⟩, found, same⟩ := written
      obtain rfl : name = key := same
      have constant : ∀ order : List ι, order.Perm items → overwrite (order.flatMap block) start name = value := by
        intro order perm
        apply uniform
        · intro write member named
          obtain ⟨item, inside, here⟩ := List.mem_flatMap.mp member
          obtain ⟨item', inside', there⟩ := List.mem_flatMap.mp found
          exact agree item (perm.mem_iff.mp inside) item' inside' write.2 value (named ▸ here) there
        · exact ⟨_, ((perm.flatMap_right block).mem_iff).mpr found, rfl⟩
      rw [constant one first, constant two second]
    · have untouched : ∀ order : List ι, order.Perm items → overwrite (order.flatMap block) start key = start key :=
        fun order perm => absent fun write member named => written ⟨write, (perm.flatMap_right block).mem_iff.mp member, named⟩
      rw [untouched one first, untouched two second]

end Overwrite

section Raising

variable {ε β γ : Type}

/-- The items where a condition holds, asked one after the other. -/
def filterEach (condition : β → Except ε Bool) : List β → Except ε (List β)
  | [] => return []
  | item :: items => do
    let holds ← condition item
    let rest ← filterEach condition items
    return if holds then item :: rest else rest

variable {items : List β}

/-- A filter whose condition never raises. -/
theorem filterEach_ok {condition : β → Except ε Bool}
    (clean : ∀ item ∈ items, ∀ error, condition item ≠ .error error) :
    filterEach condition items = .ok (items.filter fun item => (condition item).toOption == some true) := by
  induction items with
  | nil => rfl
  | cons item items ih =>
    rw [filterEach, ih fun other member => clean other (List.mem_cons_of_mem _ member)]
    cases answer : condition item with
    | error error => exact absurd answer (clean item List.mem_cons_self error)
    | ok holds => cases holds <;> simp [answer, bind, Except.bind, pure, Except.pure, Except.toOption]

/-- A filter whose condition raises for one of the items raises. -/
theorem filterEach_error (condition : β → Except ε Bool) {item : β} {error : ε} (member : item ∈ items)
    (raises : condition item = .error error) : ∃ error, filterEach condition items = .error error := by
  induction items with
  | nil => cases member
  | cons head items ih =>
    rw [filterEach]
    cases answer : condition head with
    | error first => exact ⟨first, rfl⟩
    | ok holds =>
      rcases List.mem_cons.mp member with rfl | later
      · rw [answer] at raises
        cases raises
      · obtain ⟨error, raised⟩ := ih later
        exact ⟨error, by rw [raised]; rfl⟩

/-- A loop whose step never raises. -/
theorem mapM_ok {step : β → Except ε γ} (result : β → γ) (clean : ∀ item ∈ items, step item = .ok (result item)) :
    items.mapM step = .ok (items.map result) := by
  induction items with
  | nil => rfl
  | cons item items ih =>
    rw [List.mapM_cons, clean item List.mem_cons_self, ih fun other member => clean other (List.mem_cons_of_mem _ member)]
    rfl

/-- A loop whose step raises for one of the items raises. -/
theorem mapM_error {step : β → Except ε γ} {item : β} {error : ε} (member : item ∈ items)
    (raises : step item = .error error) : ∃ error, items.mapM step = .error error := by
  induction items with
  | nil => cases member
  | cons head items ih =>
    rw [List.mapM_cons]
    cases answer : step head with
    | error first => exact ⟨first, rfl⟩
    | ok value =>
      rcases List.mem_cons.mp member with rfl | later
      · rw [answer] at raises
        cases raises
      · obtain ⟨error, raised⟩ := ih later
        exact ⟨error, by rw [raised]; rfl⟩

end Raising
end Foundation
