import Mathlib.Data.List.Sort
import Mathlib.Data.Rat.Defs
import Mathlib.Algebra.Order.Ring.Rat

/-! Python values of the kinds that JSON knows, and what the built-in operations
make of them: truth, equality, order and membership. Numbers are known by their
exact value; a NaN equals itself only as the same object. -/

namespace Foundation

inductive PyValue where
  | none
  | bool (value : Bool)
  | int (value : Int)
  | float (value : ℚ)
  | inf (negative : Bool)
  | nan (object : Nat)
  | str (text : String)
  | list (items : List PyValue)
  | dict (members : List (String × PyValue))

namespace PyValue

mutual
/-- One form for all values that are equal: numbers of all types are alike, and
dictionaries do without an order. -/
def canonical : PyValue → PyValue
  | .bool value => .float (if value then 1 else 0)
  | .int value => .float value
  | .list items => .list (canonicalItems items)
  | .dict members => .dict ((canonicalMembers members).insertionSort fun first second => first.1 ≤ second.1)
  | value => value

def canonicalItems : List PyValue → List PyValue
  | [] => []
  | item :: items => canonical item :: canonicalItems items

def canonicalMembers : List (String × PyValue) → List (String × PyValue)
  | [] => []
  | (key, value) :: members => (key, canonical value) :: canonicalMembers members
end

mutual
def identical : PyValue → PyValue → Bool
  | .none, .none => true
  | .bool first, .bool second => first == second
  | .int first, .int second => first == second
  | .float first, .float second => first == second
  | .inf first, .inf second => first == second
  | .nan first, .nan second => first == second
  | .str first, .str second => first == second
  | .list first, .list second => identicalItems first second
  | .dict first, .dict second => identicalMembers first second
  | _, _ => false

def identicalItems : List PyValue → List PyValue → Bool
  | [], [] => true
  | item :: items, item' :: items' => identical item item' && identicalItems items items'
  | _, _ => false

def identicalMembers : List (String × PyValue) → List (String × PyValue) → Bool
  | [], [] => true
  | (key, value) :: members, (key', value') :: members' =>
    key == key' && identical value value' && identicalMembers members members'
  | _, _ => false
end

mutual
theorem identical_iff : ∀ first second : PyValue, identical first second = true ↔ first = second
  | .none, second => by cases second <;> simp [identical]
  | .bool _, second | .int _, second | .float _, second | .inf _, second | .nan _, second | .str _, second => by
    cases second <;> simp [identical]
  | .list items, second => by
    cases second with
    | list items' => simp only [identical, PyValue.list.injEq, identicalItems_iff items items']
    | _ => simp [identical]
  | .dict members, second => by
    cases second with
    | dict members' => simp only [identical, PyValue.dict.injEq, identicalMembers_iff members members']
    | _ => simp [identical]

theorem identicalItems_iff : ∀ first second : List PyValue, identicalItems first second = true ↔ first = second
  | [], second => by cases second <;> simp [identicalItems]
  | item :: items, second => by
    cases second with
    | nil => simp [identicalItems]
    | cons item' items' => simp [identicalItems, identical_iff item item', identicalItems_iff items items']

theorem identicalMembers_iff : ∀ first second : List (String × PyValue), identicalMembers first second = true ↔ first = second
  | [], second => by cases second <;> simp [identicalMembers]
  | (key, value) :: members, second => by
    cases second with
    | nil => simp [identicalMembers]
    | cons member' members' =>
      simp [identicalMembers, identical_iff value member'.2, identicalMembers_iff members members', Prod.ext_iff, and_assoc]
end

instance : DecidableEq PyValue := fun first second => decidable_of_iff _ (identical_iff first second)

/-- Python's `==`, as containers compare what they hold. -/
def Equals (first second : PyValue) : Prop := first.canonical = second.canonical

instance (first second : PyValue) : Decidable (Equals first second) := inferInstanceAs (Decidable (_ = _))

variable {first : PyValue}

theorem Equals.symm {second : PyValue} (equal : Equals first second) : Equals second first := Eq.symm equal

theorem canonicalItems_eq (items : List PyValue) : canonicalItems items = items.map canonical := by
  induction items with
  | nil => rfl
  | cons item items ih => rw [canonicalItems, ih, List.map_cons]

theorem canonicalMembers_eq (members : List (String × PyValue)) :
    canonicalMembers members = members.map fun member => (member.1, member.2.canonical) := by
  induction members with
  | nil => rfl
  | cons member members ih => rw [canonicalMembers, ih, List.map_cons]

private theorem lookup_orderedInsert {β : Type} (key : String) (member : String × β) (members : List (String × β)) :
    (members.orderedInsert (fun first second => first.1 ≤ second.1) member).lookup key = (member :: members).lookup key := by
  induction members with
  | nil => rfl
  | cons other members ih =>
    rw [List.orderedInsert_cons]
    split
    · rfl
    next above =>
      have unlike : other.1 ≠ member.1 := by
        intro same
        rw [same] at above
        exact above (String.le_refl _)
      rw [List.lookup_cons, ih, List.lookup_cons, List.lookup_cons, List.lookup_cons]
      by_cases first : key = other.1
      · rw [first, beq_self_eq_true, beq_false_of_ne unlike]
      · rw [beq_false_of_ne first]

private theorem lookup_insertionSort {β : Type} (key : String) (members : List (String × β)) :
    (members.insertionSort fun first second => first.1 ≤ second.1).lookup key = members.lookup key := by
  induction members with
  | nil => rfl
  | cons member members ih =>
    rw [List.insertionSort_cons, lookup_orderedInsert, List.lookup_cons, List.lookup_cons, ih]

private theorem lookup_mapped {β γ : Type} (key : String) (convert : β → γ) (members : List (String × β)) :
    (members.map fun member => (member.1, convert member.2)).lookup key = (members.lookup key).map convert := by
  induction members with
  | nil => rfl
  | cons member members ih =>
    rw [List.map_cons, List.lookup_cons, List.lookup_cons, ih]
    split <;> rfl

/-- Equal dictionaries hold equal values under each key. -/
theorem Equals.lookup {first second : List (String × PyValue)} (equal : Equals (.dict first) (.dict second)) (key : String) :
    (first.lookup key).map canonical = (second.lookup key).map canonical := by
  have sorted := PyValue.dict.inj (by simpa only [Equals, canonical] using equal)
  rw [← lookup_mapped, ← lookup_mapped, ← canonicalMembers_eq, ← canonicalMembers_eq,
    ← lookup_insertionSort key (canonicalMembers first), sorted, lookup_insertionSort]

/-- `bool(value)` -/
def truth : PyValue → Bool
  | .none => false
  | .bool value => value
  | .int value => value ≠ 0
  | .float value => value ≠ 0
  | .inf _ | .nan _ => true
  | .str text => text ≠ ""
  | .list items => !items.isEmpty
  | .dict members => !members.isEmpty

inductive Number where
  | finite (value : ℚ)
  | inf (negative : Bool)
  | nan

def number : PyValue → Option Number
  | .bool value => some (.finite (if value then 1 else 0))
  | .int value => some (.finite value)
  | .float value => some (.finite value)
  | .inf negative => some (.inf negative)
  | .nan _ => some .nan
  | _ => Option.none

def Number.less : Number → Number → Bool
  | .nan, _ | _, .nan => false
  | .finite first, .finite second => first < second
  | .inf first, .inf second => first && !second
  | .inf negative, .finite _ => negative
  | .finite _, .inf negative => !negative

theorem Equals.number {second : PyValue} (equal : Equals first second) : first.number = second.number := by
  have canonical : ∀ value : PyValue, value.canonical.number = value.number := by
    intro value
    cases value <;> rfl
  rw [← canonical first, equal, canonical second]

/-- What is equal to a string is that string. -/
theorem Equals.str {text : String} (equal : Equals first (.str text)) : first = .str text := by
  cases first <;> simp_all [Equals, canonical]

theorem Equals.none (equal : Equals first .none) : first = .none := by
  cases first <;> simp_all [Equals, canonical]

theorem Equals.bool {first second : Bool} (equal : Equals (.bool first) (.bool second)) : first = second := by
  cases first <;> cases second <;> simp_all [Equals, canonical]

/-- What Python can look up in a dictionary or a set. -/
def hashable : PyValue → Bool
  | .list _ | .dict _ => false
  | _ => true

/-- Whether an item of a list equals the value. -/
def among (value : PyValue) (items : List PyValue) : Bool := items.any fun item => decide (Equals value item)

theorem among_canonical (value : PyValue) (items : List PyValue) :
    among value items = (items.map canonical).any fun item => decide (value.canonical = item) := by
  unfold among Equals
  rw [List.any_map]
  rfl

/-- Equal lists hold the same values. -/
theorem Equals.among {first second : List PyValue} (equal : Equals (.list first) (.list second)) (value : PyValue) :
    among value first = among value second := by
  have same := PyValue.list.inj (by simpa only [Equals, canonical] using equal)
  rw [among_canonical, among_canonical, ← canonicalItems_eq, ← canonicalItems_eq, same]

/-- Equal dictionaries have the same keys. -/
theorem Equals.keys {first second : List (String × PyValue)} (equal : Equals (.dict first) (.dict second)) (key : String) :
    (first.lookup key).isSome = (second.lookup key).isSome := by
  simpa only [Option.isSome_map] using congrArg Option.isSome (equal.lookup key)

end PyValue
end Foundation
