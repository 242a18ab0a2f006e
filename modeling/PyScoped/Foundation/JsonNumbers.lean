import PyScoped.Foundation.Json

/-! JSON values in a database that keeps numbers in decimal and writes them out
without an exponent. A number whose plain text has a fraction is read back as the
nearest binary float, which is the one it came from; any other is an integer. -/

namespace Foundation

/-- A number literal, with the digits before and after its point. -/
structure Literal where
  negative : Bool
  whole : List Char
  fraction : List Char
  exponent : Int

namespace Literal

def natOf (digits : List Char) : Nat := digits.foldl (fun value digit => 10 * value + (digit.toNat - 48)) 0

def exponentOf : List Char → Option Int
  | [] => some 0
  | 'e' :: '-' :: digits => some (-(natOf digits : Int))
  | 'e' :: '+' :: digits => some (natOf digits)
  | 'e' :: digits => some (natOf digits)
  | _ => none

def unsigned (negative : Bool) (text : List Char) : Option Literal :=
  let whole := text.takeWhile Char.isDigit
  match text.dropWhile Char.isDigit with
  | '.' :: rest => (exponentOf (rest.dropWhile Char.isDigit)).map (⟨negative, whole, rest.takeWhile Char.isDigit, ·⟩)
  | rest => (exponentOf rest).map (⟨negative, whole, [], ·⟩)

def parse : List Char → Option Literal
  | '-' :: text => unsigned true text
  | text => unsigned false text

/-- How many digits stand after the point in plain notation. -/
def scale (literal : Literal) : Nat := (literal.fraction.length - literal.exponent).toNat

def coefficient (literal : Literal) : Nat := natOf (literal.whole ++ literal.fraction)

/-- The number, where its plain notation has no fraction. -/
def integer (literal : Literal) : Int :=
  let magnitude := literal.coefficient * 10 ^ (literal.exponent - literal.fraction.length).toNat
  if literal.negative then -magnitude else magnitude

end Literal

namespace FloatText

def zero : FloatText := ⟨"0.0", by simp [Numeric], by simp⟩

/-- What is read back for a float. Decimals have one zero, without a sign. -/
def decimal (value : FloatText) : Json :=
  match Literal.parse value.text.toList with
  | none => .float value
  | some literal =>
    if literal.scale = 0 then .int literal.integer
    else if literal.coefficient = 0 then .float zero
    else .float value

/-- The plain notation keeps a fraction, and the float is not the negative zero. -/
def Ordinary (value : FloatText) : Prop :=
  ∀ literal ∈ Literal.parse value.text.toList,
    literal.scale ≠ 0 ∧ (literal.coefficient = 0 → value = zero)

theorem decimal_eq_iff (value : FloatText) : value.decimal = .float value ↔ value.Ordinary := by
  unfold decimal Ordinary
  cases Literal.parse value.text.toList with
  | none => simp
  | some literal =>
    simp only [Option.mem_some_iff, forall_eq']
    by_cases integral : literal.scale = 0
    · simp [integral]
    by_cases nothing : literal.coefficient = 0
    · simp [integral, nothing, eq_comm]
    · simp [integral, nothing]

example : decimal ⟨"1.5e+22", by simp [Numeric], by simp⟩ = .int 15000000000000000000000 := by
  decide +kernel

example : decimal ⟨"-0.0", by simp [Numeric], by simp⟩ = .float zero := by decide +kernel

end FloatText

namespace Json

mutual
/-- Every float replaced by what becomes of it. -/
def onFloats (change : FloatText → Json) : Json → Json
  | .float value => change value
  | .arr items => .arr (onFloatsItems change items)
  | .obj members => .obj (onFloatsMembers change members)
  | value => value

def onFloatsItems (change : FloatText → Json) : List Json → List Json
  | [] => []
  | item :: items => onFloats change item :: onFloatsItems change items

def onFloatsMembers (change : FloatText → Json) : List (String × Json) → List (String × Json)
  | [] => []
  | (key, value) :: members => (key, onFloats change value) :: onFloatsMembers change members
end

mutual
/-- Every float has the property. -/
def Floats (property : FloatText → Prop) : Json → Prop
  | .float value => property value
  | .arr items => FloatsItems property items
  | .obj members => FloatsMembers property members
  | _ => True

def FloatsItems (property : FloatText → Prop) : List Json → Prop
  | [] => True
  | item :: items => Floats property item ∧ FloatsItems property items

def FloatsMembers (property : FloatText → Prop) : List (String × Json) → Prop
  | [] => True
  | (_, value) :: members => Floats property value ∧ FloatsMembers property members
end

variable {change : FloatText → Json} {property : FloatText → Prop}

private theorem onFloatsMembers_eq (members : List (String × Json)) :
    onFloatsMembers change members = members.map fun member => (member.1, member.2.onFloats change) := by
  induction members with
  | nil => rfl
  | cons member members ih => simp only [onFloatsMembers, ih, List.map_cons]

private theorem floatsMembers_iff (members : List (String × Json)) :
    FloatsMembers property members ↔ ∀ member ∈ members, member.2.Floats property := by
  induction members with
  | nil => simp [FloatsMembers]
  | cons member members ih => simp only [FloatsMembers, ih, List.forall_mem_cons]

mutual
theorem onFloats_sortKeys (sorted : ∀ value, (change value).sortKeys = change value) (value : Json) :
    (value.onFloats change).sortKeys = value.sortKeys.onFloats change := by
  match value with
  | .null | .bool _ | .int _ | .nonfinite | .str _ => rfl
  | .float value => exact sorted value
  | .arr items => simp only [onFloats, sortKeys, sortItems_onFloats sorted items]
  | .obj members =>
    simp only [onFloats, sortKeys, sortMembers_onFloats sorted members]
    simp only [onFloatsMembers_eq]
    refine congrArg Json.obj (List.map_insertionSort (fun first second => first.1 ≤ second.1) _
      (fun member : String × Json => (member.1, member.2.onFloats change)) _ fun _ _ _ _ => Iff.rfl).symm

theorem sortItems_onFloats (sorted : ∀ value, (change value).sortKeys = change value) (items : List Json) :
    sortItems (onFloatsItems change items) = onFloatsItems change (sortItems items) := by
  match items with
  | [] => rfl
  | item :: items =>
    simp only [onFloatsItems, sortItems, onFloats_sortKeys sorted item, sortItems_onFloats sorted items]

theorem sortMembers_onFloats (sorted : ∀ value, (change value).sortKeys = change value)
    (members : List (String × Json)) :
    sortMembers (onFloatsMembers change members) = onFloatsMembers change (sortMembers members) := by
  match members with
  | [] => rfl
  | (key, value) :: members =>
    simp only [onFloatsMembers, sortMembers, onFloats_sortKeys sorted value, sortMembers_onFloats sorted members]
end

mutual
theorem onFloats_eq_iff (value : Json) :
    value.onFloats change = value ↔ value.Floats fun float => change float = .float float := by
  match value with
  | .null | .bool _ | .int _ | .nonfinite | .str _ => simp [onFloats, Floats]
  | .float value => rfl
  | .arr items => simp only [onFloats, Floats, Json.arr.injEq, onFloatsItems_eq_iff items]
  | .obj members => simp only [onFloats, Floats, Json.obj.injEq, onFloatsMembers_eq_iff members]

theorem onFloatsItems_eq_iff (items : List Json) :
    onFloatsItems change items = items ↔ FloatsItems (fun float => change float = .float float) items := by
  match items with
  | [] => simp [onFloatsItems, FloatsItems]
  | item :: items =>
    simp only [onFloatsItems, FloatsItems, List.cons.injEq, onFloats_eq_iff item, onFloatsItems_eq_iff items]

theorem onFloatsMembers_eq_iff (members : List (String × Json)) :
    onFloatsMembers change members = members ↔ FloatsMembers (fun float => change float = .float float) members := by
  match members with
  | [] => simp [onFloatsMembers, FloatsMembers]
  | (key, value) :: members =>
    simp only [onFloatsMembers, FloatsMembers, List.cons.injEq, Prod.mk.injEq, true_and, onFloats_eq_iff value,
      onFloatsMembers_eq_iff members]
end

mutual
theorem floats_sortKeys (value : Json) : value.sortKeys.Floats property ↔ value.Floats property := by
  match value with
  | .null | .bool _ | .int _ | .float _ | .nonfinite | .str _ => rfl
  | .arr items => exact floats_sortItems items
  | .obj members =>
    refine Iff.trans ?_ (floats_sortMembers members)
    simp only [Floats, sortKeys, floatsMembers_iff]
    exact forall_congr' fun member => by rw [(List.perm_insertionSort _ _).mem_iff]

theorem floats_sortItems (items : List Json) : FloatsItems property (sortItems items) ↔ FloatsItems property items := by
  match items with
  | [] => rfl
  | item :: items => simp only [sortItems, FloatsItems, floats_sortKeys item, floats_sortItems items]

theorem floats_sortMembers (members : List (String × Json)) :
    FloatsMembers property (sortMembers members) ↔ FloatsMembers property members := by
  match members with
  | [] => rfl
  | (key, value) :: members =>
    simp only [sortMembers, FloatsMembers, floats_sortKeys value, floats_sortMembers members]
end

mutual
theorem onFloats_finite (finite : ∀ value, (change value).finite = true) (value : Json) :
    (value.onFloats change).finite = value.finite := by
  match value with
  | .null | .bool _ | .int _ | .nonfinite | .str _ => rfl
  | .float value => exact finite value
  | .arr items => simp only [onFloats, Json.finite, onFloatsItems_finite finite items]
  | .obj members => simp only [onFloats, Json.finite, onFloatsMembers_finite finite members]

theorem onFloatsItems_finite (finite : ∀ value, (change value).finite = true) (items : List Json) :
    finiteItems (onFloatsItems change items) = finiteItems items := by
  match items with
  | [] => rfl
  | item :: items =>
    simp only [onFloatsItems, finiteItems, onFloats_finite finite item, onFloatsItems_finite finite items]

theorem onFloatsMembers_finite (finite : ∀ value, (change value).finite = true) (members : List (String × Json)) :
    finiteMembers (onFloatsMembers change members) = finiteMembers members := by
  match members with
  | [] => rfl
  | (key, value) :: members =>
    simp only [onFloatsMembers, finiteMembers, onFloats_finite finite value, onFloatsMembers_finite finite members]
end

/-- Values as a database gives them back that keeps numbers in decimal. -/
def decimals (value : Json) : Json := value.onFloats FloatText.decimal

theorem decimals_finite (value : Json) : value.decimals.finite = value.finite := by
  refine onFloats_finite (fun float => ?_) value
  unfold FloatText.decimal
  cases Literal.parse float.text.toList with
  | none => rfl
  | some literal =>
    simp only
    split
    · rfl
    · split <;> rfl

/-- Exactly the values whose floats are ordinary are read back as they were. -/
theorem same_decimals_iff (value : Json) : Same value.decimals value ↔ value.Floats FloatText.Ordinary := by
  have sorted (float : FloatText) : float.decimal.sortKeys = float.decimal := by
    unfold FloatText.decimal
    cases Literal.parse float.text.toList with
    | none => rfl
    | some literal =>
      simp only
      split
      · rfl
      · split <;> rfl
  rw [Same, decimals, onFloats_sortKeys sorted, onFloats_eq_iff, floats_sortKeys]
  simp only [FloatText.decimal_eq_iff]

theorem Same.dumps {first second : Json} (same : Same first second) : first.dumps = second.dumps := by
  have finite : first.finite = second.finite := by
    rw [← sortKeys_finite first, ← sortKeys_finite second, same]
  rw [Json.dumps, Json.dumps, finite, same]

end Json
end Foundation
