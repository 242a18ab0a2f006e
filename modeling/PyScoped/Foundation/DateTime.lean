import Mathlib.Data.Nat.Digits.Defs
import Mathlib.Data.List.Basic
import Mathlib.Tactic

/-! Calendar instants in UTC, to the microsecond, and their ISO 8601 text as
Python writes it: the fraction is left out where it is zero. -/

namespace Foundation

structure DateTime where
  year : Nat
  month : Nat
  day : Nat
  hour : Nat
  minute : Nat
  second : Nat
  microsecond : Nat
  bounded : year < 10000 ∧ month < 100 ∧ day < 100 ∧ hour < 100 ∧ minute < 100 ∧ second < 100 ∧
    microsecond < 1000000
  deriving DecidableEq

namespace DateTime

/-- Decimal digits, padded with zeros on the left to the given width. -/
def pad : Nat → Nat → List Char
  | 0, _ => []
  | width + 1, n => pad width (n / 10) ++ [(n % 10).digitChar]

def isoformat (d : DateTime) : List Char :=
  pad 4 d.year ++ '-' :: pad 2 d.month ++ '-' :: pad 2 d.day ++ 'T' :: pad 2 d.hour ++ ':' :: pad 2 d.minute ++
    ':' :: pad 2 d.second ++ (if d.microsecond = 0 then [] else '.' :: pad 6 d.microsecond) ++
    ['+', '0', '0', ':', '0', '0']

theorem newYear_bounded : 2024 < 10000 ∧ 1 < 100 ∧ 1 < 100 ∧ 0 < 100 ∧ 0 < 100 ∧ 0 < 100 ∧ 0 < 1000000 := by decide

/-- One number that orders instants as the calendar does. -/
def key (d : DateTime) : Nat :=
  (((((d.year * 100 + d.month) * 100 + d.day) * 100 + d.hour) * 100 + d.minute) * 100 + d.second) * 1000000 +
    d.microsecond

instance : LT DateTime := ⟨fun d e => d.key < e.key⟩
instance : LE DateTime := ⟨fun d e => d.key ≤ e.key⟩
instance (d e : DateTime) : Decidable (d < e) := inferInstanceAs (Decidable (d.key < e.key))
instance (d e : DateTime) : Decidable (d ≤ e) := inferInstanceAs (Decidable (d.key ≤ e.key))

theorem lt_def (d e : DateTime) : d < e ↔ d.key < e.key := Iff.rfl

theorem le_def (d e : DateTime) : d ≤ e ↔ d.key ≤ e.key := Iff.rfl

theorem pad_isDigit (width n : Nat) : ∀ c ∈ pad width n, c.isDigit = true := by
  induction width generalizing n with
  | zero => simp [pad]
  | succ width ih =>
    intro c member
    rcases List.mem_append.mp member with member | member
    · exact ih _ c member
    · rw [List.mem_singleton.mp member, Nat.isDigit_digitChar]
      exact decide_eq_true (Nat.mod_lt _ (by decide))

/-- The characters an instant is written with. -/
def TextChar (c : Char) : Bool := c.isDigit || c == '-' || c == 'T' || c == ':' || c == '.' || c == '+'

theorem isoformat_chars (d : DateTime) : ∀ c ∈ d.isoformat, TextChar c = true := by
  have digits : ∀ width n, ∀ c ∈ pad width n, TextChar c = true := by
    intro width n c member
    simp [TextChar, pad_isDigit width n c member]
  intro c member
  simp only [isoformat, List.mem_append, List.mem_cons, List.cons_append, List.append_assoc, List.not_mem_nil,
    or_false] at member
  split at member <;> simp only [List.mem_cons, List.not_mem_nil, false_or] at member
  all_goals
    rcases member with m | rfl | m | rfl | m | rfl | m | rfl | m | rfl | m | member
  all_goals first | exact digits _ _ _ m | rfl | skip
  · rcases member with rfl | rfl | rfl | rfl | rfl | rfl <;> rfl
  · rcases member with (rfl | m) | rfl | rfl | rfl | rfl | rfl | rfl
    all_goals first | exact digits _ _ _ m | rfl

end DateTime
end Foundation
