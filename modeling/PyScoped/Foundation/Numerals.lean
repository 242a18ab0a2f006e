import Mathlib.Data.List.Basic
import Mathlib.Data.List.Induction
import Mathlib.Tactic.Common

/-! Integers and their texts as Python has them: `int` of a text takes signs,
underscores, whitespace and the digits of any script, `str` writes plain digits,
and both refuse more digits than the interpreter allows. -/

namespace Foundation

/-- What an interpreter takes for a digit and for whitespace, and how many digits it
converts at most. -/
structure Numerals where
  digit : Char → Option Nat
  space : Char → Bool
  maxDigits : Option Nat
  digit_ascii : ∀ n < 10, digit n.digitChar = some n
  space_ascii : ∀ n < 10, space n.digitChar = false

inductive IntError where
  | invalidLiteral
  | tooManyDigits

namespace Numerals

variable (numerals : Numerals)

/-- The value of digits, single underscores between them, with their number. -/
def readDigits (value count : Nat) (afterDigit : Bool) : List Char → Option (Nat × Nat)
  | [] => if afterDigit then some (value, count) else none
  | c :: text => match numerals.digit c with
    | some digit => readDigits (10 * value + digit) (count + 1) true text
    | none => if c = '_' && afterDigit then readDigits value count false text else none

def strip (text : List Char) : List Char := ((text.dropWhile numerals.space).reverse.dropWhile numerals.space).reverse

def sign : List Char → Bool × List Char
  | '-' :: text => (true, text)
  | '+' :: text => (false, text)
  | text => (false, text)

def exceeded (count : Nat) : Bool := numerals.maxDigits.any fun limit => limit < count

/-- `int` of a text. -/
def int (text : List Char) : Except IntError Int :=
  let (negative, digits) := sign (numerals.strip text)
  match numerals.readDigits 0 0 false digits with
  | none => .error .invalidLiteral
  | some (value, count) =>
    if numerals.exceeded count then .error .tooManyDigits else .ok (if negative then -(value : Int) else value)

/-- `str` of an integer. -/
def str (n : Int) : Except IntError String :=
  if numerals.exceeded (Nat.toDigits 10 n.natAbs).length then .error .tooManyDigits else .ok (toString n)

/-- Plain digits that do not begin with a zero. -/
def Canonical (text : List Char) : Prop := text ≠ [] ∧ (∀ c ∈ text, c.isDigit = true) ∧ text.head? ≠ some '0'

instance (text : List Char) : Decidable (Canonical text) :=
  decidable_of_iff (text ≠ [] ∧ text.all Char.isDigit = true ∧ text.head? ≠ some '0') (by rw [Canonical, List.all_eq_true])

section Digits

private theorem digit_of_code : ∀ n < 10, Char.ofNat (48 + n) = n.digitChar := by decide

theorem isDigit_iff {c : Char} : c.isDigit = true ↔ ∃ n < 10, c = n.digitChar := by
  constructor
  · intro digit
    obtain ⟨low, high⟩ : 48 ≤ c.toNat ∧ c.toNat ≤ 57 := by simpa [Char.isDigit, UInt32.le_iff_toNat_le] using digit
    refine ⟨c.toNat - 48, by omega, ?_⟩
    rw [← digit_of_code _ (by omega), show 48 + (c.toNat - 48) = c.toNat by omega, Char.ofNat_toNat]
  · rintro ⟨n, small, rfl⟩
    rw [Nat.isDigit_digitChar]
    simpa using small

variable {text : List Char}

theorem readDigits_plain (digits : ∀ c ∈ text, c.isDigit = true) (value count : Nat) {afterDigit : Bool}
    (some : text ≠ [] ∨ afterDigit = true) :
    numerals.readDigits value count afterDigit text = .some (Nat.ofDigitChars 10 text value, count + text.length) := by
  induction text generalizing value count afterDigit with
  | nil =>
    have after : afterDigit = true := some.resolve_left fun empty => empty rfl
    rw [readDigits, if_pos after]
    simp
  | cons c text ih =>
    obtain ⟨n, small, rfl⟩ := isDigit_iff.mp (digits c List.mem_cons_self)
    rw [readDigits, numerals.digit_ascii n small]
    dsimp only
    rw [ih (fun c inside => digits c (List.mem_cons_of_mem _ inside)) _ _ (.inr rfl),
      Nat.ofDigitChars_cons_digitChar_of_lt_ten small, List.length_cons]
    congr 2
    omega

theorem dropWhile_plain (digits : ∀ c ∈ text, c.isDigit = true) : text.dropWhile numerals.space = text := by
  cases text with
  | nil => rfl
  | cons c text =>
    obtain ⟨n, small, rfl⟩ := isDigit_iff.mp (digits c List.mem_cons_self)
    rw [List.dropWhile_cons_of_neg]
    simp [numerals.space_ascii n small]

theorem strip_plain (digits : ∀ c ∈ text, c.isDigit = true) : numerals.strip text = text := by
  rw [strip, numerals.dropWhile_plain digits, numerals.dropWhile_plain, List.reverse_reverse]
  intro c inside
  exact digits c (List.mem_reverse.mp inside)

theorem sign_plain (digits : ∀ c ∈ text, c.isDigit = true) : sign text = (false, text) := by
  unfold sign
  split
  next => exact absurd (digits '-' List.mem_cons_self) (by decide)
  next => exact absurd (digits '+' List.mem_cons_self) (by decide)
  · rfl

/-- Plain digits are read as the number that they write. -/
theorem int_plain (nonempty : text ≠ []) (digits : ∀ c ∈ text, c.isDigit = true) :
    numerals.int text = if numerals.exceeded text.length then .error .tooManyDigits else .ok (Nat.ofDigitChars 10 text 0 : Nat) := by
  unfold int
  rw [numerals.strip_plain digits, sign_plain digits]
  dsimp only
  rw [numerals.readDigits_plain digits 0 0 (.inl nonempty), Nat.zero_add]
  rfl

theorem digits_plain (n : Nat) : ∀ c ∈ Nat.toDigits 10 n, c.isDigit = true := fun _ inside =>
  Nat.isDigit_of_mem_toDigits (by decide) (by decide) inside

theorem int_toDigits (n : Nat) : numerals.int (Nat.toDigits 10 n) =
    if numerals.exceeded (Nat.toDigits 10 n).length then .error .tooManyDigits else .ok (n : Int) := by
  rw [numerals.int_plain Nat.toDigits_ne_nil (digits_plain n), Nat.ofDigitChars_ten_toDigits]

/-- The digits of a positive number do not begin with a zero. -/
theorem toDigits_canonical {n : Nat} (positive : 0 < n) : Canonical (Nat.toDigits 10 n) := by
  refine ⟨Nat.toDigits_ne_nil, digits_plain n, ?_⟩
  induction n using Nat.strongRecOn with
  | ind n ih =>
    rw [Nat.toDigits_eq_if (by decide)]
    split
    next small =>
      have nonzero : ∀ n < 10, 0 < n → [n.digitChar].head? ≠ some '0' := by decide
      exact nonzero n small positive
    next large =>
      have fewer := ih (n / 10) (Nat.div_lt_self positive (by decide)) (by omega)
      rwa [List.head?_append_of_ne_nil _ Nat.toDigits_ne_nil]

/-- And such digits are those of the number that they write. -/
theorem Canonical.toDigits (canonical : Canonical text) : Nat.toDigits 10 (Nat.ofDigitChars 10 text 0) = text := by
  obtain ⟨nonempty, digits, head⟩ := canonical
  induction text using List.reverseRecOn with
  | nil => exact absurd rfl nonempty
  | append_singleton text c ih =>
    obtain ⟨n, small, rfl⟩ := isDigit_iff.mp (digits c (List.mem_append_right _ List.mem_cons_self))
    rw [Nat.ofDigitChars_append, Nat.ofDigitChars_cons_digitChar_of_lt_ten small, Nat.ofDigitChars_nil]
    by_cases empty : text = []
    · subst empty
      rw [Nat.ofDigitChars_nil, Nat.mul_zero, Nat.zero_add, Nat.toDigits_of_lt_base small, List.nil_append]
    · rw [List.head?_append_of_ne_nil _ empty] at head
      have before := ih empty (fun c inside => digits c (List.mem_append_left _ inside)) head
      have positive : 0 < Nat.ofDigitChars 10 text 0 := by
        apply Nat.pos_of_ne_zero
        intro zero
        rw [zero] at before
        rw [← before] at head
        exact head rfl
      rw [← Nat.toDigits_append_toDigits (by decide) positive small, before, Nat.toDigits_of_lt_base small]

end Digits

theorem toString_pos {n : Int} (positive : 1 ≤ n) : (toString n).toList = Nat.toDigits 10 n.natAbs := by
  obtain ⟨m, rfl⟩ := Int.eq_ofNat_of_zero_le (by omega : 0 ≤ n)
  exact Nat.toList_repr

/-- A positive number is read back from its text where the interpreter writes it. -/
theorem int_str {n : Int} (positive : 1 ≤ n) {text : String} (written : numerals.str n = .ok text) :
    numerals.int text.toList = .ok n := by
  unfold str at written
  split at written
  · cases written
  next allowed =>
    cases written
    rw [toString_pos positive, numerals.int_toDigits, if_neg allowed, Int.natAbs_of_nonneg (by omega)]

/-- The text of a positive number is read from is its own exactly where it is canonical. -/
theorem str_int_iff {n : Int} (positive : 1 ≤ n) {text : List Char} (read : numerals.int text = .ok n) :
    numerals.str n = .ok (String.ofList text) ↔ Canonical text := by
  constructor
  · intro written
    unfold str at written
    split at written
    · cases written
    · have same : toString n = String.ofList text := Except.ok.inj written
      have chars : text = Nat.toDigits 10 n.natAbs := by
        rw [← toString_pos positive, same, String.toList_ofList]
      rw [chars]
      exact toDigits_canonical (by omega)
  · intro canonical
    rw [numerals.int_plain canonical.1 canonical.2.1] at read
    split at read
    · cases read
    next allowed =>
      cases read
      unfold str
      rw [Int.natAbs_natCast, canonical.toDigits, if_neg allowed]
      congr 1
      apply String.toList_inj.mp
      rw [toString_pos positive, Int.natAbs_natCast, canonical.toDigits, String.toList_ofList]

end Numerals
end Foundation
