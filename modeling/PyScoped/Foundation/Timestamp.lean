import PyScoped.Foundation.DateTime

/-! Datetimes as a message may carry them: a clock reading with an offset from
UTC, or without one. The ISO 8601 text gives the reading and the offset back. -/

namespace Foundation

structure UtcOffset where
  negative : Bool
  hours : Nat
  minutes : Nat
  seconds : Nat
  microseconds : Nat
  bounded : hours < 100 ∧ minutes < 100 ∧ seconds < 100 ∧ microseconds < 1000000
  deriving DecidableEq

/-- The sign, hours and minutes; smaller units only where they are needed. -/
def UtcOffset.format (offset : UtcOffset) : List Char :=
  (if offset.negative then '-' else '+') :: (DateTime.pad 2 offset.hours ++ ':' :: (DateTime.pad 2 offset.minutes ++
    (if offset.seconds = 0 ∧ offset.microseconds = 0 then []
      else ':' :: (DateTime.pad 2 offset.seconds ++
        (if offset.microseconds = 0 then [] else '.' :: DateTime.pad 6 offset.microseconds)))))

/-- A `datetime`: what its clock shows, and how far the clock is from UTC. -/
structure Timestamp where
  clock : DateTime
  offset : Option UtcOffset
  deriving DecidableEq

namespace DateTime

/-- The text of a reading, without an offset. -/
def reading (d : DateTime) : List Char :=
  pad 4 d.year ++ '-' :: (pad 2 d.month ++ '-' :: (pad 2 d.day ++ 'T' :: (pad 2 d.hour ++ ':' :: (pad 2 d.minute ++
    ':' :: (pad 2 d.second ++ (if d.microsecond = 0 then [] else '.' :: pad 6 d.microsecond))))))

theorem isoformat_eq (d : DateTime) : d.isoformat = d.reading ++ ['+', '0', '0', ':', '0', '0'] := by
  simp [isoformat, reading]

@[simp] theorem pad_length (width n : Nat) : (pad width n).length = width := by
  induction width generalizing n with
  | zero => rfl
  | succ width ih => simp [pad, ih]

theorem pad_inj {width n m : Nat} (small : n < 10 ^ width) (small' : m < 10 ^ width) (same : pad width n = pad width m) :
    n = m := by
  induction width generalizing n m with
  | zero => omega
  | succ width ih =>
    obtain ⟨tens, digit⟩ := List.append_inj' same rfl
    have tens := ih (by omega) (by omega) tens
    have digit : n % 10 = m % 10 := by
      have equal := List.head_eq_of_cons_eq digit
      have one : n % 10 < 10 := Nat.mod_lt _ (by decide)
      have other : m % 10 < 10 := Nat.mod_lt _ (by decide)
      generalize n % 10 = x at one equal ⊢
      generalize m % 10 = y at other equal ⊢
      interval_cases x <;> interval_cases y <;> first | rfl | exact absurd equal (by decide)
    omega

/-- Numbers of a fixed width are told apart in front of any text. -/
theorem pad_splits {width n m : Nat} {rest other : List Char} (small : n < 10 ^ width) (small' : m < 10 ^ width)
    (same : pad width n ++ rest = pad width m ++ other) : n = m ∧ rest = other := by
  obtain ⟨digits, tails⟩ := List.append_inj same (by simp)
  exact ⟨pad_inj small small' digits, tails⟩

/-- A fraction that is left out where it is zero, before a text without a point. -/
theorem fraction_splits {n m : Nat} {rest other : List Char} (small : n < 1000000) (small' : m < 1000000)
    (plain : rest.head? ≠ some '.') (plain' : other.head? ≠ some '.')
    (same : (if n = 0 then [] else '.' :: pad 6 n) ++ rest = (if m = 0 then [] else '.' :: pad 6 m) ++ other) :
    n = m ∧ rest = other := by
  split at same <;> split at same
  · exact ⟨by omega, same⟩
  · simp only [List.nil_append] at same
    exact absurd (by rw [same]; rfl) plain
  · simp only [List.nil_append] at same
    exact absurd (by rw [← same]; rfl) plain'
  · exact pad_splits small small' (List.cons.inj same).2

theorem reading_splits {d e : DateTime} {rest other : List Char} (plain : rest.head? ≠ some '.')
    (plain' : other.head? ≠ some '.') (same : d.reading ++ rest = e.reading ++ other) : d = e ∧ rest = other := by
  have bounded := d.bounded
  have bounded' := e.bounded
  simp only [reading, List.append_assoc, List.cons_append] at same
  obtain ⟨year, same⟩ := pad_splits (by omega) (by omega) same
  obtain ⟨month, same⟩ := pad_splits (by omega) (by omega) (List.cons.inj same).2
  obtain ⟨day, same⟩ := pad_splits (by omega) (by omega) (List.cons.inj same).2
  obtain ⟨hour, same⟩ := pad_splits (by omega) (by omega) (List.cons.inj same).2
  obtain ⟨minute, same⟩ := pad_splits (by omega) (by omega) (List.cons.inj same).2
  obtain ⟨second, same⟩ := pad_splits (by omega) (by omega) (List.cons.inj same).2
  obtain ⟨microsecond, tails⟩ := fraction_splits (by omega) (by omega) plain plain' same
  refine ⟨?_, tails⟩
  cases d
  cases e
  simp_all

end DateTime

theorem UtcOffset.format_inj {offset offset' : UtcOffset} (same : offset.format = offset'.format) : offset = offset' := by
  have bounded := offset.bounded
  have bounded' := offset'.bounded
  obtain ⟨sign, same⟩ := List.cons.inj same
  have negative : offset.negative = offset'.negative := by
    revert sign
    cases offset.negative <;> cases offset'.negative <;> decide
  obtain ⟨hours, same⟩ := DateTime.pad_splits (by omega) (by omega) same
  obtain ⟨minutes, same⟩ := DateTime.pad_splits (by omega) (by omega) (List.cons.inj same).2
  have smaller : offset.seconds = offset'.seconds ∧ offset.microseconds = offset'.microseconds := by
    by_cases whole : offset.seconds = 0 ∧ offset.microseconds = 0 <;>
      by_cases whole' : offset'.seconds = 0 ∧ offset'.microseconds = 0 <;>
      simp only [whole, whole', and_self, ↓reduceIte, reduceCtorEq] at same
    · omega
    · obtain ⟨seconds, same⟩ := DateTime.pad_splits (by omega) (by omega) (List.cons.inj same).2
      have same := congrArg (· ++ ([] : List Char)) same
      exact ⟨seconds, (DateTime.fraction_splits (by omega) (by omega) (by simp) (by simp) same).1⟩
  cases offset
  cases offset'
  simp_all

namespace Timestamp

def utc (d : DateTime) : Timestamp := ⟨d, some ⟨false, 0, 0, 0, 0, by decide⟩⟩

def isoformat (moment : Timestamp) : List Char :=
  moment.clock.reading ++ (moment.offset.elim [] UtcOffset.format)

theorem isoformat_utc (d : DateTime) : (utc d).isoformat = d.isoformat := by
  rw [DateTime.isoformat_eq]
  rfl

private theorem offset_plain (offset : Option UtcOffset) : (offset.elim [] UtcOffset.format).head? ≠ some '.' := by
  cases offset with
  | none => simp
  | some offset =>
    simp only [Option.elim, UtcOffset.format, List.head?_cons]
    split <;> decide

theorem isoformat_inj {moment moment' : Timestamp} (same : moment.isoformat = moment'.isoformat) : moment = moment' := by
  obtain ⟨clock, offsets⟩ := DateTime.reading_splits (offset_plain _) (offset_plain _) same
  obtain ⟨d, offset⟩ := moment
  obtain ⟨e, offset'⟩ := moment'
  dsimp only at clock offsets
  subst clock
  cases offset with
  | none =>
    cases offset' with
    | none => rfl
    | some offset' => cases offsets
  | some offset =>
    cases offset' with
    | none => cases offsets
    | some offset' => rw [UtcOffset.format_inj offsets]

private theorem pad_plain (width n : Nat) : '|' ∉ DateTime.pad width n := by
  intro member
  exact absurd (DateTime.pad_isDigit width n '|' member) (by decide)

/-- No datetime is written with a bar. -/
theorem isoformat_plain (moment : Timestamp) : '|' ∉ moment.isoformat := by
  have reading : '|' ∉ moment.clock.reading := by
    unfold DateTime.reading
    split <;> simp [pad_plain]
  have offset : '|' ∉ moment.offset.elim [] UtcOffset.format := by
    cases moment.offset with
    | none => simp
    | some offset =>
      simp only [Option.elim, UtcOffset.format]
      split <;> split <;> try split
      all_goals simp [pad_plain]
  intro member
  rcases List.mem_append.mp member with member | member
  · exact reading member
  · exact offset member

end Timestamp
end Foundation
