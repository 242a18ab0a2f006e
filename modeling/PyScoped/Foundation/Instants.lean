import PyScoped.Foundation.Timestamp

/-! Aware datetimes: an instant, in microseconds since the first day of the
calendar, and how far the clock that shows it is from UTC. -/

namespace Foundation

def daysBeforeMonth : List Nat := [0, 0, 31, 59, 90, 120, 151, 181, 212, 243, 273, 304, 334]

def daysInMonth : List Nat := [0, 31, 28, 31, 30, 31, 30, 31, 31, 30, 31, 30, 31]

/-- Month and day of the year, from an estimate of the month that is at most one too large. -/
def monthDay (leap : Bool) (n : Nat) : Nat × Nat :=
  let month := (n + 50) / 32
  let preceding := daysBeforeMonth.getD month 0 + (if month > 2 && leap then 1 else 0)
  if preceding > n then
    let month := month - 1
    (month, n - (preceding - (daysInMonth.getD month 0 + (if month = 2 && leap then 1 else 0))) + 1)
  else (month, n - preceding + 1)

theorem monthDay_bounded : ∀ leap : Bool, ∀ n < 365 + leap.toNat, (monthDay leap n).1 < 100 ∧ (monthDay leap n).2 < 100 := by
  decide +kernel

/-- Year, month and day from the number of days since 0001-01-01. -/
def ofDays (days : Nat) : Nat × Nat × Nat :=
  let year := days / 146097 * 400 + 1
  let n := days % 146097
  let n100 := n / 36524
  let n := n % 36524
  let n4 := n / 1461
  let n := n % 1461
  let n1 := n / 365
  let year := year + n100 * 100 + n4 * 4 + n1
  if n1 = 4 || n100 = 4 then (year - 1, 12, 31)
  else (year, monthDay (n1 = 3 && (n4 ≠ 24 || n100 = 3)) (n % 365))

theorem ofDays_bounded (days : Nat) (small : days < 3652059) :
    (ofDays days).1 < 10000 ∧ (ofDays days).2.1 < 100 ∧ (ofDays days).2.2 < 100 := by
  unfold ofDays
  extract_lets year n n100 m n4 k n1 year'
  split
  next last =>
    simp only [Bool.or_eq_true, decide_eq_true_eq] at last
    refine ⟨?_, ?_, ?_⟩ <;> dsimp only <;> omega
  next inner =>
    simp only [Bool.or_eq_true, decide_eq_true_eq, not_or] at inner
    exact ⟨by omega, monthDay_bounded _ _ (by omega)⟩

namespace DateTime

/-- What a clock shows so many microseconds after the start of 0001-01-01. -/
def ofMicroseconds (n : Nat) (small : n < 315537897600000000) : DateTime where
  year := (ofDays (n / 86400000000)).1
  month := (ofDays (n / 86400000000)).2.1
  day := (ofDays (n / 86400000000)).2.2
  hour := n / 3600000000 % 24
  minute := n / 60000000 % 60
  second := n / 1000000 % 60
  microsecond := n % 1000000
  bounded := by
    obtain ⟨year, month, day⟩ := ofDays_bounded (n / 86400000000) (by omega)
    exact ⟨year, month, day, by omega, by omega, by omega, by omega⟩

example : (ofMicroseconds 63902919845006789 (by decide)).reading = "2026-01-02T03:04:05.006789".toList := by
  decide +kernel

end DateTime

/-- A difference from UTC of less than a day. -/
structure Offset where
  microseconds : Int
  bounded : -86400000000 < microseconds ∧ microseconds < 86400000000
  deriving DecidableEq

namespace Offset

def utc : Offset := ⟨0, by decide⟩

def toUtcOffset (offset : Offset) : UtcOffset where
  negative := offset.microseconds < 0
  hours := offset.microseconds.natAbs / 3600000000
  minutes := offset.microseconds.natAbs / 60000000 % 60
  seconds := offset.microseconds.natAbs / 1000000 % 60
  microseconds := offset.microseconds.natAbs % 1000000
  bounded := by
    have bounded := offset.bounded
    omega

theorem toUtcOffset_inj {first second : Offset} (same : first.toUtcOffset = second.toUtcOffset) : first = second := by
  simp only [toUtcOffset, UtcOffset.mk.injEq, decide_eq_decide] at same
  obtain ⟨n, bounded⟩ := first
  obtain ⟨m, bounded'⟩ := second
  simp only [Offset.mk.injEq]
  dsimp only at same
  omega

end Offset

structure Aware where
  instant : Int
  offset : Offset
  inRange : 0 ≤ instant + offset.microseconds ∧ instant + offset.microseconds < 315537897600000000
  deriving DecidableEq

namespace Aware

def clock (moment : Aware) : DateTime :=
  .ofMicroseconds (moment.instant + moment.offset.microseconds).toNat (by
    have inRange := moment.inRange
    omega)

def timestamp (moment : Aware) : Timestamp := ⟨moment.clock, some moment.offset.toUtcOffset⟩

/-- The same instant, shown with the same offset. -/
theorem ext {first second : Aware} (instant : first.instant = second.instant) (offset : first.offset = second.offset) :
    first = second := by
  cases first
  cases second
  simp_all

def isoformat (moment : Aware) : String := String.ofList moment.timestamp.isoformat

end Aware

/-- What a clock in UTC reads. -/
structure Moment extends Aware where
  utc : offset = .utc

namespace Moment

instance : LE Moment := ⟨fun first second => first.instant ≤ second.instant⟩

theorem le_def (first second : Moment) : first ≤ second ↔ first.instant ≤ second.instant := Iff.rfl

/-- So many microseconds after the start of 0001-01-01. -/
def of (instant : Nat) (small : instant < 315537897600000000) : Moment where
  instant := instant
  offset := .utc
  inRange := ⟨by simp [Offset.utc], by simpa [Offset.utc] using small⟩
  utc := rfl

theorem start_within : 0 < 315537897600000000 := by decide

end Moment
end Foundation
