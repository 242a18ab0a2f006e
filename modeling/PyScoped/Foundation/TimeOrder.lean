import Mathlib.Data.String.Basic
import PyScoped.Foundation.Instants

/-! The texts of instants shown in UTC sort as the instants do: the calendar
counts up with the days, and every field of a text has its own width. -/

namespace Foundation

/-- Year and day of the year, counted from zero. -/
def yearDay (days : Nat) : Nat × Nat :=
  let year := days / 146097 * 400 + 1 + days % 146097 / 36524 * 100 + days % 146097 % 36524 / 1461 * 4 +
    days % 146097 % 36524 % 1461 / 365
  if days % 146097 % 36524 % 1461 / 365 = 4 ∨ days % 146097 / 36524 = 4 then (year - 1, 365)
  else (year, days % 146097 % 36524 % 1461 % 365)

/-- Whether the year of the day has 366 of them. -/
def leapDay (days : Nat) : Bool :=
  days % 146097 % 36524 % 1461 / 365 = 4 || days % 146097 / 36524 = 4 ||
    (days % 146097 % 36524 % 1461 / 365 = 3 && (days % 146097 % 36524 / 1461 ≠ 24 || days % 146097 / 36524 = 3))

theorem ofDays_eq (days : Nat) : ofDays days = ((yearDay days).1, monthDay (leapDay days) (yearDay days).2) := by
  unfold ofDays yearDay leapDay
  extract_lets year n n100 m n4 k n1 year'
  split
  next last =>
    simp only [Bool.or_eq_true, decide_eq_true_eq] at last
    have last : k / 365 = 4 ∨ n / 36524 = 4 := last
    have leap : (decide (k / 365 = 4) || decide (n / 36524 = 4) ||
        (decide (k / 365 = 3) && (decide (m / 1461 ≠ 24) || decide (n / 36524 = 3)))) = true := by
      simp only [Bool.or_eq_true, decide_eq_true_eq]
      exact .inl last
    have lastDay : monthDay true 365 = (12, 31) := by decide
    rw [if_pos last, leap, lastDay]
  next inner =>
    simp only [Bool.or_eq_true, decide_eq_true_eq] at inner
    have inner : ¬(k / 365 = 4 ∨ n / 36524 = 4) := inner
    have plain : (decide (k / 365 = 4) || decide (n / 36524 = 4)) = false := by
      simpa [not_or] using inner
    rw [if_neg inner, plain, Bool.false_or]

/-- The day after is the next one of the same year, or the first of the next. -/
theorem yearDay_succ (days : Nat) :
    (yearDay (days + 1) = ((yearDay days).1, (yearDay days).2 + 1) ∧ leapDay (days + 1) = leapDay days ∧
      (yearDay days).2 + 1 < 365 + (leapDay days).toNat) ∨ yearDay (days + 1) = ((yearDay days).1 + 1, 0) := by
  -- The end of a cycle of 400, 100, 4 years or of one year, the longest first.
  by_cases cycle : days % 146097 = 146096
  · right
    have next : (days + 1) % 146097 = 0 := by omega
    have carried : (days + 1) / 146097 = days / 146097 + 1 := by omega
    simp [yearDay, next, carried, cycle]
    omega
  have next : (days + 1) % 146097 = days % 146097 + 1 := by omega
  have kept : (days + 1) / 146097 = days / 146097 := by omega
  have bound : days % 146097 < 146096 := by omega
  simp only [yearDay, leapDay, next, kept]
  generalize days / 146097 = q
  generalize days % 146097 = a at *
  by_cases century : a % 36524 = 36523
  · have next : (a + 1) % 36524 = 0 := by omega
    have carried : (a + 1) / 36524 = a / 36524 + 1 := by omega
    have low : a / 36524 < 4 := by omega
    simp only [next, carried, century]
    by_cases third : a / 36524 = 3
    · left
      simp [third]
    · right
      have inner : a / 36524 ≠ 4 := by omega
      have inner' : a / 36524 + 1 ≠ 4 := by omega
      simp [inner, inner']
      omega
  have next : (a + 1) % 36524 = a % 36524 + 1 := by omega
  have kept : (a + 1) / 36524 = a / 36524 := by omega
  have inner : a / 36524 ≠ 4 := by omega
  have bound : a % 36524 < 36523 := by omega
  simp only [next, kept, inner]
  generalize a / 36524 = hundreds at *
  generalize a % 36524 = b at *
  by_cases quadrennium : b % 1461 = 1460
  · right
    have next : (b + 1) % 1461 = 0 := by omega
    have carried : (b + 1) / 1461 = b / 1461 + 1 := by omega
    simp [next, carried, quadrennium]
    omega
  have next : (b + 1) % 1461 = b % 1461 + 1 := by omega
  have kept : (b + 1) / 1461 = b / 1461 := by omega
  have bound : b % 1461 < 1460 := by omega
  have short : b / 1461 = 24 → b % 1461 < 1459 := by omega
  simp only [next, kept]
  generalize b / 1461 = fours at *
  generalize b % 1461 = c at *
  by_cases year : c % 365 = 364
  · have next : (c + 1) % 365 = 0 := by omega
    have carried : (c + 1) / 365 = c / 365 + 1 := by omega
    by_cases third : c / 365 = 3
    · left
      have long : fours ≠ 24 := by omega
      simp [carried, third, year, long]
    · right
      have inner : c / 365 ≠ 4 := by omega
      have inner' : c / 365 + 1 ≠ 4 := by omega
      simp [next, carried, inner, inner']
      omega
  · left
    have next : (c + 1) % 365 = c % 365 + 1 := by omega
    have kept : (c + 1) / 365 = c / 365 := by omega
    have inner : c / 365 ≠ 4 := by omega
    simp [next, kept, inner]
    omega

/-- One number that orders the days of the calendar. -/
def dateKey (days : Nat) : Nat := ((ofDays days).1 * 100 + (ofDays days).2.1) * 100 + (ofDays days).2.2

private theorem monthDay_succ : ∀ leap : Bool, ∀ n < 365 + leap.toNat, n + 1 < 365 + leap.toNat →
    (monthDay leap n).1 * 100 + (monthDay leap n).2 < (monthDay leap (n + 1)).1 * 100 + (monthDay leap (n + 1)).2 := by
  decide +kernel

theorem dateKey_strictMono : ∀ {first second : Nat}, first < second → second < 3652059 → dateKey first < dateKey second := by
  have step : ∀ days < 3652059, dateKey days < dateKey (days + 1) := by
    intro days small
    have bounded := ofDays_bounded days small
    rw [dateKey, dateKey, ofDays_eq, ofDays_eq] at *
    obtain ⟨same, leap, room⟩ | next := yearDay_succ days
    · have later := monthDay_succ (leapDay days) (yearDay days).2 (by omega) room
      rw [same, leap]
      dsimp only
      omega
    · rw [next]
      dsimp only at *
      omega
  intro first second less small
  induction second, less using Nat.le_induction with
  | base => exact step first (by omega)
  | succ second later ih => exact (ih (by omega)).trans (step second (by omega))

namespace DateTime

/-- Counted in microseconds or written in fields, a later time of the day is greater. -/
private theorem time_lt {date h i s f h' i' s' f' : Nat} (minute : i < 60)
    (minute' : i' < 60) (second' : s' < 60) (fraction' : f' < 1000000)
    (less : h * 3600000000 + i * 60000000 + s * 1000000 + f < h' * 3600000000 + i' * 60000000 + s' * 1000000 + f') :
    (((date * 100 + h) * 100 + i) * 100 + s) * 1000000 + f < (((date * 100 + h') * 100 + i') * 100 + s') * 1000000 + f' := by
  obtain hour | rfl | hour := Nat.lt_trichotomy h h'
  · linarith
  · obtain minute | rfl | minute := Nat.lt_trichotomy i i'
    · linarith
    · linarith
    · linarith
  · linarith

/-- Later instants have a later reading. -/
theorem key_ofMicroseconds_lt {n m : Nat} (less : n < m) (small : n < 315537897600000000) (small' : m < 315537897600000000) :
    (ofMicroseconds n small).key < (ofMicroseconds m small').key := by
  have split : ∀ k (small : k < 315537897600000000), (ofMicroseconds k small).key =
      (((dateKey (k / 86400000000) * 100 + k / 3600000000 % 24) * 100 + k / 60000000 % 60) * 100 + k / 1000000 % 60) *
        1000000 + k % 1000000 := fun k small => rfl
  have clock : ∀ k : Nat, k % 86400000000 = k / 3600000000 % 24 * 3600000000 + k / 60000000 % 60 * 60000000 +
      k / 1000000 % 60 * 1000000 + k % 1000000 := by
    intro k
    omega
  rw [split, split]
  by_cases day : n / 86400000000 = m / 86400000000
  · have within : n % 86400000000 < m % 86400000000 := by omega
    rw [clock n, clock m] at within
    rw [day]
    exact time_lt (Nat.mod_lt _ (by decide)) (Nat.mod_lt _ (by decide)) (Nat.mod_lt _ (by decide))
      (Nat.mod_lt _ (by decide)) within
  · have later := dateKey_strictMono (show n / 86400000000 < m / 86400000000 by omega) (by omega)
    generalize dateKey (n / 86400000000) = date at *
    generalize dateKey (m / 86400000000) = date' at *
    omega

theorem second_ofMicroseconds_lt {n m : Nat} (less : n / 1000000 < m / 1000000) (small : n < 315537897600000000)
    (small' : m < 315537897600000000) :
    (ofMicroseconds n small).key / 1000000 < (ofMicroseconds m small').key / 1000000 := by
  have whole : ∀ k l (small : k < 315537897600000000) (small' : l < 315537897600000000), k / 1000000 = l / 1000000 →
      (ofMicroseconds k small).key / 1000000 = (ofMicroseconds l small').key / 1000000 := by
    intro k l small small' same
    have split : ∀ k (small : k < 315537897600000000), (ofMicroseconds k small).key / 1000000 =
        ((dateKey (k / 86400000000) * 100 + k / 3600000000 % 24) * 100 + k / 60000000 % 60) * 100 + k / 1000000 % 60 := by
      intro k small
      simp only [key, ofMicroseconds, dateKey]
      omega
    have day : k / 86400000000 = l / 86400000000 := by omega
    have hour : k / 3600000000 = l / 3600000000 := by omega
    have minute : k / 60000000 = l / 60000000 := by omega
    rw [split, split, day, hour, minute, same]
  -- The last microsecond of the one second against the first of the other.
  obtain ⟨last, isLast⟩ : ∃ last, last = n / 1000000 * 1000000 + 999999 := ⟨_, rfl⟩
  obtain ⟨head, isHead⟩ : ∃ head, head = m / 1000000 * 1000000 := ⟨_, rfl⟩
  have lastSmall : last < 315537897600000000 := by omega
  have headSmall : head < 315537897600000000 := by omega
  have later := key_ofMicroseconds_lt (show last < head by omega) lastSmall headSmall
  have full : (ofMicroseconds last lastSmall).microsecond = 999999 := by
    simp only [ofMicroseconds]
    omega
  have bounded := (ofMicroseconds head headSmall).bounded
  rw [whole n last small lastSmall (by omega), whole m head small' headSmall (by omega)]
  unfold key at later ⊢
  omega

private theorem cons_lt_cons (c : Char) {first second : List Char} (less : first < second) : c :: first < c :: second :=
  List.cons_lt_cons_iff.mpr (.inr ⟨rfl, less⟩)

private theorem append_lt {first second : List Char} (length : first.length = second.length) (less : first < second)
    (rest rest' : List Char) : first ++ rest < second ++ rest' := by
  induction first generalizing second with
  | nil =>
    cases second with
    | nil => exact absurd less (List.lt_irrefl _)
    | cons c second => cases length
  | cons c first ih =>
    cases second with
    | nil => cases length
    | cons c' second =>
      rw [List.cons_append, List.cons_append, List.cons_lt_cons_iff]
      obtain head | ⟨rfl, tail⟩ := List.cons_lt_cons_iff.mp less
      · exact .inl head
      · exact .inr ⟨rfl, ih (Nat.succ.inj length) tail⟩

private theorem append_lt_append (shared : List Char) {first second : List Char} (less : first < second) :
    shared ++ first < shared ++ second := by
  induction shared with
  | nil => exact less
  | cons c shared ih => exact cons_lt_cons c ih

private theorem digitChar_lt : ∀ first < 10, ∀ second < 10, first < second → first.digitChar < second.digitChar := by
  decide

theorem pad_lt {width n m : Nat} (less : n < m) (small : m < 10 ^ width) : pad width n < pad width m := by
  induction width generalizing n m with
  | zero => omega
  | succ width ih =>
    rw [pad, pad]
    by_cases tens : n / 10 = m / 10
    · rw [tens]
      refine append_lt_append _ (List.cons_lt_cons_iff.mpr (.inl ?_))
      exact digitChar_lt _ (Nat.mod_lt _ (by decide)) _ (Nat.mod_lt _ (by decide)) (by omega)
    · refine append_lt (by simp) (ih (by omega) ?_) _ _
      rw [pow_succ] at small
      omega

/-- A field decides before what stands behind it. -/
private theorem field_lt {width n m : Nat} {rest rest' : List Char} (small : m < 10 ^ width)
    (less : n < m ∨ n = m ∧ rest < rest') : pad width n ++ rest < pad width m ++ rest' := by
  obtain less | ⟨rfl, less⟩ := less
  · exact append_lt (by simp) (pad_lt less small) _ _
  · exact append_lt_append _ less

private theorem fraction_lt {n m : Nat} (less : n < m) (small : m < 1000000) (zone : List Char) :
    (if n = 0 then [] else '.' :: pad 6 n) ++ '+' :: zone < (if m = 0 then [] else '.' :: pad 6 m) ++ '+' :: zone := by
  rw [if_neg (by omega : m ≠ 0)]
  split
  · exact List.cons_lt_cons_iff.mpr (.inl (by decide))
  · exact cons_lt_cons '.' (append_lt (by simp) (pad_lt less small) _ _)

/-- The part of a reading that is left out where it is zero. -/
private def fraction (d : DateTime) : List Char := if d.microsecond = 0 then [] else '.' :: pad 6 d.microsecond

/-- Readings decide by their seconds before what stands behind the seconds. -/
private theorem reading_append_lt {d e : DateTime} {rest rest' : List Char} (less : d.key / 1000000 < e.key / 1000000 ∨
    d.key / 1000000 = e.key / 1000000 ∧ d.fraction ++ rest < e.fraction ++ rest') : d.reading ++ rest < e.reading ++ rest' := by
  have bounded := d.bounded
  have bounded' := e.bounded
  have seconds : ∀ moment : DateTime, moment.microsecond < 1000000 → moment.key / 1000000 =
      ((((moment.year * 100 + moment.month) * 100 + moment.day) * 100 + moment.hour) * 100 + moment.minute) * 100 +
        moment.second := by
    intro moment small
    unfold key
    omega
  rw [seconds d (by omega), seconds e (by omega)] at less
  simp only [reading, List.append_assoc, List.cons_append]
  refine field_lt (by omega) ?_
  by_cases year : d.year = e.year
  swap
  · exact .inl (by omega)
  refine .inr ⟨year, cons_lt_cons _ (field_lt (by omega) ?_)⟩
  by_cases month : d.month = e.month
  swap
  · exact .inl (by omega)
  refine .inr ⟨month, cons_lt_cons _ (field_lt (by omega) ?_)⟩
  by_cases day : d.day = e.day
  swap
  · exact .inl (by omega)
  refine .inr ⟨day, cons_lt_cons _ (field_lt (by omega) ?_)⟩
  by_cases hour : d.hour = e.hour
  swap
  · exact .inl (by omega)
  refine .inr ⟨hour, cons_lt_cons _ (field_lt (by omega) ?_)⟩
  by_cases minute : d.minute = e.minute
  swap
  · exact .inl (by omega)
  refine .inr ⟨minute, cons_lt_cons _ (field_lt (by omega) ?_)⟩
  by_cases second : d.second = e.second
  swap
  · exact .inl (by omega)
  obtain earlier | ⟨-, later⟩ := less
  · omega
  · exact .inr ⟨second, later⟩

/-- A reading of an earlier second comes first, whatever zones are written behind the readings. -/
theorem reading_lt {d e : DateTime} (less : d.key / 1000000 < e.key / 1000000) (rest rest' : List Char) :
    d.reading ++ rest < e.reading ++ rest' := reading_append_lt (.inl less)

/-- Texts of readings in UTC sort as the readings do. -/
theorem isoformat_lt {d e : DateTime} (less : d.key < e.key) : d.isoformat < e.isoformat := by
  rw [isoformat_eq, isoformat_eq]
  apply reading_append_lt
  by_cases second : d.key / 1000000 < e.key / 1000000
  · exact .inl second
  · have bounded := d.bounded
    have bounded' := e.bounded
    have same : d.key / 1000000 = e.key / 1000000 := by omega
    refine .inr ⟨same, fraction_lt ?_ (by omega) _⟩
    unfold key at less same
    omega

end DateTime

/-- Instants shown in UTC are written in texts of the same order. -/
theorem Aware.isoformat_lt_iff {first second : Aware} (utc : first.offset = .utc) (utc' : second.offset = .utc) :
    first.isoformat < second.isoformat ↔ first.instant < second.instant := by
  have text : ∀ moment : Aware, moment.offset = .utc → moment.isoformat.toList = moment.clock.isoformat := by
    intro moment utc
    rw [Aware.isoformat, String.toList_ofList, ← Timestamp.isoformat_utc, Aware.timestamp, utc]
    rfl
  have later : ∀ {first second : Aware}, first.offset = .utc → second.offset = .utc → first.instant < second.instant →
      first.isoformat < second.isoformat := by
    intro first second utc utc' less
    rw [String.lt_iff_toList_lt, text first utc, text second utc']
    refine DateTime.isoformat_lt (DateTime.key_ofMicroseconds_lt ?_ _ _)
    have inRange := first.inRange
    have inRange' := second.inRange
    rw [utc] at inRange ⊢
    rw [utc'] at inRange' ⊢
    simp only [Offset.utc] at *
    omega
  refine ⟨fun less => ?_, later utc utc'⟩
  by_contra order
  obtain before | same := (Int.not_lt.mp order).lt_or_eq
  · exact String.lt_asymm less (later utc' utc before)
  · rw [Aware.ext same (utc'.trans utc.symm)] at less
    exact String.lt_irrefl _ less

/-- The second that its clock shows, counted from the start of the calendar. -/
def Aware.second (moment : Aware) : Nat := (moment.instant + moment.offset.microseconds).toNat / 1000000

/-- What a clock shows seconds earlier has the smaller text, whatever the offsets are. -/
theorem Aware.isoformat_lt_of_second {first second : Aware} (less : first.second < second.second) :
    first.isoformat < second.isoformat := by
  have text : ∀ moment : Aware, moment.isoformat.toList =
      moment.clock.reading ++ moment.offset.toUtcOffset.format := by
    intro moment
    rw [Aware.isoformat, String.toList_ofList]
    rfl
  rw [String.lt_iff_toList_lt, text, text]
  apply DateTime.reading_lt
  have inRange := second.inRange
  exact DateTime.second_ofMicroseconds_lt less _ _

end Foundation
